import QueryLanes.Proofs.Failing

/-!
# The life of a query

`Client.lifecycle` says how a query ends: that what a caller sees of it between calls never leads
back, that a query that is over stays as it is and answers every call alike, that only a fault fails
it, whatever its reader refuses and whatever wait is given up, and that an iteration reports its
failure once. For the last, `Solo.Finished` is what is left of an iteration after that.
-/

namespace QueryLanes

variable {α : Type}

namespace Solo

variable {s s' : Solo α} {hand : List Delivery} {done : List Wave} {w : Wave}
  {read rest : List Payload} {p : Progress} {e : Failure}

/-! ## Iterations -/

/-- Nothing is left of an iteration: the query is exhausted, or its failure was reported. -/
structure Finished (s : Solo α) : Prop where
  progress : s.query.progress = .exhausted ∨
    s.query.fused = true ∧ ∃ e, s.query.progress = .failed e
  idle : s.waiting = none

/-- The failure by which a pull for an iteration ends the query is reported with it. -/
theorem fused_of_pulled {d : Delivery} {e e' : Failure}
    (hr : (s.pulled .item d).2 = some (.failed e))
    (hp : (s.pulled .item d).1.query.progress = .failed e') :
    (s.pulled .item d).1.query.fused = true := by
  have hpulls := s.pulls .item d
  generalize s.pulled .item d = o at hpulls hr hp ⊢
  cases hpulls with
  | refused => cases hp
  | unsent | failed | broken => exact Query.fused_fuse rfl
  | answer | sent | ended => cases hr

theorem fused_of_ask_next (hr : (s.ask .next).2 = some (.failed e)) :
    (s.ask .next).1.query.fused = true := by
  have hasks := s.asks .next
  generalize s.ask .next = o at hasks hr ⊢
  cases hasks with
  | failed _ hk hp =>
    cases hk
    exact Query.fused_fuse hp
  | ended _ hk =>
    cases hk
    cases hr
  | _ => cases hr

/-- An iteration that is told of the failure of its query is over. -/
theorem fused_of_act {a : Act} {e e' : Failure}
    (ha : a = .ask .next ∨ (a = .take ∨ a = .giveUp) ∧ s.waiting = some (.pull .item))
    (hr : (s.act a).2 = some (.failed e)) (hp : (s.act a).1.query.progress = .failed e') :
    (s.act a).1.query.fused = true := by
  rcases ha with rfl | ⟨rfl | rfl, hw⟩
  · exact fused_of_ask_next hr
  · have hact : s.act .take = s.take := rfl
    rw [hact, take_pull hw] at hr hp ⊢
    cases hpoll : s.poll with
    | none =>
      rw [hpoll] at hr
      cases hr
    | some ds =>
      rw [hpoll] at hr hp
      exact fused_of_pulled hr hp
  · rw [show s.act .giveUp = (s, none) from giveUp_of_not_start (by simp [hw])] at hr
    cases hr

/-- What an iteration is told by a query that it has nothing to expect of. -/
theorem ask_next_of_finished (h : s.Finished) {r : Reply α} (hr : (s.ask .next).2 = some r) :
    r = .answer none ∨ r = .noSuchHandle := by
  have hasks := s.asks .next
  generalize s.ask .next = o at hasks hr
  cases hasks with
  | gone =>
    cases hr
    exact .inr rfl
  | fused =>
    cases hr
    exact .inl rfl
  | ended _ hk =>
    cases hk
    cases hr
    exact .inl rfl
  | failed _ hk hp =>
    cases hk with
    | item hf =>
      rcases h.progress with hex | ⟨hyes, -⟩
      · rw [hp] at hex
        cases hex
      · rw [hf] at hyes
        cases hyes
  | waits | pulls => cases hr

theorem fused_ask (hf : s.query.fused = true) (k : Ask) : (s.ask k).1.query.fused = true := by
  have hasks := s.asks k
  generalize s.ask k = o at hasks ⊢
  cases hasks with
  | failed => exact Query.fused_fuse_of_fused hf _
  | _ => exact hf

theorem Finished.act (h : s.Finished) (a : Act) : (s.act a).1.Finished := by
  have hover : s.query.progress.isOver = true := by
    rcases h.progress with hp | ⟨-, e, hp⟩ <;> rw [hp] <;> rfl
  cases a with
  | ask k =>
    have hp : (s.act (.ask k)).1.query.progress = s.query.progress := (mild_ask s k).progress
    refine ⟨?_, waiting_ask hover k⟩
    rw [hp]
    exact h.progress.imp_right fun ⟨hf, he⟩ => ⟨fused_ask hf k, he⟩
  | take =>
    rw [show s.act .take = s.take from rfl, take_of_waiting_none h.idle]
    exact h
  | giveUp =>
    rw [show s.act .giveUp = (s, none) from giveUp_of_not_start (by simp [h.idle])]
    exact h
  | _ => exact ⟨h.progress, h.idle⟩

end Solo

namespace Client

variable {c : Client α} {h : Handle} {q q' : Query α} {m : Move α} {e : Failure}

/-! ## Iterations of a client -/

/-- Whether a move begins an iteration's call on the query at a place, or takes one on. -/
def iterates (c : Client α) (h : Handle) : Move α → Bool
  | .call (.next h') => h' == h && c.waiting.isNone
  | .resume | .expire => match c.waiting with
    | some (.pull h' .item) => h' == h
    | _ => false
  | _ => false

/-- What an iteration over the query at a place yields during a run. -/
def items (c : Client α) (h : Handle) : List (Move α) → List (Reply α)
  | [] => []
  | m :: ms => (if c.iterates h m then (c.step m).2.toList else []) ++ (c.step m).1.items h ms

/-- With the move an iteration yields the failure of the query at a place. -/
def Reports (c : Client α) (h : Handle) (m : Move α) : Prop :=
  c.iterates h m = true ∧ (∃ e, (c.step m).2 = some (.failed e)) ∧
    ∃ q e, (c.step m).1.queries[h]? = some q ∧ q.progress = .failed e

/-- A move of an iteration is a call of it, or a look or the end of a wait. -/
theorem iterates_cases (hm : c.iterates h m = true) :
    (m = .call (.next h) ∧ c.waiting = none) ∨
      ((m = .resume ∨ m = .expire) ∧ c.waiting = some (.pull h .item)) := by
  unfold iterates at hm
  split at hm
  · rename_i h'
    obtain ⟨hh, hw⟩ := Bool.and_eq_true_iff.1 hm
    rw [eq_of_beq hh]
    exact .inl ⟨rfl, Option.isNone_iff_eq_none.1 hw⟩
  · split at hm
    · rename_i hw
      rw [← eq_of_beq hm]
      exact .inr ⟨.inl rfl, hw⟩
    · cases hm
  · split at hm
    · rename_i hw
      rw [← eq_of_beq hm]
      exact .inr ⟨.inr rfl, hw⟩
    · cases hm
  · cases hm

theorem concerns_of_iterates (hm : c.iterates h m = true) : c.concerns m h = true := by
  rcases iterates_cases hm with ⟨rfl, hw⟩ | ⟨hm, hw⟩
  · simp [concerns, hw, Call.ask?]
  · have hwaits : c.waitsOn h = true := by simp [waitsOn, hw, Wait.on]
    rcases hm with rfl | rfl <;> exact hwaits

/-- A query of which an iteration has nothing to expect yields nothing any more. -/
theorem Reachable.items_of_finished (hc : c.Reachable) {ms : List (Move α)}
    (hb : (c.runAll ms).1.link.issued ≤ 2 ^ 64) (hq : c.queries[h]? = some q)
    (hfin : (c.soloOf h q).Finished) {r : Reply α} (hr : r ∈ c.items h ms) :
    r = .answer none ∨ r = .noSuchHandle := by
  induction ms generalizing c q with
  | nil => cases hr
  | cons m ms ih =>
    rw [runAll_cons] at hb
    have hb₁ : (c.step m).1.link.issued ≤ 2 ^ 64 := Nat.le_trans (issued_runAll _ ms) hb
    have hb₀ := Nat.le_trans (issued_step c m) hb₁
    have hstep := (hc.sound hb₀).step m hb₁
    rw [items, List.mem_append] at hr
    rcases hr with hr | hr
    · cases hm : c.iterates h m with
      | false =>
        rw [hm] at hr
        cases hr
      | true =>
        rw [hm, if_pos rfl, Option.mem_toList] at hr
        rcases iterates_cases hm with ⟨rfl, hw⟩ | ⟨-, hw⟩
        · obtain ⟨a, q', -, -, hown, hreply, -⟩ :=
            hstep.replied hq (concerns_of_iterates hm) hr
          have hask : c.ownActs h q (.call (.next h)) = [.ask .next] := by
            simp [ownActs, hw, Call.ask?]
          rw [hask] at hown
          cases hown
          exact Solo.ask_next_of_finished hfin hreply
        · have hidle := hfin.idle
          rw [soloOf, hw] at hidle
          simp [Wait.on] at hidle
    · have hb₁ : (c.runAll [m]).1.link.issued ≤ 2 ^ 64 := hb₁
      obtain ⟨q₁, hq₁, -, hfin₁⟩ := (hc.sound hb₀).solo_runAll (J := Solo.Finished)
        (fun s a _ hs => hs.act a) hb₁ hq hfin
      exact ih (hc.step m) hb hq₁ hfin₁ hr

theorem ownActs_of_iterates (hm : c.iterates h m = true) {a : Act} (hown : c.ownActs h q m = [a]) :
    a = .ask .next ∨ (a = .take ∨ a = .giveUp) ∧ (c.soloOf h q).waiting = some (.pull .item) := by
  rcases iterates_cases hm with ⟨rfl, hw⟩ | ⟨hmove, hw⟩
  · have hask : c.ownActs h q (.call (.next h)) = [.ask .next] := by
      simp [ownActs, hw, Call.ask?]
    rw [hask] at hown
    cases hown
    exact .inl rfl
  · have hwait : (c.soloOf h q).waiting = some (.pull .item) := by
      rw [soloOf, hw]
      simp [Wait.on]
    refine .inr ⟨?_, hwait⟩
    have hwaits : c.waitsOn h = true := congrArg Option.isSome hwait
    rcases hmove with rfl | rfl
    · rw [show c.ownActs h q .resume = [.take] from if_pos hwaits] at hown
      cases hown
      exact .inl rfl
    · simp only [ownActs, hwaits, if_true] at hown
      split at hown
      · cases hown
        exact .inl rfl
      · split at hown <;> cases hown
        exact .inr rfl

/-- An iteration that yields the failure of its query has nothing to expect any more. -/
theorem Reachable.finished_of_reports (hc : c.Reachable)
    (hb : (c.step m).1.link.issued ≤ 2 ^ 64) (hq : c.queries[h]? = some q) (hm : c.Reports h m) :
    ∃ q', (c.step m).1.queries[h]? = some q' ∧ ((c.step m).1.soloOf h q').Finished := by
  obtain ⟨hm, ⟨e, hr⟩, q', e', hq', hp'⟩ := hm
  have hb₀ := Nat.le_trans (issued_step c m) hb
  have hstep := (hc.sound hb₀).step m hb
  obtain ⟨a, q₁, hq₁, -, hown, hreply, hsolo⟩ := hstep.replied hq (concerns_of_iterates hm) hr
  rw [hq'] at hq₁
  cases hq₁
  have hprogress : ((c.soloOf h q).act a).1.query.progress = .failed e' :=
    (congrArg (·.query.progress) hsolo).symm.trans hp'
  have hfused : q'.fused = true := (congrArg (·.query.fused) hsolo).trans
    (Solo.fused_of_act (ownActs_of_iterates hm hown) hreply hprogress)
  have hover := Solo.over_of_isOver ((hc.step m).stands hb hq') (by
    rw [show ((c.step m).1.soloOf h q').query.progress = q'.progress from rfl, hp']
    rfl)
  exact ⟨q', hq', .inr ⟨hfused, e', hp'⟩, hover.idle⟩

/-- What a caller sees of a query between calls leads from pending through streaming to its end, and
never back. A query that is exhausted or has failed stays so: nothing is sent for it, its batch
sizes stay, and it answers all calls alike. It fails exactly if a waiting call finds a fault, so
neither a wait that is given up nor a refusal of its reader fails it. An iteration yields the failure
of its query at most once, and nothing after that or after the end. -/
theorem lifecycle (hc : c.Reachable) (hb : c.link.issued ≤ 2 ^ 64)
    (hq : c.queries[h]? = some q) :
    (c.waitsOn h = false → q.progress ≠ .continuing ∧
      ∀ ms q', (c.runAll ms).1.link.issued ≤ 2 ^ 64 → (c.runAll ms).1.queries[h]? = some q' →
        (c.runAll ms).1.waitsOn h = false → q.progress.Leads q'.progress) ∧
    (q.progress.isOver = true →
      ∀ ms q', (c.runAll ms).1.link.issued ≤ 2 ^ 64 → (c.runAll ms).1.queries[h]? = some q' →
        (q'.progress = q.progress ∧ q'.batchSizes = q.batchSizes ∧
          (c.runAll ms).1.link.frames q.lane = c.link.frames q.lane) ∧
        ((c.runAll ms).1.waiting = none → q'.held = true → ∀ bound,
          (q.progress = .exhausted →
            ((c.runAll ms).1.step (.call (.nextAnswer h))).2 = some (.answer none) ∧
            ((c.runAll ms).1.step (.call (.start h bound))).2 = some .done) ∧
          ∀ e, q.progress = .failed e →
            ((c.runAll ms).1.step (.call (.nextAnswer h))).2 = some (.failed e) ∧
            ((c.runAll ms).1.step (.call (.start h bound))).2 = some (.failed e))) ∧
    (∀ m q' e, (c.step m).1.link.issued ≤ 2 ^ 64 → (c.step m).1.queries[h]? = some q' →
      (q'.progress = .failed e ↔ q.progress = .failed e ∨ c.Fails h m e)) ∧
    (q.progress = .exhausted → ∀ ms, (c.runAll ms).1.link.issued ≤ 2 ^ 64 →
      ∀ r ∈ c.items h ms, r = .answer none ∨ r = .noSuchHandle) ∧
    ∀ m ms, (c.runAll (m :: ms)).1.link.issued ≤ 2 ^ 64 → c.Reports h m →
      ∀ r ∈ (c.step m).1.items h ms, r = .answer none ∨ r = .noSuchHandle := by
  refine ⟨fun hw => ?_, fun hover ms q' hb' hq' => ?_, fun m q' e hb' hq' => ?_,
    fun hp ms hb' r hr => ?_, fun m ms hb' hm r hr => ?_⟩
  · have hp := hc.not_continuing hb hq hw
    refine ⟨hp, fun ms q' hb' hq' hw' => ?_⟩
    rcases (hc.came hb' hq hp hq').leads with hleads | ⟨hcont, -⟩
    · exact hleads
    · have hcont : q'.progress = .continuing := hcont
      exact absurd hcont ((hc.runAll ms).not_continuing hb' hq' hw')
  · have hkept := hc.over hb' hq hover hq'
    refine ⟨hkept, fun hw hheld bound => ⟨fun hp => ?_, fun e hp => ?_⟩⟩
    · exact calls_of_exhausted hw (Option.filter_eq_some_iff.2 ⟨hq', hheld⟩)
        (hkept.1.trans hp) bound
    · exact calls_of_failed hw (Option.filter_eq_some_iff.2 ⟨hq', hheld⟩)
        (hkept.1.trans hp) bound
  · exact hc.failed_iff hb' hq hq'
  · have hover := Solo.over_of_isOver (hc.stands hb hq) (by
      rw [show (c.soloOf h q).query.progress = q.progress from rfl, hp]
      rfl)
    exact hc.items_of_finished hb' hq ⟨.inl hp, hover.idle⟩ hr
  · rw [runAll_cons] at hb'
    have hb₁ : (c.step m).1.link.issued ≤ 2 ^ 64 := Nat.le_trans (issued_runAll _ ms) hb'
    obtain ⟨q', hq', hfin⟩ := hc.finished_of_reports hb₁ hq hm
    exact (hc.step m).items_of_finished hb' hq' hfin hr

/-- A query whose reader refuses its first answer with the failure of a lost connection, and an item
after that which makes no sense. -/
def refusing : List (Move Payload) :=
  [.call (.openSession "db" .data), .arrive ⟨1, .sessionOpened 7⟩, .resume,
    .call (.openTransaction 0 .read), .arrive ⟨2, .transactionOpened 9⟩, .resume,
    .call (.query 0 [113] {} fun _ _ => .error .connectionClosed), .arrive ⟨3, .data [1]⟩,
    .call (.next 0), .resume, .arrive ⟨3, .item ⟨0, false, none⟩⟩, .call (.next 0)]

theorem lifecycle_refusing :
    ∃ c c' : Client Payload, ((new none).runAll refusing).1 = c ∧ (c.step .resume).1 = c' ∧
      (new (α := Payload) none).repliesTo 0 refusing = [.failed .connectionClosed] ∧
      ∃ q q', c.queries[0]? = some q ∧ c'.queries[0]? = some q' ∧ q.progress = .streaming ∧
        q'.progress = .failed (.violation .malformedItem) ∧
        c.Fails 0 .resume (.violation .malformedItem) ∧
        (c'.step (.call (.nextAnswer 0))).2 = some (.failed (.violation .malformedItem)) ∧
        ∀ r ∈ c'.items 0 [.call (.next 0), .call (.next 0)],
          r = .answer none ∨ r = .noSuchHandle := by
  obtain ⟨c, hc⟩ : ∃ c : Client Payload, ((new none).runAll refusing).1 = c := ⟨_, rfl⟩
  obtain ⟨c', hc'⟩ : ∃ c', (c.step .resume).1 = c' := ⟨_, rfl⟩
  have hreplies : (new (α := Payload) none).repliesTo 0 refusing = [.failed .connectionClosed] := by
    decide +kernel
  have hb : c.link.issued ≤ 2 ^ 64 := by
    rw [← hc]
    decide +kernel
  have hb' : c'.link.issued ≤ 2 ^ 64 ∧
      (c.runAll [.resume, .call (.next 0), .call (.next 0)]).1.link.issued ≤ 2 ^ 64 := by
    rw [← hc', ← hc]
    decide +kernel
  have hq : c.queries[0]?.map (·.progress) = some .streaming := by
    rw [← hc]
    decide +kernel
  have hq' : c'.waiting.isNone = true ∧ c'.queries[0]?.map (fun q => (q.progress, q.held)) =
      some (.failed (.violation .malformedItem), true) := by
    rw [← hc', ← hc]
    decide +kernel
  have hreported : c.iterates 0 .resume = true ∧
      (c.step .resume).2 = some (.failed (.violation .malformedItem)) := by
    rw [← hc]
    decide +kernel
  obtain ⟨q, hq, hp⟩ := Option.map_eq_some_iff.1 hq
  obtain ⟨hw, hq'⟩ := hq'
  obtain ⟨q', hq', he⟩ := Option.map_eq_some_iff.1 hq'
  obtain ⟨hp', hheld⟩ := Prod.mk.inj he
  have hreach : c.Reachable := ⟨none, refusing, hc.symm⟩
  have hafter : (c.step .resume).1.queries[0]? = some q' := by rw [hc', hq']
  obtain ⟨-, -, hfails, -, hitems⟩ := lifecycle hreach hb hq
  obtain ⟨-, hover, -⟩ := lifecycle (hc' ▸ hreach.step .resume) hb'.1 hq'
  have hfault : c.Fails 0 .resume (.violation .malformedItem) := by
    rcases (hfails .resume q' _ (by rw [hc']; exact hb'.1) hafter).1 hp' with hno | hfault
    · rw [hp] at hno
      cases hno
    · exact hfault
  have hcalls := (hover (by rw [hp']; rfl) [] q' hb'.1 hq').2 (Option.isNone_iff_eq_none.1 hw) hheld
    none
  refine ⟨c, c', hc, hc', hreplies, q, q', hq, hq', hp, hp', hfault, (hcalls.2 _ hp').1, ?_⟩
  have hnone := hitems .resume [.call (.next 0), .call (.next 0)] hb'.2
    ⟨hreported.1, ⟨_, hreported.2⟩, q', _, hafter, hp'⟩
  rwa [hc'] at hnone

end Client

end QueryLanes
