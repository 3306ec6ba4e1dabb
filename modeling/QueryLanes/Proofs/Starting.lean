import Mathlib.Logic.Relation
import QueryLanes.Proofs.Isolation
import QueryLanes.Proofs.Reckoning

/-!
# The start of a query

Whether the server has started to answer a query is read off its progress and a flag of its inbox.
`Solo.Starts` is the invariant that ties both to what its lane has been told: a query that is not
pending was begun to be answered, and the flag is up as soon as the current wave has delivered
something. A wait for the start of a query that has started is over when the caller looks.
-/

namespace QueryLanes

variable {α : Type}

/-- The first of the waves has delivered something. -/
def Wave.Begun (ws : List Wave) : Prop := ∃ w, ws.head? = some w ∧ w.deliveries ≠ []

theorem Wave.begun_singleton {w : Wave} : Begun [w] ↔ w.deliveries ≠ [] := by
  constructor
  · rintro ⟨v, hv, hd⟩
    cases hv
    exact hd
  · intro hd
    exact ⟨w, rfl, hd⟩

/-- What is added to the last wave or comes after it does not undo the beginning. -/
theorem Wave.Begun.modifyLast {ws : List Wave} (h : Begun ws) {f : Wave → Wave}
    (hf : ∀ w, w.deliveries ≠ [] → (f w).deliveries ≠ []) : Begun (ws.modifyLast f) := by
  obtain ⟨v, hv, hd⟩ := h
  rcases List.eq_nil_or_concat' ws with rfl | ⟨done, w, rfl⟩
  · cases hv
  · rw [List.modifyLast_concat]
    cases done with
    | nil =>
      cases hv
      exact ⟨f v, rfl, hf v hd⟩
    | cons u done =>
      cases hv
      exact ⟨v, rfl, hd⟩

theorem Wave.Begun.append {ws : List Wave} (h : Begun ws) (vs : List Wave) : Begun (ws ++ vs) := by
  obtain ⟨w, hw, hd⟩ := h
  refine ⟨w, ?_, hd⟩
  rw [List.head?_append, hw]
  rfl

theorem Wave.deliveries_hear_ne_nil {w : Wave} (h : w.deliveries ≠ []) (r : Response) :
    (w.hear r).deliveries ≠ [] := by
  cases ho : w.isOver with
  | true => rwa [hear_of_isOver ho]
  | false => simp [deliveries_hear ho]

theorem Wave.deliveries_strike_ne_nil {w : Wave} (h : w.deliveries ≠ []) (e : Failure) :
    (w.strike e).deliveries ≠ [] := by
  cases ho : w.isOver with
  | true =>
    unfold strike
    rwa [if_pos ho]
  | false => simp [deliveries_strike ho]

namespace Line

/-! ## Steps of a line -/

/-- One thing that becomes of a line. -/
inductive Step : Line → Line → Prop
  | polled {l l' : Line} {d : Delivery} (h : l.poll = some (d, l')) : Step l l'
  | renewed (l : Line) (request : Request) : Step l (l.renew request)
  | heard (l : Line) (r : Response) : Step l (l.hear r)
  | struck (l : Line) (e : Failure) : Step l (l.strike e)
  | closed (l : Line) : Step l { l with isOpen := false }
  | dropped (l : Line) : Step l { l with inbox := none }

/-- A line after some steps. -/
abbrev Steps : Line → Line → Prop := Relation.ReflTransGen Step

theorem Step.begun {l l' : Line} (h : Step l l') (hb : Wave.Begun l.waves) :
    Wave.Begun l'.waves := by
  cases h with
  | polled hp => rwa [(same_poll hp).1]
  | renewed request => exact hb.append _
  | heard r =>
    unfold hear
    split
    · exact hb.modifyLast fun w hw => Wave.deliveries_hear_ne_nil hw r
    · exact hb
  | struck e =>
    unfold strike
    split
    · exact hb.modifyLast fun w hw => Wave.deliveries_strike_ne_nil hw e
    · exact hb
  | closed | dropped => exact hb

theorem Steps.begun {l l' : Line} (h : Steps l l') (hb : Wave.Begun l.waves) :
    Wave.Begun l'.waves := by
  induction h with
  | refl => exact hb
  | tail _ hstep ih => exact hstep.begun ih

/-- The flag of the inbox is up if the current wave has delivered something, and only then. -/
def Marked (l : Line) : Prop :=
  ∀ b, l.inbox = some b →
    (b.arrived = true ↔ ∃ w, l.waves.getLast? = some w ∧ w.deliveries ≠ [])

/-- Something is delivered into the inbox and belongs to the current wave. -/
theorem marked_push {done : List Wave} {w : Wave} {inbox : Option Inbox} {d : Delivery}
    {isOpen : Bool} (hd : w.deliveries ≠ []) :
    Marked ⟨isOpen, done ++ [w], inbox.map (·.push d)⟩ := by
  intro b hb
  obtain ⟨b', -, rfl⟩ := Option.map_eq_some_iff.1 hb
  constructor
  · intro _
    exact ⟨w, List.getLast?_concat, hd⟩
  · intro _
    rfl

theorem Step.marked {l l' : Line} (h : Step l l') (hm : l.Marked) : l'.Marked := by
  cases h with
  | polled hp =>
    rename_i d
    have hwaves := (same_poll hp).1
    unfold poll at hp
    intro b hb
    rw [hwaves]
    cases hin : l.inbox with
    | none =>
      rw [hin] at hp
      cases hp
    | some b' =>
      rw [hin] at hp
      dsimp only at hp
      split at hp
      · cases hp
        cases hb
        exact hm b' hin
      · split at hp
        · cases hp
        · cases hp
          exact hm b hb
  | renewed request =>
    intro b hb
    cases hb
    simp [renew, Wave.deliveries]
  | heard r =>
    cases hl : l.isLive with
    | false => rwa [hear_of_not_live hl]
    | true =>
      obtain ⟨done, w, hw, ho⟩ := Wave.exists_of_ongoing hl
      rw [hear_of_live hw ho]
      exact marked_push (by simp [Wave.deliveries_hear ho])
  | struck e =>
    cases hl : l.isLive with
    | false => rwa [strike_of_not_live hl]
    | true =>
      obtain ⟨done, w, hw, ho⟩ := Wave.exists_of_ongoing hl
      rw [strike_of_live hw ho]
      exact marked_push (by simp [Wave.deliveries_strike ho])
  | closed => exact hm
  | dropped =>
    intro b hb
    cases hb

theorem Steps.marked {l l' : Line} (h : Steps l l') (hm : l.Marked) : l'.Marked := by
  induction h with
  | refl => exact hm
  | tail _ hstep ih => exact hstep.marked ih

end Line

namespace Solo

variable {s s' : Solo α} {hand : List Delivery} {done : List Wave} {w : Wave}
  {read rest : List Payload}

/-! ## What acts do to a line -/

theorem steps_pulled (s : Solo α) (demand : Demand α) (d : Delivery) :
    s.line.Steps (s.pulled demand d).1.line := by
  rw [line_pulled]
  cases (if s.line.isOpen then d.token? else none) with
  | none => exact .refl
  | some token => exact .single (.renewed ..)

theorem steps_poll {d : Delivery} (h : s.poll = some (d, s')) : s.line.Steps s'.line := by
  rcases poll_cases h with ⟨r, -, -, rfl⟩ | ⟨-, line, hl, rfl⟩
  · exact .refl
  · exact .single (.polled hl)

theorem steps_take (s : Solo α) : s.line.Steps s.take.1.line := by
  rcases s.take_cases with htake | ⟨bound, drain, d, line, -, hp, htake⟩ |
    ⟨demand, d, s', -, hp, htake⟩ <;> rw [htake]
  · rw [line_started]
    exact .single (.polled hp)
  · exact (steps_poll hp).trans (steps_pulled s' demand d)

theorem steps_ask (s : Solo α) (k : Ask) : s.line.Steps (s.ask k).1.line := by
  have hasks := s.asks k
  generalize s.ask k = o at hasks ⊢
  cases hasks with
  | drop => exact .single (.dropped s.line)
  | _ => exact .refl

/-- Whatever befalls a query, its line goes by steps. -/
theorem steps_act (s : Solo α) (a : Act) : s.line.Steps (s.act a).1.line := by
  cases a with
  | ask k => exact steps_ask s k
  | take => exact steps_take s
  | giveUp =>
    show s.line.Steps s.giveUp.1.line
    rcases s.giveUp_cases with hgive | ⟨-, -, -, hgive⟩ <;> rw [hgive]
    exact .refl
  | heard r => exact .single (.heard s.line r)
  | transactionEnded | sessionEnded => exact .single (.struck s.line _)
  | lost => exact .tail (.single (.struck s.line .connectionClosed)) (.closed _)

/-! ## The invariant -/

/-- A query that has something in hand or ahead has been begun to be answered. -/
theorem begun_of_hand {d : Delivery} (h : StandsAt s (d :: hand) done w read rest)
    (hheld : s.query.held = true) (hover : s.query.progress.isOver = false) :
    Wave.Begun s.line.waves := by
  have hahead := h.ahead hheld
  rw [hover, List.cons_append] at hahead
  rw [h.waves]
  cases done with
  | nil =>
    rw [List.nil_append, Wave.begun_singleton]
    intro hnil
    rw [Wave.deliveries, h.answers, List.append_eq_nil_iff, List.map_eq_nil_iff,
      List.append_eq_nil_iff] at hnil
    rw [hnil.1.2, hnil.2] at hahead
    cases hahead
  | cons v done =>
    -- the first wave was read to its end
    have hover : v.ending.isSome = true := by
      have hlinked := h.linked
      obtain ⟨x, xs, hx⟩ : ∃ x xs, done ++ [w] = x :: xs := List.exists_cons_of_ne_nil (by simp)
      rw [List.cons_append, hx, List.isChain_cons_cons] at hlinked
      obtain ⟨token, ht, -⟩ := hlinked.1
      obtain ⟨i, he, -⟩ := Wave.token?_eq_some.1 ht
      rw [he]
      rfl
    obtain ⟨d', hd'⟩ := Option.isSome_iff_exists.1 hover
    exact ⟨v, rfl, by simp [Wave.deliveries, hd']⟩

/-- A look finds nothing, or the query has been begun to be answered. -/
theorem begun_of_take (h : Stands s) : s.take = (s, none) ∨ Wave.Begun s.line.waves := by
  obtain ⟨done, w, read, rest, h⟩ := h
  rcases h.take_cases with htake | ⟨drain, d, line, -, hp, hheld, hpend, h'⟩ |
    ⟨demand, d, s', -, hp, -, -, h', hheld', hover'⟩
  · exact .inl htake
  · have hbegun := begun_of_hand h' hheld (by dsimp only; rw [hpend]; rfl)
    exact .inr ((Line.same_poll hp).1 ▸ hbegun)
  · exact .inr ((same_poll hp).1 ▸ begun_of_hand h' hheld' hover')

/-- What a query knows of its start. -/
structure Starts (s : Solo α) : Prop where
  begun : s.query.progress ≠ .pending → Wave.Begun s.line.waves
  marked : s.line.Marked

theorem starts_opening (transaction : UInt64) (text : Payload) (options : QueryOptions)
    (reader : Reader α) : (opening transaction text options reader).Starts where
  begun hp := absurd rfl hp
  marked b hb := by
    cases hb
    simp [opening, Wave.deliveries]

theorem progress_of_act {a : Act} (ha : a ≠ .take) :
    (s.act a).1.query.progress = s.query.progress := by
  cases a with
  | ask k => exact (mild_ask s k).progress
  | take => exact absurd rfl ha
  | giveUp => exact (mild_giveUp s).progress
  | _ => rfl

theorem Starts.act (h : s.Starts) (hst : Stands s) (a : Act) : (s.act a).1.Starts where
  begun hp := by
    refine (steps_act s a).begun ?_
    by_cases ha : a = .take
    · subst ha
      rcases begun_of_take hst with htake | hbegun
      · have hact : s.act .take = (s, none) := htake
        rw [hact] at hp
        exact h.begun hp
      · exact hbegun
    · rw [progress_of_act ha] at hp
      exact h.begun hp
  marked := (steps_act s a).marked h.marked

/-- A query has started as far as it knows, exactly if its first wave has delivered something. -/
theorem begun_iff (h : s.Starts) (hst : Stands s) (hheld : s.query.held = true) :
    Wave.Begun s.line.waves ↔
      s.query.progress ≠ .pending ∨ s.line.inbox.any (·.arrived) = true := by
  obtain ⟨done, w, read, rest, hs⟩ := hst
  obtain ⟨b, hb⟩ := hs.exists_inbox hheld
  have hmark := h.marked b hb
  rw [hb, Option.any_some, hmark]
  by_cases hp : s.query.progress = .pending
  · obtain ⟨rfl, -, -⟩ := hs.pending hp
    rw [hs.waves, List.nil_append, Wave.begun_singleton]
    simp [hp]
  · simp [hp, h.begun hp]

/-! ## Waits for the start -/

theorem deliveries_of_pending (h : StandsAt s [] [] w [] rest) :
    w.deliveries = rest.map (.ok ∘ .data) ++ w.ending.toList := by
  rw [Wave.deliveries, h.answers, List.nil_append]

/-- A wait for the start of a query that has started is over when it looks: it is answered, or goes
on to pull. -/
theorem take_of_begun {bound : Option Nat} {drain : Bool} (h : Stands s)
    (hb : Wave.Begun s.line.waves) (hw : s.waiting = some (.start bound drain)) :
    (drain = true ∧ s.take.1.waiting = some (.pull (.rest [])) ∧ s.take.2 = none) ∨
      ∃ r, s.take.2 = some r ∧ (r = .done ∨ ∃ e, e ≠ .timeout ∧ r = .failed e) := by
  obtain ⟨done, w, read, rest, h⟩ := h
  obtain ⟨-, hpend⟩ := h.waiting _ hw
  obtain ⟨rfl, rfl, -⟩ := h.pending hpend
  rw [h.waves, List.nil_append, Wave.begun_singleton, deliveries_of_pending h] at hb
  obtain ⟨d, ds, hahead⟩ := List.exists_cons_of_ne_nil hb
  obtain ⟨s', -, -, -, htake⟩ := look_start h hw hahead
  cases d with
  | ok r =>
    obtain ⟨-, htake⟩ := htake
    rw [htake]
    cases drain with
    | true => exact .inl ⟨rfl, rfl, rfl⟩
    | false => exact .inr ⟨_, rfl, .inl rfl⟩
  | error e =>
    obtain ⟨-, htake⟩ := htake
    rw [htake]
    refine .inr ⟨_, rfl, .inr ⟨e, ?_, rfl⟩⟩
    -- a failure is never among the answers, and what ends a wave is no timeout
    rintro rfl
    cases rest with
    | nil =>
      have hend : w.ending = some (.error .timeout) := by
        cases he : w.ending with
        | none => simp [he] at hahead
        | some d' => simp_all
      exact h.timely hend
    | cons p rest => simp at hahead

theorem verdict_ne_timeout {d : Delivery} (hd : d ≠ .error .timeout) :
    d.verdict ≠ .error .timeout := by
  cases d with
  | error e =>
    intro he
    cases he
    exact hd rfl
  | ok r =>
    cases r with
    | item i => cases hm : i.meaning <;> simp [Delivery.verdict, hm, Failure.violation]
    | _ => simp [Delivery.verdict, Failure.violation]

/-- The failure of a query is never a timeout. -/
theorem ne_timeout_of_failed (h : Stands s) (ha : s.Accounts) {e : Failure}
    (hp : s.query.progress = .failed e) : e ≠ .timeout := by
  rintro rfl
  obtain ⟨done, w, d, hw, hend, hv⟩ := ha.failed _ hp
  obtain ⟨read, rest, hs⟩ := standsAt_of_waves h hw
  refine verdict_ne_timeout ?_ hv
  rintro rfl
  exact hs.timely hend

end Solo

namespace Client

variable {c : Client α} {h : Handle} {q q' : Query α} {m : Move α}

theorem Reachable.starts (hc : c.Reachable) (hb : c.link.issued ≤ 2 ^ 64)
    (hq : c.queries[h]? = some q) : Stands (c.soloOf h q) ∧ (c.soloOf h q).Starts :=
  hc.solo (J := fun s => Stands s ∧ s.Starts) hb
    (fun transaction text options reader =>
      ⟨.opening transaction text options reader,
        Solo.starts_opening transaction text options reader⟩)
    (fun _ a _ hs => ⟨hs.1.act a, hs.2.act hs.1 a⟩) hq

theorem Reachable.isStarted_iff (hc : c.Reachable) (hb : c.link.issued ≤ 2 ^ 64)
    (hq : c.query? h = some q) :
    q.isStarted c.link.router = true ↔ Wave.Begun (c.link.waves q.lane) := by
  obtain ⟨hq, hheld⟩ := Option.filter_eq_some_iff.1 hq
  obtain ⟨hst, hstarts⟩ := hc.starts hb hq
  refine Iff.trans ?_ (Solo.begun_iff hstarts hst hheld).symm
  rw [Query.isStarted, Bool.or_eq_true, bne_iff_ne]
  rfl

theorem repliesTo_append (c : Client α) (h : Handle) (ms ms' : List (Move α)) :
    c.repliesTo h (ms ++ ms') = c.repliesTo h ms ++ (c.runAll ms).1.repliesTo h ms' := by
  induction ms generalizing c with
  | nil => rfl
  | cons m ms ih =>
    rw [List.cons_append, repliesTo, ih, ← List.append_assoc]
    rfl

/-- A wait for the start that is ready has something delivered before it. -/
theorem Sound.begun_of_isReady (hc : c.Sound) (hst : Stands (c.soloOf h q))
    (hq : c.queries[h]? = some q) {bound : Option Nat} {drain : Bool}
    (hw : c.waiting = some (.start h bound drain)) (hr : c.isReady = true) :
    Wave.Begun (c.link.waves q.lane) := by
  have hline := (hc.wired h q hq).line_poll hc.link
  unfold isReady at hr
  rw [hw] at hr
  dsimp only at hr
  rw [hq, Option.any_some] at hr
  obtain ⟨p, hp⟩ := Option.isSome_iff_exists.1 hr
  rw [hp] at hline
  have hwait : (c.soloOf h q).waiting = some (.start bound drain) := by
    rw [soloOf, hw]
    simp [Wait.on]
  obtain ⟨done, w, read, rest, hs⟩ := hst
  obtain ⟨hheld, hpend⟩ := hs.waiting _ hwait
  have hover : (c.soloOf h q).query.progress.isOver = false := by rw [hpend]; rfl
  have hfound := hs.linePoll hheld hover (hs.pending hpend).2.2 hline
  have hbegun := Solo.begun_of_hand hfound hheld hover
  rwa [(Line.same_poll hline).1] at hbegun

theorem expire_of_start (hr : c.isReady = false) {bound : Option Nat} {drain : Bool}
    (hw : c.waiting = some (.start h bound drain)) :
    c.expire = if bound.isSome then c.replying (.failed .timeout) else (c, none) := by
  have hbound : c.bound? = bound := by
    unfold bound?
    rw [hw]
  rw [expire_of_not_isReady hr, hbound, giveUp_of_start hw]

/-- A waiting call that is ready looks when it goes on, and also when its time is over. -/
theorem Sound.reply_look (hc : c.Sound) (hb : (c.step m).1.link.issued ≤ 2 ^ 64)
    (hq : c.queries[h]? = some q) (hw : c.waitsOn h = true) (hr : c.isReady = true)
    (hm : m = .resume ∨ m = .expire) : (c.step m).2 = (c.soloOf h q).take.2 := by
  have hown : c.ownActs h q m = [.take] ∧ c.concerns m h = true := by
    rcases hm with rfl | rfl
    · exact ⟨if_pos hw, hw⟩
    · exact ⟨(if_pos hw).trans (if_pos hr), hw⟩
  obtain ⟨q', -, -, -, hacts⟩ := (hc.step m hb).solo h q hq
  have hreplies := congrArg Prod.snd hacts
  rw [hown.1, hown.2, List.singleton_append, Solo.acts_cons, acts_ends, List.append_nil,
    if_pos rfl] at hreplies
  have hheads := congrArg List.head? hreplies
  rw [Option.head?_toList, Option.head?_toList] at hheads
  exact hheads.symm

theorem resume_of_not_isReady (hr : c.isReady = false) : c.resume = (c, none) := by
  unfold isReady at hr
  unfold resume
  cases hw : c.waiting with
  | none => rfl
  | some w =>
    rw [hw] at hr
    cases w with
    | errand errand inbox =>
      dsimp only at hr ⊢
      rw [Option.isSome_eq_false_iff, Option.isNone_iff_eq_none] at hr
      rw [hr]
    | start h bound drain =>
      dsimp only at hr ⊢
      cases hq : c.queries[h]? with
      | none => rfl
      | some q =>
        rw [hq, Option.any_some, Option.isSome_eq_false_iff, Option.isNone_iff_eq_none] at hr
        dsimp only
        rw [hr]
    | pull h demand =>
      dsimp only at hr ⊢
      cases hq : c.queries[h]? with
      | none => rfl
      | some q =>
        rw [hq, Option.any_some, Option.isSome_eq_false_iff, Option.isNone_iff_eq_none] at hr
        dsimp only
        rw [hr]

/-- A wait for the start that is begun on a query. -/
theorem waiting_of_soloOf {bound : Option Nat} {drain : Bool}
    (hw : (c.soloOf h q).waiting = some (.start bound drain)) :
    c.waiting = some (.start h bound drain) := by
  obtain ⟨w, hw, hon⟩ := Option.bind_eq_some_iff.1 hw
  rw [hw, Wait.on_eq_some.1 hon]
  rfl

/-- A query whose first wave has delivered something keeps that. -/
theorem Sound.begun_runAll (hc : c.Sound) {ms : List (Move α)}
    (hb : (c.runAll ms).1.link.issued ≤ 2 ^ 64) (hq : c.queries[h]? = some q)
    (hbegun : Wave.Begun (c.link.waves q.lane)) (hq' : (c.runAll ms).1.queries[h]? = some q') :
    Wave.Begun ((c.runAll ms).1.link.waves q'.lane) := by
  obtain ⟨q₁, hq₁, -, hbegun₁⟩ := hc.solo_runAll (J := fun s => Wave.Begun s.line.waves)
    (fun s a _ hs => (Solo.steps_act s a).begun hs) hb hq hbegun
  rw [hq'] at hq₁
  cases hq₁
  exact hbegun₁

/-- A call that waits for the start of a query that has started is ready. -/
theorem Reachable.isReady_of_begun (hc : c.Reachable) (hb : c.link.issued ≤ 2 ^ 64)
    (hq : c.queries[h]? = some q) (hbegun : Wave.Begun (c.link.waves q.lane)) {bound : Option Nat}
    {drain : Bool} (hw : (c.soloOf h q).waiting = some (.start bound drain)) :
    c.isReady = true := by
  have hwaits : c.waitsOn h = true := congrArg Option.isSome hw
  cases hr : c.isReady with
  | true => rfl
  | false =>
    have hidle := (hc.sound hb).take_idle hq hwaits hr
    rcases Solo.take_of_begun (hc.stands hb hq) hbegun hw with ⟨-, hpull, -⟩ | ⟨r, hr, -⟩
    · rw [hidle, hw] at hpull
      cases hpull
    · rw [hidle] at hr
      cases hr

theorem waiting_soloOf {bound : Option Nat} {drain : Bool}
    (hw : c.waiting = some (.start h bound drain)) :
    (c.soloOf h q).waiting = some (.start bound drain) := by
  rw [soloOf, hw]
  simp [Wait.on]

/-- A call that waits for the start of a query is ready exactly if the query has started. -/
theorem Reachable.isReady_iff_begun (hc : c.Reachable) (hb : c.link.issued ≤ 2 ^ 64)
    (hq : c.queries[h]? = some q) {bound : Option Nat} {drain : Bool}
    (hw : c.waiting = some (.start h bound drain)) :
    c.isReady = true ↔ Wave.Begun (c.link.waves q.lane) :=
  ⟨(hc.sound hb).begun_of_isReady (hc.stands hb hq) hq hw,
    fun hbegun => hc.isReady_of_begun hb hq hbegun (waiting_soloOf hw)⟩

/-- A look of a wait for a start that has come ends it, and not with a timeout, or goes on to
collect. -/
theorem Reachable.look_of_begun (hc : c.Reachable) (hb : c.link.issued ≤ 2 ^ 64)
    (hq : c.queries[h]? = some q) {bound : Option Nat} {drain : Bool}
    (hw : c.waiting = some (.start h bound drain)) (hbegun : Wave.Begun (c.link.waves q.lane))
    (hm : m = .resume ∨ m = .expire) :
    (drain = true ∧ (c.step m).2 = none) ∨
      ∃ r, (c.step m).2 = some r ∧ (r = .done ∨ ∃ e, e ≠ .timeout ∧ r = .failed e) := by
  have hb' : (c.step m).1.link.issued ≤ 2 ^ 64 := by
    have hissued : (c.step m).1.link.issued = c.link.issued := by
      rcases hm with rfl | rfl
      · exact issued_resume c
      · exact issued_expire c
    rw [hissued]
    exact hb
  have hlook := (hc.sound hb).reply_look hb' hq (congrArg Option.isSome (waiting_soloOf (q := q) hw))
    ((hc.isReady_iff_begun hb hq hw).2 hbegun) hm
  rw [hlook]
  rcases Solo.take_of_begun (hc.stands hb hq) hbegun (waiting_soloOf hw) with ⟨hdrain, -, hr⟩ | hr
  · exact .inl ⟨hdrain, hr⟩
  · exact .inr hr

/-- A wait for the start ends with a timeout exactly if it has a bound, its time is over, and the
query has not started. -/
theorem Reachable.wait_times_out_iff (hc : c.Reachable) (hb : c.link.issued ≤ 2 ^ 64)
    (hq : c.queries[h]? = some q) {bound : Option Nat} {drain : Bool}
    (hw : c.waiting = some (.start h bound drain)) (m : Move α) :
    (c.step m).2 = some (.failed .timeout) ↔
      m = .expire ∧ bound.isSome = true ∧ ¬ Wave.Begun (c.link.waves q.lane) := by
  by_cases hm : m = .resume ∨ m = .expire
  · by_cases hbegun : Wave.Begun (c.link.waves q.lane)
    · have hno : (c.step m).2 ≠ some (.failed .timeout) := by
        rcases hc.look_of_begun hb hq hw hbegun hm with ⟨-, hr⟩ | ⟨r, hr, rfl | ⟨e, he, rfl⟩⟩ <;>
          rw [hr]
        · nofun
        · nofun
        · intro heq
          cases heq
          exact he rfl
      simp [hno, hbegun]
    · have hready : c.isReady = false := by
        rw [Bool.eq_false_iff]
        exact fun hr => hbegun ((hc.isReady_iff_begun hb hq hw).1 hr)
      rcases hm with rfl | rfl
      · simp [Client.step, resume_of_not_isReady hready]
      · rw [Client.step, expire_of_start hready hw]
        cases bound <;> simp [replying, hbegun]
  · have hreply : (c.step m).2 = none := by
      cases m with
      | call k => exact congrArg Prod.snd (call_of_waiting hw k)
      | arrive | lose => rfl
      | resume => exact absurd (.inl rfl) hm
      | expire => exact absurd (.inr rfl) hm
    simp [hreply, not_or.1 hm]

/-- Until the query has started, a bounded wait for that goes on or times out. -/
theorem step_of_not_isReady (hr : c.isReady = false) {n : Nat} {drain : Bool}
    (hw : c.waiting = some (.start h (some n) drain)) (m : Move α) :
    (c.step m).2 = some (.failed .timeout) ∨
      (c.step m).2 = none ∧ (c.step m).1.waiting = some (.start h (some n) drain) := by
  cases m with
  | call k =>
    have hcall : c.step (.call k) = (c, none) := call_of_waiting hw k
    rw [hcall]
    exact .inr ⟨rfl, hw⟩
  | arrive | lose => exact .inr ⟨rfl, hw⟩
  | resume =>
    rw [step, resume_of_not_isReady hr]
    exact .inr ⟨rfl, hw⟩
  | expire =>
    rw [step, expire_of_start hr hw]
    exact .inl rfl

theorem Reachable.times_out_or_waits (hc : c.Reachable) {ms : List (Move α)}
    (hb : (c.runAll ms).1.link.issued ≤ 2 ^ 64) (hq : c.queries[h]? = some q) {n : Nat}
    {drain : Bool} (hw : c.waiting = some (.start h (some n) drain))
    (hnot : ¬ Wave.Begun ((c.runAll ms).1.link.waves q.lane)) :
    (c.runAll ms).2.head? = some (.failed .timeout) ∨
      (c.runAll ms).2 = [] ∧ (c.runAll ms).1.waiting = some (.start h (some n) drain) := by
  induction ms generalizing c q with
  | nil => exact .inr ⟨rfl, hw⟩
  | cons m ms ih =>
    have hb₁ : (c.step m).1.link.issued ≤ 2 ^ 64 := Nat.le_trans (issued_runAll _ ms) hb
    have hs := hc.sound (Nat.le_trans (issued_step c m) hb₁)
    obtain ⟨q', hq', hl, -⟩ := hs.solo_runAll (J := fun _ => True) (fun _ _ _ _ => trivial) hb hq
      trivial
    -- what is begun now would be begun at the end
    have hready : c.isReady = false := by
      rw [Bool.eq_false_iff]
      intro hr
      have hst := hc.stands (Nat.le_trans (issued_step c m) hb₁) hq
      have hlast := hs.begun_runAll hb hq (hs.begun_of_isReady hst hq hw hr) hq'
      rw [hl] at hlast
      exact hnot hlast
    rw [runAll_cons] at hb hnot ⊢
    rcases step_of_not_isReady hready hw m with hreply | ⟨hreply, hw₁⟩
    · rw [hreply]
      exact .inl rfl
    · obtain ⟨q₁, hq₁, hl₁, -⟩ := (hs.step m hb₁).solo h q hq
      rw [← hl₁] at hnot
      rw [hreply]
      exact ih (hc.step m) hb hq₁ hw₁ hnot

/-- A bounded call on a query that has not started begins to wait for the start. -/
theorem waiting_of_pending (hq : c.query? h = some q) (hp : q.progress = .pending)
    (hw : c.waiting = none) {k : Call α} {n : Nat}
    (hk : k = .start h (some n) ∨ k = .collect h (some n)) :
    ∃ drain, c.step (.call k) = ({ c with waiting := some (.start h (some n) drain) }, none) := by
  rcases hk with rfl | rfl
  · exact ⟨false, by simp [step, call_start hw hq, beginStart_of_pending hp]⟩
  · exact ⟨true, by simp [step, call_collect hw hq, beginStart_of_pending hp]⟩

/-- A call for the start of a query or for all its answers is never answered with a timeout at
once. -/
theorem Reachable.begins_without_timeout (hc : c.Reachable) (hb : c.link.issued ≤ 2 ^ 64)
    (hq : c.query? h = some q) {k : Call α} {bound : Option Nat}
    (hk : k = .start h bound ∨ k = .collect h bound) :
    (c.step (.call k)).2 ≠ some (.failed .timeout) := by
  obtain ⟨hq₀, -⟩ := Option.filter_eq_some_iff.1 hq
  have hfailed (e : Failure) (he : q.progress = .failed e) : e ≠ .timeout :=
    Solo.ne_timeout_of_failed (hc.stands hb hq₀) (hc.accounts hb hq₀).2 he
  have hstart (drain : Bool) : (c.beginStart h q bound drain).2 ≠ some (.failed .timeout) := by
    have hb := c.beginsStart h q bound drain
    generalize c.beginStart h q bound drain = o at hb ⊢
    cases hb with
    | failed he =>
      intro heq
      cases heq
      exact hfailed _ he rfl
    | pulls _ hf =>
      have hp := c.beginsPull h q (.rest [])
      generalize c.beginPull h q (.rest []) = o at hp ⊢
      cases hp with
      | failed he => exact absurd he (hf _)
      | exhausted | waits => nofun
    | waits | done => nofun
  cases hw : c.waiting with
  | some w =>
    have hcall : c.step (.call k) = (c, none) := call_of_waiting hw k
    rw [hcall]
    nofun
  | none =>
    rcases hk with rfl | rfl
    · simpa [Client.step, call_start hw hq] using hstart false
    · simpa [Client.step, call_collect hw hq] using hstart true

end Client

end QueryLanes
