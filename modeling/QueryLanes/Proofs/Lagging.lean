import QueryLanes.Proofs.Finding
import QueryLanes.Proofs.Serving

/-!
# Runs without waits

A wait for the start of a query may find the first delivery, and then the query has noted it.
Without the wait the next pull finds it. `Client.without` leaves such waits out of a run, and
`Client.Lags` is how the run without them lags behind: not at all, by a wait that goes on, or by
what a wait has found. `Client.Keeps` says so of a move that both runs make, `Client.Lags.omit` of
one that is left out, and `Client.Lags.without` of the whole run.
-/

namespace QueryLanes

variable {α : Type}

/-- What a caller does, or what befalls the client. That the caller looks at a query (at whether it
has started, at where it stands, at its batch sizes) is no move: the state is as before. -/
inductive Doing (α : Type) where
  | move (m : Move α)
  | look (h : Handle)

def Doing.move? : Doing α → Option (Move α)
  | .move m => some m
  | .look _ => none

/-- The moves among what is done. -/
def moves (ds : List (Doing α)) : List (Move α) := ds.filterMap Doing.move?

namespace Move

/-- Whether a call is made on the query at a place. -/
def asks (h : Handle) : Move α → Bool
  | .call k => k.ask?.any (·.1 == h)
  | _ => false

/-- Whether a wait for the start of the query at a place is asked for. -/
def asksStart (h : Handle) : Move α → Bool
  | .call (.start h' _) => h' == h
  | _ => false

theorem asks_iff {m : Move α} {h : Handle} :
    m.asks h = true ↔ ∃ k a, m = .call k ∧ k.ask? = some (h, a) := by
  constructor
  · intro hm
    cases m with
    | call k =>
      obtain ⟨⟨h', a⟩, hk, hh⟩ := (Option.any_eq_true _ _).1 hm
      rw [← eq_of_beq hh]
      exact ⟨k, a, rfl, hk⟩
    | _ => cases hm
  · rintro ⟨k, a, rfl, hk⟩
    simp [asks, hk]

theorem asksStart_iff {m : Move α} {h : Handle} :
    m.asksStart h = true ↔ ∃ bound, m = .call (.start h bound) := by
  constructor
  · intro hm
    unfold asksStart at hm
    split at hm
    · rename_i bound
      rw [eq_of_beq hm]
      exact ⟨bound, rfl⟩
    · cases hm
  · rintro ⟨bound, rfl⟩
    exact beq_self_eq_true h

end Move

namespace Client

variable {c c' : Client α} {h : Handle} {q q' : Query α} {d : Delivery} {m : Move α} {k : Call α}
  {a : Ask}

/-! ## Runs without waits -/

/-- Whether a call is not taken, since another one waits. -/
def ignores (c : Client α) : Move α → Bool
  | .call _ => c.waiting.isSome
  | _ => false

/-- A call on the query at a place that has its reply at once may have it from a wait that came
before. Without that wait it looks for it. -/
def looks (c : Client α) (h : Handle) (m : Move α) : List (Move α) :=
  if m.asks h && (c.step m).2.isSome then [.resume] else []

/-- What is left of what is done without the marked looks at the query at a place and the marked
waits for its start. Calls that were not taken go too: they might be taken now. -/
def without (c : Client α) (h : Handle) : List (Doing α × Bool) → List (Doing α)
  | [] => []
  | (.look h', marked) :: ds =>
    (if marked && h' == h then [] else [.look h']) ++ c.without h ds
  | (.move m, marked) :: ds =>
    (if c.ignores m || marked && m.asksStart h then [] else (m :: c.looks h m).map .move) ++
      (c.step m).1.without h ds

/-- Whether a move begins a wait for the start of the query at a place, or takes one on. -/
def awaits (c : Client α) (h : Handle) : Move α → Bool
  | .resume | .expire => match c.waiting with
    | some (.start h' _ false) => h' == h
    | _ => false
  | m => m.asksStart h

/-- The replies to all calls but waits for the start of the query at a place. -/
def others (c : Client α) (h : Handle) : List (Move α) → List (Reply α)
  | [] => []
  | m :: ms =>
    (if c.awaits h m then [] else (c.step m).2.toList) ++ (c.step m).1.others h ms

theorem others_append (c : Client α) (h : Handle) (ms ms' : List (Move α)) :
    c.others h (ms ++ ms') = c.others h ms ++ (c.runAll ms).1.others h ms' := by
  induction ms generalizing c with
  | nil => rfl
  | cons m ms ih =>
    rw [List.cons_append, others, others, ih, runAll_cons, List.append_assoc]

theorem others_cons (c : Client α) (h : Handle) (m : Move α) (ms : List (Move α)) :
    c.others h (m :: ms) = c.others h [m] ++ (c.step m).1.others h ms := others_append c h [m] ms

theorem others_of_awaits (hm : c.awaits h m = true) : c.others h [m] = [] := by
  rw [others, if_pos hm]
  rfl

theorem others_of_silent (hm : (c.step m).2 = none) : c.others h [m] = [] := by
  unfold others others
  rw [hm]
  split <;> rfl

/-! ## Lags -/

/-- How a client may lag behind another one that was asked for more waits for the start of the query
at a place. -/
inductive Lags (h : Handle) (c : Client α) : Client α → Prop
  | same : Lags h c c
  /-- A wait goes on. -/
  | waits {bound : Option Nat} (hw : c.waiting = some (.start h bound false)) :
      Lags h c { c with waiting := none }
  /-- A wait has found a delivery, which is in its inbox otherwise. -/
  | found (q : Query α) (d : Delivery) (hq : c.queries[h]? = some q) (hd : q.Noted d) :
      Lags h c (c.putBack h q.inbox d)

theorem Lags.transcript (hl : Lags h c c') : c'.link.transcript = c.link.transcript := by
  cases hl <;> rfl

theorem Lags.batchSizes (hl : Lags h c c') (h' : Handle) :
    c'.queries[h']?.map (·.batchSizes) = c.queries[h']?.map (·.batchSizes) := by
  cases hl with
  | same | waits => rfl
  | found q d hq =>
    by_cases hh : h' = h
    · subst hh
      rw [getElem?_putBack hq, hq]
      rfl
    · rw [getElem?_queries_putBack_of_ne c q.inbox d hh]

/-- A move that both make, one of them with the looks that it lacks, leaves one lagging behind, and
gives the same replies. -/
structure Keeps (h : Handle) (c c' : Client α) (m : Move α) : Prop where
  lags : Lags h (c.step m).1 (c'.runAll (m :: c.looks h m)).1
  others : c'.others h (m :: c.looks h m) = c.others h [m]

/-- There is one more look only where nobody waits any more. -/
theorem looks_cases (c : Client α) (h : Handle) (m : Move α) (hm : c.ignores m = false) :
    c.looks h m = [] ∨ c.looks h m = [.resume] ∧ (c.step m).1.waiting = none := by
  unfold looks
  split
  · rename_i hlook
    obtain ⟨hask, hr⟩ := Bool.and_eq_true_iff.1 hlook
    obtain ⟨k, a, rfl, hk⟩ := Move.asks_iff.1 hask
    have hw : c.waiting = none := by simpa [ignores] using hm
    refine .inr ⟨rfl, ?_⟩
    have hserve := serves_call (k := k) hw (by rintro s rfl; cases hk) (by rintro t rfl; cases hk)
    rcases hserve with ⟨r, -, hidle, -⟩ | ⟨hnone, -⟩
    · exact hidle
    · have hr : (c.call k).2.isSome = true := hr
      rw [hnone] at hr
      cases hr
  · exact .inl rfl

/-- One more look changes nothing where nobody waits any more. -/
theorem keeps_of_idle (hl : Lags h (c.step m).1 (c'.step m).1)
    (ho : c'.others h [m] = c.others h [m])
    (hw : c.looks h m = [] ∨ c.looks h m = [.resume] ∧ (c'.step m).1.waiting = none) :
    Keeps h c c' m := by
  rcases hw with hnone | ⟨hlook, hw⟩
  · refine ⟨?_, ?_⟩
    · rw [hnone]
      exact hl
    · rw [hnone]
      exact ho
  · obtain ⟨hstep, -⟩ := step_of_idle hw
    refine ⟨?_, ?_⟩
    · rw [hlook, runAll_cons, runAll_cons, hstep]
      exact hl
    · rw [hlook, others_cons, others_of_silent (congrArg Prod.snd hstep), List.append_nil, ho]

/-! ## Keeping a move -/

theorem keeps_same (hm : c.ignores m = false) : Keeps h c c m :=
  keeps_of_idle .same rfl (looks_cases c h m hm)

/-- While the wait goes on that one of the two is without. -/
theorem Reachable.keeps_waits (hc : c.Reachable) (hb : c.link.issued ≤ 2 ^ 64) {bound : Option Nat}
    (hw : c.waiting = some (.start h bound false)) (hm : c.ignores m = false) :
    Keeps h c { c with waiting := none } m := by
  have hresume : Lags h c.resume.1 { c with waiting := none } := by
    rcases hc.resume_of_start hb hw with hidle | ⟨q, d, hq, hd, hback⟩
    · rw [hidle]
      exact .waits hw
    · rw [← hback]
      exact .found q d hq hd
  obtain ⟨hidle, hlate⟩ := step_of_idle (c := { c with waiting := none }) rfl
  cases m with
  | call k => simp [ignores, hw] at hm
  | arrive | lose => exact keeps_of_idle (.waits hw) rfl (.inl rfl)
  | resume =>
    refine keeps_of_idle (by rwa [hidle]) ?_ (.inl rfl)
    rw [others_of_silent (congrArg Prod.snd hidle), others_of_awaits (by simp [awaits, hw])]
  | expire =>
    refine keeps_of_idle ?_ ?_ (.inl rfl)
    · rw [hlate]
      show Lags h c.expire.1 _
      cases hr : c.isReady with
      | true =>
        rw [expire_of_isReady hr]
        exact hresume
      | false =>
        rw [expire_of_not_isReady hr, giveUp_of_start hw]
        split
        · exact .same
        · exact .waits hw
    · rw [others_of_silent (congrArg Prod.snd hlate), others_of_awaits (by simp [awaits, hw])]

/-- A move that does the same with the delivery put back. -/
theorem keeps_putBack (hm : c.ignores m = false)
    (hstep : (c.putBack h q.inbox d).step m = Prod.map (·.putBack h q.inbox d) id (c.step m))
    (hq' : (c.step m).1.queries[h]? = some q') (hd' : q'.Noted d) (hi : q'.inbox = q.inbox) :
    Keeps h c (c.putBack h q.inbox d) m := by
  refine keeps_of_idle ?_ ?_ ?_
  · rw [hstep, ← hi]
    exact .found q' d hq' hd'
  · have hawaits : (c.putBack h q.inbox d).awaits h m = c.awaits h m := by cases m <;> rfl
    unfold others others
    rw [hstep, hawaits]
    rfl
  · rw [hstep]
    exact looks_cases c h m hm

/-- A call that has its reply at once, or waits and has it by its look. -/
theorem keeps_of_look {c₁ : Client α} (hm : m.asks h = true) (hr : (c.step m).2.isSome = true)
    (hwait : c'.step m = (c₁, none)) (hlook : c₁.resume = c.step m)
    (ha : c₁.awaits h .resume = c.awaits h m) : Keeps h c c' m := by
  have hlooks : c.looks h m = [.resume] := by
    unfold looks
    rw [hm, hr]
    rfl
  have hresume : c₁.step .resume = c.step m := hlook
  refine ⟨?_, ?_⟩
  · rw [hlooks, runAll_cons, runAll_cons, hwait, hresume]
    exact .same
  · rw [hlooks, others_cons, others_of_silent (congrArg Prod.snd hwait), hwait, List.nil_append]
    unfold others others
    rw [ha, hresume]

/-- The caller has the query on both sides. -/
theorem query?_of_held (hq : c.queries[h]? = some q) (hheld : q.held = true) (d : Delivery) :
    c.query? h = some q ∧ (c.putBack h q.inbox d).query? h = some q.putBack := by
  have hquery : c.query? h = some q := by rw [query?_eq hq, if_pos hheld]
  exact ⟨hquery, by rw [query?_putBack_self, hquery]; rfl⟩

section

variable (hq : c.queries[h]? = some q) (hd : q.Noted d)
  (hbox : (c.link.router.inbox? q.inbox).isSome = true) (hw : c.waiting = none)

include hq hd hbox hw

/-- A pull that is begun waits, or there is a failure for it that it finds by its look. -/
theorem keeps_beginPull (hask : k.ask? = some (h, a)) (hstart : (Move.call k).asksStart h = false)
    (demand : Demand α) (hk : c.call k = c.beginPull h q demand)
    (hk' : (c.putBack h q.inbox d).call k = (c.putBack h q.inbox d).beginPull h q.putBack demand) :
    Keeps h c (c.putBack h q.inbox d) (.call k) := by
  have hwait : (c.putBack h q.inbox d).step (.call k) =
      (putBack { c with waiting := some (.pull h demand) } h q.inbox d, none) := hk'
  cases d with
  | ok r =>
    have hstep : c.step (.call k) = ({ c with waiting := some (.pull h demand) }, none) :=
      hk.trans (beginPull_of_not_over (by rw [hd.2]; rfl) demand)
    refine keeps_putBack (by simp [ignores, hw]) ?_ ?_ hd rfl
    · rw [hwait, hstep]
      rfl
    · rw [hstep]
      exact hq
  | error e =>
    have hstep : c.step (.call k) = c.failing h q demand e :=
      hk.trans (beginPull_of_failed hd.2.1 demand)
    refine keeps_of_look (Move.asks_iff.2 ⟨k, a, rfl, hask⟩) ?_ hwait ?_ ?_
    · rw [hstep, failing_eq]
      rfl
    · rw [resume_pull_putBack_error (c := { c with waiting := some (.pull h demand) }) hq hbox rfl
        hd, hstep, failing_eq, failing_eq]
      rfl
    · exact hstart.symm

/-- A wait for the start that comes after one that has found it. -/
theorem keeps_start (hheld : q.held = true) (bound : Option Nat) :
    Keeps h c (c.putBack h q.inbox d) (.call (.start h bound)) := by
  have hstep : c.step (.call (.start h bound)) = c.beginStart h q bound false :=
    call_start hw (query?_of_held hq hheld d).1 bound
  have hwait : (c.putBack h q.inbox d).step (.call (.start h bound)) =
      (putBack { c with waiting := some (.start h bound false) } h q.inbox d, none) := by
    have hidle : (c.putBack h q.inbox d).waiting = none := hw
    rw [step, call_start hidle (query?_of_held hq hheld d).2, beginStart_of_pending rfl]
    rfl
  have hbegin : ({ c with waiting := some (.start h bound false) } : Client α).beginStart h q bound
      false = c.beginStart h q bound false ∧ (c.beginStart h q bound false).2.isSome = true := by
    cases d with
    | ok r =>
      rw [beginStart_of_streaming hd.2, beginStart_of_streaming hd.2]
      exact ⟨rfl, rfl⟩
    | error e =>
      rw [beginStart_of_failed hd.2.1, beginStart_of_failed hd.2.1]
      exact ⟨rfl, rfl⟩
  refine keeps_of_look (Move.asks_iff.2 ⟨_, _, rfl, rfl⟩) ?_ hwait ?_ rfl
  · rw [hstep]
    exact hbegin.2
  · rw [resume_start_putBack (c := { c with waiting := some (.start h bound false) }) hq hd hbox
      rfl, hbegin.1, hstep]

/-- An iteration that is over gives the same reply with the delivery put back. -/
theorem keeps_next (hheld : q.held = true) : Keeps h c (c.putBack h q.inbox d) (.call (.next h)) := by
  have hm : c.ignores (.call (.next h)) = false := by simp [ignores, hw]
  have hidle : (c.putBack h q.inbox d).waiting = none := hw
  obtain ⟨hquery, hquery'⟩ := query?_of_held hq hheld d
  cases hf : q.fused with
  | true =>
    have hf' : q.putBack.fused = true := hf
    have hstep : c.step (.call (.next h)) = c.replying (.answer none) := by
      rw [step, call_next hw hquery, hf]
      rfl
    refine keeps_putBack hm ?_ ?_ hd rfl
    · rw [hstep, step, call_next hidle hquery', hf']
      rfl
    · rw [hstep]
      exact hq
  | false =>
    have hf' : q.putBack.fused = false := hf
    refine keeps_beginPull hq hd hbox hw rfl rfl .item ?_ ?_
    · rw [call_next hw hquery, hf]
      rfl
    · rw [call_next hidle hquery', hf']
      rfl

end

/-- A query that is dropped takes with it what it has noted. -/
theorem keeps_dropQuery (hi : q.inbox < c.link.router.inboxes.length) (hq : c.queries[h]? = some q)
    (hd : q.Noted d) (hw : c.waiting = none) (hheld : q.held = true) :
    Keeps h c (c.putBack h q.inbox d) (.call (.dropQuery h)) := by
  have hm : c.ignores (.call (.dropQuery h)) = false := by simp [ignores, hw]
  have hh := (List.getElem?_eq_some_iff.1 hq).1
  have hdrop : c.step (.call (.dropQuery h)) = (c.dropQuery h q).replying .done :=
    call_dropQuery hw (query?_of_held hq hheld d).1
  have hgone : (c.step (.call (.dropQuery h))).1.queries[h]? = some { q with held := false } := by
    rw [hdrop]
    obtain ⟨l, hl⟩ :=
      release_eq { c.setQuery h { q with held := false } with link := c.link.dropInbox q.inbox }
    exact (congrArg (·.queries[h]?) hl).trans (List.getElem?_set_self hh)
  refine keeps_putBack hm ?_ hgone ?_ rfl
  · refine step_putBack hi hh (fun k a hm _ ha => by cases hm; cases ha; rfl) ?_
    rintro (hm | hm) <;> cases hm
  · cases d <;> exact hd

/-- A call on a query, of which a wait has found something before. -/
theorem keeps_ask (hi : q.inbox < c.link.router.inboxes.length) (hq : c.queries[h]? = some q)
    (hd : q.Noted d) (hbox : q.held = true → (c.link.router.inbox? q.inbox).isSome = true)
    (hw : c.waiting = none) (hk : k.ask? = some (h, a)) (ha : ∀ bound, a ≠ .collect bound) :
    Keeps h c (c.putBack h q.inbox d) (.call k) := by
  have hidle : (c.putBack h q.inbox d).waiting = none := hw
  cases hheld : q.held with
  | false =>
    have hquery : c.query? h = none := by rw [query?_eq hq, hheld]; rfl
    have hquery' : (c.putBack h q.inbox d).query? h = none := by
      rw [query?_putBack_self, hquery]
      rfl
    refine keeps_putBack (by simp [ignores, hw]) ?_ ?_ hd rfl
    · rw [step, step, call_of_gone hidle hk hquery', call_of_gone hw hk hquery]
      rfl
    · rw [step, call_of_gone hw hk hquery]
      exact hq
  | true =>
    have hbox := hbox hheld
    cases k with
    | start h' bound =>
      cases hk
      exact keeps_start hq hd hbox hw hheld bound
    | nextAnswer h' =>
      cases hk
      obtain ⟨hquery, hquery'⟩ := query?_of_held hq hheld d
      exact keeps_beginPull hq hd hbox hw rfl rfl .answer (call_nextAnswer hw hquery)
        (call_nextAnswer hidle hquery')
    | next h' =>
      cases hk
      exact keeps_next hq hd hbox hw hheld
    | collect h' bound =>
      cases hk
      exact absurd rfl (ha bound)
    | dropQuery h' =>
      cases hk
      exact keeps_dropQuery hi hq hd hw hheld
    | _ => cases hk

/-- A call that waits for a query which has noted something pulls it, and has not found it yet. -/
theorem Reachable.pulling_of_noted (hc : c.Reachable) (hb : c.link.issued ≤ 2 ^ 64)
    (hq : c.queries[h]? = some q) (hd : q.Noted d) (hw : c.waitsOn h = true) :
    ∃ r demand, d = .ok r ∧ q.held = true ∧ c.waiting = some (.pull h demand) := by
  obtain ⟨p, hp⟩ := exists_pause hw
  have hwait : (c.soloOf h q).waiting = some p := by
    rw [soloOf, hp, Option.bind_some, Pause.on_wait]
  obtain ⟨done, w, read, rest, hs⟩ := hc.stands hb hq
  have hfits := hs.waiting p hwait
  cases p with
  | start bound drain =>
    have hpend : q.progress = .pending := hfits.2
    cases d with
    | ok r => cases hpend.symm.trans hd.2
    | error e => cases hpend.symm.trans hd.2.1
  | pull demand =>
    cases d with
    | ok r => exact ⟨r, demand, rfl, hfits.1, hp⟩
    | error e =>
      have hover : q.progress.isOver = false := hfits.2
      rw [hd.2.1] at hover
      cases hover

theorem Reachable.keeps_found (hc : c.Reachable) (hb : c.link.issued ≤ 2 ^ 64)
    (hq : c.queries[h]? = some q) (hd : q.Noted d) (hm : c.ignores m = false)
    (hcollect : ∀ bound, m ≠ .call (.collect h bound)) :
    Keeps h c (c.putBack h q.inbox d) m := by
  have hs := hc.sound hb
  have hi := (hs.wired h q hq).inbox_lt
  have hh := (List.getElem?_eq_some_iff.1 hq).1
  cases hcon : c.concerns m h with
  | false =>
    refine keeps_putBack hm (step_putBack hi hh ?_ ?_) (getElem?_step hq hcon) hd rfl
    · rintro k a rfl hw hk
      simp [concerns, hw, hk] at hcon
    · intro hwait
      refine hs.aloof hq ?_
      rcases hwait with rfl | rfl <;> exact hcon
  | true =>
    have hlook (hwaits : c.waitsOn h = true) (hwait : m = .resume ∨ m = .expire) :
        (c.putBack h q.inbox d).step m = c.step m := by
      obtain ⟨r, demand, rfl, hheld, hp⟩ := hc.pulling_of_noted hb hq hd hwaits
      have hbox := hc.isSome_inbox? hb hq hheld
      rcases hwait with rfl | rfl
      · exact resume_pull_putBack_ok hq hbox hp hd
      · exact expire_pull_putBack_ok hq hbox hp hd
    cases m with
    | call k =>
      obtain ⟨hw, hany⟩ := Bool.and_eq_true_iff.1 hcon
      obtain ⟨k', a, hk', hk⟩ := (Move.asks_iff (m := .call k)).1 hany
      cases hk'
      refine keeps_ask hi hq hd (hc.isSome_inbox? hb hq) (Option.isNone_iff_eq_none.1 hw) hk ?_
      rintro bound rfl
      refine hcollect bound ?_
      cases k <;> cases hk
      rfl
    | arrive | lose => cases hcon
    | resume =>
      have hstep := hlook hcon (.inl rfl)
      refine keeps_of_idle (by rw [hstep]; exact .same) ?_ (.inl rfl)
      unfold others others
      rw [hstep]
      rfl
    | expire =>
      have hstep := hlook hcon (.inr rfl)
      refine keeps_of_idle (by rw [hstep]; exact .same) ?_ (.inl rfl)
      unfold others others
      rw [hstep]
      rfl

/-- Both clients make a move. -/
theorem Lags.keep (hl : Lags h c c') (hc : c.Reachable) (hb : c.link.issued ≤ 2 ^ 64)
    (hm : c.ignores m = false) (hcollect : ∀ bound, m ≠ .call (.collect h bound)) :
    Keeps h c c' m := by
  cases hl with
  | same => exact keeps_same hm
  | waits hw => exact hc.keeps_waits hb hw hm
  | found q d hq hd => exact hc.keeps_found hb hq hd hm hcollect

/-- Only one of the two clients is asked to wait for the start. -/
theorem Lags.omit_start (hl : Lags h c c') (hw : c.waiting = none) (bound : Option Nat) :
    Lags h (c.step (.call (.start h bound))).1 c' := by
  have hidle : ({ c with waiting := none } : Client α) = c := by rw [← hw]
  have htold {r : Reply α} : Lags h (c.replying r).1 c' := by
    show Lags h { c with waiting := none } c'
    rwa [hidle]
  cases hq : c.query? h with
  | none =>
    rw [step, call_of_gone hw rfl hq]
    exact htold
  | some q =>
    have hat := (Option.filter_eq_some_iff.1 hq).1
    rw [step, call_start hw hq]
    have hbegins := c.beginsStart h q bound false
    generalize c.beginStart h q bound false = o at hbegins ⊢
    cases hbegins with
    | failed | done => exact htold
    | pulls _ _ hdrain => cases hdrain
    | waits hp =>
      cases hl with
      | same =>
        have hwaits : Lags h { c with waiting := some (.start h bound false) }
          { c with waiting := none } := .waits rfl
        rwa [hidle] at hwaits
      | waits hw' =>
        rw [hw] at hw'
        cases hw'
      | found q' d hq' hd =>
        cases hat.symm.trans hq'
        cases d with
        | ok r => cases hp.symm.trans hd.2
        | error e => cases hp.symm.trans hd.2.1

/-- A call that is not taken has no reply and changes nothing. -/
theorem step_of_ignores (hm : c.ignores m = true) : c.step m = (c, none) := by
  cases m with
  | call k => exact if_pos hm
  | _ => cases hm

/-- Only one of the two clients makes a move that it does not take, or is asked to wait for the
start. -/
theorem Lags.omit (hl : Lags h c c') (hm : c.ignores m = true ∨ m.asksStart h = true) :
    Lags h (c.step m).1 c' ∧ c.others h [m] = [] := by
  cases hi : c.ignores m with
  | true =>
    have hstep := step_of_ignores hi
    refine ⟨?_, others_of_silent (congrArg Prod.snd hstep)⟩
    rw [hstep]
    exact hl
  | false =>
    rw [hi] at hm
    obtain ⟨bound, rfl⟩ := Move.asksStart_iff.1 (hm.resolve_left nofun)
    exact ⟨hl.omit_start (by simpa [ignores] using hi) bound,
      others_of_awaits (beq_self_eq_true h)⟩

/-! ## Runs -/

theorem moves_append (ds ds' : List (Doing α)) : moves (ds ++ ds') = moves ds ++ moves ds' :=
  List.filterMap_append

theorem moves_map (ms : List (Move α)) : moves (ms.map .move) = ms := by
  unfold moves
  rw [List.filterMap_map]
  exact List.filterMap_some

theorem runAll_looks (hm : c.ignores m = false) :
    (c.runAll (m :: c.looks h m)).1 = (c.step m).1 := by
  rcases looks_cases c h m hm with hnone | ⟨hlook, hw⟩
  · rw [hnone]
    rfl
  · rw [hlook, runAll_cons, runAll_cons, (step_of_idle hw).1]
    rfl

/-- The query at a place is not collected, or both clients do the same: no marked wait is ahead. -/
def Apart (h : Handle) (c c' : Client α) (ds : List (Doing α × Bool)) : Prop :=
  (∀ d ∈ ds, ∀ bound, d.1 ≠ .move (.call (.collect h bound))) ∨
    c' = c ∧ ∀ bound, (.move (.call (.start h bound)), true) ∉ ds

/-- A run without some looks at a query and some waits for its start lags behind, and its other
calls have the same replies. -/
theorem Lags.without (hl : Lags h c c') (hc : c.Reachable) (ds : List (Doing α × Bool))
    (hb : (c.runAll (moves (ds.map (·.1)))).1.link.issued ≤ 2 ^ 64) (hapart : Apart h c c' ds) :
    Lags h (c.runAll (moves (ds.map (·.1)))).1 (c'.runAll (moves (c.without h ds))).1 ∧
      c'.others h (moves (c.without h ds)) = c.others h (moves (ds.map (·.1))) := by
  induction ds generalizing c c' with
  | nil => exact ⟨hl, rfl⟩
  | cons d ds ih =>
    obtain ⟨d, marked⟩ := d
    have hrest {c₁ c₁' : Client α} (hsame : c' = c →
        (∀ bound, (.move (.call (.start h bound)), true) ∉ (d, marked) :: ds) → c₁' = c₁) :
        Apart h c₁ c₁' ds := by
      rcases hapart with hcollect | ⟨he, hstart⟩
      · exact .inl fun d hd => hcollect d (List.mem_cons_of_mem _ hd)
      · exact .inr ⟨hsame he hstart, fun bound hd => hstart bound (List.mem_cons_of_mem _ hd)⟩
    cases d with
    | look h' =>
      have hmoves : moves (c.without h ((.look h', marked) :: ds)) = moves (c.without h ds) := by
        rw [Client.without, moves_append]
        split <;> rfl
      rw [hmoves]
      exact ih hl hc hb (hrest fun he _ => he)
    | move m =>
      have hb : ((c.step m).1.runAll (moves (ds.map (·.1)))).1.link.issued ≤ 2 ^ 64 := hb
      have hb₀ := Nat.le_trans (issued_step c m) (Nat.le_trans (issued_runAll _ _) hb)
      rw [Client.without, moves_append]
      show Lags h ((c.step m).1.runAll (moves (ds.map (·.1)))).1 _ ∧
        _ = c.others h (m :: moves (ds.map (·.1)))
      have hcons := others_cons c h m (moves (ds.map (·.1)))
      split
      · rename_i homit
        simp only [Bool.or_eq_true, Bool.and_eq_true] at homit
        obtain ⟨hgone, hsilent⟩ := hl.omit (homit.imp_right And.right)
        obtain ⟨hlags, hothers⟩ := ih hgone (hc.step m) hb <| hrest fun he hstart => by
          rcases homit with hi | ⟨rfl, hs⟩
          · rw [step_of_ignores hi, he]
          · obtain ⟨bound, rfl⟩ := Move.asksStart_iff.1 hs
            exact absurd List.mem_cons_self (hstart bound)
        refine ⟨hlags, ?_⟩
        rw [hcons, hsilent]
        exact hothers
      · rename_i hkeep
        simp only [Bool.or_eq_true, not_or, Bool.not_eq_true] at hkeep
        have hkept : Keeps h c c' m := by
          rcases hapart with hcollect | ⟨rfl, -⟩
          · refine hl.keep hc hb₀ hkeep.1 ?_
            rintro bound rfl
            exact hcollect _ List.mem_cons_self bound rfl
          · exact keeps_same hkeep.1
        obtain ⟨hlags, hothers⟩ := ih hkept.lags (hc.step m) hb <| hrest fun he _ => by
          rw [he]
          exact runAll_looks hkeep.1
        rw [moves_map, runAll_append, others_append]
        refine ⟨hlags, ?_⟩
        rw [hkept.others, hothers, hcons]

end Client

end QueryLanes
