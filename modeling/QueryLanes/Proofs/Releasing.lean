import QueryLanes.Proofs.Pending
import QueryLanes.Proofs.Serving
import QueryLanes.Proofs.Strays

/-!
# Lanes of control calls

A control call takes one response, whatever it is; the router releases the slot of its lane on a
terminal one. `Client.lane_after_errand` says when the slot is there although the call has returned,
and how many slots a sequence of such calls can leave behind.

While a call waits, nothing opens a slot (`Client.stays_runAll`), so that of the slots there are at
the end only that of its own lane was not there before (`Client.Begun`).
-/

namespace QueryLanes

variable {α : Type}

/-- A terminal response ends the request that it is the first to come for. -/
theorem Wave.ending_of_isTerminal {w : Wave} {r : Response} (h : w.deliveries.head? = some (.ok r))
    (hr : r.isTerminal = true) : w.ending ≠ none := by
  intro hn
  rw [deliveries, hn] at h
  cases ha : w.answers with
  | nil =>
    rw [ha] at h
    cases h
  | cons p ps =>
    rw [ha] at h
    cases h
    cases hr

/-! ## Slots that go -/

namespace Router

variable {r : Router} {lane : Lane}

/-- Only a registration opens a slot. -/
theorem plain_sublist {s : Step} (hs : s.opens r = none) : (r.step s).plain.Sublist r.plain := by
  cases s with
  | register lane o =>
    rw [step_register]
    cases hc : r.closed with
    | true => exact .refl _
    | false => simp [Step.opens, hc] at hs
  | withdraw lane =>
    rw [step, plain_withdraw]
    exact List.filter_sublist
  | route f =>
    rw [step, plain_route]
    exact List.filter_sublist
  | failTransaction t e =>
    rw [step, failTransaction, plain_failWhere]
    exact List.filter_sublist
  | failSession t e =>
    rw [step, failSession, plain_failWhere]
    exact List.filter_sublist
  | close e =>
    rw [step, close, plain_failWhere]
    exact List.filter_sublist
  | drop i => exact .refl _
  | poll i =>
    obtain ⟨bs, hr, -⟩ := step_poll r i
    rw [hr]
    exact .refl _

theorem holds_iff_plain : r.Holds lane ↔ ∃ t ∈ r.plain, t.lane = lane := by
  simp [Holds, plain, Slot.plain]

end Router

namespace Link

variable {l l' l'' : Link}

/-- The second link has no slot that the first one has not. -/
def Frees (l l' : Link) : Prop := l'.router.plain.Sublist l.router.plain

theorem Frees.refl (l : Link) : l.Frees l := List.Sublist.refl _

theorem Frees.trans (h : l.Frees l') (h' : l'.Frees l'') : l.Frees l'' := List.Sublist.trans h' h

theorem frees_of_step {s : Router.Step} (hs : s.opens l.router = none)
    (h : l'.router = l.router.step s) : l.Frees l' := by
  unfold Frees
  rw [h]
  exact Router.plain_sublist hs

theorem frees_dropInbox (l : Link) (i : Nat) : l.Frees (l.dropInbox i) :=
  frees_of_step (s := .drop i) rfl rfl

theorem frees_failTransaction (l : Link) (id : UInt64) : l.Frees (l.failTransaction id) :=
  frees_of_step (s := .failTransaction id .transactionClosed) rfl rfl

theorem frees_failSession (l : Link) (id : UInt64) : l.Frees (l.failSession id) :=
  frees_of_step (s := .failSession id .sessionClosed) rfl rfl

theorem frees_close (l : Link) : l.Frees l.close := by
  unfold close
  split
  · exact frees_of_step (s := .close .connectionClosed) rfl rfl
  · exact .refl l

theorem frees_receive (l : Link) (f : ServerFrame) : l.Frees (l.receive f) := by
  unfold receive
  split
  · exact frees_of_step (s := .route f) rfl rfl
  · exact .refl l

theorem frees_ran_all (l : Link) (labels : List String) :
    l.Frees (labels.foldl (fun l label => l.record (.ran label)) l) := by
  induction labels generalizing l with
  | nil => exact .refl l
  | cons label labels ih => exact ih (l.record (.ran label))

/-- The lane that is given out next has no slot. -/
theorem Sound.not_holds_nextLane (hs : l.Sound) (hb : l.issued < 2 ^ 64) :
    ¬ l.router.Holds l.nextLane := by
  rintro ⟨s, hm, hl⟩
  have hissued := hs.slot_issued s hm
  rw [hl] at hissued
  exact not_issued_of_le (Nat.le_refl _) hb hissued

/-- A request that goes out opens one slot, on the lane that is given out next. -/
theorem plain_request {o : Owner} {request : Request} {i : Nat}
    (h : l.request o request = (.ok i, l')) : l'.router.plain.Sublist
      ({ lane := l.nextLane, owner := o, inbox := i } :: l.router.plain) := by
  have hd : l.openLane.2.dispatch l.nextLane o request = (.ok i, l') := h
  have hrouter : l.openLane.2.router = l.router := rfl
  unfold dispatch at hd
  rw [Router.register_eq, hrouter] at hd
  cases hc : l.router.closed with
  | true =>
    rw [hc] at hd
    cases hd
  | false =>
    rw [hc, if_neg Bool.false_ne_true] at hd
    dsimp only at hd
    split at hd <;> rename_i hsend <;> cases hd
    unfold send at hsend
    split at hsend <;> cases hsend
    show (l.router.step (.register l.nextLane o)).plain.Sublist _
    rw [Router.step_register, hc]
    refine List.Sublist.cons_cons _ ?_
    show (l.router.withdraw l.nextLane).plain.Sublist _
    rw [Router.plain_withdraw]
    exact List.filter_sublist

end Link

namespace Client

variable {c c' c₁ : Client α} {k : Call α} {m : Move α} {ms : List (Move α)} {e : Errand} {i : Nat}
  {r : Response}

/-! ## While a call waits -/

/-- The second client waits for what the first one waits for. It has sent nothing since, and has no
new slots and transactions. -/
structure Stays (c c' : Client α) : Prop where
  waiting : c'.waiting = c.waiting
  transactions : c'.transactions = c.transactions
  issued : c'.link.issued = c.link.issued
  frees : c.link.Frees c'.link

theorem Stays.refl (c : Client α) : c.Stays c := ⟨rfl, rfl, rfl, .refl _⟩

theorem Stays.trans (h : c.Stays c₁) (h' : c₁.Stays c') : c.Stays c' where
  waiting := h'.waiting.trans h.waiting
  transactions := h'.transactions.trans h.transactions
  issued := h'.issued.trans h.issued
  frees := h.frees.trans h'.frees

/-- An errand goes on until there is a reply. -/
theorem Finds.stays {o : Outcome α} (ho : c.Finds o)
    (hw : ∀ w, c.waiting = some w → ∃ e i, w = .errand e i) (hr : o.2 = none) : c.Stays o.1 := by
  cases ho with
  | nothing => exact .refl c
  | @errand i d r e hp hwait =>
    have hsome := isSome_conclude { c with link := { c.link with router := r.drop i } } e d
    rw [hr] at hsome
    cases hsome
  | gaveUp e i hwait =>
    have hsome := isSome_conclude { c with link := c.link.dropInbox i } e (.error .timeout)
    rw [hr] at hsome
    cases hsome
  | start h drain hp hwait | pull h demand hp hwait | late hwait =>
    obtain ⟨e, i, he⟩ := hw _ hwait
    cases he

theorem stays_move (hw : ∀ w, c.waiting = some w → ∃ e i, w = .errand e i)
    (hm : ∀ k, m ≠ .call k) (hr : (c.step m).2 = none) : c.Stays (c.step m).1 := by
  cases m with
  | call k => exact absurd rfl (hm k)
  | arrive f =>
    exact { waiting := rfl, transactions := rfl, issued := issued_receive c.link f,
            frees := c.link.frees_receive f }
  | lose =>
    exact { waiting := rfl, transactions := rfl, issued := c.link.issued_close,
            frees := c.link.frees_close }
  | resume => exact c.finds_resume.stays hw hr
  | expire => exact c.finds_expire.stays hw hr

theorem stays_step (hw : c.waiting = some (.errand e i)) (hr : (c.step m).2 = none) :
    c.Stays (c.step m).1 := by
  by_cases hm : ∃ k, m = .call k
  · obtain ⟨k, rfl⟩ := hm
    rw [show c.step (.call k) = (c, none) from call_of_waiting hw k]
    exact .refl c
  · refine stays_move (fun w hw' => ?_) (fun k hk => hm ⟨k, hk⟩) hr
    exact ⟨e, i, Option.some.inj (hw'.symm.trans hw)⟩

theorem stays_runAll (hw : c.waiting = some (.errand e i)) (hr : (c.runAll ms).2 = []) :
    c.Stays (c.runAll ms).1 := by
  induction ms generalizing c with
  | nil => exact .refl c
  | cons m ms ih =>
    rw [runAll_cons] at hr ⊢
    obtain ⟨hnone, hr⟩ := List.append_eq_nil_iff.1 hr
    have hstep := stays_step hw (Option.toList_eq_nil_iff.1 hnone)
    exact hstep.trans (ih (hstep.waiting.trans hw) hr)

/-! ## The beginning of a call -/

/-- The request of an errand has gone out, on a lane of its own. A commit is one of the requests of
its transaction. -/
structure Begun (c c' : Client α) (e : Errand) : Prop where
  issued : c'.link.issued = c.link.issued + 1
  slots : ∃ o j, c'.link.router.plain.Sublist
      ({ lane := c.link.nextLane, owner := o, inbox := j } :: c.link.router.plain) ∧
    ∀ t, e = .commit t → ∃ x, c'.transactions[t]? = some x ∧ o.transaction = some x.id

theorem Begun.stays (h : c.Begun c₁ e) (h' : c₁.Stays c') : c.Begun c' e where
  issued := h'.issued.trans h.issued
  slots := by
    obtain ⟨o, j, hsub, hcommit⟩ := h.slots
    refine ⟨o, j, List.Sublist.trans h'.frees hsub, ?_⟩
    rw [h'.transactions]
    exact hcommit

theorem Readies.frees (h : c.Readies c') : c.link.Frees c'.link := by
  rcases h with rfl | ⟨s, x, rfl⟩ | ⟨t, rfl⟩
  · exact .refl _
  · exact (c.link.frees_failSession x.id).trans (Link.frees_ran_all _ _)
  · cases hx : c.transactions[t]? with
    | none =>
      rw [finishTransaction_of_none hx]
      exact .refl _
    | some x =>
      rw [finishTransaction_of_some hx]
      exact c.link.frees_failTransaction _

/-- A call that waits for an errand opens the slot of its own lane, and no other one. -/
theorem begun_call (hidle : c.waiting = none) (hw : (c.call k).1.waiting = some (.errand e i)) :
    c.Begun (c.call k).1 e := by
  obtain ⟨c₁, e', o, request, hready, hrun, hcommit⟩ := exists_run_of_errand hidle hw
  have hissued : (c₁.run e' o request).1.link.issued = c₁.link.issued + 1 := issued_run ..
  have hlane : c₁.link.nextLane = c.link.nextLane := by
    rw [Link.nextLane, hready.issued, Link.nextLane]
  rw [← hrun, hready.issued] at hissued
  refine ⟨hissued, ?_⟩
  rw [hrun] at hw ⊢
  have hruns := c₁.runs e' o request
  generalize c₁.run e' o request = out at hruns hw ⊢
  cases hruns with
  | @sent j l heq =>
    cases hw
    have hsub := Link.plain_request heq
    rw [hlane] at hsub
    refine ⟨o, i, hsub.trans (hready.frees.cons_cons _), fun t ht => ?_⟩
    obtain ⟨x, hx, rfl, rfl⟩ := hcommit t ht
    exact ⟨x, hx, rfl⟩
  | refused =>
    rw [waiting_conclude] at hw
    cases hw

/-! ## The end of a call -/

theorem link_conclude (h : ∀ t, e ≠ .commit t) (d : Except Failure Response) :
    (c.conclude e d).1.link = c.link := by
  have hconcludes := c.concludes e d
  generalize c.conclude e d = o at hconcludes ⊢
  cases hconcludes with
  | told | session | transaction => rfl
  | commit t => exact absurd rfl (h t)

theorem frees_conclude (c : Client α) (e : Errand) (d : Except Failure Response) :
    c.link.Frees (c.conclude e d).1.link := by
  by_cases h : ∃ t, e = .commit t
  · obtain ⟨t, rfl⟩ := h
    have hready : c.Readies (c.finishTransaction t) := .inr (.inr ⟨t, rfl⟩)
    exact hready.frees
  · rw [link_conclude fun t ht => h ⟨t, ht⟩]
    exact .refl _

/-- A response that is not terminal is none that a control call can do with. -/
theorem violation_of_data (c : Client α) (e : Errand) (p : Payload) :
    ∃ v, (c.conclude e (.ok (.data p))).2 = some (.failed (.violation v)) := by
  cases e <;> exact ⟨_, rfl⟩

/-- A call made in the first client has come as far as the second: it waits for an errand, and this
response is there for it. -/
structure Answered (c c' : Client α) (e : Errand) (r : Response) : Prop where
  idle : c.waiting = none
  called : ∃ (k : Call α) (ms : List (Move α)) (i : Nat) (found : Router),
    (c.call k).1.waiting = some (.errand e i) ∧ (c.call k).1.runAll ms = (c', []) ∧
      c'.link.router.poll i = some (.ok r, found)

theorem Answered.stays (h : c.Answered c₁ e r) : c.Begun c₁ e ∧ ∃ i found,
    c₁.waiting = some (.errand e i) ∧ c₁.link.router.poll i = some (.ok r, found) := by
  obtain ⟨k, ms, i, found, hw, hrun, hp⟩ := h.called
  have hstays : (c.call k).1.Stays ((c.call k).1.runAll ms).1 :=
    stays_runAll hw (congrArg Prod.snd hrun)
  rw [hrun] at hstays
  exact ⟨(begun_call h.idle hw).stays hstays, i, found, hstays.waiting.trans hw, hp⟩

theorem Answered.lastLane (h : c.Answered c₁ e r) : c₁.link.lastLane = c.link.nextLane := by
  rw [Link.lastLane, h.stays.1.issued]
  rfl

theorem Answered.reachable (h : c.Answered c₁ e r) (hc : c.Reachable) : c₁.Reachable := by
  obtain ⟨k, ms, i, found, -, hrun, -⟩ := h.called
  rw [show c₁ = ((c.call k).1.runAll ms).1 by rw [hrun]]
  exact (hc.step (.call k)).runAll ms

/-- The call returns with the first response that has come on its lane. -/
theorem Answered.step (h : c.Answered c₁ e r) (hm : m = .resume ∨ m = .expire) :
    ∃ i, c₁.step m = conclude { c₁ with link := c₁.link.dropInbox i } e (.ok r) := by
  obtain ⟨-, i, found, hw, hp⟩ := h.stays
  have hresume : c₁.resume = conclude { c₁ with link := c₁.link.dropInbox i } e (.ok r) := by
    rw [resume_errand hw, hp]
    dsimp only
    rw [poll_drop hp]
  have hready : c₁.isReady = true := by
    unfold isReady
    rw [hw]
    dsimp only
    rw [hp]
    rfl
  refine ⟨i, ?_⟩
  rcases hm with rfl | rfl
  · exact hresume
  · exact (expire_of_isReady hready).trans hresume

/-- The lane has had one request, and the response is the first that came for it. -/
theorem Answered.wave (h : c.Answered c₁ e r) (hs : c₁.Sound) : ∃ w,
    c₁.link.waves c.link.nextLane = [w] ∧ w.deliveries.head? = some (.ok r) := by
  obtain ⟨-, i, found, hw, hp⟩ := h.stays
  obtain ⟨w, b, hwaves, hb, hqueue⟩ := (hs.errand e i hw).unread.queue
  rw [h.lastLane] at hwaves
  refine ⟨w, hwaves, ?_⟩
  obtain ⟨b', hb', ⟨rest, hrest, -⟩ | ⟨-, -, hno, -⟩⟩ := Link.poll_cases hp
  · have hsame : some b = some b' := hb.symm.trans hb'
    cases hsame
    rw [← hqueue, hrest]
    rfl
  · cases hno

/-- The end of a transaction fails the requests in it, that of its commit among them. -/
theorem Begun.not_holds_commit {t : Handle} (h : c.Begun c₁ (.commit t)) (hs : c.link.Sound)
    (hb : c.link.issued < 2 ^ 64) (i : Nat) (d : Except Failure Response) :
    ¬ (conclude { c₁ with link := c₁.link.dropInbox i } (.commit t) d).1.link.router.Holds
      c.link.nextLane := by
  obtain ⟨o, j, hsub, hcommit⟩ := h.slots
  obtain ⟨x, hx, ho⟩ := hcommit t rfl
  have hlink : (conclude { c₁ with link := c₁.link.dropInbox i } (.commit t) d).1.link =
      (c₁.link.dropInbox i).failTransaction x.id := by
    exact congrArg Client.link
      (finishTransaction_of_some (c := { c₁ with link := c₁.link.dropInbox i }) hx)
  rw [hlink, Link.failTransaction_eq]
  rintro ⟨s, hm, hlane⟩
  obtain ⟨hm, hspared⟩ := Link.mem_slots_fail.1 hm
  rcases List.mem_cons.1 (hsub.subset (Router.plain_mem hm)) with hnew | hold
  · have howner : s.owner = o := congrArg Slot.owner hnew
    rw [howner, ho] at hspared
    simp at hspared
  · exact hs.not_holds_nextLane hb (Router.holds_iff_plain.2 ⟨_, hold, hlane⟩)

theorem Answered.holds_iff (h : c.Answered c₁ e r) (hm : m = .resume ∨ m = .expire)
    (hs : c.link.Sound) (hs₁ : c₁.Sound) (hb : c₁.link.issued ≤ 2 ^ 64) {w : Wave}
    (hw : c₁.link.waves c.link.nextLane = [w]) :
    (c₁.step m).1.link.router.Holds c.link.nextLane ↔ (∀ t, e ≠ .commit t) ∧ w.ending = none := by
  obtain ⟨i, hstep⟩ := h.step hm
  have hbegun := h.stays.1
  have hb₀ : c.link.issued < 2 ^ 64 := by
    have := hbegun.issued
    omega
  rw [hstep]
  by_cases hcommit : ∃ t, e = .commit t
  · obtain ⟨t, rfl⟩ := hcommit
    refine iff_of_false ?_ fun hno => hno.1 t rfl
    exact hbegun.not_holds_commit hs hb₀ i _
  · have hno : ∀ t, e ≠ .commit t := fun t ht => hcommit ⟨t, ht⟩
    rw [link_conclude hno]
    show c₁.link.router.Holds c.link.nextLane ↔ _
    rw [hs₁.link.live, hw]
    simp [Wave.ongoing, Wave.isOver, hno]

/-- No slot is there that was not there before, but for that of the call's own lane. -/
theorem Answered.pending_le (h : c.Answered c₁ e r) (hm : m = .resume ∨ m = .expire) :
    (c₁.step m).1.link.router.pending ≤ c.link.router.pending + 1 ∧
      (¬ (c₁.step m).1.link.router.Holds c.link.nextLane →
        (c₁.step m).1.link.router.pending ≤ c.link.router.pending) := by
  obtain ⟨i, hstep⟩ := h.step hm
  obtain ⟨o, j, hsub, -⟩ := h.stays.1.slots
  have hfrees : c₁.link.Frees (c₁.step m).1.link := by
    rw [hstep]
    exact (c₁.link.frees_dropInbox i).trans (frees_conclude _ e (.ok r))
  have hsub : (c₁.step m).1.link.router.plain.Sublist _ := List.Sublist.trans hfrees hsub
  rw [Router.pending_eq, Router.pending_eq]
  refine ⟨hsub.length_le, fun hfree => ?_⟩
  rcases List.sublist_cons_iff.1 hsub with hold | ⟨rest, hnew, -⟩
  · exact hold.length_le
  · have hmem : { lane := c.link.nextLane, owner := o, inbox := j } ∈
        (c₁.step m).1.link.router.plain := by
      rw [hnew]
      exact List.mem_cons_self
    exact absurd (Router.holds_iff_plain.2 ⟨_, hmem, rfl⟩) hfree

/-! ## Calls one after the other -/

/-- From the first client the second comes about by control calls, each of which returns with one of
the responses, and by what happens while no call waits. -/
inductive Rounds : Client α → List Response → Client α → Prop where
  | nil (c : Client α) : Rounds c [] c
  | call {c c₁ c' : Client α} {e : Errand} {r : Response} {rs : List Response} {m : Move α}
      (h : c.Answered c₁ e r) (hm : m = .resume ∨ m = .expire) (hs : Rounds (c₁.step m).1 rs c') :
      Rounds c (r :: rs) c'
  | move {c c' : Client α} {rs : List Response} {m : Move α} (hw : c.waiting = none)
      (hm : ∀ k, m ≠ .call k) (hs : Rounds (c.step m).1 rs c') : Rounds c rs c'

theorem Answered.issued_step (h : c.Answered c₁ e r) (hm : m = .resume ∨ m = .expire) :
    (c₁.step m).1.link.issued = c₁.link.issued := by
  obtain ⟨i, hstep⟩ := h.step hm
  rw [hstep, issued_conclude]
  rfl

theorem Rounds.issued_le {rs : List Response} (h : c.Rounds rs c') :
    c.link.issued ≤ c'.link.issued := by
  induction h with
  | nil => exact Nat.le_refl _
  | call h hm _ ih =>
    rw [h.issued_step hm, h.stays.1.issued] at ih
    exact Nat.le_of_succ_le ih
  | move _ _ _ ih => exact Nat.le_trans (Client.issued_step ..) ih

theorem Answered.released (h : c.Answered c₁ e r) (hm : m = .resume ∨ m = .expire)
    (hc : c.Reachable) (hb : c₁.link.issued ≤ 2 ^ 64) (hr : r.isTerminal = true) :
    ¬ (c₁.step m).1.link.router.Holds c.link.nextLane := by
  have hle : c.link.issued ≤ 2 ^ 64 := by
    have := h.stays.1.issued
    omega
  have hs₁ := (h.reachable hc).sound hb
  obtain ⟨w, hw, hhead⟩ := h.wave hs₁
  rw [h.holds_iff hm (hc.sound hle).link hs₁ hb hw]
  exact fun hno => Wave.ending_of_isTerminal hhead hr hno.2

/-- Each call leaves one slot at most, and none that was given a terminal response. -/
theorem Rounds.pending_le {rs : List Response} (h : c.Rounds rs c') (hc : c.Reachable)
    (hb : c'.link.issued ≤ 2 ^ 64) :
    c'.link.router.pending ≤ c.link.router.pending + rs.countP (!·.isTerminal) := by
  induction h with
  | nil => exact Nat.le_refl _
  | @call c c₁ c' e r rs m h hm hs ih =>
    have hle := hs.issued_le
    rw [h.issued_step hm] at hle
    have hafter := ih ((h.reachable hc).step m) hb
    obtain ⟨hone, hnone⟩ := h.pending_le hm
    cases hr : r.isTerminal with
    | true =>
      have hfree := hnone (h.released hm hc (Nat.le_trans hle hb) hr)
      rw [List.countP_cons_of_neg (by simp [hr])]
      omega
    | false =>
      rw [List.countP_cons_of_pos (by simp [hr])]
      omega
  | @move c c' rs m hw hm hs ih =>
    have hafter := ih (hc.step m) hb
    have hstays := stays_move (fun w hw' => nomatch hw.symm.trans hw') hm (idle_move hw hm).1
    have hfrees := hstays.frees.length_le
    rw [← Router.pending_eq, ← Router.pending_eq] at hfrees
    omega

/-! ## Answers to control calls -/

/-- A session is asked for, and a response comes. -/
def sought (c : Client α) (r : Response) : Client α :=
  ((c.call (.openSession "db" .data)).1.runAll [.arrive ⟨c.link.nextLane, r⟩]).1

/-- The client can open a session. -/
structure Able (c : Client α) : Prop where
  idle : c.waiting = none
  clones : c.clones ≠ 0
  isOpen : c.link.isOpen = true

theorem Able.call_eq (h : c.Able) (hs : c.Sound) (hb : c.link.issued + 1 ≤ 2 ^ 64) :
    c.call (.openSession "db" .data) =
      ({ c with
          link := (c.link.request {} (.openSession "db" .data)).2
          waiting := some (.errand (.openSession "db" .data) c.link.router.inboxes.length) },
        none) := by
  rw [← run_of_open hs.link h.isOpen _ hb, call_openSession h.idle, if_neg h.clones,
    h.isOpen]
  rfl

theorem Able.sought_eq (h : c.Able) (hs : c.Sound) (hb : c.link.issued + 1 ≤ 2 ^ 64)
    (r : Response) : c.sought r =
      { c with
        link := (c.link.request {} (.openSession "db" .data)).2.receive ⟨c.link.nextLane, r⟩
        waiting := some (.errand (.openSession "db" .data) c.link.router.inboxes.length) } := by
  unfold sought
  rw [h.call_eq hs hb]
  rfl

/-- The response finds the call that waits for it. -/
theorem Able.answered (h : c.Able) (hs : c.Sound) (hb : c.link.issued + 1 ≤ 2 ^ 64) (r : Response) :
    c.Answered (c.sought r) (.openSession "db" .data) r := by
  obtain ⟨l, hl⟩ : ∃ l, l = (c.link.request {} (.openSession "db" .data)).2 := ⟨_, rfl⟩
  have hbound : (c.link.request {} (.openSession "db" .data)).2.issued ≤ 2 ^ 64 := by
    rwa [Link.issued_request]
  have hsound := (Link.extends_request c.link {} (.openSession "db" .data)).sound hbound hs.link
  obtain ⟨-, hfresh⟩ := hs.link.fresh_request h.isOpen {} (.openSession "db" .data) hbound
  have hlane := Link.lastLane_request c.link {} (.openSession "db" .data)
  rw [← hl] at hsound hfresh hlane hbound
  have hline := hfresh.wired.line_receive hsound ⟨l.lastLane, r⟩
  rw [if_pos rfl, hfresh.line, Line.hear_of_live (List.nil_append _).symm rfl] at hline
  have hx := Link.extends_receive l ⟨l.lastLane, r⟩
  have hb' : (l.receive ⟨l.lastLane, r⟩).issued ≤ 2 ^ 64 := by rwa [issued_receive]
  have hpoll := (hx.wired hb' hsound hfresh.wired).line_poll (hx.sound hb' hsound)
  rw [hline] at hpoll
  obtain ⟨⟨d, found⟩, hp, heq⟩ := Option.map_eq_some_iff.1 hpoll.symm
  obtain rfl : d = .ok r := (Prod.mk.inj heq).1
  have hasked := h.sought_eq hs hb r
  rw [← hl, ← hlane] at hasked
  refine ⟨h.idle, .openSession "db" .data, [.arrive ⟨c.link.nextLane, r⟩],
    c.link.router.inboxes.length, found, ?_, rfl, ?_⟩
  · rw [h.call_eq hs hb]
  · rw [hasked]
    exact hp

/-- An answer to a query leaves the slot of the lane it came on. -/
theorem Able.length_plain_sought (h : c.Able) (hs : c.Sound) (hb : c.link.issued + 1 ≤ 2 ^ 64)
    (p : Payload) :
    (c.sought (.data p)).link.router.plain.length = c.link.router.plain.length + 1 := by
  have hfree : c.link.router.plain.filter (·.lane != c.link.nextLane) = c.link.router.plain := by
    refine List.filter_eq_self.2 fun t ht => bne_iff_ne.2 fun hlane => ?_
    exact hs.link.not_holds_nextLane hb (Router.holds_iff_plain.2 ⟨t, ht, hlane⟩)
  have hwithdrawn : (c.link.router.withdraw c.link.nextLane).slots.map Slot.plain =
      c.link.router.plain := Router.plain_withdraw (r := c.link.router) _ |>.trans hfree
  rw [h.sought_eq hs hb, hs.link.request_eq, if_pos h.isOpen]
  dsimp only
  rw [Link.receive_eq]
  split
  · show (Router.route _ _).plain.length = _
    rw [Router.plain_route]
    simp only [Response.isTerminal_data, Bool.and_false, Bool.not_false, List.filter_true]
    show (List.map Slot.plain (_ :: (c.link.router.withdraw c.link.nextLane).slots)).length = _
    rw [List.map_cons, List.length_cons, hwithdrawn]
  · rename_i hno
    exact absurd h.isOpen hno

/-- Sessions are asked for in vain as often as there are lanes, and each leaves its slot. -/
theorem Able.rounds (h : c.Able) (hc : c.Reachable) (p : Payload) (n : Nat)
    (hb : c.link.issued + n ≤ 2 ^ 64) : ∃ c', c.Rounds (List.replicate n (.data p)) c' ∧
      c'.link.router.pending = c.link.router.pending + n := by
  induction n generalizing c with
  | zero => exact ⟨c, .nil c, rfl⟩
  | succ n ih =>
    have hs := hc.sound (by omega)
    have hanswered := h.answered hs (by omega) (.data p)
    obtain ⟨i, hstep⟩ := hanswered.step (m := .resume) (.inl rfl)
    have hlink : ((c.sought (.data p)).step .resume).1.link =
        (c.sought (.data p)).link.dropInbox i := by
      rw [hstep, link_conclude (e := .openSession "db" .data) nofun]
    have hissued : ((c.sought (.data p)).step .resume).1.link.issued = c.link.issued + 1 := by
      rw [hanswered.issued_step (.inl rfl), hanswered.stays.1.issued]
    have hpending : ((c.sought (.data p)).step .resume).1.link.router.pending =
        c.link.router.pending + 1 := by
      rw [hlink, Router.pending_eq, Router.pending_eq, ← h.length_plain_sought hs (by omega) p]
      rfl
    have hable : ((c.sought (.data p)).step .resume).1.Able := by
      refine ⟨by rw [hstep, waiting_conclude], ?_, ?_⟩
      · rw [hstep, h.sought_eq hs (by omega)]
        exact h.clones
      · rw [hlink, h.sought_eq hs (by omega)]
        show (Link.receive _ _).isOpen = true
        rw [isOpen_receive, Link.isOpen_request]
        exact h.isOpen
    obtain ⟨c', hrounds, hleft⟩ := ih hable ((hanswered.reachable hc).step .resume) (by omega)
    exact ⟨c', .call hanswered (.inl rfl) hrounds, by omega⟩

/-! ## The theorem -/

/-- **The lane of a control call after its return.** A call waits for an errand and returns with the
first response that has come on its lane. The lane had no slot before the call. It has one afterwards
just if nothing that has come has ended the request and the call is not a commit, which fails what
is left of its transaction. So after a terminal response the slot is gone, and without it there are
no more slots than before the call. A response that is not terminal is an answer to a query; it
leaves the slot, and the call reports a violation. However many such calls are made, with frames
arriving and the connection lost in between: the slots that they leave are no more than those of
them that were given an answer to a query, and they can be as many. -/
theorem lane_after_errand (hc : c.Reachable) :
    (∀ c₁ e r m, c.Answered c₁ e r → m = .resume ∨ m = .expire → c₁.link.issued ≤ 2 ^ 64 →
      ((c₁.step m).2.isSome = true ∧ (c₁.step m).1.waiting = none) ∧
      ¬ c.link.router.Holds c.link.nextLane ∧
      (∃ w, c₁.link.waves c.link.nextLane = [w] ∧ w.deliveries.head? = some (.ok r) ∧
        ((c₁.step m).1.link.router.Holds c.link.nextLane ↔
          (∀ t, e ≠ .commit t) ∧ w.ending = none)) ∧
      (r.isTerminal = true → ¬ (c₁.step m).1.link.router.Holds c.link.nextLane) ∧
      (¬ (c₁.step m).1.link.router.Holds c.link.nextLane →
        (c₁.step m).1.link.router.pending ≤ c.link.router.pending) ∧
      (r.isTerminal = false →
        ∃ p v, r = .data p ∧ (c₁.step m).2 = some (.failed (.violation v)))) ∧
    (∀ rs c', c.Rounds rs c' → c'.link.issued ≤ 2 ^ 64 →
      c'.link.router.pending ≤ c.link.router.pending + rs.countP (!·.isTerminal)) ∧
    ∀ p n, c.Able → c.link.issued + n ≤ 2 ^ 64 → ∃ c', c.Rounds (List.replicate n (.data p)) c' ∧
      c'.link.router.pending = c.link.router.pending + n := by
  refine ⟨fun c₁ e r m h hm hb => ?_, fun rs c' h hb => h.pending_le hc hb,
    fun p n h hb => h.rounds hc p n hb⟩
  obtain ⟨i, hstep⟩ := h.step hm
  have hissued := h.stays.1.issued
  have hs := (hc.sound (by omega)).link
  have hs₁ := (h.reachable hc).sound hb
  obtain ⟨w, hw, hhead⟩ := h.wave hs₁
  refine ⟨?_, hs.not_holds_nextLane (by omega), ⟨w, hw, hhead, h.holds_iff hm hs hs₁ hb hw⟩,
    h.released hm hc hb, (h.pending_le hm).2, fun hr => ?_⟩
  · rw [hstep]
    exact ⟨isSome_conclude .., waiting_conclude ..⟩
  · obtain ⟨p, rfl⟩ := Response.eq_data_of_not_isTerminal hr
    rw [hstep]
    obtain ⟨v, hv⟩ := violation_of_data { c₁ with link := c₁.link.dropInbox i } e p
    exact ⟨p, v, rfl, hv⟩

/-- An answer to a query comes for a session that is asked for: the call is over and its lane still
has its slot. Then a session is opened, and one request stays outstanding; so many more do as are
answered like the first. -/
theorem lane_after_errand_answer : ∃ c c' : Client Payload,
    (c.sought (.data [97])).step .resume =
      (c', some (.failed (.violation (.noSession (.data [97]))))) ∧
    c'.link.router.Holds c.link.nextLane ∧
    (((c'.sought (.sessionOpened 7)).step .resume).2 = some (.opened 0) ∧
      ¬ ((c'.sought (.sessionOpened 7)).step .resume).1.link.router.Holds c'.link.nextLane) ∧
    ((c'.sought (.sessionOpened 7)).step .resume).1.link.router.pending = 1 ∧
    ((c'.sought (.sessionOpened 7)).step .resume).1.link.router.pending ≤
      c.link.router.pending + 1 ∧
    ∃ c'' : Client Payload, c.Rounds (List.replicate 1000 (.data [97])) c'' ∧
      c''.link.router.pending = c.link.router.pending + 1000 := by
  obtain ⟨c, hc⟩ : ∃ c : Client Payload, c = {} := ⟨_, rfl⟩
  obtain ⟨c', hc'⟩ : ∃ c', c' = ((c.sought (.data [97])).step .resume).1 := ⟨_, rfl⟩
  have hreach : c.Reachable := ⟨none, [], hc⟩
  have hable : c.Able := by
    subst hc
    exact ⟨rfl, nofun, rfl⟩
  have hfirst : c.Answered (c.sought (.data [97])) (.openSession "db" .data) (.data [97]) := by
    subst hc
    exact ⟨rfl, _, _, 0, _, rfl, rfl, rfl⟩
  have hsecond : c'.Answered (c'.sought (.sessionOpened 7)) (.openSession "db" .data)
      (.sessionOpened 7) := by
    subst hc' hc
    exact ⟨rfl, _, _, 1, _, rfl, rfl, rfl⟩
  have hreach' : c'.Reachable := by
    rw [hc']
    exact (hfirst.reachable hreach).step .resume
  have hb : c.link.issued + 1000 ≤ 2 ^ 64 ∧ (c.sought (.data [97])).link.issued ≤ 2 ^ 64 ∧
      (c'.sought (.sessionOpened 7)).link.issued ≤ 2 ^ 64 ∧
      ((c'.sought (.sessionOpened 7)).step .resume).1.link.issued ≤ 2 ^ 64 := by
    subst hc' hc
    decide +kernel
  have hreplies : ((c.sought (.data [97])).step .resume).2 =
        some (.failed (.violation (.noSession (.data [97])))) ∧
      ((c'.sought (.sessionOpened 7)).step .resume).2 = some (.opened 0) ∧
      ((c'.sought (.sessionOpened 7)).step .resume).1.link.router.pending = 1 ∧
      ((c.sought (.data [97])).link.waves c.link.nextLane).map (·.ending.isNone) = [true] := by
    subst hc' hc
    decide +kernel
  obtain ⟨hfailed, hopened, hpending, hgoing⟩ := hreplies
  have hrounds : c.Rounds [.data [97], .sessionOpened 7]
      ((c'.sought (.sessionOpened 7)).step .resume).1 :=
    .call hfirst (.inl rfl) (hc' ▸ .call hsecond (.inl rfl) (.nil _))
  obtain ⟨-, -, ⟨w, hw, -, hheld⟩, -⟩ :=
    (lane_after_errand hreach).1 _ _ _ .resume hfirst (.inl rfl) hb.2.1
  obtain ⟨-, -, -, hreleased, -⟩ :=
    (lane_after_errand hreach').1 _ _ _ .resume hsecond (.inl rfl) hb.2.2.1
  have hmany := (lane_after_errand hreach).2.2 [97] 1000 hable hb.1
  have hending : w.ending = none := by
    rw [hw] at hgoing
    simpa using hgoing
  refine ⟨c, c', ?_, ?_, ⟨hopened, hreleased rfl⟩, hpending,
    (lane_after_errand hreach).2.1 _ _ hrounds hb.2.2.2, hmany⟩
  · rw [← hfailed, hc']
  · rw [hc']
    exact hheld.2 ⟨nofun, hending⟩

end Client

end QueryLanes
