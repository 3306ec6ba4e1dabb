import QueryLanes.Proofs.Likeness
import QueryLanes.Proofs.Parting

/-!
# Callbacks

The callbacks of a session run when it is closed or dropped for the first time, and at no other
time. `Client.due` is what the closing of a session would run: what was registered in it since it was
opened, and nothing once it is closed. `Client.due_step` says what a move does to it,
`Client.ran_step` that a move runs what is due in the session that it closes, and
`Client.transcript_closing` when: after the requests of the session failed, and before the server is
told. `Client.callbacks_run_once` puts this together for runs.
-/

namespace QueryLanes

variable {α : Type}

/-! ## Links -/

namespace Link

theorem ran_dispatch (l : Link) (lane : Lane) (o : Owner) (request : Request) :
    (l.dispatch lane o request).2.ran = l.ran := by
  unfold dispatch send
  split
  · rfl
  · split <;> rename_i hs
    · split at hs
      · cases hs
        exact (ran_record ..).trans (List.append_nil _)
      · cases hs
    · rfl

theorem ran_fail (l : Link) (doomed : Owner → Bool) (e : Failure) : (l.fail doomed e).ran = l.ran :=
  (ran_record ..).trans (List.append_nil _)

theorem ran_close (l : Link) : l.close.ran = l.ran := by
  rw [close_eq]
  split
  · exact ran_fail l _ _
  · rfl

/-- Without the power to run it no callback runs. -/
theorem Works.ran_eq {P : Power → Prop} {l l' : Link} (h : l.Works P l')
    (hrun : ∀ label, ¬ P (.run label)) : l'.ran = l.ran := by
  refine h.keeps (K := fun l' => l'.ran = l.ran) (fun l₁ l₂ hd heq => ?_) rfl
  rw [← heq]
  cases hd with
  | dispatch => exact ran_dispatch ..
  | fail => exact ran_fail ..
  | ran label hp => exact absurd hp (hrun label)
  | close => exact ran_close l₁
  | _ => rfl

theorem ran_receive (l : Link) (f : ServerFrame) : (l.receive f).ran = l.ran := by
  unfold receive
  split
  · exact (ran_record ..).trans (List.append_nil _)
  · rfl

theorem transcript_ran_all (l : Link) (labels : List String) :
    (labels.foldl (fun l label => l.record (.ran label)) l).transcript =
      l.transcript ++ labels.map .ran := by
  induction labels generalizing l with
  | nil => exact (List.append_nil _).symm
  | cons label labels ih =>
    rw [List.foldl_cons, ih, record, List.append_assoc]
    rfl

/-- The callbacks among some lines of a transcript. -/
def ranIn (es : List Entry) : List String := ran { transcript := es }

@[simp] theorem ranIn_append (es es' : List Entry) : ranIn (es ++ es') = ranIn es ++ ranIn es' :=
  List.filterMap_append

@[simp] theorem ranIn_map_ran (labels : List String) : ranIn (labels.map .ran) = labels := by
  induction labels with
  | nil => rfl
  | cons label labels ih => exact congrArg (label :: ·) ih

@[simp] theorem ranIn_failed (lanes : List Lane) (e : Failure) (es : List Entry) :
    ranIn (.failed lanes e :: es) = ranIn es := rfl

theorem ran_of_transcript {l l' : Link} {es : List Entry}
    (h : l'.transcript = l.transcript ++ es) : l'.ran = l.ran ++ ranIn es := by
  rw [ran, h, List.filterMap_append]
  rfl

/-- The lanes of the requests that are outstanding in a session. -/
def lanesWithin (l : Link) (session : UInt64) : List Lane :=
  (l.router.slots.filter (·.owner.session == some session)).map (·.lane)

theorem transcript_failSession (l : Link) (session : UInt64) : (l.failSession session).transcript =
    l.transcript ++ [.failed (l.lanesWithin session) .sessionClosed] := by
  rw [failSession_eq, fail, record, Router.failWhere_eq]
  rfl

theorem request_of_open {l : Link} (ha : l.Aligned) (ho : l.isOpen = true) (o : Owner)
    (request : Request) : l.request o request =
      (.ok l.router.inboxes.length, l.openLane.2.launch l.nextLane o request) := by
  have h := dispatch_eq (l := l.openLane.2) ha l.nextLane o request
  rw [show l.openLane.2.isOpen = true from ho, if_pos rfl] at h
  exact h

theorem transcript_close (l : Link) : ∃ tail, l.close.transcript = l.transcript ++ tail ∧
    (tail = [] ∨ ∃ lanes, tail = [.failed lanes .connectionClosed]) := by
  rw [close_eq]
  split
  · exact ⟨_, rfl, .inr ⟨_, rfl⟩⟩
  · exact ⟨[], (List.append_nil _).symm, .inl rfl⟩

end Link

namespace Client

variable {c c' : Client α} {s s' : Handle} {y : Session} {m : Move α} {k : Call α}

/-! ## What is due -/

/-- The session that a move closes or drops, if the caller has it. -/
def closing? (c : Client α) : Move α → Option Handle
  | .call k =>
    if c.waiting.isSome then none else k.endsSession?.filter fun s => (c.session? s).isSome
  | _ => none

/-- The callback that a move registers in a session while this is open. -/
def registers? (c : Client α) (s : Handle) : Move α → Option String
  | .call (.onClose s' label) =>
    if s' == s && c.waiting.isNone && (c.session? s).any (·.isOpen) then some label else none
  | _ => none

/-- The callbacks that the closing of a session would run. -/
def due (c : Client α) (s : Handle) : List String :=
  (c.sessions[s]?.filter (·.isOpen)).elim [] (·.callbacks)

theorem closing?_eq_some : c.closing? m = some s ↔ c.Closes s m := by
  cases m with
  | call k =>
    unfold closing? Closes
    cases hw : c.waiting with
    | some w => simp
    | none => simp [Option.filter_eq_some_iff]
  | _ => simp [closing?, Closes]

theorem due_eq (hy : c.sessions[s]? = some y) : c.due s = if y.isOpen then y.callbacks else [] := by
  rw [due, hy, Option.filter_some]
  split <;> rfl

/-- In a session that is new nothing is registered. -/
theorem due_concat (s : Handle) {ss : List Session} {y : Session} (hy : y.callbacks = []) :
    (((ss ++ [y])[s]?).filter (·.isOpen)).elim [] (·.callbacks) =
      ((ss[s]?).filter (·.isOpen)).elim [] (·.callbacks) := by
  rw [List.getElem?_append]
  split
  · rfl
  · rename_i hlt
    rw [List.getElem?_eq_none (Nat.le_of_not_lt hlt)]
    cases hnew : [y][s - ss.length]? with
    | none => rfl
    | some y' =>
      rw [List.mem_singleton.1 (List.mem_of_getElem? hnew), Option.filter_some]
      split
      · exact hy
      · rfl

/-- What becomes of a session that is written over. -/
theorem due_modifySession (c : Client α) (s : Handle) (f : Session → Session) (s' : Handle) :
    (c.modifySession s f).due s' =
      if s = s' then ((c.sessions[s]?.map f).filter (·.isOpen)).elim [] (·.callbacks)
      else c.due s' := by
  unfold due modifySession
  dsimp only
  rw [List.getElem?_modify]
  split
  · rename_i hs
    subst hs
    rfl
  · cases c.sessions[s']? <;> rfl

theorem due_dropSession (c : Client α) (s s' : Handle) :
    (c.modifySession s ({ · with held := false })).due s' = c.due s' := by
  rw [due_modifySession]
  split
  · rename_i hs
    subst hs
    unfold due
    rcases c.sessions[s]? with _ | y
    · rfl
    · cases hy : y.isOpen <;> simp [Option.filter, hy]
  · rfl

/-- What is due in a session changes only if it is closed, or something is registered in it. -/
theorem Acts.due_eq {P : Power → Prop} (h : c.Acts P c') (hends : ¬ P (.ends (.session s)))
    (hregister : ¬ P (.register s)) : c'.due s = c.due s := by
  refine h.keeps (K := fun c' => c'.due s = c.due s) (fun c₁ c₂ hd heq => ?_) rfl
  rw [← heq]
  cases hd with
  | addSession y _ hy => exact due_concat s hy
  | register s' labels hp =>
    have hne : s' ≠ s := fun hs => hregister (hs ▸ hp)
    exact (due_modifySession ..).trans (if_neg hne)
  | endSession s' hp =>
    have hne : s' ≠ s := fun hs => hends (hs ▸ hp)
    exact (due_modifySession ..).trans (if_neg hne)
  | dropSession s' => exact due_dropSession c₁ s' s
  | _ => rfl

theorem due_onClose (hw : c.waiting = none) (label : String) (s' : Handle) :
    (c.call (.onClose s label)).1.due s' =
      c.due s' ++ (c.registers? s' (.call (.onClose s label))).toList := by
  cases hy : c.session? s with
  | none =>
    have hnone : c.registers? s' (.call (.onClose s label)) = none := by
      by_cases hs : s = s'
      · subst hs
        simp [registers?, hy]
      · simp [registers?, hs]
    rw [call_of_no_session hw rfl hy, hnone]
    exact (List.append_nil _).symm
  | some y =>
    rw [call_onClose hw hy]
    refine (due_modifySession c s _ s').trans ?_
    by_cases hs : s = s'
    · subst hs
      have hget := getElem?_of_session? hy
      rw [if_pos rfl, hget, due_eq hget]
      cases ho : y.isOpen <;> simp [registers?, hw, hy, ho, Option.filter_some]
    · rw [if_neg hs]
      simp [registers?, hs]

/-! ## What a move does to what is due -/

theorem due_of_closed (h : c.records.isOpen? (.session s) = some false) : c.due s = [] := by
  obtain ⟨y, hy, ho⟩ := Option.map_eq_some_iff.1 h
  rw [due_eq hy, ho]
  rfl

/-- **What is due after a move.** Nothing in the session that it closes; otherwise what was due
before, and what the move registers. -/
theorem due_step (c : Client α) (m : Move α) (s : Handle) : (c.step m).1.due s =
    if c.closing? m = some s then [] else c.due s ++ (c.registers? s m).toList := by
  split
  · rename_i hc
    exact due_of_closed (closing?_eq_some.1 hc).closed
  · rename_i hc
    by_cases hm : ∃ s' label, m = .call (.onClose s' label)
    · obtain ⟨s', label, rfl⟩ := hm
      cases hw : c.waiting with
      | some w =>
        have hbusy : c.step (.call (.onClose s' label)) = (c, none) := call_of_waiting hw (.onClose ..)
        rw [hbusy]
        simp [registers?, hw]
      | none => exact due_onClose hw label s
    · have hno : c.registers? s m = none := by
        unfold registers?
        split
        · exact absurd ⟨_, _, rfl⟩ hm
        · rfl
      rw [hno, Option.toList_none, List.append_nil]
      rcases c.acts_step m with ⟨f, rfl⟩ | hacts
      · rfl
      · refine hacts.due_eq (fun hends => hc (closing?_eq_some.2 hends)) fun hp => ?_
        cases m with
        | call k =>
          obtain ⟨label, rfl⟩ := hp
          exact hm ⟨s, label, rfl⟩
        | _ => exact hp

/-! ## What a move runs -/

theorem step_closing (h : c.closing? m = some s) (hy : c.session? s = some y) :
    c.step m = c.closeSession s y ∨ c.step m = (c.dropSession s y).replying .done := by
  obtain ⟨k, rfl, hk, hw, -⟩ := closing?_eq_some.1 h
  cases k with
  | closeSession s' =>
    cases hk
    exact .inl (call_closeSession hw hy)
  | dropSession s' =>
    cases hk
    exact .inr (call_dropSession hw hy)
  | _ => cases hk

/-- A move that closes no session runs nothing. -/
theorem ran_of_not_closing (h : c.closing? m = none) : (c.step m).1.link.ran = c.link.ran := by
  rcases c.acts_step m with ⟨f, rfl⟩ | hacts
  · exact Link.ran_receive ..
  · refine hacts.works.ran_eq fun label hp => ?_
    cases m with
    | call k =>
      obtain ⟨s, y, hcloses, -⟩ := hp
      cases h.symm.trans (closing?_eq_some.2 hcloses)
    | _ => exact hp

/-! ### Closings -/

/-- The frame that tells the server of a closing, if it can be told. -/
def farewell (c : Client α) (y : Session) : List Entry :=
  if c.link.isOpen then [.sent ⟨c.link.nextLane, .closeSession y.id⟩] else []

theorem transcript_endSession (c : Client α) (s : Handle) (y : Session) :
    (c.endSession s y).link.transcript = c.link.transcript ++
      .failed (c.link.lanesWithin y.id) .sessionClosed :: y.callbacks.map .ran := by
  refine (Link.transcript_ran_all _ _).trans ?_
  rw [Link.transcript_failSession, List.append_assoc]
  rfl

theorem nextLane_endSession (c : Client α) (s : Handle) (y : Session) :
    (c.endSession s y).link.nextLane = c.link.nextLane := by
  rw [Link.nextLane, issued_endSession, Link.nextLane]

theorem transcript_closeSession (ha : c.link.Aligned) (ho : y.isOpen = true) :
    (c.closeSession s y).1.link.transcript =
      (c.endSession s y).link.transcript ++ c.farewell y := by
  rw [closeSession_eq, isOpen_endSession, ho]
  unfold farewell
  cases hopen : c.link.isOpen with
  | false => exact (List.append_nil _).symm
  | true =>
    have hreq := Link.request_of_open ((still_endSession c s y).aligned ha)
      ((isOpen_endSession c s y).trans hopen) {} (.closeSession y.id)
    rw [if_pos rfl, closing, if_neg (by decide), if_pos rfl, run, hreq, nextLane_endSession]
    rfl

theorem transcript_release (c : Client α) : ∃ tail,
    c.release.link.transcript = c.link.transcript ++ tail ∧
      (tail = [] ∨ ∃ lanes, tail = [.failed lanes .connectionClosed]) := by
  rcases release_cases c with h | h <;> rw [h]
  · exact ⟨[], (List.append_nil _).symm, .inl rfl⟩
  · exact c.link.transcript_close

theorem transcript_dropSession (ha : c.link.Aligned) (ho : y.isOpen = true) : ∃ tail,
    (c.dropSession s y).link.transcript =
        (c.endSession s y).link.transcript ++ c.farewell y ++ tail ∧
      (tail = [] ∨ ∃ lanes, tail = [.failed lanes .connectionClosed]) := by
  obtain ⟨ended, hended⟩ : ∃ ended, ended =
    (c.modifySession s ({ · with held := false })).endSession s y := ⟨_, rfl⟩
  have hlink : ended.link = (c.endSession s y).link := by
    rw [hended]
    rfl
  have hdrop : c.dropSession s y = release (if ended.link.isOpen then
      { ended with link := ended.link.post {} (.closeSession y.id) } else ended) := by
    rw [hended, dropSession_eq, ho]
    rfl
  rw [hdrop, farewell, hlink, isOpen_endSession]
  cases hopen : c.link.isOpen with
  | false =>
    obtain ⟨tail, htail, hcases⟩ := transcript_release ended
    refine ⟨tail, ?_, hcases⟩
    rw [if_neg Bool.false_ne_true, if_neg Bool.false_ne_true, htail, hlink, List.append_nil]
  | true =>
    have hreq := Link.request_of_open ((still_endSession c s y).aligned ha)
      ((isOpen_endSession c s y).trans hopen) {} (.closeSession y.id)
    obtain ⟨tail, htail, hcases⟩ := transcript_release
      { ended with link := (c.endSession s y).link.post {} (.closeSession y.id) }
    refine ⟨tail, ?_, hcases⟩
    rw [if_pos rfl, if_pos rfl, htail]
    dsimp only
    rw [Link.post, hreq, nextLane_endSession]
    rfl

/-- **How a session closes.** Its requests fail, its callbacks run in order, and the server is told.
If the session was the last that the caller had, the connection is closed after that. -/
theorem transcript_closing (ha : c.link.Aligned) (h : c.closing? m = some s)
    (hy : c.session? s = some y) (ho : y.isOpen = true) : ∃ tail,
    (c.step m).1.link.transcript = c.link.transcript ++
        .failed (c.link.lanesWithin y.id) .sessionClosed ::
          (y.callbacks.map .ran ++ c.farewell y ++ tail) ∧
      (tail = [] ∨ ∃ lanes, tail = [.failed lanes .connectionClosed]) := by
  rcases step_closing h hy with hstep | hstep <;> rw [hstep]
  · refine ⟨[], ?_, .inl rfl⟩
    rw [transcript_closeSession ha ho, transcript_endSession]
    simp
  · obtain ⟨tail, htail, hcases⟩ := transcript_dropSession (s := s) ha ho
    refine ⟨tail, ?_, hcases⟩
    rw [show ((c.dropSession s y).replying .done).1.link = (c.dropSession s y).link from rfl, htail,
      transcript_endSession]
    simp

/-- **What a move runs.** What is due in the session that it closes. -/
theorem ran_step (ha : c.link.Aligned) (m : Move α) :
    (c.step m).1.link.ran = c.link.ran ++ (c.closing? m).elim [] c.due := by
  cases h : c.closing? m with
  | none =>
    rw [Option.elim_none, List.append_nil]
    exact ran_of_not_closing h
  | some s =>
    rw [Option.elim_some]
    obtain ⟨-, -, -, -, hy⟩ := closing?_eq_some.1 h
    obtain ⟨y, hy⟩ := Option.isSome_iff_exists.1 hy
    rw [due_eq (getElem?_of_session? hy)]
    cases ho : y.isOpen with
    | true =>
      obtain ⟨tail, htail, hcases⟩ := transcript_closing ha h hy ho
      have hquiet : Link.ranIn tail = [] := by
        rcases hcases with rfl | ⟨lanes, rfl⟩ <;> rfl
      have hfarewell : Link.ranIn (c.farewell y) = [] := by
        unfold farewell
        split <;> rfl
      rw [Link.ran_of_transcript htail]
      simp [hquiet, hfarewell]
    | false =>
      rw [if_neg Bool.false_ne_true, List.append_nil]
      rcases step_closing h hy with hstep | hstep <;> rw [hstep]
      · rw [closeSession_eq, ho]
        rfl
      · have hrelease := acts_release (P := (· = .close))
          (c.modifySession s ({ · with held := false })) rfl
        rw [dropSession_eq, ho]
        exact hrelease.works.ran_eq nofun

/-! ## Runs -/

/-- The callbacks that a run registers in a session while this is open. -/
def registered (s : Handle) (run : List (Client α × Move α)) : List String :=
  run.filterMap fun p => p.1.registers? s p.2

/-- The session that a move closes as the first one in its run. -/
def firstClosing? (before : List (Client α × Move α)) (c : Client α) (m : Move α) : Option Handle :=
  (c.closing? m).filter fun s => !before.any fun p => p.1.closing? p.2 == some s

/-- Closed sessions register nothing. -/
theorem registers?_of_closed (h : c.records.isOpen? (.session s) = some false) (m : Move α) :
    c.registers? s m = none := by
  obtain ⟨y, hy, ho⟩ := Option.map_eq_some_iff.1 h
  unfold registers?
  split
  · refine if_neg fun hcond => ?_
    rw [Bool.and_eq_true, Option.any_eq_true] at hcond
    obtain ⟨-, y', hy', ho'⟩ := hcond
    rw [show c.records.1[s]? = some y' from getElem?_of_session? hy'] at hy
    cases hy
    rw [ho] at ho'
    cases ho'
  · rfl

theorem registered_of_closed (h : c.records.isOpen? (.session s) = some false)
    (ms : List (Move α)) : registered s (c.trace ms) = [] := by
  induction ms generalizing c with
  | nil => rfl
  | cons m ms ih =>
    rw [trace, registered, List.filterMap_cons, registers?_of_closed h]
    exact ih ((ages_step c m).closed h)

theorem closed_runAll (h : c.records.isOpen? (.session s) = some false) (ms : List (Move α)) :
    (c.runAll ms).1.records.isOpen? (.session s) = some false := by
  induction ms generalizing c with
  | nil => exact h
  | cons m ms ih => exact ih ((ages_step c m).closed h)

/-- A session that was closed in a run is closed after it. -/
theorem closed_of_closing {ms : List (Move α)} {p : Client α × Move α} (hp : p ∈ c.trace ms)
    (hs : p.1.closing? p.2 = some s) :
    (c.runAll ms).1.records.isOpen? (.session s) = some false := by
  obtain ⟨before, after, hrun⟩ := List.append_of_mem hp
  obtain ⟨ms₁, ms₂, rfl, -, hc', -⟩ := trace_eq_append hrun
  rw [runAll_append, runAll_cons, ← hc']
  exact closed_runAll (closing?_eq_some.1 hs).closed ms₂

/-- What is due after a run that does not close the session. -/
theorem due_runAll {ms : List (Move α)} (h : ∀ p ∈ c.trace ms, p.1.closing? p.2 ≠ some s) :
    (c.runAll ms).1.due s = c.due s ++ registered s (c.trace ms) := by
  induction ms generalizing c with
  | nil => exact (List.append_nil _).symm
  | cons m ms ih =>
    obtain ⟨hm, hms⟩ := List.forall_mem_cons.1 h
    have hstep := due_step c m s
    rw [if_neg hm] at hstep
    rw [runAll_cons, trace]
    dsimp only
    rw [ih hms, hstep, List.append_assoc]
    refine congrArg _ ?_
    unfold registered
    rw [List.filterMap_cons]
    cases c.registers? s m <;> rfl

theorem firstClosing?_eq_some {before : List (Client α × Move α)} :
    firstClosing? before c m = some s ↔
      c.closing? m = some s ∧ ∀ p ∈ before, p.1.closing? p.2 ≠ some s := by
  simp [firstClosing?, Option.filter_eq_some_iff]

/-- What is due in the session that a move closes is all that was registered in it, or nothing. -/
theorem due_closing (timeout : Option Nat) (ms : List (Move α)) (m : Move α) :
    let c := ((new timeout : Client α).runAll ms).1
    let run := (new timeout : Client α).trace ms
    (c.closing? m).elim [] c.due = (firstClosing? run c m).elim [] (registered · run) := by
  intro c run
  cases h : c.closing? m with
  | none => rw [firstClosing?, h]; rfl
  | some s =>
    rw [Option.elim_some]
    by_cases hbefore : ∀ p ∈ run, p.1.closing? p.2 ≠ some s
    · rw [firstClosing?_eq_some.2 ⟨h, hbefore⟩, Option.elim_some]
      exact (due_runAll hbefore).trans (List.nil_append _)
    · have hnone : firstClosing? run c m = none := by
        rw [Option.eq_none_iff_forall_ne_some]
        intro s' hs'
        obtain ⟨hm, hno⟩ := firstClosing?_eq_some.1 hs'
        rw [h] at hm
        cases hm
        exact hbefore hno
      obtain ⟨p, hp, hs⟩ : ∃ p ∈ run, p.1.closing? p.2 = some s := by
        simpa using hbefore
      rw [hnone]
      exact due_of_closed (closed_of_closing hp hs)

theorem registered_append (s : Handle) (run run' : List (Client α × Move α)) :
    registered s (run ++ run') = registered s run ++ registered s run' := List.filterMap_append ..

theorem registers?_of_closing {s' : Handle} (h : c.closing? m = some s') (s : Handle) :
    c.registers? s m = none := by
  obtain ⟨k, rfl, hk, -⟩ := closing?_eq_some.1 h
  cases k <;> first | rfl | cases hk

/-- Nothing is registered in a session once it is closed. -/
theorem registered_eq_of_closing {ms : List (Move α)} {before after : List (Client α × Move α)}
    (hrun : c.trace ms = before ++ (c', m) :: after) (h : c'.closing? m = some s) :
    registered s (c.trace ms) = registered s before := by
  obtain ⟨-, ms₂, -, -, -, rfl⟩ := trace_eq_append hrun
  have hafter := registered_of_closed (closing?_eq_some.1 h).closed ms₂
  rw [hrun, registered_append, registered, registered, List.filterMap_cons,
    registers?_of_closing h, ← registered, ← registered, hafter, List.append_nil]

/-- The sessions that a run closes, each once. -/
def closedIn (run : List (Client α × Move α)) : List Handle :=
  (run.filterMap fun p => p.1.closing? p.2).eraseDups

theorem mem_closedIn {run : List (Client α × Move α)} :
    s ∈ closedIn run ↔ ∃ p ∈ run, p.1.closing? p.2 = some s := by
  rw [closedIn, List.mem_eraseDups, List.mem_filterMap]

theorem closedIn_concat (run : List (Client α × Move α)) (c : Client α) (m : Move α) :
    closedIn (run ++ [(c, m)]) = closedIn run ++ (firstClosing? run c m).toList := by
  unfold closedIn firstClosing?
  rw [List.filterMap_append, List.eraseDups_append]
  refine congrArg _ ?_
  cases h : c.closing? m with
  | none => simp [h, List.removeAll]
  | some s =>
    have hany : (run.filterMap fun p => p.1.closing? p.2).elem s =
        run.any fun p => p.1.closing? p.2 == some s := by
      rw [Bool.eq_iff_iff]
      simp
    have hone : [(c, m)].filterMap (fun p => p.1.closing? p.2) = [s] := by simp [h]
    rw [hone, List.removeAll, List.filter_cons, hany, Option.filter_some]
    split <;> rfl

/-- In a run the callbacks of each session that it closes run once. -/
theorem ran_runAll (timeout : Option Nat) (ms : List (Move α)) :
    ((new timeout : Client α).runAll ms).1.link.ran =
      (closedIn ((new timeout : Client α).trace ms)).flatMap
        (registered · ((new timeout : Client α).trace ms)) := by
  induction ms using List.reverseRecOn with
  | nil => rfl
  | append_singleton ms m ih =>
    obtain ⟨run, hrun⟩ : ∃ run, (new timeout : Client α).trace ms = run := ⟨_, rfl⟩
    obtain ⟨c, hc⟩ : ∃ c, ((new timeout : Client α).runAll ms).1 = c := ⟨_, rfl⟩
    have hfit : c.Fit := hc ▸ (fit_new timeout).runAll ms
    have hdue := due_closing timeout ms m
    rw [hc, hrun] at ih hdue
    have hconcat (s : Handle) : registered s (run ++ [(c, m)]) =
        registered s run ++ (c.registers? s m).toList := by
      rw [registered_append, registered, registered, List.filterMap_cons]
      cases c.registers? s m <;> rfl
    -- to what a session has that is closed before nothing is added
    have hold : ∀ s ∈ closedIn run, registered s (run ++ [(c, m)]) = registered s run := by
      intro s hs
      obtain ⟨p, hp, hclosing⟩ := mem_closedIn.1 hs
      rw [hconcat, registers?_of_closed (hc ▸ closed_of_closing (hrun ▸ hp) hclosing),
        Option.toList_none, List.append_nil]
    have htrace : (new timeout : Client α).trace (ms ++ [m]) = run ++ [(c, m)] := by
      rw [trace_append, hrun, hc]
      rfl
    have hlast : ((new timeout : Client α).runAll (ms ++ [m])).1 = (c.step m).1 := by
      rw [runAll_append, hc]
      rfl
    rw [hlast, htrace, ran_step hfit.aligned, ih, hdue, closedIn_concat, List.flatMap_append,
      List.flatMap_congr hold]
    refine congrArg _ ?_
    cases hs : firstClosing? run c m with
    | none => rfl
    | some s =>
      rw [Option.elim_some, Option.toList_some, List.flatMap_singleton, hconcat,
        registers?_of_closing (firstClosing?_eq_some.1 hs).1, Option.toList_none, List.append_nil]

/-- **Callbacks run once.** In a run, whatever the server does in it, the callbacks that run are for
each session that is closed or dropped those that were registered in it while it was open, once and in
order. They run in the move that closes or drops the session for the first time: before them the
outstanding requests of the session fail, and after them the server is told, if the connection is
open. No other move runs any. -/
theorem callbacks_run_once (timeout : Option Nat) (ms : List (Move α)) :
    let run := (new timeout : Client α).trace ms
    ((new timeout).runAll ms).1.link.ran = (closedIn run).flatMap (registered · run) ∧
    ∀ before c m after, run = before ++ (c, m) :: after →
      (c.step m).1.link.ran =
        c.link.ran ++ (firstClosing? before c m).elim [] (registered · run) ∧
      ∀ s, firstClosing? before c m = some s → ∃ y tail, c.session? s = some y ∧
        (c.step m).1.link.transcript = c.link.transcript ++
          .failed (c.link.lanesWithin y.id) .sessionClosed ::
            ((registered s run).map .ran ++ c.farewell y ++ tail) ∧
        (tail = [] ∨ ∃ lanes, tail = [.failed lanes .connectionClosed]) := by
  intro run
  refine ⟨ran_runAll timeout ms, fun before c m after hrun => ?_⟩
  obtain ⟨ms₁, ms₂, -, hbefore, hc, -⟩ := trace_eq_append hrun
  have hfit : c.Fit := hc ▸ (fit_new timeout).runAll ms₁
  refine ⟨?_, fun s hs => ?_⟩
  · rw [ran_step hfit.aligned, hc, due_closing timeout ms₁ m, ← hc, ← hbefore]
    cases hs : firstClosing? before c m with
    | none => rfl
    | some s =>
      rw [Option.elim_some, Option.elim_some]
      exact congrArg _ (registered_eq_of_closing hrun (firstClosing?_eq_some.1 hs).1).symm
  · obtain ⟨hclosing, hfirst⟩ := firstClosing?_eq_some.1 hs
    obtain ⟨k, -, -, -, hy⟩ := closing?_eq_some.1 hclosing
    obtain ⟨y, hy⟩ := Option.isSome_iff_exists.1 hy
    have hdue : c.due s = registered s run := by
      rw [registered_eq_of_closing hrun hclosing, hbefore, hc]
      exact (due_runAll (hbefore ▸ hfirst)).trans (List.nil_append _)
    have hopen : y.isOpen = true := by
      by_contra hno
      have hclosed := closed_session (getElem?_of_session? hy) (Bool.eq_false_iff.2 hno)
      rw [hc] at hclosed
      refine untouched_runAll (c := new timeout) nofun (fun p hp hcloses => ?_) hclosed
      exact hfirst p (hbefore ▸ hp) (closing?_eq_some.2 hcloses)
    rw [due_eq (getElem?_of_session? hy), if_pos hopen] at hdue
    obtain ⟨tail, htail, hcases⟩ := transcript_closing hfit.aligned hclosing hy hopen
    rw [hdue] at htail
    exact ⟨y, tail, hy, htail, hcases⟩

/-- A session is closed, but the server does not answer. Then a third callback is registered, and
the session is dropped. -/
def lateCallback : List (Move Payload) :=
  [.call (.openSession "db" .data), .arrive ⟨1, .sessionOpened 7⟩, .resume,
    .call (.onClose 0 "first"), .call (.onClose 0 "second"), .call (.closeSession 0), .expire,
    .call (.onClose 0 "third"), .call (.dropSession 0)]

theorem callbacks_run_once_lateCallback :
    ((new (some 5)).runAll lateCallback).1.link.ran = ["first", "second"] ∧
    ∃ c : Client Payload, c = ((new (some 5)).runAll (lateCallback.take 5)).1 ∧ ∃ y tail,
      c.session? 0 = some y ∧
      (c.step (.call (.closeSession 0))).1.link.transcript = c.link.transcript ++
        .failed (c.link.lanesWithin y.id) .sessionClosed ::
          (["first", "second"].map .ran ++ c.farewell y ++ tail) := by
  obtain ⟨hran, hclosing⟩ := callbacks_run_once (some 5) lateCallback
  refine ⟨hran.trans (by decide +kernel), _, rfl, ?_⟩
  obtain ⟨-, hfirst⟩ := hclosing _ _ _ _
    ((new (some 5)).trace_append (lateCallback.take 5) (lateCallback.drop 5))
  obtain ⟨y, tail, hy, htail, -⟩ := hfirst 0 (by decide +kernel)
  have hregistered : registered 0 ((new (some 5)).trace lateCallback) = ["first", "second"] := by
    decide +kernel
  rw [hregistered] at htail
  exact ⟨y, tail, hy, htail⟩

end Client

end QueryLanes
