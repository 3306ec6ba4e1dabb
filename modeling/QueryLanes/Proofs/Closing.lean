import QueryLanes.Proofs.Remaining

/-!
# Closing

A closed connection is final. `Link.Final` says what any deed of the client leaves of a closed link:
it is closed, nothing is sent on it, no request is outstanding, and no lane is told anything more.
Whatever asks for a request fails at once, whatever closes something succeeds.

A query lives on what it has been told: `Client.closed_is_final` says that the replies of a query on a
closed connection are those of what is left to it, its `Remains`.
-/

namespace QueryLanes

variable {α : Type}

/-! ## Closed links -/

namespace Link

variable {P : Power → Prop} {l l₁ l' : Link}

/-- A closed link has no outstanding request and takes none. -/
def Shut (l : Link) : Prop := l.isOpen = false → l.router.closed = true ∧ l.router.slots = []

/-- All that is left of a closed link. -/
structure Final (l l' : Link) : Prop where
  isOpen : l'.isOpen = false
  closed : l'.router.closed = true
  slots : l'.router.slots = []
  sent : l'.sent = l.sent
  issued : l'.issued = l.issued
  waves : ∀ lane, l'.waves lane = l.waves lane

theorem Shut.final (h : l.Shut) (ho : l.isOpen = false) : l.Final l :=
  ⟨ho, (h ho).1, (h ho).2, rfl, rfl, fun _ => rfl⟩

theorem dispatch_of_closed (h : l.router.closed = true) (lane : Lane) (o : Owner)
    (request : Request) : l.dispatch lane o request = (.error .connectionClosed, l) := by
  unfold dispatch Router.register
  rw [if_pos h]

theorem slots_fail_eq_nil (h : l.router.slots = []) (doomed : Owner → Bool) (e : Failure) :
    (l.fail doomed e).router.slots = [] := by
  rw [List.eq_nil_iff_forall_not_mem]
  intro s hs
  have hmem := (mem_slots_fail.1 hs).1
  rw [h] at hmem
  cases hmem

theorem slots_poll {r r' : Router} {i : Nat} {d : Delivery} (h : r.poll i = some (d, r')) :
    r'.slots = r.slots ∧ r'.closed = r.closed := by
  unfold Router.poll at h
  split at h
  · cases h
  · split at h
    · cases h
      exact ⟨rfl, rfl⟩
    · split at h
      · cases h
      · cases h
        exact ⟨rfl, rfl⟩

/-- Deeds leave nothing behind on a closed link. -/
theorem Final.deed (h : l.Final l₁) (hd : l₁.Deed P l') : l.Final l' := by
  cases hd with
  | openLane ho =>
    rw [h.isOpen] at ho
    cases ho
  | dispatch lane o request =>
    rw [dispatch_of_closed h.closed]
    exact h
  | dropInbox i => exact { h with }
  | poll hp =>
    obtain ⟨hslots, hclosed⟩ := slots_poll hp
    exact { h with
      closed := hclosed.trans h.closed
      slots := hslots.trans h.slots }
  | fail doomed e =>
    exact { h with
      slots := slots_fail_eq_nil h.slots doomed e
      sent := Eq.trans (by simp [Link.sent, Link.fail, record]) h.sent
      waves := fun lane => by
        rw [waves_fail, if_neg (by simp [h.slots])]
        exact h.waves lane }
  | ran label =>
    exact { h with
      sent := Eq.trans (by simp [Link.sent, record]) h.sent
      waves := fun lane => (waves_record ..).trans (h.waves lane) }
  | close =>
    rw [close_eq, if_neg (by rw [h.isOpen]; decide)]
    exact h

theorem Final.works (h : l.Final l₁) (hw : l₁.Works P l') : l.Final l' :=
  hw.keeps (K := l.Final) (fun _ _ hd hp => hp.deed hd) h

theorem Final.receive (h : l.Final l₁) (f : ServerFrame) : l.Final (l₁.receive f) := by
  unfold Link.receive
  rw [if_neg (by rw [h.isOpen]; decide)]
  exact h

theorem shut_close (h : l.Shut) : l.close.Shut := by
  intro _
  rw [close_eq]
  split
  · refine ⟨rfl, ?_⟩
    rw [List.eq_nil_iff_forall_not_mem]
    intro s hs
    have hs : s ∈ (l.fail (fun _ => true) .connectionClosed).router.slots := hs
    cases (mem_slots_fail.1 hs).2
  · rename_i ho
    exact h (Bool.eq_false_iff.2 ho)

theorem shut_of_deed (hd : l.Deed P l') (h : l.Shut) : l'.Shut := by
  intro ho'
  cases ho : l.isOpen with
  | false =>
    have hfinal := (h.final ho).deed hd
    exact ⟨hfinal.closed, hfinal.slots⟩
  | true =>
    cases hd with
    | openLane _ =>
      rw [show l.openLane.2.isOpen = l.isOpen from rfl, ho] at ho'
      cases ho'
    | dispatch lane o request =>
      rw [isOpen_dispatch, ho] at ho'
      cases ho'
    | close => exact shut_close h ho'
    | _ =>
      have ho' : l.isOpen = false := ho'
      rw [ho] at ho'
      cases ho'

end Link

namespace Client

variable {c c' : Client α}

theorem shut_step (h : c.link.Shut) (m : Move α) : (c.step m).1.link.Shut := by
  by_cases hm : ∃ f, m = .arrive f
  · obtain ⟨f, rfl⟩ := hm
    intro ho
    have ho : (c.link.receive f).isOpen = false := ho
    rw [isOpen_receive] at ho
    have hfinal := (h.final ho).receive f
    exact ⟨hfinal.closed, hfinal.slots⟩
  · exact (works_step c (fun f hf => hm ⟨f, hf⟩)).keeps (fun _ _ hd hp => Link.shut_of_deed hd hp) h

theorem shut_runAll (h : c.link.Shut) (ms : List (Move α)) : (c.runAll ms).1.link.Shut := by
  induction ms generalizing c with
  | nil => exact h
  | cons m ms ih => exact ih (shut_step h m)

theorem Reachable.shut (hc : c.Reachable) : c.link.Shut := by
  obtain ⟨timeout, ms, rfl⟩ := hc
  exact shut_runAll (c := { requestTimeout := timeout }) nofun ms

theorem final_step {l : Link} (h : l.Final c.link) (m : Move α) : l.Final (c.step m).1.link := by
  by_cases hm : ∃ f, m = .arrive f
  · obtain ⟨f, rfl⟩ := hm
    exact h.receive f
  · exact h.works (works_step c fun f hf => hm ⟨f, hf⟩)

/-- No run brings anything to a closed link. -/
theorem final_runAll {l : Link} (h : l.Final c.link) (ms : List (Move α)) :
    l.Final (c.runAll ms).1.link := by
  induction ms generalizing c with
  | nil => exact h
  | cons m ms ih => exact ih (final_step h m)

/-! ## Calls on a closed connection -/

section

variable (ho : c.link.isOpen = false) (hw : c.waiting = none)
include ho

theorem ensureOpen_of_closed (x : Transaction) : c.ensureOpen x = .error .connectionClosed := by
  unfold ensureOpen
  rw [ho]
  rfl

include hw

theorem openSession_of_closed (hclones : c.clones ≠ 0) (database : String) (kind : SessionKind) :
    (c.call (.openSession database kind)).2 = some (.failed .connectionClosed) := by
  rw [call_openSession hw, if_neg hclones, ho]
  rfl

/-- What closes a session ends it on this side, and that the server is not told is no failure. -/
theorem session_of_closed {s : Handle} {x : Session} (hx : c.session? s = some x) :
    (∀ kind, (c.call (.openTransaction s kind)).2 = some (.failed .connectionClosed)) ∧
      (c.call (.closeSession s)).2 = some .done := by
  have hended : (c.endSession s x).link.isOpen = false := by rw [isOpen_endSession, ho]
  refine ⟨fun kind => ?_, ?_⟩
  · rw [call_openTransaction hw hx, ho]
    rfl
  · rw [call_closeSession hw hx, closeSession_eq, hended]
    cases x.isOpen <;> rfl

theorem transaction_of_closed {t : Handle} {x : Transaction} (hx : c.transaction? t = some x) :
    (c.call (.commit t)).2 = some (.failed .connectionClosed) ∧
      (c.call (.rollback t)).2 = some (.failed .connectionClosed) ∧
      (c.call (.closeTransaction t)).2 = some .done ∧
      ∀ text options reader, options.validate = .ok () →
        (c.call (.query t text options reader)).2 = some (.failed .connectionClosed) := by
  have hended : (c.finishTransaction t).reportsClose x = false := by
    rw [reportsClose, isOpen_finishTransaction, ho, Bool.and_false]
  have hrefused := ensureOpen_of_closed ho x
  refine ⟨?_, ?_, ?_, fun text options reader hv => ?_⟩
  · rw [call_commit_of_refused hw hx hrefused]
    rfl
  · rw [call_rollback_of_refused hw hx hrefused]
    rfl
  · rw [call_closeTransaction hw hx, closeTransaction_eq, hended]
    cases x.isOpen <;> rfl
  · rw [call_query hw hx, openQuery_of_refused (by rw [hv]; exact hrefused)]
    rfl

end

end Client

namespace Client

variable {c c' : Client α}

/-! ## Queries on a closed connection -/

theorem poll_isSome {r : Router} {i : Nat} {b : Inbox} (hslots : r.slots = [])
    (hb : r.inbox? i = some b) : (r.poll i).isSome = true := by
  unfold Router.poll Router.feeds
  rw [hb, hslots]
  dsimp only
  split <;> rfl

/-- A call that waits on a closed connection waits for nothing. -/
theorem Reachable.isReady_of_closed (hc : c.Reachable) (hb : c.link.issued ≤ 2 ^ 64)
    (ho : c.link.isOpen = false) (hw : c.waiting.isSome = true) : c.isReady = true := by
  have hslots := (hc.shut ho).2
  have hs := hc.sound hb
  obtain ⟨w, hw⟩ := Option.isSome_iff_exists.1 hw
  rcases wait_cases w with ⟨e, i, rfl⟩ | ⟨h, p, rfl⟩
  · obtain ⟨w, b, -, hin, -⟩ := (hs.errand e i hw).unread.queue
    unfold isReady
    rw [hw]
    exact poll_isSome hslots hin
  · obtain ⟨q, hq⟩ := hs.waiting h p hw
    have hst := hc.stands hb hq
    obtain ⟨done, w, hended⟩ := Solo.ended_of_closed hst ho
    exact hs.isReady_of_not_live hw hq hst hended.isLive

/-- **A closed connection is final.** Whatever happens after the close, the connection stays closed,
nothing is sent, no request is outstanding, nothing opened on it is open, and no call waits in vain.
What would send a request fails with that, what closes something succeeds. A query is told nothing
more: what it was told before and has not read is what is left to it, and all that its callers are
told from then on is what is owed to a call in progress and `Remains.tellAll` of their calls. So
callers who ask for one answer after the other get those that are left, and then the verdict of what
ended the last wave, again and again. -/
theorem closed_is_final (hc : c.Reachable) (ho : c.link.isOpen = false) (ms : List (Move α))
    (hms : (c.runAll ms).1 = c') :
    c'.link.isOpen = false ∧ c'.link.sent = c.link.sent ∧ c'.link.router.pending = 0 ∧
    (∀ x, c'.sessionIsOpen x = false) ∧ (∀ x, c'.transactionIsOpen x = false) ∧
    (c'.waiting = none →
      (∀ database kind, c'.clones ≠ 0 →
        (c'.call (.openSession database kind)).2 = some (.failed .connectionClosed)) ∧
      (∀ s x, c'.session? s = some x →
        (∀ kind, (c'.call (.openTransaction s kind)).2 = some (.failed .connectionClosed)) ∧
        (c'.call (.closeSession s)).2 = some .done) ∧
      ∀ t x, c'.transaction? t = some x →
        (c'.call (.commit t)).2 = some (.failed .connectionClosed) ∧
        (c'.call (.rollback t)).2 = some (.failed .connectionClosed) ∧
        (c'.call (.closeTransaction t)).2 = some .done ∧
        ∀ text options reader, options.validate = .ok () →
          (c'.call (.query t text options reader)).2 = some (.failed .connectionClosed)) ∧
    (c.link.issued ≤ 2 ^ 64 → (c'.waiting.isSome = true → c'.isReady = true) ∧
    ∀ (h : Handle) q, c.queries[h]? = some q →
      let left := (c.soloOf h q).remains
      (q.handed ++ left.rest = (c.link.waves q.lane).flatMap (·.answers) ∧
        (∃ w, (c.link.waves q.lane).getLast? = some w ∧ w.ending = some left.last) ∧
        (q.held = true → ∀ n,
          (left.tellAll (List.replicate n .nextAnswer)).2 = (List.range n).map left.outcome)) ∧
      ∃ q', c'.queries[h]? = some q' ∧ q'.lane = q.lane ∧
        c'.link.waves q.lane = c.link.waves q.lane ∧
        (c'.soloOf h q').owes.1 = ((c.soloOf h q).owes.1.tellAll (c.asked h ms)).1 ∧
        c.repliesTo h ms ++ (c'.soloOf h q').owes.2.toList =
          (c.soloOf h q).owes.2.toList ++ ((c.soloOf h q).owes.1.tellAll (c.asked h ms)).2) := by
  have hfinal := final_runAll (hc.shut.final ho) ms
  have hc' : c'.Reachable := hms ▸ hc.runAll ms
  rw [hms] at hfinal
  have ho' := hfinal.isOpen
  have hrefused (x : Transaction) := ensureOpen_of_closed ho' x
  refine ⟨ho', hfinal.sent, ?_, fun x => ?_, fun x => ?_, fun hw => ?_, fun hb =>
    ⟨hc'.isReady_of_closed (by rw [hfinal.issued]; exact hb) ho', fun h q hq => ?_⟩⟩
  · rw [Router.pending, hfinal.slots]
    rfl
  · rw [sessionIsOpen, ho', Bool.and_false]
  · rw [transactionIsOpen, hrefused]
    rfl
  · exact ⟨fun database kind hclones => openSession_of_closed ho' hw hclones database kind,
      fun s x hx => session_of_closed ho' hw hx, fun t x hx => transaction_of_closed ho' hw hx⟩
  · -- without a connection the last wave is over, and what ended it gives the verdict
    obtain ⟨done, w, read, rest, hs⟩ := hc.stands hb hq
    obtain ⟨d, hend⟩ := Option.isSome_iff_exists.1 (hs.lost ho)
    have hwaves : c.link.waves q.lane = done ++ [w] := hs.waves
    have hleft := Solo.remains_eq hs hend
    have hhanded : q.handed = done.flatMap (·.answers) ++ read := hs.handed
    have hended : (c.soloOf h q).Ended done w :=
      ⟨hc.stands hb hq, hwaves, hs.lost ho, .inl ho⟩
    have hb' : (c.runAll ms).1.link.issued ≤ 2 ^ 64 := by
      rw [hms, hfinal.issued]
      exact hb
    obtain ⟨q', hq', hl, -, howes, hreplies⟩ := hc.owes_runAll hb' hq hended
    rw [hms] at hq' howes hreplies
    refine ⟨⟨?_, ⟨w, by rw [hwaves, List.getLast?_concat], by rw [hleft, hend]⟩, fun hheld n =>
      Remains.tellAll_nextAnswer _ hheld n⟩, q', hq', hl, hfinal.waves q.lane, howes, hreplies⟩
    rw [hleft, hwaves, hhanded]
    simp [hs.answers]

/-- A query with two answers is closed before any is read. -/
def unreadAnswers : List (Move Payload) :=
  [.call (.openSession "db" .data), .arrive ⟨1, .sessionOpened 7⟩, .resume,
    .call (.openTransaction 0 .read), .arrive ⟨2, .transactionOpened 9⟩, .resume,
    .call (.query 0 [113] {} Reader.raw), .arrive ⟨3, .data [1]⟩, .arrive ⟨3, .data [2]⟩, .lose]

/-- The caller asks for three answers. -/
def threePulls : List (Move Payload) :=
  [.call (.nextAnswer 0), .resume, .call (.nextAnswer 0), .resume, .call (.nextAnswer 0), .resume]

theorem closed_is_final_unreadAnswers : ∃ c q : _, c = (runAll (new none) unreadAnswers).1 ∧
    c.link.issued ≤ 2 ^ 64 ∧ c.link.isOpen = false ∧ c.queries[0]? = some q ∧
    (c.runAll threePulls).1.link.sent = c.link.sent ∧
    c.repliesTo 0 threePulls = [.answer (some [1]), .answer (some [2]), .failed .connectionClosed] ∧
    ∃ q', (c.runAll threePulls).1.queries[0]? = some q' ∧
      c.repliesTo 0 threePulls ++ ((c.runAll threePulls).1.soloOf 0 q').owes.2.toList =
        (c.soloOf 0 q).owes.2.toList ++ ((c.soloOf 0 q).owes.1.tellAll (c.asked 0 threePulls)).2 := by
  obtain ⟨c, hc⟩ : ∃ c : Client Payload, c = (runAll (new none) unreadAnswers).1 := ⟨_, rfl⟩
  have hb : c.link.issued ≤ 2 ^ 64 := by
    rw [hc]
    decide +kernel
  have ho : c.link.isOpen = false := by
    rw [hc]
    decide +kernel
  have hq : c.queries[0]?.isSome = true := by
    rw [hc]
    decide +kernel
  have hreplies : c.repliesTo 0 threePulls =
      [.answer (some [1]), .answer (some [2]), .failed .connectionClosed] := by
    rw [hc]
    decide +kernel
  obtain ⟨q, hq⟩ := Option.isSome_iff_exists.1 hq
  obtain ⟨-, hsent, -, -, -, -, hqueries⟩ :=
    closed_is_final ⟨none, unreadAnswers, hc⟩ ho threePulls rfl
  obtain ⟨-, q', hq', -, -, -, htold⟩ := (hqueries hb).2 0 q hq
  exact ⟨c, q, hc, hb, ho, hq, hsent, hreplies, q', hq', htold⟩

end Client

end QueryLanes
