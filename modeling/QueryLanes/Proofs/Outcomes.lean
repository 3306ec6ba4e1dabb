import QueryLanes.Client.Step

/-!
# What moves come to

`Client.Begins` lists what a call can come to when it begins, and `Client.Finds` what a waiting call
can come to when it looks or when its time is over. What holds after every call is proved by these
cases, without the order in which `Client.call` looks its handles up and checks that they are open.

The functions that a call goes through have such cases of their own further below, and an equation each
for when it is known what the call is made on, or what it waits for.
-/

namespace QueryLanes

variable {α : Type}

namespace Call

/-- The transaction that a call is made on. -/
def transaction? : Call α → Option Handle
  | .commit t | .rollback t | .closeTransaction t | .dropTransaction t | .query t _ _ _ => some t
  | _ => none

/-- The session that a call is made on. -/
def session? : Call α → Option Handle
  | .openTransaction s _ | .onClose s _ | .closeSession s | .dropSession s => some s
  | _ => none

end Call

/-- The errand of a call that does nothing else but run one. Whoever closes something runs one too,
but that is closed before the server is told. -/
def Call.errand? : Call α → Option Errand
  | .openSession database kind => some (.openSession database kind)
  | .openTransaction s kind => some (.openTransaction s kind)
  | .commit t => some (.commit t)
  | .rollback t => some (.rollback t)
  | _ => none

/-- The call that an errand is run for. -/
def Errand.call : Errand → Call α
  | .openSession database kind => .openSession database kind
  | .openTransaction s kind => .openTransaction s kind
  | .closeSession s => .closeSession s
  | .commit t => .commit t
  | .rollback t => .rollback t
  | .closeTransaction t => .closeTransaction t

theorem Errand.call_of_errand? {k : Call α} {e : Errand} (h : k.errand? = some e) : k = e.call := by
  cases k <;> cases h <;> rfl

/-- What a call may wait for. -/
def Call.Leaves (k : Call α) : Wait α → Prop
  | .errand e _ => k = e.call
  | .start h bound drain => k = if drain then .collect h bound else .start h bound
  | .pull h .answer => k = .nextAnswer h
  | .pull h .item => k = .next h
  | .pull h (.rest _) => ∃ bound, k = .collect h bound

/-- An iteration that reports the failure that ended the query is over. -/
def Query.fuse (q : Query α) (demand : Demand α) : Query α :=
  match demand, q.progress with
  | .item, .failed _ => { q with fused := true }
  | _, _ => q

/-- What is fused is the same query but for one flag. -/
theorem Query.exists_fuse (q : Query α) (demand : Demand α) :
    ∃ b, q.fuse demand = { q with fused := b } := by
  unfold fuse
  split
  · exact ⟨true, rfl⟩
  · exact ⟨q.fused, rfl⟩

namespace Client

/-- What a call can come to. A call that is refused, or has nothing to do, only tells the caller so;
one that sends a request finds the connection open, and one that commits finds the transaction
open, whose request it is. -/
inductive Begins (c : Client α) : Call α → Outcome α → Prop
  | busy {k : Call α} (hw : c.waiting.isSome = true) : c.Begins k (c, none)
  | told {k : Call α} (r : Reply α) (hr : ∀ h, r ≠ .opened h)
      (hlost : r = .failed .connectionClosed → c.link.isOpen = false) : c.Begins k (c.replying r)
  | clone : c.Begins .clone ({ c with clones := c.clones + 1 }.replying .done)
  | dropClient : c.Begins .dropClient ((release { c with clones := c.clones - 1 }).replying .done)
  | close : c.Begins .close ({ c with link := c.link.close }.replying .done)
  | run {k : Call α} {e : Errand} (he : k.errand? = some e) (ho : c.link.isOpen = true) (o : Owner)
      (request : Request) (hcommit : ∀ t, e = .commit t →
        ∃ x, c.transaction? t = some x ∧ x.isOpen = true ∧ o = x.owner) :
      c.Begins k (c.run e o request)
  | onClose (s : Handle) (label : String) (x : Session) : c.Begins (.onClose s label)
      ((c.modifySession s fun y => { y with callbacks := x.callbacks ++ [label] }).replying .done)
  | closeSession {s : Handle} {x : Session} (hw : c.waiting = none) (hx : c.session? s = some x) :
      c.Begins (.closeSession s) (c.closeSession s x)
  | dropSession {s : Handle} {x : Session} (hw : c.waiting = none) (hx : c.session? s = some x) :
      c.Begins (.dropSession s) ((c.dropSession s x).replying .done)
  | closeTransaction (t : Handle) (x : Transaction) (hx : c.transaction? t = some x) :
      c.Begins (.closeTransaction t) (c.closeTransaction t x)
  | dropTransaction (t : Handle) (x : Transaction) (hx : c.transaction? t = some x) :
      c.Begins (.dropTransaction t) ((c.dropTransaction t x).replying .done)
  | query (t : Handle) (text : Payload) (options : QueryOptions) (reader : Reader α)
      (x : Transaction) (hx : c.transaction? t = some x) :
      c.Begins (.query t text options reader) (c.openQuery x text options reader)
  | start {k : Call α} (h : Handle) (q : Query α) (bound : Option Nat) (drain : Bool)
      (hq : c.query? h = some q) (hk : k.Leaves (.start h bound drain)) :
      c.Begins k (c.beginStart h q bound drain)
  | pull {k : Call α} (h : Handle) (q : Query α) (demand : Demand α) (hq : c.query? h = some q)
      (hk : k.Leaves (.pull h demand)) : c.Begins k (c.beginPull h q demand)
  | dropQuery (h : Handle) (q : Query α) (hq : c.query? h = some q) :
      c.Begins (.dropQuery h) ((c.dropQuery h q).replying .done)

theorem ensureOpen_eq_ok {c : Client α} {x : Transaction} :
    c.ensureOpen x = .ok () ↔
      c.link.isOpen = true ∧ c.sessionFlag x.session = true ∧ x.isOpen = true := by
  unfold ensureOpen
  cases c.link.isOpen <;> cases c.sessionFlag x.session <;> cases x.isOpen <;> simp

theorem ensureOpen_eq_connectionClosed {c : Client α} {x : Transaction} :
    c.ensureOpen x = .error .connectionClosed ↔ c.link.isOpen = false := by
  unfold ensureOpen
  cases c.link.isOpen <;> cases c.sessionFlag x.session <;> cases x.isOpen <;> simp

/-- A call made while another one waits is not taken. -/
theorem call_of_waiting {c : Client α} {w : Wait α} (hw : c.waiting = some w) (k : Call α) :
    c.call k = (c, none) := if_pos (by rw [hw]; rfl)

theorem begins_call (c : Client α) (k : Call α) : c.Begins k (c.call k) := by
  unfold call
  split
  · rename_i hw
    exact .busy hw
  · rename_i hw
    have hw : c.waiting = none := by simpa using hw
    cases k with
    | clone =>
      dsimp only
      split
      · exact .told _ nofun nofun
      · exact .clone
    | dropClient =>
      dsimp only
      split
      · exact .told _ nofun nofun
      · exact .dropClient
    | close =>
      dsimp only
      split
      · exact .told _ nofun nofun
      · exact .close
    | openSession database kind =>
      dsimp only
      split
      · exact .told _ nofun nofun
      · split
        · rename_i ho
          exact .told _ nofun fun _ => by simpa using ho
        · rename_i ho
          exact .run rfl (by simpa using ho) _ _ nofun
    | onClose s label =>
      dsimp only
      split
      · exact .told _ nofun nofun
      · exact .onClose ..
    | closeSession s =>
      dsimp only
      split
      · exact .told _ nofun nofun
      · exact .closeSession hw ‹_›
    | dropSession s =>
      dsimp only
      split
      · exact .told _ nofun nofun
      · exact .dropSession hw ‹_›
    | openTransaction s kind =>
      dsimp only
      split
      · exact .told _ nofun nofun
      · split
        · rename_i ho
          exact .told _ nofun fun _ => by simpa using ho
        · rename_i ho
          split
          · exact .told _ nofun nofun
          · exact .run rfl (by simpa using ho) _ _ nofun
    | commit t | rollback t =>
      dsimp only
      split
      · exact .told _ nofun nofun
      · rename_i x hx
        split
        · rename_i ho
          exact .told _ nofun fun he => ensureOpen_eq_connectionClosed.1 (Reply.failed.inj he ▸ ho)
        · rename_i ho
          obtain ⟨hl, -, hopen⟩ := ensureOpen_eq_ok.1 ho
          refine .run rfl hl _ _ fun t' ht => ?_
          cases ht <;> exact ⟨x, hx, hopen, rfl⟩
    | closeTransaction t =>
      dsimp only
      split
      · exact .told _ nofun nofun
      · exact .closeTransaction _ _ ‹_›
    | dropTransaction t =>
      dsimp only
      split
      · exact .told _ nofun nofun
      · exact .dropTransaction _ _ ‹_›
    | query t text options reader =>
      dsimp only
      split
      · exact .told _ nofun nofun
      · exact .query _ _ _ _ _ ‹_›
    | start h bound | collect h bound =>
      dsimp only
      split
      · exact .told _ nofun nofun
      · exact .start _ _ _ _ ‹_› rfl
    | nextAnswer h =>
      dsimp only
      split
      · exact .told _ nofun nofun
      · exact .pull _ _ _ ‹_› rfl
    | next h =>
      dsimp only
      split
      · exact .told _ nofun nofun
      · split
        · exact .told _ nofun nofun
        · exact .pull _ _ _ ‹_› rfl
    | dropQuery h =>
      dsimp only
      split
      · exact .told _ nofun nofun
      · exact .dropQuery _ _ ‹_›

/-- What a waiting call can come to: it finds what it waits for, or it is given up, or nothing
happens. -/
inductive Finds (c : Client α) : Outcome α → Prop
  | nothing : c.Finds (c, none)
  | errand {i : Nat} {d : Delivery} {r : Router} (e : Errand)
      (hp : c.link.router.poll i = some (d, r)) (hw : c.waiting = some (.errand e i)) :
      c.Finds (conclude { c with link := { c.link with router := r.drop i } } e d)
  | start {q : Query α} {d : Delivery} {r : Router} (h : Handle) (drain : Bool)
      (hp : c.link.router.poll q.inbox = some (d, r)) {bound : Option Nat}
      (hw : c.waiting = some (.start h bound drain)) (hq : c.queries[h]? = some q) :
      c.Finds (started { c with link := { c.link with router := r } } h q drain d)
  | pull {q q' : Query α} {d : Delivery} {r : Router} (h : Handle) (demand : Demand α)
      (hp : q.poll c.link.router = some (d, q', r)) (hw : c.waiting = some (.pull h demand))
      (hq : c.queries[h]? = some q) :
      c.Finds (pulled { c with link := { c.link with router := r } } h q' demand d)
  | gaveUp (e : Errand) (i : Nat) (hw : c.waiting = some (.errand e i)) :
      c.Finds (conclude { c with link := c.link.dropInbox i } e (.error .timeout))
  | late {h : Handle} {bound : Option Nat} {drain : Bool}
      (hw : c.waiting = some (.start h bound drain)) : c.Finds (c.replying (.failed .timeout))

theorem finds_resume (c : Client α) : c.Finds c.resume := by
  unfold resume
  split
  · exact .nothing
  · split
    · exact .nothing
    · exact .errand _ ‹_› ‹_›
  · split
    · exact .nothing
    · split
      · exact .nothing
      · exact .start _ _ ‹_› ‹_› ‹_›
  · split
    · exact .nothing
    · split
      · exact .nothing
      · exact .pull _ _ ‹_› ‹_› ‹_›

theorem finds_giveUp (c : Client α) : c.Finds c.giveUp := by
  unfold giveUp
  split
  · exact .gaveUp _ _ ‹_›
  · exact .late ‹_›
  · exact .nothing
  · exact .nothing

theorem finds_expire (c : Client α) : c.Finds c.expire := by
  unfold expire
  split
  · exact finds_resume c
  · split
    · exact finds_giveUp c
    · exact .nothing

/-! ## Looks and the end of time

What becomes of a call once it is known what it waits for.
-/

section

variable {c : Client α} {h : Handle}

theorem resume_of_idle (hw : c.waiting = none) : c.resume = (c, none) := by
  unfold resume
  rw [hw]

theorem resume_errand {e : Errand} {i : Nat} (hw : c.waiting = some (.errand e i)) :
    c.resume = match c.link.router.poll i with
      | none => (c, none)
      | some (d, r) => conclude { c with link := { c.link with router := r.drop i } } e d := by
  unfold resume
  split <;> rename_i hwait <;> rw [hw] at hwait <;> cases hwait
  rfl

theorem resume_start {q : Query α} {bound : Option Nat} {drain : Bool}
    (hw : c.waiting = some (.start h bound drain)) (hq : c.queries[h]? = some q) :
    c.resume = match c.link.router.poll q.inbox with
      | none => (c, none)
      | some (d, r) => started { c with link := { c.link with router := r } } h q drain d := by
  unfold resume
  split <;> rename_i hwait <;> rw [hw] at hwait <;> cases hwait
  split <;> rename_i hx <;> rw [hq] at hx <;> cases hx
  rfl

theorem resume_pull {q : Query α} {demand : Demand α} (hw : c.waiting = some (.pull h demand))
    (hq : c.queries[h]? = some q) :
    c.resume = match q.poll c.link.router with
      | none => (c, none)
      | some (d, q, r) => pulled { c with link := { c.link with router := r } } h q demand d := by
  unfold resume
  split <;> rename_i hwait <;> rw [hw] at hwait <;> cases hwait
  split <;> rename_i hx <;> rw [hq] at hx <;> cases hx
  rfl

theorem giveUp_of_errand {e : Errand} {i : Nat} (hw : c.waiting = some (.errand e i)) :
    c.giveUp = conclude { c with link := c.link.dropInbox i } e (.error .timeout) := by
  unfold giveUp
  rw [hw]

theorem giveUp_of_start {bound : Option Nat} {drain : Bool}
    (hw : c.waiting = some (.start h bound drain)) :
    c.giveUp = c.replying (.failed .timeout) := by
  unfold giveUp
  rw [hw]

/-- Pulls have no bound. -/
theorem giveUp_of_pull {demand : Demand α} (hw : c.waiting = some (.pull h demand)) :
    c.giveUp = (c, none) := by
  unfold giveUp
  rw [hw]

theorem expire_of_isReady (hr : c.isReady = true) : c.expire = c.resume := if_pos hr

theorem expire_of_not_isReady (hr : c.isReady = false) :
    c.expire = if c.bound?.isSome then c.giveUp else (c, none) :=
  if_neg (Bool.eq_false_iff.1 hr)

theorem expire_of_idle (hw : c.waiting = none) : c.expire = (c, none) := by
  unfold expire isReady bound?
  rw [hw]
  rfl

end

/-! ## The functions of a call

What each of the functions that a call goes through can come to. Families of lemmas that go through all
calls cite these cases, and do not open the functions again.
-/

variable {c : Client α}

theorem failing_eq (c : Client α) (h : Handle) (q : Query α) (demand : Demand α) (e : Failure) :
    c.failing h q demand e = (c.setQuery h (q.fuse demand)).replying (.failed e) := by
  cases demand <;> cases hp : q.progress <;> simp only [failing, Query.fuse, hp]

theorem release_of_isHeld (h : c.isHeld = true) : c.release = c := if_pos h

theorem release_cases (c : Client α) :
    c.release = c ∨ c.release = { c with link := c.link.close } := by
  unfold release
  split
  · exact .inl rfl
  · exact .inr rfl

/-- With the last handle nothing goes but the link. -/
theorem release_eq (c : Client α) : ∃ l, c.release = { c with link := l } := by
  rcases release_cases c with h | h
  · exact ⟨c.link, h⟩
  · exact ⟨c.link.close, h⟩

theorem finishTransaction_of_none {t : Handle} (hx : c.transactions[t]? = none) :
    c.finishTransaction t = c := by
  unfold finishTransaction
  rw [hx]

theorem finishTransaction_of_some {t : Handle} {x : Transaction} (hx : c.transactions[t]? = some x) :
    c.finishTransaction t = { c.modifyTransaction t ({ · with isOpen := false }) with
      link := c.link.failTransaction x.id } := by
  unfold finishTransaction
  rw [hx]

theorem isOpen_of_reportsClose {x : Transaction} (h : c.reportsClose x = true) :
    c.link.isOpen = true := by
  unfold reportsClose at h
  exact (Bool.and_eq_true_iff.1 h).2

/-! ### Calls that are taken -/

section

variable (hw : c.waiting = none)
include hw

theorem call_of_no_transaction {k : Call α} {t : Handle} (hk : k.transaction? = some t)
    (hx : c.transaction? t = none) : c.call k = c.replying .noSuchHandle := by
  cases k <;> cases hk <;> simp [call, hw, hx]

theorem call_of_no_session {k : Call α} {s : Handle} (hk : k.session? = some s)
    (hy : c.session? s = none) : c.call k = c.replying .noSuchHandle := by
  cases k <;> cases hk <;> simp [call, hw, hy]

theorem call_onClose {s : Handle} {y : Session} (hy : c.session? s = some y) (label : String) :
    c.call (.onClose s label) =
      (c.modifySession s fun x => { x with callbacks := y.callbacks ++ [label] }).replying .done := by
  simp [call, hw, hy]

theorem call_closeSession {s : Handle} {y : Session} (hy : c.session? s = some y) :
    c.call (.closeSession s) = c.closeSession s y := by
  simp [call, hw, hy]

theorem call_dropSession {s : Handle} {y : Session} (hy : c.session? s = some y) :
    c.call (.dropSession s) = (c.dropSession s y).replying .done := by
  simp [call, hw, hy]

theorem call_openTransaction {s : Handle} {y : Session} (hy : c.session? s = some y)
    (kind : TransactionKind) : c.call (.openTransaction s kind) =
      if !c.link.isOpen then c.replying (.failed .connectionClosed)
      else if !y.isOpen then c.replying (.failed .sessionClosed)
      else c.run (.openTransaction s kind) { session := some y.id } (.openTransaction y.id kind) := by
  simp [call, hw, hy]

theorem call_commit_of_refused {t : Handle} {x : Transaction} (hx : c.transaction? t = some x)
    {e : Failure} (ho : c.ensureOpen x = .error e) :
    c.call (.commit t) = c.replying (.failed e) := by
  simp [call, hw, hx, ho]

theorem call_commit {t : Handle} {x : Transaction} (hx : c.transaction? t = some x)
    (ho : c.ensureOpen x = .ok ()) :
    c.call (.commit t) = c.run (.commit t) x.owner (.commit x.id) := by
  simp [call, hw, hx, ho]

theorem call_rollback_of_refused {t : Handle} {x : Transaction} (hx : c.transaction? t = some x)
    {e : Failure} (ho : c.ensureOpen x = .error e) :
    c.call (.rollback t) = c.replying (.failed e) := by
  simp [call, hw, hx, ho]

theorem call_rollback {t : Handle} {x : Transaction} (hx : c.transaction? t = some x)
    (ho : c.ensureOpen x = .ok ()) :
    c.call (.rollback t) = c.run (.rollback t) x.owner (.rollback x.id) := by
  simp [call, hw, hx, ho]

theorem call_closeTransaction {t : Handle} {x : Transaction} (hx : c.transaction? t = some x) :
    c.call (.closeTransaction t) = c.closeTransaction t x := by
  simp [call, hw, hx]

theorem call_dropTransaction {t : Handle} {x : Transaction} (hx : c.transaction? t = some x) :
    c.call (.dropTransaction t) = (c.dropTransaction t x).replying .done := by
  simp [call, hw, hx]

theorem call_query {t : Handle} {x : Transaction} (hx : c.transaction? t = some x) (text : Payload)
    (options : QueryOptions) (reader : Reader α) :
    c.call (.query t text options reader) = c.openQuery x text options reader := by
  simp [call, hw, hx]

theorem call_start {h : Handle} {q : Query α} (hq : c.query? h = some q) (bound : Option Nat) :
    c.call (.start h bound) = c.beginStart h q bound false := by
  simp [call, hw, hq]

theorem call_collect {h : Handle} {q : Query α} (hq : c.query? h = some q) (bound : Option Nat) :
    c.call (.collect h bound) = c.beginStart h q bound true := by
  simp [call, hw, hq]

theorem call_nextAnswer {h : Handle} {q : Query α} (hq : c.query? h = some q) :
    c.call (.nextAnswer h) = c.beginPull h q .answer := by
  simp [call, hw, hq]

theorem call_next {h : Handle} {q : Query α} (hq : c.query? h = some q) :
    c.call (.next h) =
      if q.fused then c.replying (.answer none) else c.beginPull h q .item := by
  simp [call, hw, hq]

theorem call_dropQuery {h : Handle} {q : Query α} (hq : c.query? h = some q) :
    c.call (.dropQuery h) = (c.dropQuery h q).replying .done := by
  simp [call, hw, hq]

theorem call_clone : c.call .clone =
    if c.clones = 0 then c.replying .noSuchHandle
    else { c with clones := c.clones + 1 }.replying .done := by
  simp [call, hw]

theorem call_dropClient : c.call .dropClient =
    if c.clones = 0 then c.replying .noSuchHandle
    else (release { c with clones := c.clones - 1 }).replying .done := by
  simp [call, hw]

theorem call_close : c.call .close =
    if c.clones = 0 then c.replying .noSuchHandle
    else { c with link := c.link.close }.replying .done := by
  simp [call, hw]

theorem call_openSession (database : String) (kind : SessionKind) :
    c.call (.openSession database kind) =
      if c.clones = 0 then c.replying .noSuchHandle
      else if !c.link.isOpen then c.replying (.failed .connectionClosed)
      else c.run (.openSession database kind) {} (.openSession database kind) := by
  simp [call, hw]

end

/-! ### Errands -/

@[simp] theorem violation_ne_connectionClosed (v : Violation) :
    Failure.violation v ≠ .connectionClosed := nofun

/-- Only a missing connection is reported as one. -/
theorem accepted_bind_acknowledgement {d : Except Failure Response}
    (h : unitReply (α := α) ((accepted d).bind expectAcknowledgement) = .failed .connectionClosed) :
    d = .error .connectionClosed := by
  cases d with
  | error e => simpa [accepted, Except.bind, unitReply] using h
  | ok r => cases r <;> simp [accepted, Except.bind, unitReply, expectAcknowledgement] at h

theorem closed_accepted {d : Except Failure Response} :
    unitReply (α := α) (closed (accepted d)) ≠ .failed .connectionClosed := by
  cases d with
  | error e => cases e <;> simp [accepted, closed, unitReply]
  | ok r => cases r <;> simp [accepted, closed, unitReply, expectAcknowledgement]

theorem unitReply_ne_opened (r : Except Failure Unit) (h : Handle) :
    unitReply (α := α) r ≠ .opened h := by
  cases r <;> nofun

/-- What an errand can come to: something was opened, a commit is over with its transaction, or the
caller is told of something else. -/
inductive Concludes (c : Client α) (d : Except Failure Response) : Errand → Outcome α → Prop
  | told {e : Errand} (r : Reply α) (hr : ∀ h, r ≠ .opened h)
      (hlost : r = .failed .connectionClosed → d = .error .connectionClosed) :
      c.Concludes d e (c.replying r)
  | session (database : String) (kind : SessionKind) (id : UInt64) :
      c.Concludes d (.openSession database kind) (replying
        { c with sessions := c.sessions ++ [{ id := id, database := database, kind := kind }] }
        (.opened c.sessions.length))
  | transaction {s : Handle} {y : Session} (kind : TransactionKind) (id : UInt64)
      (hy : c.sessions[s]? = some y) : c.Concludes d (.openTransaction s kind) (replying
        { c with transactions :=
          c.transactions ++ [{ session := s, sessionId := y.id, id := id, kind := kind }] }
        (.opened c.transactions.length))
  | commit (t : Handle) : c.Concludes d (.commit t)
      ((c.finishTransaction t).replying (unitReply ((accepted d).bind expectAcknowledgement)))

theorem concludes (c : Client α) (e : Errand) (d : Except Failure Response) :
    c.Concludes d e (c.conclude e d) := by
  have hlost {e : Failure} (ha : accepted d = .error e)
      (h : Reply.failed (α := α) e = .failed .connectionClosed) : d = .error .connectionClosed := by
    cases h
    cases d with
    | error e => exact ha
    | ok r => cases r <;> cases ha
  cases e with
  | openSession database kind =>
    unfold conclude
    cases ha : accepted d with
    | error e => exact .told _ nofun (hlost ha)
    | ok r =>
      cases r with
      | sessionOpened id => exact .session ..
      | _ => exact .told _ nofun nofun
  | openTransaction s kind =>
    unfold conclude
    cases ha : accepted d with
    | error e => exact .told _ nofun (hlost ha)
    | ok r =>
      cases r with
      | transactionOpened id =>
        dsimp only
        split
        · exact .told _ nofun nofun
        · exact .transaction _ _ ‹_›
      | _ => exact .told _ nofun nofun
  | closeSession s | closeTransaction t =>
    exact .told _ (unitReply_ne_opened _) fun h => absurd h closed_accepted
  | rollback t => exact .told _ (unitReply_ne_opened _) accepted_bind_acknowledgement
  | commit t => exact .commit t

/-- What running an errand can come to: it waits for the response, or has no connection. -/
inductive Runs (c : Client α) (e : Errand) (o : Owner) (request : Request) : Outcome α → Prop
  | sent {i : Nat} {l : Link} (h : c.link.request o request = (.ok i, l)) :
      c.Runs e o request ({ c with link := l, waiting := some (.errand e i) }, none)
  | refused {f : Failure} {l : Link} (h : c.link.request o request = (.error f, l)) :
      c.Runs e o request (conclude { c with link := l } e (.error f))

theorem runs (c : Client α) (e : Errand) (o : Owner) (request : Request) :
    c.Runs e o request (c.run e o request) := by
  unfold run
  split
  · exact .sent ‹_›
  · exact .refused ‹_›

/-! ### Closing and giving up -/

/-- How something is closed that was or was not open: `ended` is the client once it has ended, and
the caller waits for the response if the server is told. -/
def closing (c ended : Client α) (isOpen reports : Bool) (e : Errand) (o : Owner)
    (request : Request) : Outcome α :=
  if !isOpen then c.replying .done
  else if reports then ended.run e o request else ended.replying .done

/-- How something is given up: nobody waits for the response. -/
def quitting (c ended : Client α) (isOpen reports : Bool) (o : Owner) (request : Request) :
    Client α :=
  if !isOpen then c
  else if reports then { ended with link := ended.link.post o request } else ended

theorem closeSession_eq (c : Client α) (s : Handle) (y : Session) : c.closeSession s y =
    c.closing (c.endSession s y) y.isOpen (c.endSession s y).link.isOpen (.closeSession s) {}
      (.closeSession y.id) := rfl

theorem closeTransaction_eq (c : Client α) (t : Handle) (x : Transaction) : c.closeTransaction t x =
    c.closing (c.finishTransaction t) x.isOpen ((c.finishTransaction t).reportsClose x)
      (.closeTransaction t) { session := some x.sessionId } (.closeTransaction x.id) := rfl

theorem dropSession_eq (c : Client α) (s : Handle) (y : Session) : c.dropSession s y =
    release ((c.modifySession s ({ · with held := false })).quitting
      ((c.modifySession s ({ · with held := false })).endSession s y) y.isOpen
      ((c.modifySession s ({ · with held := false })).endSession s y).link.isOpen {}
      (.closeSession y.id)) := rfl

theorem dropTransaction_eq (c : Client α) (t : Handle) (x : Transaction) : c.dropTransaction t x =
    release ((c.modifyTransaction t ({ · with held := false })).quitting
      ((c.modifyTransaction t ({ · with held := false })).finishTransaction t) x.isOpen
      (((c.modifyTransaction t ({ · with held := false })).finishTransaction t).reportsClose x)
      { session := some x.sessionId } (.closeTransaction x.id)) := rfl

/-- What closing can come to. -/
inductive Shuts (c ended : Client α) (isOpen reports : Bool) (e : Errand) (o : Owner)
    (request : Request) : Outcome α → Prop
  | before (h : isOpen = false) : Shuts c ended isOpen reports e o request (c.replying .done)
  | told (h : isOpen = true) (hr : reports = true) :
      Shuts c ended isOpen reports e o request (ended.run e o request)
  | silent (h : isOpen = true) (hr : reports = false) :
      Shuts c ended isOpen reports e o request (ended.replying .done)

theorem shuts (c ended : Client α) (isOpen reports : Bool) (e : Errand) (o : Owner)
    (request : Request) : Shuts c ended isOpen reports e o request
      (c.closing ended isOpen reports e o request) := by
  cases isOpen with
  | false => exact .before rfl
  | true =>
    cases reports with
    | true => exact .told rfl rfl
    | false => exact .silent rfl rfl

/-- What giving up can come to. -/
inductive Quits (c ended : Client α) (isOpen reports : Bool) (o : Owner) (request : Request) :
    Client α → Prop
  | before (h : isOpen = false) : Quits c ended isOpen reports o request c
  | told (h : isOpen = true) (hr : reports = true) : Quits c ended isOpen reports o request
      { ended with link := ended.link.post o request }
  | silent (h : isOpen = true) (hr : reports = false) :
      Quits c ended isOpen reports o request ended

theorem quits (c ended : Client α) (isOpen reports : Bool) (o : Owner) (request : Request) :
    Quits c ended isOpen reports o request (c.quitting ended isOpen reports o request) := by
  cases isOpen with
  | false => exact .before rfl
  | true =>
    cases reports with
    | true => exact .told rfl rfl
    | false => exact .silent rfl rfl

/-! ### Queries -/

/-- What opening a query can come to: it is refused, or cannot be sent, or is opened. -/
inductive Enters (c : Client α) (x : Transaction) (text : Payload) (options : QueryOptions)
    (reader : Reader α) : Outcome α → Prop
  | refused {e : Failure} (h : (options.validate.bind fun _ => c.ensureOpen x) = .error e) :
      c.Enters x text options reader (c.replying (.failed e))
  | unsent {e : Failure} {l : Link} (hv : options.validate = .ok ()) (ho : c.ensureOpen x = .ok ())
      (h : c.link.request x.owner (.fetch x.id (.first text options)) = (.error e, l)) :
      c.Enters x text options reader ({ c with link := l }.replying (.failed e))
  | opened {i : Nat} {l : Link} (hv : options.validate = .ok ()) (ho : c.ensureOpen x = .ok ())
      (h : c.link.request x.owner (.fetch x.id (.first text options)) = (.ok i, l)) :
      c.Enters x text options reader (replying
        { c with
          link := l
          queries := c.queries ++ [{
            lane := c.link.openLane.1, owner := x.owner, transaction := x.id, options := options,
            inbox := i, reader := reader }] }
        (.opened c.queries.length))

theorem enters (c : Client α) (x : Transaction) (text : Payload) (options : QueryOptions)
    (reader : Reader α) : c.Enters x text options reader (c.openQuery x text options reader) := by
  unfold openQuery
  split
  · exact .refused ‹_›
  · rename_i hopen
    cases hv : options.validate with
    | error e =>
      rw [hv] at hopen
      cases hopen
    | ok u =>
      rw [hv] at hopen
      dsimp only
      split
      · exact .unsent hv hopen ‹_›
      · exact .opened hv hopen ‹_›

theorem openQuery_of_refused {x : Transaction} {options : QueryOptions} {e : Failure}
    (h : (options.validate.bind fun _ => c.ensureOpen x) = .error e) (text : Payload)
    (reader : Reader α) : c.openQuery x text options reader = c.replying (.failed e) := by
  unfold openQuery
  rw [h]

/-- What beginning to pull can come to. -/
inductive BeginsPull (c : Client α) (h : Handle) (q : Query α) (demand : Demand α) :
    Outcome α → Prop
  | exhausted (hp : q.progress = .exhausted) : c.BeginsPull h q demand (c.replying (atEnd demand))
  | failed {e : Failure} (hp : q.progress = .failed e) :
      c.BeginsPull h q demand ((c.setQuery h (q.fuse demand)).replying (.failed e))
  | waits (hx : q.progress ≠ .exhausted) (hf : ∀ e, q.progress ≠ .failed e) :
      c.BeginsPull h q demand ({ c with waiting := some (.pull h demand) }, none)

theorem beginsPull (c : Client α) (h : Handle) (q : Query α) (demand : Demand α) :
    c.BeginsPull h q demand (c.beginPull h q demand) := by
  unfold beginPull
  split
  · exact .exhausted ‹_›
  · rw [failing_eq]
    exact .failed ‹_›
  · exact .waits ‹_› ‹_›

/-- What beginning to wait for the start can come to. -/
inductive BeginsStart (c : Client α) (h : Handle) (q : Query α) (bound : Option Nat) (drain : Bool) :
    Outcome α → Prop
  | waits (hp : q.progress = .pending) :
      c.BeginsStart h q bound drain ({ c with waiting := some (.start h bound drain) }, none)
  | failed {e : Failure} (hp : q.progress = .failed e) :
      c.BeginsStart h q bound drain (c.replying (.failed e))
  | done (hp : q.progress ≠ .pending) (hd : drain = false) :
      c.BeginsStart h q bound drain (c.replying .done)
  | pulls (hp : q.progress ≠ .pending) (hf : ∀ e, q.progress ≠ .failed e) (hd : drain = true) :
      c.BeginsStart h q bound drain (c.beginPull h q (.rest []))

theorem beginsStart (c : Client α) (h : Handle) (q : Query α) (bound : Option Nat) (drain : Bool) :
    c.BeginsStart h q bound drain (c.beginStart h q bound drain) := by
  unfold beginStart
  split
  · exact .waits ‹_›
  · exact .failed ‹_›
  · cases drain with
    | true => exact .pulls ‹_› ‹_› rfl
    | false => exact .done ‹_› rfl

theorem beginStart_of_pending {h : Handle} {q : Query α} (hp : q.progress = .pending)
    {bound : Option Nat} {drain : Bool} : c.beginStart h q bound drain =
      ({ c with waiting := some (.start h bound drain) }, none) := by
  unfold beginStart
  rw [hp]

theorem beginPull_of_exhausted {h : Handle} {q : Query α} (hp : q.progress = .exhausted)
    (demand : Demand α) : c.beginPull h q demand = c.replying (atEnd demand) := by
  unfold beginPull
  rw [hp]

theorem beginPull_of_failed {h : Handle} {q : Query α} {e : Failure}
    (hp : q.progress = .failed e) (demand : Demand α) :
    c.beginPull h q demand = c.failing h q demand e := by
  unfold beginPull
  rw [hp]

theorem beginStart_of_failed {h : Handle} {q : Query α} {e : Failure}
    (hp : q.progress = .failed e) {bound : Option Nat} {drain : Bool} :
    c.beginStart h q bound drain = c.replying (.failed e) := by
  unfold beginStart
  rw [hp]

/-- There is nothing to wait for any more, at most answers. -/
theorem beginStart_of_begun {h : Handle} {q : Query α} (hp : q.progress ≠ .pending)
    (hf : ∀ e, q.progress ≠ .failed e) {bound : Option Nat} {drain : Bool} :
    c.beginStart h q bound drain =
      if drain then c.beginPull h q (.rest []) else c.replying .done := by
  unfold beginStart
  split
  · exact absurd ‹_› hp
  · exact absurd ‹_› (hf _)
  · rfl

theorem beginStart_of_streaming {h : Handle} {q : Query α} (hp : q.progress = .streaming)
    {bound : Option Nat} : c.beginStart h q bound false = c.replying .done := by
  rw [beginStart_of_begun (by simp [hp]) (by simp [hp])]
  rfl

/-- What fetching the next batch can come to. -/
inductive FetchesMore (c : Client α) (h : Handle) (q : Query α) (token : UInt64)
    (demand : Demand α) : Outcome α → Prop
  | sent {i : Nat} {l : Link} (hd : c.link.dispatch q.lane q.owner
        (.fetch q.transaction (.continuation token q.options)) = (.ok i, l)) :
      c.FetchesMore h q token demand
        ({ { c with link := l.dropInbox q.inbox }.setQuery h { q with inbox := i } with
          waiting := some (.pull h demand) }, none)
  | failed {e : Failure} {l : Link} (hd : c.link.dispatch q.lane q.owner
        (.fetch q.transaction (.continuation token q.options)) = (.error e, l)) :
      c.FetchesMore h q token demand
        ((setQuery { c with link := l } h ((q.fail e).fuse demand)).replying (.failed e))

theorem fetchesMore (c : Client α) (h : Handle) (q : Query α) (token : UInt64)
    (demand : Demand α) : c.FetchesMore h q token demand (c.fetchMore h q token demand) := by
  unfold fetchMore
  split
  · exact .sent ‹_›
  · rw [failing_eq]
    exact .failed ‹_›

/-- What a pulling call that has a delivery can come to. -/
inductive ReadsOn (c : Client α) (h : Handle) (q : Query α) :
    Demand α → Delivery → Outcome α → Prop
  | broken {demand : Demand α} {e : Failure} : c.ReadsOn h q demand (.error e)
      ((c.setQuery h ((q.fail e).fuse demand)).replying (.failed e))
  | answer {demand : Demand α} {r : Response} {x : Query α} {a : α}
      (hx : q.consume r = (x, .answer (.ok a))) :
      c.ReadsOn h q demand (.ok r) ((c.setQuery h x).replying (.answer (some a)))
  | got {got : List α} {r : Response} {x : Query α} {a : α}
      (hx : q.consume r = (x, .answer (.ok a))) : c.ReadsOn h q (.rest got) (.ok r)
      ({ c.setQuery h x with waiting := some (.pull h (.rest (got ++ [a]))) }, none)
  | failed {demand : Demand α} {r : Response} {x : Query α} {e : Failure}
      (hx : q.consume r = (x, .answer (.error e)) ∨ q.consume r = (x, .failed e)) :
      c.ReadsOn h q demand (.ok r) ((c.setQuery h (x.fuse demand)).replying (.failed e))
  | more {demand : Demand α} {r : Response} {x : Query α} {token : UInt64}
      (hx : q.consume r = (x, .more token)) :
      c.ReadsOn h q demand (.ok r) (c.fetchMore h x token demand)
  | ended {demand : Demand α} {r : Response} {x : Query α} (hx : q.consume r = (x, .ended)) :
      c.ReadsOn h q demand (.ok r) ((c.setQuery h x).replying (atEnd demand))

theorem readsOn (c : Client α) (h : Handle) (q : Query α) (demand : Demand α) (d : Delivery) :
    c.ReadsOn h q demand d (c.pulled h q demand d) := by
  cases d with
  | error e =>
    rw [pulled, failing_eq]
    exact .broken
  | ok r =>
    unfold pulled
    dsimp only
    split
    · split
      · exact .got ‹_›
      · exact .answer ‹_›
      · exact .answer ‹_›
    · rw [failing_eq]
      exact .failed (.inl ‹_›)
    · exact .more ‹_›
    · exact .ended ‹_›
    · rw [failing_eq]
      exact .failed (.inr ‹_›)

/-- What a call that waits for the start and has a delivery can come to. -/
inductive HearsStart (c : Client α) (h : Handle) (q : Query α) (drain : Bool) :
    Delivery → Outcome α → Prop
  | held {r : Response} (hd : drain = false) :
      c.HearsStart h q drain (.ok r) ((c.setQuery h (q.hold r)).replying .done)
  | goesOn {r : Response} (hd : drain = true) : c.HearsStart h q drain (.ok r)
      ({ c.setQuery h (q.hold r) with waiting := some (.pull h (.rest [])) }, none)
  | timedOut : c.HearsStart h q drain (.error .timeout) (c.replying (.failed .timeout))
  | failed {e : Failure} (he : e ≠ .timeout) :
      c.HearsStart h q drain (.error e) ((c.setQuery h (q.fail e)).replying (.failed e))

theorem hearsStart (c : Client α) (h : Handle) (q : Query α) (drain : Bool) (d : Delivery) :
    c.HearsStart h q drain d (c.started h q drain d) := by
  unfold started
  split
  · cases drain with
    | true => exact .goesOn rfl
    | false => exact .held rfl
  · exact .timedOut
  · exact .failed fun he => by simp_all

end Client

end QueryLanes
