import QueryLanes.Client.State

/-!
# Calls

What a caller may ask of the client. `Client.call` begins a call: it is refused, or answered at
once, or sends its request and leaves the client waiting. `Client.resume` and `Client.expire` take a
waiting call on: the first by at most one delivery, the second by the end of a bounded wait. A call
that is over has a `Reply`.

One caller is served: a call made while another one waits is not taken.
-/

namespace QueryLanes

inductive Call (α : Type) where
  | clone
  | dropClient
  /-- Close the connection. -/
  | close
  | openSession (database : String) (kind : SessionKind)
  | onClose (session : Handle) (label : String)
  | closeSession (session : Handle)
  | dropSession (session : Handle)
  | openTransaction (session : Handle) (kind : TransactionKind)
  | commit (transaction : Handle)
  | rollback (transaction : Handle)
  | closeTransaction (transaction : Handle)
  | dropTransaction (transaction : Handle)
  | query (transaction : Handle) (query : Payload) (options : QueryOptions) (reader : Reader α)
  /-- Wait until the server has begun to answer. -/
  | start (query : Handle) (bound : Option Nat)
  | nextAnswer (query : Handle)
  /-- The next item of an iteration. -/
  | next (query : Handle)
  /-- Wait for the start and then for all answers. -/
  | collect (query : Handle) (bound : Option Nat)
  | dropQuery (query : Handle)

inductive Reply (α : Type) where
  | done
  /-- What was opened. -/
  | opened (handle : Handle)
  /-- One answer, or none at the end. -/
  | answer (a : Option α)
  | answers (as : List α)
  | failed (e : Failure)
  /-- The call names nothing that the caller has. -/
  | noSuchHandle
deriving DecidableEq, Repr

namespace Client

variable {α : Type}

/-- A client, and the reply of a call that is over. -/
abbrev Outcome (α : Type) := Client α × Option (Reply α)

def replying (c : Client α) (r : Reply α) : Outcome α := ({ c with waiting := none }, some r)

def unitReply : Except Failure Unit → Reply α
  | .ok () => .done
  | .error e => .failed e

/-- A transaction has ended: it takes no more requests, and those it has fail. -/
def finishTransaction (c : Client α) (t : Handle) : Client α :=
  match c.transactions[t]? with
  | none => c
  | some x =>
    { c.modifyTransaction t ({ · with isOpen := false }) with
      link := c.link.failTransaction x.id }

/-- Nothing but an acknowledgement will do. -/
def expectAcknowledgement : Response → Except Failure Unit
  | .acknowledged => .ok ()
  | other => .error (.violation (.noAcknowledgement other))

/-- A refusal by the server is a failure. -/
def accepted : Except Failure Response → Except Failure Response
  | .ok (.refused description) => .error (.server description)
  | d => d

/-- The outcome of closing something: that the connection is gone is as good. -/
def closed : Except Failure Response → Except Failure Unit
  | .error .connectionClosed => .ok ()
  | .error e => .error e
  | .ok r => expectAcknowledgement r

/-- What an errand comes to, given its response or why there is none. -/
def conclude (c : Client α) (errand : Errand) (d : Except Failure Response) : Outcome α :=
  match errand, accepted d with
  | .openSession database kind, .ok (.sessionOpened id) =>
    replying { c with sessions := c.sessions ++ [{ id := id, database := database, kind := kind }] }
      (.opened c.sessions.length)
  | .openSession _ _, .ok other => c.replying (.failed (.violation (.noSession other)))
  | .openTransaction s kind, .ok (.transactionOpened id) =>
    match c.sessions[s]? with
    | none => c.replying .noSuchHandle
    | some x =>
      replying { c with transactions :=
        c.transactions ++ [{ session := s, sessionId := x.id, id := id, kind := kind }] }
        (.opened c.transactions.length)
  | .openTransaction _ _, .ok other => c.replying (.failed (.violation (.noTransaction other)))
  | .openSession _ _, .error e | .openTransaction _ _, .error e => c.replying (.failed e)
  | .closeSession _, r | .closeTransaction _, r => c.replying (unitReply (closed r))
  | .commit t, r => (c.finishTransaction t).replying (unitReply (r.bind expectAcknowledgement))
  | .rollback _, r => c.replying (unitReply (r.bind expectAcknowledgement))

/-- Send an errand's request and wait for the response. -/
def run (c : Client α) (errand : Errand) (owner : Owner) (request : Request) : Outcome α :=
  match c.link.request owner request with
  | (.ok inbox, l) => ({ c with link := l, waiting := some (.errand errand inbox) }, none)
  | (.error e, l) => { c with link := l }.conclude errand (.error e)

/-! ## Ends of handles -/

/-- With the last handle the link goes. -/
def release (c : Client α) : Client α := if c.isHeld then c else { c with link := c.link.close }

/-- The first step of closing a session: it takes no more requests, those in it fail, and then its
callbacks run. -/
def endSession (c : Client α) (s : Handle) (x : Session) : Client α :=
  let failed := c.link.failSession x.id
  { c.modifySession s ({ · with isOpen := false, callbacks := [] }) with
    link := x.callbacks.foldl (fun l label => l.record (.ran label)) failed }

def closeSession (c : Client α) (s : Handle) (x : Session) : Outcome α :=
  if !x.isOpen then c.replying .done
  else
    let ended := c.endSession s x
    if ended.link.isOpen then ended.run (.closeSession s) {} (.closeSession x.id)
    else ended.replying .done

def dropSession (c : Client α) (s : Handle) (x : Session) : Client α :=
  let given := c.modifySession s ({ · with held := false })
  release <|
    if !x.isOpen then given
    else
      let ended := given.endSession s x
      if ended.link.isOpen then { ended with link := ended.link.post {} (.closeSession x.id) }
      else ended

/-- Whether the server is told that a transaction closes. -/
def reportsClose (c : Client α) (x : Transaction) : Bool :=
  c.sessionFlag x.session && c.link.isOpen

def closeTransaction (c : Client α) (t : Handle) (x : Transaction) : Outcome α :=
  if !x.isOpen then c.replying .done
  else
    let ended := c.finishTransaction t
    if ended.reportsClose x then
      ended.run (.closeTransaction t) { session := some x.sessionId } (.closeTransaction x.id)
    else ended.replying .done

def dropTransaction (c : Client α) (t : Handle) (x : Transaction) : Client α :=
  let given := c.modifyTransaction t ({ · with held := false })
  release <|
    if !x.isOpen then given
    else
      let ended := given.finishTransaction t
      if ended.reportsClose x then
        { ended with
          link := ended.link.post { session := some x.sessionId } (.closeTransaction x.id) }
      else ended

def dropQuery (c : Client α) (h : Handle) (q : Query α) : Client α :=
  release { c.setQuery h { q with held := false } with link := c.link.dropInbox q.inbox }

/-! ## Queries -/

/-- Open a query: its first request is sent at once. -/
def openQuery (c : Client α) (x : Transaction) (text : Payload) (options : QueryOptions)
    (reader : Reader α) : Outcome α :=
  match options.validate.bind fun _ => c.ensureOpen x with
  | .error e => c.replying (.failed e)
  | .ok () =>
    let (lane, l) := c.link.openLane
    match l.dispatch lane x.owner (.fetch x.id (.first text options)) with
    | (.error e, l) => { c with link := l }.replying (.failed e)
    | (.ok inbox, l) =>
      let q : Query α :=
        { lane := lane, owner := x.owner, transaction := x.id, options := options, inbox := inbox,
          reader := reader }
      replying { c with link := l, queries := c.queries ++ [q] } (.opened c.queries.length)

/-- What a caller gets at the end of a query. -/
def atEnd : Demand α → Reply α
  | .rest got => .answers got
  | .answer | .item => .answer none

/-- Report a failure. An iteration that reports the one that ended the query is over. -/
def failing (c : Client α) (h : Handle) (q : Query α) (demand : Demand α) (e : Failure) :
    Outcome α :=
  match demand, q.progress with
  | .item, .failed _ => (c.setQuery h { q with fused := true }).replying (.failed e)
  | _, _ => (c.setQuery h q).replying (.failed e)

/-- Begin to pull: a query that is over has its reply at once, every other one waits. -/
def beginPull (c : Client α) (h : Handle) (q : Query α) (demand : Demand α) : Outcome α :=
  match q.progress with
  | .exhausted => c.replying (atEnd demand)
  | .failed e => c.failing h q demand e
  | _ => ({ c with waiting := some (.pull h demand) }, none)

/-- Begin to wait for the start of a query, and then for all its answers if `drain`. -/
def beginStart (c : Client α) (h : Handle) (q : Query α) (bound : Option Nat) (drain : Bool) :
    Outcome α :=
  match q.progress with
  | .pending => ({ c with waiting := some (.start h bound drain) }, none)
  | .failed e => c.replying (.failed e)
  | _ => if drain then c.beginPull h q (.rest []) else c.replying .done

/-! ## Beginning a call -/

/-- Begin a call. -/
def call (c : Client α) (k : Call α) : Outcome α :=
  if c.waiting.isSome then (c, none)
  else match k with
    | .clone =>
      if c.clones = 0 then c.replying .noSuchHandle
      else { c with clones := c.clones + 1 }.replying .done
    | .dropClient =>
      if c.clones = 0 then c.replying .noSuchHandle
      else (release { c with clones := c.clones - 1 }).replying .done
    | .close =>
      if c.clones = 0 then c.replying .noSuchHandle
      else { c with link := c.link.close }.replying .done
    | .openSession database kind =>
      if c.clones = 0 then c.replying .noSuchHandle
      else if !c.link.isOpen then c.replying (.failed .connectionClosed)
      else c.run (.openSession database kind) {} (.openSession database kind)
    | .onClose s label =>
      match c.session? s with
      | none => c.replying .noSuchHandle
      | some x => (c.modifySession s fun y =>
          { y with callbacks := x.callbacks ++ [label] }).replying .done
    | .closeSession s =>
      match c.session? s with
      | none => c.replying .noSuchHandle
      | some x => c.closeSession s x
    | .dropSession s =>
      match c.session? s with
      | none => c.replying .noSuchHandle
      | some x => (c.dropSession s x).replying .done
    | .openTransaction s kind =>
      match c.session? s with
      | none => c.replying .noSuchHandle
      | some x =>
        if !c.link.isOpen then c.replying (.failed .connectionClosed)
        else if !x.isOpen then c.replying (.failed .sessionClosed)
        else c.run (.openTransaction s kind) { session := some x.id } (.openTransaction x.id kind)
    | .commit t =>
      match c.transaction? t with
      | none => c.replying .noSuchHandle
      | some x =>
        match c.ensureOpen x with
        | .error e => c.replying (.failed e)
        | .ok () => c.run (.commit t) x.owner (.commit x.id)
    | .rollback t =>
      match c.transaction? t with
      | none => c.replying .noSuchHandle
      | some x =>
        match c.ensureOpen x with
        | .error e => c.replying (.failed e)
        | .ok () => c.run (.rollback t) x.owner (.rollback x.id)
    | .closeTransaction t =>
      match c.transaction? t with
      | none => c.replying .noSuchHandle
      | some x => c.closeTransaction t x
    | .dropTransaction t =>
      match c.transaction? t with
      | none => c.replying .noSuchHandle
      | some x => (c.dropTransaction t x).replying .done
    | .query t text options reader =>
      match c.transaction? t with
      | none => c.replying .noSuchHandle
      | some x => c.openQuery x text options reader
    | .start h bound =>
      match c.query? h with
      | none => c.replying .noSuchHandle
      | some q => c.beginStart h q bound false
    | .collect h bound =>
      match c.query? h with
      | none => c.replying .noSuchHandle
      | some q => c.beginStart h q bound true
    | .nextAnswer h =>
      match c.query? h with
      | none => c.replying .noSuchHandle
      | some q => c.beginPull h q .answer
    | .next h =>
      match c.query? h with
      | none => c.replying .noSuchHandle
      | some q => if q.fused then c.replying (.answer none) else c.beginPull h q .item
    | .dropQuery h =>
      match c.query? h with
      | none => c.replying .noSuchHandle
      | some q => (c.dropQuery h q).replying .done

end Client

end QueryLanes
