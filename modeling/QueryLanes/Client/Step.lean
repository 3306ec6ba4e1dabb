import QueryLanes.Client.Call
import QueryLanes.Wire.Stream

/-!
# Runs

A run of the client is a list of moves: the caller makes a call, a frame arrives, the connection is
lost, a waiting call goes on, a bounded wait ends. `Client.step` is total, so every list of moves is
a run; a move that does not apply changes nothing.
-/

namespace QueryLanes

inductive Move (α : Type) where
  | call (k : Call α)
  | arrive (frame : ServerFrame)
  /-- The connection ends, or what arrives on it makes no sense. -/
  | lose
  /-- The waiting call looks for what it waits for. -/
  | resume
  /-- The time of a bounded wait is over. -/
  | expire

namespace Client

variable {α : Type}

/-! ## Waiting calls -/

/-- Fetch the next batch of a query on its lane. -/
def fetchMore (c : Client α) (h : Handle) (q : Query α) (token : UInt64) (demand : Demand α) :
    Outcome α :=
  match c.link.dispatch q.lane q.owner
      (.fetch q.transaction (.continuation token q.options)) with
  | (.ok inbox, l) =>
    ({ { c with link := l.dropInbox q.inbox }.setQuery h { q with inbox := inbox } with
      waiting := some (.pull h demand) }, none)
  | (.error e, l) => { c with link := l }.failing h (q.fail e) demand e

/-- Take a pulling call on by one delivery. -/
def pulled (c : Client α) (h : Handle) (q : Query α) (demand : Demand α) : Delivery → Outcome α
  | .error e => c.failing h (q.fail e) demand e
  | .ok response =>
    match q.consume response with
    | (q, .answer (.ok a)) =>
      match demand with
      | .rest got => ({ c.setQuery h q with waiting := some (.pull h (.rest (got ++ [a]))) }, none)
      | .answer | .item => (c.setQuery h q).replying (.answer (some a))
    | (q, .answer (.error e)) => c.failing h q demand e
    | (q, .more token) => c.fetchMore h q token demand
    | (q, .ended) => (c.setQuery h q).replying (atEnd demand)
    | (q, .failed e) => c.failing h q demand e

/-- Take a call that waits for the start of a query on by one delivery. -/
def started (c : Client α) (h : Handle) (q : Query α) (drain : Bool) : Delivery → Outcome α
  | .ok response =>
    if drain then
      ({ c.setQuery h (q.hold response) with waiting := some (.pull h (.rest [])) }, none)
    else (c.setQuery h (q.hold response)).replying .done
  | .error .timeout => c.replying (.failed .timeout)
  | .error e => (c.setQuery h (q.fail e)).replying (.failed e)

/-- The waiting call looks for what it waits for; with nothing there it goes on waiting. -/
def resume (c : Client α) : Outcome α :=
  match c.waiting with
  | none => (c, none)
  | some (.errand errand inbox) =>
    match c.link.router.poll inbox with
    | none => (c, none)
    | some (d, r) => conclude { c with link := { c.link with router := r.drop inbox } } errand d
  | some (.start h _ drain) =>
    match c.queries[h]? with
    | none => (c, none)
    | some q =>
      match c.link.router.poll q.inbox with
      | none => (c, none)
      | some (d, r) => started { c with link := { c.link with router := r } } h q drain d
  | some (.pull h demand) =>
    match c.queries[h]? with
    | none => (c, none)
    | some q =>
      match q.poll c.link.router with
      | none => (c, none)
      | some (d, q, r) => pulled { c with link := { c.link with router := r } } h q demand d

/-- Whether the waiting call finds something now. -/
def isReady (c : Client α) : Bool :=
  match c.waiting with
  | none => false
  | some (.errand _ inbox) => (c.link.router.poll inbox).isSome
  | some (.start h _ _) => c.queries[h]?.any fun q => (c.link.router.poll q.inbox).isSome
  | some (.pull h _) => c.queries[h]?.any fun q => (q.poll c.link.router).isSome

/-- How long the waiting call waits for its next delivery, if there is a bound. -/
def bound? (c : Client α) : Option Nat :=
  match c.waiting with
  | some (.errand _ _) => c.requestTimeout
  | some (.start _ bound _) => bound
  | some (.pull _ _) | none => none

/-- Give up the wait. -/
def giveUp (c : Client α) : Outcome α :=
  match c.waiting with
  | some (.errand errand inbox) =>
    conclude { c with link := c.link.dropInbox inbox } errand (.error .timeout)
  | some (.start _ _ _) => c.replying (.failed .timeout)
  | some (.pull _ _) | none => (c, none)

/-- The time of a bounded wait is over. What has come by then still counts. -/
def expire (c : Client α) : Outcome α :=
  if c.isReady then c.resume else if c.bound?.isSome then c.giveUp else (c, none)

/-! ## Moves -/

def step (c : Client α) : Move α → Outcome α
  | .call k => c.call k
  | .arrive f => ({ c with link := c.link.receive f }, none)
  | .lose => ({ c with link := c.link.close }, none)
  | .resume => c.resume
  | .expire => c.expire

/-- A run, and the replies it gave in order. -/
def runAll (c : Client α) : List (Move α) → Client α × List (Reply α)
  | [] => (c, [])
  | m :: r =>
    let (c, reply) := c.step m
    let (c, replies) := c.runAll r
    (c, reply.toList ++ replies)

end Client

/-! ## Bytes -/

/-- A client at its end of a byte stream. -/
structure Endpoint (α : Type) where
  client : Client α
  arrivals : Arrivals := {}

/-- Bytes arrive: each frame that is whole by now is routed, and bytes that can become no frame end
the connection. -/
def Endpoint.receive {α : Type} (e : Endpoint α) (chunk : List UInt8) : Endpoint α :=
  if e.client.link.isOpen then
    let (arrivals, frames, hopeless) := e.arrivals.feed chunk Format.response
    let link := frames.foldl Link.receive e.client.link
    { client := { e.client with link := if hopeless then link.close else link }
      arrivals := arrivals }
  else e

end QueryLanes
