import QueryLanes.Lane.Router

/-!
# The link

One connection, shared by everything that is opened through it. Each request gets a lane of its
own and registers it before its frame is sent, so that no response can come too early. The link
keeps a `transcript` of all that crossed it, in order: frames sent, frames received, requests
failed, and callbacks run in between.

Closing happens once and is final: whatever is outstanding fails, and nothing is sent or received
any more.
-/

namespace QueryLanes

/-- One line of a transcript. -/
inductive Entry where
  | sent (frame : ClientFrame)
  | received (frame : ServerFrame)
  /-- The requests on these lanes failed together. -/
  | failed (lanes : List Lane) (e : Failure)
  /-- The callback registered under this name ran. -/
  | ran (label : String)
deriving Repr

structure Link where
  isOpen : Bool := true
  router : Router := {}
  /-- How many lanes were given out. -/
  issued : Nat := 0
  transcript : List Entry := []

namespace Link

def record (l : Link) (e : Entry) : Link := { l with transcript := l.transcript ++ [e] }

/-- The frames sent so far. -/
def sent (l : Link) : List ClientFrame :=
  l.transcript.filterMap fun | .sent f => some f | _ => none

/-- The names of the callbacks run so far. -/
def ran (l : Link) : List String :=
  l.transcript.filterMap fun | .ran label => some label | _ => none

/-- A fresh lane; they are numbered from 1. -/
def openLane (l : Link) : Lane × Link :=
  (UInt64.ofNat (l.issued + 1), { l with issued := l.issued + 1 })

def send (l : Link) (f : ClientFrame) : Except Failure Link :=
  if l.isOpen then .ok (l.record (.sent f)) else .error .connectionClosed

/-- Register the lane and send the request on it; the number of its inbox is returned. A request
that is not sent leaves nothing registered. -/
def dispatch (l : Link) (lane : Lane) (owner : Owner) (request : Request) :
    Except Failure Nat × Link :=
  match l.router.register lane owner with
  | .error e => (.error e, l)
  | .ok (r, inbox) =>
    match { l with router := r }.send ⟨lane, request⟩ with
    | .ok sent => (.ok inbox, sent)
    | .error e => (.error e, { l with router := (r.withdraw lane).drop inbox })

/-- Send a request on a lane of its own. -/
def request (l : Link) (owner : Owner) (request : Request) : Except Failure Nat × Link :=
  let (lane, l) := l.openLane
  l.dispatch lane owner request

/-- Give up an inbox. -/
def dropInbox (l : Link) (inbox : Nat) : Link := { l with router := l.router.drop inbox }

/-- Send a request whose response nobody waits for. -/
def post (l : Link) (owner : Owner) (request : Request) : Link :=
  match l.request owner request with
  | (.ok inbox, l) => l.dropInbox inbox
  | (.error _, l) => l

/-- A frame arrives. A closed link reads nothing. -/
def receive (l : Link) (f : ServerFrame) : Link :=
  if l.isOpen then { l with router := l.router.route f }.record (.received f) else l

def failTransaction (l : Link) (transaction : UInt64) : Link :=
  let (r, lanes) := l.router.failTransaction transaction .transactionClosed
  { l with router := r }.record (.failed lanes .transactionClosed)

def failSession (l : Link) (session : UInt64) : Link :=
  let (r, lanes) := l.router.failSession session .sessionClosed
  { l with router := r }.record (.failed lanes .sessionClosed)

/-- End the connection. -/
def close (l : Link) : Link :=
  if l.isOpen then
    let (r, lanes) := l.router.close .connectionClosed
    { l with isOpen := false, router := r }.record (.failed lanes .connectionClosed)
  else l

end Link

end QueryLanes
