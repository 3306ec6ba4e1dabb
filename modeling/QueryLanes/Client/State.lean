import QueryLanes.Lane.Link
import QueryLanes.Query.Pull

/-!
# The client's state

One client is one link and everything opened through it: sessions, the transactions in them, and
the queries of these. Each is known by its place in the client's list, its `Handle`; nothing leaves
a list, but a handle the caller has given up is no longer `held`, and with the last held handle the
link closes.

A call that needs a response leaves the client `waiting`; what it waits for is a `Wait`.
-/

namespace QueryLanes

/-- The place of a session, transaction or query in the client's lists. -/
abbrev Handle := Nat

structure Session where
  id : UInt64
  database : String
  kind : SessionKind
  /-- Cleared by the first close. -/
  isOpen : Bool := true
  /-- The names of the callbacks to run at the close, in order. -/
  callbacks : List String := []
  held : Bool := true
deriving Repr

/-- The session as diagnoses show it. -/
def Session.describe (s : Session) : String :=
  Describe.record "Session" [("id", Describe.number s.id), ("database", Text.quote s.database),
    ("kind", Describe.sessionKind s.kind), ("open", Describe.flag s.isOpen)]

structure Transaction where
  /-- The session it was opened in. -/
  session : Handle
  /-- The number the server gave that session. -/
  sessionId : UInt64
  id : UInt64
  kind : TransactionKind
  isOpen : Bool := true
  held : Bool := true
deriving Repr

/-- Whose requests the transaction's are. -/
def Transaction.owner (t : Transaction) : Owner := ⟨some t.sessionId, some t.id⟩

/-- What a request with a single response is for. -/
inductive Errand where
  | openSession (database : String) (kind : SessionKind)
  | openTransaction (session : Handle) (kind : TransactionKind)
  | closeSession (session : Handle)
  | commit (transaction : Handle)
  | rollback (transaction : Handle)
  | closeTransaction (transaction : Handle)
deriving Repr

/-- What a caller wants of a query. -/
inductive Demand (α : Type) where
  /-- One answer; a failure that ended the query is reported each time. -/
  | answer
  /-- The next item of an iteration, which reports such a failure once. -/
  | item
  /-- All answers to the end, in addition to those already got. -/
  | rest (got : List α)

/-- What a call in progress waits for. Bounds are in milliseconds. -/
inductive Wait (α : Type) where
  /-- The response in this inbox. -/
  | errand (errand : Errand) (inbox : Nat)
  /-- The first response of a query, and all its answers after that if `drain`. -/
  | start (query : Handle) (bound : Option Nat) (drain : Bool)
  | pull (query : Handle) (demand : Demand α)

structure Client (α : Type) where
  link : Link := {}
  /-- How long a single response is waited for. -/
  requestTimeout : Option Nat := none
  /-- How many handles of the client itself are held. -/
  clones : Nat := 1
  sessions : List Session := []
  transactions : List Transaction := []
  queries : List (Query α) := []
  waiting : Option (Wait α) := none

namespace Client

variable {α : Type}

def session? (c : Client α) (s : Handle) : Option Session := c.sessions[s]?.filter (·.held)

def transaction? (c : Client α) (t : Handle) : Option Transaction :=
  c.transactions[t]?.filter (·.held)

def query? (c : Client α) (q : Handle) : Option (Query α) := c.queries[q]?.filter (·.held)

/-- Whether the session at a place has not been closed, held or not. -/
def sessionFlag (c : Client α) (s : Handle) : Bool := c.sessions[s]?.any (·.isOpen)

def modifySession (c : Client α) (s : Handle) (f : Session → Session) : Client α :=
  { c with sessions := c.sessions.modify s f }

def modifyTransaction (c : Client α) (t : Handle) (f : Transaction → Transaction) : Client α :=
  { c with transactions := c.transactions.modify t f }

def setQuery (c : Client α) (h : Handle) (q : Query α) : Client α :=
  { c with queries := c.queries.set h q }

def sessionIsOpen (c : Client α) (s : Session) : Bool := s.isOpen && c.link.isOpen

/-- Why a transaction takes no requests, if it takes none: the connection counts before the
session, and the session before the transaction. -/
def ensureOpen (c : Client α) (t : Transaction) : Except Failure Unit :=
  if !c.link.isOpen then .error .connectionClosed
  else if !c.sessionFlag t.session then .error .sessionClosed
  else if !t.isOpen then .error .transactionClosed
  else .ok ()

def transactionIsOpen (c : Client α) (t : Transaction) : Bool := (c.ensureOpen t).isOk

/-- Whether the caller has anything left that needs the link. -/
def isHeld (c : Client α) : Bool :=
  c.clones != 0 || c.sessions.any (·.held) || c.transactions.any (·.held) || c.queries.any (·.held)

end Client

end QueryLanes
