/-!
# Messages

What a client and a server say to each other. Every message travels in a `Frame`, under the number
of its lane: the client gives each request a lane of its own and the server answers on it.

A query is answered in batches. Its first `Fetch` carries the query; the server sends one `Item`
per answer and ends the batch with an item that holds either a token, for which the client may
fetch the next batch, or the mark that the query is done. `Item.meaning` reads an item;
`Response.isTerminal` says which responses end what a request is waiting for, and
`Item.isLast_iff` that on items the two agree.
-/

namespace QueryLanes

/-- The number that ties the responses to a request. -/
abbrev Lane := UInt64

abbrev Payload := List UInt8

/-- How many answers one batch may hold. -/
inductive BatchSize where
  | number (n : UInt32)
  | all
deriving DecidableEq, Repr, Inhabited

inductive SessionKind where
  | data
  | schema
deriving DecidableEq, Repr, Inhabited

inductive TransactionKind where
  | read
  | write
deriving DecidableEq, Repr, Inhabited

/-- What a query asks for beside its text; it goes with every fetch of the query. -/
structure QueryOptions where
  batchSize : BatchSize := .number 50
  infer : Option Bool := none
  explain : Option Bool := none
deriving DecidableEq, Repr, Inhabited

/-- A request for one batch. The first of a query has the token 0 and the query. -/
structure Fetch where
  token : UInt64
  options : QueryOptions
  query : Option Payload
deriving DecidableEq, Repr

def Fetch.first (query : Payload) (options : QueryOptions) : Fetch := ⟨0, options, some query⟩

def Fetch.continuation (token : UInt64) (options : QueryOptions) : Fetch := ⟨token, options, none⟩

inductive Request where
  | openSession (database : String) (kind : SessionKind)
  | closeSession (session : UInt64)
  | openTransaction (session : UInt64) (kind : TransactionKind)
  | commit (transaction : UInt64)
  | rollback (transaction : UInt64)
  | closeTransaction (transaction : UInt64)
  | fetch (transaction : UInt64) (fetch : Fetch)
deriving DecidableEq, Repr

/-- One message of a batch. A sound one has exactly one of its three fields set. -/
structure Item where
  token : UInt64 := 0
  done : Bool := false
  answer : Option Payload := none
deriving DecidableEq, Repr

def Item.data (answer : Payload) : Item := { answer := some answer }

def Item.continuation (token : UInt64) : Item := { token := token }

def Item.completion : Item := { done := true }

/-- What an item says. -/
inductive Meaning where
  /-- One answer; the batch goes on. -/
  | data (answer : Payload)
  /-- The batch is over, and the token fetches the next one. -/
  | continuation (token : UInt64)
  /-- The batch is over, and so is the query. -/
  | completion
  /-- No field is set, or several are. -/
  | malformed
deriving DecidableEq, Repr

def Item.meaning (i : Item) : Meaning :=
  if i.token = 0 then
    match i.done, i.answer with
    | false, some answer => .data answer
    | true, none => .completion
    | _, _ => .malformed
  else
    match i.done, i.answer with
    | false, none => .continuation i.token
    | _, _ => .malformed

/-- Whether the item ends its batch: everything but an answer alone does. -/
def Item.isLast (i : Item) : Bool := !(i.token == 0 && !i.done && i.answer.isSome)

theorem Item.isLast_iff (i : Item) : i.isLast = true ↔ ∀ p, i.meaning ≠ .data p := by
  rcases i with ⟨t, _ | _, _ | _⟩ <;> by_cases h : t = 0 <;> simp [isLast, meaning, h]

inductive Response where
  | sessionOpened (session : UInt64)
  | transactionOpened (transaction : UInt64)
  | acknowledged
  | item (item : Item)
  | refused (description : String)
deriving DecidableEq, Repr

/-- Whether nothing more answers the request after this response. -/
def Response.isTerminal : Response → Bool
  | .item i => i.isLast
  | _ => true

/-- A message on its lane. -/
structure Frame (β : Type) where
  lane : Lane
  body : β
deriving DecidableEq, Repr

abbrev ClientFrame := Frame Request

abbrev ServerFrame := Frame Response

end QueryLanes
