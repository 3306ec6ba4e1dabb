import QueryLanes.Text.Utf8
import QueryLanes.Lane.Router
import QueryLanes.Query.Options

/-!
# Pulling answers

A `Query` is a one-pass sequence of answers. It takes the responses of its lane one at a time:
`Query.consume` says what one response leads to. An answer is handed to the query's reader; a
token means that the next batch has to be fetched before there is more; the mark of completion
and every fault end the query for good. A reader that refuses an answer does not.

`Query.stash` holds a first response that was only waited for; it is consumed before anything else.
-/

namespace QueryLanes

/-- How payloads become answers. What a reader makes of a payload may depend on those it was given
before. -/
abbrev Reader (α : Type) := List Payload → Payload → Except Failure α

/-- Answers that are texts. -/
def Reader.text : Reader String := fun _ p =>
  match Utf8.decode p with
  | .ok s => .ok s
  | .error e => .error (.decode e.message)

/-- Answers as they are. -/
def Reader.raw : Reader Payload := fun _ p => .ok p

/-- Where a query stands. -/
inductive Progress where
  /-- Nothing was consumed or waited for yet. -/
  | pending
  /-- Handing out the answers of a batch. -/
  | streaming
  /-- The next batch is being asked for. -/
  | continuing
  | exhausted
  /-- It failed for good. -/
  | failed (e : Failure)
deriving DecidableEq, Repr

structure Query (α : Type) where
  lane : Lane
  owner : Owner
  transaction : UInt64
  options : QueryOptions
  /-- The inbox of the current batch. -/
  inbox : Nat
  reader : Reader α
  stash : Option Response := none
  progress : Progress := .pending
  /-- The answer counts of the batches received in full. -/
  batchSizes : List Nat := []
  /-- The answers of the current batch so far. -/
  inBatch : Nat := 0
  /-- The payloads the reader was given. -/
  handed : List Payload := []
  /-- Whether iteration has reported the failure that ended the query. -/
  fused : Bool := false
  /-- Whether the caller still has the query. -/
  held : Bool := true

namespace Query

variable {α : Type}

/-- What a consumed response leads to. -/
inductive Pulled (α : Type) where
  /-- An answer, or what its reader has against it. -/
  | answer (a : Except Failure α)
  /-- The next batch has to be fetched with this token. -/
  | more (token : UInt64)
  | ended
  | failed (e : Failure)

def fail (q : Query α) (e : Failure) : Query α := { q with progress := .failed e }

/-- The batch is over. -/
def endBatch (q : Query α) : Query α :=
  { q with batchSizes := q.batchSizes ++ [q.inBatch], inBatch := 0 }

def consume (q : Query α) : Response → Query α × Pulled α
  | .item i =>
    match i.meaning with
    | .data p =>
      ({ q with progress := .streaming, inBatch := q.inBatch + 1, handed := q.handed ++ [p] },
        .answer (q.reader q.handed p))
    | .continuation token => ({ q.endBatch with progress := .continuing }, .more token)
    | .completion => ({ q.endBatch with progress := .exhausted }, .ended)
    | .malformed => (q.fail (.violation .malformedItem), .failed (.violation .malformedItem))
  | .refused description => (q.fail (.server description), .failed (.server description))
  | other => (q.fail (.violation (.noItem other)), .failed (.violation (.noItem other)))

/-- Keep a response that was waited for until it is consumed. -/
def hold (q : Query α) (r : Response) : Query α :=
  { q with stash := some r, progress := .streaming }

/-- Whether the server has started to answer, as far as `r` knows. -/
def isStarted (q : Query α) (r : Router) : Bool :=
  q.progress != .pending || r.hasArrived q.inbox

/-- What the next pull finds: the stash, or else what the inbox delivers. `none` if it is still to
come. -/
def poll (q : Query α) (r : Router) : Option (Delivery × Query α × Router) :=
  match q.stash with
  | some response => some (.ok response, { q with stash := none }, r)
  | none => (r.poll q.inbox).map fun (d, r) => (d, q, r)

/-- The query as diagnoses show it. -/
def describe (q : Query α) : String :=
  Describe.record "PullIterator" [("lane", Describe.number q.lane),
    ("transaction", Describe.number q.transaction),
    ("options", Describe.queryOptions q.options),
    ("state", match q.progress with
      | .pending => "Pending"
      | .streaming => "Streaming"
      | .continuing => "Continuing"
      | .exhausted => "Exhausted"
      | .failed e => Describe.wrapped "Failed" e.describe),
    ("batch_sizes", Describe.list (q.batchSizes.map Numeral.render))]

end Query

end QueryLanes
