import QueryLanes.Failure

/-!
# Options

The options of a query are built by calls that each set one of them; the batch size is checked when
it is given as a number, and once more when the query is opened, because options made from a batch
size alone are not. `ClientOptions` hold what a connection is opened with.
-/

namespace QueryLanes

namespace QueryOptions

/-- Set the batch size to a number of 1 to 4294967295. -/
def withBatchSize (o : QueryOptions) (n : Int) : Except Failure QueryOptions :=
  if n < 1 then .error (.misconfiguration (.batchSizeNotPositive n))
  else if UInt32.size ≤ n then .error (.misconfiguration (.batchSizeTooLarge n))
  else .ok { o with batchSize := .number (UInt32.ofNat n.toNat) }

/-- Ask for the whole result in one batch. -/
def withAll (o : QueryOptions) : QueryOptions := { o with batchSize := .all }

def withInfer (o : QueryOptions) (b : Bool) : QueryOptions := { o with infer := some b }

def withExplain (o : QueryOptions) (b : Bool) : QueryOptions := { o with explain := some b }

/-- Only a batch size, taken as it is. -/
def ofBatchSize (size : BatchSize) : QueryOptions := { batchSize := size }

/-- A batch must have room for an answer. -/
def validate (o : QueryOptions) : Except Failure Unit :=
  if o.batchSize = .number 0 then .error (.misconfiguration (.batchSizeNotPositive 0)) else .ok ()

theorem validate_eq_ok {o : QueryOptions} : o.validate = .ok () ↔ o.batchSize ≠ .number 0 := by
  unfold validate
  split <;> simp [*]

theorem validate_eq_error {o : QueryOptions} {e : Failure} : o.validate = .error e ↔
    e = .misconfiguration (.batchSizeNotPositive 0) ∧ o.batchSize = .number 0 := by
  unfold validate
  split <;> simp [*, eq_comm]

/-- One call in the building of options. -/
inductive Setting where
  | batchSize (n : Int)
  | all
  | infer (b : Bool)
  | explain (b : Bool)
  /-- Start over from a batch size. -/
  | restart (size : BatchSize)
deriving DecidableEq, Repr

def apply (o : QueryOptions) : Setting → Except Failure QueryOptions
  | .batchSize n => o.withBatchSize n
  | .all => .ok o.withAll
  | .infer b => .ok (o.withInfer b)
  | .explain b => .ok (o.withExplain b)
  | .restart size => .ok (ofBatchSize size)

/-- Apply settings in order; the first that is refused is the outcome. -/
def applyAll (o : QueryOptions) : List Setting → Except Failure QueryOptions
  | [] => .ok o
  | s :: r => do (← o.apply s).applyAll r

/-- The options that settings build from the default ones. -/
def build (settings : List Setting) : Except Failure QueryOptions := ({} : QueryOptions).applyAll settings

end QueryOptions

/-- What a connection is opened with. Times are in milliseconds. -/
structure ClientOptions where
  /-- How many frames may wait to be written. -/
  outboundCapacity : Nat := 64
  connectTimeout : Option Nat := none
  /-- How long a request with a single response is waited for. -/
  requestTimeout : Option Nat := none
deriving DecidableEq, Repr

def ClientOptions.validate (o : ClientOptions) : Except Failure Unit :=
  if o.outboundCapacity = 0 then .error (.misconfiguration .noOutboundCapacity) else .ok ()

end QueryLanes
