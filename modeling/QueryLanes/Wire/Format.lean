import QueryLanes.Text.Utf8
import QueryLanes.Wire.Message
import QueryLanes.Wire.Plan

/-!
# The wire format

How each type is written and read. A `Format` holds the two side by side: the pieces that writing a
value hands to the stream one after the other, and the plan that reads it back. Numbers are
big-endian and of fixed width; a choice is a number in front of what was chosen, in four bytes for
a constructor and in one for a boolean or an optional value; bytes and texts follow their length.
-/

namespace QueryLanes

/-- What is handed to the stream at once. -/
abbrev Piece := List UInt8

/-- The `width` low bytes of a number, the highest first. -/
def bigEndian : Nat → Nat → List UInt8
  | 0, _ => []
  | w + 1, n => UInt8.ofNat (n / Nat.pow 256 w % 256) :: bigEndian w n

def ofBigEndian (bs : List UInt8) : Nat := bs.foldl (fun v b => v * 256 + b.toNat) 0

/-- Writing and reading of one type. -/
structure Format (α : Type) where
  pieces : α → List Piece
  plan : Plan α

namespace Format

variable {α : Type}

/-- All bytes of a value. -/
def encode (f : Format α) (a : α) : List UInt8 := (f.pieces a).flatten

def u64 : Format UInt64 where
  pieces n := [bigEndian 8 n.toNat]
  plan := .take 8 fun bs => .done (UInt64.ofNat (ofBigEndian bs))

def u32 : Format UInt32 where
  pieces n := [bigEndian 4 n.toNat]
  plan := .take 4 fun bs => .done (UInt32.ofNat (ofBigEndian bs))

/-- The number of a constructor. -/
def tag : Format Nat where
  pieces n := [bigEndian 4 n]
  plan := .take 4 fun bs => .done (ofBigEndian bs)

def flag : Format Bool where
  pieces b := [[if b then 1 else 0]]
  plan := .take 1 fun bs => match ofBigEndian bs with
    | 0 => .done false
    | 1 => .done true
    | n => .fault (.boolean n)

/-- Bytes after their length. A length beyond the greatest of its width is written as that one,
which every reader refuses. -/
def blob : Format (List UInt8) where
  pieces bs := [bigEndian 8 (min bs.length (UInt64.size - 1)), bs]
  plan := .take 8 fun bs => .take (ofBigEndian bs) .done

def text : Format String where
  pieces s := blob.pieces (Utf8.encode s)
  plan := do
    match Utf8.decode (← blob.plan) with
    | .ok s => pure s
    | .error e => .fault (.text e.validUpTo)

def option (f : Format α) : Format (Option α) where
  pieces
    | none => [[0]]
    | some a => [1] :: f.pieces a
  plan := .take 1 fun bs => match ofBigEndian bs with
    | 0 => .done none
    | 1 => do return some (← f.plan)
    | n => .fault (.variant .option n)

def batchSize : Format BatchSize where
  pieces
    | .number n => tag.pieces 0 ++ u32.pieces n
    | .all => tag.pieces 1
  plan := do
    match ← tag.plan with
    | 0 => return .number (← u32.plan)
    | 1 => return .all
    | n => .fault (.variant .batchSize n)

def sessionKind : Format SessionKind where
  pieces
    | .data => tag.pieces 0
    | .schema => tag.pieces 1
  plan := do
    match ← tag.plan with
    | 0 => return .data
    | 1 => return .schema
    | n => .fault (.variant .sessionKind n)

def transactionKind : Format TransactionKind where
  pieces
    | .read => tag.pieces 0
    | .write => tag.pieces 1
  plan := do
    match ← tag.plan with
    | 0 => return .read
    | 1 => return .write
    | n => .fault (.variant .transactionKind n)

def queryOptions : Format QueryOptions where
  pieces o := batchSize.pieces o.batchSize ++ (option flag).pieces o.infer
    ++ (option flag).pieces o.explain
  plan := do
    let size ← batchSize.plan
    let infer ← (option flag).plan
    let explain ← (option flag).plan
    return ⟨size, infer, explain⟩

def fetch : Format Fetch where
  pieces f := u64.pieces f.token ++ queryOptions.pieces f.options ++ (option blob).pieces f.query
  plan := do
    let token ← u64.plan
    let options ← queryOptions.plan
    let query ← (option blob).plan
    return ⟨token, options, query⟩

def request : Format Request where
  pieces
    | .openSession database kind => tag.pieces 0 ++ text.pieces database ++ sessionKind.pieces kind
    | .closeSession session => tag.pieces 1 ++ u64.pieces session
    | .openTransaction session kind =>
      tag.pieces 2 ++ u64.pieces session ++ transactionKind.pieces kind
    | .commit transaction => tag.pieces 3 ++ u64.pieces transaction
    | .rollback transaction => tag.pieces 4 ++ u64.pieces transaction
    | .closeTransaction transaction => tag.pieces 5 ++ u64.pieces transaction
    | .fetch transaction f => tag.pieces 6 ++ u64.pieces transaction ++ fetch.pieces f
  plan := do
    match ← tag.plan with
    | 0 => do
      let database ← text.plan
      return .openSession database (← sessionKind.plan)
    | 1 => return .closeSession (← u64.plan)
    | 2 => do
      let session ← u64.plan
      return .openTransaction session (← transactionKind.plan)
    | 3 => return .commit (← u64.plan)
    | 4 => return .rollback (← u64.plan)
    | 5 => return .closeTransaction (← u64.plan)
    | 6 => do
      let transaction ← u64.plan
      return .fetch transaction (← fetch.plan)
    | n => .fault (.variant .request n)

def item : Format Item where
  pieces i := u64.pieces i.token ++ flag.pieces i.done ++ (option blob).pieces i.answer
  plan := do
    let token ← u64.plan
    let done ← flag.plan
    let answer ← (option blob).plan
    return ⟨token, done, answer⟩

def response : Format Response where
  pieces
    | .sessionOpened session => tag.pieces 0 ++ u64.pieces session
    | .transactionOpened transaction => tag.pieces 1 ++ u64.pieces transaction
    | .acknowledged => tag.pieces 2
    | .item i => tag.pieces 3 ++ item.pieces i
    | .refused description => tag.pieces 4 ++ text.pieces description
  plan := do
    match ← tag.plan with
    | 0 => return .sessionOpened (← u64.plan)
    | 1 => return .transactionOpened (← u64.plan)
    | 2 => return .acknowledged
    | 3 => return .item (← item.plan)
    | 4 => return .refused (← text.plan)
    | n => .fault (.variant .response n)

/-- A frame is its lane and then its body. -/
def frame (f : Format α) : Format (Frame α) where
  pieces x := u64.pieces x.lane ++ f.pieces x.body
  plan := do
    let lane ← u64.plan
    return ⟨lane, ← f.plan⟩

theorem frame_plan (f : Format α) : (frame f).plan =
    .take 8 fun bs => f.plan.bind fun a => .done ⟨UInt64.ofNat (ofBigEndian bs), a⟩ := rfl

def clientFrame : Format ClientFrame := frame request

def serverFrame : Format ServerFrame := frame response

end Format

end QueryLanes
