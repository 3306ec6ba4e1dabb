import QueryLanes.Text.Numeral
import QueryLanes.Text.Quoted
import QueryLanes.Wire.Message

/-!
# Descriptions of messages

The text of a message as errors and diagnoses show it: the name of its constructor, and its fields
by name in braces or by position in parentheses.
-/

namespace QueryLanes.Describe

/-- Texts with a separator between them. -/
def separated (texts : List String) : String := ", ".intercalate texts

/-- A value whose fields have names. -/
def record (name : String) (fields : List (String × String)) : String :=
  name ++ " \x7b " ++ separated (fields.map fun f => f.1 ++ ": " ++ f.2) ++ " \x7d"

/-- A value with one field that has no name. -/
def wrapped (name field : String) : String := name ++ "(" ++ field ++ ")"

def number (n : UInt64) : String := Numeral.render n.toNat

def flag (b : Bool) : String := if b then "true" else "false"

def list (texts : List String) : String := "[" ++ separated texts ++ "]"

def payload (bs : Payload) : String := list (bs.map fun b => Numeral.render b.toNat)

def option {α : Type} (describe : α → String) : Option α → String
  | none => "None"
  | some a => wrapped "Some" (describe a)

def batchSize : BatchSize → String
  | .number n => wrapped "Number" (Numeral.render n.toNat)
  | .all => "All"

def sessionKind : SessionKind → String
  | .data => "Data"
  | .schema => "Schema"

def queryOptions (o : QueryOptions) : String :=
  record "IterOptions" [("batch_size", batchSize o.batchSize), ("infer", option flag o.infer),
    ("explain", option flag o.explain)]

def fetch (f : Fetch) : String :=
  record "IterReq" [("iterator_id", number f.token), ("options", queryOptions f.options),
    ("query", option payload f.query)]

def item (i : Item) : String :=
  record "IterRes" [("iterator_id", number i.token), ("done", flag i.done),
    ("answer", option payload i.answer)]

def response : Response → String
  | .sessionOpened session => record "SessionOpened" [("session", number session)]
  | .transactionOpened transaction =>
    record "TransactionOpened" [("transaction", number transaction)]
  | .acknowledged => "Ok"
  | .item i => wrapped "Iter" (item i)
  | .refused description => record "Err" [("description", Text.quote description)]

end QueryLanes.Describe
