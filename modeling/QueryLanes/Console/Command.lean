import QueryLanes.Text.Blank
import QueryLanes.Text.Numeral
import QueryLanes.Wire.Message

/-!
# Commands

What a user of the console may enter. A line is trimmed; one that starts with a dot is a command
of the console's own, and any other is a query.

- `.exit`, `.commit` and `.rollback` stand alone;
- `.batch` is followed by the batch size of the queries to come, a positive integer or `all`.
-/

namespace QueryLanes

inductive Command where
  | exit
  | commit
  | rollback
  | batch (size : BatchSize)
  | query (text : String)
deriving DecidableEq, Repr

/-- What is wrong with the argument of `.batch`. -/
inductive BatchFault where
  | missing
  | notASize
deriving DecidableEq, Repr

/-- Why there is no command. -/
inductive CommandFailure where
  | unrecognized (text : String)
  | invalidBatch (fault : BatchFault)
  | empty
  /-- The input is at its end. -/
  | closed
  | io (detail : String)
deriving DecidableEq, Repr

def BatchFault.message : BatchFault → String
  | missing => "requires a batch size or 'all'. Example: .batch 10"
  | notASize => "batch size should be a positive integer or 'all'."

def CommandFailure.message : CommandFailure → String
  | unrecognized text => "unrecognized command '" ++ text ++ "'"
  | invalidBatch fault => "invalid '.batch' command, " ++ fault.message
  | empty => "no command provided"
  | closed => "input closed"
  | io detail => "prompt io error: " ++ detail

/-- A batch size as it is entered. -/
def BatchSize.parse (s : String) : Except CommandFailure BatchSize :=
  if s = "all" then .ok .all
  else match Numeral.read (UInt32.size - 1) s with
    | .ok (n + 1) => .ok (.number (UInt32.ofNat (n + 1)))
    | _ => .error (.invalidBatch .notASize)

/-- The command that a trimmed line gives. Whatever starts with `.batch` sets the batch size to its
second word. -/
def Command.ofTrimmed (s : String) : Except CommandFailure Command :=
  if s = "" then .error .empty
  else if s = ".exit" then .ok .exit
  else if s = ".commit" then .ok .commit
  else if s = ".rollback" then .ok .rollback
  else if ".batch".toList.isPrefixOf s.toList then
    match (Text.words s)[1]? with
    | none => .error (.invalidBatch .missing)
    | some size => (BatchSize.parse size).map .batch
  else if s.toList.head? = some '.' then .error (.unrecognized s)
  else .ok (.query s)

def Command.parse (line : String) : Except CommandFailure Command :=
  Command.ofTrimmed (Text.trim line)

end QueryLanes
