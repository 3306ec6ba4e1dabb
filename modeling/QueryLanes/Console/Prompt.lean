import QueryLanes.Console.Command
import QueryLanes.Text.Utf8

/-!
# The prompt

The console asks for one line at a time. Before each it writes a prompt and flushes it; a terminal
that refuses either is not read from. A line that is no text is consumed all the same.
-/

namespace QueryLanes

/-- What a terminal refuses to do, and how it words that. -/
inductive Refusal where
  | write (detail : String)
  | flush (detail : String)
deriving DecidableEq, Repr

structure Terminal where
  /-- The input not read yet. -/
  input : List UInt8 := []
  output : String := ""
  refusal : Option Refusal := none
deriving Repr

/-- The bytes up to and with the first newline, and those after it. -/
def splitLine : List UInt8 → List UInt8 × List UInt8
  | [] => ([], [])
  | b :: r =>
    if b = 0x0A then ([b], r)
    else ((b :: (splitLine r).1), (splitLine r).2)

namespace Terminal

def print (t : Terminal) (s : String) : Terminal := { t with output := t.output ++ s }

/-- Write the prompt. -/
def ask (t : Terminal) : Except CommandFailure Terminal × Terminal :=
  match t.refusal with
  | some (.write detail) => (.error (.io detail), t)
  | some (.flush detail) => (.error (.io detail), t.print "> ")
  | none => (.ok (t.print "> "), t.print "> ")

/-- Read a line. -/
def readLine (t : Terminal) : Except CommandFailure String × Terminal :=
  match splitLine t.input with
  | ([], _) => (.error .closed, t)
  | (line, rest) =>
    (match Utf8.decode line with
      | .ok s => .ok s
      | .error _ => .error (.io "stream did not contain valid UTF-8"),
      { t with input := rest })

/-- Ask for a command. -/
def prompt (t : Terminal) : Except CommandFailure Command × Terminal :=
  match t.ask with
  | (.error e, t) => (.error e, t)
  | (.ok _, t) =>
    let (line, t) := t.readLine
    (line.bind Command.parse, t)

end Terminal

end QueryLanes
