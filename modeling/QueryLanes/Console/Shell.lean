import QueryLanes.Client.Step
import QueryLanes.Console.Arguments
import QueryLanes.Console.Prompt

/-!
# The shell

The console's loop. A shell works in one session and in one transaction at a time: a commit, well or
badly ended, is followed by a fresh transaction, and only then is the old one given up. What the
shell does next is its `Phase`; each phase but those that read a line or are the end makes one call
of the client (`Shell.call?`), and the reply decides on the next phase (`Shell.hear`).

- `Desk.step` is one turn of a shell and its client together.
-/

namespace QueryLanes

inductive Phase where
  | openSession
  | openTransaction
  /-- Read a line. -/
  | prompt
  | commit
  /-- Open the transaction that takes the place of the committed one. -/
  | reopen
  /-- Give the committed transaction up. -/
  | retire (old : Handle)
  | rollback
  /-- Send a query. -/
  | ask (query : String)
  /-- Wait for its first batch. -/
  | start (query : Handle)
  /-- Print its answers; so many are printed. -/
  | display (query : Handle) (count : Nat)
  /-- Give the query up. -/
  | forget (query : Handle)
  /-- Give up the transaction, the session and the client, and end with this code. -/
  | leaveTransaction (code : Nat)
  | leaveSession (code : Nat)
  | leaveClient (code : Nat)
  | done (code : Nat)
deriving DecidableEq, Repr

structure Shell where
  arguments : Arguments
  terminal : Terminal := {}
  /-- What was written to the error output. -/
  errors : String := ""
  options : QueryOptions
  session : Handle := 0
  transaction : Handle := 0
  phase : Phase := .openSession
deriving Repr

namespace Shell

/-- A shell that has been started and has done nothing yet. -/
def start (arguments : Arguments) (input : List UInt8) : Shell :=
  { arguments := arguments, terminal := { input := input },
    options := .ofBatchSize arguments.batchSize }

def clientOptions (a : Arguments) : ClientOptions :=
  { connectTimeout := a.timeout, requestTimeout := a.timeout }

def sessionKind (s : Shell) : SessionKind := if s.arguments.schema then .schema else .data

def transactionKind (s : Shell) : TransactionKind := if s.arguments.write then .write else .read

def print (s : Shell) (line : String) : Shell := { s with terminal := s.terminal.print (line ++ "\n") }

def complain (s : Shell) (line : String) : Shell := { s with errors := s.errors ++ line ++ "\n" }

def goto (s : Shell) (p : Phase) : Shell := { s with phase := p }

/-- How a failure that ends the console is reported. -/
def fatal (e : Failure) : String := "Error: " ++ e.describe

/-- Carry out a command. -/
def obey (s : Shell) : Command → Shell
  | .exit => s.goto (.leaveTransaction 0)
  | .batch size =>
    { s with options := .ofBatchSize size }.print ("batch size set to " ++ Describe.batchSize size)
  | .commit => s.goto .commit
  | .rollback => s.goto .rollback
  | .query text => s.goto (.ask text)

/-- Read a line and carry it out. The end of the input ends the console, a blank line is passed over
and any other failure is reported. -/
def readLine (s : Shell) : Shell :=
  let (command, terminal) := s.terminal.prompt
  let s := { s with terminal := terminal }
  match command with
  | .ok command => s.obey command
  | .error .closed => s.goto (.leaveTransaction 0)
  | .error .empty => s
  | .error e => s.complain e.message

/-- What the shell asks of the client in its phase. -/
def call? (s : Shell) : Option (Call Payload) :=
  match s.phase with
  | .openSession => some (.openSession s.arguments.database s.sessionKind)
  | .openTransaction | .reopen => some (.openTransaction s.session s.transactionKind)
  | .commit => some (.commit s.transaction)
  | .retire old => some (.dropTransaction old)
  | .rollback => some (.rollback s.transaction)
  | .ask query => some (.query s.transaction (Utf8.encode query) s.options Reader.raw)
  | .start q => some (.start q s.arguments.timeout)
  | .display q _ => some (.next q)
  | .forget q => some (.dropQuery q)
  | .leaveTransaction _ => some (.dropTransaction s.transaction)
  | .leaveSession _ => some (.dropSession s.session)
  | .leaveClient _ => some .close
  | .prompt | .done _ => none

/-- The summary under the answers of a query. -/
def summary (count batches : Nat) : String :=
  Numeral.render count ++ " answer(s) in " ++ Numeral.render batches ++ " batch(es)"

/-- Go on after the reply to the call of the phase. `batches` counts the batches of a query. -/
def hear (s : Shell) (batches : Handle → Nat) (r : Reply Payload) : Shell :=
  match s.phase, r with
  | .openSession, .opened h => { s with session := h }.goto .openTransaction
  | .openSession, .failed e => (s.complain (fatal e)).goto (.leaveClient 1)
  | .openTransaction, .opened h => { s with transaction := h }.goto .prompt
  | .openTransaction, .failed e => (s.complain (fatal e)).goto (.leaveSession 1)
  | .commit, .failed e => (s.complain ("commit failed: " ++ e.message)).goto .reopen
  | .commit, _ => s.goto .reopen
  | .reopen, .opened h => { s with transaction := h }.goto (.retire s.transaction)
  | .reopen, .failed e => (s.complain (fatal e)).goto (.leaveTransaction 1)
  | .retire _, _ => s.goto .prompt
  | .rollback, .failed e => (s.complain ("rollback failed: " ++ e.message)).goto .prompt
  | .rollback, _ => s.goto .prompt
  | .ask _, .opened h => s.goto (.start h)
  | .ask _, .failed e => (s.complain ("query error: " ++ e.message)).goto .prompt
  | .start q, .failed e => (s.complain ("query error: " ++ e.message)).goto (.forget q)
  | .start q, _ => s.goto (.display q 0)
  | .display q count, .answer (some p) => (s.print (Utf8.decodeLossy p)).goto (.display q (count + 1))
  | .display q count, .answer none => (s.print (summary count (batches q))).goto (.forget q)
  | .display q _, .failed e => (s.complain ("query error: " ++ e.message)).goto (.forget q)
  | .forget _, _ => s.goto .prompt
  | .leaveTransaction code, _ => s.goto (.leaveSession code)
  | .leaveSession code, _ => s.goto (.leaveClient code)
  | .leaveClient code, _ => s.goto (.done code)
  | _, _ => s.goto (.leaveClient 1)

/-- The user interrupts the console at its prompt. -/
def interrupt (s : Shell) : Shell := s.goto (.leaveClient 130)

end Shell

/-- How many batches of a query were received in full. -/
def Client.batchCount {α : Type} (c : Client α) (h : Handle) : Nat :=
  (c.queries[h]?.map (·.batchSizes.length)).getD 0

/-- A shell and the client it works with. -/
structure Desk where
  shell : Shell
  client : Client Payload

/-- One turn: the shell does the next thing of its own, or something happens to its client. -/
inductive Turn where
  | go
  | happen (m : Move Payload)

namespace Desk

def start (arguments : Arguments) (input : List UInt8) : Desk :=
  { shell := .start arguments input, client := { requestTimeout := arguments.timeout } }

/-- The shell hears the reply to its call, if there is one yet. -/
def hear (d : Desk) : Client.Outcome Payload → Desk
  | (c, some r) => ⟨d.shell.hear c.batchCount r, c⟩
  | (c, none) => { d with client := c }

def step (d : Desk) : Turn → Desk
  | .go =>
    match d.shell.phase, d.shell.call? with
    | .prompt, _ => { d with shell := d.shell.readLine }
    | _, some k => d.hear (d.client.call k)
    | _, none => d
  | .happen m => d.hear (d.client.step m)

end Desk

end QueryLanes
