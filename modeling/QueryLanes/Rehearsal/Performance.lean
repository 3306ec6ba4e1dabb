import QueryLanes.Console.Shell
import QueryLanes.Rehearsal.Stage

/-!
# Performances

The console played through from its command line to its exit against a scripted peer.
-/

namespace QueryLanes.Rehearsal

/-- What is left when the console has exited. -/
structure Performance where
  code : Nat
  output : String
  errors : String
  sent : List ClientFrame

/-- A shell on the stage of its client. -/
structure Play where
  shell : Shell
  stage : Stage Payload
  /-- The number of the prompt at which the user interrupts. -/
  interruptAt : Option Nat := none
  /-- How many prompts were written. -/
  prompts : Nat := 0

namespace Play

/-- The next thing the shell does. -/
def next (p : Play) : Play :=
  if p.shell.phase = .prompt then
    let n := p.prompts + 1
    if p.interruptAt = some n then
      { p with
        shell := { p.shell with terminal := (p.shell.terminal.ask).2 }.interrupt, prompts := n }
    else { p with shell := p.shell.readLine, prompts := n }
  else match p.shell.call? with
    | none => p
    | some k =>
      match p.stage.play k with
      | (stage, some r) =>
        { p with shell := p.shell.hear stage.client.batchCount r, stage := stage }
      | (stage, none) => { p with shell := p.shell.goto (.done 1), stage := stage }

/-- Go on, at most `fuel` times, until the shell is done. -/
def run (p : Play) : Nat → Play
  | 0 => p
  | fuel + 1 =>
    match p.shell.phase with
    | .done _ => p
    | _ => p.next.run fuel

/-- More turns than the shell can take: a few for each line, and one for each answer. -/
def turns (p : Play) : Nat := 8 * (p.shell.terminal.input.length + 4) + p.stage.prospects

def performance (p : Play) : Performance :=
  { code := match p.shell.phase with
      | .done code => code
      | _ => 1
    output := p.shell.terminal.output
    errors := p.shell.errors
    sent := p.stage.client.link.sent }

end Play

/-- The console from its command line to its exit, with the peer at an address. -/
def perform (commandLine : List String) (input : List UInt8) (peerAddress : String) (peer : Peer)
    (interruptAt : Option Nat) : Performance :=
  match Arguments.parse commandLine with
  | .help => ⟨0, Arguments.helpText, "", []⟩
  | .version => ⟨0, Arguments.versionText, "", []⟩
  | .misuse m => ⟨2, "", m.message, []⟩
  | .run arguments =>
    let options := Shell.clientOptions arguments
    match Stage.reach options peerAddress arguments.address with
    | .error e => ⟨1, "", Shell.fatal e ++ "\n", []⟩
    | .ok () =>
      let p : Play :=
        { shell := .start arguments input, stage := .opening options peer,
          interruptAt := interruptAt }
      (p.run p.turns).performance

end QueryLanes.Rehearsal
