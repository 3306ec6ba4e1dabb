import QueryLanes.Console.Shell
import QueryLanes.Lane.Dial
import Std.Async.DNS
import Std.Async.Signal
import Std.Async.TCP
import Std.Async.Timer

/-!
# The console program

The only part that touches the world: it opens the connection, carries bytes between the connection
and the desk, lines from the standard input to the shell, and what the shell has written to the
standard output. What to do is decided by `Desk.step`.
-/

namespace QueryLanes.Program

open Std.Async

abbrev Socket := TCP.Socket.Client

/-- What the program can be woken by. -/
inductive News where
  /-- Bytes of the server, or the end of the connection. -/
  | bytes (chunk : Option ByteArray)
  | line (bytes : List UInt8)
  | interrupted
  /-- The time of a wait is over. -/
  | late

abbrev Source := Task (Except IO.Error News)

/-- Start something and let it bring news when it is over. -/
def sourceOf (news : Async News) : IO Source := do
  let task : AsyncTask News ← news.toIO
  return show Task (Except IO.Error News) from task

structure State where
  desk : Desk
  arrivals : Arrivals := {}
  socket : Socket
  /-- How many of the client's frames were written. -/
  sent : Nat := 0
  /-- How many characters of the shell's output and error output were written. -/
  printed : Nat := 0
  complained : Nat := 0
  server : Source
  interrupt : Source
  input : Option Source := none

def millis (n : Nat) : Std.Time.Millisecond.Offset := .ofNat n

def alarmNews (bound : Nat) : IO Source :=
  sourceOf do
    sleep (millis bound)
    return .late

/-! ## Opening the connection -/

def place (ip : Std.Net.IPAddr) (port : UInt16) : Std.Net.SocketAddress :=
  match ip with
  | .v4 a => .v4 ⟨a, port⟩
  | .v6 a => .v6 ⟨a, port⟩

/-- Try one place, no longer than the bound. -/
def attempt (address : Std.Net.SocketAddress) (bound : Option Nat) :
    IO (Except String Socket) := do
  try
    let socket ← TCP.Socket.Client.mk
    let connected ← sourceOf do
      socket.connect address
      return .bytes none
    let alarm ← bound.toList.mapM alarmNews
    match ← IO.waitAny (connected :: alarm) (Nat.zero_lt_succ _) with
    | .ok .late => return .error "connection timed out"
    | .ok _ =>
      socket.noDelay
      return .ok socket
    | .error e => return .error e.toString
  catch e => return .error e.toString

/-- Try the places in order, up to the first that answers. -/
def attempts (port : UInt16) (bound : Option Nat) : List Std.Net.IPAddr →
    IO (List (Except String Socket))
  | [] => return []
  | ip :: r => do
    match ← attempt (place ip port) bound with
    | .ok socket => return [.ok socket]
    | .error e => return .error e :: (← attempts port bound r)

def connect (arguments : Arguments) : IO (Except Failure Socket) := do
  match splitAddress arguments.address with
  | .error e => return .error (.connect e.message)
  | .ok (host, port) =>
    try
      let ips ← (DNS.getAddrInfo host (toString port)).block
      return dial arguments.timeout.isSome (← attempts port arguments.timeout ips.toList)
    catch e => return .error (.connect e.toString)

/-! ## Sources of news -/

def serverNews (socket : Socket) : IO Source :=
  sourceOf do return .bytes (← socket.recv? 65536)

def interruptNews (interrupts : Signal.Waiter) : IO Source := do
  let arrived ← interrupts.wait
  sourceOf do
    discard (Async.ofAsyncTask arrived)
    return .interrupted

/-- Read a line, byte by byte, through its newline or to the end of the input. -/
partial def readLine (input : IO.FS.Stream) (line : List UInt8) : IO (List UInt8) := do
  let bytes ← input.read 1
  match bytes.toList with
  | [] => return line.reverse
  | b :: _ => if b = 0x0A then return (b :: line).reverse else readLine input (b :: line)

def inputNews : IO Source :=
  IO.asTask (do return .line (← readLine (← IO.getStdin) [])) .dedicated

/-- Wait for the first of some sources; a source that fails is the end of the connection. -/
def await (first : Source) (others : List Source) : IO News := do
  match ← IO.waitAny (first :: others) (Nat.zero_lt_succ _) with
  | .ok news => return news
  | .error _ => return .bytes none

/-! ## The loop -/

/-- Write what the shell has printed and the frames the client has sent. -/
def State.flush (s : State) : IO State := do
  let output := s.desk.shell.terminal.output
  let errors := s.desk.shell.errors
  let stdout ← IO.getStdout
  stdout.putStr (output.drop s.printed).toString
  stdout.flush
  IO.eprint (errors.drop s.complained).toString
  let frames := s.desk.client.link.sent
  for frame in frames.drop s.sent do
    try (s.socket.send (Format.clientFrame.encode frame).toByteArray).block
    catch _ => pure ()
  return { s with printed := output.length, complained := errors.length, sent := frames.length }

/-- Tell the desk what has happened. -/
def State.hear (s : State) (news : News) : IO State := do
  match news with
  | .bytes none => return { s with desk := s.desk.step (.happen .lose) }
  | .bytes (some chunk) =>
    let e := Endpoint.receive ⟨s.desk.client, s.arrivals⟩ chunk.toList
    return { s with
      desk := { s.desk with client := e.client }
      arrivals := e.arrivals
      server := ← serverNews s.socket }
  | .late => return { s with desk := s.desk.step (.happen .expire) }
  | .interrupted => return { s with desk := { s.desk with shell := s.desk.shell.interrupt } }
  | .line bytes =>
    let shell := { s.desk.shell with
      terminal := { s.desk.shell.terminal with input := bytes } }
    let desk := Desk.step { s.desk with shell := shell } .go
    return { s with desk := desk, input := none, printed := s.printed + 2 }

/-- The server's news, as long as the connection is open. -/
def State.serverSource (s : State) : List Source :=
  if s.desk.client.link.isOpen then [s.server] else []

/-- Show the prompt, once for each line, and wait for the line. -/
def State.prompt (s : State) : IO State := do
  match s.input with
  | some input => s.hear (← await input (s.interrupt :: s.serverSource))
  | none =>
    let stdout ← IO.getStdout
    stdout.putStr "> "
    stdout.flush
    return { s with input := some (← inputNews) }

/-- Go on until the shell is done. -/
partial def State.loop (s : State) : IO UInt32 := do
  let s ← s.flush
  match s.desk.shell.phase with
  | .done code => return UInt32.ofNat code
  | .prompt => (← s.prompt).loop
  | _ =>
    if s.desk.client.waiting.isNone then loop { s with desk := s.desk.step .go }
    else if s.desk.client.isReady then loop { s with desk := s.desk.step (.happen .resume) }
    else
      let alarm ← s.desk.client.bound?.toList.mapM alarmNews
      (← s.hear (← await s.interrupt (s.serverSource ++ alarm))).loop

/-- Run the console with its arguments. -/
def run (arguments : Arguments) : IO UInt32 := do
  match ← connect arguments with
  | .error e =>
    IO.eprintln (Shell.fatal e)
    return 1
  | .ok socket =>
    let interrupts ← Signal.Waiter.mk .sigint false
    let code ← State.loop
      { desk := .start arguments [], socket := socket, server := ← serverNews socket,
        interrupt := ← interruptNews interrupts }
    interrupts.stop
    try socket.shutdown.block catch _ => pure ()
    return code

end QueryLanes.Program

def main (arguments : List String) : IO UInt32 := do
  match QueryLanes.Arguments.parse arguments with
  | .help =>
    IO.print QueryLanes.Arguments.helpText
    return 0
  | .version =>
    IO.print QueryLanes.Arguments.versionText
    return 0
  | .misuse m =>
    IO.eprintln (m.message ++ "\n\nFor more information, try '--help'.")
    return 2
  | .run arguments => QueryLanes.Program.run arguments
