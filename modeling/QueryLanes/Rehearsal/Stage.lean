import QueryLanes.Lane.Dial
import QueryLanes.Rehearsal.Peer

/-!
# The stage

A client and a scripted peer at the two ends of a byte stream. Every frame the client sends is
answered before the client goes on, and every answer is routed; a call then takes what has come for
it, and a bounded wait for something that has not come ends. `Stage.play` carries one call through
to its reply.
-/

namespace QueryLanes.Rehearsal

/-- The answers that readers of a rehearsal give. -/
inductive Answer where
  | text (s : String)
  | bytes (p : Payload)
  | number (n : Nat)
deriving DecidableEq, Repr

/-- The readers of a rehearsal. -/
inductive Reading where
  | text
  | bytes
  /-- Texts that are numerals. -/
  | number
  /-- Bytes, except that every third answer is refused. -/
  | third
deriving DecidableEq, Repr

def Reading.reader : Reading → Reader Answer
  | .text => fun seen p => (Reader.text seen p).map .text
  | .bytes => fun seen p => (Reader.raw seen p).map .bytes
  | .number => fun seen p => do
    match Numeral.read (UInt32.size - 1) (← Reader.text seen p) with
    | .ok n => .ok (.number n)
    | .error _ => .error (.decode "not a number")
  | .third => fun seen p =>
    if (seen.length + 1) % 3 = 0 then .error .timeout else .ok (.bytes p)

variable {α : Type}

structure Stage (α : Type) where
  endpoint : Endpoint α
  peer : Peer := {}
  /-- How many of the client's frames the peer has answered. -/
  answered : Nat := 0

namespace Stage

def client (s : Stage α) : Client α := s.endpoint.client

def withClient (s : Stage α) (c : Client α) : Stage α :=
  { s with endpoint := { s.endpoint with client := c } }

/-- The stage when the curtain rises. -/
def opening (options : ClientOptions) (peer : Peer) : Stage α :=
  { endpoint := { client := { requestTimeout := options.requestTimeout } }, peer := peer }

/-- Whether a connection comes about, when each target either answers or refuses. -/
def connect (options : ClientOptions) (targets : List Bool) : Except Failure Unit := do
  options.validate
  dial options.connectTimeout.isSome
    (targets.map fun live => if live then .ok () else .error "Connection refused (os error 111)")

/-- Whether a connection to an address comes about: the peer answers at its own, and every other
place refuses. -/
def reach (options : ClientOptions) (peerAddress address : String) : Except Failure Unit := do
  options.validate
  if address = peerAddress then connect options [true]
  else match splitAddress address with
    | .error e => .error (.connect e.message)
    | .ok _ => connect options [false]

/-- The peer does one thing. After hanging up it does nothing. -/
def act (s : Stage α) (lane : Lane) (a : Action) : Stage α :=
  if s.peer.hungUp then s
  else match a with
    | .respond own response =>
      { s with endpoint := s.endpoint.receive (Action.bytes (own.getD lane) response) }
    | .raw bytes => { s with endpoint := s.endpoint.receive bytes }
    | .hangUp =>
      { s with peer := { s.peer with hungUp := true } }.withClient (s.client.step .lose).1

/-- The peer acts on a frame. -/
def answer (s : Stage α) (f : ClientFrame) : Stage α :=
  if s.peer.hungUp then s
  else
    let (actions, peer) := s.peer.react f
    actions.foldl (fun s a => s.act f.lane a) { s with peer := peer }

/-- The peer acts on every frame it has not answered yet. -/
def exchange (s : Stage α) : Stage α :=
  let sent := s.client.link.sent
  (sent.drop s.answered).foldl answer { s with answered := sent.length }

/-- The peer acts unasked. -/
def unasked (s : Stage α) (actions : List Action) : Stage α :=
  actions.foldl (fun s a => s.act 0 a) s

/-- Take the waiting call on, at most `fuel` times, until it is over or can only go on waiting. -/
def settle (s : Stage α) : Nat → Stage α × Option (Reply α)
  | 0 => (s, none)
  | fuel + 1 =>
    let s := s.exchange
    match s.client.waiting with
    | none => (s, none)
    | some _ =>
      let (c, reply) := s.client.step (if s.client.isReady then .resume else .expire)
      match reply with
      | some r => ((s.withClient c).exchange, some r)
      | none => (s.withClient c).settle fuel

/-- How many deliveries a call can come to take: those that wait for it, and those that the script
still has. -/
def prospects (s : Stage α) : Nat :=
  (s.client.link.router.inboxes.map fun b => (b.map (·.queue.length)).getD 0).foldr (· + ·) 0
    + s.endpoint.arrivals.pending.length + weight s.peer.replies
    + weight (s.peer.fetchReplies.getD [])

/-- Carry a call through. A call that waits for what never comes has no reply. -/
def play (s : Stage α) (k : Call α) : Stage α × Option (Reply α) :=
  match s.client.call k with
  | (c, some r) => ((s.withClient c).exchange, some r)
  | (c, none) => (s.withClient c).settle (s.prospects + 8)

end Stage

/-- What the peer can tell of the connection. -/
inductive Standing where
  | isOpen
  | clientClosed
  | hungUp
deriving DecidableEq, Repr

def Stage.standing (s : Stage α) : Standing :=
  if s.peer.hungUp then .hungUp
  else if s.client.link.isOpen then .isOpen
  else .clientClosed

end QueryLanes.Rehearsal
