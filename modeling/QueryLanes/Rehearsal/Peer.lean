import QueryLanes.Client.Step

/-!
# A scripted peer

The other party of a rehearsal: a server that answers each frame of the client by the next element
of a script, or in a default way where the script has nothing. It sees the client's frames and
nothing else of it, and what it answers are bytes.
-/

namespace QueryLanes.Rehearsal

/-- One thing the peer does. A response goes out on the lane of the frame it answers unless it names
a lane of its own. -/
inductive Action where
  | respond (lane : Option Lane) (response : Response)
  /-- Bytes as they are. -/
  | raw (bytes : List UInt8)
  /-- End the connection; nothing is read or written after that. -/
  | hangUp
deriving Repr

/-- What the peer does for the frames to come, in order; `none` asks for the default. -/
abbrev Replies := List (Option (List Action))

structure Peer where
  replies : Replies := []
  /-- The replies to fetches, if they have a script of their own. -/
  fetchReplies : Option Replies := none
  /-- The number that the next default reply gives out. -/
  nextId : UInt64 := 1
  hungUp : Bool := false
deriving Repr

namespace Peer

/-- The script's reply to a request, if there is one left. -/
def scripted (p : Peer) (request : Request) : Option (List Action) × Peer :=
  match request, p.fetchReplies with
  | .fetch _ _, some replies =>
    (replies.head?.join, { p with fetchReplies := some replies.tail })
  | _, _ => (p.replies.head?.join, { p with replies := p.replies.tail })

/-- What is done where the script says nothing: give a number to what is opened, leave a fetch
unanswered, and acknowledge all else. -/
def byDefault (p : Peer) : Request → List Action × Peer
  | .openSession _ _ =>
    ([.respond none (.sessionOpened p.nextId)], { p with nextId := p.nextId + 1 })
  | .openTransaction _ _ =>
    ([.respond none (.transactionOpened p.nextId)], { p with nextId := p.nextId + 1 })
  | .fetch _ _ => ([], p)
  | _ => ([.respond none .acknowledged], p)

/-- What the peer does on a frame. -/
def react (p : Peer) (f : ClientFrame) : List Action × Peer :=
  match p.scripted f.body with
  | (some actions, p) => (actions, p)
  | (none, p) => p.byDefault f.body

/-- A script for the frames to come; what is left of an older one is forgotten. -/
def follow (p : Peer) (replies : Replies) : Peer := { p with replies := replies }

end Peer

/-- The bytes of a response. -/
def Action.bytes (lane : Lane) (response : Response) : List UInt8 :=
  Format.serverFrame.encode ⟨lane, response⟩

/-- A bound on the number of responses that an action may bring. -/
def Action.weight : Action → Nat
  | .respond _ _ => 1
  | .raw bytes => bytes.length
  | .hangUp => 1

def weight (replies : Replies) : Nat :=
  (replies.map fun
    | some actions => 1 + (actions.map Action.weight).foldr (· + ·) 0
    | none => 1).foldr (· + ·) 0

end QueryLanes.Rehearsal
