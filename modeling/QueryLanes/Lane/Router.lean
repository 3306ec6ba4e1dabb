import QueryLanes.Failure

/-!
# The router

Responses find the request that waits for them by their lane. A request registers its lane and gets
an `Inbox`; the `Slot` of the lane says which inbox it feeds and whose request it is. A slot lives
until a terminal response has been routed to it, or its owner or the whole connection fails; after
that responses on the lane reach nobody. What an inbox holds stays there until it is polled or the
inbox is dropped.

- `Router.route` never looks at an inbox other than the one the lane's slot feeds;
- `Router.poll` says whether there is something to hand out, something to wait for, or neither.
-/

namespace QueryLanes

/-- Whose request a lane carries: the session and the transaction whose end is its end. -/
structure Owner where
  session : Option UInt64 := none
  transaction : Option UInt64 := none
deriving DecidableEq, Repr

/-- What an inbox is fed: a response, or the failure that ends the wait for one. -/
abbrev Delivery := Except Failure Response

structure Inbox where
  /-- What was delivered and not polled yet, the oldest first. -/
  queue : List Delivery := []
  /-- Whether anything was ever delivered, or is about to be. -/
  arrived : Bool := false

namespace Inbox

/-- Raise the flag: a delivery is on its way. -/
def announce (b : Inbox) : Inbox := { b with arrived := true }

/-- Put a delivery where it is polled. -/
def put (b : Inbox) (d : Delivery) : Inbox := { b with queue := b.queue ++ [d] }

/-- Deliver. The flag is raised before the delivery is there: who looks in between, and looking
takes no lock, finds one without the other. -/
def push (b : Inbox) (d : Delivery) : Inbox := b.announce.put d

@[simp] theorem queue_push (b : Inbox) (d : Delivery) : (b.push d).queue = b.queue ++ [d] := rfl

@[simp] theorem arrived_push (b : Inbox) (d : Delivery) : (b.push d).arrived = true := rfl

end Inbox

/-- The outstanding request of a lane. -/
structure Slot where
  lane : Lane
  owner : Owner
  /-- The number of the inbox it feeds. -/
  inbox : Nat
  /-- Whether a delivery found the inbox dropped. -/
  abandoned : Bool := false
deriving DecidableEq, Repr

structure Router where
  /-- At most one for each lane. -/
  slots : List Slot := []
  /-- By number; a dropped one leaves its place empty. -/
  inboxes : List (Option Inbox) := []
  closed : Bool := false

namespace Router

/-- How many requests still wait for their terminal response. -/
def pending (r : Router) : Nat := r.slots.length

def slot? (r : Router) (lane : Lane) : Option Slot := r.slots.find? (·.lane == lane)

def inbox? (r : Router) (i : Nat) : Option Inbox := r.inboxes[i]?.join

/-- Whether some slot feeds the inbox. -/
def feeds (r : Router) (i : Nat) : Bool := r.slots.any (·.inbox == i)

/-- Release the slot of a lane, if it has one. -/
def withdraw (r : Router) (lane : Lane) : Router :=
  { r with slots := r.slots.filter (·.lane != lane) }

/-- Give a lane a slot with a fresh inbox, whose number is returned. A slot it had is replaced. -/
def register (r : Router) (lane : Lane) (owner : Owner) : Except Failure (Router × Nat) :=
  if r.closed then .error .connectionClosed
  else .ok ({ r.withdraw lane with
    slots := { lane := lane, owner := owner, inbox := r.inboxes.length } :: (r.withdraw lane).slots
    inboxes := r.inboxes ++ [some {}] }, r.inboxes.length)

/-- Deliver to the inboxes that `reached` selects and that are not dropped. -/
def deliver (r : Router) (reached : Nat → Bool) (d : Delivery) : Router :=
  { r with inboxes := r.inboxes.mapIdx fun i b => if reached i then b.map (·.push d) else b }

/-- Note that nobody polls what the lane is fed. -/
def abandon (r : Router) (lane : Lane) : Router :=
  { r with slots := r.slots.map fun s => if s.lane == lane then { s with abandoned := true } else s }

/-- Hand a response to the request of its lane. The last one releases the slot. -/
def route (r : Router) (frame : ServerFrame) : Router :=
  match r.slot? frame.lane with
  | none => r
  | some s =>
    let fed :=
      if s.abandoned then r
      else if (r.inbox? s.inbox).isSome then r.deliver (· == s.inbox) (.ok frame.body)
      else r.abandon frame.lane
    if frame.body.isTerminal then fed.withdraw frame.lane else fed

/-- Fail every request whose owner `doomed` selects; the lanes that were failed are returned. -/
def failWhere (r : Router) (doomed : Owner → Bool) (e : Failure) : Router × List Lane :=
  let (failed, kept) := r.slots.partition (doomed ·.owner)
  ({ r.deliver (fun i => failed.any (·.inbox == i)) (.error e) with slots := kept },
    failed.map (·.lane))

def failTransaction (r : Router) (transaction : UInt64) (e : Failure) : Router × List Lane :=
  r.failWhere (·.transaction == some transaction) e

def failSession (r : Router) (session : UInt64) (e : Failure) : Router × List Lane :=
  r.failWhere (·.session == some session) e

/-- Fail every request and refuse later ones. -/
def close (r : Router) (e : Failure) : Router × List Lane :=
  { r with closed := true }.failWhere (fun _ => true) e

/-- Nobody will poll the inbox any more. -/
def drop (r : Router) (i : Nat) : Router := { r with inboxes := r.inboxes.set i none }

def hasArrived (r : Router) (i : Nat) : Bool := (r.inbox? i).any (·.arrived)

/-- The next delivery of an inbox. An empty one that no slot feeds gives `connectionClosed`; `none`
means that the delivery is still to come. -/
def poll (r : Router) (i : Nat) : Option (Delivery × Router) :=
  match r.inbox? i with
  | none => none
  | some b =>
    match b.queue with
    | d :: rest => some (d, { r with inboxes := r.inboxes.set i (some { b with queue := rest }) })
    | [] => if r.feeds i then none else some (.error .connectionClosed, r)

end Router

end QueryLanes
