import QueryLanes.Wire.Format

/-!
# Streams of frames

Frames stand on a stream one after the other with nothing between them. A `Sink` is a stream that
is written: it may refuse to grow beyond a bound, and it may refuse to be flushed. `readFrames`
takes frames from the front of some bytes until one cannot be read.

- `writeFrames` stops at the first frame that is not accepted, whose first pieces may be written;
- `Arrivals` collects bytes as they come and gives out each frame once it is whole.
-/

namespace QueryLanes

/-- The most bytes that one frame may take, 64 MiB. -/
def frameLimit : Nat := 67108864

variable {β : Type}

/-! ## Writing -/

structure Sink where
  written : List UInt8 := []
  /-- The length the stream refuses to exceed. -/
  room : Option Nat := none
  flushes : Bool := true
deriving DecidableEq, Repr

/-- Why a frame was not written. -/
inductive WriteFault where
  /-- The stream refused a piece. -/
  | refused
  /-- The stream refused to be flushed. -/
  | unflushed
deriving DecidableEq, Repr

def Sink.admits (s : Sink) (p : Piece) : Bool :=
  p.isEmpty || s.room.all fun n => s.written.length + p.length ≤ n

/-- Write the pieces until the stream refuses one, and say whether it took them all. -/
def Sink.writePieces (s : Sink) : List Piece → Sink × Bool
  | [] => (s, true)
  | p :: r =>
    if s.admits p then { s with written := s.written ++ p }.writePieces r else (s, false)

/-- Write one frame and flush. -/
def Sink.writeFrame (s : Sink) (f : Format β) (x : Frame β) : Sink × Except WriteFault Unit :=
  match s.writePieces ((Format.frame f).pieces x) with
  | (t, true) => (t, if t.flushes then .ok () else .error .unflushed)
  | (t, false) => (t, .error .refused)

/-- What came of writing some frames. -/
structure Written where
  /-- How long the stream was after each frame that was written. -/
  ends : List Nat
  outcome : Except WriteFault Unit
  sink : Sink

/-- Write frames in order, up to the first that is not accepted. -/
def writeFrames (f : Format β) : List (Frame β) → Sink → Written
  | [], s => ⟨[], .ok (), s⟩
  | x :: r, s =>
    match s.writeFrame f x with
    | (t, .ok ()) =>
      let w := writeFrames f r t
      { w with ends := t.written.length :: w.ends }
    | (t, .error e) => ⟨[], .error e, t⟩

/-! ## Reading -/

/-- Read one frame from the front of some bytes; what is left follows. -/
def readFrame (f : Format β) (bs : List UInt8) : Except Stop (Frame β) × List UInt8 :=
  let r := (Format.frame f).plan.run ⟨bs, frameLimit⟩
  (r.1, r.2.rest)

theorem readFrame_length_lt {f : Format β} {bs rest : List UInt8} {x : Frame β}
    (h : readFrame f bs = (.ok x, rest)) : rest.length < bs.length := by
  simp only [readFrame, Format.frame_plan, Prod.mk.injEq] at h
  rw [← h.2]
  exact Plan.run_rest_lt (by decide) h.1

/-- The frames at the front of some bytes. -/
structure Reading (β : Type) where
  /-- Each frame, and the position after it. -/
  frames : List (Frame β × Nat)
  /-- Why no further frame could be read. -/
  stop : Stop
  /-- The bytes after the last frame. -/
  rest : List UInt8

def readFramesFrom (f : Format β) (position : Nat) (bs : List UInt8) : Reading β :=
  match h : readFrame f bs with
  | (.ok x, rest) =>
    have := readFrame_length_lt h
    let after := position + (bs.length - rest.length)
    let r := readFramesFrom f after rest
    { r with frames := (x, after) :: r.frames }
  | (.error e, _) => ⟨[], e, bs⟩
termination_by bs.length

/-- Read frames until one cannot be read. -/
def readFrames (f : Format β) (bs : List UInt8) : Reading β := readFramesFrom f 0 bs

/-- A stream that fails reports its failure where a sound one would report its end. -/
def Stop.onBroken : Stop → Stop
  | .ended => .broken
  | s => s

/-! ## Bytes as they come -/

/-- The bytes that have arrived and belong to no frame given out yet. -/
structure Arrivals where
  pending : List UInt8 := []
deriving DecidableEq, Repr

/-- More bytes arrive: the frames that are whole now, and whether what follows them can never
become one. -/
def Arrivals.feed (a : Arrivals) (chunk : List UInt8) (f : Format β) :
    Arrivals × List (Frame β) × Bool :=
  let r := readFrames f (a.pending ++ chunk)
  (⟨r.rest⟩, r.frames.map (·.1), !r.stop.isEnd)

end QueryLanes
