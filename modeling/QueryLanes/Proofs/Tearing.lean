import QueryLanes.Proofs.Cutting

/-!
# Streams that fill up

A stream may refuse to grow beyond a bound. A frame is handed to it in pieces, and the first piece
that would exceed the bound is refused: what was taken of the frame before it stays on the stream,
torn off, `Format.Tears`. `Format.Fills` says what comes of writing frames to such a stream, and
`torn_never_read` that a reader finds on it the frames that were reported as written, and no other.
-/

namespace QueryLanes

section

variable {β : Type} {f : Format β} {room : Nat}

/-! ## Pieces -/

/-- Until a stream is longer than its bound, it takes the pieces that leave it within the bound. -/
theorem Sink.admits_iff {before : List UInt8} (h : before.length ≤ room) (p : Piece) :
    Sink.admits { written := before, room := some room } p = true ↔
      before.length + p.length ≤ room := by
  cases p with
  | nil => simp [admits, h]
  | cons b p => simp [admits]

/-- Pieces that fit together are all written. -/
theorem Sink.writePieces_of_fits {before : List UInt8} {ps : List Piece}
    (h : before.length + ps.flatten.length ≤ room) :
    Sink.writePieces { written := before, room := some room } ps =
      ({ written := before ++ ps.flatten, room := some room }, true) := by
  induction ps generalizing before with
  | nil => simp [writePieces]
  | cons p ps ih =>
    rw [List.flatten_cons, List.length_append] at h
    have hp := (admits_iff (show before.length ≤ room by omega) p).2 (by omega)
    have hrest : (before ++ p).length + ps.flatten.length ≤ room := by
      rw [List.length_append]
      omega
    rw [writePieces, if_pos hp, List.flatten_cons, ← List.append_assoc]
    exact ih hrest

/-- Where pieces do not fit together, they are written up to the first that exceeds the bound. -/
theorem Sink.writePieces_of_exceeds {before : List UInt8} {ps : List Piece}
    (hb : before.length ≤ room) (h : room < before.length + ps.flatten.length) :
    ∃ taken p after, ps = taken ++ p :: after ∧
      before.length + taken.flatten.length ≤ room ∧
      room < before.length + taken.flatten.length + p.length ∧
      Sink.writePieces { written := before, room := some room } ps =
        ({ written := before ++ taken.flatten, room := some room }, false) := by
  induction ps generalizing before with
  | nil =>
    rw [List.flatten_nil, List.length_nil] at h
    omega
  | cons p ps ih =>
    by_cases hp : before.length + p.length ≤ room
    · have hlen : (before ++ p).length = before.length + p.length := List.length_append
      rw [List.flatten_cons, List.length_append] at h
      obtain ⟨taken, q, after, rfl, hfits, hexceeds, hw⟩ :=
        @ih (before ++ p) (by omega) (by omega)
      refine ⟨p :: taken, q, after, rfl, ?_, ?_, ?_⟩
      · rw [List.flatten_cons, List.length_append]
        omega
      · rw [List.flatten_cons, List.length_append]
        omega
      · rw [writePieces, if_pos ((admits_iff hb p).2 hp), List.flatten_cons, ← List.append_assoc]
        exact hw
    · refine ⟨[], p, ps, rfl, hb, by simpa using hp, ?_⟩
      rw [writePieces, if_neg (mt (admits_iff hb p).1 hp)]
      simp

/-! ## Frames -/

/-- How many bytes some frames are written as. -/
def Format.size (f : Format β) (xs : List (Frame β)) : Nat := (xs.flatMap (frame f).encode).length

@[simp] theorem Format.size_nil (f : Format β) : f.size [] = 0 := rfl

@[simp] theorem Format.size_cons (f : Format β) (x : Frame β) (xs : List (Frame β)) :
    f.size (x :: xs) = ((frame f).encode x).length + f.size xs := by
  simp [size]

@[simp] theorem Format.size_append (f : Format β) (xs ys : List (Frame β)) :
    f.size (xs ++ ys) = f.size xs + f.size ys := by
  simp [size]

/-- What a stream with `room` bytes left takes of frames the first of which does not fit. -/
inductive Format.Tears (f : Format β) (room : Nat) : List (Frame β) → List UInt8 → Prop
  /-- There is no frame left. -/
  | nothing : f.Tears room [] []
  /-- Of the next frame the pieces before one that exceeds the room. -/
  | next {x : Frame β} {xs : List (Frame β)} {taken : List Piece} {p : Piece} {after : List Piece}
      (hx : (frame f).pieces x = taken ++ p :: after) (hfits : taken.flatten.length ≤ room)
      (hexceeds : room < taken.flatten.length + p.length) : f.Tears room (x :: xs) taken.flatten

/-- What is torn off is a part of the next frame, and not all of it. -/
theorem Format.Tears.isPart {xs : List (Frame β)} {torn : List UInt8} (h : f.Tears room xs torn) :
    (xs = [] ∧ torn = []) ∨ ∃ x xs', xs = x :: xs' ∧ torn <+: (frame f).encode x ∧
      torn.length ≤ room ∧ room < ((frame f).encode x).length := by
  cases h with
  | nothing => exact .inl ⟨rfl, rfl⟩
  | @next x xs taken p after hx hfits hexceeds =>
    have hbytes : (frame f).encode x = taken.flatten ++ (p ++ after.flatten) := by
      rw [encode, hx, List.flatten_append, List.flatten_cons]
    refine .inr ⟨x, xs, rfl, hbytes ▸ List.prefix_append _ _, hfits, ?_⟩
    rw [hbytes, List.length_append, List.length_append]
    omega

/-- What comes of writing the frames `xs` to an empty stream that takes `room` bytes: the frames
`ys` are written, and of the next one only `torn`. -/
structure Format.Fills (f : Format β) (room : Nat) (xs ys : List (Frame β)) (torn : List UInt8)
    (w : Written) : Prop where
  isPrefix : ys <+: xs
  fits : f.size ys ≤ room
  /-- No longer prefix fits. -/
  longest : ∀ zs, zs <+: xs → f.size zs ≤ room → zs <+: ys
  /-- These are reported as written, with the places where they end. -/
  reported : w.ends = (f.placed 0 ys).map (·.2)
  /-- The next one, if there is one, is refused. -/
  outcome : w.outcome = if ys.length = xs.length then .ok () else .error .refused
  written : w.sink.written = ys.flatMap (frame f).encode ++ torn
  /-- Nothing is written after the piece that is refused. -/
  tears : f.Tears (room - f.size ys) (xs.drop ys.length) torn

/-- No longer prefix fits than the frames before one that does not. -/
theorem Format.prefix_of_size_le {ys rest zs : List (Frame β)} (hz : zs <+: ys ++ rest)
    (hsize : f.size zs ≤ room)
    (hrest : ∀ x more, rest = x :: more → room < f.size ys + ((frame f).encode x).length) :
    zs <+: ys := by
  obtain ⟨after, hz⟩ := hz
  rcases List.append_eq_append_iff.1 hz with ⟨between, rfl, -⟩ | ⟨_ | ⟨x, beyond⟩, rfl, hbeyond⟩
  · exact List.prefix_append zs between
  · simp
  · have hx := hrest x _ hbeyond
    rw [size_append, size_cons] at hsize
    omega

theorem Sink.writeFrame_of_fits {before : List UInt8} {x : Frame β}
    (h : before.length + ((Format.frame f).encode x).length ≤ room) :
    Sink.writeFrame { written := before, room := some room } f x =
      ({ written := before ++ (Format.frame f).encode x, room := some room }, .ok ()) := by
  rw [writeFrame, writePieces_of_fits h]
  rfl

theorem Sink.writeFrame_of_exceeds {before : List UInt8} {x : Frame β} (xs : List (Frame β))
    (hb : before.length ≤ room)
    (h : room < before.length + ((Format.frame f).encode x).length) :
    ∃ torn, f.Tears (room - before.length) (x :: xs) torn ∧
      Sink.writeFrame { written := before, room := some room } f x =
        ({ written := before ++ torn, room := some room }, .error .refused) := by
  obtain ⟨taken, p, after, hx, hfits, hexceeds, hw⟩ := writePieces_of_exceeds hb h
  refine ⟨taken.flatten, .next hx (by omega) (by omega), ?_⟩
  rw [writeFrame, hw]

/-- The frames that fit are written, and of the next one what is torn off. -/
theorem writeFrames_bounded {before : List UInt8} (hb : before.length ≤ room)
    (xs : List (Frame β)) : ∃ ys rest torn, xs = ys ++ rest ∧ before.length + f.size ys ≤ room ∧
      f.Tears (room - (before.length + f.size ys)) rest torn ∧
      writeFrames f xs { written := before, room := some room } =
        ⟨(f.placed before.length ys).map (·.2), if rest = [] then .ok () else .error .refused,
          { written := before ++ ys.flatMap (Format.frame f).encode ++ torn, room := some room }⟩ := by
  induction xs generalizing before with
  | nil => exact ⟨[], [], [], rfl, hb, .nothing, by simp [writeFrames, Format.placed]⟩
  | cons x xs ih =>
    by_cases hx : before.length + ((Format.frame f).encode x).length ≤ room
    · have hlen : (before ++ (Format.frame f).encode x).length =
          before.length + ((Format.frame f).encode x).length := List.length_append
      obtain ⟨ys, rest, torn, rfl, hfits, htears, hw⟩ :=
        @ih (before ++ (Format.frame f).encode x) (by omega)
      have hsize : before.length + f.size (x :: ys) =
          (before ++ (Format.frame f).encode x).length + f.size ys := by
        rw [Format.size_cons]
        omega
      refine ⟨x :: ys, rest, torn, rfl, hsize ▸ hfits, hsize ▸ htears, ?_⟩
      rw [writeFrames, Sink.writeFrame_of_fits hx]
      dsimp only
      rw [hw, hlen]
      simp [Format.placed]
    · obtain ⟨torn, htears, hw⟩ := Sink.writeFrame_of_exceeds xs hb (Nat.lt_of_not_le hx)
      refine ⟨[], x :: xs, torn, rfl, hb, htears, ?_⟩
      rw [writeFrames, hw]
      simp [Format.placed]

/-! ## Reading -/

theorem Format.length_placed (f : Format β) (position : Nat) (xs : List (Frame β)) :
    (f.placed position xs).length = xs.length := by
  induction xs generalizing position with
  | nil => rfl
  | cons x xs ih => simp [placed, ih]

/-- Frames that stand one after the other are read, and then what follows stops the reader. -/
theorem Format.Lawful.readFramesFrom_flatMap (hf : f.Lawful) {ys : List (Frame β)}
    (hy : ∀ y ∈ ys, ((frame f).encode y).length ≤ frameLimit) {r : List UInt8} {e : Stop}
    (hr : (readFrame f r).1 = .error e) (position : Nat) :
    readFramesFrom f position (ys.flatMap (frame f).encode ++ r) =
      ⟨f.placed position ys, e, r⟩ := by
  induction ys generalizing position with
  | nil => exact readFramesFrom_error hr position
  | cons y ys ih =>
    obtain ⟨hy, hys⟩ := List.forall_mem_cons.1 hy
    have hafter (rest : List UInt8) : ((frame f).encode y ++ rest).length - rest.length =
        ((frame f).encode y).length := by
      rw [List.length_append, Nat.add_sub_cancel]
    rw [List.flatMap_cons, List.append_assoc, readFramesFrom_ok (hf.readFrame_eq_ok.2 ⟨rfl, hy⟩)]
    dsimp only
    rw [hafter, ih hys, placed]

/-- As many frames are written as are reported. -/
theorem Format.Fills.eq_take {xs ys : List (Frame β)} {torn : List UInt8} {w : Written}
    (h : f.Fills room xs ys torn w) {ends : List Nat} (he : w.ends = ends) :
    ys = xs.take ends.length := by
  have hlen : ends.length = ys.length := by
    rw [← he, h.reported, List.length_map, length_placed]
  rw [hlen]
  exact List.prefix_iff_eq_take.1 h.isPrefix

/-- What is torn off is never read as a frame. -/
theorem Format.Lawful.readFrame_torn (hf : f.Lawful) {xs : List (Frame β)} {torn : List UInt8}
    (hx : ∀ x ∈ xs, ((frame f).encode x).length ≤ frameLimit) (h : f.Tears room xs torn) :
    (readFrame f torn).1 = .error .ended := by
  rcases h.isPart with ⟨-, rfl⟩ | ⟨x, xs', rfl, hpart, hfits, hexceeds⟩
  · exact readFrame_nil f
  · rw [List.prefix_iff_eq_take.1 hpart]
    exact hf.readFrame_part (by omega) (hx x List.mem_cons_self)

/-- What frames are written as to a stream that fills up, and what is read from it. -/
theorem Format.Lawful.fills (hf : f.Lawful) (room : Nat) {xs : List (Frame β)}
    (hx : ∀ x ∈ xs, ((frame f).encode x).length ≤ frameLimit) :
    let w := writeFrames f xs { room := some room }
    ∃ ys torn, f.Fills room xs ys torn w ∧ w.sink.written <+: xs.flatMap (frame f).encode ∧
      readFrames f w.sink.written = ⟨f.placed 0 ys, .ended, torn⟩ := by
  obtain ⟨ys, rest, torn, rfl, hfits, htears, hw⟩ :=
    @writeFrames_bounded _ f room [] (Nat.zero_le room) xs
  rw [List.length_nil, Nat.zero_add] at hfits htears
  dsimp only
  rw [hw]
  obtain ⟨hys, hrest⟩ := List.forall_mem_append.1 hx
  refine ⟨ys, torn, ?_, ?_, hf.readFramesFrom_flatMap hys (hf.readFrame_torn hrest htears) 0⟩
  · refine
      { isPrefix := List.prefix_append ys rest
        fits := hfits
        longest := fun zs hz hsize => prefix_of_size_le hz hsize fun x more hmore => ?_
        reported := rfl
        outcome := by simp
        written := rfl
        tears := by rwa [List.drop_left] }
    rcases htears.isPart with ⟨rfl, -⟩ | ⟨x', xs', rfl, -, -, hexceeds⟩
    · cases hmore
    · cases hmore
      omega
  · rw [List.flatMap_append, List.nil_append, List.prefix_append_right_inj]
    rcases htears.isPart with ⟨-, rfl⟩ | ⟨x, xs', rfl, hpart, -, -⟩
    · exact List.nil_prefix
    · exact hpart.trans (List.flatMap_cons ▸ List.prefix_append _ _)

end

/-- **A torn frame is never read.** Frames within the limit are written one after the other to a
stream that refuses to grow beyond a bound. Reported as written is the longest prefix of them that
fits; the next frame is refused, and nothing is written after the piece of it that would exceed the
bound. A reader of the stream finds exactly the frames reported, where they were reported to end,
and then that the bytes run out. -/
theorem torn_never_read (room : Nat) :
    (∀ xs : List ClientFrame, (∀ x ∈ xs, (Format.clientFrame.encode x).length ≤ frameLimit) →
      let w := writeFrames .request xs { room := some room }
      ∃ ys torn, Format.request.Fills room xs ys torn w ∧
        w.sink.written <+: xs.flatMap Format.clientFrame.encode ∧
        readFrames .request w.sink.written = ⟨Format.request.placed 0 ys, .ended, torn⟩) ∧
    ∀ xs : List ServerFrame, (∀ x ∈ xs, (Format.serverFrame.encode x).length ≤ frameLimit) →
      let w := writeFrames .response xs { room := some room }
      ∃ ys torn, Format.response.Fills room xs ys torn w ∧
        w.sink.written <+: xs.flatMap Format.serverFrame.encode ∧
        readFrames .response w.sink.written = ⟨Format.response.placed 0 ys, .ended, torn⟩ :=
  ⟨fun _ hx => Format.lawful_request.fills room hx, fun _ hx => Format.lawful_response.fills room hx⟩

/-- A stream of forty bytes takes an answer without a byte, which is written as thirty, and the lane of
the frame after it; one of twenty bytes takes the first of two requests of that length. -/
theorem torn_never_read_laneTornOff :
    (∃ (xs : List ServerFrame) (w : Written), xs = [⟨7, .item (.data [])⟩, ⟨8, .acknowledged⟩] ∧
      (∀ x ∈ xs, (Format.serverFrame.encode x).length ≤ frameLimit) ∧
      w = writeFrames .response xs { room := some 40 } ∧ w.ends = [30] ∧
      w.outcome = .error .refused ∧
      readFrames .response w.sink.written =
        ⟨[(⟨7, .item (.data [])⟩, 30)], .ended, bigEndian 8 8⟩) ∧
    ∃ (xs : List ClientFrame) (w : Written), xs = [⟨7, .commit 1⟩, ⟨8, .closeSession 2⟩] ∧
      (∀ x ∈ xs, (Format.clientFrame.encode x).length ≤ frameLimit) ∧
      w = writeFrames .request xs { room := some 20 } ∧ w.ends = [20] ∧
      w.outcome = .error .refused ∧
      (readFrames .request w.sink.written).frames = [(⟨7, .commit 1⟩, 20)] := by
  refine ⟨?_, ?_⟩
  · obtain ⟨w, hw⟩ : ∃ w, writeFrames .response [⟨7, .item (.data [])⟩, ⟨8, .acknowledged⟩]
      { room := some 40 } = w := ⟨_, rfl⟩
    have hlimit : ∀ x ∈ ([⟨7, .item (.data [])⟩, ⟨8, .acknowledged⟩] : List ServerFrame),
        (Format.serverFrame.encode x).length ≤ frameLimit := by decide
    obtain ⟨ys, torn, hfills, -, hread⟩ := (torn_never_read 40).2 _ hlimit
    rw [hw] at hfills hread
    have hends : w.ends = [30] := hw ▸ by decide
    have hys : ys = [⟨7, .item (.data [])⟩] := hfills.eq_take hends
    have hbytes : w.sink.written =
        Format.serverFrame.encode ⟨7, .item (.data [])⟩ ++ bigEndian 8 8 := hw ▸ by decide
    have htorn : torn = bigEndian 8 8 := by
      have hwritten := hfills.written
      rw [hbytes, hys, List.flatMap_singleton] at hwritten
      exact (List.append_cancel_left hwritten).symm
    refine ⟨_, w, rfl, hlimit, hw.symm, hends, hw ▸ by decide, ?_⟩
    rw [hread, hys, htorn]
    rfl
  · obtain ⟨w, hw⟩ : ∃ w, writeFrames .request [⟨7, .commit 1⟩, ⟨8, .closeSession 2⟩]
      { room := some 20 } = w := ⟨_, rfl⟩
    have hlimit : ∀ x ∈ ([⟨7, .commit 1⟩, ⟨8, .closeSession 2⟩] : List ClientFrame),
        (Format.clientFrame.encode x).length ≤ frameLimit := by decide
    obtain ⟨ys, torn, hfills, -, hread⟩ := (torn_never_read 20).1 _ hlimit
    rw [hw] at hfills hread
    have hends : w.ends = [20] := hw ▸ by decide
    have hys : ys = [⟨7, .commit 1⟩] := hfills.eq_take hends
    refine ⟨_, w, rfl, hlimit, hw.symm, hends, hw ▸ by decide, ?_⟩
    rw [hread, hys]
    rfl

end QueryLanes
