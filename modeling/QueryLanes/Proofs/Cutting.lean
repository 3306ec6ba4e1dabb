import QueryLanes.Proofs.Arriving

/-!
# Streams that are cut

A stream may end anywhere, also inside a frame. A part of the bytes of a value is never taken for a
value or for a fault, `Plan.Accepts.run_part`: reading finds that the bytes run out. So from the
front of what some frames were written as, the frames that end before the cut are read, and then the
stream is at its end, `read_cut`.
-/

namespace QueryLanes

/-- Where a part of the bytes of a value is all there is, the bytes run out. -/
theorem Plan.Accepts.run_part {α : Type} {p : Plan α} {W : List UInt8 → α → Prop}
    (h : p.Accepts W) {u v : List UInt8} {a : α} {n : Nat} (hW : W (u ++ v) a) (hv : v ≠ [])
    (hn : n < 2 ^ 64) (hl : (u ++ v).length ≤ n) : (p.run ⟨u, n⟩).1 = .error .ended := by
  by_contra hne
  have hmore := p.run_append ⟨u, n⟩ hne v
  have hwhole : p.run ⟨u ++ v, n⟩ = (.ok a, ⟨[], n - (u ++ v).length⟩) :=
    (h.ok hn).2 ⟨u ++ v, hW, (List.append_nil _).symm, (Nat.add_sub_of_le hl).symm⟩
  have hrest : (p.run ⟨u, n⟩).2.rest ++ v = [] :=
    congrArg (fun r => r.2.rest) (hmore.symm.trans hwhole)
  exact hv (List.append_eq_nil_iff.1 hrest).2

section

variable {β : Type} {f : Format β}

/-- A frame that is cut off is no frame. -/
theorem Format.Lawful.readFrame_part (hf : f.Lawful) {x : Frame β} {k : Nat}
    (hk : k < ((frame f).encode x).length) (hx : ((frame f).encode x).length ≤ frameLimit) :
    (readFrame f (((frame f).encode x).take k)).1 = .error .ended := by
  have hv : ((frame f).encode x).drop k ≠ [] := by
    rw [ne_eq, List.drop_eq_nil_iff]
    exact Nat.not_le.2 hk
  refine (lawful_frame hf).run_part (a := x) (v := ((frame f).encode x).drop k) ?_ hv (by decide) ?_
  · exact List.take_append_drop ..
  · rwa [List.take_append_drop]

theorem readFrame_nil (f : Format β) : (readFrame f []).1 = .error .ended := rfl

/-! ## Places on a stream -/

/-- Frames that stand one after the other, each with the position after it. -/
def Format.placed (f : Format β) (position : Nat) : List (Frame β) → List (Frame β × Nat)
  | [] => []
  | x :: xs =>
    (x, position + ((frame f).encode x).length) ::
      f.placed (position + ((frame f).encode x).length) xs

theorem Format.le_of_mem_placed {position : Nat} {xs : List (Frame β)} {p : Frame β × Nat}
    (hp : p ∈ f.placed position xs) : position ≤ p.2 := by
  induction xs generalizing position with
  | nil => cases hp
  | cons x xs ih =>
    rcases List.mem_cons.1 hp with rfl | hp
    · exact Nat.le_add_right ..
    · exact Nat.le_trans (Nat.le_add_right ..) (ih hp)

/-- A stream without a bound takes all frames, and their ends are where they stand. -/
theorem writeFrames_unbounded (f : Format β) (before : List UInt8) (xs : List (Frame β)) :
    ∃ ends, writeFrames f xs { written := before } =
        ⟨ends, .ok (), { written := before ++ xs.flatMap (Format.frame f).encode }⟩ ∧
      xs.zip ends = f.placed before.length xs ∧ ends.length = xs.length := by
  induction xs generalizing before with
  | nil => exact ⟨[], by simp [writeFrames], rfl, rfl⟩
  | cons x xs ih =>
    obtain ⟨ends, hw, hplaced, hlen⟩ := ih (before ++ (Format.frame f).encode x)
    rw [List.length_append] at hplaced
    refine ⟨(before ++ (Format.frame f).encode x).length :: ends, ?_, ?_, by simp [hlen]⟩
    · rw [writeFrames, Sink.writeFrame_unbounded]
      dsimp only
      rw [hw, List.flatMap_cons, List.append_assoc]
    · rw [List.zip_cons_cons, hplaced, List.length_append]
      rfl

/-- The frames that end at or before the cut are read, and then the bytes run out. -/
theorem Format.Lawful.readFramesFrom_cut (hf : f.Lawful) {xs : List (Frame β)}
    (hx : ∀ x ∈ xs, ((frame f).encode x).length ≤ frameLimit) (position k : Nat) :
    (readFramesFrom f position ((xs.flatMap (frame f).encode).take k)).frames =
        (f.placed position xs).filter (·.2 ≤ position + k) ∧
      (readFramesFrom f position ((xs.flatMap (frame f).encode).take k)).stop = .ended := by
  induction xs generalizing position k with
  | nil =>
    rw [List.flatMap_nil, List.take_nil, readFramesFrom_error (readFrame_nil f)]
    exact ⟨rfl, rfl⟩
  | cons x xs ih =>
    obtain ⟨hx, hxs⟩ := List.forall_mem_cons.1 hx
    rw [List.flatMap_cons, placed]
    by_cases hk : ((frame f).encode x).length ≤ k
    · -- the first frame is whole, and the cut is in what follows it
      have hbytes : ((frame f).encode x ++ xs.flatMap (frame f).encode).take k =
          (frame f).encode x ++ (xs.flatMap (frame f).encode).take (k - ((frame f).encode x).length) := by
        rw [List.take_append, List.take_of_length_le hk]
      have hread := hf.readFrame_eq_ok.2 ⟨hbytes, hx⟩
      have hafter (r : List UInt8) : ((frame f).encode x ++ r).length - r.length =
          ((frame f).encode x).length := by
        rw [List.length_append, Nat.add_sub_cancel]
      obtain ⟨hframes, hstop⟩ := ih hxs (position + ((frame f).encode x).length)
        (k - ((frame f).encode x).length)
      have hcut : position + ((frame f).encode x).length + (k - ((frame f).encode x).length) =
          position + k := by omega
      rw [hcut] at hframes
      rw [readFramesFrom_ok hread, hbytes]
      dsimp only
      rw [hafter, hframes, hstop, List.filter_cons_of_pos (by simpa using hk)]
      exact ⟨rfl, rfl⟩
    · -- the cut is in the first frame
      have hk : k < ((frame f).encode x).length := Nat.lt_of_not_le hk
      have hnone : ((x, position + ((frame f).encode x).length) ::
          f.placed (position + ((frame f).encode x).length) xs).filter (·.2 ≤ position + k) = [] := by
        rw [List.filter_eq_nil_iff]
        intro p hp
        have hle : position + ((frame f).encode x).length ≤ p.2 := by
          rcases List.mem_cons.1 hp with rfl | hp
          · exact Nat.le_refl _
          · exact le_of_mem_placed hp
        simp only [decide_eq_true_eq]
        omega
      rw [List.take_append_of_le_length (Nat.le_of_lt hk),
        readFramesFrom_error (hf.readFrame_part hk hx), hnone]
      exact ⟨rfl, rfl⟩

/-- What frames are written as, and what is read from the first `k` bytes of it. -/
theorem Format.Lawful.read_cut_of_written (hf : f.Lawful) {xs : List (Frame β)}
    (hx : ∀ x ∈ xs, ((frame f).encode x).length ≤ frameLimit) (k : Nat) :
    let w := writeFrames f xs {}
    let r := readFrames f (w.sink.written.take k)
    w.outcome = .ok () ∧ w.sink.written = xs.flatMap (frame f).encode ∧
      w.ends.length = xs.length ∧ r.frames = (xs.zip w.ends).filter (·.2 ≤ k) ∧
      r.stop = .ended := by
  obtain ⟨ends, hw, hplaced, hlen⟩ := writeFrames_unbounded f [] xs
  obtain ⟨hframes, hstop⟩ := hf.readFramesFrom_cut hx 0 k
  rw [Nat.zero_add] at hframes
  dsimp only
  rw [hw]
  dsimp only
  rw [List.nil_append, hplaced]
  exact ⟨rfl, rfl, hlen, hframes, hstop⟩

end

/-- **Of a stream that is cut, the frames before the cut are read, and nothing else.** However many
frames are written one after the other, each within the limit, and wherever what they are written as
is cut: reading gives exactly the frames that end at or before the cut, each with the position at
which it ends, and then finds the stream at its end. -/
theorem read_cut (k : Nat) :
    (∀ xs : List ClientFrame, (∀ x ∈ xs, (Format.clientFrame.encode x).length ≤ frameLimit) →
      let w := writeFrames .request xs {}
      let r := readFrames .request (w.sink.written.take k)
      w.outcome = .ok () ∧ w.sink.written = xs.flatMap Format.clientFrame.encode ∧
        w.ends.length = xs.length ∧ r.frames = (xs.zip w.ends).filter (·.2 ≤ k) ∧
        r.stop = .ended) ∧
    ∀ xs : List ServerFrame, (∀ x ∈ xs, (Format.serverFrame.encode x).length ≤ frameLimit) →
      let w := writeFrames .response xs {}
      let r := readFrames .response (w.sink.written.take k)
      w.outcome = .ok () ∧ w.sink.written = xs.flatMap Format.serverFrame.encode ∧
        w.ends.length = xs.length ∧ r.frames = (xs.zip w.ends).filter (·.2 ≤ k) ∧
        r.stop = .ended :=
  ⟨fun _ hx => Format.lawful_request.read_cut_of_written hx k,
    fun _ hx => Format.lawful_response.read_cut_of_written hx k⟩

/-- Two requests of 20 bytes, cut inside the second, and two responses, cut at the end of the first. -/
theorem read_cut_insideSecond :
    (∃ xs : List ClientFrame, xs = [⟨7, .commit 1⟩, ⟨8, .closeSession 2⟩] ∧
      (∀ x ∈ xs, (Format.clientFrame.encode x).length ≤ frameLimit) ∧
      let r := readFrames .request ((writeFrames .request xs {}).sink.written.take 33)
      r.frames = [(⟨7, .commit 1⟩, 20)] ∧ r.stop = .ended) ∧
    ∃ xs : List ServerFrame, xs = [⟨7, .acknowledged⟩, ⟨8, .refused "no"⟩] ∧
      (∀ x ∈ xs, (Format.serverFrame.encode x).length ≤ frameLimit) ∧
      let r := readFrames .response ((writeFrames .response xs {}).sink.written.take 12)
      r.frames = [(⟨7, .acknowledged⟩, 12)] ∧ r.stop = .ended := by
  refine ⟨⟨_, rfl, by decide, ?_⟩, ⟨_, rfl, by decide, ?_⟩⟩
  · obtain ⟨-, -, -, hframes, hstop⟩ := (read_cut 33).1 [⟨7, .commit 1⟩, ⟨8, .closeSession 2⟩] (by decide)
    exact ⟨hframes.trans (by decide), hstop⟩
  · obtain ⟨-, -, -, hframes, hstop⟩ :=
      (read_cut 12).2 [⟨7, .acknowledged⟩, ⟨8, .refused "no"⟩] (by decide)
    exact ⟨hframes.trans (by decide), hstop⟩

end QueryLanes
