import QueryLanes.Proofs.Cutting
import QueryLanes.Proofs.Fields

/-!
# Where reading stops

Reading a frame without a fault stops in one of two ways: the next field would exceed the limit, or
it would not and less than it is there. As formats are in step, both can be told by what frames are
written as, `Format.Oversteps` and `Format.RunsOut`, and the first is looked at first.

- `limit_enforced`: no reading takes more than the limit, and a field that would exceed it is
  refused untouched, whatever length it claims and however the stream goes on;
- `ended_wherever`: a stream that runs out is reported as ended between two frames and inside one
  alike.
-/

namespace QueryLanes

/-- What is left is the stream without its first bytes, and the allowance covered these. -/
theorem Plan.exists_drop {α : Type} (p : Plan α) (c : Cursor) :
    ∃ k ≤ c.allowance, (p.run c).2.rest = c.rest.drop k := by
  induction p generalizing c with
  | done a => exact ⟨0, Nat.zero_le _, rfl⟩
  | fault f => exact ⟨0, Nat.zero_le _, rfl⟩
  | take n next ih =>
    rw [run]
    split_ifs with ha hl
    · exact ⟨0, Nat.zero_le _, rfl⟩
    · exact ⟨0, Nat.zero_le _, rfl⟩
    · obtain ⟨k, hk, hrest⟩ := ih (c.rest.take n) ⟨c.rest.drop n, c.allowance - n⟩
      dsimp only at hk
      refine ⟨n + k, by omega, ?_⟩
      rw [hrest, List.drop_drop]

namespace Format

variable {β : Type}

/-- Up to `r` the stream is what a frame starts with, and the next piece of the frame would exceed
the limit. -/
def Oversteps (f : Format β) (bs r : List UInt8) : Prop :=
  ∃ (x : Frame β) (before : List Piece) (p : Piece) (after : List Piece),
    (frame f).pieces x = before ++ p :: after ∧ bs = before.flatten ++ r ∧
      before.flatten.length ≤ frameLimit ∧ frameLimit < before.flatten.length + p.length

/-- Up to `r` the stream is what a frame starts with, and of the next piece, which would not exceed
the limit, not all is there. -/
def RunsOut (f : Format β) (bs r : List UInt8) : Prop :=
  ∃ (x : Frame β) (before : List Piece) (p : Piece) (after : List Piece),
    (frame f).pieces x = before ++ p :: after ∧ bs = before.flatten ++ r ∧
      before.flatten.length + p.length ≤ frameLimit ∧ r.length < p.length

variable {f : Format β} {bs r : List UInt8}

theorem readFrame_eq {y : Except Stop (Frame β)} : readFrame f bs = (y, r) ↔
    ∃ n, (frame f).plan.run ⟨bs, frameLimit⟩ = (y, ⟨r, n⟩) := by
  constructor
  · intro h
    cases h
    exact ⟨_, rfl⟩
  · rintro ⟨n, h⟩
    rw [readFrame, h]

variable [Nonempty β]

/-- Where reading a frame stops without a fault. -/
theorem InStep.readFrame_eq_stop (h : f.InStep) {e : Stop} (he : ∀ e', e ≠ .fault e') :
    readFrame f bs = (.error e, r) ↔ ∃ (x : Frame β) (before : List Piece) (p : Piece)
      (after : List Piece), (frame f).pieces x = before ++ p :: after ∧ bs = before.flatten ++ r ∧
        before.flatten.length ≤ frameLimit ∧
        Cursor.refuses ⟨r, frameLimit - before.flatten.length⟩ p.size = some e := by
  have hlimit : frameLimit < 2 ^ 64 := by decide
  simp only [readFrame_eq, Plan.run_eq_stop he]
  constructor
  · rintro ⟨n, w, m, hw, rfl, hl, hrefuses⟩
    obtain ⟨x, -, before, p, after, hx, rfl, rfl⟩ := (inStep_frame h w m (by omega)).1 hw
    refine ⟨x, before, p, after, hx, rfl, by omega, ?_⟩
    rwa [hl, Nat.add_sub_cancel_left]
  · rintro ⟨x, before, p, after, hx, rfl, hl, hrefuses⟩
    refine ⟨_, _, _, (inStep_frame h _ _ (by omega)).2 ⟨x, trivial, before, p, after, hx, rfl, rfl⟩,
      rfl, (Nat.add_sub_of_le hl).symm, hrefuses⟩

theorem InStep.readFrame_tooLarge_iff (h : f.InStep) :
    readFrame f bs = (.error .tooLarge, r) ↔ f.Oversteps bs r := by
  rw [h.readFrame_eq_stop (by simp), Oversteps]
  refine exists₄_congr fun x before p after => and_congr_right fun _ => and_congr_right fun _ =>
    and_congr_right fun hl => ?_
  have hlimit : frameLimit < 2 ^ 64 - 1 := by decide
  rw [Cursor.refuses_eq_tooLarge, Piece.size]
  dsimp only
  omega

theorem InStep.readFrame_ended_iff (h : f.InStep) :
    readFrame f bs = (.error .ended, r) ↔ f.RunsOut bs r := by
  rw [h.readFrame_eq_stop (by simp), RunsOut]
  refine exists₄_congr fun x before p after => and_congr_right fun _ => and_congr_right fun _ => ?_
  have hlimit : frameLimit < 2 ^ 64 - 1 := by decide
  rw [Cursor.refuses_eq_ended, Piece.size]
  dsimp only
  omega

/-! ## Claimed lengths -/

omit [Nonempty β] in
/-- A length that claims more than the limit leaves. -/
theorem oversteps_of_length (x : Frame β) (before : List Piece) (bytes : List UInt8)
    (after : List Piece) {w : List UInt8} {n : UInt64}
    (hx : (frame f).pieces x = before ++ blob.pieces bytes ++ after) (hw : w = before.flatten)
    (hbytes : bytes.length = n.toNat) (hl : w.length + 8 ≤ frameLimit)
    (hn : frameLimit < w.length + 8 + n.toNat) : f.Oversteps (w ++ u64.encode n ++ r) r := by
  subst hw
  have hlength : min bytes.length (2 ^ 64 - 1) = n.toNat := by
    have := n.toNat_lt
    omega
  have hflat : (before ++ u64.pieces n).flatten = before.flatten ++ u64.encode n :=
    List.flatten_append
  have hsize : (u64.encode n).length = 8 := by simp [encode, u64]
  refine ⟨x, before ++ u64.pieces n, bytes, after, ?_, by rw [hflat], ?_, ?_⟩
  · rw [hx, pieces_blob, hlength]
    simp [u64]
  · rwa [hflat, List.length_append, hsize]
  · rwa [hflat, List.length_append, hsize, hbytes]

end Format

open Format (u64 tag flag queryOptions)

/-- The bytes of a client's frame after which a length stands: that of the name of a database, or
that of a query. -/
inductive Request.LengthAfter : List UInt8 → Prop where
  | database (lane : Lane) : LengthAfter (u64.encode lane ++ tag.encode 0)
  | query (lane transaction token : UInt64) (options : QueryOptions) :
    LengthAfter (u64.encode lane ++ tag.encode 6 ++ u64.encode transaction ++ u64.encode token ++
      queryOptions.encode options ++ [1])

/-- The bytes of a server's frame after which a length stands: that of an answer, or that of the
description of a refusal. -/
inductive Response.LengthAfter : List UInt8 → Prop where
  | answer (lane token : UInt64) (done : Bool) :
    LengthAfter (u64.encode lane ++ tag.encode 3 ++ u64.encode token ++ flag.encode done ++ [1])
  | description (lane : Lane) : LengthAfter (u64.encode lane ++ tag.encode 4)

theorem Format.length_encode_queryOptions_le (o : QueryOptions) :
    (queryOptions.encode o).length ≤ 12 := by
  rcases o with ⟨_ | _, _ | _, _ | _⟩ <;>
    simp [encode, queryOptions, batchSize, option, flag, tag, u32]

theorem Request.LengthAfter.length_le {w : List UInt8} (h : LengthAfter w) : w.length ≤ 41 := by
  cases h with
  | database lane => simp [Format.encode, u64, tag]
  | query lane transaction token options =>
    have := Format.length_encode_queryOptions_le options
    simp [Format.encode, u64, tag] at this ⊢
    omega

theorem Request.LengthAfter.oversteps {w r : List UInt8} {n : UInt64} (h : LengthAfter w)
    (hn : frameLimit < w.length + 8 + n.toNat) :
    Format.request.Oversteps (w ++ u64.encode n ++ r) r := by
  have hl : w.length + 8 ≤ frameLimit :=
    Nat.le_trans (Nat.add_le_add_right h.length_le 8) (by decide)
  cases h with
  | database lane =>
    obtain ⟨s, hs⟩ := Format.exists_length_encode n.toNat
    exact Format.oversteps_of_length ⟨lane, .openSession s .data⟩
      (u64.pieces lane ++ tag.pieces 0) _ (Format.sessionKind.pieces .data)
      (by simp [Format.frame, Format.request, Format.text]) (by simp [Format.encode]) hs hl hn
  | query lane transaction token options =>
    exact Format.oversteps_of_length
      ⟨lane, .fetch transaction ⟨token, options, some (List.replicate n.toNat 0)⟩⟩
      (u64.pieces lane ++ tag.pieces 6 ++ u64.pieces transaction ++ u64.pieces token ++
        queryOptions.pieces options ++ [[1]]) (List.replicate n.toNat 0) []
      (by simp [Format.frame, Format.request, Format.fetch, Format.option])
      (by simp [Format.encode]) List.length_replicate hl hn

theorem Response.LengthAfter.oversteps {w r : List UInt8} {n : UInt64} (h : LengthAfter w)
    (hn : frameLimit < w.length + 8 + n.toNat) :
    Format.response.Oversteps (w ++ u64.encode n ++ r) r := by
  have hl : w.length + 8 ≤ frameLimit := by
    cases h <;> simp [Format.encode, u64, tag, flag, frameLimit]
  cases h with
  | answer lane token done =>
    exact Format.oversteps_of_length
      ⟨lane, .item ⟨token, done, some (List.replicate n.toNat 0)⟩⟩
      (u64.pieces lane ++ tag.pieces 3 ++ u64.pieces token ++ flag.pieces done ++ [[1]])
      (List.replicate n.toNat 0) []
      (by simp [Format.frame, Format.response, Format.item, Format.option])
      (by simp [Format.encode]) List.length_replicate hl hn
  | description lane =>
    obtain ⟨s, hs⟩ := Format.exists_length_encode n.toNat
    exact Format.oversteps_of_length ⟨lane, .refused s⟩ (u64.pieces lane ++ tag.pieces 4) _ []
      (by simp [Format.frame, Format.response, Format.text]) (by simp [Format.encode]) hs hl hn

/-! ## Both types of frames -/

theorem readFrame_drop {β : Type} (f : Format β) (bs : List UInt8) :
    ∃ k ≤ frameLimit, (readFrame f bs).2 = bs.drop k :=
  (Format.frame f).plan.exists_drop ⟨bs, frameLimit⟩

/-- **The limit is enforced before a field is read.** Reading a frame takes at most the limit from
the front of the stream. It is refused for its size exactly where the next piece of what the stream
starts as would exceed the limit, and that piece and all after it are left. So a length, wherever
one stands, is refused as soon as it claims more than the limit leaves: whatever it claims, however
the stream goes on and however soon it ends. -/
theorem limit_enforced :
    ((∀ bs, ∃ k ≤ frameLimit, (readFrame .request bs).2 = bs.drop k) ∧
      (∀ bs r, readFrame .request bs = (.error .tooLarge, r) ↔ Format.request.Oversteps bs r) ∧
      ∀ w, Request.LengthAfter w → ∀ (n : UInt64) (r : List UInt8),
        frameLimit < w.length + 8 + n.toNat →
          readFrame .request (w ++ u64.encode n ++ r) = (.error .tooLarge, r)) ∧
    (∀ bs, ∃ k ≤ frameLimit, (readFrame .response bs).2 = bs.drop k) ∧
      (∀ bs r, readFrame .response bs = (.error .tooLarge, r) ↔ Format.response.Oversteps bs r) ∧
      ∀ w, Response.LengthAfter w → ∀ (n : UInt64) (r : List UInt8),
        frameLimit < w.length + 8 + n.toNat →
          readFrame .response (w ++ u64.encode n ++ r) = (.error .tooLarge, r) := by
  have : Nonempty Request := ⟨.commit 0⟩
  have : Nonempty Response := ⟨.acknowledged⟩
  refine ⟨⟨readFrame_drop _, fun bs r => ?_, fun w hw n r hn => ?_⟩,
    readFrame_drop _, fun bs r => ?_, fun w hw n r hn => ?_⟩
  · exact Format.inStep_request.readFrame_tooLarge_iff
  · exact Format.inStep_request.readFrame_tooLarge_iff.2 (hw.oversteps hn)
  · exact Format.inStep_response.readFrame_tooLarge_iff
  · exact Format.inStep_response.readFrame_tooLarge_iff.2 (hw.oversteps hn)

/-- Three bytes of an answer that claims the greatest length, and the name of a database that claims
one byte more than the limit leaves, at the end of the stream. -/
theorem limit_enforced_greatestLength :
    (∃ w n, Response.LengthAfter w ∧ n = (0xFFFFFFFFFFFFFFFF : UInt64) ∧
      frameLimit < w.length + 8 + n.toNat ∧
      readFrame .response (w ++ u64.encode n ++ [1, 2, 3]) = (.error .tooLarge, [1, 2, 3])) ∧
    ∃ w n, Request.LengthAfter w ∧ w.length + 8 + n.toNat = frameLimit + 1 ∧
      readFrame .request (w ++ u64.encode n ++ []) = (.error .tooLarge, []) := by
  have hanswer : frameLimit < (u64.encode 7 ++ tag.encode 3 ++ u64.encode 0 ++ flag.encode false ++
      [1]).length + 8 + (0xFFFFFFFFFFFFFFFF : UInt64).toNat :=
    Nat.lt_of_lt_of_le (by decide) (Nat.le_add_left (0xFFFFFFFFFFFFFFFF : UInt64).toNat _)
  have hname : (u64.encode 7 ++ tag.encode 0).length + 8 + (67108845 : UInt64).toNat =
      frameLimit + 1 := congrArg (· + 8 + 67108845) (show _ = 12 from rfl)
  refine ⟨⟨_, _, .answer 7 0 false, rfl, hanswer, ?_⟩, _, 67108845, .database 7, hname, ?_⟩
  · exact limit_enforced.2.2.2 _ (.answer 7 0 false) _ _ hanswer
  · exact limit_enforced.1.2.2 _ (.database 7) _ _ (by rw [hname]; exact Nat.lt_succ_self _)

namespace Format

variable {β : Type}

/-- Reading a frame off the stream reports its end. -/
def ReportsEnd (f : Format β) (bs : List UInt8) : Prop :=
  ∃ e, (readFrame f bs).1 = .error e ∧ e.isEnd = true

/-- The stream is over inside a frame: something of it is there, but of its next piece not all. -/
def EndsInside (f : Format β) (bs : List UInt8) : Prop :=
  bs ≠ [] ∧ ∃ r, f.RunsOut bs r

variable [Nonempty β] {f : Format β}

theorem InStep.reportsEnd_iff (h : f.InStep) (bs : List UInt8) :
    f.ReportsEnd bs ↔ ∃ r, f.RunsOut bs r := by
  constructor
  · rintro ⟨e, he, hend⟩
    rw [Endpoint.isEnd_eq, decide_eq_true_eq] at hend
    subst hend
    exact ⟨_, h.readFrame_ended_iff.1 (Prod.ext he rfl)⟩
  · rintro ⟨r, hr⟩
    exact ⟨.ended, congrArg Prod.fst (h.readFrame_ended_iff.2 hr), rfl⟩

/-- The end is reported of a stream with nothing on it, and of one that is over inside a frame. -/
theorem InStep.reportsEnd_cases (h : f.InStep) (bs : List UInt8) :
    f.ReportsEnd bs ↔ bs = [] ∨ f.EndsInside bs := by
  rw [h.reportsEnd_iff, EndsInside]
  rcases eq_or_ne bs [] with rfl | hbs
  · have hnil : f.ReportsEnd [] := ⟨.ended, readFrame_nil f, rfl⟩
    simp [(h.reportsEnd_iff []).1 hnil]
  · simp [hbs]

/-- The end means that nothing was there unless the stream is over inside a frame. -/
theorem InStep.reportsEnd_iff_nil (h : f.InStep) (bs : List UInt8) :
    (f.ReportsEnd bs ↔ bs = []) ↔ ¬ f.EndsInside bs := by
  rw [h.reportsEnd_cases]
  constructor
  · intro hiff hinside
    exact hinside.1 (hiff.1 (.inr hinside))
  · intro hinside
    exact or_iff_left hinside

/-- Each part of a frame within the limit is a stream that is over inside a frame. -/
theorem InStep.endsInside_of_prefix (h : f.InStep) (hf : f.Lawful) {x : Frame β} {bs : List UInt8}
    (hx : ((frame f).encode x).length ≤ frameLimit) (hbs : bs <+: (frame f).encode x)
    (hnil : bs ≠ []) (hne : bs ≠ (frame f).encode x) : f.EndsInside bs := by
  have hk : bs.length < ((frame f).encode x).length :=
    Nat.lt_of_le_of_ne hbs.length_le fun heq => hne (hbs.eq_of_length heq)
  have hread := hf.readFrame_part hk hx
  rw [← List.prefix_iff_eq_take.1 hbs] at hread
  exact ⟨hnil, _, h.readFrame_ended_iff.1 (Prod.ext hread rfl)⟩

end Format

/-- **The end of a stream is reported between two frames and inside one alike.** Of a stream with
nothing on it the end is reported, and just so of one that is over inside a frame. These alone are
the streams of which the end does not mean that nothing was there, and each part of a frame within
the limit is one of them, wherever it is cut. -/
theorem ended_wherever (bs : List UInt8) :
    ((Format.request.ReportsEnd bs ↔ bs = [] ∨ Format.request.EndsInside bs) ∧
      ((Format.request.ReportsEnd bs ↔ bs = []) ↔ ¬ Format.request.EndsInside bs) ∧
      ∀ x : ClientFrame, (Format.clientFrame.encode x).length ≤ frameLimit →
        bs <+: Format.clientFrame.encode x → bs ≠ [] → bs ≠ Format.clientFrame.encode x →
          Format.request.EndsInside bs) ∧
    (Format.response.ReportsEnd bs ↔ bs = [] ∨ Format.response.EndsInside bs) ∧
      ((Format.response.ReportsEnd bs ↔ bs = []) ↔ ¬ Format.response.EndsInside bs) ∧
      ∀ x : ServerFrame, (Format.serverFrame.encode x).length ≤ frameLimit →
        bs <+: Format.serverFrame.encode x → bs ≠ [] → bs ≠ Format.serverFrame.encode x →
          Format.response.EndsInside bs := by
  have : Nonempty Request := ⟨.commit 0⟩
  have : Nonempty Response := ⟨.acknowledged⟩
  have hrequest := Format.inStep_request
  have hresponse := Format.inStep_response
  refine ⟨⟨hrequest.reportsEnd_cases bs, hrequest.reportsEnd_iff_nil bs, fun x hx hbs hnil hne => ?_⟩,
    hresponse.reportsEnd_cases bs, hresponse.reportsEnd_iff_nil bs, fun x hx hbs hnil hne => ?_⟩
  · exact hrequest.endsInside_of_prefix Format.lawful_request hx hbs hnil hne
  · exact hresponse.endsInside_of_prefix Format.lawful_response hx hbs hnil hne

/-- Five of the twelve bytes of a response: the end is reported although they are there. -/
theorem ended_wherever_insideResponse : ∃ (x : ServerFrame) (bs : List UInt8),
    x = ⟨7, .acknowledged⟩ ∧ bs = (Format.serverFrame.encode x).take 5 ∧ bs.length = 5 ∧
      Format.response.EndsInside bs ∧ Format.response.ReportsEnd bs := by
  have hinside := (ended_wherever ((Format.serverFrame.encode ⟨7, .acknowledged⟩).take 5)).2.2.2
    ⟨7, .acknowledged⟩ (by decide) (List.take_prefix _ _) (by decide) (by decide)
  exact ⟨_, _, rfl, rfl, rfl, hinside, (ended_wherever _).2.1.2 (.inr hinside)⟩

end QueryLanes
