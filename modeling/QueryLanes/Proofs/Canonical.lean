import QueryLanes.Proofs.Plans
import QueryLanes.Proofs.Spelling
import QueryLanes.Wire.Stream

/-!
# The bytes of a frame

A format is `Lawful` if its plan takes for each value the bytes that the value is written with, and
no others. Every format of the wire is: numbers because of their fixed width, a choice because a
number that is no constructor's is a fault, bytes and texts because their length says where they
end. For streams this gives both directions.

- `read_written`: a frame is read back from its bytes, up to the limit exactly;
- `read_canonical`: and from no other bytes.
-/

namespace QueryLanes

namespace Format

variable {α β : Type} {f : Format α}

open Plan (accepts_take accepts_pure accepts_fault)

/-- A value is read from the bytes it is written with, and from no others. -/
def Lawful (f : Format α) : Prop := f.plan.Accepts fun w a => w = f.encode a

theorem Lawful.bind {k : α → Plan β} {V : α → List UInt8 → β → Prop} (h : f.Lawful)
    (hk : ∀ a, (k a).Accepts (V a)) :
    (f.plan >>= k).Accepts fun w b => ∃ a v, V a v b ∧ w = f.encode a ++ v :=
  (Plan.Accepts.bind h hk).congr (by simp)

theorem Lawful.map (h : f.Lawful) (g : α → β) :
    (f.plan >>= fun a => pure (g a)).Accepts fun w b => ∃ a, b = g a ∧ w = f.encode a :=
  (h.bind fun a => accepts_pure (g a)).congr (by simp)

/-! ## Numbers -/

theorem accepts_number (w : Nat) : (Plan.take w fun bs => pure (ofBigEndian bs)).Accepts fun u n =>
    u = bigEndian w n ∧ n < 256 ^ w :=
  (accepts_take fun bs _ => accepts_pure (ofBigEndian bs)).congr fun u n => by
    constructor
    · rintro ⟨bs, v, rfl, ⟨rfl, rfl⟩, rfl⟩
      have hn := ofBigEndian_lt bs
      rw [List.append_nil, eq_bigEndian_iff hn]
      exact ⟨⟨rfl, rfl⟩, hn⟩
    · rintro ⟨rfl, hn⟩
      exact ⟨_, [], by simp, ⟨rfl, ((eq_bigEndian_iff hn).1 rfl).2.symm⟩, by simp⟩

/-- A type that is numbered through, up to the greatest number of the width. -/
theorem lawful_of_number {w : Nat} {of : Nat → α} {number : α → Nat}
    (hp : f.plan = .take w fun bs => pure (of (ofBigEndian bs)))
    (hf : ∀ a, f.encode a = bigEndian w (number a)) (hlt : ∀ a, number a < 256 ^ w)
    (hof : ∀ a, of (number a) = a) (hnumber : ∀ n < 256 ^ w, number (of n) = n) : f.Lawful := by
  rw [Lawful, hp]
  refine ((accepts_number w).bind fun n => accepts_pure (of n)).congr fun u a => ?_
  rw [hf]
  constructor
  · rintro ⟨n, u, v, ⟨rfl, hn⟩, ⟨rfl, rfl⟩, rfl⟩
    rw [hnumber n hn, List.append_nil]
  · rintro rfl
    exact ⟨number a, _, [], ⟨rfl, hlt a⟩, ⟨rfl, (hof a).symm⟩, (List.append_nil _).symm⟩

theorem lawful_u64 : u64.Lawful :=
  lawful_of_number rfl (by simp [u64, encode]) UInt64.toNat_lt (by simp) fun n hn => by
    simpa using hn

theorem lawful_u32 : u32.Lawful :=
  lawful_of_number rfl (by simp [u32, encode]) UInt32.toNat_lt (by simp) fun n hn => by
    simpa using hn

/-! ## Choices -/

/-- The first bytes of a value pick the plan for the rest of it. -/
theorem lawful_of_head {w : Nat} {next : List UInt8 → Plan α} (hp : f.plan = .take w next)
    (hf : ∀ a, w ≤ (f.encode a).length)
    (h : ∀ u, u.length = w → (next u).Accepts fun v a => u ++ v = f.encode a) : f.Lawful := by
  rw [Lawful, hp]
  refine (accepts_take h).congr fun u a => ?_
  constructor
  · rintro ⟨u, v, -, ha, rfl⟩
    exact ha
  · rintro rfl
    refine ⟨(f.encode a).take w, (f.encode a).drop w, ?_, ?_, ?_⟩
    · simpa using hf a
    · rw [List.take_append_drop]
    · rw [List.take_append_drop]

/-- A type whose constructors are told apart by a number in front. -/
theorem lawful_of_tag {next : Nat → Plan α} (hp : f.plan = tag.plan >>= next)
    (hf : ∀ a, 4 ≤ (f.encode a).length)
    (h : ∀ n < 256 ^ 4, (next n).Accepts fun v a => bigEndian 4 n ++ v = f.encode a) :
    f.Lawful := by
  refine lawful_of_head hp hf fun u hu => ?_
  have hn := ofBigEndian_lt u
  rw [hu] at hn
  have hnext := h _ hn
  rwa [← (eq_bigEndian_iff hn).2 ⟨hu, rfl⟩] at hnext

/-- A type of two constructors without fields. -/
theorem lawful_of_two {a b : α} {e : Nat → Fault} (hab : a ≠ b)
    (hp : f.plan = tag.plan >>= fun n => match n with
      | 0 => pure a
      | 1 => pure b
      | n => .fault (e n))
    (hf : ∀ x, x = a ∧ f.encode x = bigEndian 4 0 ∨ x = b ∧ f.encode x = bigEndian 4 1) :
    f.Lawful := by
  refine lawful_of_tag hp (fun x => by rcases hf x with ⟨-, hx⟩ | ⟨-, hx⟩ <;> simp [hx]) ?_
  rintro (_ | _ | n) hn
  · refine (accepts_pure a).congr fun v x => ?_
    rcases hf x with ⟨rfl, hx⟩ | ⟨rfl, hx⟩ <;> simp [hx, hab.symm]
  · refine (accepts_pure b).congr fun v x => ?_
    rcases hf x with ⟨rfl, hx⟩ | ⟨rfl, hx⟩ <;> simp [hx, hab]
  · refine accepts_fault _ fun v x => ?_
    rcases hf x with ⟨-, hx⟩ | ⟨-, hx⟩ <;> simp (disch := omega) [hx]

theorem lawful_sessionKind : sessionKind.Lawful := by
  refine lawful_of_two (by decide : SessionKind.data ≠ .schema) rfl ?_
  rintro (_ | _) <;> simp [encode, sessionKind, tag]

theorem lawful_transactionKind : transactionKind.Lawful := by
  refine lawful_of_two (by decide : TransactionKind.read ≠ .write) rfl ?_
  rintro (_ | _) <;> simp [encode, transactionKind, tag]

/-- A type of two cases that one byte tells apart. -/
theorem lawful_of_bit {p₀ p₁ : Plan α} {e : Nat → Fault}
    (hp : f.plan = .take 1 fun bs => match ofBigEndian bs with
      | 0 => p₀
      | 1 => p₁
      | n => .fault (e n))
    (hf : ∀ a, (∃ v, f.encode a = 0 :: v) ∨ ∃ v, f.encode a = 1 :: v)
    (h₀ : p₀.Accepts fun v a => 0 :: v = f.encode a)
    (h₁ : p₁.Accepts fun v a => 1 :: v = f.encode a) : f.Lawful := by
  refine lawful_of_head hp (fun a => ?_) fun u hu => ?_
  · rcases hf a with ⟨v, hv⟩ | ⟨v, hv⟩ <;> simp [hv]
  · obtain ⟨b, rfl⟩ := List.length_eq_one_iff.1 hu
    have hb : ofBigEndian [b] = b.toNat := by simp [ofBigEndian]
    rw [hb]
    split
    · have hb : b = 0 := UInt8.toNat_inj.1 ‹_›
      exact hb ▸ h₀
    · have hb : b = 1 := UInt8.toNat_inj.1 ‹_›
      exact hb ▸ h₁
    · rename_i hb₀ hb₁
      refine accepts_fault _ fun v a h => ?_
      rcases hf a with ⟨v, hv⟩ | ⟨v, hv⟩
      · rw [hv] at h
        exact hb₀ (congrArg UInt8.toNat (List.cons.inj h).1)
      · rw [hv] at h
        exact hb₁ (congrArg UInt8.toNat (List.cons.inj h).1)

theorem lawful_flag : flag.Lawful :=
  lawful_of_bit rfl (by simp [encode, flag])
    ((accepts_pure false).congr fun v a => by cases a <;> simp [encode, flag])
    ((accepts_pure true).congr fun v a => by cases a <;> simp [encode, flag])

theorem lawful_option (h : f.Lawful) : (option f).Lawful :=
  lawful_of_bit rfl (by rintro (_ | a) <;> simp [encode, option])
    ((accepts_pure none).congr fun v a => by cases a <;> simp [encode, option])
    ((h.map some).congr fun v a => by cases a <;> simp [encode, option])

/-! ## Bytes and texts -/

theorem accepts_blob : blob.plan.Accepts fun w bs =>
    w = bigEndian 8 bs.length ++ bs ∧ bs.length < 2 ^ 64 :=
  ((accepts_number 8).bind fun n => accepts_take (n := n) fun u _ =>
    accepts_pure u).congr fun w bs => by
    constructor
    · rintro ⟨n, u, v, ⟨rfl, hn⟩, ⟨u', v', rfl, ⟨rfl, rfl⟩, rfl⟩, rfl⟩
      rw [List.append_nil]
      exact ⟨rfl, hn⟩
    · rintro ⟨rfl, hl⟩
      exact ⟨_, _, _, ⟨rfl, hl⟩, ⟨bs, [], rfl, ⟨rfl, rfl⟩, (List.append_nil _).symm⟩, rfl⟩

theorem encode_blob (bs : List UInt8) :
    blob.encode bs = bigEndian 8 (min bs.length (2 ^ 64 - 1)) ++ bs := by
  simp [encode, blob]

theorem encode_blob_of_lt {bs : List UInt8} (h : bs.length < 2 ^ 64) :
    blob.encode bs = bigEndian 8 bs.length ++ bs := by
  rw [encode_blob, Nat.min_eq_left (by omega)]

/-- Bytes too many for their length to be counted are refused like any that exceed the allowance:
the greatest length stands in front of them. -/
theorem lawful_blob : blob.Lawful where
  ok {c d bs} hc := by
    rw [accepts_blob.ok hc]
    constructor
    · rintro ⟨w, ⟨rfl, hl⟩, hr⟩
      exact ⟨_, (encode_blob_of_lt hl).symm, hr⟩
    · rintro ⟨w, rfl, hr⟩
      have hl : bs.length < 2 ^ 64 := by
        simp only [encode_blob, List.length_append, length_bigEndian] at hr
        omega
      exact ⟨_, ⟨encode_blob_of_lt hl, hl⟩, hr⟩
  tooLarge := by
    rintro c w r bs hc rfl hr ha
    by_cases hl : bs.length < 2 ^ 64
    · exact accepts_blob.tooLarge hc ⟨encode_blob_of_lt hl, hl⟩ hr ha
    · rw [encode_blob, Nat.min_eq_right (by omega), List.append_assoc] at hr
      have hn : ofBigEndian (c.rest.take 8) = 2 ^ 64 - 1 := by
        rw [hr, List.take_left' (length_bigEndian ..), ofBigEndian_bigEndian,
          Nat.mod_eq_of_lt (by decide)]
      have hc8 : ¬ c.rest.length < 8 := by simp [hr]
      by_cases ha8 : c.allowance < 8
      · rw [blob, Plan.run, if_pos ha8]
      · rw [blob, Plan.run, if_neg ha8, if_neg hc8, hn, Plan.run, if_pos (by simp only; omega)]

theorem encode_text (s : String) : text.encode s = blob.encode (Utf8.encode s) := rfl

theorem lawful_text : text.Lawful := by
  refine Plan.Accepts.congr (W := fun w s => ∃ bs v, (Utf8.decode bs = .ok s ∧ v = []) ∧
    w = blob.encode bs ++ v) (lawful_blob.bind fun bs => ?_) fun w s => ?_
  · cases h : Utf8.decode bs with
    | ok t => exact (accepts_pure t).congr fun v s => by simp [and_comm, eq_comm]
    | error e => exact accepts_fault _ (by simp)
  · simp [Utf8.decode_eq_ok, encode_text]

/-! ## Messages -/

theorem lawful_batchSize : batchSize.Lawful := by
  refine lawful_of_tag rfl (by rintro (n | _) <;> simp [encode, batchSize, tag]) ?_
  rintro (_ | _ | n) hn
  · refine Plan.Accepts.congr (lawful_u32.map _) fun v a => ?_
    cases a <;> simp [encode, batchSize, tag]
  · refine Plan.Accepts.congr (accepts_pure _) fun v a => ?_
    cases a <;> simp [encode, batchSize, tag]
  · refine accepts_fault _ fun v a => ?_
    cases a <;> simp (disch := omega) [encode, batchSize, tag]

theorem lawful_queryOptions : queryOptions.Lawful := by
  refine Plan.Accepts.congr (lawful_batchSize.bind fun size => (lawful_option lawful_flag).bind
    fun infer => (lawful_option lawful_flag).map _) ?_
  rintro w ⟨size, infer, explain⟩
  simp [encode, queryOptions]

theorem lawful_fetch : fetch.Lawful := by
  refine Plan.Accepts.congr (lawful_u64.bind fun token => lawful_queryOptions.bind
    fun options => (lawful_option lawful_blob).map _) ?_
  rintro w ⟨token, options, query⟩
  simp [encode, fetch]

theorem lawful_item : item.Lawful := by
  refine Plan.Accepts.congr (lawful_u64.bind fun token => lawful_flag.bind
    fun done => (lawful_option lawful_blob).map _) ?_
  rintro w ⟨token, done, answer⟩
  simp [encode, item, -Bool.exists_bool]

theorem lawful_frame (h : f.Lawful) : (frame f).Lawful := by
  refine Plan.Accepts.congr (lawful_u64.bind fun lane => h.map _) ?_
  rintro w ⟨lane, body⟩
  simp [encode, frame]

theorem lawful_response : response.Lawful := by
  refine lawful_of_tag rfl (by rintro (_ | _) <;> simp [encode, response, tag]) ?_
  rintro (_ | _ | _ | _ | _ | n) hn
  · refine Plan.Accepts.congr (lawful_u64.map _) fun v a => ?_
    cases a <;> simp [encode, response, tag]
  · refine Plan.Accepts.congr (lawful_u64.map _) fun v a => ?_
    cases a <;> simp [encode, response, tag]
  · refine Plan.Accepts.congr (accepts_pure _) fun v a => ?_
    cases a <;> simp [encode, response, tag]
  · refine Plan.Accepts.congr (lawful_item.map _) fun v a => ?_
    cases a <;> simp [encode, response, tag]
  · refine Plan.Accepts.congr (lawful_text.map _) fun v a => ?_
    cases a <;> simp [encode, response, tag]
  · refine accepts_fault _ fun v a => ?_
    cases a <;> simp (disch := omega) [encode, response, tag]

theorem lawful_request : request.Lawful := by
  refine lawful_of_tag rfl (by rintro (_ | _) <;> simp [encode, request, tag]) ?_
  rintro (_ | _ | _ | _ | _ | _ | _ | n) hn
  · refine Plan.Accepts.congr (lawful_text.bind fun database => lawful_sessionKind.map _)
      fun v a => ?_
    cases a <;> simp [encode, request, tag]
  · refine Plan.Accepts.congr (lawful_u64.map _) fun v a => ?_
    cases a <;> simp [encode, request, tag]
  · refine Plan.Accepts.congr (lawful_u64.bind fun session => lawful_transactionKind.map _)
      fun v a => ?_
    cases a <;> simp [encode, request, tag]
  · refine Plan.Accepts.congr (lawful_u64.map _) fun v a => ?_
    cases a <;> simp [encode, request, tag]
  · refine Plan.Accepts.congr (lawful_u64.map _) fun v a => ?_
    cases a <;> simp [encode, request, tag]
  · refine Plan.Accepts.congr (lawful_u64.map _) fun v a => ?_
    cases a <;> simp [encode, request, tag]
  · refine Plan.Accepts.congr (lawful_u64.bind fun transaction => lawful_fetch.map _) fun v a => ?_
    cases a <;> simp [encode, request, tag]
  · refine accepts_fault _ fun v a => ?_
    cases a <;> simp (disch := omega) [encode, request, tag]

end Format

/-! ## Streams -/

section

variable {β : Type} {f : Format β} {x : Frame β}

theorem Sink.writePieces_unbounded (before : List UInt8) (ps : List Piece) :
    Sink.writePieces { written := before } ps = ({ written := before ++ ps.flatten }, true) := by
  induction ps generalizing before with
  | nil => simp [writePieces]
  | cons p ps ih =>
    have ha : Sink.admits { written := before } p = true := by simp [admits]
    rw [writePieces, if_pos ha]
    exact (ih (before ++ p)).trans (by simp)

/-- No frame is too long for a stream without a bound. -/
theorem Sink.writeFrame_unbounded (before : List UInt8) (x : Frame β) :
    Sink.writeFrame { written := before } f x =
      ({ written := before ++ (Format.frame f).encode x }, .ok ()) := by
  rw [writeFrame, writePieces_unbounded]
  rfl

theorem Format.Lawful.readFrame_eq_ok {bs rest : List UInt8} (h : f.Lawful) :
    readFrame f bs = (.ok x, rest) ↔
      bs = (frame f).encode x ++ rest ∧ ((frame f).encode x).length ≤ frameLimit := by
  have hrun : ∀ d, (frame f).plan.run ⟨bs, frameLimit⟩ = (.ok x, d) ↔ _ :=
    fun d => (lawful_frame h).ok (show frameLimit < 2 ^ 64 by decide)
  constructor
  · intro hr
    have hd : (frame f).plan.run ⟨bs, frameLimit⟩ =
        (.ok x, ((frame f).plan.run ⟨bs, frameLimit⟩).2) := by
      rw [← (Prod.mk.inj hr).1]
    obtain ⟨w, rfl, hbs, hl⟩ := (hrun _).1 hd
    rw [(Prod.mk.inj hr).2] at hbs
    exact ⟨hbs, Nat.le.intro hl.symm⟩
  · rintro ⟨rfl, hl⟩
    rw [readFrame, (hrun ⟨rest, frameLimit - ((frame f).encode x).length⟩).2
      ⟨_, rfl, rfl, (Nat.add_sub_of_le hl).symm⟩]

theorem Format.Lawful.readFrame_tooLarge (h : f.Lawful)
    (hl : frameLimit < ((frame f).encode x).length) (r : List UInt8) :
    (readFrame f ((frame f).encode x ++ r)).1 = .error .tooLarge :=
  (lawful_frame h).tooLarge (show frameLimit < 2 ^ 64 by decide) rfl rfl hl

theorem Format.Lawful.readFrame_written (h : f.Lawful) (x : Frame β) (before r : List UInt8) :
    ∃ w, Sink.writeFrame { written := before } f x = ({ written := before ++ w }, .ok ()) ∧
      if w.length ≤ frameLimit then readFrame f (w ++ r) = (.ok x, r)
      else (readFrame f (w ++ r)).1 = .error .tooLarge := by
  refine ⟨_, Sink.writeFrame_unbounded before x, ?_⟩
  split
  · exact h.readFrame_eq_ok.2 ⟨rfl, ‹_›⟩
  · exact h.readFrame_tooLarge (Nat.lt_of_not_le ‹_›) r

theorem Format.Lawful.readFrame_only (h : f.Lawful) (x : Frame β) :
    ∃ w, Sink.writeFrame {} f x = ({ written := w }, .ok ()) ∧ ∀ bs rest,
      readFrame f bs = (.ok x, rest) ↔ bs = w ++ rest ∧ w.length ≤ frameLimit :=
  ⟨_, Sink.writeFrame_unbounded [] x, fun _ _ => h.readFrame_eq_ok⟩

end

/-- **Reading undoes writing, up to the limit exactly.** A stream without a bound takes every frame.
From the bytes of a frame and whatever follows them the frame is read back, and what follows is
left; if the bytes exceed the limit, the frame is refused for its size. -/
theorem read_written (before r : List UInt8) :
    (∀ x : ClientFrame, ∃ w,
      Sink.writeFrame { written := before } .request x = ({ written := before ++ w }, .ok ()) ∧
        if w.length ≤ frameLimit then readFrame .request (w ++ r) = (.ok x, r)
        else (readFrame .request (w ++ r)).1 = .error .tooLarge) ∧
    ∀ x : ServerFrame, ∃ w,
      Sink.writeFrame { written := before } .response x = ({ written := before ++ w }, .ok ()) ∧
        if w.length ≤ frameLimit then readFrame .response (w ++ r) = (.ok x, r)
        else (readFrame .response (w ++ r)).1 = .error .tooLarge :=
  ⟨fun x => Format.lawful_request.readFrame_written x before r,
    fun x => Format.lawful_response.readFrame_written x before r⟩

example : readFrame .request (bigEndian 8 7 ++ bigEndian 4 3 ++ bigEndian 8 1 ++ [9]) =
    (.ok ⟨7, .commit 1⟩, [9]) := by decide

/-- **Writing undoes reading.** Reading yields a frame exactly from streams that start with the
bytes which writing the frame produces, if these are within the limit, and takes just those. So one
frame is never read from two different sequences of bytes. -/
theorem read_canonical :
    (∀ x : ClientFrame, ∃ w, Sink.writeFrame {} .request x = ({ written := w }, .ok ()) ∧
      ∀ bs rest, readFrame .request bs = (.ok x, rest) ↔ bs = w ++ rest ∧ w.length ≤ frameLimit) ∧
    ∀ x : ServerFrame, ∃ w, Sink.writeFrame {} .response x = ({ written := w }, .ok ()) ∧
      ∀ bs rest, readFrame .response bs = (.ok x, rest) ↔ bs = w ++ rest ∧ w.length ≤ frameLimit :=
  ⟨Format.lawful_request.readFrame_only, Format.lawful_response.readFrame_only⟩

end QueryLanes
