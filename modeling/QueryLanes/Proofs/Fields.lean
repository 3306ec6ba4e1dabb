import QueryLanes.Proofs.Canonical

/-!
# Fields

A reader takes a frame in fields, and a writer hands it out in pieces. `Plan.Wants` says which field
a plan takes next after which bytes, `Piece.IsNext` which piece comes next after which bytes, and a
format is `InStep` if these are the same: after any bytes its plan wants what some value is written
on with. Every format of the wire is, `inStep_request` and `inStep_response`.

- `Plan.run_eq_stop`: where a plan stops without a fault, the cursor refuses it the field it wants;
- `Format.InStep.bind` and `Format.inStep_of_tag`: what follows a field, and what a number in front
  picks, carry being in step from the parts of a value to the whole.
-/

namespace QueryLanes

/-! ## What a plan wants -/

namespace Plan

variable {α β : Type} {p : Plan α}

/-- After the bytes `w` the plan wants `m` more at once. -/
def Wants : Plan α → List UInt8 → Nat → Prop
  | .done _, _, _ | .fault _, _, _ => False
  | .take n next, w, m => w = [] ∧ m = n ∨ ∃ u v, u.length = n ∧ w = u ++ v ∧ (next u).Wants v m

/-- The bytes `w` are what the plan takes for the value `a`. -/
def Yields : Plan α → List UInt8 → α → Prop
  | .done b, w, a => w = [] ∧ a = b
  | .fault _, _, _ => False
  | .take n next, w, a => ∃ u v, u.length = n ∧ w = u ++ v ∧ (next u).Yields v a

theorem wants_bind (p : Plan α) (k : α → Plan β) (w : List UInt8) (m : Nat) :
    (p >>= k).Wants w m ↔ p.Wants w m ∨ ∃ a u v, p.Yields u a ∧ w = u ++ v ∧ (k a).Wants v m := by
  change (p.bind k).Wants w m ↔ _
  induction p generalizing w with
  | done a => simp [bind, Wants, Yields]
  | fault f => simp [bind, Wants, Yields]
  | take n next ih =>
    simp only [bind, Wants, Yields, ih]
    constructor
    · rintro (h | ⟨u, v, hu, rfl, h | ⟨a, x, y, hx, rfl, hy⟩⟩)
      · exact .inl (.inl h)
      · exact .inl (.inr ⟨u, v, hu, rfl, h⟩)
      · exact .inr ⟨a, u ++ x, y, ⟨u, x, hu, rfl, hx⟩, (List.append_assoc ..).symm, hy⟩
    · rintro ((h | ⟨u, v, hu, rfl, h⟩) | ⟨a, x, y, ⟨u, v, hu, rfl, hv⟩, rfl, hy⟩)
      · exact .inl h
      · exact .inr ⟨u, v, hu, rfl, .inl h⟩
      · exact .inr ⟨u, v ++ y, hu, List.append_assoc .., .inr ⟨a, v, y, hv, rfl, hy⟩⟩

/-- A plan follows the bytes of a value to the end, and the bytes after them are left. -/
theorem run_of_yields {w r : List UInt8} {a : α} {n : Nat} (h : p.Yields w a) :
    p.run ⟨w ++ r, w.length + n⟩ = (.ok a, ⟨r, n⟩) := by
  induction p generalizing w with
  | done b =>
    obtain ⟨rfl, rfl⟩ := h
    simp [run]
  | fault f => exact h.elim
  | take m next ih =>
    obtain ⟨u, v, rfl, rfl, h⟩ := h
    have hfits : ¬ (u ++ v).length + n < u.length := by
      rw [List.length_append]
      omega
    have hthere : ¬ (u ++ v ++ r).length < u.length := by
      simp only [List.length_append]
      omega
    have hleft : (u ++ v).length + n - u.length = v.length + n := by
      rw [List.length_append]
      omega
    rw [run, if_neg hfits, if_neg hthere]
    dsimp only
    rw [List.append_assoc, List.take_left, List.drop_left, hleft]
    exact ih u h

theorem exists_yields {c d : Cursor} {a : α} (h : p.run c = (.ok a, d)) :
    ∃ w, p.Yields w a ∧ c.rest = w ++ d.rest := by
  induction p generalizing c with
  | done b =>
    cases h
    exact ⟨[], ⟨rfl, rfl⟩, rfl⟩
  | fault f => cases h
  | take n next ih =>
    rw [run] at h
    split_ifs at h with ha hl
    · cases h
    · cases h
    · obtain ⟨v, hv, hrest⟩ := ih _ h
      refine ⟨c.rest.take n ++ v, ⟨_, v, ?_, rfl, hv⟩, ?_⟩
      · exact List.length_take_of_le (Nat.le_of_not_lt hl)
      · rw [List.append_assoc, ← hrest, List.take_append_drop]

/-- For bytes that an allowance can cover, what a plan takes is what it accepts. -/
theorem Accepts.yields_iff {W : List UInt8 → α → Prop} (h : p.Accepts W) {w : List UInt8} {a : α}
    (hw : w.length < 2 ^ 64) : p.Yields w a ↔ W w a := by
  have hrun := h.ok (c := ⟨w, w.length⟩) (d := ⟨[], 0⟩) (a := a) hw
  constructor
  · intro hy
    have hok := run_of_yields (r := []) (n := 0) hy
    rw [List.append_nil, Nat.add_zero] at hok
    obtain ⟨w', hW, hbytes, -⟩ := hrun.1 hok
    obtain rfl : w = w' := hbytes.trans (List.append_nil w')
    exact hW
  · intro hW
    obtain ⟨w', hy, hbytes⟩ := exists_yields (hrun.2 ⟨w, hW, by simp, by simp⟩)
    obtain rfl : w = w' := hbytes.trans (List.append_nil w')
    exact hy

end Plan

/-- Why a field of `n` bytes cannot be taken where the cursor stands, if it cannot. The allowance
counts first. -/
def Cursor.refuses (c : Cursor) (n : Nat) : Option Stop :=
  if c.allowance < n then some .tooLarge else if c.rest.length < n then some .ended else none

theorem Cursor.refuses_eq_tooLarge (c : Cursor) (n : Nat) :
    c.refuses n = some .tooLarge ↔ c.allowance < n := by
  unfold refuses
  split_ifs <;> simp [*]

theorem Cursor.refuses_eq_ended (c : Cursor) (n : Nat) :
    c.refuses n = some .ended ↔ n ≤ c.allowance ∧ c.rest.length < n := by
  unfold refuses
  split_ifs with ha hl
  · simp [ha]
  · simp [Nat.not_lt.1 ha, hl]
  · simp [hl]

/-- Where a plan stops without a fault, the cursor refuses it the field it wants. -/
theorem Plan.run_eq_stop {α : Type} {p : Plan α} {c d : Cursor} {e : Stop}
    (he : ∀ f, e ≠ .fault f) : p.run c = (.error e, d) ↔
      ∃ w m, p.Wants w m ∧ c.rest = w ++ d.rest ∧ c.allowance = w.length + d.allowance ∧
        d.refuses m = some e := by
  induction p generalizing c with
  | done a => simp [run, Wants]
  | fault f => simp [run, Wants, (he f).symm]
  | take n next ih =>
    constructor
    · intro h
      rw [run] at h
      by_cases ha : c.allowance < n
      · rw [if_pos ha] at h
        cases h
        exact ⟨[], n, .inl ⟨rfl, rfl⟩, rfl, (Nat.zero_add _).symm, if_pos ha⟩
      · rw [if_neg ha] at h
        by_cases hl : c.rest.length < n
        · rw [if_pos hl] at h
          cases h
          refine ⟨[], n, .inl ⟨rfl, rfl⟩, rfl, (Nat.zero_add _).symm, ?_⟩
          rw [Cursor.refuses, if_neg ha, if_pos hl]
        · rw [if_neg hl] at h
          obtain ⟨v, m, hv, hrest, hleft, hrefuses⟩ := (ih _).1 h
          have htake : (c.rest.take n).length = n := List.length_take_of_le (Nat.le_of_not_lt hl)
          refine ⟨c.rest.take n ++ v, m, .inr ⟨_, v, htake, rfl, hv⟩, ?_, ?_, hrefuses⟩
          · rw [List.append_assoc, ← hrest, List.take_append_drop]
          · rw [List.length_append, htake]
            dsimp only at hleft
            omega
    · rintro ⟨w, m, ⟨rfl, rfl⟩ | ⟨u, v, rfl, rfl, hv⟩, hrest, hleft, hrefuses⟩
      · have hc : c = d := by
          rcases c with ⟨_, _⟩
          rcases d with ⟨_, _⟩
          simp_all
        subst hc
        unfold Cursor.refuses at hrefuses
        rw [run]
        split_ifs at hrefuses ⊢ with ha hl
        · cases hrefuses
          rfl
        · cases hrefuses
          rfl
      · rw [List.length_append] at hleft
        have hfits : ¬ c.allowance < u.length := by omega
        have hthere : ¬ c.rest.length < u.length := by
          rw [hrest]
          simp only [List.length_append]
          omega
        rw [run, if_neg hfits, if_neg hthere, hrest, List.append_assoc, List.take_left,
          List.drop_left]
        exact (ih u).2 ⟨v, m, hv, rfl, by dsimp only; omega, hrefuses⟩

/-! ## What comes next in pieces -/

namespace Piece

/-- How much a piece claims: its length, as far as it can be claimed. -/
def size (p : Piece) : Nat := min p.length (2 ^ 64 - 1)

/-- Among the pieces one of `n` bytes comes next after the bytes `w`. -/
def IsNext (ps : List Piece) (w : List UInt8) (n : Nat) : Prop :=
  ∃ before p after, ps = before ++ p :: after ∧ w = before.flatten ∧ n = p.size

@[simp] theorem isNext_nil (w : List UInt8) (n : Nat) : IsNext [] w n ↔ False := by
  simp [IsNext]

theorem isNext_cons (q : Piece) (ps : List Piece) (w : List UInt8) (n : Nat) :
    IsNext (q :: ps) w n ↔ w = [] ∧ n = q.size ∨ ∃ v, w = q ++ v ∧ IsNext ps v n := by
  constructor
  · rintro ⟨_ | ⟨q', before⟩, p, after, hps, rfl, rfl⟩
    · cases hps
      exact .inl ⟨rfl, rfl⟩
    · cases hps
      exact .inr ⟨_, rfl, before, p, after, rfl, rfl, rfl⟩
  · rintro (⟨rfl, rfl⟩ | ⟨v, rfl, before, p, after, rfl, rfl, rfl⟩)
    · exact ⟨[], q, ps, rfl, rfl, rfl⟩
    · exact ⟨q :: before, p, after, rfl, rfl, rfl⟩

theorem isNext_append (ps qs : List Piece) (w : List UInt8) (n : Nat) :
    IsNext (ps ++ qs) w n ↔ IsNext ps w n ∨ ∃ v, w = ps.flatten ++ v ∧ IsNext qs v n := by
  induction ps generalizing w with
  | nil => simp
  | cons p ps ih =>
    simp only [List.cons_append, isNext_cons, ih, List.flatten_cons]
    constructor
    · rintro (h | ⟨v, rfl, h | ⟨v', rfl, h⟩⟩)
      · exact .inl (.inl h)
      · exact .inl (.inr ⟨v, rfl, h⟩)
      · exact .inr ⟨v', (List.append_assoc ..).symm, h⟩
    · rintro ((h | ⟨v, rfl, h⟩) | ⟨v, rfl, h⟩)
      · exact .inl h
      · exact .inr ⟨v, rfl, .inl h⟩
      · exact .inr ⟨ps.flatten ++ v, List.append_assoc .., .inr ⟨v, rfl, h⟩⟩

end Piece

/-! ## In step -/

open Piece (IsNext isNext_cons isNext_append isNext_nil)

/-- After any bytes that an allowance can cover, the plan wants what one of the values that `P`
selects is written on with. -/
def Plan.InStep {α β : Type} (p : Plan α) (P : β → Prop) (pieces : β → List Piece) : Prop :=
  ∀ w m, w.length < 2 ^ 64 → (p.Wants w m ↔ ∃ b, P b ∧ IsNext (pieces b) w m)

namespace Plan

variable {α β γ : Type} {p : Plan α} {P : β → Prop} {pieces : β → List Piece}

/-- Nothing more is read, and nothing more is written. -/
theorem inStep_end (hp : ∀ w m, ¬ p.Wants w m) (hb : ∀ b, P b → pieces b = []) :
    p.InStep P pieces := by
  intro w m _
  refine iff_of_false (hp w m) ?_
  rintro ⟨b, hP, h⟩
  rw [hb b hP] at h
  exact (isNext_nil w m).1 h

/-- The values that `P` selects may be named in another way. -/
theorem InStep.of_names {Q : γ → Prop} {pieces' : γ → List Piece} (h : p.InStep Q pieces')
    (e : γ → β) (he : ∀ b, P b ↔ ∃ c, Q c ∧ e c = b) (hpieces : ∀ c, pieces (e c) = pieces' c) :
    p.InStep P pieces := by
  intro w m hw
  rw [h w m hw]
  constructor
  · rintro ⟨c, hc, hn⟩
    exact ⟨e c, (he _).2 ⟨c, hc, rfl⟩, by rwa [hpieces]⟩
  · rintro ⟨b, hb, hn⟩
    obtain ⟨c, hc, rfl⟩ := (he b).1 hb
    exact ⟨c, hc, by rwa [← hpieces]⟩

end Plan

namespace Format

variable {α β γ : Type} {f : Format α}

/-- Reading wants what writing hands out. -/
def InStep (f : Format α) : Prop := f.plan.InStep (fun _ => True) f.pieces

/-- A field of a value, and then the rest of the value. -/
theorem InStep.bind [Nonempty β] {k : α → Plan γ} {rest : β → List Piece} (h : f.InStep)
    (hf : f.Lawful) (hk : ∀ a, (k a).InStep (fun _ => True) rest) :
    (f.plan >>= k).InStep (fun _ => True) fun b : α × β => f.pieces b.1 ++ rest b.2 := by
  intro w m hw
  simp only [Plan.wants_bind, h w m hw, isNext_append, true_and]
  constructor
  · rintro (⟨a, hn⟩ | ⟨a, u, v, hu, rfl, hv⟩)
    · obtain ⟨b⟩ := ‹Nonempty β›
      exact ⟨(a, b), .inl hn⟩
    · rw [List.length_append] at hw
      have hu := (Plan.Accepts.yields_iff hf (by omega)).1 hu
      obtain ⟨b, -, hn⟩ := (hk a v m (by omega)).1 hv
      exact ⟨(a, b), .inr ⟨v, by rw [hu]; rfl, hn⟩⟩
  · rintro ⟨⟨a, b⟩, hn | ⟨v, rfl, hn⟩⟩
    · exact .inl ⟨a, hn⟩
    · rw [List.length_append] at hw
      have hu : (f.encode a).length < 2 ^ 64 := Nat.lt_of_le_of_lt (Nat.le_add_right ..) hw
      refine .inr ⟨a, _, v, (Plan.Accepts.yields_iff hf hu).2 rfl, rfl, ?_⟩
      exact (hk a v m (by omega)).2 ⟨b, trivial, hn⟩

/-- The last field of a value. -/
theorem InStep.map (h : f.InStep) (g : α → γ) :
    (f.plan >>= fun a => pure (g a)).InStep (fun _ => True) f.pieces := by
  intro w m hw
  have hpure (a : α) (v : List UInt8) : ¬ (pure (g a) : Plan γ).Wants v m := id
  simp only [Plan.wants_bind, hpure, and_false, exists_false, or_false, h w m hw]

/-- The first piece of a value picks what is read after it. -/
theorem inStep_of_head [Nonempty α] {n : Nat} {next : List UInt8 → Plan α}
    (hp : f.plan = .take n next) (hn : n < 2 ^ 64)
    (hf : ∀ a, ∃ u ps, f.pieces a = u :: ps ∧ u.length = n)
    (h : ∀ u, u.length = n → (next u).InStep (fun a => (f.pieces a).head? = some u)
      fun a => (f.pieces a).tail) : f.InStep := by
  intro w m hw
  have hsize {u : Piece} (hu : u.length = n) : u.size = n := by
    rw [Piece.size, hu]
    omega
  rw [hp, Plan.Wants]
  constructor
  · rintro (⟨rfl, rfl⟩ | ⟨u, v, hu, rfl, hv⟩)
    · obtain ⟨a⟩ := ‹Nonempty α›
      obtain ⟨u, ps, ha, hu⟩ := hf a
      refine ⟨a, trivial, ?_⟩
      rw [ha, isNext_cons]
      exact .inl ⟨rfl, (hsize hu).symm⟩
    · rw [List.length_append] at hw
      obtain ⟨a, hhead, hn⟩ := (h u hu v m (by omega)).1 hv
      obtain ⟨u', ps, ha, -⟩ := hf a
      dsimp only at hhead hn
      rw [ha] at hhead hn
      cases hhead
      refine ⟨a, trivial, ?_⟩
      rw [ha, isNext_cons]
      exact .inr ⟨v, rfl, hn⟩
  · rintro ⟨a, -, hnext⟩
    obtain ⟨u, ps, ha, hu⟩ := hf a
    rw [ha, isNext_cons] at hnext
    rcases hnext with ⟨rfl, rfl⟩ | ⟨v, rfl, hnext⟩
    · exact .inl ⟨rfl, hsize hu⟩
    · rw [List.length_append] at hw
      refine .inr ⟨u, v, hu, rfl, (h u hu v m (by omega)).2 ⟨a, ?_, ?_⟩⟩ <;> dsimp only <;> rw [ha]
      · rfl
      · exact hnext

/-- A type whose values are written as one piece each. -/
theorem inStep_of_piece [Nonempty α] {n : Nat} {next : List UInt8 → Plan α}
    (hp : f.plan = .take n next) (hn : n < 2 ^ 64)
    (hf : ∀ a, ∃ u, f.pieces a = [u] ∧ u.length = n) (h : ∀ u w m, ¬ (next u).Wants w m) :
    f.InStep := by
  refine inStep_of_head hp hn (fun a => ?_) fun u _ => Plan.inStep_end (h u) fun a _ => ?_
  · obtain ⟨u, ha, hu⟩ := hf a
    exact ⟨u, [], ha, hu⟩
  · obtain ⟨u, ha, -⟩ := hf a
    rw [ha]
    rfl

theorem inStep_u64 : u64.InStep :=
  inStep_of_piece rfl (by decide) (fun _ => ⟨_, rfl, length_bigEndian ..⟩) fun _ _ _ => id

theorem inStep_u32 : u32.InStep :=
  inStep_of_piece rfl (by decide) (fun _ => ⟨_, rfl, length_bigEndian ..⟩) fun _ _ _ => id

theorem inStep_flag : flag.InStep := by
  refine inStep_of_piece rfl (by decide) (fun _ => ⟨_, rfl, rfl⟩) fun u w m => ?_
  split <;> exact id

/-! ### Choices -/

theorem inStep_option (h : f.InStep) : (option f).InStep := by
  refine inStep_of_head rfl (by decide) (fun a => ?_) fun u hu => ?_
  · cases a with
    | none => exact ⟨[0], [], rfl, rfl⟩
    | some a => exact ⟨[1], f.pieces a, rfl, rfl⟩
  · obtain ⟨b, rfl⟩ := List.length_eq_one_iff.1 hu
    have hb : ofBigEndian [b] = b.toNat := by simp [ofBigEndian]
    rw [hb]
    split
    · have hb : b = 0 := UInt8.toNat_inj.1 ‹_›
      subst hb
      refine Plan.inStep_end (fun _ _ => id) fun a ha => ?_
      cases a with
      | none => rfl
      | some a => simp [option] at ha
    · have hb : b = 1 := UInt8.toNat_inj.1 ‹_›
      subst hb
      refine (h.map some).of_names some (fun a => ?_) fun _ => rfl
      cases a <;> simp [option]
    · rename_i hb₀ hb₁
      refine Plan.inStep_end (fun _ _ => id) fun a ha => ?_
      cases a with
      | none =>
        simp only [option, List.head?_cons, Option.some.injEq, List.cons.injEq, and_true] at ha
        exact absurd (congrArg UInt8.toNat ha.symm) hb₀
      | some a =>
        simp only [option, List.head?_cons, Option.some.injEq, List.cons.injEq, and_true] at ha
        exact absurd (congrArg UInt8.toNat ha.symm) hb₁

/-- A type whose constructors are told apart by a number in front. -/
theorem inStep_of_tag [Nonempty α] (number : α → Nat) {next : Nat → Plan α}
    (hp : f.plan = tag.plan >>= next) (hlt : ∀ a, number a < 256 ^ 4)
    (hf : ∀ a, ∃ ps, f.pieces a = bigEndian 4 (number a) :: ps)
    (h : ∀ k, (next k).InStep (number · = k) fun a => (f.pieces a).tail) : f.InStep := by
  have hhead (u : List UInt8) (hu : u.length = 4) (a : α) :
      (f.pieces a).head? = some u ↔ number a = ofBigEndian u := by
    obtain ⟨ps, ha⟩ := hf a
    rw [ha, List.head?_cons, Option.some.injEq, eq_comm, eq_bigEndian_iff (hlt a),
      and_iff_right hu]
    exact eq_comm
  refine inStep_of_head hp (by decide) (fun a => ?_) fun u hu => ?_
  · obtain ⟨ps, ha⟩ := hf a
    exact ⟨_, ps, ha, length_bigEndian ..⟩
  · simp only [hhead u hu]
    exact h _

/-! ### Bytes and texts -/

theorem pieces_blob (bs : List UInt8) :
    blob.pieces bs = [bigEndian 8 (min bs.length (2 ^ 64 - 1)), bs] := rfl

theorem inStep_blob : blob.InStep := by
  refine inStep_of_head rfl (by decide) (fun bs => ⟨_, [bs], rfl, length_bigEndian ..⟩)
    fun u hu => ?_
  have hn := ofBigEndian_lt u
  rw [hu] at hn
  simp only [pieces_blob, List.head?_cons, Option.some.injEq, List.tail_cons]
  have hlt (k : Nat) : min k (2 ^ 64 - 1) < 256 ^ 8 := by omega
  intro w m _
  have hwants : (Plan.take (ofBigEndian u) Plan.done).Wants w m ↔ w = [] ∧ m = ofBigEndian u := by
    simp [Plan.Wants]
  rw [hwants]
  constructor
  · rintro ⟨rfl, rfl⟩
    have hsize : min (List.replicate (ofBigEndian u) (0 : UInt8)).length (2 ^ 64 - 1) =
        ofBigEndian u := by
      rw [List.length_replicate]
      omega
    refine ⟨List.replicate (ofBigEndian u) 0, ?_, (isNext_cons ..).2 (.inl ⟨rfl, hsize.symm⟩)⟩
    beta_reduce
    rw [hsize]
    exact ((eq_bigEndian_iff hn).2 ⟨hu, rfl⟩).symm
  · rintro ⟨bs, hhead, hnext⟩
    rw [isNext_cons] at hnext
    obtain ⟨rfl, rfl⟩ | ⟨v, -, hv⟩ := hnext
    · rw [← hhead, ofBigEndian_bigEndian, Nat.mod_eq_of_lt (hlt _)]
      exact ⟨rfl, rfl⟩
    · exact ((isNext_nil ..).1 hv).elim

/-- There are texts of every length. -/
theorem exists_length_encode (k : Nat) : ∃ s : String, (Utf8.encode s).length = k := by
  refine ⟨String.ofList (List.replicate k 'a'), ?_⟩
  rw [Utf8.encode, String.toList_ofList]
  induction k with
  | zero => rfl
  | succ k ih =>
    rw [List.replicate_succ, List.flatMap_cons, List.length_append, ih]
    exact Nat.add_comm ..

theorem inStep_text : text.InStep := by
  intro w m hw
  have htext : text.plan.Wants w m ↔ blob.plan.Wants w m := by
    refine (Plan.wants_bind ..).trans (or_iff_left ?_)
    rintro ⟨bs, u, v, -, -, hv⟩
    split at hv <;> exact hv
  rw [htext, inStep_blob w m hw]
  constructor
  · rintro ⟨bs, -, hnext⟩
    obtain ⟨s, hs⟩ := exists_length_encode bs.length
    refine ⟨s, trivial, ?_⟩
    have hsize : Piece.size (Utf8.encode s) = Piece.size bs := by
      rw [Piece.size, Piece.size, hs]
    rw [pieces_blob, isNext_cons] at hnext
    rw [show text.pieces s = blob.pieces (Utf8.encode s) from rfl, pieces_blob, isNext_cons, hs]
    simpa only [isNext_cons, isNext_nil, hsize, and_false, exists_false, or_false] using hnext
  · rintro ⟨s, -, hnext⟩
    exact ⟨Utf8.encode s, trivial, hnext⟩

/-! ### Messages -/

/-- A type of two constructors without fields. -/
theorem inStep_of_two {a b : α} {e : Nat → Fault}
    (hp : f.plan = tag.plan >>= fun n => match n with
      | 0 => pure a
      | 1 => pure b
      | n => .fault (e n))
    (hf : ∀ x, ∃ u, f.pieces x = [u] ∧ u.length = 4) : f.InStep := by
  have : Nonempty α := ⟨a⟩
  refine inStep_of_piece hp (by decide) hf fun u w m => ?_
  dsimp only [tag, Plan.bind]
  split <;> exact id

theorem inStep_sessionKind : sessionKind.InStep :=
  inStep_of_two rfl (by rintro (_ | _) <;> exact ⟨_, rfl, rfl⟩)

theorem inStep_transactionKind : transactionKind.InStep :=
  inStep_of_two rfl (by rintro (_ | _) <;> exact ⟨_, rfl, rfl⟩)

theorem inStep_batchSize : batchSize.InStep := by
  have : Nonempty BatchSize := ⟨.all⟩
  refine inStep_of_tag BatchSize.ctorIdx rfl (by rintro (_ | _) <;> simp [BatchSize.ctorIdx])
    (by rintro (_ | _) <;> exact ⟨_, rfl⟩) ?_
  rintro (_ | _ | n)
  · refine (inStep_u32.map _).of_names BatchSize.number (fun a => ?_) fun _ => rfl
    cases a <;> simp [BatchSize.ctorIdx]
  · refine Plan.inStep_end (fun _ _ => id) fun a ha => ?_
    cases a <;> simp [BatchSize.ctorIdx, batchSize, tag] at ha ⊢
  · refine Plan.inStep_end (fun _ _ => id) fun a ha => ?_
    cases a <;> simp [BatchSize.ctorIdx] at ha

theorem inStep_queryOptions : queryOptions.InStep :=
  (inStep_batchSize.bind lawful_batchSize fun _ => (inStep_option inStep_flag).bind
      (lawful_option lawful_flag) fun _ => (inStep_option inStep_flag).map _).of_names
    (fun b => ⟨b.1, b.2.1, b.2.2⟩) (fun o => by simp)
    fun b => by simp [queryOptions]

theorem inStep_fetch : fetch.InStep :=
  (inStep_u64.bind lawful_u64 fun _ => inStep_queryOptions.bind lawful_queryOptions fun _ =>
      (inStep_option inStep_blob).map _).of_names
    (fun b => ⟨b.1, b.2.1, b.2.2⟩) (fun f => by simp)
    fun b => by simp [fetch]

theorem inStep_item : item.InStep :=
  (inStep_u64.bind lawful_u64 fun _ => inStep_flag.bind lawful_flag fun _ =>
      (inStep_option inStep_blob).map _).of_names
    (fun b => ⟨b.1, b.2.1, b.2.2⟩) (fun i => by simp [-Bool.exists_bool])
    fun b => by simp [item]

theorem inStep_frame [Nonempty α] (h : f.InStep) : (frame f).InStep :=
  (inStep_u64.bind lawful_u64 fun _ => h.map _).of_names
    (fun b => ⟨b.1, b.2⟩) (fun x => by simp)
    fun b => by simp [frame]

theorem inStep_response : response.InStep := by
  have : Nonempty Response := ⟨.acknowledged⟩
  refine inStep_of_tag Response.ctorIdx rfl (by rintro (_ | _) <;> simp [Response.ctorIdx])
    (by rintro (_ | _) <;> exact ⟨_, rfl⟩) ?_
  rintro (_ | _ | _ | _ | _ | n)
  · refine (inStep_u64.map _).of_names Response.sessionOpened (fun a => ?_) fun _ => rfl
    cases a <;> simp [Response.ctorIdx]
  · refine (inStep_u64.map _).of_names Response.transactionOpened (fun a => ?_) fun _ => rfl
    cases a <;> simp [Response.ctorIdx]
  · refine Plan.inStep_end (fun _ _ => id) fun a ha => ?_
    cases a <;> simp [Response.ctorIdx, response, tag] at ha ⊢
  · refine (inStep_item.map _).of_names Response.item (fun a => ?_) fun _ => rfl
    cases a <;> simp [Response.ctorIdx]
  · refine (inStep_text.map _).of_names Response.refused (fun a => ?_) fun _ => rfl
    cases a <;> simp [Response.ctorIdx]
  · refine Plan.inStep_end (fun _ _ => id) fun a ha => ?_
    cases a <;> simp [Response.ctorIdx] at ha

theorem inStep_request : request.InStep := by
  have : Nonempty Request := ⟨.commit 0⟩
  refine inStep_of_tag Request.ctorIdx rfl (by rintro (_ | _) <;> simp [Request.ctorIdx])
    (by rintro (_ | _) <;> exact ⟨_, rfl⟩) ?_
  rintro (_ | _ | _ | _ | _ | _ | _ | n)
  · refine (inStep_text.bind lawful_text fun _ => inStep_sessionKind.map _).of_names
      (fun b => Request.openSession b.1 b.2) (fun a => ?_) fun _ => rfl
    cases a <;> simp [Request.ctorIdx]
  · refine (inStep_u64.map _).of_names Request.closeSession (fun a => ?_) fun _ => rfl
    cases a <;> simp [Request.ctorIdx]
  · refine (inStep_u64.bind lawful_u64 fun _ => inStep_transactionKind.map _).of_names
      (fun b => Request.openTransaction b.1 b.2) (fun a => ?_) fun _ => rfl
    cases a <;> simp [Request.ctorIdx]
  · refine (inStep_u64.map _).of_names Request.commit (fun a => ?_) fun _ => rfl
    cases a <;> simp [Request.ctorIdx]
  · refine (inStep_u64.map _).of_names Request.rollback (fun a => ?_) fun _ => rfl
    cases a <;> simp [Request.ctorIdx]
  · refine (inStep_u64.map _).of_names Request.closeTransaction (fun a => ?_) fun _ => rfl
    cases a <;> simp [Request.ctorIdx]
  · have : Nonempty Fetch := ⟨.continuation 0 {}⟩
    refine (inStep_u64.bind lawful_u64 fun _ => inStep_fetch.map _).of_names
      (fun b => Request.fetch b.1 b.2) (fun a => ?_) fun _ => rfl
    cases a <;> simp [Request.ctorIdx]
  · refine Plan.inStep_end (fun _ _ => id) fun a ha => ?_
    cases a <;> simp [Request.ctorIdx] at ha

end Format

end QueryLanes
