import Mathlib.Tactic.Ring
import QueryLanes.Wire.Format

/-!
# What a plan accepts

`Plan.Accepts` describes a plan by the bytes it takes for each value: the plan yields the value
where these bytes stand in front and the allowance covers them, spends exactly that much of it, and
refuses the value for its size where the allowance does not. Each way to build a plan has one
lemma. An allowance is assumed below 2 ^ 64, so that a length always counts against it.
-/

namespace QueryLanes

/-! ## Numbers -/

@[simp] theorem length_bigEndian (w n : Nat) : (bigEndian w n).length = w := by
  induction w with
  | zero => rfl
  | succ w ih => simp [bigEndian, ih]

theorem ofBigEndian_foldl (n : Nat) (bs : List UInt8) :
    bs.foldl (fun v b => v * 256 + b.toNat) n = n * 256 ^ bs.length + ofBigEndian bs := by
  induction bs generalizing n with
  | nil => simp [ofBigEndian]
  | cons b bs ih =>
    simp only [ofBigEndian, List.foldl_cons, List.length_cons]
    rw [ih, ih]
    ring

theorem ofBigEndian_cons (b : UInt8) (bs : List UInt8) :
    ofBigEndian (b :: bs) = b.toNat * 256 ^ bs.length + ofBigEndian bs := by
  rw [← ofBigEndian_foldl, ofBigEndian, List.foldl_cons, Nat.zero_mul, Nat.zero_add]

theorem ofBigEndian_lt (bs : List UInt8) : ofBigEndian bs < 256 ^ bs.length := by
  induction bs with
  | nil => simp [ofBigEndian]
  | cons b bs ih =>
    have hb := Nat.mul_le_mul_right (256 ^ bs.length) (Nat.le_of_lt_succ b.toNat_lt)
    rw [ofBigEndian_cons, List.length_cons, Nat.pow_succ]
    omega

theorem ofBigEndian_bigEndian (w n : Nat) : ofBigEndian (bigEndian w n) = n % 256 ^ w := by
  induction w with
  | zero => simp [bigEndian, ofBigEndian, Nat.mod_one]
  | succ w ih =>
    have hb : (UInt8.ofNat (n / 256 ^ w % 256)).toNat = n / 256 ^ w % 256 := by simp
    rw [bigEndian, Nat.pow_eq, ofBigEndian_cons, ih, length_bigEndian, Nat.mod_pow_succ, hb]
    ring

theorem ofBigEndian_inj {bs cs : List UInt8} (hl : bs.length = cs.length) :
    ofBigEndian bs = ofBigEndian cs → bs = cs := by
  induction bs generalizing cs with
  | nil =>
    intro
    exact (List.length_eq_zero_iff.1 hl.symm).symm
  | cons b bs ih =>
    cases cs with
    | nil => simp at hl
    | cons c cs =>
      have hl : bs.length = cs.length := by simpa using hl
      have hb := ofBigEndian_lt bs
      have hc := ofBigEndian_lt cs
      rw [ofBigEndian_cons, ofBigEndian_cons, hl]
      rw [hl] at hb
      intro h
      have hmod := congrArg (· % 256 ^ cs.length) h
      have hdiv := congrArg (· / 256 ^ cs.length) h
      have hp : 0 < 256 ^ cs.length := Nat.pow_pos (by decide)
      simp only [Nat.mul_add_mod', Nat.mod_eq_of_lt hb, Nat.mod_eq_of_lt hc] at hmod
      simp only [Nat.mul_comm _ (256 ^ cs.length), Nat.mul_add_div hp, Nat.div_eq_of_lt hb,
        Nat.div_eq_of_lt hc] at hdiv
      rw [UInt8.toNat_inj.1 hdiv, ih hl hmod]

theorem eq_bigEndian_iff {w n : Nat} {bs : List UInt8} (hn : n < 256 ^ w) :
    bs = bigEndian w n ↔ bs.length = w ∧ ofBigEndian bs = n := by
  constructor
  · rintro rfl
    rw [ofBigEndian_bigEndian, Nat.mod_eq_of_lt hn]
    simp
  · rintro ⟨hl, h⟩
    refine ofBigEndian_inj (by simp [hl]) ?_
    rw [ofBigEndian_bigEndian, Nat.mod_eq_of_lt hn, h]

@[simp] theorem bigEndian_append_inj {w m n : Nat} {u v : List UInt8} (hm : m < 256 ^ w)
    (hn : n < 256 ^ w) :
    bigEndian w m ++ u = bigEndian w n ++ v ↔ m = n ∧ u = v := by
  constructor
  · intro h
    obtain ⟨h, hv⟩ := List.append_inj h (by simp)
    have h := congrArg ofBigEndian h
    rw [ofBigEndian_bigEndian, ofBigEndian_bigEndian, Nat.mod_eq_of_lt hm, Nat.mod_eq_of_lt hn] at h
    exact ⟨h, hv⟩
  · rintro ⟨rfl, rfl⟩
    rfl

@[simp] theorem bigEndian_append_eq {w m n : Nat} {u : List UInt8} (hm : m < 256 ^ w)
    (hn : n < 256 ^ w) : bigEndian w m ++ u = bigEndian w n ↔ m = n ∧ u = [] := by
  simpa using bigEndian_append_inj (u := u) (v := []) hm hn

namespace Plan

variable {α β : Type}

@[simp] theorem run_pure (a : α) (c : Cursor) : (pure a : Plan α).run c = (.ok a, c) := rfl

theorem run_bind (p : Plan α) (k : α → Plan β) (c : Cursor) : (p >>= k).run c =
    match p.run c with
    | (.ok a, d) => (k a).run d
    | (.error e, d) => (.error e, d) := by
  change (p.bind k).run c = _
  induction p generalizing c with
  | done a => rfl
  | fault f => rfl
  | take n next ih =>
    simp only [bind, run]
    split_ifs
    · rfl
    · rfl
    · exact ih _ _

/-! ## Plans -/

/-- The bytes that a plan takes for a value are those that `W` names for it, as long as the
allowance covers them; where it does not, the value is refused for its size. -/
structure Accepts (p : Plan α) (W : List UInt8 → α → Prop) : Prop where
  ok : ∀ {c d : Cursor} {a : α}, c.allowance < 2 ^ 64 → (p.run c = (.ok a, d) ↔
    ∃ w, W w a ∧ c.rest = w ++ d.rest ∧ c.allowance = w.length + d.allowance)
  tooLarge : ∀ {c : Cursor} {w r : List UInt8} {a : α}, c.allowance < 2 ^ 64 → W w a →
    c.rest = w ++ r → c.allowance < w.length → (p.run c).1 = .error .tooLarge

variable {p : Plan α} {W V : List UInt8 → α → Prop}

theorem Accepts.congr (h : p.Accepts W) (hW : ∀ w a, W w a ↔ V w a) : p.Accepts V := by
  have hW : W = V := funext₂ fun w a => propext (hW w a)
  exact hW ▸ h

theorem accepts_pure (a : α) : (pure a : Plan α).Accepts fun w b => w = [] ∧ b = a where
  ok {c d b} _ := by
    obtain ⟨rest, allowance⟩ := d
    obtain ⟨rest', allowance'⟩ := c
    simp only [run_pure, Prod.mk.injEq, Except.ok.injEq, Cursor.mk.injEq]
    constructor
    · rintro ⟨rfl, rfl, rfl⟩
      simp
    · rintro ⟨w, ⟨rfl, rfl⟩, hr, ha⟩
      simp_all
  tooLarge := by
    rintro c w r b - ⟨rfl, rfl⟩ - h
    simp at h

theorem accepts_fault (f : Fault) (h : ∀ w a, ¬ W w a) : (fault f).Accepts W where
  ok {c d b} _ := by simp [run, h]
  tooLarge := by
    intro c w r b _ hw
    exact absurd hw (h w b)

theorem accepts_take {n : Nat} {next : List UInt8 → Plan α} {W : List UInt8 → List UInt8 → α → Prop}
    (h : ∀ u, u.length = n → (next u).Accepts (W u)) :
    (take n next).Accepts fun w a => ∃ u v, u.length = n ∧ W u v a ∧ w = u ++ v where
  ok {c d a} hc := by
    simp only [run]
    split_ifs with ha hl
    · simp only [Prod.mk.injEq, reduceCtorEq, false_and, false_iff]
      rintro ⟨w, ⟨u, v, hu, -, rfl⟩, -, hw⟩
      simp at hw
      omega
    · simp only [Prod.mk.injEq, reduceCtorEq, false_and, false_iff]
      rintro ⟨w, ⟨u, v, hu, -, rfl⟩, hw, -⟩
      simp [hw] at hl
      omega
    · have hu : (c.rest.take n).length = n := by simp; omega
      rw [(h _ hu).ok (show c.allowance - n < 2 ^ 64 by omega)]
      constructor
      · rintro ⟨v, hv, hr, hd⟩
        refine ⟨c.rest.take n ++ v, ⟨_, _, hu, hv, rfl⟩, ?_, ?_⟩
        · rw [List.append_assoc, ← hr, List.take_append_drop]
        · simp at hd ⊢
          omega
      · rintro ⟨w, ⟨u, v, hu, hv, rfl⟩, hr, hd⟩
        rw [hr, List.append_assoc, ← hu, List.take_left, List.drop_left]
        refine ⟨v, hv, rfl, ?_⟩
        simp at hd ⊢
        omega
  tooLarge := by
    rintro c w r a hc ⟨u, v, hu, hv, rfl⟩ hr hd
    simp only [run]
    split_ifs with ha hl
    · rfl
    · simp [hr] at hl
      omega
    · rw [hr, List.append_assoc, ← hu, List.take_left, List.drop_left]
      refine (h u hu).tooLarge (show c.allowance - u.length < 2 ^ 64 by omega) hv rfl ?_
      simp at hd ⊢
      omega

theorem Accepts.bind {k : α → Plan β} {V : α → List UInt8 → β → Prop} (h : p.Accepts W)
    (hk : ∀ a, (k a).Accepts (V a)) :
    (p >>= k).Accepts fun w b => ∃ a u v, W u a ∧ V a v b ∧ w = u ++ v where
  ok {c d b} hc := by
    rw [run_bind]
    constructor
    · intro hb
      split at hb
      · rename_i a e hp
        obtain ⟨u, hu, hr, ha⟩ := (h.ok hc).1 hp
        obtain ⟨v, hv, hr', ha'⟩ := ((hk a).ok (by omega)).1 hb
        refine ⟨u ++ v, ⟨a, u, v, hu, hv, rfl⟩, ?_, ?_⟩
        · rw [hr, hr', List.append_assoc]
        · rw [List.length_append]
          omega
      · simp at hb
    · rintro ⟨w, ⟨a, u, v, hu, hv, rfl⟩, hr, ha⟩
      rw [List.append_assoc] at hr
      rw [List.length_append] at ha
      have hp : p.run c = (.ok a, ⟨v ++ d.rest, v.length + d.allowance⟩) :=
        (h.ok hc).2 ⟨u, hu, hr, by simp only; omega⟩
      rw [hp]
      exact ((hk a).ok (show v.length + d.allowance < 2 ^ 64 by omega)).2 ⟨v, hv, rfl, rfl⟩
  tooLarge := by
    rintro c w r b hc ⟨a, u, v, hu, hv, rfl⟩ hr hd
    rw [List.append_assoc] at hr
    rw [List.length_append] at hd
    rw [run_bind]
    by_cases hlt : c.allowance < u.length
    · have hp := h.tooLarge hc hu hr hlt
      split
      · rename_i hp'
        simp [hp'] at hp
      · rename_i hp'
        simpa [hp'] using hp
    · have hp : p.run c = (.ok a, ⟨v ++ r, c.allowance - u.length⟩) :=
        (h.ok hc).2 ⟨u, hu, hr, by simp; omega⟩
      rw [hp]
      exact (hk a).tooLarge (show c.allowance - u.length < 2 ^ 64 by omega) hv rfl
        (show c.allowance - u.length < v.length by omega)

end Plan

end QueryLanes
