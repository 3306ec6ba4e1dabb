import Mathlib.Data.List.Basic
import QueryLanes.Text.Numeral

/-!
# What a numeral denotes

`Denotes s n` says, without the reader, that a text is a numeral of `n`: digits that are `n` in
decimal positions, with at most one plus sign before them. Zeros may stand in front, as many as one
likes; so a number has many numerals, but a text denotes one number at most.

- `read_eq_ok`: a text is read as the number that it denotes, if the bound admits it;
- `denotes_toString`: the decimal text of an integer denotes that integer, if it is not negative,
  and nothing else.
-/

namespace QueryLanes.Numeral

variable {greatest value n m : Nat} {c : Char} {cs : List Char} {s : String}

/-- The characters are digits, one or more, and together `n`. -/
def Digits (cs : List Char) (n : Nat) : Prop :=
  cs ≠ [] ∧ (∀ c ∈ cs, c.isDigit = true) ∧ Nat.ofDigitChars 10 cs 0 = n

/-- The text is a numeral of `n`. -/
def Denotes (s : String) (n : Nat) : Prop :=
  ∃ digits, Digits digits n ∧ (s.toList = digits ∨ s.toList = '+' :: digits)

/-! ## Digits -/

theorem digit?_eq (c : Char) :
    digit? c = if c.isDigit then some (c.toNat - '0'.toNat) else none := by
  have h : ('0' ≤ c ∧ c ≤ '9') ↔ c.isDigit = true := by
    rw [Char.isDigit_iff_toNat, Char.le_def, Char.le_def, UInt32.le_iff_toNat_le,
      UInt32.le_iff_toNat_le]
    rfl
  rw [digit?]
  simp only [h]
  rfl

theorem le_ofDigitChars (value : Nat) (cs : List Char) : value ≤ Nat.ofDigitChars 10 cs value := by
  have hpos : 0 < 10 ^ cs.length := Nat.pow_pos (by decide)
  rw [Nat.ofDigitChars_eq_ofDigitChars_zero]
  exact Nat.le_trans (Nat.le_mul_of_pos_left value hpos) (Nat.le_add_right _ _)

/-- Digits are read with the value that comes before them. The bound is checked after each of them,
which comes to the same as a check at the end, since the value never falls. -/
theorem readDigits_eq_ok (h : value ≤ greatest) : readDigits greatest value cs = .ok n ↔
    (∀ c ∈ cs, c.isDigit = true) ∧ Nat.ofDigitChars 10 cs value = n ∧ n ≤ greatest := by
  induction cs generalizing value with
  | nil =>
    rw [readDigits, Nat.ofDigitChars_nil, Except.ok.injEq]
    constructor
    · rintro rfl
      exact ⟨nofun, rfl, h⟩
    · exact fun hn => hn.2.1
  | cons c cs ih =>
    rw [readDigits, digit?_eq, Nat.ofDigitChars_cons, Nat.mul_comm 10 value]
    by_cases hc : c.isDigit = true
    · simp only [hc, if_true, List.forall_mem_cons, true_and]
      by_cases hbig : greatest < value * 10 + (c.toNat - '0'.toNat)
      · rw [if_pos hbig]
        constructor
        · nofun
        · rintro ⟨-, rfl, hle⟩
          have hgrow := le_ofDigitChars (value * 10 + (c.toNat - '0'.toNat)) cs
          omega
      · rw [if_neg hbig]
        exact ih (Nat.le_of_not_lt hbig)
    · simp [hc]

theorem Digits.head (h : Digits (c :: cs) n) : c.isDigit = true := h.2.1 c List.mem_cons_self

theorem not_digits_plus : ¬ Digits ('+' :: cs) n := fun h => absurd h.head (by decide)

theorem digits_toDigits (n : Nat) : Digits (Nat.toDigits 10 n) n :=
  ⟨Nat.toDigits_ne_nil, fun _ => Nat.isDigit_of_mem_toDigits (by decide) (by decide),
    Nat.ofDigitChars_ten_toDigits⟩

/-! ## Numerals -/

theorem denotes_plus (hs : s.toList = '+' :: cs) : Denotes s n ↔ Digits cs n := by
  constructor
  · rintro ⟨digits, hd, h | h⟩
    · rw [← h, hs] at hd
      exact absurd hd not_digits_plus
    · rw [hs] at h
      cases h
      exact hd
  · exact fun hd => ⟨cs, hd, .inr hs⟩

theorem denotes_digits (h : ∀ cs, s.toList ≠ '+' :: cs) : Denotes s n ↔ Digits s.toList n := by
  constructor
  · rintro ⟨digits, hd, rfl | hplus⟩
    · exact hd
    · exact absurd hplus (h digits)
  · exact fun hd => ⟨s.toList, hd, .inl rfl⟩

/-- A text denotes one number at most. -/
theorem Denotes.unique (h : Denotes s n) (h' : Denotes s m) : n = m := by
  by_cases hplus : ∃ cs, s.toList = '+' :: cs
  · obtain ⟨cs, hs⟩ := hplus
    rw [denotes_plus hs] at h h'
    exact h.2.2.symm.trans h'.2.2
  · rw [denotes_digits (not_exists.1 hplus)] at h h'
    exact h.2.2.symm.trans h'.2.2

/-- A text is read as a number exactly if it denotes it and the bound admits it. -/
theorem read_eq_ok : read greatest s = .ok n ↔ Denotes s n ∧ n ≤ greatest := by
  have hdigits {cs : List Char} (hne : cs ≠ []) :
      readDigits greatest 0 cs = .ok n ↔ Digits cs n ∧ n ≤ greatest := by
    rw [readDigits_eq_ok (Nat.zero_le greatest), Digits, and_assoc, and_assoc]
    exact (and_iff_right hne).symm
  unfold read
  split
  · next hs =>
    have hno : ¬ Denotes s n := by
      rw [denotes_digits (by simp [hs]), hs]
      exact fun hd => hd.1 rfl
    simp [hno]
  · next hs =>
    have hno : ¬ Denotes s n := by
      rw [denotes_plus hs]
      exact fun hd => hd.1 rfl
    simp [hno]
  · next cs hne hs =>
    rw [hdigits (fun hnil => hne (hnil ▸ rfl)), denotes_plus hs]
  · next hnil _ hplus =>
    rw [hdigits hnil, denotes_digits hplus]

theorem toList_toString_negSucc (k : Nat) :
    (toString (Int.negSucc k)).toList = '-' :: Nat.toDigits 10 (k + 1) := by
  rw [← Nat.toList_repr]
  exact String.toList_append

/-- The decimal text of an integer is a numeral of it, unless it has a minus sign. -/
theorem denotes_toString {i : Int} : Denotes (toString i) n ↔ i = n := by
  cases i with
  | ofNat k =>
    have hk : Denotes (toString (Int.ofNat k)) k :=
      ⟨_, digits_toDigits k, .inl Nat.toList_repr⟩
    constructor
    · intro h
      rw [h.unique hk]
      rfl
    · intro h
      cases Int.ofNat.inj h
      exact hk
  | negSucc k =>
    have hs := toList_toString_negSucc k
    constructor
    · rw [denotes_digits (by rw [hs]; nofun), hs]
      exact fun hd => absurd hd.head (by decide)
    · nofun

end QueryLanes.Numeral
