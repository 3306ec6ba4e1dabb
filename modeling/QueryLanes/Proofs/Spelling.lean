import Mathlib
import QueryLanes.Text.Utf8

/-!
# How texts are spelled

Each character has one sequence of bytes, the one it is written with. `Spells` lists the sequences
by their lengths, with the bounds that leave out overlong forms, surrogates and what lies beyond
U+10FFFF; `Utf8.segments` cuts a character off exactly where one of them stands.

- `Utf8.spells_iff`: a character is spelled by the bytes it is written with, and by no others;
- `Utf8.decode_eq_ok`: so is a text.
-/

namespace QueryLanes.Utf8

variable {a b : UInt8}

/-! ## Leading bytes -/

/-- The byte `a` begins a character of `k + 1` bytes, and `b` may be its second. -/
def Opens (k : Nat) (a b : UInt8) : Prop :=
  ∃ l, lead? a = some l ∧ l.following = k ∧ l.admits b = true

theorem isTail_iff : isTail b = true ↔ 0x80 ≤ b.toNat ∧ b.toNat ≤ 0xBF := by
  simp [isTail, UInt8.le_iff_toNat_le]

theorem opens_one_iff :
    Opens 1 a b ↔ (0xC2 ≤ a.toNat ∧ a.toNat ≤ 0xDF) ∧ 0x80 ≤ b.toNat ∧ b.toNat ≤ 0xBF := by
  simp only [Opens, lead?, Bool.and_eq_true, decide_eq_true_eq, UInt8.le_iff_toNat_le, beq_iff_eq,
    ← UInt8.toNat_inj, UInt8.reduceToNat]
  constructor
  · rintro ⟨l, hl, hk, hb⟩
    split_ifs at hl <;> cases hl <;> simp_all [Lead.admits, UInt8.le_iff_toNat_le]
  · rintro ⟨ha, hb⟩
    rw [if_pos ha]
    exact ⟨_, rfl, rfl, by simpa [Lead.admits, UInt8.le_iff_toNat_le] using hb⟩

theorem opens_two_iff :
    Opens 2 a b ↔ (0xE0 ≤ a.toNat ∧ a.toNat ≤ 0xEF) ∧ (0x80 ≤ b.toNat ∧ b.toNat ≤ 0xBF) ∧
      (a.toNat = 0xE0 → 0xA0 ≤ b.toNat) ∧ (a.toNat = 0xED → b.toNat ≤ 0x9F) := by
  simp only [Opens, lead?, Bool.and_eq_true, decide_eq_true_eq, UInt8.le_iff_toNat_le, beq_iff_eq,
    ← UInt8.toNat_inj, UInt8.reduceToNat]
  constructor
  · rintro ⟨l, hl, hk, hb⟩
    split_ifs at hl <;> cases hl <;> simp [Lead.admits, UInt8.le_iff_toNat_le] at hk hb <;> omega
  · rintro ⟨ha, hb, hlow, hhigh⟩
    split_ifs <;> try omega
    all_goals exact ⟨_, rfl, rfl, by simp [Lead.admits, UInt8.le_iff_toNat_le]; omega⟩

theorem opens_three_iff :
    Opens 3 a b ↔ (0xF0 ≤ a.toNat ∧ a.toNat ≤ 0xF4) ∧ (0x80 ≤ b.toNat ∧ b.toNat ≤ 0xBF) ∧
      (a.toNat = 0xF0 → 0x90 ≤ b.toNat) ∧ (a.toNat = 0xF4 → b.toNat ≤ 0x8F) := by
  simp only [Opens, lead?, Bool.and_eq_true, decide_eq_true_eq, UInt8.le_iff_toNat_le, beq_iff_eq,
    ← UInt8.toNat_inj, UInt8.reduceToNat]
  constructor
  · rintro ⟨l, hl, hk, hb⟩
    split_ifs at hl <;> cases hl <;> simp [Lead.admits, UInt8.le_iff_toNat_le] at hk hb <;> omega
  · rintro ⟨ha, hb, hlow, hhigh⟩
    split_ifs <;> try omega
    all_goals exact ⟨_, rfl, rfl, by simp [Lead.admits, UInt8.le_iff_toNat_le]; omega⟩

/-- The bytes make up one character. -/
inductive Spells : Char → List UInt8 → Prop where
  | one {a : UInt8} (ha : a < 0x80) : Spells (Char.ofNat a.toNat) [a]
  | two {a b : UInt8} (ho : Opens 1 a b) : Spells (charOf2 a b) [a, b]
  | three {a b c : UInt8} (ho : Opens 2 a b) (hc : isTail c = true) :
    Spells (charOf3 a b c) [a, b, c]
  | four {a b c d : UInt8} (ho : Opens 3 a b) (hc : isTail c = true) (hd : isTail d = true) :
    Spells (charOf4 a b c d) [a, b, c, d]

/-! ## Cutting -/

theorem Opens.not_lt {k : Nat} (h : Opens k a b) : ¬ a < 0x80 := by
  obtain ⟨l, hl, -, -⟩ := h
  intro ha
  have h' : lead? a = none := by
    simp only [UInt8.lt_iff_toNat_lt, UInt8.reduceToNat] at ha
    simp only [lead?, Bool.and_eq_true, decide_eq_true_eq, UInt8.le_iff_toNat_le, beq_iff_eq,
      ← UInt8.toNat_inj, UInt8.reduceToNat]
    split_ifs <;> first | rfl | omega
  rw [h'] at hl
  cases hl

theorem segments_spells {x : Char} {w : List UInt8} (h : Spells x w) (r : List UInt8) :
    segments (w ++ r) = .char x :: segments r := by
  cases h with
  | one ha => simp [segments, ha]
  | two ho =>
    have hn := ho.not_lt
    obtain ⟨l, hl, hk, hb⟩ := ho
    simp [segments, hn, hl, hk, hb]
  | three ho hc =>
    have hn := ho.not_lt
    obtain ⟨l, hl, hk, hb⟩ := ho
    simp [segments, hn, hl, hk, hb, hc]
  | four ho hc hd =>
    have hn := ho.not_lt
    obtain ⟨l, hl, hk, hb⟩ := ho
    simp [segments, hn, hl, hk, hb, hc, hd]

theorem following_cases {l : Lead} (h : lead? a = some l) :
    l.following = 1 ∨ l.following = 2 ∨ l.following = 3 := by
  unfold lead? at h
  split_ifs at h <;> cases h <;> simp

theorem exists_spells {bs : List UInt8} {x : Char} {ss : List Segment} :
    segments bs = .char x :: ss → ∃ w r, Spells x w ∧ bs = w ++ r ∧ segments r = ss := by
  fun_cases segments bs with
  | case2 a r ha =>
    rw [List.cons.injEq, Segment.char.injEq]
    rintro ⟨rfl, rfl⟩
    exact ⟨_, _, .one ha, rfl, rfl⟩
  | case6 a ha l hl b r hb hk =>
    rw [List.cons.injEq, Segment.char.injEq]
    rintro ⟨rfl, rfl⟩
    exact ⟨_, _, .two ⟨l, hl, by simpa using hk, by simpa using hb⟩, rfl, rfl⟩
  | case9 a ha l hl b hb hk c r hc hk' =>
    rw [List.cons.injEq, Segment.char.injEq]
    rintro ⟨rfl, rfl⟩
    exact ⟨_, _, .three ⟨l, hl, by simpa using hk', by simpa using hb⟩ (by simpa using hc), rfl,
      rfl⟩
  | case12 a ha l hl b hb hk c hc hk' d r hd =>
    rw [List.cons.injEq, Segment.char.injEq]
    rintro ⟨rfl, rfl⟩
    have hfollowing := following_cases hl
    exact ⟨_, _, .four ⟨l, hl, by simp_all, by simpa using hb⟩ (by simpa using hc)
      (by simpa using hd), rfl, rfl⟩
  | _ => nofun

/-! ## Characters -/

theorem val_ofNat {n : Nat} (h : n.isValidChar) : (Char.ofNat n).val.toNat = n := by
  rw [Char.ofNat, dif_pos h]
  simp only [Char.ofNatAux]
  rfl

theorem eq_utf8EncodeChar {x : Char} {w : List UInt8} (h : Spells x w) :
    w = String.utf8EncodeChar x := by
  cases h with
  | @one a ha =>
    have ha : a.toNat < 0x80 := ha
    have hx := val_ofNat (n := a.toNat) (Or.inl (by omega))
    simp [String.utf8EncodeChar, hx, Nat.le_of_lt_succ ha]
  | @two a b ho =>
    rw [opens_one_iff] at ho
    obtain ⟨n, hn⟩ : ∃ n, n = (a.toNat - 0xC0) * 64 + (b.toNat - 0x80) := ⟨_, rfl⟩
    have hx := val_ofNat (n := n) (Or.inl (by omega))
    rw [charOf2, ← hn, String.utf8EncodeChar, hx, if_neg (by omega), if_pos (by omega)]
    simp only [List.cons.injEq, and_true, ← UInt8.toNat_inj, UInt8.toNat_ofNat']
    omega
  | @three a b c ho hc =>
    rw [opens_two_iff] at ho
    rw [isTail_iff] at hc
    obtain ⟨n, hn⟩ : ∃ n, n = (a.toNat - 0xE0) * 4096 + (b.toNat - 0x80) * 64 + (c.toNat - 0x80) :=
      ⟨_, rfl⟩
    have hx := val_ofNat (n := n) (by unfold Nat.isValidChar; omega)
    rw [charOf3, ← hn, String.utf8EncodeChar, hx, if_neg (by omega), if_neg (by omega),
      if_pos (by omega)]
    simp only [List.cons.injEq, and_true, ← UInt8.toNat_inj, UInt8.toNat_ofNat']
    omega
  | @four a b c d ho hc hd =>
    rw [opens_three_iff] at ho
    rw [isTail_iff] at hc hd
    obtain ⟨n, hn⟩ : ∃ n, n = (a.toNat - 0xF0) * 262144 + (b.toNat - 0x80) * 4096 +
        (c.toNat - 0x80) * 64 + (d.toNat - 0x80) := ⟨_, rfl⟩
    have hx := val_ofNat (n := n) (by unfold Nat.isValidChar; omega)
    rw [charOf4, ← hn, String.utf8EncodeChar, hx, if_neg (by omega), if_neg (by omega),
      if_neg (by omega)]
    simp only [List.cons.injEq, and_true, ← UInt8.toNat_inj, UInt8.toNat_ofNat']
    omega

theorem toNat_ofNat {n : Nat} (h : n < 256) : (UInt8.ofNat n).toNat = n := by
  simp [Nat.mod_eq_of_lt h]

theorem spells_two {n : Nat} (h : 0x80 ≤ n) (h' : n ≤ 0x7FF) :
    Spells (Char.ofNat n) [UInt8.ofNat (n / 64 % 32 + 192), UInt8.ofNat (n % 64 + 128)] := by
  have ha := toNat_ofNat (n := n / 64 % 32 + 192) (by omega)
  have hb := toNat_ofNat (n := n % 64 + 128) (by omega)
  have hs := Spells.two (opens_one_iff.2 ⟨by rw [ha]; omega, by rw [hb]; omega⟩)
  have hn : (n / 64 % 32 + 192 - 0xC0) * 64 + (n % 64 + 128 - 0x80) = n := by omega
  rwa [charOf2, ha, hb, hn] at hs

theorem spells_three {n : Nat} (h : 0x800 ≤ n) (h' : n ≤ 0xFFFF) (hv : n.isValidChar) :
    Spells (Char.ofNat n) [UInt8.ofNat (n / 4096 % 16 + 224), UInt8.ofNat (n / 64 % 64 + 128),
      UInt8.ofNat (n % 64 + 128)] := by
  unfold Nat.isValidChar at hv
  have ha := toNat_ofNat (n := n / 4096 % 16 + 224) (by omega)
  have hb := toNat_ofNat (n := n / 64 % 64 + 128) (by omega)
  have hc := toNat_ofNat (n := n % 64 + 128) (by omega)
  have ho : Opens 2 (UInt8.ofNat (n / 4096 % 16 + 224)) (UInt8.ofNat (n / 64 % 64 + 128)) := by
    rw [opens_two_iff, ha, hb]
    omega
  have hs := Spells.three ho (isTail_iff.2 (by rw [hc]; omega))
  have hn : (n / 4096 % 16 + 224 - 0xE0) * 4096 + (n / 64 % 64 + 128 - 0x80) * 64 +
      (n % 64 + 128 - 0x80) = n := by omega
  rwa [charOf3, ha, hb, hc, hn] at hs

theorem spells_four {n : Nat} (h : 0x10000 ≤ n) (hv : n.isValidChar) :
    Spells (Char.ofNat n) [UInt8.ofNat (n / 262144 % 8 + 240), UInt8.ofNat (n / 4096 % 64 + 128),
      UInt8.ofNat (n / 64 % 64 + 128), UInt8.ofNat (n % 64 + 128)] := by
  unfold Nat.isValidChar at hv
  have ha := toNat_ofNat (n := n / 262144 % 8 + 240) (by omega)
  have hb := toNat_ofNat (n := n / 4096 % 64 + 128) (by omega)
  have hc := toNat_ofNat (n := n / 64 % 64 + 128) (by omega)
  have hd := toNat_ofNat (n := n % 64 + 128) (by omega)
  have ho : Opens 3 (UInt8.ofNat (n / 262144 % 8 + 240)) (UInt8.ofNat (n / 4096 % 64 + 128)) := by
    rw [opens_three_iff, ha, hb]
    omega
  have hs := Spells.four ho (isTail_iff.2 (by rw [hc]; omega)) (isTail_iff.2 (by rw [hd]; omega))
  have hn : (n / 262144 % 8 + 240 - 0xF0) * 262144 + (n / 4096 % 64 + 128 - 0x80) * 4096 +
      (n / 64 % 64 + 128 - 0x80) * 64 + (n % 64 + 128 - 0x80) = n := by omega
  rwa [charOf4, ha, hb, hc, hd, hn] at hs

theorem spells_utf8EncodeChar (x : Char) : Spells x (String.utf8EncodeChar x) := by
  obtain ⟨n, hn⟩ : ∃ n, x.val.toNat = n := ⟨_, rfl⟩
  have hv : n.isValidChar := hn ▸ x.valid
  have hx : x = Char.ofNat n := by rw [← hn]; exact (Char.ofNat_toNat x).symm
  simp only [String.utf8EncodeChar, hn]
  rw [hx]
  split_ifs with h₁ h₂ h₃
  · have ha := toNat_ofNat (n := n) (by omega)
    have h := Spells.one (a := UInt8.ofNat n) (by
      rw [UInt8.lt_iff_toNat_lt, ha]
      exact Nat.lt_succ_of_le h₁)
    rwa [ha] at h
  · exact spells_two (by omega) h₂
  · exact spells_three (by omega) h₃ hv
  · exact spells_four (by omega) hv

theorem spells_iff {x : Char} {w : List UInt8} : Spells x w ↔ w = String.utf8EncodeChar x :=
  ⟨eq_utf8EncodeChar, fun h => h ▸ spells_utf8EncodeChar x⟩

/-! ## Texts -/

theorem segments_eq_nil {bs : List UInt8} : segments bs = [] ↔ bs = [] := by
  fun_cases segments bs <;> simp

theorem segments_eq_map_char {bs : List UInt8} {cs : List Char} :
    segments bs = cs.map .char ↔ bs = cs.flatMap String.utf8EncodeChar := by
  induction cs generalizing bs with
  | nil => exact segments_eq_nil
  | cons c cs ih =>
    rw [List.map_cons, List.flatMap_cons]
    constructor
    · intro h
      obtain ⟨w, r, hw, rfl, hr⟩ := exists_spells h
      rw [← ih.1 hr, spells_iff.1 hw]
    · rintro rfl
      rw [segments_spells (spells_utf8EncodeChar c), ih.2 rfl]

theorem collect_eq_ok {start : Nat} {ss : List Segment} {cs : List Char} :
    collect start ss = .ok cs ↔ ss = cs.map .char := by
  induction ss generalizing start cs with
  | nil => cases cs <;> simp [collect]
  | cons s ss ih =>
    cases s with
    | char c =>
      cases cs with
      | nil => cases hr : collect (start + c.utf8Size) ss <;> simp [collect, hr, Except.map]
      | cons d cs =>
        have hc : collect (start + c.utf8Size) ss = .ok cs ↔ ss = cs.map .char := ih
        rw [List.map_cons, List.cons.injEq, Segment.char.injEq, ← hc]
        cases hr : collect (start + c.utf8Size) ss <;> simp [collect, hr, Except.map]
    | invalid n => cases cs <;> simp [collect]
    | cut n => cases cs <;> simp [collect]

/-- Bytes are read as a text exactly if they are the ones it is written with. -/
theorem decode_eq_ok {bs : List UInt8} {s : String} : decode bs = .ok s ↔ bs = encode s := by
  have hc : collect 0 (segments bs) = .ok s.toList ↔ segments bs = s.toList.map .char :=
    collect_eq_ok
  rw [encode, ← segments_eq_map_char, ← hc, decode]
  cases collect 0 (segments bs) with
  | error e => simp [Except.map]
  | ok cs =>
    rw [Except.map, Except.ok.injEq, Except.ok.injEq]
    constructor
    · rintro rfl
      rw [String.toList_ofList]
    · rintro rfl
      rw [String.ofList_toList]

end QueryLanes.Utf8
