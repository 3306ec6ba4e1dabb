import QueryLanes.Query.Options
import QueryLanes.Proofs.Entering
import QueryLanes.Proofs.Numerals

/-!
# Batch sizes that are entered, set and checked

A batch size is entered as a text, set as a number, or checked when a query is opened, and each of
these has a test of its own. A number `Fits` if it is positive and 32 bits hold it; `Refuses` says
what is wrong with one that does not. `batch_sizes_agree` says that the three tests draw the line
there, all of them.
-/

namespace QueryLanes

open Numeral (Denotes)

/-! ## Batch sizes that are entered -/

namespace BatchSize

variable {s : String} {k : UInt32} {n : Int} {size : BatchSize} {e : CommandFailure}

/-- A number of answers that a batch may be asked to hold. -/
def Fits (n : Int) : Prop := 1 ≤ n ∧ n ≤ 4294967295

theorem fits_toNat : Fits k.toNat ↔ k ≠ 0 := by
  have hlt := k.toNat_lt
  rw [Fits, Ne, ← UInt32.toNat_inj, UInt32.toNat_zero]
  omega

/-- What fits is the number of one word. -/
theorem exists_word (h : Fits n) : ∃ k : UInt32, (k.toNat : Int) = n := by
  obtain ⟨hpos, hle⟩ := h
  refine ⟨UInt32.ofNat n.toNat, ?_⟩
  rw [UInt32.toNat_ofNat_of_lt' (by rw [UInt32.size]; omega)]
  exact Int.toNat_of_nonneg (by omega)

theorem not_denotes_all {m : Nat} : ¬ Denotes "all" m := by
  rw [Numeral.denotes_digits (by intro cs h; cases h)]
  exact fun h => absurd (Numeral.Digits.head h) (by decide)

theorem parse_eq_all : parse s = .ok .all ↔ s = "all" := by
  unfold parse
  constructor
  · intro h
    by_contra hs
    rw [if_neg hs] at h
    split at h <;> cases h
  · exact fun h => if_pos h

theorem parse_eq_number : parse s = .ok (.number k) ↔ Denotes s k.toNat ∧ Fits k.toNat := by
  have hlt := k.toNat_lt
  unfold parse
  constructor
  · intro h
    split at h
    · cases h
    · split at h
      · next m hr =>
        obtain ⟨hd, hm⟩ := Numeral.read_eq_ok.1 hr
        have hword : (UInt32.ofNat (m + 1)).toNat = m + 1 :=
          UInt32.toNat_ofNat_of_lt' (Nat.lt_of_le_pred (by decide) hm)
        cases h
        rw [hword]
        exact ⟨hd, by rw [UInt32.size] at hm; constructor <;> omega⟩
      · cases h
  · rintro ⟨hd, hpos, -⟩
    have hs : s ≠ "all" := by
      rintro rfl
      exact not_denotes_all hd
    have hr : Numeral.read (UInt32.size - 1) s = .ok k.toNat :=
      Numeral.read_eq_ok.2 ⟨hd, Nat.le_pred_of_lt hlt⟩
    obtain ⟨m, hm⟩ : ∃ m, k.toNat = m + 1 := ⟨k.toNat - 1, by omega⟩
    have hword : UInt32.ofNat (m + 1) = k := by rw [← hm, UInt32.ofNat_toNat]
    rw [if_neg hs, hr, hm]
    simp only [hword]

theorem parse_eq_error : parse s = .error e ↔
    e = .invalidBatch .notASize ∧ s ≠ "all" ∧ ¬ ∃ m : Nat, Denotes s m ∧ Fits m := by
  constructor
  · intro h
    refine ⟨Command.parse_eq_error h, ?_, ?_⟩
    · intro hs
      rw [parse_eq_all.2 hs] at h
      cases h
    · rintro ⟨m, hd, hfit⟩
      obtain ⟨k, hk⟩ := exists_word hfit
      cases Int.ofNat.inj hk
      rw [parse_eq_number.2 ⟨hd, hfit⟩] at h
      cases h
  · rintro ⟨rfl, hs, hno⟩
    cases h : parse s with
    | error e => rw [Command.parse_eq_error h]
    | ok size =>
      cases size with
      | all => exact absurd (parse_eq_all.1 h) hs
      | number k => exact absurd ⟨_, parse_eq_number.1 h⟩ hno

/-- An integer's decimal text is a batch size exactly if the integer fits. -/
theorem parse_toString : parse (toString n) = .ok size ↔
    ∃ k : UInt32, (k.toNat : Int) = n ∧ Fits n ∧ size = .number k := by
  cases size with
  | all =>
    rw [parse_eq_all]
    constructor
    · intro hall
      cases n with
      | ofNat m => exact absurd (hall ▸ Numeral.denotes_toString.2 rfl) (@not_denotes_all m)
      | negSucc m =>
        have hs := Numeral.toList_toString_negSucc m
        rw [hall] at hs
        cases hs
    · rintro ⟨_, _, _, h⟩
      cases h
  | number k =>
    rw [parse_eq_number, Numeral.denotes_toString]
    constructor
    · rintro ⟨rfl, hfit⟩
      exact ⟨k, rfl, hfit, rfl⟩
    · rintro ⟨k, rfl, hfit, ⟨⟩⟩
      exact ⟨rfl, hfit⟩

end BatchSize

/-! ## Batch sizes that are set and checked -/

open BatchSize (Fits)

namespace QueryOptions

variable {o o' : QueryOptions} {n : Int} {e : Failure}

/-- What is wrong with a number that does not fit. -/
inductive Refuses : Int → Misconfiguration → Prop
  | notPositive {n : Int} (h : n < 1) : Refuses n (.batchSizeNotPositive n)
  | tooLarge {n : Int} (h : 4294967295 < n) : Refuses n (.batchSizeTooLarge n)

theorem Refuses.not_fits {m : Misconfiguration} (h : Refuses n m) : ¬ Fits n := by
  rintro ⟨hpos, hle⟩
  cases h <;> omega

theorem Refuses.unique {m m' : Misconfiguration} (h : Refuses n m) (h' : Refuses n m') : m = m' := by
  cases h with
  | notPositive hpos =>
    cases h' with
    | notPositive => rfl
    | tooLarge hlarge => omega
  | tooLarge hlarge =>
    cases h' with
    | notPositive hpos => omega
    | tooLarge => rfl

theorem withBatchSize_eq_ok : o.withBatchSize n = .ok o' ↔
    ∃ k : UInt32, (k.toNat : Int) = n ∧ Fits n ∧ o' = { o with batchSize := .number k } := by
  unfold withBatchSize
  constructor
  · intro h
    split_ifs at h with hpos hlarge
    have hfit : Fits n := by
      rw [UInt32.size] at hlarge
      constructor <;> omega
    obtain ⟨k, hk⟩ := BatchSize.exists_word hfit
    have hword : UInt32.ofNat n.toNat = k := by rw [← hk, Int.toNat_natCast, UInt32.ofNat_toNat]
    rw [hword] at h
    exact ⟨k, hk, hfit, (Except.ok.inj h).symm⟩
  · rintro ⟨k, rfl, ⟨hpos, hle⟩, rfl⟩
    rw [if_neg (by omega), if_neg (by rw [UInt32.size]; omega), Int.toNat_natCast,
      UInt32.ofNat_toNat]

theorem withBatchSize_eq_error :
    o.withBatchSize n = .error e ↔ ∃ m, Refuses n m ∧ e = .misconfiguration m := by
  unfold withBatchSize
  constructor
  · intro h
    split_ifs at h with hpos hlarge
    · exact ⟨_, .notPositive hpos, (Except.error.inj h).symm⟩
    · exact ⟨_, .tooLarge (by rw [UInt32.size] at hlarge; omega), (Except.error.inj h).symm⟩
  · rintro ⟨m, hm, rfl⟩
    cases hm with
    | notPositive hpos => rw [if_pos hpos]
    | tooLarge hlarge =>
      rw [if_neg (by omega), if_pos (by rw [UInt32.size]; omega)]

/-- The checks agree with one another: what may be entered is what is let through. -/
theorem validate_iff_entered :
    o.validate = .ok () ↔ ∃ s, BatchSize.parse s = .ok o.batchSize := by
  rw [validate_eq_ok]
  cases o.batchSize with
  | all => exact ⟨fun _ => ⟨"all", BatchSize.parse_eq_all.2 rfl⟩, nofun⟩
  | number k =>
    rw [Ne, BatchSize.number.injEq, ← Ne, ← BatchSize.fits_toNat]
    constructor
    · exact fun hfit => ⟨toString (k.toNat : Int), BatchSize.parse_toString.2 ⟨k, rfl, hfit, rfl⟩⟩
    · rintro ⟨s, hs⟩
      exact (BatchSize.parse_eq_number.1 hs).2

end QueryOptions

/-- **All ways to give a batch size draw the same line.** A text is taken for `all` if it is that
word, and for a number if it is a numeral of it and the number fits; any other text is refused, and
always in the same words. A number is set exactly if its decimal text could be entered, and the batch
size is then the one that would be entered. What is set passes the check made when a query is opened,
and so does what is entered: the check passes just the batch sizes that some text is taken for. -/
theorem batch_sizes_agree (s : String) (o : QueryOptions) (n : Int) :
    (BatchSize.parse s = .ok .all ↔ s = "all") ∧
    (∀ k : UInt32, BatchSize.parse s = .ok (.number k) ↔
      Denotes s k.toNat ∧ Fits k.toNat) ∧
    (∀ e, BatchSize.parse s = .error e ↔ e = .invalidBatch .notASize ∧ s ≠ "all" ∧
      ¬ ∃ m : Nat, Denotes s m ∧ Fits m) ∧
    (∀ o', o.withBatchSize n = .ok o' ↔
      ∃ size, BatchSize.parse (toString n) = .ok size ∧ o' = { o with batchSize := size }) ∧
    (∀ o', o.withBatchSize n = .ok o' → o'.validate = .ok ()) ∧
    (o.validate = .ok () ↔ ∃ t, BatchSize.parse t = .ok o.batchSize) := by
  have hset (o' : QueryOptions) : o.withBatchSize n = .ok o' ↔
      ∃ size, BatchSize.parse (toString n) = .ok size ∧ o' = { o with batchSize := size } := by
    rw [QueryOptions.withBatchSize_eq_ok]
    constructor
    · rintro ⟨k, hk, hfit, ho⟩
      exact ⟨_, BatchSize.parse_toString.2 ⟨k, hk, hfit, rfl⟩, ho⟩
    · rintro ⟨size, hsize, ho⟩
      obtain ⟨k, hk, hfit, rfl⟩ := BatchSize.parse_toString.1 hsize
      exact ⟨k, hk, hfit, ho⟩
  refine ⟨BatchSize.parse_eq_all, fun k => BatchSize.parse_eq_number,
    fun e => BatchSize.parse_eq_error, hset, fun o' ho => ?_, QueryOptions.validate_iff_entered⟩
  obtain ⟨size, hsize, rfl⟩ := (hset o').1 ho
  exact QueryOptions.validate_iff_entered.2 ⟨_, hsize⟩

/-- The greatest number, entered with a sign and zeros in front, is the one that can be set; the next
one can neither be entered nor set. -/
theorem batch_sizes_agree_greatest :
    (∃ s o o' n, s = "+0004294967295" ∧ o = ({} : QueryOptions) ∧ n = 4294967295 ∧
      BatchSize.parse s = .ok (.number 4294967295) ∧ o.withBatchSize n = .ok o' ∧
      o'.batchSize = .number 4294967295 ∧ o'.validate = .ok ()) ∧
    ∃ s n, s = "4294967296" ∧ n = 4294967296 ∧
      BatchSize.parse s = .error (.invalidBatch .notASize) ∧
      ∀ o o' : QueryOptions, o.withBatchSize n ≠ .ok o' := by
  have hdigits : Numeral.Digits "0004294967295".toList 4294967295 := by
    simp [Numeral.Digits, Nat.ofDigitChars]
  have hlarge : Numeral.Digits "4294967296".toList 4294967296 := by
    simp [Numeral.Digits, Nat.ofDigitChars]
  have hset : ({} : QueryOptions).withBatchSize 4294967295 =
    .ok { batchSize := .number 4294967295 } := rfl
  obtain ⟨-, hnumber, -, -, hchecked, -⟩ := batch_sizes_agree "+0004294967295" {} 4294967295
  obtain ⟨-, -, hrefused, -⟩ := batch_sizes_agree "4294967296" {} 0
  refine ⟨⟨_, _, _, _, rfl, rfl, rfl, ?_, hset, rfl, hchecked _ hset⟩, _, _, rfl, rfl, ?_, ?_⟩
  · exact (hnumber _).2 ⟨⟨_, hdigits, .inr rfl⟩, by decide, by decide⟩
  · refine (hrefused _).2 ⟨rfl, by decide, ?_⟩
    rintro ⟨m, hm, hfit⟩
    rw [hm.unique ⟨_, hlarge, .inl rfl⟩] at hfit
    exact absurd hfit.2 (by decide)
  · intro o o' h
    obtain ⟨size, hsize, -⟩ := ((batch_sizes_agree "" o 4294967296).2.2.2.1 o').1 h
    obtain ⟨k, -, hfit, -⟩ := BatchSize.parse_toString.1 hsize
    exact absurd hfit.2 (by decide)

end QueryLanes
