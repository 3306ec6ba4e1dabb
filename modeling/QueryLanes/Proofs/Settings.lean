import Mathlib.Data.List.DropRight
import QueryLanes.Proofs.Sizing

/-!
# Settings

A list of settings builds options. `settled` reads off the list what each field comes to, without
applying a setting: the value of the last one that set the field after the last restart, and what the
restart left if there is none. One setting more changes `settled` as it changes the options that it
is applied to (`apply_settled_eq_ok`); so `last_setting_wins` says that this is what is built, unless
a number is refused, and then it is the first that does not fit (`FirstRefused`).
-/

namespace QueryLanes

open BatchSize (Fits)

namespace QueryOptions

namespace Setting

/-- The batch size to start over from. -/
def restart? : Setting → Option BatchSize
  | .restart size => some size
  | _ => none

/-- The batch size that is set, other than by starting over. -/
def size? : Setting → Option BatchSize
  | .batchSize n => some (.number (UInt32.ofNat n.toNat))
  | .all => some .all
  | _ => none

def infer? : Setting → Option Bool
  | .infer b => some b
  | _ => none

def explain? : Setting → Option Bool
  | .explain b => some b
  | _ => none

end Setting

variable {α : Type} {o : QueryOptions} {settings : List Setting} {s : Setting} {e : Failure}
  {m m' : Misconfiguration}

/-- The value of the last setting that `f` finds one in. -/
def lastOf (f : Setting → Option α) (settings : List Setting) : Option α :=
  settings.reverse.findSome? f

/-- The settings after the last restart. -/
def recent (settings : List Setting) : List Setting :=
  settings.rtakeWhile fun s => s.restart?.isNone

/-- The batch size that the last restart left, or else the default one. -/
def base (settings : List Setting) : BatchSize :=
  (lastOf Setting.restart? settings).getD ({} : QueryOptions).batchSize

/-- What settings come to, read off the list. -/
def settled (settings : List Setting) : QueryOptions where
  batchSize := (lastOf Setting.size? (recent settings)).getD (base settings)
  infer := lastOf Setting.infer? (recent settings)
  explain := lastOf Setting.explain? (recent settings)

theorem lastOf_concat (f : Setting → Option α) (settings : List Setting) (s : Setting) :
    lastOf f (settings ++ [s]) = (f s).or (lastOf f settings) := by
  rw [lastOf, List.reverse_concat, List.findSome?_cons]
  cases f s <;> rfl

theorem recent_concat_restart (settings : List Setting) (size : BatchSize) :
    recent (settings ++ [.restart size]) = [] := by
  rw [recent, List.rtakeWhile_concat_neg _ _ _ (by simp [Setting.restart?])]

theorem recent_concat (h : s.restart? = none) :
    recent (settings ++ [s]) = recent settings ++ [s] := by
  rw [recent, List.rtakeWhile_concat_pos _ _ _ (by simp [h])]
  rfl

theorem lastOf_eq_some {f : Setting → Option α} {a : α} : lastOf f settings = some a ↔
    ∃ before s after, settings = before ++ s :: after ∧ f s = some a ∧ ∀ t ∈ after, f t = none := by
  rw [lastOf, List.findSome?_eq_some_iff]
  constructor
  · rintro ⟨after, s, before, hs, ha, hnone⟩
    refine ⟨before.reverse, s, after.reverse, ?_, ha, fun t ht => hnone t (List.mem_reverse.1 ht)⟩
    rw [← List.reverse_reverse settings, hs]
    simp
  · rintro ⟨before, s, after, rfl, ha, hnone⟩
    exact ⟨after.reverse, s, before.reverse, by simp, ha,
      fun t ht => hnone t (List.mem_reverse.1 ht)⟩

/-! ## One more setting -/

theorem settled_concat_restart (settings : List Setting) (size : BatchSize) :
    settled (settings ++ [.restart size]) = ofBatchSize size := by
  have hbase : base (settings ++ [.restart size]) = size := by
    rw [base, lastOf_concat]
    rfl
  rw [settled, recent_concat_restart, hbase]
  rfl

/-- A setting that is no restart writes its own field and leaves the others as they are. -/
theorem settled_concat (h : s.restart? = none) : settled (settings ++ [s]) =
    { batchSize := s.size?.getD (settled settings).batchSize
      infer := s.infer?.or (settled settings).infer
      explain := s.explain?.or (settled settings).explain } := by
  have hbase : base (settings ++ [s]) = base settings := by
    rw [base, lastOf_concat, h]
    rfl
  simp only [settled, recent_concat h, hbase, lastOf_concat, Option.getD_or]

/-- What is applied to options that are settled settles one setting more. -/
theorem apply_settled_eq_ok : (settled settings).apply s = .ok o ↔
    (∀ n, s = .batchSize n → Fits n) ∧ o = settled (settings ++ [s]) := by
  cases s with
  | batchSize n =>
    rw [apply, withBatchSize_eq_ok, settled_concat rfl]
    constructor
    · rintro ⟨k, rfl, hfit, rfl⟩
      refine ⟨?_, by simp [Setting.size?, Setting.infer?, Setting.explain?]⟩
      rintro _ ⟨⟩
      exact hfit
    · rintro ⟨hfit, rfl⟩
      obtain ⟨k, hk⟩ := BatchSize.exists_word (hfit n rfl)
      exact ⟨k, hk, hfit n rfl, by simp [← hk, Setting.size?, Setting.infer?, Setting.explain?]⟩
  | all | infer | explain =>
    rw [apply, settled_concat rfl]
    simp [withAll, withInfer, withExplain, eq_comm, Setting.size?, Setting.infer?,
      Setting.explain?]
  | restart size =>
    rw [apply, settled_concat_restart]
    simp [eq_comm]

/-! ## Runs of settings -/

theorem applyAll_concat (o : QueryOptions) (settings : List Setting) (s : Setting) :
    o.applyAll (settings ++ [s]) = (o.applyAll settings).bind (·.apply s) := by
  induction settings generalizing o with
  | nil =>
    rw [List.nil_append, applyAll, applyAll]
    cases h : o.apply s <;> simp [bind, Except.bind, applyAll, h]
  | cons t settings ih =>
    rw [List.cons_append, applyAll, applyAll]
    cases h : o.apply t with
    | error e => rfl
    | ok o' => exact ih o'

/-- Settings build what they come to, unless a number among them does not fit. -/
theorem build_eq_ok : build settings = .ok o ↔
    (∀ n, .batchSize n ∈ settings → Fits n) ∧ o = settled settings := by
  induction settings using List.reverseRecOn generalizing o with
  | nil => simp [build, applyAll, settled, recent, base, lastOf, eq_comm]
  | append_singleton settings s ih =>
    rw [build, applyAll_concat, ← build]
    simp only [List.mem_append, List.mem_singleton, or_imp, forall_and]
    by_cases hfit : ∀ n, .batchSize n ∈ settings → Fits n
    · have hb : build settings = .ok (settled settings) := ih.2 ⟨hfit, rfl⟩
      rw [hb, Except.bind, apply_settled_eq_ok, and_iff_right hfit]
      simp only [eq_comm]
    · cases hb : build settings with
      | error e => simp [Except.bind, hfit]
      | ok o' => exact absurd (ih.1 hb).1 hfit

/-! ## The first refusal -/

/-- A number does not fit and is refused for `m`; what is set before it fits. -/
def FirstRefused (settings : List Setting) (m : Misconfiguration) : Prop :=
  ∃ before n after, settings = before ++ .batchSize n :: after ∧
    (∀ k, .batchSize k ∈ before → Fits k) ∧ Refuses n m

theorem firstRefused_cons_of_fits (hs : ∀ n, s = .batchSize n → Fits n) :
    FirstRefused (s :: settings) m ↔ FirstRefused settings m := by
  constructor
  · rintro ⟨before, n, after, happend, hfit, hm⟩
    cases before with
    | nil =>
      cases happend
      exact absurd (hs n rfl) hm.not_fits
    | cons t before =>
      cases happend
      exact ⟨before, n, after, rfl, fun k hk => hfit k (List.mem_cons_of_mem _ hk), hm⟩
  · rintro ⟨before, n, after, rfl, hfit, hm⟩
    refine ⟨s :: before, n, after, rfl, fun k hk => ?_, hm⟩
    rcases List.mem_cons.1 hk with rfl | hk
    · exact hs k rfl
    · exact hfit k hk

theorem firstRefused_cons {n : Int} (hm : Refuses n m) :
    FirstRefused (.batchSize n :: settings) m' ↔ m' = m := by
  constructor
  · rintro ⟨before, n', after, happend, hfit, hm'⟩
    cases before with
    | nil =>
      cases happend
      exact hm'.unique hm
    | cons t before =>
      cases happend
      exact absurd (hfit n List.mem_cons_self) hm.not_fits
  · rintro rfl
    exact ⟨[], n, settings, rfl, nofun, hm⟩

theorem apply_eq_error :
    o.apply s = .error e ↔ ∃ n m, s = .batchSize n ∧ Refuses n m ∧ e = .misconfiguration m := by
  cases s <;> simp [apply, withBatchSize_eq_error]

theorem fits_of_apply {o' : QueryOptions} (h : o.apply s = .ok o') :
    ∀ n, s = .batchSize n → Fits n := by
  rintro n rfl
  obtain ⟨k, -, hfit, -⟩ := withBatchSize_eq_ok.1 h
  exact hfit

/-- The first number that does not fit is refused, and nothing is built. -/
theorem applyAll_eq_error :
    o.applyAll settings = .error e ↔ ∃ m, FirstRefused settings m ∧ e = .misconfiguration m := by
  induction settings generalizing o with
  | nil => simp [applyAll, FirstRefused]
  | cons s settings ih =>
    rw [applyAll]
    cases h : o.apply s with
    | error e' =>
      obtain ⟨n, m, rfl, hm, rfl⟩ := apply_eq_error.1 h
      simp only [firstRefused_cons hm, exists_eq_left]
      constructor
      · rintro ⟨⟩
        rfl
      · rintro rfl
        rfl
    | ok o' =>
      simp only [firstRefused_cons_of_fits (fits_of_apply h)]
      exact ih

/-! ## The last setting -/

/-- Of what sets the batch size, restarts included, the last counts. -/
theorem batchSize_settled (settings : List Setting) : (settled settings).batchSize =
    (lastOf (fun s => s.size?.or s.restart?) settings).getD ({} : QueryOptions).batchSize := by
  induction settings using List.reverseRecOn with
  | nil => rfl
  | append_singleton settings s ih =>
    rw [lastOf_concat]
    cases hr : s.restart? with
    | none => rw [settled_concat hr, Option.or_none, Option.getD_or, ← ih]
    | some size =>
      cases s <;> cases hr
      rw [settled_concat_restart]
      rfl

/-- What is built has batches without room exactly if it was started over from that, and no size was
set since. -/
theorem batchSize_settled_eq_zero (hfit : ∀ n, .batchSize n ∈ settings → Fits n) :
    (settled settings).batchSize = .number 0 ↔
      ∃ before after, settings = before ++ .restart (.number 0) :: after ∧
        ∀ s ∈ after, s.size? = none ∧ s.restart? = none := by
  have hdefault (size : Option BatchSize) :
      size.getD ({} : QueryOptions).batchSize = .number 0 ↔ size = some (.number 0) := by
    cases size with
    | none => exact iff_of_false (by decide) nofun
    | some size => simp
  rw [batchSize_settled, hdefault, lastOf_eq_some]
  simp only [Option.or_eq_none_iff]
  constructor
  · rintro ⟨before, s, after, rfl, hs, hafter⟩
    obtain rfl : s = .restart (.number 0) := by
      cases s with
      | batchSize n =>
        -- a number that was set is not zero
        have hn := hfit n (by simp)
        obtain ⟨k, rfl⟩ := BatchSize.exists_word hn
        have hk : k ≠ 0 := BatchSize.fits_toNat.1 hn
        simp [Setting.size?, hk] at hs
      | restart size =>
        cases hs
        rfl
      | _ => cases hs
    exact ⟨before, after, rfl, hafter⟩
  · rintro ⟨before, after, rfl, hafter⟩
    exact ⟨before, _, after, rfl, rfl, hafter⟩

/-- **The last setting wins, field by field.** Settings build nothing exactly if a number among them
does not fit, and the first such number is what is complained of. Otherwise each field of the options,
which go out as they are with every fetch, holds the value that the last setting after the last
restart gave it; without such a setting the batch size is what the restart left, or the default one if
there was none, and the flags are not set. Options that were built are refused when a query is opened
with them exactly if the last setting of the batch size was a restart from batches without room. -/
theorem last_setting_wins (settings : List Setting) :
    (∀ e, build settings = .error e ↔ ∃ m, FirstRefused settings m ∧ e = .misconfiguration m) ∧
    (∀ o, build settings = .ok o ↔ (∀ n, .batchSize n ∈ settings → Fits n) ∧
      o.batchSize = (lastOf Setting.size? (recent settings)).getD (base settings) ∧
      o.infer = lastOf Setting.infer? (recent settings) ∧
      o.explain = lastOf Setting.explain? (recent settings)) ∧
    ∀ o, build settings = .ok o → ∀ e, o.validate = .error e ↔
      e = .misconfiguration (.batchSizeNotPositive 0) ∧
        ∃ before after, settings = before ++ .restart (.number 0) :: after ∧
          ∀ s ∈ after, s.size? = none ∧ s.restart? = none := by
  refine ⟨fun e => applyAll_eq_error, fun o => ?_, fun o ho e => ?_⟩
  · rw [build_eq_ok]
    cases o
    simp only [settled, mk.injEq]
  · obtain ⟨hfit, rfl⟩ := build_eq_ok.1 ho
    rw [validate_eq_error, batchSize_settled_eq_zero hfit]

/-- The flag that was set before the restart is gone, the later of two flags counts, and what was
started over from is noticed only when a query is opened. A number too large is refused though there
is a restart after it. -/
theorem last_setting_wins_restarted :
    (∃ settings o, settings = [.infer true, .batchSize 3, .restart (.number 0), .explain true,
        .explain false] ∧
      build settings = .ok o ∧ o.batchSize = .number 0 ∧ o.infer = none ∧ o.explain = some false ∧
      o.validate = .error (.misconfiguration (.batchSizeNotPositive 0))) ∧
    ∃ settings, settings = [.batchSize 3, .batchSize 4294967296, .batchSize 0, .restart .all] ∧
      build settings = .error (.misconfiguration (.batchSizeTooLarge 4294967296)) := by
  obtain ⟨-, hok, hcheck⟩ := last_setting_wins [.infer true, .batchSize 3, .restart (.number 0),
    .explain true, .explain false]
  have hbuilt := (hok ⟨.number 0, none, some false⟩).2 ⟨by simp [Fits], rfl, rfl, rfl⟩
  refine ⟨⟨_, _, rfl, hbuilt, rfl, rfl, rfl, ?_⟩, _, rfl, ?_⟩
  · exact (hcheck _ hbuilt _).2 ⟨rfl, [.infer true, .batchSize 3], [.explain true, .explain false],
      rfl, by simp [Setting.size?, Setting.restart?]⟩
  · exact ((last_setting_wins _).1 _).2 ⟨_, ⟨[.batchSize 3], 4294967296,
      [.batchSize 0, .restart .all], rfl, by simp [Fits], .tooLarge (by decide)⟩, rfl⟩

end QueryOptions

end QueryLanes
