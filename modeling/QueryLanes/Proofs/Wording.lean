import Mathlib.Data.List.Basic
import Mathlib.Data.List.TakeWhile
import QueryLanes.Text.Blank

/-!
# Trimmed texts and words

What trimming and splitting a text come to, said without the functions that do it. `Trims t s` says
that `s` is what is left of `t` without the blanks at its ends, and `trims_iff` that trimming finds
it. `Words cs ws` says that `ws` are the words of `cs`: characters that are not blank, as many as
stand together, with blanks before, between and after them; `words_eq_iff` says that splitting finds
just these.
-/

namespace QueryLanes.Text

variable {cs gap w rest begun before after : List Char} {ws : List (List Char)}

/-! ## Trimming -/

/-- All characters are blank. -/
def Blank (cs : List Char) : Prop := ∀ c ∈ cs, isBlank c = true

/-- Without the blanks at its ends `t` is `s`. -/
def Trims (t s : String) : Prop :=
  ∃ before after, t.toList = before ++ s.toList ++ after ∧ Blank before ∧ Blank after ∧
    (∀ c, s.toList.head? = some c → isBlank c = false) ∧
    ∀ c, s.toList.getLast? = some c → isBlank c = false

theorem dropWhile_blank_append (hg : Blank gap) (cs : List Char) :
    (gap ++ cs).dropWhile isBlank = cs.dropWhile isBlank :=
  List.dropWhile_append_of_pos hg

theorem dropWhile_of_head (h : ∀ c, cs.head? = some c → isBlank c = false) :
    cs.dropWhile isBlank = cs := by
  cases cs with
  | nil => rfl
  | cons c cs => rw [List.dropWhile_cons_of_neg (by simp [h c rfl])]

/-- Blanks around characters that neither start nor end with one are trimmed off. -/
theorem trimChars_append (hb : Blank before) (ha : Blank after)
    (hhead : ∀ c, cs.head? = some c → isBlank c = false)
    (hlast : ∀ c, cs.getLast? = some c → isBlank c = false) :
    trimChars (before ++ cs ++ after) = cs := by
  have hback : Blank after.reverse := fun c hc => ha c (List.mem_reverse.1 hc)
  rcases eq_or_ne cs [] with rfl | hne
  · have hall : (before ++ [] ++ after).dropWhile isBlank = [] := by
      rw [List.append_nil, dropWhile_blank_append hb, List.dropWhile_eq_nil_iff]
      exact ha
    rw [trimChars, hall]
    rfl
  · have hfront : (before ++ cs ++ after).dropWhile isBlank = cs ++ after := by
      rw [List.append_assoc, dropWhile_blank_append hb]
      refine dropWhile_of_head fun c hc => hhead c ?_
      rwa [List.head?_append_of_ne_nil _ hne] at hc
    have hrev : cs.reverse.dropWhile isBlank = cs.reverse :=
      dropWhile_of_head fun c hc => hlast c (by rwa [List.head?_reverse] at hc)
    rw [trimChars, hfront, List.reverse_append, dropWhile_blank_append hback, hrev,
      List.reverse_reverse]

theorem isBlank_of_head_dropWhile {c : Char} (h : (cs.dropWhile isBlank).head? = some c) :
    isBlank c = false := by
  have hnot := List.head?_dropWhile_not isBlank cs
  rwa [h] at hnot

/-- What trimming leaves stands between blanks, and neither starts nor ends with one. -/
theorem exists_trimChars (cs : List Char) :
    ∃ before after, cs = before ++ trimChars cs ++ after ∧ Blank before ∧ Blank after ∧
      (∀ c, (trimChars cs).head? = some c → isBlank c = false) ∧
      ∀ c, (trimChars cs).getLast? = some c → isBlank c = false := by
  obtain ⟨middle, hm⟩ : ∃ middle, cs.dropWhile isBlank = middle := ⟨_, rfl⟩
  have hfront : cs = cs.takeWhile isBlank ++ middle := by
    rw [← hm, List.takeWhile_append_dropWhile]
  have hback : middle = trimChars cs ++ (middle.reverse.takeWhile isBlank).reverse := by
    rw [trimChars, hm, ← List.reverse_append, List.takeWhile_append_dropWhile, List.reverse_reverse]
  refine ⟨cs.takeWhile isBlank, (middle.reverse.takeWhile isBlank).reverse, ?_,
    fun c => List.mem_takeWhile_imp, fun c hc => List.mem_takeWhile_imp (List.mem_reverse.1 hc),
    fun c hc => ?_, fun c hc => ?_⟩
  · rw [List.append_assoc, ← hback]
    exact hfront
  · refine @isBlank_of_head_dropWhile cs c ?_
    have hne : trimChars cs ≠ [] := by
      rintro hnil
      rw [hnil] at hc
      cases hc
    rw [hm, hback, List.head?_append_of_ne_nil _ hne]
    exact hc
  · refine @isBlank_of_head_dropWhile middle.reverse c ?_
    rwa [trimChars, hm, List.getLast?_reverse] at hc

theorem trims_iff {t s : String} : Trims t s ↔ s = trim t := by
  constructor
  · rintro ⟨before, after, ht, hb, ha, hhead, hlast⟩
    rw [trim, ht, trimChars_append hb ha hhead hlast, String.ofList_toList]
  · rintro rfl
    rw [Trims, trim, String.toList_ofList]
    exact exists_trimChars t.toList

/-! ## Words -/

/-- A word has characters, and none is blank. -/
def IsWord (w : List Char) : Prop := w ≠ [] ∧ ∀ c ∈ w, isBlank c = false

/-- The words of some characters, in order. -/
inductive Words : List Char → List (List Char) → Prop
  /-- There is nothing but blanks. -/
  | none {gap : List Char} (hgap : Blank gap) : Words gap []
  /-- After a word there is a blank, or nothing. -/
  | word {gap w rest : List Char} {ws : List (List Char)} (hgap : Blank gap) (hw : IsWord w)
      (hend : ∀ c, rest.head? = some c → isBlank c = true) (hrest : Words rest ws) :
      Words (gap ++ w ++ rest) (w :: ws)

theorem Words.cons_blank {c : Char} (hc : isBlank c = true) (h : Words cs ws) :
    Words (c :: cs) ws := by
  have hmore {gap : List Char} (hgap : Blank gap) : Blank (c :: gap) :=
    List.forall_mem_cons.2 ⟨hc, hgap⟩
  cases h with
  | none hgap => exact .none (hmore hgap)
  | word hgap hw hend hrest => exact .word (hmore hgap) hw hend hrest

theorem isWord_reverse (hne : begun ≠ []) (hb : ∀ c ∈ begun, isBlank c = false) :
    IsWord begun.reverse :=
  ⟨mt List.reverse_eq_nil_iff.1 hne, fun c hc => hb c (List.mem_reverse.1 hc)⟩

theorem blank_nil : Blank [] := fun _ hc => nomatch hc

/-- A word that was begun, and what follows it. -/
theorem words_wordsFrom (hb : ∀ c ∈ begun, isBlank c = false) (cs : List Char) :
    Words (begun.reverse ++ cs) (wordsFrom begun cs) := by
  induction cs generalizing begun with
  | nil =>
    rw [wordsFrom]
    cases begun with
    | nil => exact .none blank_nil
    | cons b begun =>
      exact .word blank_nil (isWord_reverse (List.cons_ne_nil _ _) hb) nofun (.none blank_nil)
  | cons c cs ih =>
    rw [wordsFrom]
    by_cases hc : isBlank c = true
    · have hrest : Words (c :: cs) (wordsFrom [] cs) := .cons_blank hc (@ih [] nofun)
      rw [if_pos hc]
      cases begun with
      | nil => exact hrest
      | cons b begun =>
        refine .word blank_nil (isWord_reverse (List.cons_ne_nil _ _) hb) (fun c' hc' => ?_) hrest
        cases hc'
        exact hc
    · have hmore : ∀ b ∈ c :: begun, isBlank b = false :=
        List.forall_mem_cons.2 ⟨Bool.eq_false_iff.2 hc, hb⟩
      have hrest := ih hmore
      rw [if_neg hc]
      rwa [List.reverse_cons, List.append_assoc] at hrest

theorem wordsFrom_blank_append (hg : Blank gap) (cs : List Char) :
    wordsFrom [] (gap ++ cs) = wordsFrom [] cs := by
  induction gap with
  | nil => rfl
  | cons c gap ih =>
    obtain ⟨hc, hg⟩ := List.forall_mem_cons.1 hg
    rw [List.cons_append, wordsFrom, if_pos hc]
    exact ih hg

theorem wordsFrom_word_append (hw : ∀ c ∈ w, isBlank c = false) (begun rest : List Char) :
    wordsFrom begun (w ++ rest) = wordsFrom (w.reverse ++ begun) rest := by
  induction w generalizing begun with
  | nil => rfl
  | cons c w ih =>
    obtain ⟨hc, hw⟩ := List.forall_mem_cons.1 hw
    rw [List.cons_append, wordsFrom, if_neg (by simp [hc]), ih hw, List.reverse_cons,
      List.append_assoc]
    rfl

/-- A word that was begun is over where nothing or a blank follows. -/
theorem wordsFrom_end (hne : begun ≠ []) (hend : ∀ c, rest.head? = some c → isBlank c = true) :
    wordsFrom begun rest = begun.reverse :: wordsFrom [] rest := by
  have hbegun : begun.isEmpty = false := List.isEmpty_eq_false_iff.2 hne
  cases rest with
  | nil => simp [wordsFrom, hbegun]
  | cons c rest => simp [wordsFrom, hend c rfl, hbegun]

theorem Words.wordsFrom (h : Words cs ws) : wordsFrom [] cs = ws := by
  induction h with
  | none hgap => simpa [Text.wordsFrom] using wordsFrom_blank_append hgap []
  | @word gap w rest ws hgap hw hend hrest ih =>
    rw [List.append_assoc, wordsFrom_blank_append hgap, wordsFrom_word_append hw.2,
      List.append_nil, wordsFrom_end (mt List.reverse_eq_nil_iff.1 hw.1) hend, List.reverse_reverse,
      ih]

/-- The words of a text. -/
def WordsOf (s : String) (ws : List String) : Prop := Words s.toList (ws.map String.toList)

theorem words_eq_iff {s : String} {ws : List String} : words s = ws ↔ WordsOf s ws := by
  constructor
  · rintro rfl
    have h := @words_wordsFrom [] nofun s.toList
    rw [WordsOf, words, List.map_map]
    simpa using h
  · intro h
    rw [words, h.wordsFrom, List.map_map]
    simp

end QueryLanes.Text
