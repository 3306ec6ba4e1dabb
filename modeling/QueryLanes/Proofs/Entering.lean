import QueryLanes.Console.Command
import QueryLanes.Proofs.Wording

/-!
# What may be entered

`Command.Means` says what a trimmed line is meant to be, one constructor for each way to enter
something: `.exit`, `.commit` and `.rollback` stand alone, `.batch` has one argument, and what else
starts with a dot is not recognized. A line is taken for what it means unless it is `Misread`: any
first word that starts with `.batch` counts as that command, and what follows the second word is
passed over. A line means one thing, up to the words in which a batch size is refused
(`Means.unique`). `entered` says what each line is taken for, and which lines change the batch size.
-/

namespace QueryLanes

open Text (WordsOf Words IsWord isBlank)

/-! ## The first word -/

namespace Text

variable {p w rest : List Char}

/-- What starts with characters that are not blank, starts with them in its first word. -/
theorem prefix_append_iff (hp : ∀ c ∈ p, isBlank c = false)
    (hend : ∀ c, rest.head? = some c → isBlank c = true) : p <+: w ++ rest ↔ p <+: w := by
  constructor
  · rintro ⟨more, h⟩
    rcases List.append_eq_append_iff.1 h with ⟨between, rfl, -⟩ | ⟨_ | ⟨c, beyond⟩, rfl, hrest⟩
    · exact List.prefix_append p between
    · simp
    · -- the character after the word would be blank and not blank
      have hblank := hend c (by rw [hrest]; rfl)
      rw [hp c (by simp)] at hblank
      cases hblank
  · exact fun h => h.trans (List.prefix_append w rest)

/-- No blanks stand before what does not start with one. -/
theorem Blank.eq_nil {gap : List Char} (hgap : Blank gap)
    (hs : ∀ c, (gap ++ rest).head? = some c → isBlank c = false) : gap = [] := by
  cases gap with
  | nil => rfl
  | cons c gap =>
    have hc : isBlank c = false := hs c rfl
    rw [hgap c List.mem_cons_self] at hc
    cases hc

/-- A text that does not start with a blank starts with its first word. -/
theorem WordsOf.first {s first : String} {args : List String} (h : WordsOf s (first :: args))
    (hs : ∀ c, s.toList.head? = some c → isBlank c = false) :
    ∃ rest, s.toList = first.toList ++ rest ∧ IsWord first.toList ∧
      (∀ c, rest.head? = some c → isBlank c = true) ∧ Words rest (args.map String.toList) := by
  unfold WordsOf at h
  rw [List.map_cons] at h
  generalize hcs : s.toList = cs at h hs
  cases h with
  | @word gap w rest ws hgap hw hend hrest =>
    rw [List.append_assoc] at hs ⊢
    cases hgap.eq_nil hs
    exact ⟨rest, rfl, hw, hend, hrest⟩

theorem WordsOf.prefix_of_first {s first : String} {args : List String}
    (h : WordsOf s (first :: args)) (hs : ∀ c, s.toList.head? = some c → isBlank c = false)
    (hp : p <+: first.toList) : p <+: s.toList := by
  obtain ⟨rest, htext, -⟩ := h.first hs
  rw [htext]
  exact hp.trans (List.prefix_append _ rest)

theorem WordsOf.prefix_first {s first : String} {args : List String}
    (h : WordsOf s (first :: args)) (hs : ∀ c, s.toList.head? = some c → isBlank c = false)
    (hblank : ∀ c ∈ p, isBlank c = false) (hp : p <+: s.toList) : p <+: first.toList := by
  obtain ⟨rest, htext, -, hend, -⟩ := h.first hs
  rw [htext, prefix_append_iff hblank hend] at hp
  exact hp

theorem WordsOf.eq_empty {s : String} (h : WordsOf s [])
    (hs : ∀ c, s.toList.head? = some c → isBlank c = false) : s = "" := by
  unfold WordsOf at h
  rw [← String.toList_eq_nil_iff]
  generalize s.toList = cs at h hs
  cases h with
  | none hgap =>
    rw [← List.append_nil cs] at hs
    exact hgap.eq_nil hs

theorem exists_words (s : String) : ∃ ws, WordsOf s ws := ⟨words s, words_eq_iff.1 rfl⟩

theorem WordsOf.unique {s : String} {ws ws' : List String} (h : WordsOf s ws)
    (h' : WordsOf s ws') : ws = ws' :=
  (words_eq_iff.2 h).symm.trans (words_eq_iff.2 h')

end Text

namespace Command

variable {s first arg : String} {args : List String} {size : BatchSize}
  {r r' : Except CommandFailure Command}

/-- What a trimmed line is meant to be. -/
inductive Means : String → Except CommandFailure Command → Prop
  | empty : Means "" (.error .empty)
  | exit : Means ".exit" (.ok .exit)
  | commit : Means ".commit" (.ok .commit)
  | rollback : Means ".rollback" (.ok .rollback)
  | batch {s arg : String} {size : BatchSize} (hs : WordsOf s [".batch", arg])
      (hsize : BatchSize.parse arg = .ok size) : Means s (.ok (.batch size))
  /-- The command is there, but not with one argument that is a batch size. -/
  | invalidBatch {s : String} {args : List String} (fault : BatchFault)
      (hs : WordsOf s (".batch" :: args))
      (hno : ∀ arg size, args = [arg] → BatchSize.parse arg ≠ .ok size) :
      Means s (.error (.invalidBatch fault))
  | unrecognized {s first : String} {args : List String} (hs : WordsOf s (first :: args))
      (hdot : s.toList.head? = some '.') (hfirst : first ≠ ".batch")
      (halone : s ∉ [".exit", ".commit", ".rollback"]) : Means s (.error (.unrecognized s))
  | query {s : String} (hne : s ≠ "") (hdot : s.toList.head? ≠ some '.') : Means s (.ok (.query s))

/-- A first word that starts with `.batch` and goes on, or a batch size with something after it. -/
def Misread (s : String) : Prop :=
  ∃ first args, WordsOf s (first :: args) ∧ ".batch".toList <+: first.toList ∧
    (first ≠ ".batch" ∨
      ∃ arg more size, args = arg :: more ∧ more ≠ [] ∧ BatchSize.parse arg = .ok size)

/-- The same, but for what is wrong with the argument of `.batch`. -/
def Agree (r r' : Except CommandFailure Command) : Prop :=
  r = r' ∨ ∃ fault fault', r = .error (.invalidBatch fault) ∧ r' = .error (.invalidBatch fault')

/-- What starts with `.batch` is not empty, no query, and none of the commands that stand alone. -/
theorem dot_of_starts (h : ".batch".toList <+: s.toList) :
    s.toList.head? = some '.' ∧ s ∉ ["", ".exit", ".commit", ".rollback"] := by
  have hnone : ∀ t ∈ ["", ".exit", ".commit", ".rollback"], ¬ ".batch".toList <+: t.toList := by
    decide
  refine ⟨?_, fun halone => hnone s halone h⟩
  obtain ⟨more, hmore⟩ := h
  rw [← hmore]
  rfl

theorem isBlank_of_mem_batch : ∀ c ∈ ".batch".toList, isBlank c = false := by
  have hall : ".batch".toList.all (fun c => !isBlank c) = true := by decide
  simpa using hall

/-- What starts with `.batch` has a first word, and that starts with it. -/
theorem exists_first (hb : ∀ c, s.toList.head? = some c → isBlank c = false)
    (h : ".batch".toList <+: s.toList) :
    ∃ first args, WordsOf s (first :: args) ∧ ".batch".toList <+: first.toList := by
  obtain ⟨ws, hs⟩ := Text.exists_words s
  cases ws with
  | nil =>
    rw [hs.eq_empty hb] at h
    exact absurd h (by decide)
  | cons first args => exact ⟨first, args, hs, hs.prefix_first hb isBlank_of_mem_batch h⟩

/-! ## One thing is meant -/

theorem Means.of_batch (hb : ∀ c, s.toList.head? = some c → isBlank c = false)
    (hs : WordsOf s (".batch" :: args)) (h : Means s r) :
    (∃ arg size, args = [arg] ∧ BatchSize.parse arg = .ok size ∧ r = .ok (.batch size)) ∨
      (∀ arg size, args = [arg] → BatchSize.parse arg ≠ .ok size) ∧
        ∃ fault, r = .error (.invalidBatch fault) := by
  obtain ⟨hdot, halone⟩ := dot_of_starts (hs.prefix_of_first hb (List.prefix_refl _))
  cases h with
  | empty | exit | commit | rollback => exact absurd halone (by decide)
  | batch hs' hsize =>
    cases hs.unique hs'
    exact .inl ⟨_, _, rfl, hsize, rfl⟩
  | invalidBatch fault hs' hno =>
    cases hs.unique hs'
    exact .inr ⟨hno, fault, rfl⟩
  | unrecognized hs' _ hfirst =>
    cases hs.unique hs'
    exact absurd rfl hfirst
  | query _ hno => exact absurd hdot hno

theorem Means.unique (hb : ∀ c, s.toList.head? = some c → isBlank c = false) (h : Means s r)
    (h' : Means s r') : Agree r r' := by
  by_cases hbatch : ∃ args, WordsOf s (".batch" :: args)
  · obtain ⟨args, hs⟩ := hbatch
    rcases h.of_batch hb hs with ⟨arg, size, hargs, hsize, rfl⟩ | ⟨hno, fault, rfl⟩ <;>
      rcases h'.of_batch hb hs with ⟨arg', size', hargs', hsize', rfl⟩ | ⟨hno', fault', rfl⟩
    · cases hargs.symm.trans hargs'
      cases hsize.symm.trans hsize'
      exact .inl rfl
    · exact absurd hsize (hno' arg size hargs)
    · exact absurd hsize' (hno arg' size' hargs')
    · exact .inr ⟨fault, fault', rfl, rfl⟩
  · -- what has no `.batch` is told apart by the text and by its first character
    have hdot : ∀ t ∈ [".exit", ".commit", ".rollback"], t.toList.head? = some '.' := by decide
    generalize hs : s = s' at h'
    have hdot' := hdot s'
    left
    cases h <;> cases h' <;> simp_all

/-! ## What a line is taken for -/

/-- What the words after `.batch` are taken for: the first of them counts. -/
def ofArguments : List String → Except CommandFailure Command
  | [] => .error (.invalidBatch .missing)
  | arg :: _ => (BatchSize.parse arg).map .batch

theorem ofArguments_eq_batch :
    ofArguments args = .ok (.batch size) ↔
      ∃ arg more, args = arg :: more ∧ BatchSize.parse arg = .ok size := by
  cases args with
  | nil => simp [ofArguments]
  | cons arg more => cases h : BatchSize.parse arg <;> simp [ofArguments, h, Except.map]

theorem exists_size_of_ofArguments {c : Command} (h : ofArguments args = .ok c) :
    ∃ size, c = .batch size := by
  cases args with
  | nil => cases h
  | cons arg more =>
    rw [ofArguments] at h
    cases hparse : BatchSize.parse arg <;> rw [hparse] at h <;> cases h
    exact ⟨_, rfl⟩

/-- Whatever is no batch size is refused in the same words. -/
theorem parse_eq_error {e : CommandFailure} (h : BatchSize.parse arg = .error e) :
    e = .invalidBatch .notASize := by
  unfold BatchSize.parse at h
  split at h
  · cases h
  · split at h <;> cases h
    rfl

theorem exists_fault_of_ofArguments {e : CommandFailure} (h : ofArguments args = .error e) :
    ∃ fault, e = .invalidBatch fault := by
  cases args with
  | nil =>
    cases h
    exact ⟨_, rfl⟩
  | cons arg more =>
    rw [ofArguments] at h
    cases hparse : BatchSize.parse arg <;> rw [hparse] at h <;> cases h
    exact ⟨_, parse_eq_error hparse⟩

/-- What starts with `.batch` is decided by the words after the first. -/
theorem ofTrimmed_eq_ofArguments (h : ".batch".toList <+: s.toList)
    (hs : WordsOf s (first :: args)) : ofTrimmed s = ofArguments args := by
  have hne (t : String) (ht : ¬ ".batch".toList <+: t.toList) : s ≠ t := fun he => ht (he ▸ h)
  rw [ofTrimmed, if_neg (hne "" (by decide)), if_neg (hne ".exit" (by decide)),
    if_neg (hne ".commit" (by decide)), if_neg (hne ".rollback" (by decide)),
    if_pos (List.isPrefixOf_iff_prefix.2 h), Text.words_eq_iff.2 hs]
  cases args <;> rfl

/-- What does not start with `.batch` is taken for what it means. -/
theorem means_of_not_batch (hb : ∀ c, s.toList.head? = some c → isBlank c = false)
    (h : ¬ ".batch".toList <+: s.toList) : Means s (ofTrimmed s) := by
  have hp : ".batch".toList.isPrefixOf s.toList = false :=
    Bool.eq_false_iff.2 (mt List.isPrefixOf_iff_prefix.1 h)
  unfold ofTrimmed
  split_ifs with hempty hexit hcommit hrollback hprefix hdot
  · exact hempty ▸ .empty
  · exact hexit ▸ .exit
  · exact hcommit ▸ .commit
  · exact hrollback ▸ .rollback
  · rw [hp] at hprefix
    cases hprefix
  · obtain ⟨ws, hs⟩ := Text.exists_words s
    cases ws with
    | nil => exact absurd (hs.eq_empty hb) hempty
    | cons first args =>
      refine .unrecognized hs hdot ?_ (by simp [hexit, hcommit, hrollback])
      rintro rfl
      exact h (hs.prefix_of_first hb (List.prefix_refl _))
  · exact .query hempty hdot

/-- What starts with `.batch` is taken for what it means if its first word is that command and no
batch size has something after it. -/
theorem means_of_batch (h : ".batch".toList <+: s.toList) (hs : WordsOf s (".batch" :: args))
    (hno : ∀ arg more size, args = arg :: more → BatchSize.parse arg = .ok size → more = []) :
    Means s (ofTrimmed s) := by
  rw [ofTrimmed_eq_ofArguments h hs]
  cases hr : ofArguments args with
  | ok c =>
    obtain ⟨size, rfl⟩ := exists_size_of_ofArguments hr
    obtain ⟨arg, more, rfl, hsize⟩ := ofArguments_eq_batch.1 hr
    cases hno arg more size rfl hsize
    exact .batch hs hsize
  | error e =>
    obtain ⟨fault, rfl⟩ := exists_fault_of_ofArguments hr
    refine .invalidBatch fault hs fun arg size hargs hsize => ?_
    rw [ofArguments_eq_batch.2 ⟨arg, [], hargs, hsize⟩] at hr
    cases hr

/-- What is not misread is taken for what it means. -/
theorem means_of_not_misread (hb : ∀ c, s.toList.head? = some c → isBlank c = false)
    (h : ¬ Misread s) : Means s (ofTrimmed s) := by
  by_cases hp : ".batch".toList <+: s.toList
  · obtain ⟨first, args, hs, hfirst⟩ := exists_first hb hp
    obtain rfl : first = ".batch" := by
      by_contra hne
      exact h ⟨first, args, hs, hfirst, .inl hne⟩
    refine means_of_batch hp hs fun arg more size hargs hsize => ?_
    by_contra hmore
    exact h ⟨_, args, hs, hfirst, .inr ⟨arg, more, size, hargs, hmore, hsize⟩⟩
  · exact means_of_not_batch hb hp

/-- What is misread means that something is wrong with it. -/
theorem means_of_misread (hb : ∀ c, s.toList.head? = some c → isBlank c = false)
    (h : Misread s) : ∃ e, Means s (.error e) := by
  obtain ⟨first, args, hs, hfirst, hwrong⟩ := h
  obtain ⟨hdot, halone⟩ := dot_of_starts (hs.prefix_of_first hb hfirst)
  by_cases hbatch : first = ".batch"
  · subst hbatch
    rcases hwrong with hwrong | ⟨arg, more, size, rfl, hmore, -⟩
    · exact absurd rfl hwrong
    · refine ⟨_, .invalidBatch .notASize hs fun arg' size' hargs _ => ?_⟩
      cases hargs
      exact hmore rfl
  · exact ⟨_, .unrecognized hs hdot hbatch (mt (List.mem_cons_of_mem _) halone)⟩

/-- What is misread is taken for something else than it means. -/
theorem not_means_of_misread (hb : ∀ c, s.toList.head? = some c → isBlank c = false)
    (h : Misread s) : ¬ Means s (ofTrimmed s) := by
  obtain ⟨first, args, hs, hfirst, hwrong⟩ := h
  have hprefix := hs.prefix_of_first hb hfirst
  obtain ⟨hdot, halone⟩ := dot_of_starts hprefix
  rw [ofTrimmed_eq_ofArguments hprefix hs]
  generalize hr : ofArguments args = r
  intro hm
  cases hm with
  | empty | exit | commit | rollback => exact absurd halone (by decide)
  | batch hs' hsize =>
    cases hs.unique hs'
    rcases hwrong with hwrong | ⟨arg, more, size, hargs, hmore, -⟩
    · exact hwrong rfl
    · cases hargs
      exact hmore rfl
  | invalidBatch fault hs' hno =>
    cases hs.unique hs'
    rcases hwrong with hwrong | ⟨arg, more, size, hargs, -, hsize⟩
    · exact hwrong rfl
    · rw [ofArguments_eq_batch.2 ⟨arg, more, hargs, hsize⟩] at hr
      cases hr
  | unrecognized =>
    obtain ⟨fault, hfault⟩ := exists_fault_of_ofArguments hr
    cases hfault
  | query _ hno => exact hno hdot

/-- Every trimmed line means one thing. -/
theorem exists_means (hb : ∀ c, s.toList.head? = some c → isBlank c = false) :
    ∃ r, Means s r ∧ ∀ r', Means s r' → Agree r r' := by
  obtain ⟨r, hr⟩ : ∃ r, Means s r := by
    by_cases h : Misread s
    · obtain ⟨e, he⟩ := means_of_misread hb h
      exact ⟨_, he⟩
    · exact ⟨_, means_of_not_misread hb h⟩
  exact ⟨r, hr, fun r' => hr.unique hb⟩

/-- A line sets the batch size that its second word is, if its first starts with `.batch`. -/
theorem ofTrimmed_eq_batch (hb : ∀ c, s.toList.head? = some c → isBlank c = false) :
    ofTrimmed s = .ok (.batch size) ↔ ∃ first arg more, WordsOf s (first :: arg :: more) ∧
      ".batch".toList <+: first.toList ∧ BatchSize.parse arg = .ok size := by
  constructor
  · intro h
    by_cases hp : ".batch".toList <+: s.toList
    · obtain ⟨first, args, hs, hfirst⟩ := exists_first hb hp
      rw [ofTrimmed_eq_ofArguments hp hs] at h
      obtain ⟨arg, more, rfl, hsize⟩ := ofArguments_eq_batch.1 h
      exact ⟨first, arg, more, hs, hfirst, hsize⟩
    · have hm := means_of_not_batch hb hp
      rw [h] at hm
      cases hm with
      | batch hs hsize => exact absurd (hs.prefix_of_first hb (List.prefix_refl _)) hp
  · rintro ⟨first, arg, more, hs, hfirst, hsize⟩
    rw [ofTrimmed_eq_ofArguments (hs.prefix_of_first hb hfirst) hs]
    exact ofArguments_eq_batch.2 ⟨arg, more, rfl, hsize⟩

end Command

/-- **A line is taken for what it means exactly if it is not misread.** Every trimmed line means one
thing. It is misread if its first word starts with `.batch` and goes on, or if its first word is that
command, its second is a batch size, and more words follow. Every other line gives what it means. A
line that is misread is taken for the command with its second word alone: so the batch size is set by
just those lines whose first word starts with `.batch` and whose second word is a batch size. -/
theorem entered {line s : String} (hs : Text.Trims line s) :
    (∃ r, Command.Means s r ∧ ∀ r', Command.Means s r' → Command.Agree r r') ∧
    (Command.Means s (Command.parse line) ↔ ¬ Command.Misread s) ∧
    (∀ first args, WordsOf s (first :: args) → ".batch".toList <+: first.toList →
      Command.parse line = Command.ofArguments args) ∧
    ∀ size, Command.parse line = .ok (.batch size) ↔
      ∃ first arg more, WordsOf s (first :: arg :: more) ∧ ".batch".toList <+: first.toList ∧
        BatchSize.parse arg = .ok size := by
  obtain ⟨-, -, -, -, -, hb, -⟩ := id hs
  have hline : Command.parse line = Command.ofTrimmed s := by
    rw [Command.parse, Text.trims_iff.1 hs]
  rw [hline]
  exact ⟨Command.exists_means hb,
    ⟨fun hm h => Command.not_means_of_misread hb h hm, Command.means_of_not_misread hb⟩,
    fun first args hw hp => Command.ofTrimmed_eq_ofArguments (hw.prefix_of_first hb hp) hw,
    fun size => Command.ofTrimmed_eq_batch hb⟩

/-- A mistyped command sets the batch size, and so does one with a word too many. -/
theorem entered_mistyped :
    (∃ line s, line = " .batchsize 10\n" ∧ s = ".batchsize 10" ∧ Text.Trims line s ∧
      Command.parse line = .ok (.batch (.number 10)) ∧
      Command.Means s (.error (.unrecognized s)) ∧
      ¬ Command.Means s (Command.parse line)) ∧
    ∃ line s, line = ".batch 10 20\n" ∧ s = ".batch 10 20" ∧ Text.Trims line s ∧
      Command.parse line = .ok (.batch (.number 10)) ∧ ¬ Command.Means s (Command.parse line) := by
  have htrims : Text.Trims " .batchsize 10\n" ".batchsize 10" := Text.trims_iff.2 (by decide)
  have htrims' : Text.Trims ".batch 10 20\n" ".batch 10 20" := Text.trims_iff.2 (by decide)
  have hwords : WordsOf ".batchsize 10" [".batchsize", "10"] := Text.words_eq_iff.1 (by decide)
  have hwords' : WordsOf ".batch 10 20" [".batch", "10", "20"] := Text.words_eq_iff.1 (by decide)
  have hten : BatchSize.parse "10" = .ok (.number 10) := by decide
  obtain ⟨-, hmeans, -, hbatch⟩ := entered htrims
  obtain ⟨-, hmeans', -, hbatch'⟩ := entered htrims'
  refine ⟨⟨_, _, rfl, rfl, htrims, ?_, ?_, ?_⟩, _, _, rfl, rfl, htrims', ?_, ?_⟩
  · exact (hbatch _).2 ⟨".batchsize", "10", [], hwords, by decide, hten⟩
  · exact .unrecognized hwords rfl (by decide) (by decide)
  · exact mt hmeans.1 (not_not_intro ⟨".batchsize", ["10"], hwords, by decide, .inl (by decide)⟩)
  · exact (hbatch' _).2 ⟨".batch", "10", ["20"], hwords', by decide, hten⟩
  · refine mt hmeans'.1 (not_not_intro ⟨".batch", ["10", "20"], hwords', by decide, .inr ?_⟩)
    exact ⟨"10", ["20"], .number 10, rfl, by decide, hten⟩

end QueryLanes
