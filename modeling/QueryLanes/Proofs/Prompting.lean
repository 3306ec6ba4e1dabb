import QueryLanes.Console.Prompt
import QueryLanes.Proofs.Spelling

/-!
# Prompting

An input is a sequence of lines: each ends with a newline, but the last need not, and no newline
stands anywhere else (`Lines`). A prompt takes one line, whatever its bytes are (`Lines.prompt_cons`);
so repeated prompts take the input line by line, and then find it at its end,
`prompted_line_by_line`. Where the terminal refuses the prompt nothing is read,
`Terminal.prompt_of_refusal`.
-/

namespace QueryLanes

/-! ## Lines -/

/-- The lines of an input, each with the newline that ends it. -/
inductive Lines : List UInt8 → List (List UInt8) → Prop
  | nil : Lines [] []
  /-- No newline ends the last line. -/
  | last {line : List UInt8} (hne : line ≠ []) (h : 0x0A ∉ line) : Lines line [line]
  | cons {body rest : List UInt8} {lines : List (List UInt8)} (h : 0x0A ∉ body)
      (hrest : Lines rest lines) : Lines (body ++ 0x0A :: rest) ((body ++ [0x0A]) :: lines)

theorem splitLine_of_not_mem {line : List UInt8} (h : 0x0A ∉ line) : splitLine line = (line, []) := by
  induction line with
  | nil => rfl
  | cons b line ih =>
    have hb : b ≠ 0x0A := (List.ne_of_not_mem_cons h).symm
    rw [splitLine, if_neg hb, ih (List.not_mem_of_not_mem_cons h)]

theorem splitLine_append {body : List UInt8} (h : 0x0A ∉ body) (rest : List UInt8) :
    splitLine (body ++ 0x0A :: rest) = (body ++ [0x0A], rest) := by
  induction body with
  | nil => rfl
  | cons b body ih =>
    have hb : b ≠ 0x0A := (List.ne_of_not_mem_cons h).symm
    rw [List.cons_append, splitLine, if_neg hb, ih (List.not_mem_of_not_mem_cons h),
      List.cons_append]

theorem lines_nil_iff {input : List UInt8} : Lines input [] ↔ input = [] := by
  constructor
  · intro h
    cases h
    rfl
  · rintro rfl
    exact .nil

/-- The first line is what is split off, and it is not empty. -/
theorem Lines.split {input line : List UInt8} {lines : List (List UInt8)}
    (h : Lines input (line :: lines)) :
    ∃ rest, Lines rest lines ∧ input = line ++ rest ∧ line ≠ [] ∧
      splitLine input = (line, rest) := by
  cases h with
  | last hne h => exact ⟨[], .nil, (List.append_nil _).symm, hne, splitLine_of_not_mem h⟩
  | @cons body rest _ h hrest =>
    exact ⟨rest, hrest, List.append_cons .., by simp, splitLine_append h rest⟩

theorem exists_lines (input : List UInt8) : ∃ lines, Lines input lines := by
  induction input with
  | nil => exact ⟨[], .nil⟩
  | cons b input ih =>
    obtain ⟨lines, h⟩ := ih
    by_cases hb : b = 0x0A
    · subst hb
      exact ⟨_, @Lines.cons [] _ _ List.not_mem_nil h⟩
    · -- the byte belongs to the first line of what follows it
      have hmore {line : List UInt8} (hline : 0x0A ∉ line) : 0x0A ∉ b :: line :=
        List.not_mem_cons_of_ne_of_not_mem (Ne.symm hb) hline
      cases h with
      | nil => exact ⟨_, .last (List.cons_ne_nil b []) (hmore List.not_mem_nil)⟩
      | last hne h => exact ⟨_, .last (List.cons_ne_nil b _) (hmore h)⟩
      | @cons body rest _ h hrest => exact ⟨_, @Lines.cons (b :: body) _ _ (hmore h) hrest⟩

theorem Lines.unique {input : List UInt8} {lines lines' : List (List UInt8)}
    (h : Lines input lines) (h' : Lines input lines') : lines' = lines := by
  induction lines generalizing input lines' with
  | nil =>
    cases lines_nil_iff.1 h
    cases lines' with
    | nil => rfl
    | cons line lines' =>
      obtain ⟨rest, -, hinput, hne, -⟩ := h'.split
      exact absurd (List.append_eq_nil_iff.1 hinput.symm).1 hne
  | cons line lines ih =>
    obtain ⟨rest, hrest, hinput, hne, hsplit⟩ := h.split
    cases lines' with
    | nil =>
      cases lines_nil_iff.1 h'
      exact absurd (List.append_eq_nil_iff.1 hinput.symm).1 hne
    | cons line' lines' =>
      obtain ⟨rest', hrest', -, -, hsplit'⟩ := h'.split
      cases hsplit.symm.trans hsplit'
      rw [ih hrest hrest']

/-! ## One prompt -/

/-- What a line is to a prompt: a text, or no text. -/
def Prompted (line : List UInt8) (r : Except CommandFailure Command) : Prop :=
  (∃ s, line = Utf8.encode s ∧ r = Command.parse s) ∨
    (∀ s, line ≠ Utf8.encode s) ∧ r = .error (.io "stream did not contain valid UTF-8")

namespace Terminal

variable {t : Terminal} {line rest : List UInt8}

/-- A refused prompt is reported, and nothing is read. -/
theorem prompt_of_refusal {r : Refusal} (h : t.refusal = some r) :
    (∃ detail, t.prompt.1 = .error (.io detail)) ∧ t.prompt.2.input = t.input ∧
      t.prompt.2.refusal = some r := by
  cases r with
  | write detail =>
    have hask : t.ask = (.error (.io detail), t) := by rw [ask, h]
    rw [prompt, hask]
    exact ⟨⟨detail, rfl⟩, rfl, h⟩
  | flush detail =>
    have hask : t.ask = (.error (.io detail), t.print "> ") := by rw [ask, h]
    rw [prompt, hask]
    exact ⟨⟨detail, rfl⟩, rfl, h⟩

theorem prompt_of_accepted (h : t.refusal = none) :
    t.prompt = ((t.print "> ").readLine.1.bind Command.parse, (t.print "> ").readLine.2) := by
  have hask : t.ask = (.ok (t.print "> "), t.print "> ") := by rw [ask, h]
  rw [prompt, hask]

/-- At the end of the input. -/
theorem prompt_of_end (h : t.refusal = none) (hinput : t.input = []) :
    t.prompt = (.error .closed, t.print "> ") := by
  have hsplit : splitLine (t.print "> ").input = ([], []) := by rw [print, hinput]; rfl
  rw [prompt_of_accepted h, readLine, hsplit]
  rfl

/-- A line is taken, and what it is decides on the command. -/
theorem prompt_of_line (h : t.refusal = none) (hsplit : splitLine t.input = (line, rest))
    (hne : line ≠ []) : Prompted line t.prompt.1 ∧
      t.prompt.2 = { input := rest, output := t.output ++ "> " } := by
  have hsplit : splitLine (t.print "> ").input = (line, rest) := hsplit
  obtain ⟨b, bs, rfl⟩ := List.exists_cons_of_ne_nil hne
  rw [prompt_of_accepted h, readLine, hsplit]
  refine ⟨?_, by simp [print, h]⟩
  dsimp only
  cases hd : Utf8.decode (b :: bs) with
  | ok s =>
    dsimp only [Except.bind]
    exact .inl ⟨s, Utf8.decode_eq_ok.1 hd, rfl⟩
  | error e =>
    refine .inr ⟨fun s hs => ?_, rfl⟩
    rw [Utf8.decode_eq_ok.2 hs] at hd
    cases hd

/-- A prompt that finds the input not at its end takes a byte exactly if it is accepted. -/
theorem takes_iff (h : t.prompt.1 ≠ .error .closed) :
    t.prompt.2.input.length < t.input.length ↔ t.refusal = none := by
  cases hr : t.refusal with
  | some r => simp [(prompt_of_refusal hr).2.1]
  | none =>
    refine iff_of_true ?_ rfl
    obtain ⟨lines, hlines⟩ := exists_lines t.input
    cases lines with
    | nil =>
      rw [prompt_of_end hr (lines_nil_iff.1 hlines)] at h
      exact absurd rfl h
    | cons line lines =>
      obtain ⟨rest, -, hinput, hne, hsplit⟩ := hlines.split
      rw [(prompt_of_line hr hsplit hne).2, hinput, List.length_append]
      have := List.length_pos_iff.2 hne
      dsimp only
      omega

/-! ## Prompts one after the other -/

/-- The terminal after `n` prompts. -/
def after (t : Terminal) : Nat → Terminal
  | 0 => t
  | n + 1 => (t.after n).prompt.2

end Terminal

section

variable {t : Terminal} {lines : List (List UInt8)}

/-- An accepted prompt leaves the lines after the first. -/
theorem Lines.prompt (h : Lines t.input lines) (hr : t.refusal = none) :
    Lines t.prompt.2.input lines.tail ∧ t.prompt.2.refusal = none ∧
      t.prompt.2.output = t.output ++ "> " := by
  cases lines with
  | nil =>
    rw [Terminal.prompt_of_end hr (lines_nil_iff.1 h)]
    exact ⟨h, hr, rfl⟩
  | cons line lines =>
    obtain ⟨rest, hrest, -, hne, hsplit⟩ := h.split
    rw [(Terminal.prompt_of_line hr hsplit hne).2]
    exact ⟨hrest, rfl, rfl⟩

/-- After `n` prompts the lines from the `n`-th on are left. -/
theorem Lines.after (h : Lines t.input lines) (hr : t.refusal = none) (n : Nat) :
    Lines (t.after n).input (lines.drop n) ∧ (t.after n).refusal = none ∧
      (t.after n).output = t.output ++ String.join (List.replicate n "> ") := by
  induction n with
  | zero => exact ⟨h, hr, String.append_empty.symm⟩
  | succ n ih =>
    obtain ⟨hlines, hr, hout⟩ := ih
    obtain ⟨hlines, hr, hout'⟩ := hlines.prompt hr
    refine ⟨?_, hr, ?_⟩
    · rwa [List.tail_drop] at hlines
    · rw [Terminal.after, hout', hout, List.replicate_succ', String.join_append, String.append_assoc]
      rfl

/-- The first line is consumed, and the prompt gives what it is. -/
theorem Lines.prompt_cons {line : List UInt8} (h : Lines t.input (line :: lines))
    (hr : t.refusal = none) : t.input = line ++ t.prompt.2.input ∧ Prompted line t.prompt.1 := by
  obtain ⟨rest, -, hinput, hne, hsplit⟩ := h.split
  obtain ⟨hprompted, hafter⟩ := Terminal.prompt_of_line hr hsplit hne
  rw [hafter]
  exact ⟨hinput, hprompted⟩

end

/-- **Prompting takes the input line by line.** Whatever bytes a terminal holds, they are a sequence
of lines in one way. The `i`-th prompt consumes the `i`-th line and nothing else, and gives the
command that the line spells, or says that it spells no text, and the lines after it are prompted
for as if it had; every prompt after the last line finds the input at its end and consumes nothing.
Each prompt is written once. -/
theorem prompted_line_by_line (input : List UInt8) (output : String) :
    let t : Terminal := { input := input, output := output }
    ∃ lines, (∀ lines', Lines input lines' ↔ lines' = lines) ∧
      (∀ i line, lines[i]? = some line → (t.after i).input = line ++ (t.after (i + 1)).input ∧
        Prompted line (t.after i).prompt.1) ∧
      (∀ i, lines.length ≤ i → (t.after i).input = [] ∧ (t.after i).prompt.1 = .error .closed) ∧
      ∀ i, (t.after i).output = output ++ String.join (List.replicate i "> ") := by
  intro t
  obtain ⟨lines, h⟩ := exists_lines input
  have hafter := @Lines.after t _ h rfl
  refine ⟨lines, fun lines' => ⟨h.unique, fun he => he ▸ h⟩, fun i line hi => ?_, fun i hi => ?_,
    fun i => (hafter i).2.2⟩
  · obtain ⟨hlines, hr, -⟩ := hafter i
    obtain ⟨hlt, rfl⟩ := List.getElem?_eq_some_iff.1 hi
    rw [List.drop_eq_getElem_cons hlt] at hlines
    exact hlines.prompt_cons hr
  · obtain ⟨hlines, hr, -⟩ := hafter i
    rw [List.drop_eq_nil_of_le hi] at hlines
    have hend := lines_nil_iff.1 hlines
    exact ⟨hend, by rw [Terminal.prompt_of_end hr hend]⟩

/-- A line with a carriage return, a blank one, one that is no text, and one that nothing ends. -/
theorem prompted_line_by_line_noText : ∃ (t : Terminal) (lines : List (List UInt8)),
    t.input = Utf8.encode ".exit\r\n" ++ Utf8.encode "\n" ++ [0xFF, 0x0A] ++ Utf8.encode "q" ∧
      Lines t.input lines ∧ lines.length = 4 ∧
      (t.after 2).prompt.1 = .error (.io "stream did not contain valid UTF-8") ∧
      (t.after 3).input = Utf8.encode "q" ++ (t.after 4).input ∧
      (t.after 4).prompt.1 = .error .closed ∧ (t.after 5).output = "> > > > > " := by
  obtain ⟨lines, hlines, hline, hend, hout⟩ := prompted_line_by_line
    (Utf8.encode ".exit\r\n" ++ Utf8.encode "\n" ++ [0xFF, 0x0A] ++ Utf8.encode "q") ""
  have h : Lines (Utf8.encode ".exit\r\n" ++ Utf8.encode "\n" ++ [0xFF, 0x0A] ++ Utf8.encode "q")
      [Utf8.encode ".exit\r\n", Utf8.encode "\n", [0xFF, 0x0A], Utf8.encode "q"] :=
    @Lines.cons (Utf8.encode ".exit\r") _ _ (by decide) <| @Lines.cons [] _ _ (by decide) <|
      @Lines.cons [0xFF] _ _ (by decide) <| .last (by decide) (by decide)
  cases (hlines _).1 h
  obtain ⟨-, hthird⟩ := hline 2 _ rfl
  refine ⟨_, _, rfl, h, rfl, ?_, (hline 3 _ rfl).1, (hend 4 (Nat.le_refl 4)).2, hout 5⟩
  rcases hthird with ⟨s, hs, -⟩ | ⟨-, hno⟩
  · cases (Utf8.decode_eq_ok.2 hs).symm.trans (show Utf8.decode [0xFF, 0x0A] = _ from rfl)
  · exact hno

end QueryLanes
