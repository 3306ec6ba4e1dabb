import QueryLanes.Proofs.Journal
import QueryLanes.Proofs.Prompting

/-!
# The loop of a console

A console prompts until its input is at its end or it is told to exit. What its output does may
change from turn to turn: `Desk.runFacing` is a run in which the output, before each turn, refuses
prompts or takes them. A prompt that is taken uses up a line, or finds the end of the input and ends
the loop (`Shell.AtMost`). A prompt that is refused uses up nothing, and the loop goes on. So the
loop comes to an end exactly if the output refuses no more than finitely many prompts,
`prompts_bounded_iff_refusals`.
-/

namespace QueryLanes

/-- The console ends, or has ended. -/
def Phase.Leaves : Phase → Prop
  | .leaveTransaction _ | .leaveSession _ | .leaveClient _ | .done _ => True
  | _ => False

namespace Shell

variable {s : Shell} {n : Nat}

/-! ## What a prompt leaves -/

theorem input_readLine (s : Shell) : s.readLine.terminal.input = s.terminal.prompt.2.input := by
  unfold readLine
  rcases s.terminal.prompt with ⟨e | c, t⟩
  · cases e <;> rfl
  · cases c <;> rfl

theorem phase_readLine (hp : s.phase = .prompt) : s.readLine.phase = answer s.terminal.prompt.1 := by
  obtain ⟨terminal, errors, he⟩ := readLine_eq hp
  rw [he, Terminal.prompt_fst]

theorem input_hear (s : Shell) (batches : Handle → Nat) (r : Reply Payload) :
    (s.hear batches r).terminal.input = s.terminal.input := by
  unfold hear
  split <;> rfl

/-- A console that ends does not prompt again. -/
theorem leaves_hear (h : s.phase.Leaves) (batches : Handle → Nat) (r : Reply Payload) :
    (s.hear batches r).phase.Leaves := by
  obtain ⟨arguments, terminal, errors, options, session, transaction, phase⟩ := s
  cases phase <;> first | exact h.elim | (cases r <;> trivial)

/-- At most `n` more prompts can be taken: the console ends, or it has fewer lines left. -/
def AtMost (s : Shell) (n : Nat) : Prop :=
  s.phase.Leaves ∨ ∃ lines, Lines s.terminal.input lines ∧ lines.length < n

theorem AtMost.hear (h : s.AtMost n) (batches : Handle → Nat) (r : Reply Payload) :
    (s.hear batches r).AtMost n := by
  rcases h with h | ⟨lines, h, hn⟩
  · exact .inl (leaves_hear h batches r)
  · exact .inr ⟨lines, by rwa [input_hear], hn⟩

/-- A refused prompt changes nothing that counts. -/
theorem readLine_of_refusal {r : Refusal} (hp : s.phase = .prompt)
    (hr : s.terminal.refusal = some r) :
    s.readLine.phase = .prompt ∧ s.readLine.terminal.input = s.terminal.input := by
  obtain ⟨⟨detail, hio⟩, hinput, -⟩ := Terminal.prompt_of_refusal hr
  rw [phase_readLine hp, input_readLine, hio, hinput]
  exact ⟨rfl, rfl⟩

theorem AtMost.refused {r : Refusal} (h : s.AtMost n) (hp : s.phase = .prompt)
    (hr : s.terminal.refusal = some r) : s.readLine.AtMost n := by
  rcases h with h | h
  · rw [hp] at h
    exact h.elim
  · exact .inr (by rwa [(readLine_of_refusal hp hr).2])

/-- A prompt that is taken uses up a line, or ends the console. -/
theorem AtMost.readLine (h : s.AtMost n) (hp : s.phase = .prompt) (hr : s.terminal.refusal = none) :
    ∃ m, n = m + 1 ∧ s.readLine.AtMost m := by
  rcases h with h | ⟨lines, h, hn⟩
  · rw [hp] at h
    exact h.elim
  · obtain ⟨m, rfl⟩ := Nat.exists_eq_succ_of_ne_zero (Nat.ne_zero_of_lt hn)
    refine ⟨m, rfl, ?_⟩
    cases lines with
    | nil =>
      refine .inl ?_
      rw [phase_readLine hp, Terminal.prompt_of_end hr (lines_nil_iff.1 h)]
      trivial
    | cons line lines =>
      refine .inr ⟨lines, ?_, Nat.lt_of_succ_lt_succ hn⟩
      rw [input_readLine]
      exact (h.prompt hr).1

end Shell

namespace Desk

variable {d : Desk} {r : Option Refusal} {u : Turn} {n : Nat}

/-! ## Runs -/

/-- The output refuses from now on what `r` says. -/
def facing (d : Desk) (r : Option Refusal) : Desk :=
  { d with shell := { d.shell with terminal := { d.shell.terminal with refusal := r } } }

/-- A run with what the output does before each turn. -/
def runFacing (d : Desk) (us : List (Option Refusal × Turn)) : Desk :=
  us.foldl (fun d u => (d.facing u.1).step u.2) d

/-- Whether the console prompts in a turn. -/
def prompts (d : Desk) (u : Turn) : Bool := (d.asked u).isSome

/-- How many prompts of a run meet an output that `p` selects. -/
def promptCount (p : Option Refusal → Bool) (d : Desk) : List (Option Refusal × Turn) → Nat
  | [] => 0
  | (r, u) :: us =>
    (if d.prompts u && p r then 1 else 0) + ((d.facing r).step u).promptCount p us

theorem prompts_iff : d.prompts u = true ↔ u = .go ∧ d.shell.phase = .prompt := by
  cases u with
  | go => by_cases hp : d.shell.phase = .prompt <;> simp [prompts, asked, hp]
  | happen m => simp [prompts, asked]

/-- Each prompt is taken or refused. -/
theorem promptCount_add (d : Desk) (us : List (Option Refusal × Turn)) :
    d.promptCount Option.isNone us + d.promptCount Option.isSome us =
      d.promptCount (fun _ => true) us := by
  induction us generalizing d with
  | nil => rfl
  | cons u us ih =>
    obtain ⟨r, u⟩ := u
    have hrest := ih ((d.facing r).step u)
    cases d.prompts u <;> cases r <;> simp [promptCount] <;> omega

/-- What is no prompt uses up nothing. -/
theorem atMost_step (h : d.shell.AtMost n) (hu : ¬ (u = .go ∧ d.shell.phase = .prompt)) :
    (d.step u).shell.AtMost n := by
  have hear (o : Client.Outcome Payload) : (d.hear o).shell.AtMost n := by
    obtain ⟨c, _ | reply⟩ := o
    · exact h
    · exact h.hear _ reply
  cases u with
  | happen m => exact hear _
  | go =>
    cases hk : d.shell.call? with
    | none => rwa [step_idle (fun hp => hu ⟨rfl, hp⟩) hk]
    | some k =>
      rw [step_call hk]
      exact hear _

/-- No more prompts of a run are taken than the console has use for. -/
theorem promptCount_le (h : d.shell.AtMost n) (us : List (Option Refusal × Turn)) :
    d.promptCount Option.isNone us ≤ n := by
  induction us generalizing d n with
  | nil => exact Nat.zero_le n
  | cons u us ih =>
    obtain ⟨r, u⟩ := u
    have hfacing : (d.facing r).shell.AtMost n := h
    by_cases hu : u = .go ∧ d.shell.phase = .prompt
    · obtain ⟨rfl, hp⟩ := hu
      have hstep : (d.facing r).step .go =
          { d.facing r with shell := (d.facing r).shell.readLine } := step_prompt hp
      rw [promptCount, prompts_iff.2 ⟨rfl, hp⟩]
      cases r with
      | none =>
        obtain ⟨m, rfl, hm⟩ := hfacing.readLine hp rfl
        have hrest : ((d.facing none).step .go).promptCount Option.isNone us ≤ m :=
          ih (by rw [hstep]; exact hm)
        simp only [Option.isNone_none, Bool.and_self, if_true]
        omega
      | some r =>
        have hrest : ((d.facing (some r)).step .go).promptCount Option.isNone us ≤ n :=
          ih (by rw [hstep]; exact hfacing.refused hp rfl)
        simpa using hrest
    · have hno : d.prompts u = false := Bool.eq_false_iff.2 (mt prompts_iff.1 hu)
      rw [promptCount, hno, Bool.false_and, if_neg Bool.false_ne_true, Nat.zero_add]
      exact ih (atMost_step hfacing hu)

/-- A run in which every prompt is refused prompts on and on, and uses up nothing. -/
theorem refused_forever (r : Refusal) (hp : d.shell.phase = .prompt) (n : Nat) :
    d.promptCount Option.isSome (List.replicate n (some r, .go)) = n ∧
      (d.runFacing (List.replicate n (some r, .go))).shell.phase = .prompt ∧
      (d.runFacing (List.replicate n (some r, .go))).shell.terminal.input =
        d.shell.terminal.input := by
  induction n generalizing d with
  | zero => exact ⟨rfl, hp, rfl⟩
  | succ n ih =>
    have hstep : (d.facing (some r)).step .go =
        { d.facing (some r) with shell := (d.facing (some r)).shell.readLine } := step_prompt hp
    obtain ⟨hphase, hinput⟩ := @Shell.readLine_of_refusal (d.facing (some r)).shell r hp rfl
    obtain ⟨hcount, hprompt, hkept⟩ := @ih ((d.facing (some r)).step .go) (by rw [hstep]; exact hphase)
    refine ⟨?_, hprompt, ?_⟩
    · rw [List.replicate_succ, promptCount, prompts_iff.2 ⟨rfl, hp⟩, hcount]
      exact Nat.add_comm 1 n
    · refine hkept.trans ?_
      rw [hstep]
      exact hinput

/-- The first `n` turns of a run without end. -/
def first (us : Nat → Option Refusal × Turn) (n : Nat) : List (Option Refusal × Turn) :=
  (List.range n).map us

/-- **The loop comes to an end exactly if no more than finitely many prompts are refused.** A prompt
that does not find the end of the input consumes a byte exactly if the output takes it. So a console
makes, besides the prompts that are refused, at most one for each line of its input and one more,
whatever happens to its client and whatever its output does; and of a run without end, it makes
finitely many prompts exactly if finitely many are refused. As long as they are, it prompts again and
again and uses up nothing of its input. -/
theorem prompts_bounded_iff_refusals (t : Terminal) (a : Arguments) {lines : List (List UInt8)}
    (hlines : Lines t.input lines) :
    (t.prompt.1 ≠ .error .closed →
      (t.prompt.2.input.length < t.input.length ↔ t.refusal = none)) ∧
    (∀ us, (start a t.input).promptCount (fun _ => true) us ≤
      lines.length + 1 + (start a t.input).promptCount Option.isSome us) ∧
    (∀ us, (∃ k, ∀ n, (start a t.input).promptCount (fun _ => true) (first us n) ≤ k) ↔
      ∃ k, ∀ n, (start a t.input).promptCount Option.isSome (first us n) ≤ k) ∧
    ∀ (d : Desk) (r : Refusal) (n : Nat), d.shell.phase = .prompt →
      d.promptCount Option.isSome (List.replicate n (some r, .go)) = n ∧
      (d.runFacing (List.replicate n (some r, .go))).shell.phase = .prompt ∧
      (d.runFacing (List.replicate n (some r, .go))).shell.terminal.input =
        d.shell.terminal.input := by
  have hstart : (start a t.input).shell.AtMost (lines.length + 1) :=
    .inr ⟨lines, hlines, Nat.lt_succ_self _⟩
  have hbound (us : List (Option Refusal × Turn)) :
      (start a t.input).promptCount (fun _ => true) us ≤
        lines.length + 1 + (start a t.input).promptCount Option.isSome us := by
    rw [← promptCount_add]
    exact Nat.add_le_add_right (promptCount_le hstart us) _
  refine ⟨t.takes_iff, hbound, fun us => ⟨fun ⟨k, hk⟩ => ⟨k, fun n => ?_⟩, fun ⟨k, hk⟩ => ?_⟩,
    fun d r n hp => refused_forever r hp n⟩
  · have hsum := promptCount_add (start a t.input) (first us n)
    have := hk n
    omega
  · exact ⟨lines.length + 1 + k, fun n => Nat.le_trans (hbound _) (Nat.add_le_add_left (hk n) _)⟩

/-- The turns in which a console opens its session and its transaction. -/
def opening : List (Option Refusal × Turn) :=
  [.go, .happen (.arrive ⟨1, .sessionOpened 9⟩), .happen .resume,
    .go, .happen (.arrive ⟨2, .transactionOpened 5⟩), .happen .resume].map fun u => (none, u)

/-- At the prompt of a console whose input is one line, an output that refuses whatever is written is
prompted a thousand times, and the line is still there; one that takes two prompts is prompted no
more. -/
theorem prompts_bounded_iff_refusals_deadOutput :
    ∃ (t : Terminal) (a : Arguments) (d : Desk) (us : List (Option Refusal × Turn)),
      t = { input := Utf8.encode ".exit\n", refusal := some (.write "cannot write") } ∧
      Lines t.input [Utf8.encode ".exit\n"] ∧
      t.prompt.1 ≠ .error .closed ∧ ¬ t.prompt.2.input.length < t.input.length ∧
      d = (start a t.input).runFacing opening ∧ d.shell.phase = .prompt ∧
      us = List.replicate 1000 (some (.write "cannot write"), .go) ∧
      d.promptCount Option.isSome us = 1000 ∧
      (d.runFacing us).shell.terminal.input = d.shell.terminal.input ∧
      ∀ us, (start a t.input).promptCount (fun _ => true) us ≤
        2 + (start a t.input).promptCount Option.isSome us := by
  obtain ⟨a, ha⟩ : ∃ a : Arguments, a = { address := "", database := "db" } := ⟨_, rfl⟩
  obtain ⟨t, ht⟩ : ∃ t : Terminal,
    t = { input := Utf8.encode ".exit\n", refusal := some (.write "cannot write") } := ⟨_, rfl⟩
  have hlines : Lines t.input [Utf8.encode ".exit\n"] := by
    rw [ht]
    exact @Lines.cons (Utf8.encode ".exit") _ _ (by decide) .nil
  have hio : t.prompt.1 ≠ .error .closed := by
    rw [ht]
    decide
  have hp : ((start a t.input).runFacing opening).shell.phase = .prompt := by
    rw [ha, ht]
    decide +kernel
  obtain ⟨htakes, hbound, -, hforever⟩ := prompts_bounded_iff_refusals t a hlines
  obtain ⟨hcount, -, hkept⟩ := hforever _ (.write "cannot write") 1000 hp
  refine ⟨t, a, _, _, ht, hlines, hio, ?_, rfl, hp, rfl, hcount, hkept, hbound⟩
  rw [htakes hio, ht]
  exact nofun

end Desk

end QueryLanes
