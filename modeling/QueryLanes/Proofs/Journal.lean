import QueryLanes.Console.Shell
import QueryLanes.Proofs.Serving

/-!
# The journal of a console

What can be seen of a console at work: the lines it reads, the frames its client sends, and the
transactions that are opened for it. `Desk.journal` lists these for a run, in order.

The console makes one call at a time and takes its reply before it goes on (`Desk.Attends`). So a
turn is one of three things, `Desk.Turned`: a line is read, or the call of the phase waits, or it is
answered. `Desk.Emits` says which frames a turn can send: what the call of the phase asks for, and
while answers are printed the request for the next batch.
-/

namespace QueryLanes

/-! ## Lines -/

/-- The line that is read at the prompt, if there is one. -/
def Terminal.line (t : Terminal) : Except CommandFailure String :=
  match t.ask with
  | (.error e, _) => .error e
  | (.ok _, t) => t.readLine.1

theorem Terminal.prompt_fst (t : Terminal) : t.prompt.1 = t.line.bind Command.parse := by
  unfold prompt line
  rcases t.ask with ⟨_ | _, _⟩ <;> rfl

/-- A query is the line that was entered, trimmed. -/
theorem Command.eq_trim_of_parse {line text : String} (h : parse line = .ok (.query text)) :
    text = Text.trim line := by
  unfold parse ofTrimmed at h
  generalize Text.trim line = s at h ⊢
  split at h
  · cases h
  · split at h
    · cases h
    · split at h
      · cases h
      · split at h
        · cases h
        · split at h
          · split at h
            · cases h
            · rename_i size _
              cases hb : BatchSize.parse size <;> rw [hb] at h <;> cases h
          · split at h <;> cases h
            rfl

namespace Shell

variable {s : Shell} {k : Call Payload}

/-- Where a console goes from its prompt. -/
def answer : Except CommandFailure Command → Phase
  | .ok .exit | .error .closed => .leaveTransaction 0
  | .ok .commit => .commit
  | .ok .rollback => .rollback
  | .ok (.query text) => .ask text
  | .ok (.batch _) | .error _ => .prompt

/-- The options that a line leaves. -/
def choose (o : QueryOptions) : Except CommandFailure Command → QueryOptions
  | .ok (.batch size) => .ofBatchSize size
  | _ => o

theorem answer_eq_ask {c : Except CommandFailure Command} {text : String}
    (h : answer c = .ask text) : c = .ok (.query text) := by
  rcases c with e | k
  · cases e <;> cases h
  · cases k <;> cases h
    rfl

theorem readLine_eq (hp : s.phase = .prompt) : ∃ terminal errors, s.readLine =
    { s with
      terminal := terminal
      errors := errors
      options := choose s.options (s.terminal.line.bind Command.parse)
      phase := answer (s.terminal.line.bind Command.parse) } := by
  rw [← Terminal.prompt_fst]
  obtain ⟨arguments, terminal, errors, options, session, transaction, phase⟩ := s
  cases hp
  unfold readLine
  dsimp only
  rcases terminal.prompt with ⟨e | c, t⟩
  · cases e <;> exact ⟨_, _, rfl⟩
  · cases c <;> exact ⟨_, _, rfl⟩

/-- What is asked of the client is never to close anything and wait for that. -/
theorem ne_close_of_call? (hk : s.call? = some k) :
    (∀ h, k ≠ .closeSession h) ∧ ∀ h, k ≠ .closeTransaction h := by
  unfold call? at hk
  split at hk <;> cases hk <;> exact ⟨nofun, nofun⟩

theorem phase_of_prompt (hk : s.call? = some k) : s.phase ≠ .prompt := by
  intro hp
  unfold call? at hk
  rw [hp] at hk
  cases hk

end Shell

namespace Desk

variable {d d' : Desk} {u : Turn} {m : Move Payload} {k : Call Payload} {r : Reply Payload}
  {c : Client Payload}

/-! ## Turns -/

/-- The client answers to the console: it waits for nothing but what the call of the phase leaves. -/
def Attends (d : Desk) : Prop :=
  ∀ w, d.client.waiting = some w → ∃ k, d.shell.call? = some k ∧ k.Leaves w

theorem client_hear (d : Desk) (o : Client.Outcome Payload) : (d.hear o).client = o.1 := by
  rcases o with ⟨c, _ | r⟩ <;> rfl

theorem step_prompt (hp : d.shell.phase = .prompt) :
    d.step .go = { d with shell := d.shell.readLine } := by
  unfold step
  rw [hp]

theorem step_call (hk : d.shell.call? = some k) : d.step .go = d.hear (d.client.step (.call k)) := by
  have hp := Shell.phase_of_prompt hk
  unfold step
  dsimp only
  split
  · exact absurd ‹_› hp
  · rename_i hk' _
    rw [hk] at hk'
    cases hk'
    rfl
  · rename_i hk' _
    rw [hk] at hk'
    cases hk'

theorem step_idle (hp : d.shell.phase ≠ .prompt) (hk : d.shell.call? = none) : d.step .go = d := by
  unfold step
  dsimp only
  split
  · exact absurd ‹_› hp
  · rename_i hk' _
    rw [hk] at hk'
    cases hk'
  · rfl

/-- What the client does in a turn is one move, or nothing. -/
theorem client_step (d : Desk) (u : Turn) :
    (d.step u).client = d.client ∨ ∃ m, (d.step u).client = (d.client.step m).1 := by
  cases u with
  | go =>
    by_cases hp : d.shell.phase = .prompt
    · rw [step_prompt hp]
      exact .inl rfl
    · cases hk : d.shell.call? with
      | none => exact .inl (by rw [step_idle hp hk])
      | some k => exact .inr ⟨.call k, by rw [step_call hk, client_hear]⟩
  | happen m => exact .inr ⟨m, client_hear d _⟩

/-- What is read in a turn. -/
def asked (d : Desk) : Turn → Option (Except CommandFailure String)
  | .go => if d.shell.phase = .prompt then some d.shell.terminal.line else none
  | .happen _ => none

/-- What a turn can be. -/
inductive Turned (d : Desk) : Option (Except CommandFailure String) → Desk → Prop
  /-- A line is read. -/
  | reads (hp : d.shell.phase = .prompt) :
      d.Turned (some d.shell.terminal.line) { d with shell := d.shell.readLine }
  /-- The call of the phase waits, if there is one. -/
  | waits {c : Client Payload} (hs : c.records = d.client.records)
      (hw : ∀ w, c.waiting = some w → ∃ k, d.shell.call? = some k ∧ k.Leaves w) :
      d.Turned none { d with client := c }
  /-- The call of the phase is answered. -/
  | hears {c : Client Payload} {k : Call Payload} {r : Reply Payload} (hk : d.shell.call? = some k)
      (hw : c.waiting = none) (he : d.client.Effect c r k) :
      d.Turned none ⟨d.shell.hear c.batchCount r, c⟩

theorem turned_hear {o : Client.Outcome Payload} (hk : d.shell.call? = some k)
    (ho : d.client.Serves k o) : d.Turned none (d.hear o) := by
  rcases o with ⟨c, r?⟩
  rcases ho with ⟨r, hr, hw, he⟩ | ⟨hr, hs, hw⟩
  · cases hr
    exact .hears hk hw he
  · cases hr
    exact .waits hs fun w h => ⟨k, hk, hw w h⟩

/-- A turn in which nobody else makes a call. -/
theorem Attends.turned (ha : d.Attends) (hu : ∀ k, u ≠ .happen (.call k)) :
    d.Turned (d.asked u) (d.step u) := by
  cases u with
  | go =>
    by_cases hp : d.shell.phase = .prompt
    · rw [step_prompt hp, asked, if_pos hp]
      exact .reads hp
    · rw [asked, if_neg hp]
      cases hk : d.shell.call? with
      | none =>
        rw [step_idle hp hk]
        exact .waits rfl ha
      | some k =>
        rw [step_call hk]
        refine turned_hear hk ?_
        cases hw : d.client.waiting with
        | none =>
          obtain ⟨hs, ht⟩ := Shell.ne_close_of_call? hk
          exact Client.serves_call hw hs ht
        | some w =>
          have hbusy : d.client.step (.call k) = (d.client, none) := Client.call_of_waiting hw k
          rw [hbusy]
          refine .inr ⟨rfl, rfl, fun w hw => ?_⟩
          obtain ⟨k', hk', hleaves⟩ := ha w hw
          rw [hk] at hk'
          cases hk'
          exact hleaves
  | happen m =>
    have hm : ∀ k, m ≠ .call k := fun k h => hu k (congrArg _ h)
    show d.Turned none (d.hear (d.client.step m))
    cases hw : d.client.waiting with
    | none =>
      obtain ⟨hr, hs, hidle⟩ := Client.idle_move hw hm
      generalize d.client.step m = o at hr hs hidle
      obtain ⟨c, r?⟩ := o
      cases hr
      exact .waits hs fun w h => nomatch hidle.symm.trans h
    | some w =>
      obtain ⟨k, hk, hleaves⟩ := ha w hw
      refine turned_hear hk (Client.serves_move (fun w' hw' => ?_) hm)
      rw [hw] at hw'
      cases hw'
      exact hleaves

/-! ### Frames -/

/-- The console works in its transaction, which takes requests. -/
structure Uses (d : Desk) (x : Transaction) : Prop where
  idle : d.client.waiting = none
  held : d.client.transaction? d.shell.transaction = some x
  isOpen : d.client.transactionIsOpen x = true

/-- What a turn can send. -/
inductive Emits (d : Desk) : List ClientFrame → Prop
  | nothing : d.Emits []
  | other (lane : Lane) {r : Request} (hr : r.within? = none) : d.Emits [⟨lane, r⟩]
  | close (lane : Lane) (id : UInt64) : d.Emits [⟨lane, .closeTransaction id⟩]
  | commit (lane : Lane) {x : Transaction} (hp : d.shell.phase = .commit) (hx : d.Uses x) :
      d.Emits [⟨lane, .commit x.id⟩]
  | rollback (lane : Lane) {x : Transaction} (hp : d.shell.phase = .rollback) (hx : d.Uses x) :
      d.Emits [⟨lane, .rollback x.id⟩]
  | query (lane : Lane) {x : Transaction} {text : String} (hp : d.shell.phase = .ask text)
      (hx : d.Uses x) :
      d.Emits [⟨lane, .fetch x.id (.first (Utf8.encode text) d.shell.options)⟩]
  /-- The next batch of the query whose answers are printed. -/
  | fetch {h : Handle} {n : Nat} {q : Query Payload} (hp : d.shell.phase = .display h n)
      (hq : d.client.queries[h]? = some q) (token : UInt64) :
      d.Emits [⟨q.lane, .fetch q.transaction (.continuation token q.options)⟩]

theorem emits_request {request : Request} (hk : d.shell.call? = some k)
    (hr : d.client.request? k = some request) (lane : Lane) : d.Emits [⟨lane, request⟩] := by
  cases hid : request.within? with
  | none => exact .other lane hid
  | some id =>
    obtain ⟨t, ht⟩ := Client.transaction?_of_request hr hid
    obtain ⟨hw, x, hx, ho, hxr⟩ := Client.request?_eq_some ht hr
    unfold Shell.call? at hk
    split at hk <;> cases hk <;> cases ht
    · cases hxr
      exact .commit lane ‹_› ⟨hw, hx, ho⟩
    · cases hxr
      exact .close lane x.id
    · cases hxr
      exact .rollback lane ‹_› ⟨hw, hx, ho⟩
    · obtain ⟨-, hxr⟩ := Option.ite_none_right_eq_some.1 hxr
      cases hxr
      exact .query lane ‹_› ⟨hw, hx, ho⟩
    · cases hxr
      exact .close lane x.id

theorem phase_of_leaves {h : Handle} {demand : Demand Payload} (hk : d.shell.call? = some k)
    (hleaves : k.Leaves (.pull h demand)) : ∃ n, d.shell.phase = .display h n := by
  unfold Shell.call? at hk
  cases demand with
  | answer =>
    cases hleaves
    split at hk <;> cases hk
  | item =>
    cases hleaves
    split at hk <;> cases hk
    exact ⟨_, ‹_›⟩
  | rest got =>
    obtain ⟨bound, rfl⟩ := hleaves
    split at hk <;> cases hk

theorem Attends.emits (ha : d.Attends) (hl : d.client.link.Aligned)
    (hu : ∀ k, u ≠ .happen (.call k)) :
    ∃ fs, d.Emits fs ∧ (d.step u).client.link.sent = d.client.link.sent ++ fs := by
  have hsame : ∃ fs, d.Emits fs ∧ d.client.link.sent = d.client.link.sent ++ fs :=
    ⟨[], .nothing, (List.append_nil _).symm⟩
  cases u with
  | go =>
    by_cases hp : d.shell.phase = .prompt
    · rw [step_prompt hp]
      exact hsame
    · cases hk : d.shell.call? with
      | none =>
        rw [step_idle hp hk]
        exact hsame
      | some k =>
        have hsent : (d.client.step (.call k)).1.link.sent = _ := (Client.asks_call hl k).sent
        rw [step_call hk, client_hear, hsent]
        refine ⟨_, ?_, rfl⟩
        cases hr : d.client.request? k with
        | none => exact .nothing
        | some request => exact emits_request hk hr _
  | happen m =>
    show ∃ fs, d.Emits fs ∧ (d.hear (d.client.step m)).client.link.sent = _
    rw [client_hear]
    rcases Client.fetches_step hl fun k h => hu k (congrArg _ h) with h | ⟨h, q, token, hq, ht, hf⟩
    · exact ⟨[], .nothing, h.sent.trans (List.append_nil _).symm⟩
    · refine ⟨_, ?_, hf.sent⟩
      obtain ⟨demand, hw⟩ := Client.pulling_of_token? ht
      obtain ⟨k, hk, hleaves⟩ := ha _ hw
      obtain ⟨n, hp⟩ := phase_of_leaves hk hleaves
      exact .fetch hp hq token

/-! ## Runs -/

/-- What can be seen of a console. -/
inductive Event where
  /-- It asked for a line; this is what it got. -/
  | read (line : Except CommandFailure String)
  | sent (frame : ClientFrame)
  /-- A transaction was opened for it. -/
  | opened (id : UInt64)

/-- What can be seen of a client's turn: frames that are sent and transactions that are opened. -/
def news (fs : List ClientFrame) (ids : List UInt64) : List Event := fs.map .sent ++ ids.map .opened

/-- What can be seen of a turn. -/
def events (d : Desk) (u : Turn) : List Event :=
  (d.asked u).toList.map .read ++
    news ((d.step u).client.link.sent.drop d.client.link.sent.length)
      (((d.step u).client.transactions.drop d.client.transactions.length).map (·.id))

theorem events_prompt (hp : d.shell.phase = .prompt) :
    d.events .go = [.read d.shell.terminal.line] := by
  rw [events, step_prompt hp, asked, if_pos hp]
  simp [news]

theorem asked_of_not_prompt (hp : ¬ (u = .go ∧ d.shell.phase = .prompt)) : d.asked u = none := by
  cases u with
  | go => exact if_neg fun h => hp ⟨rfl, h⟩
  | happen m => rfl

def run (d : Desk) (us : List Turn) : Desk := us.foldl step d

/-- What can be seen of a run. -/
def journal (d : Desk) : List Turn → List Event
  | [] => []
  | u :: us => d.events u ++ (d.step u).journal us

/-! ## Reading a journal -/

variable {a : Arguments} {j es : List Event} {fs : List ClientFrame} {ids : List UInt64}

def frames (j : List Event) : List ClientFrame :=
  j.filterMap fun | .sent f => some f | _ => none

def lines (j : List Event) : List (Except CommandFailure String) :=
  j.filterMap fun | .read line => some line | _ => none

def opened (j : List Event) : List UInt64 :=
  j.filterMap fun | .opened id => some id | _ => none

/-- The batch size that a line sets, if it is a command that is accepted and does. -/
def batch? (line : Except CommandFailure String) : Option BatchSize :=
  match line.bind Command.parse with
  | .ok (.batch size) => some size
  | _ => none

/-- The options that were set last. -/
def settings (a : Arguments) (j : List Event) : QueryOptions :=
  .ofBatchSize ((((lines j).filterMap batch?).getLast?).getD a.batchSize)

/-- A commit or a close of a transaction was sent. -/
def Ended (j : List Event) (id : UInt64) : Prop := ∃ f ∈ frames j, f.body.ends? = some id

/-- A commit was sent, and no transaction was opened since. -/
def Owes (j : List Event) : Prop :=
  ∃ before lane id after, j = before ++ .sent ⟨lane, .commit id⟩ :: after ∧
    ∀ id', .opened id' ∉ after

@[simp] theorem frames_append (j es : List Event) : frames (j ++ es) = frames j ++ frames es :=
  List.filterMap_append

@[simp] theorem lines_append (j es : List Event) : lines (j ++ es) = lines j ++ lines es :=
  List.filterMap_append

@[simp] theorem opened_append (j es : List Event) : opened (j ++ es) = opened j ++ opened es :=
  List.filterMap_append

@[simp] theorem frames_news : frames (news fs ids) = fs := by
  simp [frames, news, List.filterMap_append, List.filterMap_map]

@[simp] theorem lines_news : lines (news fs ids) = [] := by
  simp [lines, news, List.filterMap_append, List.filterMap_map]

@[simp] theorem opened_news : opened (news fs ids) = ids := by
  simp [opened, news, List.filterMap_append, List.filterMap_map]

theorem mem_of_sent_mem_news {f : ClientFrame} (h : .sent f ∈ news fs ids) : f ∈ fs := by
  rcases List.mem_append.1 h with h | h
  · obtain ⟨f', hf, he⟩ := List.mem_map.1 h
    cases he
    exact hf
  · obtain ⟨id, -, he⟩ := List.mem_map.1 h
    cases he

theorem settings_congr (h : lines es = lines j) (a : Arguments) : settings a es = settings a j := by
  rw [settings, h, settings]

/-- A line sets the options that the console chooses by it. -/
theorem settings_read (a : Arguments) (j : List Event) (line : Except CommandFailure String) :
    settings a (j ++ [.read line]) = Shell.choose (settings a j) (line.bind Command.parse) := by
  have hlines : lines (j ++ [.read line]) = lines j ++ [line] := lines_append ..
  rw [settings, settings, hlines, List.filterMap_append, List.filterMap_cons, List.filterMap_nil]
  cases hc : line.bind Command.parse with
  | error e => simp [batch?, hc, Shell.choose]
  | ok c => cases c <;> simp [batch?, hc, Shell.choose]

theorem Owes.of_append (h : Owes (j ++ es)) :
    (Owes j ∧ ∀ id, .opened id ∉ es) ∨ ∃ lane id, .sent ⟨lane, .commit id⟩ ∈ es := by
  obtain ⟨before, lane, id, after, heq, hno⟩ := h
  rcases List.append_eq_append_iff.1 heq with ⟨as, rfl, rfl⟩ | ⟨bs, rfl, hrest⟩
  · exact .inr ⟨lane, id, List.mem_append_right _ List.mem_cons_self⟩
  · rcases List.cons_eq_append_iff.1 hrest with ⟨rfl, rfl⟩ | ⟨bs, rfl, rfl⟩
    · exact .inr ⟨lane, id, List.mem_cons_self⟩
    · refine .inl ⟨⟨before, lane, id, bs, rfl, fun id' h => hno id' ?_⟩, fun id' h => hno id' ?_⟩
      · exact List.mem_append_left _ h
      · exact List.mem_append_right _ h

end Desk

end QueryLanes
