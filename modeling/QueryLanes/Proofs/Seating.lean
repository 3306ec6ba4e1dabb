import QueryLanes.Proofs.Journal

/-!
# The console's transaction

A console works in one transaction at a time, the one that was opened last. `Shell.Stage` says for
each phase what the console has: at its prompt and as long as it serves a command an open
transaction in an open session, and while answers are printed the query that was sent last. A
reply takes the console from one stage to the next (`Shell.Stage.hear`).

`Desk.Allows` says what may come next in a journal: a query, a commit or a rollback names the
transaction opened last, of which no commit and no close was sent; a query is the last line with the
options last set, and the requests for its next batches ask for the same; and no line is read
between a commit and the opening of the next transaction. `Desk.journal_allowed` says so of every run.
-/

namespace QueryLanes

/-- Whether a request is the first of a query. -/
def Request.queries : Request → Bool
  | .fetch _ f => f.query.isSome
  | _ => false

/-- The first request of the query that was sent last. -/
def lastQuery (fs : List ClientFrame) : Option ClientFrame :=
  (fs.filter (·.body.queries)).getLast?

theorem lastQuery_append_of_not {fs fs' : List ClientFrame}
    (h : ∀ f ∈ fs', f.body.queries = false) : lastQuery (fs ++ fs') = lastQuery fs := by
  have hnone : fs'.filter (·.body.queries) = [] :=
    List.filter_eq_nil_iff.2 fun f hf => Bool.not_eq_true _ ▸ h f hf
  rw [lastQuery, List.filter_append, hnone, List.append_nil, lastQuery]

theorem lastQuery_concat {fs : List ClientFrame} {f : ClientFrame} (h : f.body.queries = true) :
    lastQuery (fs ++ [f]) = some f := by
  have hone : [f].filter (·.body.queries) = [f] := List.filter_cons_of_pos h
  rw [lastQuery, List.filter_append, hone, List.getLast?_concat]

/-! ## What the console has -/

namespace Client

variable {α : Type} {c c' : Client α} {s t h : Handle} {x : Transaction}

/-- A console in this session and this transaction has both open, and the transaction is the last. -/
structure Seats (c : Client α) (s t : Handle) : Prop where
  session : c.sessionFlag s = true
  transaction : ∃ x, c.transactions[t]? = some x ∧ x.session = s ∧ x.isOpen = true ∧ x.held = true
  last : c.transactions.length = t + 1

theorem sessionFlag_congr (hs : c'.sessions = c.sessions) (s : Handle) :
    c'.sessionFlag s = c.sessionFlag s := by
  rw [sessionFlag, hs, sessionFlag]

theorem Seats.congr (h : c.Seats s t) (hr : c'.records = c.records) : c'.Seats s t where
  session := (sessionFlag_congr (sessions_of_records hr) s).trans h.session
  transaction := by rw [transactions_of_records hr]; exact h.transaction
  last := by rw [transactions_of_records hr]; exact h.last

/-- Changes of another transaction leave the seat. -/
theorem Seats.modify (h : c.Seats s t) {t' : Handle} (hne : t' ≠ t)
    {f : Transaction → Transaction}
    (hr : c'.records = (c.sessions, c.transactions.modify t' f)) : c'.Seats s t where
  session := (sessionFlag_congr (sessions_of_records hr) s).trans h.session
  transaction := by
    obtain ⟨x, hx, hxs⟩ := h.transaction
    refine ⟨x, ?_, hxs⟩
    rw [transactions_of_records hr, List.getElem?_modify, hx]
    exact congrArg some (if_neg hne)
  last := by
    rw [transactions_of_records hr, List.length_modify]
    exact h.last

theorem seats_opened (hs : c.sessionFlag s = true) (hx : x.session = s) (ho : x.isOpen = true)
    (hheld : x.held = true) (hr : c'.records = (c.sessions, c.transactions ++ [x])) :
    c'.Seats s c.transactions.length where
  session := (sessionFlag_congr (sessions_of_records hr) s).trans hs
  transaction := by
    refine ⟨x, ?_, hx, ho, hheld⟩
    rw [transactions_of_records hr, List.getElem?_concat_length]
  last := by
    rw [transactions_of_records hr, List.length_append, List.length_singleton]

/-- The query at a place is the one that was sent last. -/
def Reads (c : Client α) (h : Handle) : Prop :=
  ∃ q text, c.queries[h]? = some q ∧
    lastQuery c.link.sent = some ⟨q.lane, .fetch q.transaction (.first text q.options)⟩

theorem Reads.keep (hq : c.Reads h) (hr : c.Retains c')
    (hs : lastQuery c'.link.sent = lastQuery c.link.sent) : c'.Reads h := by
  obtain ⟨q, text, hq, hlast⟩ := hq
  obtain ⟨q', hq', hl⟩ := hr h q hq
  refine ⟨q', text, hq', ?_⟩
  rw [hs, hlast, hl.lane, hl.transaction, hl.options]

end Client

/-- The console commits, or opens the transaction that follows, or ends for want of it. -/
def Phase.Renews : Phase → Prop
  | .commit | .reopen => True
  | .leaveTransaction code | .leaveSession code | .leaveClient code | .done code => code = 1
  | _ => False

namespace Shell

variable {s : Shell} {c c' : Client Payload} {k : Call Payload} {r : Reply Payload}

/-- What a console has in its phase. -/
def Stage (s : Shell) (c : Client Payload) : Prop :=
  match s.phase with
  | .openTransaction => c.sessionFlag s.session = true
  | .prompt | .commit | .rollback | .ask _ => c.Seats s.session s.transaction
  | .reopen => c.sessionFlag s.session = true ∧ s.transaction < c.transactions.length
  | .retire old => c.Seats s.session s.transaction ∧ old ≠ s.transaction
  | .start h | .display h _ | .forget h => c.Seats s.session s.transaction ∧ c.Reads h
  | .openSession | .leaveTransaction _ | .leaveSession _ | .leaveClient _ | .done _ => True

/-- A line leads on to where the console needs no more than it has at its prompt. -/
theorem Stage.readLine (h : s.Stage c) (hp : s.phase = .prompt) : s.readLine.Stage c := by
  obtain ⟨terminal, errors, he⟩ := readLine_eq hp
  have h : c.Seats s.session s.transaction := by
    unfold Stage at h
    rwa [hp] at h
  rw [he]
  unfold Stage
  dsimp only
  rcases s.terminal.line.bind Command.parse with e | k
  · cases e <;> first | exact h | exact trivial
  · cases k <;> first | exact h | exact trivial

/-- While the call of the phase waits, nothing is lost. -/
theorem Stage.wait (h : s.Stage c) (hr : c'.records = c.records) (hq : c.Retains c')
    (hs : (∀ text, s.phase ≠ .ask text) → lastQuery c'.link.sent = lastQuery c.link.sent) :
    s.Stage c' := by
  have hflag := Client.sessionFlag_congr (Client.sessions_of_records hr) s.session
  unfold Stage at h ⊢
  split at h <;> rename_i hp
  · exact hflag.trans h
  · exact h.congr hr
  · exact h.congr hr
  · exact h.congr hr
  · exact h.congr hr
  · exact ⟨hflag.trans h.1, by rw [Client.transactions_of_records hr]; exact h.2⟩
  · exact ⟨h.1.congr hr, h.2⟩
  · exact ⟨h.1.congr hr, h.2.keep hq (hs (by rw [hp]; exact nofun))⟩
  · exact ⟨h.1.congr hr, h.2.keep hq (hs (by rw [hp]; exact nofun))⟩
  · exact ⟨h.1.congr hr, h.2.keep hq (hs (by rw [hp]; exact nofun))⟩
  all_goals trivial

/-- The reply to the call of the phase takes the console to the next stage. -/
theorem Stage.hear (h : s.Stage c) (hk : s.call? = some k) (he : c.Effect c' r k)
    (hq : c.Retains c')
    (hs : (∀ text, s.phase ≠ .ask text) → lastQuery c'.link.sent = lastQuery c.link.sent)
    (batches : Handle → Nat) : (s.hear batches r).Stage c' := by
  obtain ⟨arguments, terminal, errors, options, session, transaction, phase⟩ := s
  cases phase with
  | prompt | done => cases hk
  | openSession =>
    cases hk
    rcases he with ⟨y, ho, rfl, hr⟩ | ⟨hr, -⟩
    · show c'.sessionFlag c.sessions.length = true
      rw [Client.sessionFlag, Client.sessions_of_records hr, List.getElem?_concat_length]
      exact ho
    · cases r <;> first | exact trivial | exact absurd rfl (hr _)
  | openTransaction =>
    cases hk
    rcases he with ⟨x, hx, ho, hheld, rfl, hr⟩ | ⟨hr, -⟩
    · exact Client.seats_opened h hx ho hheld hr
    · cases r <;> first | exact trivial | exact absurd rfl (hr _)
  | commit =>
    cases hk
    obtain ⟨f, -, hr⟩ := he
    have hflag := (Client.sessionFlag_congr (Client.sessions_of_records hr) session).trans h.session
    have hlt : transaction < c'.transactions.length := by
      rw [Client.transactions_of_records hr, List.length_modify, h.last]
      exact Nat.lt_succ_self _
    cases r <;> exact ⟨hflag, hlt⟩
  | reopen =>
    cases hk
    rcases he with ⟨x, hx, ho, hheld, rfl, hr⟩ | ⟨hr, -⟩
    · exact ⟨Client.seats_opened h.1 hx ho hheld hr, Nat.ne_of_lt h.2⟩
    · cases r <;> first | exact trivial | exact absurd rfl (hr _)
  | retire old =>
    cases hk
    obtain ⟨f, -, hr⟩ := he
    have hseat := h.1.modify h.2 hr
    cases r <;> exact hseat
  | rollback =>
    cases hk
    have hseat : c'.Seats session transaction := h.congr he
    cases r <;> exact hseat
  | ask text =>
    cases hk
    obtain ⟨hr, hopened⟩ := he
    have hseat : c'.Seats session transaction := h.congr hr
    cases r with
    | opened i =>
      obtain ⟨q, hq, rfl, hsent⟩ := hopened i rfl
      refine ⟨hseat, q, Utf8.encode text, hq, ?_⟩
      rw [hsent, lastQuery_concat rfl]
    | failed e => exact hseat
    | _ => trivial
  | start i =>
    cases hk
    have hnext := And.intro (h.1.congr he) (h.2.keep hq (hs (by simp)))
    cases r <;> exact hnext
  | display i n =>
    cases hk
    have hnext := And.intro (h.1.congr he) (h.2.keep hq (hs (by simp)))
    cases r with
    | answer a => cases a <;> exact hnext
    | failed e => exact hnext
    | _ => trivial
  | forget i =>
    cases hk
    have hseat : c'.Seats session transaction := h.1.congr he
    cases r <;> exact hseat
  | leaveTransaction | leaveSession | leaveClient => cases r <;> trivial

theorem Stage.at {p : Phase} (h : s.Stage c) (hp : s.phase = p) : { s with phase := p }.Stage c := by
  subst hp
  exact h

theorem options_hear (s : Shell) (batches : Handle → Nat) (r : Reply Payload) :
    (s.hear batches r).options = s.options := by
  unfold hear
  split <;> rfl

/-- Only a line leads to a query. -/
theorem phase_hear (s : Shell) (batches : Handle → Nat) (r : Reply Payload) (text : String) :
    (s.hear batches r).phase ≠ .ask text := by
  unfold hear
  split <;> exact nofun

/-- A console that owes a transaction goes on to open one, or ends if it gets none. -/
theorem renews_hear (hp : s.phase.Renews) (hk : s.call? = some k) (he : c.Effect c' r k)
    (hno : s.phase = .reopen → c'.transactions.length = c.transactions.length)
    (batches : Handle → Nat) : (s.hear batches r).phase.Renews := by
  obtain ⟨arguments, terminal, errors, options, session, transaction, phase⟩ := s
  cases phase with
  | commit => cases r <;> trivial
  | reopen =>
    cases hk
    rcases he with ⟨x, -, -, -, -, hr⟩ | ⟨hr, -⟩
    · have hlen := hno rfl
      rw [Client.transactions_of_records hr, List.length_append] at hlen
      exact absurd hlen (Nat.succ_ne_self _)
    · cases r <;> first | exact rfl | exact absurd rfl (hr _)
  | leaveTransaction | leaveSession | leaveClient => cases r <;> exact hp
  | done => cases hk
  | _ => exact hp.elim

end Shell

namespace Desk

variable {a : Arguments} {j : List Event} {d d' : Desk} {u : Turn} {fs : List ClientFrame}
  {ids : List UInt64}

/-! ## What may come next -/

/-- What may come after a journal. -/
inductive Allows (a : Arguments) (j : List Event) : Event → Prop
  | read (line : Except CommandFailure String) (h : ¬ Owes j) : Allows a j (.read line)
  | opened (id : UInt64) : Allows a j (.opened id)
  /-- The line that was read last, in the transaction that was opened last. -/
  | query (lane : Lane) {id : UInt64} {line : String} (hid : (opened j).getLast? = some id)
      (hopen : ¬ Ended j id) (hline : (lines j).getLast? = some (.ok line))
      (hparse : Command.parse line = .ok (.query (Text.trim line))) :
      Allows a j (.sent
        ⟨lane, .fetch id (.first (Utf8.encode (Text.trim line)) (settings a j))⟩)
  /-- The next batch of the query that was sent last. -/
  | fetch {lane : Lane} {id : UInt64} {text : Payload} {options : QueryOptions} (token : UInt64)
      (h : lastQuery (frames j) = some ⟨lane, .fetch id (.first text options)⟩) :
      Allows a j (.sent ⟨lane, .fetch id (.continuation token options)⟩)
  | commit (lane : Lane) {id : UInt64} (hid : (opened j).getLast? = some id)
      (hopen : ¬ Ended j id) : Allows a j (.sent ⟨lane, .commit id⟩)
  | rollback (lane : Lane) {id : UInt64} (hid : (opened j).getLast? = some id)
      (hopen : ¬ Ended j id) : Allows a j (.sent ⟨lane, .rollback id⟩)
  | close (lane : Lane) (id : UInt64) : Allows a j (.sent ⟨lane, .closeTransaction id⟩)
  /-- What is not for a transaction. -/
  | other (lane : Lane) {r : Request} (hr : r.within? = none) : Allows a j (.sent ⟨lane, r⟩)

/-- Each event of a journal may come after those before it. -/
def Allowed (a : Arguments) (j : List Event) : Prop :=
  ∀ before e after, j = before ++ e :: after → Allows a before e

theorem allowed_nil (a : Arguments) : Allowed a [] := by
  intro before e after h
  simp at h

theorem Allowed.concat (h : Allowed a j) {e : Event} (he : Allows a j e) : Allowed a (j ++ [e]) := by
  intro before e' after heq
  rcases List.append_eq_append_iff.1 heq with ⟨as, rfl, hrest⟩ | ⟨bs, rfl, hrest⟩
  · rcases List.cons_eq_append_iff.1 hrest with ⟨rfl, he'⟩ | ⟨as, rfl, he'⟩
    · cases he'
      rwa [List.append_nil]
    · simp at he'
  · rcases List.cons_eq_append_iff.1 hrest with ⟨rfl, he'⟩ | ⟨bs, rfl, rfl⟩
    · cases he'
      rwa [List.append_nil] at he
    · exact h before e' bs rfl

/-- At most one frame is sent in a turn, and then what is opened is allowed. -/
theorem Allowed.news (h : Allowed a j) (hlen : fs.length ≤ 1)
    (hf : ∀ f ∈ fs, Allows a j (.sent f)) (ids : List UInt64) : Allowed a (j ++ news fs ids) := by
  have hsent : Allowed a (j ++ fs.map .sent) := by
    match fs, hlen with
    | [], _ => rwa [List.map_nil, List.append_nil]
    | [f], _ => exact h.concat (hf f List.mem_cons_self)
  rw [Desk.news, ← List.append_assoc]
  clear hf
  generalize j ++ fs.map Event.sent = j' at hsent ⊢
  induction ids generalizing j' with
  | nil => rwa [List.map_nil, List.append_nil]
  | cons id ids ih =>
    rw [List.map_cons, List.append_cons]
    exact ih _ (hsent.concat (.opened id))

/-! ## Runs -/

namespace Emits

theorem length_le (h : d.Emits fs) : fs.length ≤ 1 := by
  cases h <;> first | exact Nat.zero_le 1 | exact Nat.le_refl 1

theorem not_queries (h : d.Emits fs) (hp : ∀ text, d.shell.phase ≠ .ask text) :
    ∀ f ∈ fs, f.body.queries = false := by
  intro f hf
  cases h with
  | nothing => cases hf
  | @other lane r hr =>
    rw [List.mem_singleton.1 hf]
    cases r <;> first | rfl | cases hr
  | @query lane x text hask => exact absurd hask (hp text)
  | _ =>
    rw [List.mem_singleton.1 hf]
    rfl

theorem phase_of_commit (h : d.Emits fs) {lane : Lane} {id : UInt64}
    (hf : ⟨lane, .commit id⟩ ∈ fs) : d.shell.phase = .commit := by
  cases h with
  | nothing => cases hf
  | commit lane hp => exact hp
  | other lane hr =>
    cases List.mem_singleton.1 hf
    cases hr
  | _ => cases List.mem_singleton.1 hf

end Emits

/-- The console is in step with its journal. -/
structure Attuned (a : Arguments) (j : List Event) (d : Desk) : Prop where
  fit : d.client.Fit
  marked : d.client.Marked
  attends : d.Attends
  stage : d.shell.Stage d.client
  frames : frames j = d.client.link.sent
  opened : opened j = d.client.transactions.map (·.id)
  options : d.shell.options = settings a j
  line : ∀ text, d.shell.phase = .ask text →
    ∃ line, (lines j).getLast? = some (.ok line) ∧ Command.parse line = .ok (.query text)
  renews : Owes j → d.shell.phase.Renews
  allowed : Allowed a j

theorem attuned_start (a : Arguments) (input : List UInt8) : Attuned a [] (.start a input) where
  fit := Client.fit_new a.timeout
  marked := Client.marked_new a.timeout
  attends := nofun
  stage := trivial
  frames := rfl
  opened := rfl
  options := rfl
  line := nofun
  renews h := by
    obtain ⟨before, lane, id, after, heq, -⟩ := h
    simp at heq
  allowed := allowed_nil a

namespace Attuned

variable (h : Attuned a j d)
include h

/-- The console is in the transaction that was opened last. -/
theorem current {x : Transaction} (hx : d.client.transaction? d.shell.transaction = some x)
    (hs : d.client.Seats d.shell.session d.shell.transaction) :
    (Desk.opened j).getLast? = some x.id := by
  rw [h.opened, List.getLast?_map, List.getLast?_eq_getElem?, hs.last, Nat.add_sub_cancel,
    Client.getElem?_of_transaction? hx]
  rfl

/-- With numbers given once, the transaction in use was not ended. -/
theorem not_ended (hn : (Desk.opened j).Nodup) {x : Transaction} (hx : d.Uses x) :
    ¬ Ended j x.id := by
  rintro ⟨f, hf, hid⟩
  rw [h.frames] at hf
  rw [h.opened] at hn
  obtain ⟨t, y, hy, hyid, z, hz, hover⟩ := h.marked f.body (List.mem_map_of_mem hf) x.id hid
  have hget := Client.getElem?_of_transaction? hx.held
  have ht : t = d.shell.transaction := Records.eq_of_nodup hn hy hget hyid
  rw [ht, hget] at hz
  cases hz
  rcases hover with ho | ⟨i, hw⟩
  · rw [hx.isOpen] at ho
    cases ho
  · rw [hx.idle] at hw
    cases hw

theorem allows (hn : (Desk.opened j).Nodup) (hf : d.Emits fs) : ∀ f ∈ fs, Allows a j (.sent f) := by
  intro f hmem
  cases hf with
  | nothing => cases hmem
  | other lane hr =>
    rw [List.mem_singleton.1 hmem]
    exact .other lane hr
  | close lane id =>
    rw [List.mem_singleton.1 hmem]
    exact .close lane id
  | commit lane hp hx =>
    rw [List.mem_singleton.1 hmem]
    exact .commit lane (h.current hx.held (h.stage.at hp)) (h.not_ended hn hx)
  | rollback lane hp hx =>
    rw [List.mem_singleton.1 hmem]
    exact .rollback lane (h.current hx.held (h.stage.at hp)) (h.not_ended hn hx)
  | query lane hp hx =>
    obtain ⟨line, hline, hparse⟩ := h.line _ hp
    rw [List.mem_singleton.1 hmem, h.options, Command.eq_trim_of_parse hparse]
    rw [Command.eq_trim_of_parse hparse] at hparse
    exact .query lane (h.current hx.held (h.stage.at hp)) (h.not_ended hn hx) hline hparse
  | fetch hp hq token =>
    obtain ⟨-, q, text, hq', hlast⟩ := h.stage.at hp
    rw [hq] at hq'
    cases hq'
    rw [List.mem_singleton.1 hmem]
    exact .fetch token (h.frames ▸ hlast)

theorem not_owes (hp : d.shell.phase = .prompt) : ¬ Owes j := by
  intro ho
  have hrenews := h.renews ho
  rw [hp] at hrenews
  exact hrenews

/-- A line is read. -/
theorem read (hp : d.shell.phase = .prompt) :
    Attuned a (j ++ [.read d.shell.terminal.line]) { d with shell := d.shell.readLine } := by
  obtain ⟨terminal, errors, he⟩ := Shell.readLine_eq hp
  refine
    { fit := h.fit
      marked := h.marked
      attends := fun w hw => ?_
      stage := h.stage.readLine hp
      frames := (frames_append ..).trans ((List.append_nil _).trans h.frames)
      opened := (opened_append ..).trans ((List.append_nil _).trans h.opened)
      options := ?_
      line := fun text ht => ?_
      renews := fun ho => ?_
      allowed := h.allowed.concat (.read _ (h.not_owes hp)) }
  · obtain ⟨k, hk, -⟩ := h.attends w hw
    exact absurd hp (Shell.phase_of_prompt hk)
  · rw [he, settings_read, ← h.options]
  · rw [he] at ht
    have hparse := Shell.answer_eq_ask ht
    obtain ⟨line, hline⟩ : ∃ line, d.shell.terminal.line = .ok line := by
      cases hl : d.shell.terminal.line with
      | error e =>
        rw [hl] at hparse
        cases hparse
      | ok line => exact ⟨line, rfl⟩
    rw [hline, Except.bind] at hparse
    refine ⟨line, ?_, hparse⟩
    rw [hline, lines_append]
    exact List.getLast?_concat
  · rcases ho.of_append with ⟨ho, -⟩ | ⟨lane, id, hmem⟩
    · exact absurd ho (h.not_owes hp)
    · cases List.mem_singleton.1 hmem

/-- The call of the phase waits, or is answered. -/
theorem turn (hn : (Desk.opened j).Nodup) (hd : d.Turned none d') (hf : d.Emits fs)
    (hretains : d.client.Retains d'.client) (hfit : d'.client.Fit) (hmarked : d'.client.Marked)
    (hsent : d'.client.link.sent = d.client.link.sent ++ fs)
    (hids : d'.client.transactions.map (·.id) = d.client.transactions.map (·.id) ++ ids) :
    Attuned a (j ++ news fs ids) d' := by
  have hlast (hno : ∀ text, d.shell.phase ≠ .ask text) :
      lastQuery d'.client.link.sent = lastQuery d.client.link.sent := by
    rw [hsent, lastQuery_append_of_not (hf.not_queries hno)]
  have hframes : Desk.frames (j ++ news fs ids) = d'.client.link.sent := by simp [h.frames, hsent]
  have hopened : Desk.opened (j ++ news fs ids) = d'.client.transactions.map (·.id) := by
    simp [h.opened, hids]
  have hlines : lines (j ++ news fs ids) = lines j := by simp
  have hallowed : Allowed a (j ++ news fs ids) :=
    h.allowed.news hf.length_le (h.allows hn hf) ids
  have howes (ho : Owes (j ++ news fs ids)) :
      d.shell.phase.Renews ∧ (ids = [] ∨ d.shell.phase = .commit) := by
    rcases ho.of_append with ⟨ho, hno⟩ | ⟨lane, id, hmem⟩
    · refine ⟨h.renews ho, .inl (List.eq_nil_iff_forall_not_mem.2 fun id hid => hno id ?_)⟩
      exact List.mem_append_right _ (List.mem_map_of_mem hid)
    · have hp : d.shell.phase = .commit := hf.phase_of_commit (mem_of_sent_mem_news hmem)
      exact ⟨hp ▸ trivial, .inr hp⟩
  cases hd with
  | waits hs hw =>
    exact
      { fit := hfit
        marked := hmarked
        attends := hw
        stage := h.stage.wait hs hretains hlast
        frames := hframes
        opened := hopened
        options := h.options.trans (settings_congr hlines a).symm
        line := fun text ht => by rw [hlines]; exact h.line text ht
        renews := fun ho => (howes ho).1
        allowed := hallowed }
  | hears hk hw he =>
    refine
      { fit := hfit
        marked := hmarked
        attends := fun w h => nomatch hw.symm.trans h
        stage := h.stage.hear hk he hretains hlast _
        frames := hframes
        opened := hopened
        options := ?_
        line := fun text ht => absurd ht (Shell.phase_hear _ _ _ text)
        renews := fun ho => ?_
        allowed := hallowed }
    · rw [Shell.options_hear, h.options, settings_congr hlines]
    · obtain ⟨hrenews, hnone⟩ := howes ho
      refine Shell.renews_hear hrenews hk he (fun hp => ?_) _
      rcases hnone with rfl | hcommit
      · simpa using congrArg List.length hids
      · rw [hp] at hcommit
        cases hcommit

theorem step (hn : (Desk.opened j).Nodup) (hu : ∀ k, u ≠ .happen (.call k)) :
    Attuned a (j ++ d.events u) (d.step u) := by
  by_cases hp : u = .go ∧ d.shell.phase = .prompt
  · obtain ⟨rfl, hp⟩ := hp
    rw [events_prompt hp, step_prompt hp]
    exact h.read hp
  · have hasked := asked_of_not_prompt hp
    obtain ⟨fs, hf, hsent⟩ := h.attends.emits h.fit.aligned hu
    have hturned := h.attends.turned hu
    rw [hasked] at hturned
    have hevents : d.events u = news fs
        (((d.step u).client.transactions.drop d.client.transactions.length).map (·.id)) := by
      rw [events, hasked, hsent, List.drop_left]
      rfl
    rw [hevents]
    obtain ⟨hages, hretains, hfit, hmarked⟩ : d.client.Ages (d.step u).client ∧
        d.client.Retains (d.step u).client ∧ (d.step u).client.Fit ∧ (d.step u).client.Marked := by
      rcases client_step d u with hc | ⟨m, hc⟩ <;> rw [hc]
      · exact ⟨.refl _, .refl _, h.fit, h.marked⟩
      · exact ⟨Client.ages_step _ m, Client.retains_step _ m, h.fit.step m, h.marked.step h.fit m⟩
    exact h.turn hn hturned hf hretains hfit hmarked hsent hages.map_id

/-- With numbers given once, a run stays in step with its journal. -/
theorem run {us : List Turn} (hn : (Desk.opened (j ++ d.journal us)).Nodup)
    (hu : ∀ u ∈ us, ∀ k, u ≠ .happen (.call k)) :
    Attuned a (j ++ d.journal us) (d.run us) := by
  induction us generalizing j d with
  | nil => rwa [journal, List.append_nil]
  | cons u us ih =>
    have hall : j ++ d.journal (u :: us) = j ++ d.events u ++ (d.step u).journal us :=
      (List.append_assoc ..).symm
    have hj : (Desk.opened j).Nodup := by
      rw [opened_append] at hn
      exact (List.nodup_append.1 hn).1
    rw [hall] at hn ⊢
    exact ih (h.step hj (hu u List.mem_cons_self)) hn fun v hv => hu v (List.mem_cons_of_mem u hv)

end Attuned

/-- **The console works in its current transaction.** Whatever lines are read and whatever the server
does, if it gives each transaction a number of its own: every event of the journal may come after
those before it. So a query, a commit and a rollback name the transaction that was opened last, of
which no commit and no close was sent before; the first request of a query holds the line read last,
trimmed, and the options set last, which its later requests repeat; and after a commit no line is
read before the next transaction is open. As long as that is not open, the console is committing, or
opens it, or ends because it could not. At the prompt the console has the transaction opened last,
and it is open unless the connection is closed. -/
theorem journal_allowed (a : Arguments) (input : List UInt8) {us : List Turn} {d : Desk}
    {j : List Event} (hd : (start a input).run us = d) (hj : (start a input).journal us = j)
    (hu : ∀ u ∈ us, ∀ k, u ≠ .happen (.call k)) (hn : (opened j).Nodup) :
    (∀ before e after, j = before ++ e :: after → Allows a before e) ∧
    (Owes j → d.shell.phase.Renews) ∧
    (d.shell.phase = .prompt → ∃ x, d.client.transaction? d.shell.transaction = some x ∧
      (opened j).getLast? = some x.id ∧
      (d.client.link.isOpen = true → d.client.transactionIsOpen x = true)) := by
  have h : Attuned a j d := by
    subst hd hj
    exact (attuned_start a input).run hn hu
  refine ⟨h.allowed, h.renews, fun hp => ?_⟩
  have hseats : d.client.Seats d.shell.session d.shell.transaction := h.stage.at hp
  obtain ⟨x, hx, hs, ho, hheld⟩ := hseats.transaction
  have hx : d.client.transaction? d.shell.transaction = some x :=
    Option.filter_eq_some_iff.2 ⟨hx, hheld⟩
  refine ⟨x, hx, h.current hx hseats, fun hopen => ?_⟩
  rw [Client.transactionIsOpen_eq, hopen, hs, hseats.session, ho]
  rfl

/-- A batch size is set, a query is answered in two batches, the transaction is committed, and another
query finds nothing. -/
def sitting : List Turn :=
  [.go, .happen (.arrive ⟨1, .sessionOpened 9⟩), .happen .resume,
    .go, .happen (.arrive ⟨2, .transactionOpened 5⟩), .happen .resume,
    .go, .go, .go, .go, .happen (.arrive ⟨3, .item (.continuation 7)⟩), .happen .resume,
    .go, .happen .resume, .happen (.arrive ⟨3, .item .completion⟩), .happen .resume, .go,
    .go, .go, .happen (.arrive ⟨4, .acknowledged⟩), .happen .resume,
    .go, .happen (.arrive ⟨5, .transactionOpened 6⟩), .happen .resume, .go,
    .go, .go, .go, .happen (.arrive ⟨6, .item .completion⟩), .happen .resume,
    .go, .happen .resume, .go]

/-- The lines of the sitting: a batch size, a query between blanks, a commit and a query. -/
def sittingInput : List UInt8 :=
  [46, 98, 97, 116, 99, 104, 32, 50, 10] ++ [32, 113, 32, 10] ++
    [46, 99, 111, 109, 109, 105, 116, 10] ++ [114, 10]

theorem journal_allowed_sitting : ∃ (a : Arguments) (d : Desk) (j : List Event),
    (start a sittingInput).run sitting = d ∧ (start a sittingInput).journal sitting = j ∧
      (∀ u ∈ sitting, ∀ k, u ≠ .happen (.call k)) ∧ (opened j).Nodup ∧
      frames j = [⟨1, .openSession "db" .data⟩, ⟨2, .openTransaction 9 .read⟩,
        ⟨3, .fetch 5 (.first [113] (.ofBatchSize (.number 2)))⟩,
        ⟨3, .fetch 5 (.continuation 7 (.ofBatchSize (.number 2)))⟩, ⟨4, .commit 5⟩,
        ⟨5, .openTransaction 9 .read⟩, ⟨6, .fetch 6 (.first [114] (.ofBatchSize (.number 2)))⟩] ∧
      (∀ before e after, j = before ++ e :: after → Allows a before e) ∧
      ∃ x, d.client.transaction? d.shell.transaction = some x ∧ x.id = 6 ∧
        d.client.transactionIsOpen x = true := by
  obtain ⟨a, ha⟩ : ∃ a : Arguments, a = { address := "", database := "db" } := ⟨_, rfl⟩
  obtain ⟨d, hd⟩ : ∃ d : Desk, (start a sittingInput).run sitting = d := ⟨_, rfl⟩
  obtain ⟨j, hj⟩ : ∃ j : List Event, (start a sittingInput).journal sitting = j := ⟨_, rfl⟩
  have hu : ∀ u ∈ sitting, ∀ k, u ≠ .happen (.call k) := by
    rintro u hu k rfl
    simp [sitting] at hu
  have hstate : opened j = [5, 6] ∧ d.shell.phase = .prompt ∧ d.client.link.isOpen = true ∧
      frames j = [⟨1, .openSession "db" .data⟩, ⟨2, .openTransaction 9 .read⟩,
        ⟨3, .fetch 5 (.first [113] (.ofBatchSize (.number 2)))⟩,
        ⟨3, .fetch 5 (.continuation 7 (.ofBatchSize (.number 2)))⟩, ⟨4, .commit 5⟩,
        ⟨5, .openTransaction 9 .read⟩,
        ⟨6, .fetch 6 (.first [114] (.ofBatchSize (.number 2)))⟩] := by
    rw [← hj, ← hd, ha]
    decide +kernel
  obtain ⟨hopened, hp, hopen, hframes⟩ := hstate
  have hn : (opened j).Nodup := by
    rw [hopened]
    decide
  obtain ⟨hallowed, -, hprompt⟩ := journal_allowed a sittingInput hd hj hu hn
  obtain ⟨x, hx, hlast, hxo⟩ := hprompt hp
  rw [hopened] at hlast
  exact ⟨a, d, j, hd, hj, hu, hn, hframes, hallowed, x, hx, (Option.some.inj hlast).symm, hxo hopen⟩

end Desk

end QueryLanes
