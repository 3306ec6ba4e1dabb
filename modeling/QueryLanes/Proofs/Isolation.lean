import QueryLanes.Proofs.Looks
import QueryLanes.Proofs.Owners

/-!
# Isolation

Queries do not disturb each other. What becomes of a query is decided by its request, its reader, and
its history: the calls made on it and the bounded waits that ran out, the responses on its own lane,
the points at which it sent its next requests, and those at which its transaction, its session or the
connection ended. `Client.isolated` compares two runs, of clients that may differ in everything else.
-/

namespace QueryLanes

variable {α : Type}

namespace Client

variable {c c' : Client α} {h h' : Handle} {q q' : Query α}

/-! ## What is seen of a run -/

/-- The replies to the calls on the query at a place. -/
def repliesTo (c : Client α) (h : Handle) : List (Move α) → List (Reply α)
  | [] => []
  | m :: ms =>
    (if c.queries[h]?.isSome && c.concerns m h then (c.step m).2.toList else []) ++
      (c.step m).1.repliesTo h ms

/-- What happens to the query at a place, from when it is opened, but for looks that send nothing. -/
def history (c : Client α) (h : Handle) : List (Move α) → List Act
  | [] => []
  | m :: ms =>
    (match c.queries[h]? with
      | none => []
      | some q => (c.soloOf h q).history (c.acts m h q)) ++ (c.step m).1.history h ms

/-! ## The order of acts -/

theorem exists_pause (hw : c.waitsOn h = true) : ∃ p, c.waiting = some (Pause.wait h p) := by
  unfold waitsOn at hw
  obtain ⟨p, hp⟩ := Option.isSome_iff_exists.1 hw
  obtain ⟨w, hw, hon⟩ := Option.bind_eq_some_iff.1 hp
  exact ⟨p, by rw [hw, Wait.on_eq_some.1 hon]⟩

/-- A waiting call that is not ready finds nothing. -/
theorem Sound.take_idle (hc : c.Sound) (hq : c.queries[h]? = some q) (hw : c.waitsOn h = true)
    (hr : c.isReady = false) : (c.soloOf h q).take = (c.soloOf h q, none) := by
  obtain ⟨p, hp⟩ := exists_pause hw
  have hline := (hc.wired h q hq).line_poll hc.link
  have hwait : (c.soloOf h q).waiting = some p := by
    rw [soloOf, hp, Option.bind_some, Pause.on_wait]
  unfold isReady at hr
  cases p with
  | start bound drain =>
    rw [Solo.take_start hwait]
    split at hr <;> rename_i hw' <;> rw [hp] at hw' <;> cases hw'
    rw [hq, Option.any_some, Option.isSome_eq_false_iff, Option.isNone_iff_eq_none] at hr
    rw [hr] at hline
    rw [show (c.soloOf h q).line.poll = none from hline]
  | pull demand =>
    rw [Solo.take_pull hwait]
    split at hr <;> rename_i hw' <;> rw [hp] at hw' <;> cases hw'
    rw [hq, Option.any_some, Option.isSome_eq_false_iff, Option.isNone_iff_eq_none] at hr
    have hpoll : (c.soloOf h q).poll = none := by
      unfold Query.poll at hr
      unfold Solo.poll
      cases hst : q.stash with
      | some r =>
        rw [hst] at hr
        cases hr
      | none =>
        rw [hst] at hr
        rw [Option.map_eq_none_iff.1 hr] at hline
        rw [show (c.soloOf h q).query.stash = none from hst]
        dsimp only
        rw [show (c.soloOf h q).line.poll = none from hline]
        rfl
    rw [hpoll]

/-- A wait is given up only when it finds nothing. -/
theorem of_ownActs_giveUp {m : Move α} (hm : c.ownActs h q m = [.giveUp]) :
    c.waitsOn h = true ∧ c.isReady = false := by
  cases m with
  | call k =>
    simp only [ownActs] at hm
    split at hm
    · split at hm <;> cases hm
    · cases hm
  | arrive f =>
    simp only [ownActs] at hm
    split at hm <;> cases hm
  | lose => cases hm
  | resume =>
    simp only [ownActs] at hm
    split at hm <;> cases hm
  | expire =>
    simp only [ownActs] at hm
    split at hm
    · rename_i hw
      split at hm
      · cases hm
      · rename_i hr
        exact ⟨hw, Bool.eq_false_iff.2 hr⟩
    · cases hm

theorem orderly_of_ends {as : List Act}
    (has : ∀ a ∈ as, a = .transactionEnded ∨ a = .sessionEnded ∨ a = .lost) (s : Solo α) :
    s.Orderly as := by
  induction as generalizing s with
  | nil => trivial
  | cons a as ih =>
    refine ⟨?_, ih (fun b hb => has b (List.mem_cons_of_mem _ hb)) _⟩
    rcases has a List.mem_cons_self with rfl | rfl | rfl <;> trivial

theorem Sound.orderly_acts (hc : c.Sound) (hq : c.queries[h]? = some q) (m : Move α) :
    (c.soloOf h q).Orderly (c.acts m h q) := by
  rw [acts, Solo.orderly_append]
  refine ⟨?_, orderly_of_ends (fun a ha => mem_ends ha) _⟩
  by_cases hexp : c.ownActs h q m = [.giveUp]
  · rw [hexp]
    obtain ⟨hw, hr⟩ := of_ownActs_giveUp hexp
    exact ⟨hc.take_idle hq hw hr, trivial⟩
  · rcases ownActs_cases c m h q with hown | ⟨a, hown, ha⟩
    · rw [hown]
      trivial
    · rw [hown]
      refine ⟨?_, trivial⟩
      cases a with
      | ask k => exact ha k rfl
      | giveUp => exact absurd hown hexp
      | _ => trivial

/-! ## Runs -/

/-- From when it is opened, a query of the client does what it does by itself. -/
theorem Sound.acts_runAll (hc : c.Sound) {ms : List (Move α)}
    (hb : (c.runAll ms).1.link.issued ≤ 2 ^ 64) (hq : c.queries[h]? = some q) :
    ∃ as q', (c.runAll ms).1.queries[h]? = some q' ∧ (c.soloOf h q).Orderly as ∧
      c.history h ms = (c.soloOf h q).history as ∧
      (c.soloOf h q).acts as = ((c.runAll ms).1.soloOf h q', c.repliesTo h ms) := by
  induction ms generalizing c q with
  | nil => exact ⟨[], q, hq, trivial, rfl, rfl⟩
  | cons m ms ih =>
    rw [runAll_cons] at hb ⊢
    have hstep := hc.step m (Nat.le_trans (issued_runAll _ ms) hb)
    obtain ⟨q₁, hq₁, -, -, hacts⟩ := hstep.solo h q hq
    have hacts : (c.soloOf h q).acts (c.acts m h q) = _ := hacts
    obtain ⟨as, q', hq', ho, hhist, hlast⟩ := ih hstep.sound hb hq₁
    refine ⟨c.acts m h q ++ as, q', hq', ?_, ?_, ?_⟩
    · rw [Solo.orderly_append, hacts]
      exact ⟨hc.orderly_acts hq m, ho⟩
    · rw [history, hq, Solo.history_append, hacts, hhist]
    · rw [Solo.acts_append, hacts, hlast, repliesTo, hq]
      rfl

/-- The same from before it is opened. -/
theorem Sound.acts_opened (hc : c.Sound) {ms : List (Move α)}
    (hb : (c.runAll ms).1.link.issued ≤ 2 ^ 64) (hn : c.queries[h]? = none)
    (hq : (c.runAll ms).1.queries[h]? = some q) :
    ∃ transaction text options reader as,
      (∃ t, .call (.query t text options reader) ∈ ms) ∧
      (Solo.opening transaction text options reader).Orderly as ∧
      c.history h ms = (Solo.opening transaction text options reader).history as ∧
      (Solo.opening transaction text options reader).acts as =
        ((c.runAll ms).1.soloOf h q, c.repliesTo h ms) := by
  induction ms generalizing c with
  | nil =>
    rw [show (c.runAll []).1 = c from rfl, hn] at hq
    cases hq
  | cons m ms ih =>
    rw [runAll_cons] at hb hq ⊢
    have hstep := hc.step m (Nat.le_trans (issued_runAll _ ms) hb)
    rw [history, repliesTo, hn, List.nil_append]
    cases hq₁ : (c.step m).1.queries[h]? with
    | none =>
      obtain ⟨transaction, text, options, reader, as, ⟨t, hm⟩, hrest⟩ := ih hstep.sound hb hq₁ hq
      exact ⟨transaction, text, options, reader, as, ⟨t, List.mem_cons_of_mem m hm⟩, hrest⟩
    | some q₁ =>
      obtain ⟨t, text, options, reader, x, rfl, -, -, -, -, -, -, -, hsolo, -⟩ :=
        hstep.opened h q₁ hq₁ hn
      obtain ⟨as, q', hq', ho, hhist, hlast⟩ := hstep.sound.acts_runAll hb hq₁
      rw [hq] at hq'
      cases hq'
      rw [hsolo] at ho hhist hlast
      exact ⟨x.id, text, options, reader, as, ⟨t, List.mem_cons_self⟩, ho, hhist, hlast⟩

/-- A query that has been opened knows its request and its reader. -/
theorem opening_eq {transaction : UInt64} {text : Payload} {options : QueryOptions}
    {reader : Reader α} {as : List Act}
    (h : ((Solo.opening transaction text options reader).acts as).1 = c.soloOf h' q) :
    q.reader = reader ∧
      (c.link.frames q.lane).head? = some (.fetch transaction (.first text options)) := by
  have hgrows := Solo.grows_acts (.opening transaction text options reader) as
  rw [h] at hgrows
  refine ⟨hgrows.reader, ?_⟩
  obtain ⟨rest, hrest⟩ := hgrows.requests
  have hframes : c.link.frames q.lane = _ := (c.link.frames_eq q.lane).trans hrest.symm
  rw [hframes]
  rfl

/-- A client of which nothing was asked yet. -/
abbrev new (timeout : Option Nat) : Client α := { requestTimeout := timeout }

theorem isStarted_eq (hsolo : c.soloOf h q = c'.soloOf h' q') :
    q.isStarted c.link.router = q'.isStarted c'.link.router := by
  have hprogress : q.progress = q'.progress := congrArg (·.query.progress) hsolo
  have hinbox : c.link.router.inbox? q.inbox = c'.link.router.inbox? q'.inbox :=
    congrArg (·.line.inbox) hsolo
  unfold Query.isStarted Router.hasArrived
  rw [hprogress, hinbox]

theorem waiting_of_not_waitsOn (hw : c.waitsOn h = false) : (c.soloOf h q).waiting = none := by
  rw [← Option.isNone_iff_eq_none, ← Option.isSome_eq_false_iff]
  exact hw

/-- The reader of a query is one that a call brought. -/
theorem reader_mem {timeout : Option Nat} {ms : List (Move α)} (hc : ((new timeout).runAll ms).1 = c)
    (hb : c.link.issued ≤ 2 ^ 64) (hq : c.queries[h]? = some q) :
    ∃ t text options, .call (.query t text options q.reader) ∈ ms := by
  subst hc
  obtain ⟨transaction, text, options, reader, as, ⟨t, hm⟩, -, -, hlast⟩ :=
    (Sound.empty (α := α) timeout).acts_opened hb rfl hq
  rw [(opening_eq (congrArg Prod.fst hlast)).1]
  exact ⟨t, text, options, hm⟩

/-- In two runs in which queries have the same request, the same reader and the same history, the
same requests are sent on their lanes, and they give the same replies, but for one that a call in
progress has not been given yet. Where no call on them is in progress, they are the same. -/
theorem isolated {timeout timeout' : Option Nat} {ms ms' : List (Move α)}
    (hc : ((new timeout).runAll ms).1 = c) (hc' : ((new timeout').runAll ms').1 = c')
    (hb : c.link.issued ≤ 2 ^ 64) (hb' : c'.link.issued ≤ 2 ^ 64)
    (hq : c.queries[h]? = some q) (hq' : c'.queries[h']? = some q')
    (hrequest : (c.link.frames q.lane).head? = (c'.link.frames q'.lane).head?)
    (hreader : q.reader = q'.reader)
    (hhistory : (new timeout).history h ms = (new timeout').history h' ms') :
    c.link.frames q.lane = c'.link.frames q'.lane ∧
      ((new timeout).repliesTo h ms <+: (new timeout').repliesTo h' ms' ∨
        (new timeout').repliesTo h' ms' <+: (new timeout).repliesTo h ms) ∧
      (c.waitsOn h = false → c'.waitsOn h' = false →
        (new timeout).repliesTo h ms = (new timeout').repliesTo h' ms' ∧
          c.soloOf h q = c'.soloOf h' q' ∧
          q.isStarted c.link.router = q'.isStarted c'.link.router) := by
  subst hc hc'
  obtain ⟨t, text, options, reader, as, -, ho, hhist, hlast⟩ :=
    (Sound.empty (α := α) timeout).acts_opened hb rfl hq
  obtain ⟨t', text', options', reader', as', -, ho', hhist', hlast'⟩ :=
    (Sound.empty (α := α) timeout').acts_opened hb' rfl hq'
  obtain ⟨hread, hhead⟩ := opening_eq (congrArg Prod.fst hlast)
  obtain ⟨hread', hhead'⟩ := opening_eq (congrArg Prod.fst hlast')
  rw [hhead, hhead'] at hrequest
  cases hrequest
  have hreaders : reader' = reader := by rw [← hread, ← hread', hreader]
  subst hreaders
  -- both are the query by itself, up to looks
  have hmeets : Solo.Told.Meets
      (((new timeout).runAll ms).1.soloOf h q, (new timeout).repliesTo h ms)
      (((new timeout').runAll ms').1.soloOf h' q', (new timeout').repliesTo h' ms') := by
    rw [← hlast, ← hlast']
    exact (Solo.Told.Meets.refl (Solo.opening t text options reader', [])).acts ho ho'
      (hhist.symm.trans (hhistory.trans hhist'))
  refine ⟨?_, hmeets.replies, fun hw hw' => ?_⟩
  · rw [Link.frames_eq, Link.frames_eq]
    exact congrArg (·.map (·.request)) hmeets.waves
  · have heq := hmeets.eq (Solo.Told.look_of_waiting_none (waiting_of_not_waitsOn hw))
      (Solo.Told.look_of_waiting_none (waiting_of_not_waitsOn hw'))
    obtain ⟨hsolo, hreplies⟩ := Prod.mk.inj heq
    exact ⟨hreplies, hsolo, isStarted_eq hsolo⟩

/-- A query with one answer, and nothing else on the link. -/
def alone : List (Move Payload) :=
  [.call (.openSession "db" .data), .arrive ⟨1, .sessionOpened 7⟩, .resume,
    .call (.openTransaction 0 .read), .arrive ⟨2, .transactionOpened 9⟩, .resume,
    .call (.query 0 [113] {} Reader.raw), .arrive ⟨3, .data [1]⟩, .call (.nextAnswer 0), .resume,
    .arrive ⟨3, .item .completion⟩, .call (.nextAnswer 0), .resume]

/-- The same query beside another one, which is answered with an item that makes no sense and whose
transaction is closed. -/
def beside : List (Move Payload) :=
  [.call (.openSession "db" .data), .arrive ⟨1, .sessionOpened 7⟩, .resume,
    .call (.openTransaction 0 .read), .arrive ⟨2, .transactionOpened 9⟩, .resume,
    .call (.openTransaction 0 .write), .arrive ⟨3, .transactionOpened 11⟩, .resume,
    .call (.query 1 [114] {} Reader.raw), .call (.query 0 [113] {} Reader.raw),
    .arrive ⟨4, .item ⟨0, false, none⟩⟩, .arrive ⟨5, .data [1]⟩, .call (.nextAnswer 0), .resume,
    .call (.nextAnswer 1), .arrive ⟨4, .data [2]⟩, .resume,
    .call (.closeTransaction 1), .arrive ⟨6, .acknowledged⟩, .resume,
    .arrive ⟨5, .item .completion⟩, .call (.nextAnswer 1), .resume]

theorem isolated_alone_beside :
    ∃ c c' : Client Payload, ((new none).runAll alone).1 = c ∧ ((new (some 9)).runAll beside).1 = c' ∧
      c.link.issued ≤ 2 ^ 64 ∧ c'.link.issued ≤ 2 ^ 64 ∧
      (new (α := Payload) none).history 0 alone = (new (some 9)).history 1 beside ∧
      ∃ q q', c.queries[0]? = some q ∧ c'.queries[1]? = some q' ∧ q.lane = 3 ∧ q'.lane = 5 ∧
        c.link.frames q.lane = c'.link.frames q'.lane ∧
        (new none).repliesTo 0 alone = (new (some 9)).repliesTo 1 beside ∧
        c.soloOf 0 q = c'.soloOf 1 q' := by
  obtain ⟨c, hc⟩ : ∃ c : Client Payload, ((new none).runAll alone).1 = c := ⟨_, rfl⟩
  obtain ⟨c', hc'⟩ : ∃ c' : Client Payload, ((new (some 9)).runAll beside).1 = c' := ⟨_, rfl⟩
  have hb : c.link.issued ≤ 2 ^ 64 := by
    rw [← hc]
    decide +kernel
  have hb' : c'.link.issued ≤ 2 ^ 64 := by
    rw [← hc']
    decide +kernel
  have hhistory : (new (α := Payload) none).history 0 alone = (new (some 9)).history 1 beside := by
    decide +kernel
  have hqueries : c.queries[0]?.map (·.lane) = some 3 ∧ c.waitsOn 0 = false := by
    rw [← hc]
    decide +kernel
  have hqueries' : c'.queries[1]?.map (·.lane) = some 5 ∧ c'.waitsOn 1 = false := by
    rw [← hc']
    decide +kernel
  have hrequest : (c.link.frames 3).head? = (c'.link.frames 5).head? := by
    rw [← hc, ← hc']
    decide +kernel
  obtain ⟨q, hq, hlane⟩ := Option.map_eq_some_iff.1 hqueries.1
  obtain ⟨q', hq', hlane'⟩ := Option.map_eq_some_iff.1 hqueries'.1
  have hreader : q.reader = q'.reader := by
    obtain ⟨t, text, options, hm⟩ := reader_mem hc hb hq
    obtain ⟨t', text', options', hm'⟩ := reader_mem hc' hb' hq'
    have hraw : q.reader = Reader.raw := by
      simp [alone] at hm
      exact hm.2.2.2
    have hraw' : q'.reader = Reader.raw := by
      simp [beside] at hm'
      rcases hm' with ⟨-, -, -, h⟩ | ⟨-, -, -, h⟩ <;> exact h
    rw [hraw, hraw']
  obtain ⟨hframes, -, hsame⟩ := isolated hc hc' hb hb' hq hq'
    (by rw [hlane, hlane']; exact hrequest) hreader hhistory
  obtain ⟨hreplies, hsolo, -⟩ := hsame hqueries.2 hqueries'.2
  exact ⟨c, c', hc, hc', hb, hb', hhistory, q, q', hq, hq', hlane, hlane', hframes, hreplies, hsolo⟩

end Client

end QueryLanes
