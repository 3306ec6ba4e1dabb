import QueryLanes.Proofs.Discipline
import QueryLanes.Proofs.Isolation
import QueryLanes.Proofs.Paging

/-!
# Where a query stands

A query is pending until something of it was waited for or consumed, streams for a while and then is
over for good: exhausted, or failed with one failure. `Progress.Leads` says which of these a caller
may see after which. `Client.Reachable.came` ties it to runs, and `Client.Reachable.over` says that a
query that is over stays as it is.
-/

namespace QueryLanes

variable {α : Type}

/-- What a caller who waits for nothing may see of a query after he has seen something of it. -/
inductive Progress.Leads : Progress → Progress → Prop
  | stays {p : Progress} (h : p ≠ .continuing) : Leads p p
  | starts : Leads .pending .streaming
  | ends {p : Progress} (h : p = .pending ∨ p = .streaming) : Leads p .exhausted
  | fails {p : Progress} (h : p = .pending ∨ p = .streaming) (e : Failure) : Leads p (.failed e)

theorem Progress.Leads.begin {p p' : Progress} (h : p.Leads p') (ho : p'.isOver = false) :
    p = .pending ∨ p = .streaming := by
  cases h with
  | stays h =>
    cases p with
    | pending => exact .inl rfl
    | streaming => exact .inr rfl
    | continuing => exact absurd rfl h
    | exhausted | failed => cases ho
  | starts => exact .inl rfl
  | ends h => exact h
  | fails h => exact h

theorem Progress.leads_streaming {p : Progress} (h : p = .pending ∨ p = .streaming) :
    p.Leads .streaming := by
  rcases h with rfl | rfl
  · exact .starts
  · exact .stays nofun

namespace Solo

variable {s s' : Solo α} {hand : List Delivery} {done : List Wave} {w : Wave}
  {read rest : List Payload} {p : Progress} {e : Failure}

/-! ## What a look comes to -/

/-- What becomes of the progress of a query that a look takes on. -/
def Reaches (s : Solo α) : Prop :=
  s.query.progress = .streaming ∨ s.query.progress = .exhausted ∨
    (∃ e, s.query.progress = .failed e) ∨
    s.query.progress = .continuing ∧ ∃ demand, s.waiting = some (.pull demand)

theorem reaches_pulled (s : Solo α) (demand : Demand α) (d : Delivery) :
    (s.pulled demand d).1.Reaches := by
  have hpulls := s.pulls demand d
  generalize s.pulled demand d = o at hpulls ⊢
  cases hpulls with
  | answer | got | refused => exact .inl rfl
  | sent => exact .inr (.inr (.inr ⟨rfl, demand, rfl⟩))
  | ended => exact .inr (.inl rfl)
  | unsent | failed | broken => exact .inr (.inr (.inl ⟨_, Query.progress_fuse ..⟩))

theorem reaches_started {d : Delivery} (s : Solo α) (drain : Bool) (hd : d ≠ .error .timeout) :
    (s.started drain d).1.Reaches := by
  have hhears := s.hears drain d
  generalize s.started drain d = o at hhears ⊢
  cases hhears with
  | held | goesOn => exact .inl rfl
  | timedOut => exact absurd rfl hd
  | failed => exact .inr (.inr (.inl ⟨_, rfl⟩))

/-- A look finds nothing, or it takes a query on that was not over. -/
theorem reaches_take (h : Stands s) :
    s.take = (s, none) ∨ s.query.progress.isOver = false ∧ s.take.1.Reaches := by
  obtain ⟨done, w, read, rest, h⟩ := h
  rcases h.take_cases with htake | ⟨drain, d, line, htake, -, hheld, hpend, h'⟩ |
    ⟨demand, d, s', htake, -, -, hover, -⟩
  · exact .inl htake
  · have hover : s.query.progress.isOver = false := by rw [hpend]; rfl
    rw [htake]
    exact .inr ⟨hover, reaches_started _ drain (h'.ne_timeout hheld hover)⟩
  · rw [htake]
    exact .inr ⟨hover, reaches_pulled s' demand d⟩

/-! ## Between calls -/

/-- A query that was seen at `p`: in between calls it is where that leads, and it asks for the next
batch only while a call waits. -/
structure Came (p : Progress) (s : Solo α) : Prop where
  leads : p.Leads s.query.progress ∨
    s.query.progress = .continuing ∧ (p = .pending ∨ p = .streaming)
  busy : s.query.progress = .continuing → ∃ demand, s.waiting = some (.pull demand)

theorem Came.begin (h : Came p s) (ho : s.query.progress.isOver = false) :
    p = .pending ∨ p = .streaming := by
  rcases h.leads with hl | ⟨-, hp⟩
  · exact hl.begin ho
  · exact hp

theorem came_of_reaches (h : s.Reaches) (hp : p = .pending ∨ p = .streaming) : Came p s := by
  rcases h with hs | hs | ⟨e, hs⟩ | ⟨hs, hw⟩
  · exact ⟨.inl (hs ▸ Progress.leads_streaming hp), fun hc => by rw [hs] at hc; cases hc⟩
  · exact ⟨.inl (hs ▸ .ends hp), fun hc => by rw [hs] at hc; cases hc⟩
  · exact ⟨.inl (hs ▸ .fails hp e), fun hc => by rw [hs] at hc; cases hc⟩
  · exact ⟨.inr ⟨hs, hp⟩, fun _ => hw⟩

/-- What leaves the progress alone leaves the query where it came to. -/
theorem Came.same (h : Came p s) (hp : s'.query.progress = s.query.progress)
    (hb : s.query.progress = .continuing → s'.waiting = s.waiting) : Came p s' where
  leads := by
    rw [hp]
    exact h.leads
  busy hc := by
    rw [hp] at hc
    rw [hb hc]
    exact h.busy hc

theorem Came.act (h : Came p s) (hst : Stands s) {a : Act} (ha : s.Takes a) :
    Came p (s.act a).1 := by
  cases a with
  | ask k =>
    refine h.same (mild_ask s k).progress fun hc => ?_
    obtain ⟨demand, hw⟩ := h.busy hc
    rw [ha k rfl] at hw
    cases hw
  | take =>
    show Came p s.take.1
    rcases reaches_take hst with htake | ⟨hover, hreach⟩
    · rw [htake]
      exact h
    · exact came_of_reaches hreach (h.begin hover)
  | giveUp =>
    refine h.same (mild_giveUp s).progress fun hc => ?_
    obtain ⟨demand, hw⟩ := h.busy hc
    rw [show s.act .giveUp = (s, none) from giveUp_of_not_start (by simp [hw])]
  | _ => exact h.same rfl fun _ => rfl

/-! ## Queries that are over -/

/-- A query that is over, and on which no call waits. -/
structure Over (p : Progress) (batchSizes : List Nat) (requests : List Request) (s : Solo α) :
    Prop where
  progress : s.query.progress = p
  batchSizes : s.query.batchSizes = batchSizes
  requests : s.line.waves.map (·.request) = requests
  idle : s.waiting = none

/-- A call on a query that is over is answered at once. -/
theorem waiting_ask (hover : s.query.progress.isOver = true) (k : Ask) :
    (s.ask k).1.waiting = none := by
  have hasks := s.asks k
  generalize s.ask k = o at hasks ⊢
  cases hasks with
  | waits _ _ hp =>
    rw [hp] at hover
    cases hover
  | pulls _ _ hp =>
    rw [hover] at hp
    cases hp
  | _ => rfl

theorem Over.act {bs : List Nat} {rs : List Request} (h : Over p bs rs s) (hp : p.isOver = true)
    (a : Act) : Over p bs rs (s.act a).1 := by
  have hover : s.query.progress.isOver = true := by rw [h.progress, hp]
  have hline (l : Line) (hl : l.waves.map (·.request) = s.line.waves.map (·.request)) :
      Over p bs rs { s with line := l } := { h with requests := hl.trans h.requests }
  cases a with
  | ask k =>
    have hlevel := (mild_ask s k).level
    exact ⟨hlevel.progress.trans h.progress, hlevel.batchSizes.trans h.batchSizes,
      (congrArg (·.map (·.request)) hlevel.waves).trans h.requests, waiting_ask hover k⟩
  | take =>
    have hidle : s.act .take = (s, none) := take_of_waiting_none h.idle
    rw [hidle]
    exact h
  | giveUp =>
    have hidle : s.act .giveUp = (s, none) := giveUp_of_not_start (by simp [h.idle])
    rw [hidle]
    exact h
  | heard r => exact hline _ (s.line.map_request_hear r)
  | transactionEnded | sessionEnded => exact hline _ (s.line.map_request_strike _)
  | lost => exact hline s.line.lose (s.line.map_request_strike _)

theorem over_of_isOver (h : Stands s) (hover : s.query.progress.isOver = true) :
    Over s.query.progress s.query.batchSizes (s.line.waves.map (·.request)) s := by
  refine ⟨rfl, rfl, rfl, ?_⟩
  obtain ⟨done, w, read, rest, h⟩ := h
  cases hw : s.waiting with
  | none => rfl
  | some p =>
    have hfits := h.waiting p hw
    cases p with
    | start bound drain =>
      rw [hfits.2] at hover
      cases hover
    | pull demand =>
      rw [hfits.2] at hover
      cases hover

end Solo

namespace Client

variable {c : Client α} {h : Handle} {q q' : Query α} {e : Failure}

/-! ## Queries of a client -/

theorem Reachable.came (hc : c.Reachable) {ms : List (Move α)}
    (hb : (c.runAll ms).1.link.issued ≤ 2 ^ 64) (hq : c.queries[h]? = some q)
    (hp : q.progress ≠ .continuing) (hq' : (c.runAll ms).1.queries[h]? = some q') :
    Solo.Came q.progress ((c.runAll ms).1.soloOf h q') := by
  have hb₀ := Nat.le_trans (issued_runAll c ms) hb
  obtain ⟨q₁, hq₁, -, -, hcame⟩ := (hc.sound hb₀).solo_runAll
    (J := fun s => Stands s ∧ Solo.Came q.progress s)
    (fun s a ha hs => ⟨hs.1.act a, hs.2.act hs.1 ha⟩) hb hq
    ⟨hc.stands hb₀ hq, ⟨.inl (.stays hp), fun hc => absurd hc hp⟩⟩
  rw [hq'] at hq₁
  cases hq₁
  exact hcame

/-- In between calls no query asks for its next batch. -/
theorem Reachable.not_continuing (hc : c.Reachable) (hb : c.link.issued ≤ 2 ^ 64)
    (hq : c.queries[h]? = some q) (hw : c.waitsOn h = false) : q.progress ≠ .continuing := by
  have hcame := (hc.solo (J := fun s => Stands s ∧ Solo.Came .pending s) hb
    (fun transaction text options reader =>
      ⟨.opening transaction text options reader, ⟨.inl (.stays nofun), nofun⟩⟩)
    (fun _ a ha hs => ⟨hs.1.act a, hs.2.act hs.1 ha⟩) hq).2
  intro hp
  obtain ⟨demand, hwait⟩ := hcame.busy hp
  rw [waiting_of_not_waitsOn hw] at hwait
  cases hwait

/-! ## Queries that are over -/

theorem Reachable.over (hc : c.Reachable) {ms : List (Move α)}
    (hb : (c.runAll ms).1.link.issued ≤ 2 ^ 64) (hq : c.queries[h]? = some q)
    (hover : q.progress.isOver = true) (hq' : (c.runAll ms).1.queries[h]? = some q') :
    q'.progress = q.progress ∧ q'.batchSizes = q.batchSizes ∧
      (c.runAll ms).1.link.frames q.lane = c.link.frames q.lane := by
  have hb₀ := Nat.le_trans (issued_runAll c ms) hb
  obtain ⟨q₁, hq₁, hl, hkept⟩ := (hc.sound hb₀).solo_runAll
    (fun s a _ hs => hs.act hover a) hb hq (Solo.over_of_isOver (hc.stands hb₀ hq) hover)
  rw [hq'] at hq₁
  cases hq₁
  have hrequests : ((c.runAll ms).1.link.waves q'.lane).map (·.request) =
      (c.link.waves q.lane).map (·.request) := hkept.requests
  refine ⟨hkept.progress, hkept.batchSizes, ?_⟩
  rw [Link.frames_eq, Link.frames_eq, ← hrequests, hl]

/-- What a caller is told of a query that is exhausted. -/
theorem calls_of_exhausted (hw : c.waiting = none) (hq : c.query? h = some q)
    (hp : q.progress = .exhausted) (bound : Option Nat) :
    (c.step (.call (.nextAnswer h))).2 = some (.answer none) ∧
      (c.step (.call (.start h bound))).2 = some .done := by
  rw [step, step, call_nextAnswer hw hq, call_start hw hq, beginPull_of_exhausted hp,
    beginStart_of_begun (by simp [hp]) (by simp [hp])]
  exact ⟨rfl, rfl⟩

/-- What a caller is told of a query that has failed. -/
theorem calls_of_failed (hw : c.waiting = none) (hq : c.query? h = some q)
    (hp : q.progress = .failed e) (bound : Option Nat) :
    (c.step (.call (.nextAnswer h))).2 = some (.failed e) ∧
      (c.step (.call (.start h bound))).2 = some (.failed e) := by
  rw [step, step, call_nextAnswer hw hq, call_start hw hq, beginPull_of_failed hp,
    beginStart_of_failed hp, failing_eq]
  exact ⟨rfl, rfl⟩

end Client

end QueryLanes
