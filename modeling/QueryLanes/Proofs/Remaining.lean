import QueryLanes.Proofs.Isolation
import QueryLanes.Proofs.Reckoning

/-!
# What is left to a query

A query that is told nothing more lives on what it has been told. `Solo.Ended` says that its last wave
is over and that it sends nothing at the end: a failure struck it, or the mark of completion came, or
there is no connection. `Remains` is such a query by what is left to it: the answers not yet read and
what ended the last wave. Its `Remains.tell` knows nothing of links, inboxes and waiting calls, and
`Client.Reachable.owes_runAll` says that the replies of the query in any run are those.
-/

namespace QueryLanes

variable {α : Type}

/-! ## What is left to a query -/

/-- A query that is told nothing more: the answers it has not read yet, and what ended the last
wave. -/
structure Remains (α : Type) where
  reader : Reader α
  /-- The payloads the reader was given. -/
  handed : List Payload
  rest : List Payload
  last : Delivery
  progress : Progress
  fused : Bool
  held : Bool

namespace Remains

/-- One answer is read. -/
def read (o : Remains α) (p : Payload) (rest : List Payload) : Remains α :=
  { o with handed := o.handed ++ [p], rest := rest, progress := .streaming }

/-- An iteration reports the failure that ended the query once. -/
def fuse (o : Remains α) : Demand α → Remains α
  | .item => { o with fused := true }
  | .answer | .rest _ => o

/-- What a caller gets who pulls while `rest` has not been read: one answer, or all of them, or else
the verdict of the last wave. -/
def pull (o : Remains α) : Demand α → List Payload → Remains α × Reply α
  | demand, p :: rest =>
    match demand, o.reader o.handed p with
    | .rest got, .ok a => (o.read p rest).pull (.rest (got ++ [a])) rest
    | .answer, .ok a | .item, .ok a => (o.read p rest, .answer (some a))
    | _, .error e => (o.read p rest, .failed e)
  | demand, [] =>
    match o.last.verdict with
    | .ok () => ({ o with progress := .exhausted }, Client.atEnd demand)
    | .error e => ({ o with progress := .failed e }.fuse demand, .failed e)

def answer (o : Remains α) (demand : Demand α) : Remains α × Reply α := o.pull demand o.rest

/-- What a caller gets who waits for the start. -/
def start (o : Remains α) : Remains α × Reply α :=
  match o.progress with
  | .pending => match o.rest, o.last with
    | [], .error e => ({ o with progress := .failed e }, .failed e)
    | _, _ => ({ o with progress := .streaming }, .done)
  | .failed e => (o, .failed e)
  | _ => (o, .done)

/-- What a waiting call comes to. -/
def due (o : Remains α) : Pause α → Remains α × Reply α
  | .start _ drain => if drain then o.answer (.rest []) else o.start
  | .pull demand => o.answer demand

/-- What a caller is told who asks for something. -/
def tell (o : Remains α) (k : Ask) : Remains α × Reply α :=
  if !o.held then (o, .noSuchHandle)
  else match k with
    | .start _ => o.start
    | .nextAnswer => o.answer .answer
    | .next => if o.fused then (o, .answer none) else o.answer .item
    | .collect _ => o.answer (.rest [])
    | .drop => ({ o with held := false }, .done)

def tellAll (o : Remains α) : List Ask → Remains α × List (Reply α)
  | [] => (o, [])
  | k :: ks => (((o.tell k).1.tellAll ks).1, (o.tell k).2 :: ((o.tell k).1.tellAll ks).2)

theorem tellAll_append (o : Remains α) (ks ks' : List Ask) :
    o.tellAll (ks ++ ks') =
      (((o.tellAll ks).1.tellAll ks').1, (o.tellAll ks).2 ++ ((o.tellAll ks).1.tellAll ks').2) := by
  induction ks generalizing o with
  | nil => rfl
  | cons k ks ih =>
    rw [List.cons_append, tellAll, ih]
    rfl

/-- What the call for an answer with this number is told: what the reader says of an answer that is
left, and after these the verdict of the last wave. -/
def outcome (o : Remains α) (n : Nat) : Reply α :=
  match o.rest[n]? with
  | some p => match o.reader (o.handed ++ o.rest.take n) p with
    | .ok a => .answer (some a)
    | .error e => .failed e
  | none => match o.last.verdict with
    | .ok () => .answer none
    | .error e => .failed e

theorem outcome_read {o : Remains α} {p : Payload} {rest : List Payload} (h : o.rest = p :: rest)
    (n : Nat) : (o.read p rest).outcome n = o.outcome (n + 1) := by
  unfold outcome read
  dsimp only
  rw [h, List.getElem?_cons_succ, List.take_succ_cons, List.append_assoc]
  rfl

theorem outcome_at_end {o : Remains α} (h : o.rest = []) (n : Nat) : o.outcome n = o.outcome 0 := by
  unfold outcome
  rw [h]
  rfl

theorem outcome_of_le {o : Remains α} {e : Failure} (h : o.last = .error e) {n : Nat}
    (hn : o.rest.length ≤ n) : o.outcome n = .failed e := by
  unfold outcome
  rw [List.getElem?_eq_none hn, h]
  rfl

/-- One answer after the other, and then the same outcome again and again. -/
theorem tellAll_nextAnswer (o : Remains α) (hheld : o.held = true) (n : Nat) :
    (o.tellAll (List.replicate n .nextAnswer)).2 = (List.range n).map o.outcome := by
  induction n generalizing o with
  | zero => rfl
  | succ n ih =>
    have htell : o.tell .nextAnswer = o.pull .answer o.rest := by
      rw [tell, hheld]
      rfl
    rw [List.replicate_succ, tellAll, htell, List.range_succ_eq_map, List.map_cons, List.map_map]
    cases hrest : o.rest with
    | cons p rest =>
      have hpull : o.pull .answer (p :: rest) = (o.read p rest, o.outcome 0) := by
        unfold outcome
        rw [hrest, pull.eq_def, List.getElem?_cons_zero, List.take_zero, List.append_nil]
        dsimp only
        cases o.reader o.handed p <;> rfl
      rw [hpull, ih (o.read p rest) hheld]
      exact congrArg _ (List.map_congr_left fun n _ => outcome_read hrest n)
    | nil =>
      have hzero : o.outcome 0 = match o.last.verdict with
          | .ok () => .answer none
          | .error e => .failed e := by
        unfold outcome
        rw [hrest]
        rfl
      obtain ⟨x, hx⟩ : ∃ x, o.pull .answer [] = ({ o with progress := x }, o.outcome 0) := by
        rw [pull, hzero]
        cases o.last.verdict <;> exact ⟨_, rfl⟩
      rw [hx, ih { o with progress := x } hheld]
      refine congrArg _ (List.map_congr_left fun n _ => ?_)
      exact (outcome_at_end (o := { o with progress := x }) hrest n).trans
        (outcome_at_end hrest (n + 1)).symm

end Remains

namespace Solo

variable {s s' : Solo α} {done : List Wave} {w : Wave} {read rest : List Payload}

/-! ### Queries that are told nothing more -/

/-- The last wave is over, and nothing is sent at its end: no token came, or the connection is
gone. -/
structure Ended (s : Solo α) (done : List Wave) (w : Wave) : Prop where
  stands : Stands s
  waves : s.line.waves = done ++ [w]
  finished : w.isOver = true
  mute : s.line.isOpen = false ∨ w.token? = none

theorem Ended.spent (h : s.Ended done w) : s.Spent done w where
  stands := h.stands
  waves := h.waves
  finished := h.finished
  mute := h.mute.imp_right fun ht => .inr (.inr ht)

theorem Ended.isLive (h : s.Ended done w) : s.line.isLive = false := by
  rw [Line.isLive, h.waves, Wave.ongoing_concat, h.finished]
  rfl

/-- Without a connection the last wave is over. -/
theorem ended_of_closed (h : Stands s) (ho : s.line.isOpen = false) : ∃ done w, s.Ended done w := by
  obtain ⟨done, w, read, rest, hs⟩ := id h
  exact ⟨done, w, h, hs.waves, hs.lost ho, .inl ho⟩

theorem isOpen_take (s : Solo α) : s.take.1.line.isOpen = s.line.isOpen := by
  rcases s.take_cases with htake | ⟨bound, drain, d, line, -, hp, htake⟩ |
    ⟨demand, d, s', -, hp, htake⟩ <;> rw [htake]
  · rw [line_started]
    exact (Line.same_poll hp).2
  · rw [isOpen_pulled]
    exact (same_poll hp).2

/-- Nothing connects a query again. -/
theorem isOpen_act (ho : s.line.isOpen = false) (a : Act) : (s.act a).1.line.isOpen = false := by
  cases a with
  | ask k => exact (mild_ask s k).line.2.trans ho
  | take => exact (isOpen_take s).trans ho
  | giveUp => exact (mild_giveUp s).line.2.trans ho
  | heard r => exact (Line.isOpen_hear ..).trans ho
  | transactionEnded | sessionEnded => exact (Line.isOpen_strike ..).trans ho
  | lost => rfl

theorem Ended.act (h : s.Ended done w) (a : Act) : (s.act a).1.Ended done w where
  stands := h.stands.act a
  waves := (h.spent.act a).waves
  finished := h.finished
  mute := h.mute.imp_left fun ho => isOpen_act ho a

/-! ### What is left, and what is owed -/

/-- What is left to a query that is told nothing more. -/
def remains (s : Solo α) : Remains α where
  reader := s.query.reader
  handed := s.query.handed
  rest := (s.line.waves.flatMap (·.answers)).drop s.query.handed.length
  last := (s.line.waves.getLast?.bind (·.ending)).getD (.error .connectionClosed)
  progress := s.query.progress
  fused := s.query.fused
  held := s.query.held

/-- What will be left once the waiting call has its reply, and that reply. -/
def owes (s : Solo α) : Remains α × Option (Reply α) :=
  match s.waiting with
  | none => (s.remains, none)
  | some p => ((s.remains.due p).1, some (s.remains.due p).2)

theorem remains_eq {hand : List Delivery} {d : Delivery} (h : StandsAt s hand done w read rest)
    (hend : w.ending = some d) : s.remains =
      ⟨s.query.reader, s.query.handed, rest, d, s.query.progress, s.query.fused, s.query.held⟩ := by
  have hall : s.line.waves.flatMap (·.answers) = s.query.handed ++ rest := by
    rw [h.waves, h.handed]
    simp [h.answers]
  have hlast : s.line.waves.getLast?.bind (·.ending) = some d := by
    rw [h.waves, List.getLast?_concat]
    exact hend
  rw [remains, hall, List.drop_left, hlast]
  rfl

theorem remains_wait (s : Solo α) (p : Option (Pause α)) :
    ({ s with waiting := p } : Solo α).remains = s.remains := rfl

theorem owes_of_idle (h : s.waiting = none) : s.owes = (s.remains, none) := by
  rw [owes, h]

theorem owes_of_waiting {p : Pause α} (h : s.waiting = some p) :
    s.owes = ((s.remains.due p).1, some (s.remains.due p).2) := by
  rw [owes, h]

/-- What is owed is in what was received, and in the call in progress. -/
theorem owes_congr {line : Line} (h : line.waves = s.line.waves) :
    ({ s with line := line } : Solo α).owes = s.owes := by
  have hremains : ({ s with line := line } : Solo α).remains = s.remains := by
    unfold remains
    dsimp only
    rw [h]
  unfold owes
  rw [hremains]

/-- What an act does to what is owed: it is given, or it is owed still. -/
def Pays (s : Solo α) (o : Solo α × Option (Reply α)) : Prop :=
  o.1.owes.1 = s.owes.1 ∧ o.2.toList ++ o.1.owes.2.toList = s.owes.2.toList

theorem Advances.remains {ps read' rest' : List Payload} {d : Delivery}
    (hadv : s.Advances s' ps) (h : StandsAt s [] done w read rest)
    (h' : StandsAt s' [] done w read' rest') (hend : w.ending = some d) : s'.remains =
      { s.remains with
        handed := s.query.handed ++ ps
        rest := rest'
        progress := s'.query.progress } := by
  rw [remains_eq h hend, remains_eq h' hend, hadv.reader, hadv.handed, hadv.fused, hadv.held]

theorem remains_fuse {e : Failure} (h : s.query.progress = .failed e) (demand : Demand α) :
    ({ s with query := s.query.fuse demand } : Solo α).remains = s.remains.fuse demand := by
  unfold Query.fuse
  split
  · rfl
  · rename_i demand _ _ hne
    cases demand with
    | item => exact absurd h (hne e rfl)
    | answer => rfl
    | rest got => rfl

/-- A pulling call takes one answer after the other, and then the verdict. -/
theorem pays_pull {demand : Demand α} {d : Delivery} (h : StandsAt s [] done w read rest)
    (hmute : s.line.isOpen = false ∨ w.token? = none) (hend : w.ending = some d)
    (hw : s.waiting = some (.pull demand)) : s.Pays s.take := by
  have hrem := remains_eq h hend
  unfold Pays
  rw [owes_of_waiting hw, Remains.due, Remains.answer]
  cases rest with
  | cons p rest =>
    obtain ⟨s', h', hadv, hw', hp, htake⟩ := look_answer h hw
    have hread : s'.remains = s.remains.read p rest := by
      rw [hadv.remains h h' hend, hp]
      rfl
    have hpull : s.remains.rest = p :: rest := by rw [hrem]
    have hrest : s'.remains.rest = rest := by rw [hread]; rfl
    have hidle := owes_of_idle hw'
    rw [htake, hpull, Remains.pull.eq_def]
    dsimp only
    rw [show s.remains.reader s.remains.handed p = s.query.reader s.query.handed p from rfl, ← hread]
    cases s.query.reader s.query.handed p with
    | ok a =>
      cases demand with
      | rest got =>
        have howes := owes_of_waiting (s := (s'.handOver (.rest got) (.ok a)).1) rfl
        have hremains : (s'.handOver (.rest got) (.ok a)).1.remains = s'.remains := rfl
        rw [howes, Remains.due, Remains.answer, hremains, hrest]
        exact ⟨rfl, rfl⟩
      | answer =>
        rw [handOver, hidle]
        exact ⟨rfl, rfl⟩
      | item =>
        rw [handOver, hidle]
        exact ⟨rfl, rfl⟩
    | error e => cases demand <;> (rw [handOver, hidle]; exact ⟨rfl, rfl⟩)
  | nil =>
    obtain ⟨s', h', hadv, hw', htake⟩ := look_end h hw hend hmute
    have hpull : s.remains.rest = [] := by rw [hrem]
    have hverdict : s.remains.last.verdict = d.verdict := by rw [hrem]
    have hover : s'.remains = { s.remains with progress := s'.query.progress } := by
      rw [hadv.remains h h' hend, hrem, List.append_nil]
    rw [hpull, Remains.pull, hverdict]
    cases hv : d.verdict with
    | ok u =>
      rw [hv] at htake
      obtain ⟨hp, htake⟩ := htake
      rw [htake, owes_of_idle hw', hover, hp]
      exact ⟨rfl, rfl⟩
    | error e =>
      rw [hv] at htake
      obtain ⟨hp, htake⟩ := htake
      rw [htake, owes_of_idle (s := { s' with query := s'.query.fuse demand }) hw', remains_fuse hp,
        hover, hp]
      exact ⟨rfl, rfl⟩

theorem pull_progress (o : Remains α) (p : Progress) (demand : Demand α) (rest : List Payload) :
    { o with progress := p }.pull demand rest = o.pull demand rest := by
  cases rest with
  | nil => rfl
  | cons q rest => rfl

/-- A call that waits for the start finds the first of what is left. -/
theorem pays_start {bound : Option Nat} {drain : Bool} {d : Delivery}
    (h : StandsAt s [] done w read rest) (hend : w.ending = some d)
    (hw : s.waiting = some (.start bound drain)) : s.Pays s.take := by
  have hrem := remains_eq h hend
  have hpending : s.remains.progress = .pending := (h.waiting _ hw).2
  -- the first delivery is a response, an answer or not
  have hresponse {r : Response} {ds : List Delivery}
      (hahead : rest.map (.ok ∘ .data) ++ w.ending.toList = .ok r :: ds)
      (hstart : s.remains.start = ({ s.remains with progress := .streaming }, .done)) :
      s.Pays s.take := by
    obtain ⟨s', h', hadv, hw', hp, htake⟩ := look_start h hw hahead
    have hheld : s'.remains = { s.remains with progress := .streaming } := by
      rw [hadv.remains h h' hend, hp, hrem, List.append_nil]
    unfold Pays
    rw [htake]
    cases drain with
    | false =>
      rw [if_neg Bool.false_ne_true, owes_of_idle hw', owes_of_waiting hw, Remains.due,
        if_neg Bool.false_ne_true, hstart, hheld]
      exact ⟨rfl, rfl⟩
    | true =>
      have howes := owes_of_waiting (s := { s' with waiting := some (.pull (.rest [])) }) rfl
      rw [if_pos rfl, howes, owes_of_waiting hw, Remains.due, Remains.due, if_pos rfl,
        remains_wait, hheld]
      unfold Remains.answer
      rw [pull_progress]
      exact ⟨rfl, rfl⟩
  cases hrest : rest with
  | cons p rest' =>
    subst hrest
    refine hresponse rfl ?_
    rw [Remains.start, hpending, hrem]
  | nil =>
    subst hrest
    cases d with
    | ok r =>
      refine hresponse (by rw [hend]; rfl) ?_
      rw [Remains.start, hpending, hrem]
    | error e =>
      obtain ⟨s', h', hadv, hw', hp, htake⟩ := look_start h hw (by rw [hend]; rfl)
      have hover : s'.remains = { s.remains with progress := .failed e } := by
        rw [hadv.remains h h' hend, hp, hrem, List.append_nil]
      have hdue : s.remains.due (.start bound drain) =
          ({ s.remains with progress := .failed e }, .failed e) := by
        unfold Remains.due
        dsimp only
        cases drain with
        | false => rw [if_neg Bool.false_ne_true, Remains.start, hpending, hrem]
        | true =>
          rw [if_pos rfl, Remains.answer, hrem]
          rfl
      unfold Pays
      rw [htake, owes_of_idle hw', hover, owes_of_waiting hw, hdue]
      exact ⟨rfl, rfl⟩

theorem pays_take (h : s.Ended done w) : s.Pays s.take := by
  obtain ⟨d, hend⟩ := Option.isSome_iff_exists.1 h.finished
  obtain ⟨done', w', read, rest, hs⟩ := h.stands
  obtain ⟨rfl, rfl⟩ := List.append_singleton_inj.1 (h.waves.symm.trans hs.waves)
  cases hw : s.waiting with
  | none =>
    rw [take_of_waiting_none hw]
    exact ⟨rfl, rfl⟩
  | some p =>
    cases p with
    | start bound drain => exact pays_start hs hend hw
    | pull demand => exact pays_pull hs h.mute hend hw

/-- What a call on a query is told, at once or later. -/
def Tells (o : Solo α × Option (Reply α)) (t : Remains α × Reply α) : Prop :=
  o.1.owes.1 = t.1 ∧ o.2.toList ++ o.1.owes.2.toList = [t.2]

/-- A query that has failed says its failure again. -/
theorem answer_of_failed {e : Failure} (h : Stands s) (ha : s.Accounts)
    (hp : s.query.progress = .failed e) (demand : Demand α) :
    s.remains.answer demand = (s.remains.fuse demand, .failed e) := by
  obtain ⟨done, w, read, rest, h⟩ := h
  obtain ⟨rfl, -⟩ := h.finished (by rw [hp]; rfl)
  obtain ⟨done', w', d, hw, hend, hv⟩ := ha.failed e hp
  obtain ⟨-, hlast⟩ := List.append_inj' (h.waves.symm.trans hw) rfl
  cases hlast
  have hsame : { s.remains with progress := .failed e } = s.remains := by
    rw [← hp]
    rfl
  rw [← hsame, remains_eq h hend]
  unfold Remains.answer Remains.pull
  dsimp only
  rw [hv]

/-- A query that is exhausted says that it is. -/
theorem answer_of_exhausted (h : Stands s) (hp : s.query.progress = .exhausted)
    (demand : Demand α) : s.remains.answer demand = (s.remains, Client.atEnd demand) := by
  obtain ⟨done, w, read, rest, h⟩ := h
  obtain ⟨rfl, -⟩ := h.finished (by rw [hp]; rfl)
  have hsame : { s.remains with progress := .exhausted } = s.remains := by
    rw [← hp]
    rfl
  rw [← hsame, remains_eq h (h.exhausted hp)]
  rfl

theorem tells_replying (s : Solo α) (r : Reply α) : Tells (s.replying r) (s.remains, r) := by
  rw [Tells, replying, owes_of_idle rfl]
  exact ⟨rfl, rfl⟩

theorem tells_waiting (s : Solo α) (p : Pause α) :
    Tells ({ s with waiting := some p }, none) (s.remains.due p) := by
  rw [Tells, owes_of_waiting rfl]
  exact ⟨rfl, rfl⟩

theorem tell_of_wants (hh : s.query.held = true) {k : Ask} {demand : Demand α}
    (hk : s.Wants k demand) : s.remains.tell k = s.remains.answer demand := by
  have hheld : s.remains.held = true := hh
  cases hk with
  | item hf =>
    have hfused : s.remains.fused = false := hf
    simp [Remains.tell, hheld, hfused]
  | _ => simp [Remains.tell, hheld]

theorem tell_of_begins (hh : s.query.held = true) {k : Ask} {bound : Option Nat} {drain : Bool}
    (hk : k.Begins bound drain) : s.remains.tell k = s.remains.due (.start bound drain) := by
  have hheld : s.remains.held = true := hh
  cases hk <;> simp [Remains.tell, Remains.due, hheld]

/-- A call that asks for something is told what is left for it. -/
theorem tells_ask (h : Stands s) (ha : s.Accounts) (k : Ask) :
    Tells (s.ask k) (s.remains.tell k) := by
  have hasks := s.asks k
  generalize s.ask k = o at hasks ⊢
  cases hasks with
  | gone hh =>
    have hheld : s.remains.held = false := hh
    rw [show s.remains.tell k = (s.remains, .noSuchHandle) by simp [Remains.tell, hheld]]
    exact tells_replying s _
  | drop hh =>
    have hheld : s.remains.held = true := hh
    rw [show s.remains.tell .drop = ({ s.remains with held := false }, .done) by
      simp [Remains.tell, hheld], Tells, replying, owes_of_idle rfl]
    exact ⟨rfl, rfl⟩
  | fused hh hf =>
    have hheld : s.remains.held = true := hh
    have hfused : s.remains.fused = true := hf
    rw [show s.remains.tell .next = (s.remains, .answer none) by simp [Remains.tell, hheld, hfused]]
    exact tells_replying s _
  | done bound hh hp hf =>
    have hstart : s.remains.start = (s.remains, .done) := by
      unfold Remains.start
      split
      · exact absurd ‹_› hp
      · exact absurd ‹_› (hf _)
      · rfl
    rw [tell_of_begins hh (.start bound), show s.remains.due (.start bound false) = _ from hstart]
    exact tells_replying s .done
  | @broken e bound hh hp =>
    have hstart : s.remains.start = (s.remains, .failed e) := by
      unfold Remains.start
      rw [show s.remains.progress = .failed e from hp]
    rw [tell_of_begins hh (.start bound), show s.remains.due (.start bound false) = _ from hstart]
    exact tells_replying s _
  | ended hh hk hp =>
    rw [tell_of_wants hh hk, answer_of_exhausted h hp]
    exact tells_replying s _
  | failed hh hk hp =>
    rw [tell_of_wants hh hk, answer_of_failed h ha hp, Tells, replying, owes_of_idle rfl,
      remains_wait, remains_fuse hp]
    exact ⟨rfl, rfl⟩
  | @waits _ bound drain hh hk =>
    rw [tell_of_begins hh hk]
    exact tells_waiting s (.start bound drain)
  | @pulls _ demand hh hk =>
    rw [tell_of_wants hh hk]
    exact tells_waiting s (.pull demand)

/-- An act on a query that is told nothing more: a call (`ks`), a look, or a response that is not
heard. -/
theorem paid_acts {own : List Act} {ks : List Ask} (h : s.Ended done w) (ha : s.Accounts)
    (hown : (own = [] ∧ ks = []) ∨ (∃ k, own = [.ask k] ∧ ks = [k] ∧ s.waiting = none) ∨
      (own = [.take] ∧ ks = []) ∨ ∃ r, own = [.heard r] ∧ ks = []) :
    (s.acts own).1.Ended done w ∧ (s.acts own).1.owes.1 = (s.owes.1.tellAll ks).1 ∧
      (s.acts own).2 ++ (s.acts own).1.owes.2.toList =
        s.owes.2.toList ++ (s.owes.1.tellAll ks).2 := by
  have hone (a : Act) : s.acts [a] = ((s.act a).1, (s.act a).2.toList) := by
    rw [acts_cons, acts, List.append_nil]
  rcases hown with ⟨rfl, rfl⟩ | ⟨k, rfl, rfl, hw⟩ | ⟨rfl, rfl⟩ | ⟨r, rfl, rfl⟩
  · exact ⟨h, rfl, (List.append_nil _).symm⟩
  · obtain ⟨howes, hreplies⟩ := tells_ask h.stands ha k
    rw [hone, owes_of_idle hw]
    exact ⟨h.act (.ask k), howes, hreplies⟩
  · obtain ⟨howes, hreplies⟩ := pays_take h
    rw [hone]
    exact ⟨h.act .take, howes, hreplies.trans (List.append_nil _).symm⟩
  · have hdeaf : (s.act (.heard r)).1 = s := by
      rw [act, Line.hear_of_not_live h.isLive]
    rw [hone, hdeaf]
    exact ⟨h, rfl, (List.append_nil _).symm⟩

end Solo

namespace Client

variable {c : Client α} {h : Handle} {q : Query α} {done : List Wave} {w : Wave}

/-! ## Calls on a query that is told nothing more -/

/-- A call that waits on such a query waits for nothing. -/
theorem Sound.isReady_of_not_live (hc : c.Sound) {p : Pause α} (hw : c.waiting = some (p.wait h))
    (hq : c.queries[h]? = some q) (hs : Stands (c.soloOf h q))
    (hlive : (c.soloOf h q).line.isLive = false) : c.isReady = true := by
  obtain ⟨done, w, read, rest, hst⟩ := hs
  have hfits : p.Fits (c.soloOf h q).query :=
    hst.waiting p (by rw [soloOf, hw, Option.bind_some, Pause.on_wait])
  have hheld : (c.soloOf h q).query.held = true := by cases p <;> exact hfits.1
  obtain ⟨b, hin⟩ := hst.exists_inbox hheld
  have hin : c.link.router.inbox? q.inbox = some b := hin
  have hfeeds : c.link.router.feeds q.inbox = false :=
    ((hc.wired h q hq).feeds_iff hc.link).trans hlive
  have hpoll : (c.link.router.poll q.inbox).isSome = true := by
    unfold Router.poll
    rw [hin, hfeeds]
    dsimp only
    split <;> rfl
  unfold isReady
  rw [hw]
  cases p with
  | start bound drain =>
    show c.queries[h]?.any (fun q => (c.link.router.poll q.inbox).isSome) = true
    rw [hq]
    exact hpoll
  | pull demand =>
    show c.queries[h]?.any (fun q => (q.poll c.link.router).isSome) = true
    rw [hq, Option.any_some]
    unfold Query.poll
    split
    · rfl
    · rw [Option.isSome_map]
      exact hpoll

/-- What a query is asked for by a call that is begun. -/
def asks (c : Client α) (h : Handle) : Move α → List Ask
  | .call k =>
    match c.waiting, k.ask? with
    | none, some (h', a) => if h' = h then [a] else []
    | _, _ => []
  | _ => []

/-- What a query is asked for during a run. -/
def asked (c : Client α) (h : Handle) : List (Move α) → List Ask
  | [] => []
  | m :: ms => c.asks h m ++ (c.step m).1.asked h ms

/-- With a call on it that is ready the acts of a query are calls, looks, and what is heard. -/
theorem ownActs_of_ready (hready : c.waitsOn h = true → c.isReady = true) (q : Query α)
    (m : Move α) :
    (c.ownActs h q m = [] ∧ c.asks h m = []) ∨
      (∃ k, c.ownActs h q m = [.ask k] ∧ c.asks h m = [k] ∧ c.waiting = none) ∨
      (c.ownActs h q m = [.take] ∧ c.asks h m = []) ∨
      ∃ r, c.ownActs h q m = [.heard r] ∧ c.asks h m = [] := by
  cases m with
  | call k =>
    unfold ownActs asks
    dsimp only
    cases hw : c.waiting with
    | some w => exact .inl ⟨rfl, rfl⟩
    | none =>
      cases hk : k.ask? with
      | none => exact .inl ⟨rfl, rfl⟩
      | some ha =>
        by_cases hh : ha.1 = h
        · exact .inr (.inl ⟨ha.2, if_pos hh, if_pos hh, rfl⟩)
        · exact .inl ⟨if_neg hh, if_neg hh⟩
  | arrive f =>
    by_cases hf : f.lane = q.lane
    · exact .inr (.inr (.inr ⟨f.body, if_pos hf, rfl⟩))
    · exact .inl ⟨if_neg hf, rfl⟩
  | lose => exact .inl ⟨rfl, rfl⟩
  | resume =>
    by_cases hw : c.waitsOn h = true
    · exact .inr (.inr (.inl ⟨if_pos hw, rfl⟩))
    · exact .inl ⟨if_neg hw, rfl⟩
  | expire =>
    by_cases hw : c.waitsOn h = true
    · exact .inr (.inr (.inl ⟨(if_pos hw).trans (if_pos (hready hw)), rfl⟩))
    · exact .inl ⟨if_neg hw, rfl⟩

/-- Where nothing is going on, the ends of others change nothing that was received. -/
theorem waves_toll (c c' : Client α) {x : Line} (hx : x.isLive = false) (o : Owner) :
    (c.toll c' o x).waves = x.waves := by
  have hstrike (e : Failure) : x.strike e = x := Line.strike_of_not_live hx e
  unfold toll
  simp only [hstrike, ite_self]
  split
  · rw [Line.lose, hstrike]
  · rfl

theorem Reachable.isReady_of_ended (hc : c.Reachable) (hb : c.link.issued ≤ 2 ^ 64)
    (hq : c.queries[h]? = some q) (he : (c.soloOf h q).Ended done w) (hw : c.waitsOn h = true) :
    c.isReady = true := by
  obtain ⟨p, hp⟩ := exists_pause hw
  exact (hc.sound hb).isReady_of_not_live hp hq he.stands he.isLive

/-- A move asks such a query for what is asked, and pays what it owes. -/
theorem Reachable.owes_step (hc : c.Reachable) {m : Move α} (hb : (c.step m).1.link.issued ≤ 2 ^ 64)
    (hq : c.queries[h]? = some q) (he : (c.soloOf h q).Ended done w) :
    ∃ q', (c.step m).1.queries[h]? = some q' ∧ q'.lane = q.lane ∧
      ((c.step m).1.soloOf h q').Ended done w ∧
      ((c.step m).1.soloOf h q').owes.1 =
        ((c.soloOf h q).owes.1.tellAll (c.asks h m)).1 ∧
      (if c.concerns m h then (c.step m).2.toList else []) ++
          ((c.step m).1.soloOf h q').owes.2.toList =
        (c.soloOf h q).owes.2.toList ++ ((c.soloOf h q).owes.1.tellAll (c.asks h m)).2 := by
  have hb₀ := Nat.le_trans (issued_step c m) hb
  obtain ⟨q', hq', hl, -, hacts⟩ := ((hc.sound hb₀).step m hb).solo h q hq
  obtain ⟨-, ha⟩ := hc.accounts hb₀ hq
  have hown : (c.ownActs h q m = [] ∧ c.asks h m = []) ∨
      (∃ k, c.ownActs h q m = [.ask k] ∧ c.asks h m = [k] ∧ (c.soloOf h q).waiting = none) ∨
      (c.ownActs h q m = [.take] ∧ c.asks h m = []) ∨
      ∃ r, c.ownActs h q m = [.heard r] ∧ c.asks h m = [] := by
    rcases ownActs_of_ready (hc.isReady_of_ended hb₀ hq he) q m with h | ⟨k, h₁, h₂, hw⟩ | h
    · exact .inl h
    · exact .inr (.inl ⟨k, h₁, h₂, by rw [soloOf, hw]; rfl⟩)
    · exact .inr (.inr h)
  obtain ⟨he', howes, hreplies⟩ := Solo.paid_acts he ha hown
  have hended : (((c.soloOf h q).acts (c.ownActs h q m)).1.acts
      (c.ends (c.step m).1 q.owner)).1.Ended done w :=
    solo_ends (J := (·.Ended done w)) (fun _ a _ hJ => hJ.act a) (fun _ ha => mem_ends ha) he'
  rw [Solo.acts_append, acts_ends, List.append_nil] at hacts
  rw [acts_ends] at hended
  obtain ⟨hsolo, htold⟩ := Prod.mk.inj hacts
  have hpaid := Solo.owes_congr (s := ((c.soloOf h q).acts (c.ownActs h q m)).1)
    (c.waves_toll (c.step m).1 he'.isLive q.owner)
  refine ⟨q', hq', hl, ?_⟩
  rw [← hsolo, ← htold, hpaid]
  exact ⟨hended, howes, hreplies⟩

theorem Reachable.owes_runAll (hc : c.Reachable) {ms : List (Move α)}
    (hb : (c.runAll ms).1.link.issued ≤ 2 ^ 64) (hq : c.queries[h]? = some q)
    (he : (c.soloOf h q).Ended done w) :
    ∃ q', (c.runAll ms).1.queries[h]? = some q' ∧ q'.lane = q.lane ∧
      ((c.runAll ms).1.soloOf h q').Ended done w ∧
      ((c.runAll ms).1.soloOf h q').owes.1 =
        ((c.soloOf h q).owes.1.tellAll (c.asked h ms)).1 ∧
      c.repliesTo h ms ++ ((c.runAll ms).1.soloOf h q').owes.2.toList =
        (c.soloOf h q).owes.2.toList ++ ((c.soloOf h q).owes.1.tellAll (c.asked h ms)).2 := by
  induction ms generalizing c q with
  | nil => exact ⟨q, hq, rfl, he, rfl, (List.append_nil _).symm⟩
  | cons m ms ih =>
    rw [runAll_cons] at hb
    obtain ⟨q₁, hq₁, hl, he₁, howes, hreplies⟩ :=
      hc.owes_step (Nat.le_trans (issued_runAll _ ms) hb) hq he
    obtain ⟨q', hq', hl', he', howes', hreplies'⟩ := ih (hc.step m) hb hq₁ he₁
    refine ⟨q', hq', hl'.trans hl, he', ?_, ?_⟩
    · rw [runAll_cons, howes', howes, asked, Remains.tellAll_append]
    · rw [runAll_cons, repliesTo, hq, Option.isSome_some, Bool.true_and, List.append_assoc, hreplies',
        ← List.append_assoc, hreplies, howes, asked, Remains.tellAll_append, List.append_assoc]

end Client

end QueryLanes
