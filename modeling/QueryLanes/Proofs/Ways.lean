import QueryLanes.Proofs.Drawing
import QueryLanes.Proofs.Gathering

/-!
# Ways of reading

All answers of a query can be collected by one call, or asked for one after the other, through a
stream, through its iterator, or directly. `upshot` computes from the deliveries of a lane alone what
such a reading comes to, and `Client.Reading.upshot_eq` says that each way comes to this once it is at
rest. So the ways agree (`Client.ways_agree`), on the answers or the failure as on what is left behind.
-/

namespace QueryLanes

variable {α : Type}

/-! ## Ways -/

/-- How all answers of a query are read. -/
inductive Way where
  /-- One call collects them. -/
  | execute
  /-- A call waits for the start, then items are asked for. -/
  | stream
  /-- Answers are asked for. -/
  | pulls
  /-- Items are asked for. -/
  | iterate
deriving DecidableEq

/-- The call that is made after the replies to those before it. -/
def Way.next (way : Way) (rs : List (Reply α)) : Ask :=
  match way with
  | .execute => .collect none
  | .stream => if rs.isEmpty then .start none else .next
  | .pulls => .nextAnswer
  | .iterate => .next

theorem Way.next_cases (way : Way) (rs : List (Reply α)) :
    (way = .execute ∧ way.next rs = .collect none) ∨
    (way = .stream ∧ rs = [] ∧ way.next rs = .start none) ∨
    way ≠ .execute ∧ (way.next rs = .nextAnswer ∨ way.next rs = .next) := by
  cases way with
  | execute => exact .inl ⟨rfl, rfl⟩
  | stream =>
    cases rs with
    | nil => exact .inr (.inl ⟨rfl, rfl, rfl⟩)
    | cons r rs => exact .inr (.inr ⟨nofun, .inr rfl⟩)
  | pulls => exact .inr (.inr ⟨nofun, .inl rfl⟩)
  | iterate => exact .inr (.inr ⟨nofun, .inr rfl⟩)

/-- The answers so far and what the reading has come to, after one more reply. What follows the end or
the first failure is not looked at. -/
def gather : List α × Option (Except Failure (List α)) → Reply α →
    List α × Option (Except Failure (List α))
  | (got, none), .answer (some a) => (got ++ [a], none)
  | (got, none), .answer none => (got, some (.ok got))
  | (got, none), .answers as => (got, some (.ok as))
  | (got, none), .failed e => (got, some (.error e))
  | (got, none), _ => (got, none)
  | (got, some r), _ => (got, some r)

/-- The answers that the replies give one by one, and what they come to: all answers, or the first
failure, or nothing yet. -/
def gathered (rs : List (Reply α)) : List α × Option (Except Failure (List α)) :=
  rs.foldl gather ([], none)

theorem gathered_concat (rs : List (Reply α)) (r : Reply α) :
    gathered (rs ++ [r]) = gather (gathered rs) r := by
  rw [gathered, List.foldl_append]
  rfl

/-! ## What a reading comes to -/

/-- How far a reading has come. -/
structure Course (α : Type) where
  handed : List Payload := []
  got : List α := []
  /-- The sizes of the batches that are closed and of the one that is not. -/
  sizes : List Nat × Nat := ([], 0)
  /-- The tokens for which the next batch was asked for. -/
  asked : List UInt64 := []
  progress : Progress := .pending

/-- The reader has accepted an answer. -/
def Course.answer (v : Course α) (p : Payload) (a : α) : Course α :=
  { v with
    handed := v.handed ++ [p]
    got := v.got ++ [a]
    sizes := Delivery.tally v.sizes (.ok (.data p))
    progress := .streaming }

/-- The next batch is asked for. -/
def Course.turn (v : Course α) (d : Delivery) (token : UInt64) : Course α :=
  { v with
    sizes := Delivery.tally v.sizes d
    asked := v.asked ++ [token]
    progress := .continuing }

/-- What a reading has come to, and what it leaves behind. -/
structure Upshot (α : Type) where
  /-- All answers, or the first failure. -/
  result : Option (Except Failure (List α))
  progress : Progress
  batchSizes : List Nat
  asked : List UInt64

/-- What a reading comes to that has come this far, and has the deliveries before it. A token that
nothing follows is refused without a connection. -/
def upshot (reader : Reader α) (isOpen : Bool) (v : Course α) : List Delivery → Upshot α
  | [] => ⟨none, v.progress, v.sizes.1, v.asked⟩
  | d :: ds =>
    match d.payload? with
    | some p =>
      match reader v.handed p with
      | .ok a => upshot reader isOpen (v.answer p a) ds
      | .error e => ⟨some (.error e), .streaming, v.sizes.1, v.asked⟩
    | none =>
      match d.token?, isOpen || !ds.isEmpty with
      | some token, true => upshot reader isOpen (v.turn d token) ds
      | _, _ =>
        match d.verdict with
        | .ok () => ⟨some (.ok v.got), .exhausted, (Delivery.tally v.sizes d).1, v.asked⟩
        | .error e => ⟨some (.error e), .failed e, (Delivery.tally v.sizes d).1, v.asked⟩

section

variable {reader : Reader α} {isOpen : Bool} {v : Course α} {p : Payload} {a : α} {e : Failure}
  {ds K : List Delivery} {d : Delivery} {token : UInt64}

theorem upshot_answer (h : reader v.handed p = .ok a) :
    upshot reader isOpen v (.ok (.data p) :: ds) = upshot reader isOpen (v.answer p a) ds := by
  simp [upshot, Delivery.payload?, h]

theorem upshot_refused (h : reader v.handed p = .error e) :
    upshot reader isOpen v (.ok (.data p) :: ds) =
      ⟨some (.error e), .streaming, v.sizes.1, v.asked⟩ := by
  simp [upshot, Delivery.payload?, h]

theorem upshot_turn (ht : d.token? = some token) (ho : isOpen = true ∨ ds ≠ []) :
    upshot reader isOpen v (d :: ds) = upshot reader isOpen (v.turn d token) ds := by
  have hp : d.payload? = none :=
    Delivery.payload?_of_closes (Delivery.closes_of_token? (by rw [ht]; rfl))
  have hgoes : (isOpen || !ds.isEmpty) = true := by
    rcases ho with rfl | hne
    · rfl
    · cases ds with
      | nil => exact absurd rfl hne
      | cons d' ds => simp
  rw [upshot, hp, ht, hgoes]

/-- What ends the last wave ends the reading. -/
theorem upshot_end (hp : d.payload? = none) (hm : isOpen = false ∨ d.token? = none) :
    upshot reader isOpen v [d] = match d.verdict with
      | .ok () => ⟨some (.ok v.got), .exhausted, (Delivery.tally v.sizes d).1, v.asked⟩
      | .error e => ⟨some (.error e), .failed e, (Delivery.tally v.sizes d).1, v.asked⟩ := by
  rw [upshot, hp]
  rcases hm with rfl | ht
  · cases d.token? <;> rfl
  · rw [ht]

/-- The reading has come this far through the deliveries. -/
inductive Walks (reader : Reader α) : List Delivery → Course α → Prop
  | nil : Walks reader [] {}
  | answer {K : List Delivery} {v : Course α} {p : Payload} {a : α} (h : Walks reader K v)
      (hp : reader v.handed p = .ok a) : Walks reader (K ++ [.ok (.data p)]) (v.answer p a)
  | turn {K : List Delivery} {v : Course α} {d : Delivery} {token : UInt64} (h : Walks reader K v)
      (ht : d.token? = some token) : Walks reader (K ++ [d]) (v.turn d token)

/-- By induction on the way that the reading has come. -/
theorem Walks.upshot (h : Walks reader K v) (isOpen : Bool) (more : List Delivery)
    (hm : isOpen = true ∨ more ≠ [] ∨ v.progress ≠ .continuing) :
    upshot reader isOpen {} (K ++ more) = upshot reader isOpen v more := by
  induction h generalizing more with
  | nil => rfl
  | answer h hp ih =>
    rw [List.append_assoc, List.singleton_append, ih _ (.inr (.inl (List.cons_ne_nil _ _))),
      upshot_answer hp]
  | turn h ht ih =>
    have hgoes : isOpen = true ∨ more ≠ [] := by
      rcases hm with ho | hne | hp
      · exact .inl ho
      · exact .inr hne
      · exact absurd rfl hp
    rw [List.append_assoc, List.singleton_append, ih _ (.inr (.inl (List.cons_ne_nil _ _))),
      upshot_turn ht hgoes]

theorem Walks.handed (h : Walks reader K v) : v.handed = K.filterMap Delivery.payload? := by
  induction h with
  | nil => rfl
  | answer _ _ ih =>
    rw [List.filterMap_append, ← ih]
    rfl
  | turn _ ht ih =>
    have hp := Delivery.payload?_of_closes (Delivery.closes_of_token? (by rw [ht]; rfl))
    rw [List.filterMap_append, ← ih, List.filterMap_cons_none hp]
    exact (List.append_nil _).symm

theorem Walks.sizes (h : Walks reader K v) : v.sizes = K.foldl Delivery.tally ([], 0) := by
  induction h with
  | nil => rfl
  | answer _ _ ih | turn _ _ ih =>
    rw [List.foldl_append, ← ih]
    rfl

end

/-- The wait is one of a call that is made to read in this way. -/
def Pause.Reads (way : Way) : Pause α → Prop
  | .start bound drain => bound = none ∧ (drain = true ↔ way = .execute)
  | .pull (.rest _) => way = .execute
  | .pull .answer | .pull .item => way ≠ .execute

theorem Line.deliveries_hear (l : Line) (r : Response) :
    (l.hear r).waves.flatMap (·.deliveries) =
      l.waves.flatMap (·.deliveries) ++ if l.isLive then [.ok r] else [] := by
  cases hl : l.isLive with
  | false => simp [hear_of_not_live hl]
  | true =>
    obtain ⟨done, w, hw, ho⟩ := Wave.exists_of_ongoing hl
    simp [hear_of_live hw ho, hw, ho]

theorem Line.deliveries_strike (l : Line) (e : Failure) :
    (l.strike e).waves.flatMap (·.deliveries) =
      l.waves.flatMap (·.deliveries) ++ if l.isLive then [.error e] else [] := by
  cases hl : l.isLive with
  | false => simp [strike_of_not_live hl]
  | true =>
    obtain ⟨done, w, hw, ho⟩ := Wave.exists_of_ongoing hl
    simp [strike_of_live hw ho, hw, ho]

namespace Solo

variable {s s' : Solo α} {way : Way} {ds : List Delivery} {rs : List (Reply α)} {v : Course α}
  {asked : List UInt64} {done : List Wave} {w : Wave} {read rest : List Payload} {d : Delivery}

/-! ## Readings -/

/-- The requests of the query: the one that opened it, and one for each of the tokens. -/
def Asked (s : Solo α) (asked : List UInt64) : Prop :=
  ∃ text, s.line.waves.map (·.request) = .fetch s.query.transaction (.first text s.query.options) ::
    asked.map fun token => .fetch s.query.transaction (.continuation token s.query.options)

theorem Asked.same (h : s.Asked asked)
    (hw : s'.line.waves.map (·.request) = s.line.waves.map (·.request))
    (ht : s'.query.transaction = s.query.transaction) (ho : s'.query.options = s.query.options) :
    s'.Asked asked := by
  obtain ⟨text, h⟩ := h
  exact ⟨text, by rw [hw, ht, ho, h]⟩

/-- The reading goes on: it has come to nothing so far, and the answers that the replies gave, with
those that the waiting call has collected, are those of the way that it has come. -/
structure Going (s : Solo α) (way : Way) (ds : List Delivery) (rs : List (Reply α)) (v : Course α) :
    Prop where
  live : s.query.progress.isOver = false
  held : s.query.held = true
  fresh : s.query.fused = false
  walks : Walks s.query.reader ds v
  asked : s.Asked v.asked
  /-- A wait for the start draws nothing, but with it the query has started. -/
  progress : s.query.progress = v.progress ∨ ds = [] ∧ s.query.progress ≠ .pending
  gathers : ∃ got, gathered rs = (got, none) ∧ got ++ s.got = v.got
  single : way = .execute → rs = []
  waiting : ∀ p, s.waiting = some p → p.Reads way

/-- The reading is over, and what else comes changes nothing of what it has come to. -/
structure Settled (s : Solo α) (rs : List (Reply α)) : Prop where
  idle : s.waiting = none
  complete : (gathered rs).2.isSome = true
  comes : ∃ asked, s.Asked asked ∧ ∀ more isOpen, (more = [] ∨ s.line.isLive = true) →
    (isOpen = true → s.line.isOpen = true) →
    upshot s.query.reader isOpen {} (s.line.waves.flatMap (·.deliveries) ++ more) =
      ⟨(gathered rs).2, s.query.progress, s.query.batchSizes, asked⟩

/-- The reading goes on, or it is over. -/
inductive Reads (s : Solo α) (way : Way) (ds : List Delivery) (rs : List (Reply α)) : Prop
  | going {v : Course α} (h : s.Going way ds rs v)
  | settled (h : s.Settled rs)

/-- How many calls and looks the reading may still take until it finds nothing more, at most. -/
def due (s : Solo α) (rs : List (Reply α)) : Nat :=
  2 * (s.query.ahead s.line.inbox).length + (if s.query.progress = .pending then 2 else 0) +
    (if s.waiting.isSome then 0 else 1) + if rs.isEmpty then 1 else 0

/-- After an act the reading goes on, and less is due than `n`. -/
def Nears (way : Way) (ds : List Delivery) (rs : List (Reply α)) (n : Nat)
    (o : Solo α × Option (Reply α)) : Prop :=
  ∃ v, o.1.Going way ds (rs ++ o.2.toList) v ∧ o.1.due (rs ++ o.2.toList) < n

/-- After an act the reading is over, or it is nearer to that. -/
def Advance (way : Way) (ds : List Delivery) (rs : List (Reply α)) (n : Nat)
    (o : Solo α × Option (Reply α)) : Prop :=
  o.1.Settled (rs ++ o.2.toList) ∨ Nears way ds rs n o

theorem going_opening (way : Way) (transaction : UInt64) (text : Payload) (options : QueryOptions)
    (reader : Reader α) : (opening transaction text options reader).Going way [] [] {} where
  live := rfl
  held := rfl
  fresh := rfl
  walks := .nil
  asked := ⟨text, rfl⟩
  progress := .inl rfl
  gathers := ⟨[], rfl, rfl⟩
  single _ := rfl
  waiting := nofun

/-! ### What comes on the line -/

theorem Going.outside (h : s.Going way ds rs v) {line : Line}
    (hw : line.waves.map (·.request) = s.line.waves.map (·.request)) :
    Going { s with line := line } way ds rs v :=
  { h with asked := h.asked.same hw rfl rfl }

theorem Settled.outside (h : s.Settled rs) {line : Line} {more : List Delivery}
    (hw : line.waves.map (·.request) = s.line.waves.map (·.request))
    (hd : line.waves.flatMap (·.deliveries) = s.line.waves.flatMap (·.deliveries) ++ more)
    (hmore : more = [] ∨ s.line.isLive = true) (hlive : line.isLive = true → s.line.isLive = true)
    (ho : line.isOpen = true → s.line.isOpen = true) : Settled { s with line := line } rs := by
  obtain ⟨asked, hasked, hcomes⟩ := h.comes
  refine ⟨h.idle, h.complete, asked, hasked.same hw rfl rfl, fun more' isOpen hmore' hopen => ?_⟩
  dsimp only at hmore' hopen ⊢
  rw [hd, List.append_assoc]
  refine hcomes (more ++ more') isOpen ?_ fun hb => ho (hopen hb)
  rcases hmore with rfl | hmore
  · exact hmore'.imp_right hlive
  · exact .inr hmore

theorem Settled.hear (h : s.Settled rs) (r : Response) :
    Settled { s with line := s.line.hear r } rs := by
  refine h.outside (s.line.map_request_hear r) (s.line.deliveries_hear r) ?_ (fun hlive => ?_) ?_
  · cases hl : s.line.isLive with
    | false => exact .inl rfl
    | true => exact .inr rfl
  · cases hl : s.line.isLive with
    | false => rwa [Line.hear_of_not_live hl, hl] at hlive
    | true => rfl
  · rw [Line.isOpen_hear]
    exact id

theorem Settled.strike (h : s.Settled rs) (e : Failure) (isOpen : Bool)
    (ho : isOpen = true → s.line.isOpen = true) :
    Settled { s with line := { s.line.strike e with isOpen := isOpen } } rs := by
  refine h.outside (s.line.map_request_strike e) (s.line.deliveries_strike e) ?_ (fun hlive => ?_) ho
  · cases hl : s.line.isLive with
    | false => exact .inl rfl
    | true => exact .inr rfl
  · have hlive : (s.line.strike e).isLive = true := hlive
    rw [Line.isLive_strike] at hlive
    cases hlive

/-! ### Calls -/

/-- A call that waits has nothing to show yet. -/
theorem Going.wait (h : s.Going way ds rs v) (hw : s.waiting = none) {p : Pause α}
    (hp : p.Reads way) (hgot : got { s with waiting := some p } = []) :
    Nears way ds rs (s.due rs) ({ s with waiting := some p }, none) := by
  obtain ⟨g, hg, hv⟩ := h.gathers
  rw [got_of_waiting_none hw] at hv
  unfold Nears
  rw [Option.toList_none, List.append_nil]
  refine ⟨v, { h with gathers := ⟨g, hg, hgot ▸ hv⟩, waiting := ?_ }, ?_⟩
  · intro p' hp'
    cases hp'
    exact hp
  · unfold due
    rw [hw]
    exact Nat.add_lt_add_right (Nat.lt_succ_self _) _

/-- What the next call of a reading waits for. -/
theorem Way.reads_of_begins {way : Way} {rs : List (Reply α)} {bound : Option Nat} {drain : Bool}
    (hk : (way.next rs).Begins bound drain) : (Pause.start bound drain : Pause α).Reads way := by
  rcases way.next_cases rs with ⟨rfl, h⟩ | ⟨rfl, -, h⟩ | ⟨-, h | h⟩ <;> rw [h] at hk <;> cases hk
  · exact ⟨rfl, by simp⟩
  · exact ⟨rfl, by simp⟩

/-- What the next call of a reading pulls. -/
theorem Way.reads_of_wants {way : Way} {rs : List (Reply α)} {demand : Demand α}
    (hk : s.Wants (way.next rs) demand) : (Pause.pull demand).Reads way ∧
      got { s with waiting := some (.pull demand) } = [] := by
  rcases way.next_cases rs with ⟨rfl, h⟩ | ⟨rfl, -, h⟩ | ⟨hway, h | h⟩ <;> rw [h] at hk <;> cases hk
  · exact ⟨rfl, rfl⟩
  · exact ⟨hway, rfl⟩
  · exact ⟨hway, rfl⟩

/-- The next call goes on with the reading. -/
theorem Going.ask (h : s.Going way ds rs v) (hw : s.waiting = none) :
    Nears way ds rs (s.due rs) (s.ask (way.next rs)) := by
  have hlive := h.live
  have hasks := s.asks (way.next rs)
  generalize hk : way.next rs = k at hasks ⊢
  generalize s.ask k = o at hasks ⊢
  cases hasks with
  | gone hh =>
    rw [h.held] at hh
    cases hh
  | drop => rcases way.next_cases rs with ⟨-, h⟩ | ⟨-, -, h⟩ | ⟨-, h | h⟩ <;> cases hk.symm.trans h
  | fused _ hf =>
    rw [h.fresh] at hf
    cases hf
  | broken _ _ hp | ended _ _ hp | failed _ _ hp =>
    rw [hp] at hlive
    cases hlive
  | waits _ hb =>
    subst hk
    exact h.wait hw (Way.reads_of_begins hb) rfl
  | pulls _ hd =>
    subst hk
    obtain ⟨hreads, hgot⟩ := Way.reads_of_wants hd
    exact h.wait hw hreads hgot
  | done bound =>
    -- the query has started, and the caller is told so at once
    rcases way.next_cases rs with ⟨-, h⟩ | ⟨rfl, rfl, -⟩ | ⟨-, h | h⟩
    · cases hk.symm.trans h
    · obtain ⟨g, hg, hv⟩ := h.gathers
      rw [got_of_waiting_none hw] at hv
      refine ⟨v, { h with
        gathers := ⟨g, ?_, hv⟩
        single := nofun
        waiting := nofun }, ?_⟩
      · cases hg
        rfl
      · unfold due
        rw [hw]
        exact Nat.lt_succ_self _
    · cases hk.symm.trans h
    · cases hk.symm.trans h

/-! ### Looks -/

theorem Going.due_eq (h : s.Going way ds rs v) (hst : StandsAt s [] done w read rest) :
    s.due rs = 2 * (rest.length + w.ending.toList.length) +
      (if s.query.progress = .pending then 2 else 0) + (if s.waiting.isSome then 0 else 1) +
      if rs.isEmpty then 1 else 0 := by
  have hahead := hst.ahead h.held
  rw [h.live, List.nil_append] at hahead
  unfold due
  rw [hahead]
  simp

/-- The reading is over with what ends the last wave. -/
theorem Going.ends (h : s.Going way ds rs v) (hst : StandsAt s [] done w read [])
    (hds : ds = done.flatMap (·.deliveries) ++ read.map (.ok ∘ .data)) (he : w.ending = some d)
    (hm : s.line.isOpen = false ∨ d.token? = none) {rs' : List (Reply α)}
    {r : Except Failure (List α)} (hr : (gathered rs').2 = some r) (hs : s.Advances s' [])
    (hw : s'.line.waves = s.line.waves) (hidle : s'.waiting = none)
    (hv : match d.verdict with
      | .ok () => r = .ok v.got ∧ s'.query.progress = .exhausted
      | .error e => r = .error e ∧ s'.query.progress = .failed e)
    (hsizes : s'.query.batchSizes = (Delivery.tally v.sizes d).1) : s'.Settled rs' := by
  refine ⟨hidle, by rw [hr]; rfl, v.asked, h.asked.same (by rw [hw]) hs.transaction hs.options,
    fun more isOpen hmore hopen => ?_⟩
  have hover : s'.line.isLive = false := by
    rw [Line.isLive, hw, hst.waves, Wave.ongoing_concat, Wave.isOver, he]
    rfl
  have hnil : more = [] := hmore.resolve_right (by rw [hover]; exact Bool.false_ne_true)
  have hpayload : d.payload? = none := by
    cases d with
    | error e => rfl
    | ok r => simpa [Delivery.payload?, Response.isTerminal_eq] using hst.terminal r he
  have hmute : isOpen = false ∨ d.token? = none := by
    refine hm.imp_left fun ho => ?_
    rw [hs.isOpen, ho] at hopen
    exact Bool.eq_false_iff.2 fun hb => Bool.false_ne_true (hopen hb)
  rw [hnil, List.append_nil, hw, hst.waves, deliveries_of_read hst he, ← hds, hs.reader,
    h.walks.upshot isOpen _ (.inr (.inl (List.cons_ne_nil d []))), upshot_end hpayload hmute, hr,
    hsizes]
  cases hd : d.verdict with
  | ok u =>
    rw [hd] at hv
    rw [hv.1, hv.2]
  | error e =>
    rw [hd] at hv
    rw [hv.1, hv.2]

/-- A wait for the start finds the query started. -/
theorem Going.begins (h : s.Going way ds rs v) (hst : StandsAt s [] done w read rest)
    (hds : ds = done.flatMap (·.deliveries) ++ read.map (.ok ∘ .data)) {bound : Option Nat}
    {drain : Bool} (hw : s.waiting = some (.start bound drain))
    (hst' : StandsAt s' [] done w read rest) (hs : s.Advances s' []) (hn : s'.waiting = none)
    (hp : s'.query.progress = .streaming) :
    Nears way ds rs (s.due rs) (if drain then
      ({ s' with waiting := some (.pull (.rest [])) }, none) else (s', some .done)) := by
  have hpending := (hst.waiting _ hw).2
  obtain ⟨hdone, hread, -⟩ := hst.pending hpending
  obtain ⟨-, hdrain⟩ := h.waiting _ hw
  obtain ⟨g, hg, hv⟩ := h.gathers
  rw [got_of_start hw] at hv
  have hnil : ds = [] := by rw [hds, hdone, hread]; rfl
  have hwaves : s'.line.waves = s.line.waves := hst'.waves.trans hst.waves.symm
  -- but for what the caller sees of it, nothing else has changed
  have hgoing (p : Option (Pause α)) {rs' : List (Reply α)} (hg' : gathered rs' = (g, none))
      (hgot : got { s' with waiting := p } = []) (hone : way = .execute → rs' = [])
      (hreads : ∀ p', p = some p' → p'.Reads way) :
      Going { s' with waiting := p } way ds rs' v := {
    live := by rw [hp]; rfl
    held := hs.held.trans h.held
    fresh := hs.fused.trans h.fresh
    walks := hs.reader ▸ h.walks
    asked := h.asked.same (by rw [hwaves]) hs.transaction hs.options
    progress := .inr ⟨hnil, by rw [hp]; nofun⟩
    gathers := ⟨g, hg', hgot.symm ▸ hv⟩
    single := hone
    waiting := hreads }
  have hself : ({ s' with waiting := none } : Solo α) = s' := by rw [← hn]
  cases drain with
  | true =>
    have hnext := hgoing (some (.pull (.rest []))) hg rfl h.single
      (by rintro p' ⟨⟩; exact hdrain.1 rfl)
    refine ⟨v, (List.append_nil rs).symm ▸ hnext, ?_⟩
    have hfits : (Pause.pull (.rest []) : Pause α).Fits s'.query := ⟨hnext.held, hnext.live⟩
    simp only [if_true, Option.toList_none, List.append_nil]
    rw [hnext.due_eq (hst'.wait hfits), h.due_eq hst, hw, hp, hpending]
    simp
  | false =>
    have hnext : s'.Going way ds (rs ++ [.done]) v := by
      have hsettled : gathered (rs ++ [.done]) = (g, none) := by rw [gathered_concat, hg]; rfl
      have hway : way ≠ .execute := fun hway => Bool.false_ne_true (hdrain.2 hway)
      rw [← hself]
      exact hgoing none hsettled rfl (fun h => absurd h hway) nofun
    refine ⟨v, hnext, ?_⟩
    simp only [Bool.false_eq_true, if_false, Option.toList_some]
    rw [hnext.due_eq hst', h.due_eq hst, hw, hp, hpending, hn]
    simp
    omega

/-- The reader refuses the next answer, and that is what the reading comes to. -/
theorem Going.refused (h : s.Going way ds rs v) {p : Payload} {e : Failure}
    (hst : StandsAt s [] done w read (p :: rest)) (hb : s.Books ds)
    (hds : ds = done.flatMap (·.deliveries) ++ read.map (.ok ∘ .data))
    (hread : s.query.reader s.query.handed p = .error e)
    (hst' : StandsAt s' [] done w (read ++ [p]) rest) (hs : s.Advances s' [p])
    (hn : s'.waiting = none) (hp : s'.query.progress = .streaming)
    (hb' : s'.Books (ds ++ [.ok (.data p)])) : s'.Settled (rs ++ [.failed e]) := by
  have hhanded : s.query.handed = v.handed := hb.handed.trans h.walks.handed.symm
  have hwaves : s'.line.waves = s.line.waves := hst'.waves.trans hst.waves.symm
  have hasked : s'.Asked v.asked := h.asked.same (by rw [hwaves]) hs.transaction hs.options
  have hsizes : s'.query.batchSizes = v.sizes.1 := by
    have htallied := hb'.tallied
    rw [List.foldl_append, ← h.walks.sizes] at htallied
    exact congrArg Prod.fst htallied
  obtain ⟨g, hg, -⟩ := h.gathers
  have hfailed : gathered (rs ++ [.failed e]) = (g, some (.error e)) := by
    rw [gathered_concat, hg]
    rfl
  refine ⟨hn, by rw [hfailed]; rfl, v.asked, hasked, fun more isOpen _ _ => ?_⟩
  have hall : s'.line.waves.flatMap (·.deliveries) ++ more =
      ds ++ .ok (.data p) :: (rest.map (.ok ∘ .data) ++ w.ending.toList ++ more) := by
    rw [hst'.waves, hds]
    simp [Wave.deliveries, hst.answers]
  rw [hall, hs.reader, h.walks.upshot isOpen _ (.inr (.inl (List.cons_ne_nil _ _))),
    upshot_refused (hhanded ▸ hread), hfailed, hp, hsizes]

/-- The reader takes the next answer: the reading goes on, whoever waits for more of it. -/
theorem Going.given (h : s.Going way ds rs v) {p : Payload} {a : α} (hb : s.Books ds)
    (hread : s.query.reader s.query.handed p = .ok a) (hw : s'.line.waves = s.line.waves)
    (hs : s.Advances s' [p]) (hp : s'.query.progress = .streaming) (q : Option (Pause α))
    {rs' : List (Reply α)} {g : List α} (hg : gathered rs' = (g, none))
    (hgot : g ++ got { s' with waiting := q } = v.got ++ [a]) (hone : way = .execute → rs' = [])
    (hq : ∀ q', q = some q' → q'.Reads way) :
    Going { s' with waiting := q } way (ds ++ [.ok (.data p)]) rs' (v.answer p a) where
  live := by rw [hp]; rfl
  held := hs.held.trans h.held
  fresh := hs.fused.trans h.fresh
  walks := by
    have hhanded : s.query.handed = v.handed := hb.handed.trans h.walks.handed.symm
    exact hs.reader ▸ h.walks.answer (hhanded ▸ hread)
  asked := h.asked.same (by rw [hw]) hs.transaction hs.options
  progress := .inl hp
  gathers := ⟨g, hg, hgot⟩
  single := hone
  waiting := hq

/-- The reader is given the next answer. What it makes of it is handed over with a reply, or kept for
the one at the end of the call. -/
theorem Going.answers (h : s.Going way ds rs v) {p : Payload}
    (hst : StandsAt s [] done w read (p :: rest)) (hb : s.Books ds)
    (hds : ds = done.flatMap (·.deliveries) ++ read.map (.ok ∘ .data)) {demand : Demand α}
    (hw : s.waiting = some (.pull demand)) (hst' : StandsAt s' [] done w (read ++ [p]) rest)
    (hs : s.Advances s' [p]) (hn : s'.waiting = none) (hp : s'.query.progress = .streaming)
    (hb' : s'.Books (ds ++ [.ok (.data p)])) :
    Advance way (ds ++ [.ok (.data p)]) rs (s.due rs)
      (s'.handOver demand (s.query.reader s.query.handed p)) := by
  have hwaves : s'.line.waves = s.line.waves := hst'.waves.trans hst.waves.symm
  have hreads := h.waiting _ hw
  obtain ⟨g, hg, hgot⟩ := h.gathers
  cases hread : s.query.reader s.query.handed p with
  | error e =>
    have hsettled := h.refused hst hb hds hread hst' hs hn hp hb'
    cases demand <;> exact .inl hsettled
  | ok a =>
    have hgoing := h.given hb hread hwaves hs hp
    have hself : ({ s' with waiting := none } : Solo α) = s' := by rw [← hn]
    have hone (hway : way ≠ .execute) (hempty : s.got = []) :
        Advance way (ds ++ [.ok (.data p)]) rs (s.due rs) (s', some (.answer (some a))) := by
      have hnext : s'.Going way (ds ++ [.ok (.data p)]) (rs ++ [.answer (some a)])
          (v.answer p a) := by
        have hsettled : gathered (rs ++ [.answer (some a)]) = (g ++ [a], none) := by
          rw [gathered_concat, hg]
          rfl
        rw [← hself]
        refine hgoing none hsettled ?_ (fun h => absurd h hway) fun _ hq => by cases hq
        rw [got_of_waiting_none rfl, List.append_nil, ← hgot, hempty, List.append_nil]
      refine .inr ⟨_, hnext, ?_⟩
      simp only [Option.toList_some]
      rw [hnext.due_eq hst', h.due_eq hst, hw, hp, hn]
      simp
      omega
    cases demand with
    | rest got =>
      have hnext := hgoing (some (.pull (.rest (got ++ [a])))) hg ?_ h.single
        (by rintro q' ⟨⟩; exact hreads)
      · refine .inr ⟨_, (List.append_nil rs).symm ▸ hnext, ?_⟩
        have hfits : (Pause.pull (.rest (got ++ [a])) : Pause α).Fits s'.query :=
          ⟨hnext.held, hnext.live⟩
        simp only [handOver, Option.toList_none, List.append_nil]
        rw [hnext.due_eq (hst'.wait hfits), h.due_eq hst, hw, hp]
        simp
        omega
      · rw [got_of_pull rfl, ← hgot, got_of_pull hw, List.append_assoc]
    | answer => exact hone hreads (by unfold got; rw [hw])
    | item => exact hone hreads (by unfold got; rw [hw])

/-- The next batch is asked for. -/
theorem Going.turns (h : s.Going way ds rs v) (hst : StandsAt s [] done w read [])
    (he : w.ending = some d) {token : UInt64} (ht : d.token? = some token) {demand : Demand α}
    (hw : s.waiting = some (.pull demand)) {u : Wave}
    (hst' : StandsAt s' [] (done ++ [w]) u [] []) (hs : s.Advances s' [])
    (hu : u = { request := .fetch s.query.transaction (.continuation token s.query.options) })
    (hn : s'.waiting = some (.pull demand)) (hp : s'.query.progress = .continuing) :
    Nears way (ds ++ [d]) rs (s.due rs) (s', none) := by
  have hnext : s'.Going way (ds ++ [d]) rs (v.turn d token) := {
    live := by rw [hp]; rfl
    held := hs.held.trans h.held
    fresh := hs.fused.trans h.fresh
    walks := hs.reader ▸ h.walks.turn ht
    asked := by
      obtain ⟨text, hasked⟩ := h.asked
      refine ⟨text, ?_⟩
      rw [hst'.waves, ← hst.waves, List.map_append, hasked, hs.transaction, hs.options, hu]
      simp [Course.turn]
    progress := .inl hp
    gathers := by
      obtain ⟨g, hg, hgot⟩ := h.gathers
      refine ⟨g, hg, ?_⟩
      rw [show s'.got = s.got by unfold got; rw [hn, hw], hgot]
      rfl
    single := h.single
    waiting := fun p hp' => h.waiting p (hw.trans (hn.symm.trans hp')) }
  refine ⟨_, (List.append_nil rs).symm ▸ hnext, ?_⟩
  simp only [Option.toList_none, List.append_nil]
  rw [hnext.due_eq hst', h.due_eq hst, hw, hn, hp, hu, he]
  simp only [List.length_nil, List.length_singleton, Option.toList_none, Option.toList_some,
    reduceCtorEq, if_false]
  omega

/-- What is said of an iteration that is over is said of the query after it was told. -/
theorem Settled.fuse (h : s.Settled rs) (demand : Demand α) :
    Settled { s with query := s.query.fuse demand } rs := by
  obtain ⟨b, hb⟩ := s.query.exists_fuse demand
  rw [hb]
  exact ⟨h.idle, h.complete, h.comes⟩

/-- A call that collects all answers gives them at the end, and any other the end alone. -/
theorem Going.gathered_atEnd (h : s.Going way ds rs v) {demand : Demand α}
    (hw : s.waiting = some (.pull demand)) :
    (gathered (rs ++ [Client.atEnd demand])).2 = some (.ok v.got) := by
  obtain ⟨g, hg, hgot⟩ := h.gathers
  have hreads := h.waiting _ hw
  rw [gathered_concat, hg, ← hgot]
  cases demand with
  | rest got =>
    have hrs : rs = [] := h.single hreads
    subst hrs
    cases hg
    rw [got_of_pull hw]
    rfl
  | answer | item =>
    have hempty : s.got = [] := by unfold got; rw [hw]
    rw [hempty, List.append_nil]
    rfl

/-- With a token the query is not at its end. -/
theorem token?_of_verdict_ok (hd : d.verdict = .ok ()) : d.token? = none := by
  refine Option.eq_none_iff_forall_ne_some.2 fun token ht => ?_
  obtain ⟨i, rfl, hi⟩ := Delivery.token?_eq_some.1 ht
  rw [Delivery.verdict_continuation hi] at hd
  cases hd

/-- A look finds nothing, as nothing is ahead for it, or the reading gets on with it. -/
theorem Going.take (h : s.Going way ds rs v) (hst : StandsAt s [] done w read rest)
    (hb : s.Books ds) (hds : ds = done.flatMap (·.deliveries) ++ read.map (.ok ∘ .data)) :
    s.take = (s, none) ∧ s.draw? = none ∧ (s.waiting ≠ none → rest = [] ∧ w.ending = none) ∨
    Advance way (ds ++ s.draw?.toList) rs (s.due rs) s.take := by
  have hbooks := books_take hb
  have hsees := sees_take hst
  have hdraw {demand : Demand α} (hw : s.waiting = some (.pull demand)) := draw?_of_pull hst hw
  have hstart {bound : Option Nat} {drain : Bool} (hw : s.waiting = some (.start bound drain)) :
      s.draw? = none := by rw [draw?, hw]
  have hfailed (e : Failure) : (gathered (rs ++ [.failed e])).2 = some (.error e) := by
    obtain ⟨g, hg, -⟩ := h.gathers
    rw [gathered_concat, hg]
    rfl
  have hsizes {t : Solo α} {d : Delivery} (ht : t.Books (ds ++ [d])) :
      t.query.batchSizes = (Delivery.tally v.sizes d).1 := by
    have htallied := ht.tallied
    rw [List.foldl_append, ← h.walks.sizes] at htallied
    exact congrArg Prod.fst htallied
  have hsame {t : Solo α} (ht : StandsAt t [] done w read rest) : t.line.waves = s.line.waves :=
    ht.waves.trans hst.waves.symm
  have hidle {t : Solo α} (ht : Stands t) (hp : t.query.progress.isOver = true) :
      t.waiting = none := (over_of_isOver ht hp).idle
  generalize s.take = o at hsees hbooks ⊢
  cases hsees with
  | idle hw =>
    refine .inl ⟨rfl, by rw [draw?, hw], fun hne => absurd hw hne⟩
  | @nothing pause hw hr he =>
    refine .inl ⟨rfl, ?_, fun _ => ⟨hr, he⟩⟩
    cases pause with
    | start => exact hstart hw
    | pull demand => rw [hdraw hw, hr, he]; rfl
  | begun hw hst' hs hn hp =>
    rw [hstart hw, Option.toList_none, List.append_nil]
    exact .inr (.inr (h.begins hst hds hw hst' hs hn hp))
  | @unbegun bound drain e s' hw hr he hst' hs hn hp =>
    rw [hstart hw, Option.toList_none, List.append_nil] at hbooks
    subst hr
    have hunchanged : s'.query.batchSizes = (Delivery.tally v.sizes (.error e)).1 := by
      rw [h.walks.sizes, ← hbooks.tallied]
      rfl
    exact .inr (.inl (h.ends hst hds he (.inr rfl) (hfailed e) hs (hsame hst') hn ⟨rfl, hp⟩
      hunchanged))
  | @answer demand p rest' s' hw hr hst' hs hn hp =>
    subst hr
    have hnext : s.draw? = some (.ok (.data p)) := hdraw hw
    rw [hnext] at hbooks ⊢
    refine .inr (h.answers hst hb hds hw hst' hs hn hp ?_)
    revert hbooks
    cases s.query.reader s.query.handed p <;> cases demand <;> exact fun hb => ⟨hb.1, hb.2⟩
  | @token demand token u s' hw hr ht hopen hst' hs hu hn hp =>
    subst hr
    obtain ⟨d, he, htoken⟩ := Option.bind_eq_some_iff.1 (w.token?_eq ▸ ht)
    rw [hdraw hw, he]
    exact .inr (.inr (h.turns hst he htoken hw hst' hs hu hn hp))
  | @ended demand d s' hw hr he hd hst' hs hp =>
    subst hr
    rw [hdraw hw, he] at hbooks
    have htoken := token?_of_verdict_ok hd
    refine .inr (.inl (h.ends hst hds he (.inr htoken) (h.gathered_atEnd hw) hs (hsame hst') ?_ ?_
      (hsizes hbooks)))
    · exact hidle ⟨_, _, _, _, hst'⟩ (by rw [hp]; rfl)
    · rw [hd]
      exact ⟨rfl, hp⟩
  | @failed demand d e s' hw hr he hm hd hst' hs hn hp =>
    subst hr
    rw [hdraw hw, he] at hbooks
    have htoken : w.token? = d.token? := by rw [Wave.token?_eq, he]; rfl
    have hlevel : (s'.query.fuse demand).batchSizes = s'.query.batchSizes := by
      obtain ⟨b, hfuse⟩ := s'.query.exists_fuse demand
      rw [hfuse]
    have hsettled : s'.Settled (rs ++ [.failed e]) := by
      refine h.ends hst hds he (htoken ▸ hm) (hfailed e) hs (hsame hst') hn ?_
        (hlevel.symm.trans (hsizes hbooks))
      rw [hd]
      exact ⟨rfl, hp⟩
    exact .inr (.inl (hsettled.fuse demand))

/-! ### Acts -/

theorem Nears.reads {n : Nat} {o : Solo α × Option (Reply α)} (h : Nears way ds rs n o) :
    o.1.Reads way ds (rs ++ o.2.toList) := by
  obtain ⟨v, h, -⟩ := h
  exact .going h

theorem Advance.reads {n : Nat} {o : Solo α × Option (Reply α)} (h : Advance way ds rs n o) :
    o.1.Reads way ds (rs ++ o.2.toList) := by
  rcases h with h | h
  · exact .settled h
  · exact h.reads

/-- What a query that is read does by itself, and what happens to it, keeps to the reading, if only
the calls of the reading are made. -/
theorem Reads.act (h : s.Reads way ds rs) (hb : s.Books ds) (hd : s.Drawn ds) {a : Act}
    (ha : s.Takes a) (hbound : s.Bounds a)
    (hask : ∀ k, a = .ask k → k = way.next rs ∧ (gathered rs).2 = none) :
    (s.act a).1.Reads way (ds ++ (s.draws a).toList) (rs ++ (s.act a).2.toList) := by
  by_cases htake : a = .take
  · subst htake
    show s.take.1.Reads way (ds ++ s.draw?.toList) (rs ++ s.take.2.toList)
    have hidle (hstill : s.take = (s, none)) (hdraw : s.draw? = none) :
        s.take.1.Reads way (ds ++ s.draw?.toList) (rs ++ s.take.2.toList) := by
      rw [hstill, hdraw, Option.toList_none, Option.toList_none, List.append_nil, List.append_nil]
      exact h
    cases h with
    | settled h => exact hidle (take_of_waiting_none h.idle) (by rw [draw?, h.idle])
    | going h =>
      obtain ⟨done, w, read, rest, hst, hds⟩ := hd.exists_standsAt h.live
      rcases h.take hst hb hds with ⟨hstill, hdraw, -⟩ | hnext
      · exact hidle hstill hdraw
      · exact hnext.reads
  · rw [draws, if_neg htake, Option.toList_none, List.append_nil]
    cases a with
    | take => exact absurd rfl htake
    | ask k =>
      obtain ⟨rfl, hnone⟩ := hask k rfl
      cases h with
      | settled h =>
        have hover := h.complete
        rw [hnone] at hover
        cases hover
      | going h => exact (h.ask (ha _ rfl)).reads
    | giveUp =>
      have hnone : s.giveUp = (s, none) := by
        refine giveUp_of_not_start fun bound drain hw => ?_
        cases h with
        | settled h =>
          rw [h.idle] at hw
          cases hw
        | going h =>
          obtain ⟨rfl, -⟩ := h.waiting _ hw
          exact hbound rfl drain hw
      show s.giveUp.1.Reads way ds (rs ++ s.giveUp.2.toList)
      rw [hnone, Option.toList_none, List.append_nil]
      exact h
    | heard r =>
      rw [show (s.act (.heard r)).2 = none from rfl, Option.toList_none, List.append_nil]
      cases h with
      | settled h => exact .settled (h.hear r)
      | going h => exact .going (h.outside (s.line.map_request_hear r))
    | transactionEnded | sessionEnded =>
      rw [show (s.act _).2 = none from rfl, Option.toList_none, List.append_nil]
      cases h with
      | settled h => exact .settled (h.strike _ (s.line.strike _).isOpen (by simp))
      | going h => exact .going (h.outside (s.line.map_request_strike _))
    | lost =>
      rw [show (s.act .lost).2 = none from rfl, Option.toList_none, List.append_nil]
      cases h with
      | settled h => exact .settled (h.strike .connectionClosed false (by simp))
      | going h =>
        have hlost : s.line.lose.waves.map (·.request) = s.line.waves.map (·.request) :=
          s.line.map_request_strike _
        exact .going (h.outside hlost)

/-! ### Rest -/

/-- At rest the reading has come to what the deliveries of the lane come to. -/
theorem Reads.upshot_eq (h : s.Reads way ds rs) (hb : s.Books ds) (hd : s.Drawn ds) (hs : s.Starts)
    (hrest : (gathered rs).2.isSome = true ∨ s.waiting ≠ none ∧ s.take = (s, none)) :
    ∃ asked, s.Asked asked ∧
      upshot s.query.reader s.line.isOpen {} (s.line.waves.flatMap (·.deliveries)) =
        ⟨(gathered rs).2, s.query.progress, s.query.batchSizes, asked⟩ := by
  cases h with
  | settled h =>
    obtain ⟨asked, hasked, hcomes⟩ := h.comes
    have hnow := hcomes [] s.line.isOpen (.inl rfl) id
    rw [List.append_nil] at hnow
    exact ⟨asked, hasked, hnow⟩
  | @going v h =>
    obtain ⟨g, hg, -⟩ := h.gathers
    obtain ⟨hwait, hidle⟩ := hrest.resolve_left (by rw [hg]; exact Bool.false_ne_true)
    obtain ⟨done, w, read, rest, hst, hds⟩ := hd.exists_standsAt h.live
    obtain ⟨rfl, he⟩ : rest = [] ∧ w.ending = none := by
      rcases h.take hst hb hds with ⟨-, -, hnothing⟩ | hnext
      · exact hnothing hwait
      · rw [hidle] at hnext
        rcases hnext with hsettled | ⟨v', -, hless⟩
        · exact absurd hsettled.idle hwait
        · simp at hless
    have hall : s.line.waves.flatMap (·.deliveries) = ds := by
      rw [hst.waves, hds]
      simp [Wave.deliveries, he, hst.answers]
    have hopen : s.line.isOpen = true := by
      by_contra hlost
      have hover := hst.lost (Bool.eq_false_iff.2 hlost)
      rw [Wave.isOver, he] at hover
      cases hover
    have hprogress : s.query.progress = v.progress := by
      refine h.progress.resolve_right ?_
      rintro ⟨rfl, hbegun⟩
      obtain ⟨u, hu, hne⟩ := hs.begun hbegun
      exact hne (List.flatMap_eq_nil_iff.1 hall u (List.mem_of_mem_head? hu))
    refine ⟨v.asked, h.asked, ?_⟩
    have hnow := h.walks.upshot s.line.isOpen [] (.inl hopen)
    rw [List.append_nil] at hnow
    rw [hall, hnow, hg, hprogress,
      show s.query.batchSizes = _ from congrArg Prod.fst hb.tallied, ← h.walks.sizes]
    rfl

/-- A look delivers nothing. -/
theorem Sees.deliveries {o : Solo α × Option (Reply α)} (hst : StandsAt s [] done w read rest)
    (h : s.Sees done w read rest o) :
    o.1.line.waves.flatMap (·.deliveries) = s.line.waves.flatMap (·.deliveries) := by
  have hsame {t : Solo α} {read' rest' : List Payload} (ht : StandsAt t [] done w read' rest') :
      t.line.waves.flatMap (·.deliveries) = s.line.waves.flatMap (·.deliveries) := by
    rw [ht.waves, hst.waves]
  cases h with
  | idle | nothing => rfl
  | @begun bound drain s' hw hst' => cases drain <;> exact (hsame hst' :)
  | unbegun hw hr he hst' => exact hsame hst'
  | @answer demand p rest' s' hw hr hst' =>
    cases s.query.reader s.query.handed p <;> cases demand <;> exact (hsame hst' :)
  | token hw hr ht ho hst' hs hv =>
    rw [hst'.waves, hst.waves, hv]
    simp [Wave.deliveries]
  | ended hw hr he hd hst' => exact hsame hst'
  | failed hw hr he hm hd hst' => exact (hsame hst' :)

end Solo

/-- All that was delivered on a lane, in order. -/
def Link.deliveries (l : Link) (lane : Lane) : List Delivery := (l.waves lane).flatMap (·.deliveries)

namespace Client

variable {timeout : Option Nat} {way : Way} {c : Client α} {h : Handle} {q : Query α} {m : Move α}
  {ms : List (Move α)} {rs : List (Reply α)}

/-! ## Runs -/

/-- What a move asks of the query at a place. -/
def asks? (c : Client α) (h : Handle) : Move α → Option Ask
  | .call k =>
    if c.waiting.isNone && c.queries[h]?.isSome then (k.ask?.filter (·.1 == h)).map (·.2) else none
  | _ => none

/-- Whether what is asked of the query at a place are the calls of a way of reading that has given
the replies `rs` so far, and nothing once it has come to something. -/
def conducts (c : Client α) (h : Handle) (way : Way) (rs : List (Reply α)) : List (Move α) → Bool
  | [] => true
  | m :: ms =>
    (c.asks? h m).all (fun a => a == way.next rs && (gathered rs).2.isNone) &&
      (c.step m).1.conducts h way (rs ++ c.repliesTo h [m]) ms

theorem conducts_append (c : Client α) (h : Handle) (way : Way) (rs : List (Reply α))
    (ms ms' : List (Move α)) : c.conducts h way rs (ms ++ ms') =
      (c.conducts h way rs ms && (c.runAll ms).1.conducts h way (rs ++ c.repliesTo h ms) ms') := by
  induction ms generalizing c rs with
  | nil =>
    rw [repliesTo, List.append_nil]
    rfl
  | cons m ms ih =>
    have hreplies : rs ++ c.repliesTo h [m] ++ (c.step m).1.repliesTo h ms =
        rs ++ c.repliesTo h (m :: ms) := by
      rw [show c.repliesTo h (m :: ms) = _ from repliesTo_append c h [m] ms, List.append_assoc]
      rfl
    rw [List.cons_append, conducts, ih, hreplies, conducts, Bool.and_assoc]
    rfl

/-- A run of a client in which all answers of a query are read in one way, and what its calls have
replied. Of what else the client does, and of what happens to it, nothing is said. -/
structure Reading (timeout : Option Nat) (way : Way) (h : Handle) (ms : List (Move α))
    (rs : List (Reply α)) (c : Client α) (q : Query α) : Prop where
  run : ((new timeout).runAll ms).1 = c
  issued : c.link.issued ≤ 2 ^ 64
  query : c.queries[h]? = some q
  calls : (new timeout).conducts h way [] ms = true
  replies : (new timeout).repliesTo h ms = rs

/-- The reading is over, or a call of it waits and there is nothing for it to find. -/
def AtRest (c : Client α) (h : Handle) (rs : List (Reply α)) : Prop :=
  (gathered rs).2.isSome = true ∨ c.waitsOn h = true ∧ c.isReady = false

theorem asks?_eq_some {k : Call α} {a : Ask} (hw : c.waiting = none)
    (hq : c.queries[h]?.isSome = true) (hk : k.ask? = some (h, a)) :
    c.asks? h (.call k) = some a := by
  simp [asks?, hw, hq, hk]

theorem Reading.reachable (r : Reading timeout way h ms rs c q) : c.Reachable :=
  ⟨timeout, ms, r.run.symm⟩

theorem Reading.sound (r : Reading timeout way h ms rs c q) : c.Sound := r.reachable.sound r.issued

/-- What a reading keeps of its query. -/
theorem Reading.kept (r : Reading timeout way h ms rs c q) :
    (c.soloOf h q).Books ((new timeout).drawn h ms) ∧
      (c.soloOf h q).Drawn ((new timeout).drawn h ms) ∧
      (c.soloOf h q).Reads way ((new timeout).drawn h ms) rs := by
  obtain ⟨rfl, hb, hq, hcalls, rfl⟩ := r
  refine (traced (J := fun ds rs s => Stands s ∧ s.Books ds ∧ s.Drawn ds ∧ s.Reads way ds rs)
    (fun rs a => a = way.next rs ∧ (gathered rs).2 = none)
    (fun transaction text options reader => ⟨.opening transaction text options reader, ⟨rfl, rfl⟩,
      .opening transaction text options reader,
      .going (Solo.going_opening way transaction text options reader)⟩)
    (fun ds rs s a ha hbound hask hs => ⟨hs.1.act a, Solo.books_act hs.2.1 a, hs.2.2.1.act hs.1 a,
      hs.2.2.2.act hs.2.1 hs.2.2.1 ha hbound hask⟩) hb (fun before k after a hms hw hsome hk => ?_)
    hq).2
  rw [hms, conducts_append, Bool.and_eq_true, conducts, asks?_eq_some hw hsome hk, List.nil_append,
    Option.all_some, Bool.and_eq_true, Bool.and_eq_true] at hcalls
  exact ⟨eq_of_beq hcalls.2.1.1, Option.isNone_iff_eq_none.1 hcalls.2.1.2⟩

/-- **At rest a reading has come to what its deliveries come to**, and the requests that it has sent
are the first one and one for each of the tokens that were turned to. -/
theorem Reading.upshot_eq (r : Reading timeout way h ms rs c q) (hrest : c.AtRest h rs) :
    ∃ asked, (c.soloOf h q).Asked asked ∧
      upshot q.reader c.link.isOpen {} (c.link.deliveries q.lane) =
        ⟨(gathered rs).2, q.progress, q.batchSizes, asked⟩ := by
  obtain ⟨hbooks, hdrawn, hreads⟩ := r.kept
  refine hreads.upshot_eq hbooks hdrawn (r.reachable.starts r.issued r.query).2
    (hrest.imp_right ?_)
  rintro ⟨hwaits, hready⟩
  obtain ⟨p, hp⟩ := Option.isSome_iff_exists.1 hwaits
  refine ⟨?_, r.sound.take_idle r.query hwaits hready⟩
  rw [show (c.soloOf h q).waiting = some p from hp]
  exact Option.some_ne_none p

/-! ## Coming to rest -/

/-- A client of which somebody holds a query keeps its connection. -/
theorem release_of_held (hq : c.queries[h]? = some q) (hheld : q.held = true) : c.release = c := by
  have hany : c.queries.any (·.held) = true := List.any_eq_true.2 ⟨q, List.mem_of_getElem? hq, hheld⟩
  exact release_of_isHeld (by simp [isHeld, hany])

/-- A call that keeps the query is a step of that query and of nothing else. -/
theorem Sound.follows_ask (hc : c.Sound) (hb : c.link.issued ≤ 2 ^ 64) (hq : c.queries[h]? = some q)
    (hw : c.waiting = none) {k : Call α} {a : Ask} (hk : k.ask? = some (h, a))
    (hheld : ((c.soloOf h q).ask a).1.query.held = true) :
    c.Follows h q (c.call k) ((c.soloOf h q).ask a) := by
  obtain ⟨c₁, hf, hcall⟩ := follows_call hc.link hb (hc.wired h q hq) hq hw hk
  have hview : c.view q none = c.soloOf h q := by rw [soloOf, hw]; rfl
  rw [hview] at hf
  obtain ⟨q', hq', -, hsolo, -⟩ := hf.soloOf hq
  have hheld' : q'.held = true := (congrArg (·.query.held) hsolo).trans hheld
  have hsame : (c.call k).1 = c₁ := by
    rcases hcall with hcall | hcall
    · exact hcall
    · exact hcall.trans (release_of_held hq' hheld')
  rwa [show c.call k = (c₁, (c.call k).2) from Prod.ext hsame rfl]

/-- With nothing ahead there is nothing to find. -/
theorem Sound.not_isReady (hc : c.Sound) (hq : c.queries[h]? = some q) {p : Pause α}
    (hp : c.waiting = some (p.wait h)) {done : List Wave} {w : Wave} {read : List Payload}
    (hst : StandsAt (c.soloOf h q) [] done w read []) (he : w.ending = none) :
    c.isReady = false := by
  have hwait : (c.soloOf h q).waiting = some p := by
    rw [soloOf, hp, Option.bind_some, Pause.on_wait]
  by_contra hready
  rw [Bool.not_eq_false] at hready
  cases p with
  | start bound drain =>
    obtain ⟨u, hu, hne⟩ := hc.begun_of_isReady ⟨_, _, _, _, hst⟩ hq hp hready
    obtain ⟨rfl, rfl, -⟩ := hst.pending (hst.waiting _ hwait).2
    have hwaves : c.link.waves q.lane = [w] := hst.waves
    rw [hwaves] at hu
    cases hu
    rw [Solo.deliveries_of_pending hst, he] at hne
    exact hne rfl
  | pull demand =>
    have hdraw := Solo.draw?_of_pull hst hwait
    rw [Solo.draw?, hwait, he] at hdraw
    have hpoll : (q.poll c.link.router).map (·.1) = none := (hc.poll_soloOf hq).symm.trans hdraw
    have hwaiting : c.waiting = some (.pull h demand) := hp
    rw [isReady, hwaiting] at hready
    dsimp only at hready
    rw [hq, Option.any_some, Option.map_eq_none_iff.1 hpoll] at hready
    cases hready

/-- From one state to another nothing is delivered on the lane of the query, and the connection stays
as it is. -/
structure Still (c : Client α) (q : Query α) (c' : Client α) (q' : Query α) : Prop where
  deliveries : c'.link.deliveries q'.lane = c.link.deliveries q.lane
  isOpen : c'.link.isOpen = c.link.isOpen

/-- A move that is a step of the query that is read. -/
theorem Reading.follow (r : Reading timeout way h ms rs c q) {o : Solo α × Option (Reply α)}
    (hf : c.Follows h q (c.step m) o) (hm : c.concerns m h = true)
    (hask : ∀ a, c.asks? h m = some a → a = way.next rs ∧ (gathered rs).2 = none)
    (hd : o.1.line.waves.flatMap (·.deliveries) = c.link.deliveries q.lane) :
    ∃ q', Reading timeout way h (ms ++ [m]) (rs ++ o.2.toList) (c.step m).1 q' ∧
      (c.step m).1.soloOf h q' = o.1 ∧ c.Still q (c.step m).1 q' ∧
      ((c.step m).1.waiting = none ∨ (c.step m).1.waitsOn h = true) := by
  obtain ⟨q', hq', -, hsolo, hwaiting⟩ := hf.soloOf r.query
  obtain ⟨l, x, w, ho, -, hcar⟩ := hf
  have hreplies : c.repliesTo h [m] = o.2.toList := by
    simp [repliesTo, r.query, hm, ho]
  have hissued : (c.step m).1.link.issued = c.link.issued := by
    rw [ho]
    exact hcar.issued
  have hisOpen : (c.step m).1.link.isOpen = c.link.isOpen := by
    rw [ho]
    exact hcar.isOpen
  refine ⟨q', ⟨?_, hissued ▸ r.issued, hq', ?_, ?_⟩, hsolo, ⟨?_, hisOpen⟩, ?_⟩
  · rw [runAll_append, r.run]
    rfl
  · rw [conducts_append, r.calls, r.run, r.replies]
    cases hasks : c.asks? h m with
    | none => simp [conducts, hasks]
    | some a =>
      obtain ⟨rfl, hnone⟩ := hask a hasks
      simp [conducts, hasks, hnone]
  · rw [repliesTo_append, r.run, r.replies, hreplies]
  · rw [← hd, ← hsolo]
    rfl
  · rw [hwaiting]
    cases hw : o.1.waiting with
    | none => exact .inl rfl
    | some p =>
      refine .inr ?_
      rw [waitsOn, hwaiting, hw, Option.map_some, Option.bind_some, Pause.on_wait]
      rfl

/-- Whatever is asked of a query, there is a call for it. -/
theorem exists_call (h : Handle) (a : Ask) : ∃ k : Call α, k.ask? = some (h, a) := by
  cases a with
  | start bound => exact ⟨.start h bound, rfl⟩
  | nextAnswer => exact ⟨.nextAnswer h, rfl⟩
  | next => exact ⟨.next h, rfl⟩
  | collect bound => exact ⟨.collect h bound, rfl⟩
  | drop => exact ⟨.dropQuery h, rfl⟩

/-- A reading that nothing else holds up is at rest, or it gets on with a step of its own. -/
theorem Reading.proceed (r : Reading timeout way h ms rs c q)
    (hw : c.waiting = none ∨ c.waitsOn h = true) : c.AtRest h rs ∨
    ∃ m rs' q', (m = .resume ∨ ∃ k a, m = .call k ∧ k.ask? = some (h, a)) ∧
      Reading timeout way h (ms ++ [m]) rs' (c.step m).1 q' ∧ c.Still q (c.step m).1 q' ∧
      ((c.step m).1.waiting = none ∨ (c.step m).1.waitsOn h = true) ∧
      ((gathered rs').2.isSome = true ∨
        ((c.step m).1.soloOf h q').due rs' < (c.soloOf h q).due rs) := by
  obtain ⟨hbooks, hdrawn, hreads⟩ := r.kept
  cases hreads with
  | settled hsettled => exact .inl (.inl hsettled.complete)
  | @going v hgoing =>
    rcases hw with hw | hw
    · -- no call waits, and the next one is made
      have hidle : (c.soloOf h q).waiting = none := by rw [soloOf, hw]; rfl
      obtain ⟨k, hk⟩ := exists_call (α := α) h (way.next rs)
      obtain ⟨v', hnext, hless⟩ := hgoing.ask hidle
      have hf := r.sound.follows_ask r.issued r.query hw hk hnext.held
      have hsome : c.queries[h]?.isSome = true := by rw [r.query]; rfl
      have hnone : (gathered rs).2 = none := by
        obtain ⟨g, hg, -⟩ := hgoing.gathers
        rw [hg]
      obtain ⟨q', hreading, hsolo, hsame, hwaiting⟩ := r.follow (m := .call k) hf
        (by simp [concerns, hw, hk])
        (fun a ha => by
          rw [asks?_eq_some hw hsome hk] at ha
          cases ha
          exact ⟨rfl, hnone⟩)
        (by rw [(Solo.mild_ask _ _).line.1]; rfl)
      exact .inr ⟨.call k, _, q', .inr ⟨k, _, rfl, hk⟩, hreading, hsame, hwaiting,
        .inr (hsolo ▸ hless)⟩
    · -- the waiting call looks, if there is anything to find
      obtain ⟨p, hp⟩ := exists_pause hw
      obtain ⟨done, w, read, rest, hst, hds⟩ := hdrawn.exists_standsAt hgoing.live
      have hwait : (c.soloOf h q).waiting = some p := by
        rw [soloOf, hp, Option.bind_some, Pause.on_wait]
      rcases hgoing.take hst hbooks hds with ⟨-, -, hnothing⟩ | hnext
      · obtain ⟨rfl, he⟩ := hnothing (by rw [hwait]; exact Option.some_ne_none p)
        exact .inl (.inr ⟨hw, r.sound.not_isReady r.query hp hst he⟩)
      · have hview : c.view q (some p) = c.soloOf h q := by rw [← hwait]; rfl
        have hf := follows_resume r.sound.link (r.sound.wired h q r.query) r.query hp r.issued
        rw [hview] at hf
        obtain ⟨q', hreading, hsolo, hsame, hwaiting⟩ := r.follow (m := .resume) hf hw
          (fun a ha => by cases ha) ((Solo.sees_take hst).deliveries hst)
        refine .inr ⟨.resume, _, q', .inl rfl, hreading, hsame, hwaiting, ?_⟩
        rcases hnext with hsettled | ⟨v', -, hless⟩
        · exact .inl hsettled.complete
        · exact .inr (hsolo ▸ hless)

/-- A reading that nothing else holds up comes to rest by calls and looks of its own. By induction on
what is due. -/
theorem Reading.rests (r : Reading timeout way h ms rs c q)
    (hw : c.waiting = none ∨ c.waitsOn h = true) :
    ∃ more rs' c' q', (∀ m ∈ more, m = .resume ∨ ∃ k a, m = .call k ∧ k.ask? = some (h, a)) ∧
      Reading timeout way h (ms ++ more) rs' c' q' ∧ c'.AtRest h rs' ∧ c.Still q c' q' := by
  induction hn : (c.soloOf h q).due rs using Nat.strong_induction_on generalizing ms rs c q with
  | _ n ih =>
    rcases r.proceed hw with hrest | ⟨m, rs', q', hm, hnext, hsame, hwaiting, hless⟩
    · exact ⟨[], rs, c, q, by simp, by rwa [List.append_nil], hrest, rfl, rfl⟩
    · rcases hless with hover | hless
      · exact ⟨[m], rs', _, q', by simpa using hm, hnext, .inl hover, hsame⟩
      · obtain ⟨more, rs₂, c₂, q₂, hmore, hlast, hrest, hstill₂⟩ :=
          ih _ (hn ▸ hless) hnext hwaiting rfl
        refine ⟨m :: more, rs₂, c₂, q₂, ?_, by rwa [List.append_assoc] at hlast, hrest,
          hstill₂.deliveries.trans hsame.deliveries, hstill₂.isOpen.trans hsame.isOpen⟩
        intro m' hm'
        rcases List.mem_cons.1 hm' with rfl | hm'
        · exact hm
        · exact hmore m' hm'

/-! ## The theorem -/

/-- The frames of a query are its first request and what it asked for since. -/
theorem frames_of_asked {asked : List UInt64} (hasked : (c.soloOf h q).Asked asked) :
    ∃ text, c.link.frames q.lane = .fetch q.transaction (.first text q.options) ::
      asked.map fun token => .fetch q.transaction (.continuation token q.options) := by
  obtain ⟨text, hrequests⟩ := hasked
  exact ⟨text, (c.link.frames_eq q.lane).trans hrequests⟩

/-- **All ways of reading agree.** All answers of a query are read in two runs, each in some way: by
one call that collects them, through a stream, through its iterator or one by one. The query was
opened with the same request, its reader is the same, the same was delivered on its lane, and the
connection is there in both runs or in none. Then at rest both have come to the same, the answers or
the failure, with the same frames, the same progress and the same batch sizes. A reading comes to
rest by its own calls and looks, without anything that arrives, unless a call on something else
waits. -/
theorem ways_agree {timeout timeout' : Option Nat} {way way' : Way} {h h' : Handle}
    {ms ms' : List (Move α)} {rs rs' : List (Reply α)} {c c' : Client α} {q q' : Query α}
    (hr : Reading timeout way h ms rs c q) (hr' : Reading timeout' way' h' ms' rs' c' q')
    (hreader : q.reader = q'.reader)
    (hfirst : (c.link.frames q.lane).head? = (c'.link.frames q'.lane).head?)
    (hsame : c.link.deliveries q.lane = c'.link.deliveries q'.lane)
    (hopen : c.link.isOpen = c'.link.isOpen) :
    (c.AtRest h rs → c'.AtRest h' rs' → (gathered rs).2 = (gathered rs').2 ∧
      c.link.frames q.lane = c'.link.frames q'.lane ∧ q.progress = q'.progress ∧
      q.batchSizes = q'.batchSizes) ∧
    (c.waiting = none ∨ c.waitsOn h = true → ∃ more rs₁ c₁ q₁,
      (∀ m ∈ more, m = .resume ∨ ∃ k a, m = .call k ∧ k.ask? = some (h, a)) ∧
      Reading timeout way h (ms ++ more) rs₁ c₁ q₁ ∧ c₁.AtRest h rs₁ ∧
      c₁.link.deliveries q₁.lane = c.link.deliveries q.lane ∧
      c₁.link.isOpen = c.link.isOpen) := by
  refine ⟨fun hrest hrest' => ?_, fun hw => ?_⟩
  · obtain ⟨asked, hasked, hup⟩ := hr.upshot_eq hrest
    obtain ⟨asked', hasked', hup'⟩ := hr'.upshot_eq hrest'
    rw [hreader, hsame, hopen, hup'] at hup
    obtain ⟨hresult, hprogress, hsizes, hall⟩ := Upshot.mk.inj hup
    obtain ⟨text, hframes⟩ := frames_of_asked hasked
    obtain ⟨text', hframes'⟩ := frames_of_asked hasked'
    refine ⟨hresult.symm, ?_, hprogress.symm, hsizes.symm⟩
    rw [hframes, hframes'] at hfirst ⊢
    have hhead := Option.some.inj hfirst
    obtain ⟨htransaction, hfetch⟩ := Request.fetch.inj hhead
    have hoptions : q.options = q'.options := congrArg Fetch.options hfetch
    rw [hhead, htransaction, hoptions, hall]
  · obtain ⟨more, rs₁, c₁, q₁, hmore, hreading, hrest, hstill⟩ := hr.rests hw
    exact ⟨more, rs₁, c₁, q₁, hmore, hreading, hrest, hstill.deliveries, hstill.isOpen⟩

/-- A session, a transaction and a query in it. -/
def posed : List (Move String) :=
  [.call (.openSession "db" .data), .arrive ⟨1, .sessionOpened 7⟩, .resume,
    .call (.openTransaction 0 .read), .arrive ⟨2, .transactionOpened 9⟩, .resume,
    .call (.query 0 [113] {} Reader.text)]

/-- The answers are collected as they arrive. The one of the second batch is no text. -/
def collecting : List (Move String) := posed ++
  [.call (.collect 0 none), .arrive ⟨3, .data [97]⟩, .resume, .resume,
    .arrive ⟨3, .item (.continuation 5)⟩, .resume, .arrive ⟨3, .data [255]⟩, .resume,
    .arrive ⟨3, .item .completion⟩]

/-- The same answers, read through a stream when they have arrived. -/
def streaming : List (Move String) := posed ++
  [.arrive ⟨3, .data [97]⟩, .arrive ⟨3, .item (.continuation 5)⟩, .call (.start 0 none), .resume,
    .call (.next 0), .resume, .call (.next 0), .resume, .arrive ⟨3, .data [255]⟩,
    .arrive ⟨3, .item .completion⟩, .resume]

theorem ways_agree_badSecondBatch :
    ∃ (c c' : Client String) (rs rs' : List (Reply String)) (q q' : Query String),
      Reading none .execute 0 collecting rs c q ∧ Reading none .stream 0 streaming rs' c' q' ∧
      q.reader = q'.reader ∧ (c.link.frames q.lane).head? = (c'.link.frames q'.lane).head? ∧
      c.link.deliveries q.lane = c'.link.deliveries q'.lane ∧ c.link.isOpen = c'.link.isOpen ∧
      c.AtRest 0 rs ∧ c'.AtRest 0 rs' ∧ rs.length = 1 ∧ rs'.length = 3 ∧
      (gathered rs).2 = (gathered rs').2 ∧ c.link.frames q.lane = c'.link.frames q'.lane ∧
      q.progress = q'.progress ∧ q.batchSizes = q'.batchSizes ∧ q'.batchSizes = [1] := by
  obtain ⟨c, hc⟩ : ∃ c : Client String, ((new none).runAll collecting).1 = c := ⟨_, rfl⟩
  obtain ⟨c', hc'⟩ : ∃ c' : Client String, ((new none).runAll streaming).1 = c' := ⟨_, rfl⟩
  have hb : c.link.issued ≤ 2 ^ 64 := by
    rw [← hc]
    decide +kernel
  have hb' : c'.link.issued ≤ 2 ^ 64 := by
    rw [← hc']
    decide +kernel
  have hview : c.queries[0]?.map (fun q => (q.lane, q.batchSizes)) = some (3, [1]) := by
    rw [← hc]
    decide +kernel
  have hview' : c'.queries[0]?.map (fun q => (q.lane, q.batchSizes)) = some (3, [1]) := by
    rw [← hc']
    decide +kernel
  have hlink : ((c.link.frames 3).head?, c.link.deliveries 3, c.link.isOpen) =
      ((c'.link.frames 3).head?, c'.link.deliveries 3, c'.link.isOpen) := by
    rw [← hc, ← hc']
    decide +kernel
  obtain ⟨q, hq, hp⟩ := Option.map_eq_some_iff.1 hview
  obtain ⟨q', hq', hp'⟩ := Option.map_eq_some_iff.1 hview'
  obtain ⟨hlane, -⟩ := Prod.mk.inj hp
  obtain ⟨hlane', hsizes'⟩ := Prod.mk.inj hp'
  have hreader : q.reader = q'.reader := by
    obtain ⟨t, text, options, hm⟩ := reader_mem hc hb hq
    obtain ⟨t', text', options', hm'⟩ := reader_mem hc' hb' hq'
    simp only [collecting, streaming, posed, List.cons_append, List.nil_append, List.mem_cons,
      Move.call.injEq, Call.query.injEq, reduceCtorEq, false_or, or_false, List.not_mem_nil]
      at hm hm'
    rw [hm.2.2.2, hm'.2.2.2]
  have hr : Reading none .execute 0 collecting ((new none).repliesTo 0 collecting) c q :=
    ⟨hc, hb, hq, by decide +kernel, rfl⟩
  have hr' : Reading none .stream 0 streaming ((new none).repliesTo 0 streaming) c' q' :=
    ⟨hc', hb', hq', by decide +kernel, rfl⟩
  have hrest : c.AtRest 0 ((new none).repliesTo 0 collecting) := .inl (by decide +kernel)
  have hrest' : c'.AtRest 0 ((new none).repliesTo 0 streaming) := .inl (by decide +kernel)
  obtain ⟨hfirst, hlink⟩ := Prod.mk.inj hlink
  obtain ⟨hsame, hopen⟩ := Prod.mk.inj hlink
  have hfirst : (c.link.frames q.lane).head? = (c'.link.frames q'.lane).head? := by
    rw [hlane, hlane', hfirst]
  have hsame : c.link.deliveries q.lane = c'.link.deliveries q'.lane := by
    rw [hlane, hlane', hsame]
  obtain ⟨hresult, hframes, hprogress, hsizes⟩ :=
    (ways_agree hr hr' hreader hfirst hsame hopen).1 hrest hrest'
  exact ⟨c, c', _, _, q, q', hr, hr', hreader, hfirst, hsame, hopen, hrest, hrest', by decide +kernel,
    by decide +kernel, hresult, hframes, hprogress, hsizes, hsizes'⟩

end Client

end QueryLanes
