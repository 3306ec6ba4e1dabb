import QueryLanes.Proofs.Lifecycle

/-!
# Collecting all answers of a query

A call that collects the answers of a query has what it read so far only while it runs. The query
does not fail of an answer that its reader refuses, but the call does, and what it has read goes
with it. `Reader.Loses` says what calls that failed one after the other have lost, `Solo.Gathers` ties it
to the query, and `Client.collected_after_losses` is what the first call that succeeds gives: what
the reader makes of the answers after those.
-/

namespace QueryLanes

variable {α : Type}

namespace Reader

variable {reader : Reader α} {before ps lost read : List Payload} {as got : List α} {p : Payload}
  {rs : List (Reply α)}

/-- What the reader makes of payloads after those it was handed before; it refuses none of them. -/
inductive Accepts (reader : Reader α) : List Payload → List Payload → List α → Prop
  | nil (before : List Payload) : Accepts reader before [] []
  | cons {before ps : List Payload} {p : Payload} {a : α} {as : List α}
      (h : reader before p = .ok a) (hs : Accepts reader (before ++ [p]) ps as) :
      Accepts reader before (p :: ps) (a :: as)

theorem Accepts.concat (h : reader.Accepts before ps as) {a : α}
    (hp : reader (before ++ ps) p = .ok a) : reader.Accepts before (ps ++ [p]) (as ++ [a]) := by
  induction h with
  | nil before =>
    rw [List.append_nil] at hp
    exact .cons hp (.nil _)
  | cons h _ ih => exact .cons h (ih (by rwa [List.append_assoc, List.singleton_append]))

/-- What is lost with calls that failed, in order. One that timed out had read nothing; one that
failed as the reader refused an answer had read those before it. -/
inductive Loses (reader : Reader α) : List (Reply α) → List Payload → Prop
  | nil : Loses reader [] []
  | timeout {rs : List (Reply α)} {lost : List Payload} (h : Loses reader rs lost) :
      Loses reader (rs ++ [.failed .timeout]) lost
  | refused {rs : List (Reply α)} {lost read : List Payload} {got : List α} {p : Payload}
      {e : Failure} (h : Loses reader rs lost) (hread : reader.Accepts lost read got)
      (hp : reader (lost ++ read) p = .error e) :
      Loses reader (rs ++ [.failed e]) (lost ++ read ++ [p])

/-- Nothing is lost where no call has failed of a refusal. -/
theorem Loses.eq_nil (h : reader.Loses rs lost)
    (hr : ∀ before p e, reader before p = .error e → .failed e ∉ rs) : lost = [] := by
  induction h with
  | nil => rfl
  | timeout _ ih => exact ih fun before p e he hm => hr before p e he (List.mem_append_left _ hm)
  | refused _ _ hp =>
    exact absurd (List.mem_append_right _ (List.mem_singleton.2 rfl)) (hr _ _ _ hp)

end Reader

/-- What a query is asked for of which answers are only collected. -/
def Ask.Collects (k : Ask) : Prop := (∃ bound, k = .collect bound) ∨ k = .drop

namespace Solo

variable {s : Solo α} {rs fs rest : List (Reply α)} {as : List α}

/-! ## The invariant -/

/-- What the call in progress has collected so far. -/
def got (s : Solo α) : List α :=
  match s.waiting with
  | some (.pull (.rest got)) => got
  | _ => []

theorem got_of_waiting_none (h : s.waiting = none) : s.got = [] := by
  unfold got
  rw [h]

theorem got_of_start {bound : Option Nat} {drain : Bool}
    (h : s.waiting = some (.start bound drain)) : s.got = [] := by
  unfold got
  rw [h]

theorem got_of_pull {got : List α} (h : s.waiting = some (.pull (.rest got))) : s.got = got := by
  unfold Solo.got
  rw [h]

/-- The payloads that the reader was handed are those that calls have lost which gave the replies,
and those of which the call in progress has collected the answers. -/
def Splits (s : Solo α) (rs : List (Reply α)) (got : List α) : Prop :=
  ∃ lost read, s.query.handed = lost ++ read ∧ s.query.reader.Loses rs lost ∧
    s.query.reader.Accepts lost read got

/-- A query of which answers have only been collected, and never all of them. -/
structure Gathers (rs : List (Reply α)) (s : Solo α) : Prop where
  going : s.query.progress ≠ .exhausted
  draining : ∀ p, s.waiting = some p → (∃ bound, p = .start bound true) ∨ p = .pull (.rest s.got)
  splits : s.query.held = true → s.query.progress.isOver = false → s.Splits rs s.got

/-- A query whose answers have been collected. -/
structure Gathered (rs : List (Reply α)) (as : List α) (s : Solo α) : Prop where
  exhausted : s.query.progress = .exhausted
  idle : s.waiting = none
  splits : s.Splits rs as

/-- What is said of a query and its reply when its calls have given the replies before. -/
def Gives (rs : List (Reply α)) (o : Solo α × Option (Reply α)) : Prop :=
  match o.2 with
  | some (.answers as) => Gathered rs as o.1
  | reply => Gathers (rs ++ reply.toList) o.1

theorem gathers_opening (transaction : UInt64) (text : Payload) (options : QueryOptions)
    (reader : Reader α) : Gathers [] (opening transaction text options reader) where
  going := nofun
  draining := nofun
  splits _ _ := ⟨[], [], rfl, .nil, .nil []⟩

/-- A query that has failed is collected no more. -/
theorem gathers_of_failed {e : Failure} (hp : s.query.progress = .failed e)
    (hw : s.waiting = none) : Gathers rs s where
  going := by
    rw [hp]
    nofun
  draining p hd := by
    rw [hw] at hd
    cases hd
  splits _ ho := by
    rw [hp] at ho
    cases ho

/-- Where no call waits, none has collected anything. -/
theorem gathers_of_idle (hp : s.query.progress ≠ .exhausted) (hw : s.waiting = none)
    (hs : s.query.held = true → s.query.progress.isOver = false → s.Splits rs []) :
    Gathers rs s where
  going := hp
  draining p hd := by
    rw [hw] at hd
    cases hd
  splits hheld ho := by
    rw [got_of_waiting_none hw]
    exact hs hheld ho

theorem gathers_of_start {bound : Option Nat} (hp : s.query.progress ≠ .exhausted)
    (hw : s.waiting = some (.start bound true))
    (hs : s.query.held = true → s.query.progress.isOver = false → s.Splits rs []) :
    Gathers rs s where
  going := hp
  draining p hd := by
    rw [hw] at hd
    cases hd
    exact .inl ⟨bound, rfl⟩
  splits hheld ho := by
    rw [got_of_start hw]
    exact hs hheld ho

theorem gathers_of_pull {got : List α} (hp : s.query.progress ≠ .exhausted)
    (hw : s.waiting = some (.pull (.rest got)))
    (hs : s.query.held = true → s.query.progress.isOver = false → s.Splits rs got) :
    Gathers rs s where
  going := hp
  draining p hd := by
    rw [hw] at hd
    cases hd
    rw [got_of_pull hw]
    exact .inr rfl
  splits hheld ho := by
    rw [got_of_pull hw]
    exact hs hheld ho

/-- Without a reply, what leaves the query alone leaves it where it was gathered. -/
theorem Gathers.outside (h : Gathers rs s) (line : Line) :
    Gives rs ({ s with line := line }, none) := by
  show Gathers (rs ++ []) _
  rw [List.append_nil]
  exact ⟨h.going, h.draining, h.splits⟩

/-! ## Looks -/

/-- With the failure of the query, nothing is collected any more. -/
theorem gives_fail (s : Solo α) (demand : Demand α) {q : Query α} {e : Failure}
    (hp : q.progress = .failed e) :
    Gives rs (replying { s with query := q.fuse demand } (.failed e)) :=
  gathers_of_failed ((q.progress_fuse demand).trans hp) rfl

theorem gives_pulled {got : List α} {d : Delivery} (hs : s.Splits rs got) :
    Gives rs (s.pulled (.rest got) d) := by
  obtain ⟨lost, read, hhanded, hlost, hread⟩ := hs
  have hpulls := s.pulls (.rest got) d
  generalize s.pulled (.rest got) d = o at hpulls ⊢
  cases hpulls with
  | answer _ hd => exact absurd rfl (hd got)
  | @got _ p _ hp =>
    rw [hhanded] at hp
    refine gathers_of_pull nofun rfl fun _ _ => ⟨lost, read ++ [p], ?_, ?_, hread.concat hp⟩
    · show s.query.handed ++ [p] = _
      rw [hhanded, List.append_assoc]
    · rwa [Option.toList_none, List.append_nil]
  | @refused _ p _ hp =>
    -- what the call has read is lost with it
    rw [hhanded] at hp
    refine gathers_of_idle nofun rfl fun _ _ =>
      ⟨lost ++ read ++ [p], [], ?_, hlost.refused hread hp, .nil _⟩
    show s.query.handed ++ [p] = _
    rw [hhanded, List.append_nil]
  | sent =>
    refine gathers_of_pull nofun rfl fun _ _ => ⟨lost, read, hhanded, ?_, hread⟩
    rwa [Option.toList_none, List.append_nil]
  | ended => exact ⟨rfl, rfl, lost, read, hhanded, hlost, hread⟩
  | unsent | failed | broken => exact gives_fail s _ rfl

theorem gives_started {d : Delivery} (hp : s.query.progress ≠ .exhausted) (hs : s.Splits rs []) :
    Gives rs (s.started true d) := by
  obtain ⟨lost, read, hhanded, hlost, hread⟩ := hs
  have hhears := s.hears true d
  generalize s.started true d = o at hhears ⊢
  cases hhears with
  | goesOn =>
    refine gathers_of_pull nofun rfl fun _ _ => ⟨lost, read, hhanded, ?_, hread⟩
    show s.query.reader.Loses (rs ++ []) lost
    rwa [List.append_nil]
  | timedOut =>
    exact gathers_of_idle hp rfl fun _ _ => ⟨lost, read, hhanded, hlost.timeout, hread⟩
  | failed => exact gathers_of_failed rfl rfl

theorem Gathers.take (h : Gathers rs s) (hst : Stands s) : Gives rs s.take := by
  obtain ⟨done, w, read, rest, hst⟩ := hst
  rcases s.take_cases with htake | ⟨bound, drain, d, line, hw, -, htake⟩ |
    ⟨demand, d, s', hw, hp, htake⟩ <;> rw [htake]
  · exact h.outside s.line
  · obtain ⟨hheld, hpend⟩ := hst.waiting _ hw
    have hover : s.query.progress.isOver = false := by rw [hpend]; rfl
    obtain ⟨_, hd⟩ | hd := h.draining _ hw
    · cases hd
      have hsplits := h.splits hheld hover
      rw [got_of_start hw] at hsplits
      exact gives_started h.going hsplits
    · cases hd
  · obtain ⟨hheld, hover⟩ := hst.waiting _ hw
    have hsplits := h.splits hheld hover
    obtain ⟨_, hd⟩ | hd := h.draining _ hw
    · cases hd
    · cases hd
      refine gives_pulled ?_
      unfold Splits
      rw [(level_poll hp).handed, reader_poll hp]
      exact hsplits

/-! ## Acts -/

theorem Gathers.giveUp (h : Gathers rs s) (hst : Stands s) : Gives rs s.giveUp := by
  rcases s.giveUp_cases with hgive | ⟨bound, drain, hw, hgive⟩ <;> rw [hgive]
  · exact h.outside s.line
  · obtain ⟨done, w, read, rest, hst⟩ := hst
    obtain ⟨hheld, hpend⟩ := hst.waiting _ hw
    have hsplits := h.splits hheld (by rw [hpend]; rfl)
    rw [got_of_start hw] at hsplits
    obtain ⟨lost, read, hhanded, hlost, hread⟩ := hsplits
    exact gathers_of_idle h.going rfl fun _ _ => ⟨lost, read, hhanded, hlost.timeout, hread⟩

theorem Gathers.ask (h : Gathers rs s) (hw : s.waiting = none) {k : Ask} (hk : k.Collects) :
    Gives rs (s.ask k) := by
  have hgoing : Gathers (rs ++ []) s := by rwa [List.append_nil]
  have hsplits := hgoing.splits
  rw [got_of_waiting_none hw] at hsplits
  have hasks := s.asks k
  generalize s.ask k = o at hasks ⊢
  cases hasks with
  | gone hh =>
    refine gathers_of_idle h.going rfl fun (hyes : s.query.held = true) _ => ?_
    rw [hh] at hyes
    cases hyes
  | drop => exact gathers_of_idle h.going rfl nofun
  | fused | done | broken => obtain ⟨_, hk⟩ | hk := hk <;> cases hk
  | ended _ _ hp => exact absurd hp h.going
  | failed _ _ hp => exact gives_fail s _ hp
  | waits _ hb =>
    cases hb with
    | start => obtain ⟨_, hk⟩ | hk := hk <;> cases hk
    | collect => exact gathers_of_start h.going rfl hsplits
  | pulls _ hwants =>
    cases hwants with
    | answer | item => obtain ⟨_, hk⟩ | hk := hk <;> cases hk
    | rest => exact gathers_of_pull h.going rfl hsplits

/-- Every act on a query of which answers are only collected keeps account of what was lost. -/
theorem Gathers.act (h : Gathers rs s) (hst : Stands s) {a : Act} (ha : s.Allows a)
    (hk : ∀ k, a = .ask k → k.Collects) : Gives rs (s.act a) := by
  cases a with
  | ask k => exact h.ask ha (hk k rfl)
  | take => exact h.take hst
  | giveUp => exact h.giveUp hst
  | heard r => exact h.outside _
  | transactionEnded | sessionEnded | lost => exact h.outside _

theorem Gathered.act (h : Gathered rs as s) (a : Act) : Gathered rs as (s.act a).1 := by
  have hover : Over .exhausted s.query.batchSizes (s.line.waves.map (·.request)) s :=
    ⟨h.exhausted, rfl, rfl, h.idle⟩
  have hnext := hover.act rfl a
  refine ⟨hnext.progress, hnext.idle, ?_⟩
  have hhanded : (s.act a).1.query.handed = s.query.handed := by
    cases a with
    | ask k => exact (mild_ask s k).level.handed
    | take => exact congrArg (·.1.query.handed) (take_of_waiting_none h.idle)
    | giveUp => exact (mild_giveUp s).level.handed
    | _ => rfl
  unfold Splits
  rw [hhanded, ((adds_act s a).grows).reader]
  exact h.splits

theorem Gathered.acts (h : Gathered rs as s) (acts : List Act) :
    Gathered rs as (s.acts acts).1 := by
  induction acts generalizing s with
  | nil => exact h
  | cons a acts ih => exact ih (h.act a)

/-- By induction on the acts, up to the first reply that gives answers. -/
theorem Gathers.acts (h : Gathers rs s) (hst : Stands s) {acts : List Act} (ho : s.Orderly acts)
    (hk : ∀ k, .ask k ∈ acts → k.Collects) (hr : (s.acts acts).2 = fs ++ .answers as :: rest)
    (hfirst : ∀ as, .answers as ∉ fs) : Gathered (rs ++ fs) as (s.acts acts).1 := by
  induction acts generalizing s rs fs with
  | nil => simp [Solo.acts] at hr
  | cons a acts ih =>
    have hgives := h.act hst ho.1 fun k hak => hk k (hak ▸ List.mem_cons_self)
    have hk' : ∀ k, .ask k ∈ acts → k.Collects := fun k hm => hk k (List.mem_cons_of_mem a hm)
    rw [acts_cons] at hr ⊢
    cases hreply : (s.act a).2 with
    | none =>
      unfold Gives at hgives
      rw [hreply] at hgives hr
      simp only [Option.toList_none, List.append_nil] at hgives
      exact ih hgives (hst.act a) ho.2 hk' hr hfirst
    | some reply =>
      unfold Gives at hgives
      rw [hreply] at hgives hr
      cases fs with
      | nil =>
        cases hr
        rw [List.append_nil]
        exact hgives.acts acts
      | cons f fs =>
        rw [Option.toList_some, List.singleton_append, List.cons_append] at hr
        obtain ⟨rfl, htail⟩ := List.cons.inj hr
        have hgoes : Gathers (rs ++ [reply]) (s.act a).1 := by
          cases reply with
          | answers v => exact absurd List.mem_cons_self (hfirst v)
          | _ => exact hgives
        have hlast := ih hgoes (hst.act a) ho.2 hk' htail fun v hv =>
          hfirst v (List.mem_cons_of_mem reply hv)
        rwa [List.append_assoc, List.singleton_append] at hlast

theorem mem_history_of_ask {acts : List Act} {k : Ask} (h : .ask k ∈ acts) (s : Solo α) :
    .ask k ∈ s.history acts := by
  induction acts generalizing s with
  | nil => cases h
  | cons a acts ih =>
    rw [history, List.mem_append]
    rcases List.mem_cons.1 h with rfl | h
    · exact .inl List.mem_cons_self
    · exact .inr (ih h _)

end Solo

namespace Client

variable {c : Client α} {h : Handle} {q : Query α}

/-- Where calls only collect the answers of a query, the first that succeeds gives what the reader
makes of the payloads after those that the calls before it have lost. Each of these timed out and
has lost nothing, or it failed as the reader refused an answer, and then has lost that answer and
all that it had read before. So nothing is missing where the reader refused nothing. -/
theorem collected_after_losses {timeout : Option Nat} {ms : List (Move α)}
    (hc : ((new timeout).runAll ms).1 = c) (hb : c.link.issued ≤ 2 ^ 64)
    (hq : c.queries[h]? = some q)
    (hk : ∀ k, .ask k ∈ (new timeout).history h ms → k.Collects)
    {fs rest : List (Reply α)} {as : List α}
    (hr : (new timeout).repliesTo h ms = fs ++ .answers as :: rest)
    (hfirst : ∀ as, .answers as ∉ fs) :
    (∃ lost read, (c.link.waves q.lane).flatMap (·.answers) = lost ++ read ∧
      q.reader.Loses fs lost ∧ q.reader.Accepts lost read as) ∧
    ((∀ before p e, q.reader before p = .error e → .failed e ∉ fs) →
      q.reader.Accepts [] ((c.link.waves q.lane).flatMap (·.answers)) as) := by
  subst hc
  obtain ⟨transaction, text, options, reader, acts, -, ho, hhist, hlast⟩ :=
    (Sound.empty (α := α) timeout).acts_opened hb rfl hq
  have hst := Stands.opening transaction text options reader
  have hgathered : Solo.Gathered ([] ++ fs) as (((new timeout).runAll ms).1.soloOf h q) := by
    have hsolo : _ = ((new timeout).runAll ms).1.soloOf h q := congrArg Prod.fst hlast
    rw [← hsolo]
    refine (Solo.gathers_opening transaction text options reader).acts hst ho (fun k hm => ?_)
      ((congrArg Prod.snd hlast).trans hr) hfirst
    exact hk k (hhist ▸ Solo.mem_history_of_ask hm _)
  obtain ⟨lost, read, hhanded, hlost, hread⟩ := hgathered.splits
  have hreach : ((new timeout).runAll ms).1.Reachable := ⟨timeout, ms, rfl⟩
  obtain ⟨done, w, seen, ahead, hst⟩ := hreach.stands hb hq
  have hall : (((new timeout).runAll ms).1.link.waves q.lane).flatMap (·.answers) =
      lost ++ read := by
    have hover : (((new timeout).runAll ms).1.soloOf h q).query.progress.isOver = true := by
      rw [hgathered.exhausted]
      rfl
    have hanswers := hst.answers
    rw [(hst.finished hover).1, List.append_nil] at hanswers
    rw [show ((new timeout).runAll ms).1.link.waves q.lane = done ++ [w] from hst.waves, ← hhanded,
      hst.handed, ← hanswers]
    simp
  refine ⟨⟨lost, read, hall, hlost, hread⟩, fun hnone => ?_⟩
  have hnil : lost = [] := Reader.Loses.eq_nil hlost hnone
  rw [hall, hnil]
  rwa [hnil] at hread

/-- A reader that refuses one payload. -/
def choosy : Reader Payload := fun _ p =>
  if p = [120] then .error (.decode "not a number") else .ok p

/-- A query whose second answer its reader refuses, collected twice. -/
def collectedTwice : List (Move Payload) :=
  [.call (.openSession "db" .data), .arrive ⟨1, .sessionOpened 7⟩, .resume,
    .call (.openTransaction 0 .read), .arrive ⟨2, .transactionOpened 9⟩, .resume,
    .call (.query 0 [113] {} choosy), .arrive ⟨3, .data [49]⟩, .arrive ⟨3, .data [120]⟩,
    .arrive ⟨3, .data [51]⟩, .arrive ⟨3, .item .completion⟩,
    .call (.collect 0 none), .resume, .resume, .resume,
    .call (.collect 0 none), .resume, .resume]

/-- The second call succeeds, with one of the three answers. -/
theorem collected_after_losses_twice :
    ∃ c : Client Payload, ((new none).runAll collectedTwice).1 = c ∧ c.link.issued ≤ 2 ^ 64 ∧
      (new none).repliesTo 0 collectedTwice =
        [.failed (.decode "not a number"), .answers [[51]]] ∧
      ∃ q, c.queries[0]? = some q ∧
        (c.link.waves q.lane).flatMap (·.answers) = [[49], [120], [51]] ∧
        ∃ lost read, [[49], [120], [51]] = lost ++ read ∧
          choosy.Loses [.failed (.decode "not a number")] lost ∧
          choosy.Accepts lost read [[51]] := by
  obtain ⟨c, hc⟩ : ∃ c : Client Payload, ((new none).runAll collectedTwice).1 = c := ⟨_, rfl⟩
  have hb : c.link.issued ≤ 2 ^ 64 := by
    rw [← hc]
    decide +kernel
  have hreplies : (new none).repliesTo 0 collectedTwice =
      [.failed (.decode "not a number")] ++ .answers [[51]] :: [] := by
    decide +kernel
  have hhistory : (new none).history 0 collectedTwice =
      [.heard (.data [49]), .heard (.data [120]), .heard (.data [51]), .heard (.item .completion),
        .ask (.collect none), .ask (.collect none)] := by
    decide +kernel
  have hanswers : c.queries[0]?.map (fun q => (c.link.waves q.lane).flatMap (·.answers)) =
      some [[49], [120], [51]] := by
    rw [← hc]
    decide +kernel
  obtain ⟨q, hq, hall⟩ := Option.map_eq_some_iff.1 hanswers
  have hreader : q.reader = choosy := by
    obtain ⟨t, text, options, hm⟩ := reader_mem hc hb hq
    simp [collectedTwice] at hm
    exact hm.2.2.2
  have hcollects : ∀ k, .ask k ∈ (new none).history 0 collectedTwice → k.Collects := by
    intro k hk
    rw [hhistory] at hk
    simp at hk
    exact .inl ⟨none, hk⟩
  have hfirst : ∀ as : List Payload, .answers as ∉ [Reply.failed (.decode "not a number")] := by
    simp
  obtain ⟨⟨lost, read, hsplit, hlost, hread⟩, -⟩ :=
    collected_after_losses hc hb hq hcollects hreplies hfirst
  rw [hreader] at hlost hread
  exact ⟨c, hc, hb, hreplies, q, hq, hall, lost, read, hall ▸ hsplit, hlost, hread⟩

end Client

end QueryLanes
