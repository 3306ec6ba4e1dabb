import QueryLanes.Proofs.Following

/-!
# Growth

What acts leave alone, and what they add: a query keeps its reader and what it asks for, and on its
line waves are added at the end, one for each token that a look pulls. What a call asks of a query at
once leaves even more alone, as `Mild` says.
-/

namespace QueryLanes

variable {α : Type}

namespace Solo

variable {s s' s'' : Solo α}

/-- What sends nothing and reads nothing. The query is the same but for whether it is held and whether
it has told of its failure. -/
structure Mild (s s' : Solo α) : Prop where
  line : s'.line.waves = s.line.waves ∧ s'.line.isOpen = s.line.isOpen
  query : ∃ held fused, s'.query = { s.query with held := held, fused := fused } ∧
    (held = true → s.query.held = true)

theorem Mild.progress (h : s.Mild s') : s'.query.progress = s.query.progress := by
  obtain ⟨held, fused, hq, -⟩ := h.query
  rw [hq]

theorem Mild.held (h : s.Mild s') (hh : s'.query.held = true) : s.query.held = true := by
  obtain ⟨held, fused, hq, hkeeps⟩ := h.query
  rw [hq] at hh
  exact hkeeps hh

theorem Mild.alike (h : s.Mild s') : s.query.Alike s'.query := by
  obtain ⟨held, fused, hq, -⟩ := h.query
  rw [hq]
  exact ⟨rfl, rfl, rfl⟩

theorem mild_of_query (hq : s'.query = s.query) (hw : s'.line.waves = s.line.waves)
    (ho : s'.line.isOpen = s.line.isOpen) : s.Mild s' :=
  ⟨⟨hw, ho⟩, s.query.held, s.query.fused, hq, id⟩

/-- What a call asks of a query is mild. -/
theorem mild_ask (s : Solo α) (k : Ask) : s.Mild (s.ask k).1 := by
  have h := s.asks k
  generalize s.ask k = o at h ⊢
  cases h with
  | drop => exact ⟨⟨rfl, rfl⟩, false, s.query.fused, rfl, nofun⟩
  | @failed _ demand =>
    obtain ⟨b, hb⟩ := s.query.exists_fuse demand
    rw [hb]
    exact ⟨⟨rfl, rfl⟩, s.query.held, b, rfl, id⟩
  | _ => exact mild_of_query rfl rfl rfl

theorem mild_giveUp (s : Solo α) : s.Mild s.giveUp.1 := by
  rcases s.giveUp_cases with h | ⟨-, -, -, h⟩ <;> rw [h] <;> exact mild_of_query rfl rfl rfl

end Solo

/-! ## Tokens -/

/-- The token that a delivery brings. -/
def Delivery.token? : Delivery → Option UInt64
  | .ok (.item i) => match i.meaning with
    | .continuation token => some token
    | _ => none
  | _ => none

theorem Delivery.token?_eq_some {d : Delivery} {token : UInt64} : d.token? = some token ↔
    ∃ i : Item, d = .ok (.item i) ∧ i.meaning = .continuation token := by
  unfold token?
  constructor
  · intro h
    split at h
    · rename_i i
      split at h
      · rename_i token' hi
        cases h
        exact ⟨i, rfl, hi⟩
      · cases h
    · cases h
  · rintro ⟨i, rfl, hi⟩
    dsimp only
    rw [hi]

/-- The next batch is asked for when a token comes, and only then. -/
theorem Query.consume_eq_more (q : Query α) (r : Response) (token : UInt64) :
    (q.consume r).2 = .more token ↔ Delivery.token? (.ok r) = some token := by
  cases r with
  | item i => cases hm : i.meaning <;> simp [consume, Delivery.token?, hm]
  | _ => simp [consume, Delivery.token?]

theorem Line.map_request_strike (l : Line) (e : Failure) :
    (l.strike e).waves.map (·.request) = l.waves.map (·.request) := by
  unfold strike
  split
  · exact Wave.map_request_modifyLast l.waves fun w => w.request_strike e
  · rfl

theorem Line.map_request_hear (l : Line) (r : Response) :
    (l.hear r).waves.map (·.request) = l.waves.map (·.request) := by
  unfold hear
  split
  · exact Wave.map_request_modifyLast l.waves fun w => w.request_hear r
  · rfl

namespace Solo

variable {s s' s'' : Solo α} {ts ts' : List UInt64}

/-- The token that a look pulls while the connection is open. -/
def token? (s : Solo α) : Option UInt64 :=
  match s.waiting with
  | some (.pull _) => if s.line.isOpen then s.poll.bind (·.1.token?) else none
  | _ => none

/-! ## What is added -/

/-- Requests for the next batch are added to the line, one for each of the tokens. -/
structure Adds (s s' : Solo α) (ts : List UInt64) : Prop where
  query : s.query.Alike s'.query
  requests : s'.line.waves.map (·.request) = s.line.waves.map (·.request) ++
    ts.map fun token => .fetch s.query.transaction (.continuation token s.query.options)

theorem adds_of_requests (hq : s.query.Alike s'.query)
    (hw : s'.line.waves.map (·.request) = s.line.waves.map (·.request)) : s.Adds s' [] :=
  ⟨hq, by rw [hw, List.map_nil, List.append_nil]⟩

theorem adds_of_same (hq : s.query.Alike s'.query) (hw : s'.line.waves = s.line.waves) :
    s.Adds s' [] := adds_of_requests hq (by rw [hw])

theorem Adds.trans (h : s.Adds s' ts) (h' : s'.Adds s'' ts') : s.Adds s'' (ts ++ ts') where
  query := h.query.trans h'.query
  requests := by
    rw [h'.requests, h.requests, h.query.transaction, h.query.options, List.map_append,
      List.append_assoc]

/-! ### Looks -/

/-- The wave that a token begins. -/
def nextWave (s : Solo α) (token : UInt64) : Wave :=
  { request := .fetch s.query.transaction (.continuation token s.query.options) }

theorem nextWave_congr (h : s.query.Alike s'.query) : s'.nextWave = s.nextWave := by
  funext token
  rw [nextWave, nextWave, h.transaction, h.options]

theorem alike_started (s : Solo α) (drain : Bool) (d : Delivery) :
    s.query.Alike (s.started drain d).1.query := by
  have h := s.hears drain d
  generalize s.started drain d = o at h ⊢
  cases h <;> exact ⟨rfl, rfl, rfl⟩

theorem alike_poll {d : Delivery} (h : s.poll = some (d, s')) : s.query.Alike s'.query := by
  rcases poll_cases h with ⟨r, -, -, rfl⟩ | ⟨-, line, -, rfl⟩ <;> exact ⟨rfl, rfl, rfl⟩

theorem alike_pulled (s : Solo α) (demand : Demand α) (d : Delivery) :
    s.query.Alike (s.pulled demand d).1.query := by
  have hfuse {q : Query α} (hq : s.query.Alike q) : s.query.Alike (q.fuse demand) :=
    hq.trans (q.lasts_fuse demand).toAlike
  have h := s.pulls demand d
  generalize s.pulled demand d = o at h ⊢
  cases h with
  | unsent | failed | broken => exact hfuse ⟨rfl, rfl, rfl⟩
  | _ => exact ⟨rfl, rfl, rfl⟩

/-- A token that is delivered is sent back while the connection is open, and nothing else is sent. -/
theorem line_pulled (s : Solo α) (demand : Demand α) (d : Delivery) :
    (s.pulled demand d).1.line = ((if s.line.isOpen then d.token? else none).map fun token =>
      s.line.renew (s.nextWave token).request).getD s.line := by
  have h := s.pulls demand d
  generalize s.pulled demand d = o at h ⊢
  cases h with
  | sent hi ho =>
    rw [if_pos ho, Delivery.token?_eq_some.2 ⟨_, rfl, hi⟩]
    rfl
  | unsent hi ho =>
    rw [if_neg (Bool.eq_false_iff.1 ho)]
    rfl
  | @failed _ r e he hc =>
    have hnone : Delivery.token? (.ok r) = none := by
      refine Option.eq_none_iff_forall_ne_some.2 fun token ht => ?_
      have hmore := (s.query.consume_eq_more r token).2 ht
      rw [hc] at hmore
      cases hmore
    rw [hnone, ite_self]
    rfl
  | answer | got | refused | ended | broken =>
    rw [show Delivery.token? _ = none from rfl, ite_self]
    rfl

theorem isOpen_pulled (s : Solo α) (demand : Demand α) (d : Delivery) :
    (s.pulled demand d).1.line.isOpen = s.line.isOpen := by
  rw [line_pulled]
  cases (if s.line.isOpen then d.token? else none) <;> rfl

theorem waves_pulled (s : Solo α) (demand : Demand α) (d : Delivery) :
    (s.pulled demand d).1.line.waves =
      s.line.waves ++ ((if s.line.isOpen then d.token? else none).map s.nextWave).toList := by
  rw [line_pulled]
  cases (if s.line.isOpen then d.token? else none) with
  | none => exact (List.append_nil _).symm
  | some token => rfl

theorem alike_take (s : Solo α) : s.query.Alike s.take.1.query := by
  rcases s.take_cases with htake | ⟨bound, drain, d, line, -, -, htake⟩ |
    ⟨demand, d, s', -, hp, htake⟩ <;> rw [htake]
  · exact ⟨rfl, rfl, rfl⟩
  · exact alike_started { s with line := line } drain d
  · exact (alike_poll hp).trans (alike_pulled s' demand d)

/-- A look begins a wave for the token that it pulls, and none else. -/
theorem waves_take (s : Solo α) :
    s.take.1.line.waves = s.line.waves ++ (s.token?.map s.nextWave).toList := by
  unfold token?
  cases hw : s.waiting with
  | none =>
    rw [take_of_waiting_none hw]
    exact (List.append_nil _).symm
  | some x =>
    cases x with
    | start bound drain =>
      rw [take_start hw]
      cases hp : s.line.poll with
      | none => exact (List.append_nil _).symm
      | some dl =>
        obtain ⟨d, line⟩ := dl
        dsimp only
        rw [line_started]
        exact (Line.same_poll hp).1.trans (List.append_nil _).symm
    | pull demand =>
      rw [take_pull hw]
      cases hp : s.poll with
      | none =>
        dsimp only [Option.bind_none]
        rw [ite_self]
        exact (List.append_nil _).symm
      | some ds =>
        obtain ⟨d, s'⟩ := ds
        dsimp only
        rw [waves_pulled, (same_poll hp).1, (same_poll hp).2, nextWave_congr (alike_poll hp)]
        rfl

/-! ### Acts -/

theorem Mild.adds (h : s.Mild s') : s.Adds s' [] := adds_of_same h.alike h.line.1

theorem adds_take (s : Solo α) : s.Adds s.take.1 s.token?.toList where
  query := s.alike_take
  requests := by
    rw [waves_take, List.map_append]
    cases s.token? <;> rfl

/-- An act adds requests only as a look that pulls a token. -/
theorem adds_act (s : Solo α) (a : Act) :
    s.Adds (s.act a).1 (if a = .take then s.token? else none).toList := by
  have hline (l : Line) (hl : l.waves.map (·.request) = s.line.waves.map (·.request)) :
      s.Adds { s with line := l } [] := adds_of_requests ⟨rfl, rfl, rfl⟩ hl
  cases a with
  | ask k => exact (mild_ask s k).adds
  | take => exact adds_take s
  | giveUp => exact (mild_giveUp s).adds
  | heard r => exact hline _ (s.line.map_request_hear r)
  | transactionEnded | sessionEnded => exact hline _ (s.line.map_request_strike _)
  | lost => exact hline s.line.lose (s.line.map_request_strike _)

/-! ## Growth -/

/-- The reader stays, and requests are only added. -/
structure Grows (s s' : Solo α) : Prop where
  reader : s'.query.reader = s.query.reader
  requests : s.line.waves.map (·.request) <+: s'.line.waves.map (·.request)

theorem Adds.grows (h : s.Adds s' ts) : s.Grows s' where
  reader := h.query.reader
  requests := h.requests ▸ List.prefix_append _ _

theorem Grows.trans (h : s.Grows s') (h' : s'.Grows s'') : s.Grows s'' :=
  ⟨h'.reader.trans h.reader, h.requests.trans h'.requests⟩

theorem grows_acts (s : Solo α) (as : List Act) : s.Grows (s.acts as).1 := by
  induction as generalizing s with
  | nil => exact ⟨rfl, List.prefix_rfl⟩
  | cons a as ih => exact (adds_act s a).grows.trans (ih _)

end Solo

end QueryLanes
