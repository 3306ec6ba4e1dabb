import QueryLanes.Proofs.Standing

/-!
# Conservation

No answer is lost, doubled or put out of order between the router and the reader of a query, and
nothing but the mark of completion ends a query without a failure: `Client.answers_conserved`.
-/

namespace QueryLanes

variable {α : Type}

/-! ## The end of a query -/

namespace Solo

/-- Replies that tell a caller of the end of a query. -/
inductive Ends : Reply α → Prop where
  | answer : Ends (.answer none)
  | answers (as : List α) : Ends (.answers as)

variable {s : Solo α} {r : Reply α}

theorem exhausted_of_ask {k : Ask} (h : (s.ask k).2 = some r) (hr : Ends r)
    (hk : k = .next → s.query.fused = false) : (s.ask k).1.query.progress = .exhausted := by
  have hasks := s.asks k
  generalize s.ask k = o at hasks h ⊢
  cases hasks with
  | ended _ _ hp => exact hp
  | fused _ hf =>
    rw [hk rfl] at hf
    cases hf
  | _ => cases h <;> cases hr

theorem exhausted_of_pulled {demand : Demand α} {d : Delivery} (h : (s.pulled demand d).2 = some r)
    (hr : Ends r) : (s.pulled demand d).1.query.progress = .exhausted := by
  have hpulls := s.pulls demand d
  generalize s.pulled demand d = o at hpulls h ⊢
  cases hpulls with
  | ended => rfl
  | _ => cases h <;> cases hr

theorem not_ends_started {drain : Bool} {d : Delivery} (h : (s.started drain d).2 = some r) :
    ¬ Ends r := by
  have hhears := s.hears drain d
  generalize s.started drain d = o at hhears h
  cases hhears <;> cases h <;> nofun

theorem exhausted_of_take (h : s.take.2 = some r) (hr : Ends r) :
    s.take.1.query.progress = .exhausted := by
  rcases take_cases s with htake | ⟨-, drain, d, line, -, -, htake⟩ |
    ⟨demand, d, s', -, -, htake⟩ <;> rw [htake] at h ⊢
  · cases h
  · exact absurd hr (not_ends_started h)
  · exact exhausted_of_pulled h hr

/-- A caller is told of the end of a query when the query is exhausted; by an iteration also after
it has reported a failure. -/
theorem exhausted_of_act {a : Act} (h : (s.act a).2 = some r) (hr : Ends r)
    (ha : a = .ask .next → s.query.fused = false) :
    (s.act a).1.query.progress = .exhausted := by
  cases a with
  | ask k => exact exhausted_of_ask h hr fun hk => ha (congrArg Act.ask hk)
  | take => exact exhausted_of_take h hr
  | giveUp =>
    have h : s.giveUp.2 = some r := h
    rcases s.giveUp_cases with hgive | ⟨-, -, -, hgive⟩ <;> rw [hgive] at h <;> cases h
    cases hr
  | heard r' => cases h
  | transactionEnded => cases h
  | sessionEnded => cases h
  | lost => cases h

end Solo

/-! ## Conservation -/

/-- A wave that another one continues was not ended by a failure. -/
theorem Wave.not_failed_of_isChain {transaction : UInt64} {options : QueryOptions} {done : List Wave}
    {w : Wave} (h : (done ++ [w]).IsChain (Continues transaction options)) {v : Wave}
    (hv : v ∈ done) (e : Failure) : v.ending ≠ some (.error e) := by
  induction done with
  | nil => cases hv
  | cons u done ih =>
    rcases List.mem_cons.1 hv with rfl | hv
    · intro he
      have hlast : ∃ x xs, done ++ [w] = x :: xs := by
        cases done with
        | nil => exact ⟨w, [], rfl⟩
        | cons x xs => exact ⟨x, xs ++ [w], rfl⟩
      obtain ⟨x, xs, hx⟩ := hlast
      rw [List.cons_append, hx, List.isChain_cons_cons] at h
      obtain ⟨token, ht, -⟩ := h.1
      rw [token?, he] at ht
      cases ht
    · exact ih (List.isChain_of_isChain_cons h) hv

namespace Client

/-- What is ahead for a query of the client. -/
def ahead (c : Client α) (q : Query α) : List Delivery := q.ahead (c.link.router.inbox? q.inbox)

/-- A move that takes a query on opens no lane. -/
theorem issued_of_concerns {c : Client α} {m : Move α} {h : Handle} (hm : c.concerns m h = true) :
    (c.step m).1.link.issued = c.link.issued := by
  cases m with
  | call k =>
    simp only [concerns, Bool.and_eq_true] at hm
    obtain ⟨ha, hk, -⟩ := (Option.any_eq_true _ _).1 hm.2
    exact issued_call_of_ask c hk
  | arrive f => cases hm
  | lose => cases hm
  | resume => exact issued_resume c
  | expire => exact issued_expire c

theorem ask_next_of_ownActs {c : Client α} {m : Move α} {h : Handle} {q : Query α}
    (hm : c.ownActs h q m = [.ask .next]) : m = .call (.next h) := by
  cases m with
  | call k =>
    simp only [ownActs] at hm
    split at hm
    · rename_i h' a _ hk
      split at hm
      · rename_i hh
        subst hh
        cases hm
        cases k <;> cases hk
        rfl
      · cases hm
    · cases hm
  | arrive f =>
    simp only [ownActs] at hm
    split at hm <;> cases hm
  | lose => cases hm
  | resume =>
    simp only [ownActs] at hm
    split at hm <;> cases hm
  | expire =>
    simp only [ownActs] at hm
    split at hm
    · split at hm
      · cases hm
      · split at hm <;> cases hm
    · cases hm

/-- A query that stands somewhere was handed the answers before that place, and the others are
ahead. -/
theorem conserved_of_stands {c : Client α} {h : Handle} {q : Query α} (hs : Stands (c.soloOf h q))
    (hheld : q.held = true) : q.handed ++ (c.ahead q).filterMap Delivery.payload? =
      (c.link.waves q.lane).flatMap (·.answers) := by
  obtain ⟨done, w, read, rest, hs⟩ := hs
  have hwaves : c.link.waves q.lane = done ++ [w] := hs.waves
  have hhanded : q.handed = done.flatMap (·.answers) ++ read := hs.handed
  have hahead : c.ahead q = _ := hs.ahead hheld
  have hrest : (c.ahead q).filterMap Delivery.payload? = rest := by
    rw [hahead, List.filterMap_append, filterMap_payload?_data]
    split
    · simp
    · cases he : w.ending with
      | none => simp
      | some d =>
        cases d with
        | error e => simp [Delivery.payload?]
        | ok r =>
          have ht := hs.terminal r he
          rw [Response.isTerminal_eq, Option.isNone_iff_eq_none] at ht
          simp [Delivery.payload?, ht]
  rw [hrest, hwaves, hhanded]
  simp [hs.answers]

/-- The payloads handed to the reader of a query, and those ahead for it, are the answers that were
routed to its lane, in order. A caller is told of the end of a query only when each wave but the
last ended in a token which began the next, the last in the mark of completion, and the reader was
given all answers: no failure passes for the end. The bound says that no lane was used for another
request. -/
theorem answers_conserved {c : Client α} (hc : c.Reachable) (hb : c.link.issued ≤ 2 ^ 64) :
    (∀ (h : Handle) q, c.query? h = some q →
      q.handed ++ (c.ahead q).filterMap Delivery.payload? =
        (c.link.waves q.lane).flatMap (·.answers)) ∧
    ∀ (h : Handle) q m r, c.queries[h]? = some q → c.concerns m h = true →
      (c.step m).2 = some r → Solo.Ends r → (m = .call (.next h) → q.fused = false) →
      ∃ q' done w, (c.step m).1.queries[h]? = some q' ∧
        (c.step m).1.link.waves q.lane = done ++ [w] ∧
        (done ++ [w]).IsChain (Wave.Continues q'.transaction q'.options) ∧
        w.ending = some (.ok (.item .completion)) ∧
        (∀ v ∈ done ++ [w], ∀ e, v.ending ≠ some (.error e)) ∧
        q'.handed = (done ++ [w]).flatMap (·.answers) := by
  refine ⟨fun h q hq => ?_, fun h q m r hq hcon hr hends hfused => ?_⟩
  · obtain ⟨hq, hheld⟩ := Option.filter_eq_some_iff.1 hq
    exact conserved_of_stands (hc.stands hb hq) hheld
  · have hb' : (c.step m).1.link.issued ≤ 2 ^ 64 := by rwa [issued_of_concerns hcon]
    have hstep := (hc.sound hb).step m hb'
    obtain ⟨a, q', hq', hl, hown, hreply, hsolo⟩ := hstep.replied hq hcon hr
    have hex : q'.progress = .exhausted := by
      have hp := Solo.exhausted_of_act hreply hends fun ha => hfused (by
        rw [ha] at hown
        exact ask_next_of_ownActs hown)
      exact (congrArg (·.query.progress) hsolo).trans hp
    obtain ⟨done, w, read, rest, hs⟩ := (hc.step m).stands hb' hq'
    have hover : (Client.soloOf (c.step m).1 h q').query.progress.isOver = true := by
      rw [show (Client.soloOf (c.step m).1 h q').query.progress = q'.progress from rfl, hex]
      rfl
    have hend := hs.exhausted hex
    refine ⟨q', done, w, hq', ?_, hs.linked, hend, fun v hv e => ?_, ?_⟩
    · rw [← hl]
      exact hs.waves
    · rcases List.mem_append.1 hv with hv | hv
      · exact Wave.not_failed_of_isChain hs.linked hv e
      · rw [List.mem_singleton.1 hv, hend]
        nofun
    · have hhanded : q'.handed = done.flatMap (·.answers) ++ read := hs.handed
      have hanswers := hs.answers
      rw [(hs.finished hover).1, List.append_nil] at hanswers
      simp [hhanded, hanswers]

/-- A query over two batches: one answer and a token, then the next batch is asked for and is empty.
The caller has not yet been told of its end. -/
def twoBatches : List (Move Payload) :=
  [.call (.openSession "db" .data), .arrive ⟨1, .sessionOpened 7⟩, .resume,
    .call (.openTransaction 0 .read), .arrive ⟨2, .transactionOpened 9⟩, .resume,
    .call (.query 0 [113] {} Reader.raw), .arrive ⟨3, .data [1]⟩,
    .arrive ⟨3, .item (.continuation 5)⟩,
    .call (.nextAnswer 0), .resume, .call (.nextAnswer 0), .resume,
    .arrive ⟨3, .item .completion⟩]

theorem answers_conserved_twoBatches :
    ∃ c : Client Payload, c = (runAll { requestTimeout := none } twoBatches).1 ∧
      c.link.issued ≤ 2 ^ 64 ∧ c.concerns .resume 0 = true ∧
      (c.step .resume).2 = some (.answer none) ∧
      ∃ q q' done w, c.query? 0 = some q ∧
        q.handed ++ (c.ahead q).filterMap Delivery.payload? =
          (c.link.waves q.lane).flatMap (·.answers) ∧
        (c.step .resume).1.queries[0]? = some q' ∧
        (c.step .resume).1.link.waves q.lane = done ++ [w] ∧
        (done ++ [w]).IsChain (Wave.Continues q'.transaction q'.options) ∧
        w.ending = some (.ok (.item .completion)) ∧
        (∀ v ∈ done ++ [w], ∀ e, v.ending ≠ some (.error e)) ∧
        q'.handed = (done ++ [w]).flatMap (·.answers) := by
  obtain ⟨c, hc⟩ : ∃ c : Client Payload, c = (runAll { requestTimeout := none } twoBatches).1 :=
    ⟨_, rfl⟩
  have hb : c.link.issued ≤ 2 ^ 64 := by
    rw [hc]
    decide +kernel
  have hcon : c.concerns .resume 0 = true := by
    rw [hc]
    decide +kernel
  have hr : (c.step .resume).2 = some (.answer none) := by
    rw [hc]
    decide +kernel
  have hheld : (c.query? 0).isSome = true := by
    rw [hc]
    decide +kernel
  obtain ⟨q, hq⟩ := Option.isSome_iff_exists.1 hheld
  obtain ⟨hkept, hend⟩ := answers_conserved ⟨none, twoBatches, hc⟩ hb
  obtain ⟨q', done, w, h⟩ := hend 0 q .resume (.answer none) (Option.filter_eq_some_iff.1 hq).1 hcon
    hr .answer nofun
  exact ⟨c, hc, hb, hcon, hr, q, q', done, w, hq, hkept 0 q hq, h⟩

end Client

end QueryLanes
