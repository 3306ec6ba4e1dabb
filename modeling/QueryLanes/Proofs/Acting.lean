import QueryLanes.Proofs.Outcomes
import QueryLanes.Proofs.Solo

/-!
# What acts come to

`Solo.Asks` lists what a query can come to when it is asked for something, `Solo.Pulls` what a call
that pulls can come to when it has a delivery, and `Solo.Hears` the same for a call that waits for the
start. What holds after every act is proved by these cases, as what holds after every move is by those
of `Client.Begins` and `Client.Finds`.
-/

namespace QueryLanes

variable {α : Type}

/-! ## Queries -/

namespace Query

@[simp] theorem progress_fuse (q : Query α) (demand : Demand α) :
    (q.fuse demand).progress = q.progress := by
  obtain ⟨b, hb⟩ := q.exists_fuse demand
  rw [hb]

/-- An iteration that reports the failure of its query is over. -/
theorem fused_fuse {q : Query α} {e : Failure} (hp : q.progress = .failed e) :
    (q.fuse .item).fused = true := by
  unfold fuse
  rw [hp]

theorem fused_fuse_of_fused {q : Query α} (hf : q.fused = true) (demand : Demand α) :
    (q.fuse demand).fused = true := by
  unfold fuse
  split
  · rfl
  · exact hf

theorem fuse_of_not_failed {q : Query α} (h : ∀ e, q.progress ≠ .failed e) (demand : Demand α) :
    q.fuse demand = q := by
  unfold fuse
  split
  · exact absurd ‹_› (h _)
  · rfl

theorem consume_data (q : Query α) (p : Payload) :
    q.consume (.data p) =
      ({ q with
          progress := .streaming
          inBatch := q.inBatch + 1
          handed := q.handed ++ [p] }, .answer (q.reader q.handed p)) := rfl

theorem consume_token (q : Query α) {i : Item} {token : UInt64}
    (hi : i.meaning = .continuation token) :
    q.consume (.item i) = ({ q.endBatch with progress := .continuing }, .more token) := by
  simp only [consume, hi]

end Query

theorem Item.eq_completion {i : Item} (h : i.meaning = .completion) : i = .completion := by
  obtain ⟨token, done, answer⟩ := i
  by_cases ht : token = 0 <;> cases done <;> cases answer <;> simp_all [meaning, completion]

/-- What ends a wave asks for the next one, ends the query, or fails it. -/
theorem Query.consume_terminal (q : Query α) {r : Response} (hr : r.isTerminal = true) :
    (∃ i token, r = .item i ∧ i.meaning = .continuation token ∧
      q.consume r = ({ q.endBatch with progress := .continuing }, .more token)) ∨
    (r = .item .completion ∧ q.consume r = ({ q.endBatch with progress := .exhausted }, .ended)) ∨
    (∃ e, e ≠ .connectionClosed ∧ q.consume r = (q.fail e, .failed e)) := by
  cases r with
  | item i =>
    cases hm : i.meaning with
    | data p => exact absurd hm (i.isLast_iff.1 hr p)
    | continuation token => exact .inl ⟨i, token, rfl, hm, q.consume_token hm⟩
    | completion =>
      exact .inr (.inl ⟨by rw [Item.eq_completion hm], by simp only [consume, hm]⟩)
    | malformed =>
      exact .inr (.inr ⟨.violation .malformedItem, by simp, by simp only [consume, hm]⟩)
  | refused description => exact .inr (.inr ⟨.server description, by simp, rfl⟩)
  | _ => exact .inr (.inr ⟨_, Client.violation_ne_connectionClosed _, rfl⟩)

/-- Whether nothing more comes of the query. -/
def Progress.isOver : Progress → Bool
  | .exhausted | .failed _ => true
  | .pending | .streaming | .continuing => false

theorem Progress.isOver_eq_false {p : Progress} :
    p.isOver = false ↔ p ≠ .exhausted ∧ ∀ e, p ≠ .failed e := by
  cases p <;> simp [isOver]

/-! ## What is asked for -/

/-- What a call on a query waits for when the server has not started to answer. -/
inductive Ask.Begins : Ask → Option Nat → Bool → Prop
  | start (bound : Option Nat) : Begins (.start bound) bound false
  | collect (bound : Option Nat) : Begins (.collect bound) bound true

/-- A call on a query that the caller does not have. -/
theorem Client.call_of_gone {c : Client α} {k : Call α} {h : Handle} {a : Ask}
    (hw : c.waiting = none) (hk : k.ask? = some (h, a)) (hq : c.query? h = none) :
    c.call k = c.replying .noSuchHandle := by
  cases k <;> cases hk <;> simp [call, hw, hq]

namespace Solo

/-- What a call on the query pulls. -/
inductive Wants (s : Solo α) : Ask → Demand α → Prop
  | answer : s.Wants .nextAnswer .answer
  | item (hf : s.query.fused = false) : s.Wants .next .item
  | rest (bound : Option Nat) (hp : s.query.progress ≠ .pending) :
      s.Wants (.collect bound) (.rest [])

/-- What a query can come to when it is asked for something. -/
inductive Asks (s : Solo α) : Ask → Solo α × Option (Reply α) → Prop
  | gone {k : Ask} (hh : s.query.held = false) : s.Asks k (s.replying .noSuchHandle)
  | drop (hh : s.query.held = true) : s.Asks .drop (replying
      { s with
        query := { s.query with held := false }
        line := { s.line with inbox := none } } .done)
  | fused (hh : s.query.held = true) (hf : s.query.fused = true) :
      s.Asks .next (s.replying (.answer none))
  | done (bound : Option Nat) (hh : s.query.held = true) (hp : s.query.progress ≠ .pending)
      (hf : ∀ e, s.query.progress ≠ .failed e) : s.Asks (.start bound) (s.replying .done)
  | broken {e : Failure} (bound : Option Nat) (hh : s.query.held = true)
      (hp : s.query.progress = .failed e) : s.Asks (.start bound) (s.replying (.failed e))
  | ended {k : Ask} {demand : Demand α} (hh : s.query.held = true) (hk : s.Wants k demand)
      (hp : s.query.progress = .exhausted) : s.Asks k (s.replying (Client.atEnd demand))
  | failed {k : Ask} {demand : Demand α} {e : Failure} (hh : s.query.held = true)
      (hk : s.Wants k demand) (hp : s.query.progress = .failed e) :
      s.Asks k (replying { s with query := s.query.fuse demand } (.failed e))
  | waits {k : Ask} {bound : Option Nat} {drain : Bool} (hh : s.query.held = true)
      (hk : k.Begins bound drain) (hp : s.query.progress = .pending) :
      s.Asks k ({ s with waiting := some (.start bound drain) }, none)
  | pulls {k : Ask} {demand : Demand α} (hh : s.query.held = true) (hk : s.Wants k demand)
      (hp : s.query.progress.isOver = false) :
      s.Asks k ({ s with waiting := some (.pull demand) }, none)

theorem failing_eq (s : Solo α) (demand : Demand α) (e : Failure) :
    s.failing demand e =
      replying { s with query := s.query.fuse demand } (.failed e) := by
  cases demand <;> cases hp : s.query.progress <;> simp only [failing, Query.fuse, hp]

theorem asks_beginPull {s : Solo α} {k : Ask} {demand : Demand α} (hh : s.query.held = true)
    (hk : s.Wants k demand) : s.Asks k (s.beginPull demand) := by
  unfold beginPull
  split
  · exact .ended hh hk ‹_›
  · rw [failing_eq]
    exact .failed hh hk ‹_›
  · exact .pulls hh hk (Progress.isOver_eq_false.2 ⟨‹_›, ‹_›⟩)

theorem asks_beginStart {s : Solo α} {k : Ask} {bound : Option Nat} {drain : Bool}
    (hh : s.query.held = true) (hk : k.Begins bound drain) :
    s.Asks k (s.beginStart bound drain) := by
  unfold beginStart
  split
  · exact .waits hh hk ‹_›
  · cases hk with
    | start => exact .broken bound hh ‹_›
    | collect => exact .failed hh (.rest bound fun hp => by simp_all) ‹_›
  · cases hk with
    | start => exact .done bound hh ‹_› ‹_›
    | collect => exact asks_beginPull hh (.rest bound ‹_›)

theorem asks (s : Solo α) (k : Ask) : s.Asks k (s.ask k) := by
  unfold ask
  cases hh : s.query.held with
  | false => exact .gone hh
  | true =>
    cases k with
    | start bound => exact asks_beginStart hh (.start bound)
    | collect bound => exact asks_beginStart hh (.collect bound)
    | nextAnswer => exact asks_beginPull hh .answer
    | next =>
      cases hf : s.query.fused with
      | true => exact .fused hh hf
      | false => exact asks_beginPull hh (.item hf)
    | drop => exact .drop hh

/-- A call that gives up says so, if it waits for the start. -/
theorem giveUp_cases (s : Solo α) : s.giveUp = (s, none) ∨
    ∃ bound drain, s.waiting = some (.start bound drain) ∧
      s.giveUp = s.replying (.failed .timeout) := by
  unfold giveUp
  split
  · exact .inr ⟨_, _, ‹_›, rfl⟩
  · exact .inl rfl
  · exact .inl rfl

theorem giveUp_of_not_start {s : Solo α}
    (h : ∀ bound drain, s.waiting ≠ some (.start bound drain)) : s.giveUp = (s, none) := by
  rcases s.giveUp_cases with hgive | ⟨bound, drain, hw, -⟩
  · exact hgive
  · exact absurd hw (h bound drain)

/-! ## Deliveries -/

/-- The caller who pulls is told what the reader says of an answer, or waits for the others. -/
def handOver (s : Solo α) : Demand α → Except Failure α → Solo α × Option (Reply α)
  | .rest got, .ok a => ({ s with waiting := some (.pull (.rest (got ++ [a]))) }, none)
  | .answer, .ok a | .item, .ok a => (s, some (.answer (some a)))
  | _, .error e => (s, some (.failed e))

theorem pulled_data (s : Solo α) (demand : Demand α) (p : Payload) :
    s.pulled demand (.ok (.data p)) =
      handOver { s with query := (s.query.consume (.data p)).1, waiting := none } demand
        (s.query.reader s.query.handed p) := by
  have hgoes : ∀ e, (s.query.consume (.data p)).1.progress ≠ .failed e := nofun
  have hfuse := Query.fuse_of_not_failed hgoes demand
  unfold pulled
  dsimp only
  rw [Query.consume_data] at hfuse ⊢
  cases s.query.reader s.query.handed p with
  | ok a => cases demand <;> rfl
  | error e =>
    dsimp only
    rw [failing_eq, hfuse]
    cases demand <;> rfl

theorem pulled_token {i : Item} {token : UInt64} (hi : i.meaning = .continuation token)
    (s : Solo α) (demand : Demand α) : s.pulled demand (.ok (.item i)) =
      if s.line.isOpen then
        ({ s with
          query := { s.query.endBatch with progress := .continuing }
          line := s.line.renew (.fetch s.query.transaction (.continuation token s.query.options))
          waiting := some (.pull demand) }, none)
      else replying { s with query := (s.query.endBatch.fail .connectionClosed).fuse demand }
        (.failed .connectionClosed) := by
  unfold pulled
  dsimp only
  rw [s.query.consume_token hi]
  dsimp only
  unfold fetchMore
  split
  · rfl
  · rw [failing_eq]
    rfl

theorem pulled_failed {r : Response} {e : Failure} {s : Solo α}
    (hc : s.query.consume r = (s.query.fail e, .failed e)) (demand : Demand α) :
    s.pulled demand (.ok r) =
      replying { s with query := (s.query.fail e).fuse demand } (.failed e) := by
  unfold pulled
  dsimp only
  rw [hc]
  dsimp only
  rw [failing_eq]

theorem pulled_error (s : Solo α) (demand : Demand α) (e : Failure) :
    s.pulled demand (.error e) =
      replying { s with query := (s.query.fail e).fuse demand } (.failed e) := by
  rw [pulled, failing_eq]

/-- What a call that pulls can come to when it has a delivery. -/
inductive Pulls (s : Solo α) : Demand α → Delivery → Solo α × Option (Reply α) → Prop
  | answer {demand : Demand α} {p : Payload} {a : α}
      (ha : s.query.reader s.query.handed p = .ok a) (hd : ∀ got, demand ≠ .rest got) :
      s.Pulls demand (.ok (.data p))
        (replying { s with query := (s.query.consume (.data p)).1 } (.answer (some a)))
  | got {got : List α} {p : Payload} {a : α} (ha : s.query.reader s.query.handed p = .ok a) :
      s.Pulls (.rest got) (.ok (.data p))
        ({ s with
          query := (s.query.consume (.data p)).1
          waiting := some (.pull (.rest (got ++ [a]))) }, none)
  | refused {demand : Demand α} {p : Payload} {e : Failure}
      (ha : s.query.reader s.query.handed p = .error e) : s.Pulls demand (.ok (.data p))
        (replying { s with query := (s.query.consume (.data p)).1 } (.failed e))
  | sent {demand : Demand α} {i : Item} {token : UInt64} (hi : i.meaning = .continuation token)
      (ho : s.line.isOpen = true) : s.Pulls demand (.ok (.item i))
        ({ s with
          query := { s.query.endBatch with progress := .continuing }
          line := s.line.renew (.fetch s.query.transaction (.continuation token s.query.options))
          waiting := some (.pull demand) }, none)
  | unsent {demand : Demand α} {i : Item} {token : UInt64} (hi : i.meaning = .continuation token)
      (ho : s.line.isOpen = false) : s.Pulls demand (.ok (.item i))
        (replying { s with query := (s.query.endBatch.fail .connectionClosed).fuse demand }
          (.failed .connectionClosed))
  | ended {demand : Demand α} : s.Pulls demand (.ok (.item .completion))
      (replying { s with query := { s.query.endBatch with progress := .exhausted } }
        (Client.atEnd demand))
  | failed {demand : Demand α} {r : Response} {e : Failure} (he : e ≠ .connectionClosed)
      (hc : s.query.consume r = (s.query.fail e, .failed e)) : s.Pulls demand (.ok r)
        (replying { s with query := (s.query.fail e).fuse demand } (.failed e))
  | broken {demand : Demand α} {e : Failure} : s.Pulls demand (.error e)
      (replying { s with query := (s.query.fail e).fuse demand } (.failed e))

theorem pulls (s : Solo α) (demand : Demand α) (d : Delivery) :
    s.Pulls demand d (s.pulled demand d) := by
  cases d with
  | error e =>
    rw [pulled_error]
    exact .broken
  | ok r =>
    cases ht : r.isTerminal with
    | false =>
      obtain ⟨p, rfl⟩ := Response.eq_data_of_not_isTerminal ht
      rw [pulled_data]
      cases ha : s.query.reader s.query.handed p with
      | ok a =>
        cases demand with
        | rest got => exact .got ha
        | answer | item => exact .answer ha nofun
      | error e => cases demand <;> exact .refused ha
    | true =>
      rcases s.query.consume_terminal ht with ⟨i, token, rfl, hi, -⟩ | ⟨rfl, -⟩ | ⟨e, he, hc⟩
      · rw [pulled_token hi]
        cases ho : s.line.isOpen with
        | true => exact .sent hi ho
        | false => exact .unsent hi ho
      · exact .ended
      · rw [pulled_failed hc]
        exact .failed he hc

/-- It comes to nothing else. -/
theorem Pulls.eq {s : Solo α} {demand : Demand α} {d : Delivery} {o : Solo α × Option (Reply α)}
    (h : s.Pulls demand d o) : s.pulled demand d = o := by
  cases h with
  | answer ha hd =>
    rw [pulled_data, ha]
    cases demand with
    | rest got => exact absurd rfl (hd got)
    | answer | item => rfl
  | got ha =>
    rw [pulled_data, ha]
    rfl
  | refused ha =>
    rw [pulled_data, ha]
    cases demand <;> rfl
  | sent hi ho => rw [pulled_token hi, if_pos ho]
  | unsent hi ho => rw [pulled_token hi, if_neg (Bool.eq_false_iff.1 ho)]
  | ended => rfl
  | failed _ hc => exact pulled_failed hc demand
  | broken => exact pulled_error ..

/-- What a call that waits for the start can come to when it has a delivery. -/
inductive Hears (s : Solo α) : Bool → Delivery → Solo α × Option (Reply α) → Prop
  | held {r : Response} :
      s.Hears false (.ok r) (replying { s with query := s.query.hold r } .done)
  | goesOn {r : Response} : s.Hears true (.ok r)
      ({ s with query := s.query.hold r, waiting := some (.pull (.rest [])) }, none)
  | timedOut {drain : Bool} :
      s.Hears drain (.error .timeout) (s.replying (.failed .timeout))
  | failed {drain : Bool} {e : Failure} (he : e ≠ .timeout) : s.Hears drain (.error e)
      (replying { s with query := s.query.fail e } (.failed e))

theorem hears (s : Solo α) (drain : Bool) (d : Delivery) :
    s.Hears drain d (s.started drain d) := by
  cases d with
  | ok r =>
    cases drain with
    | true => exact .goesOn
    | false => exact .held
  | error e =>
    cases e with
    | timeout => exact .timedOut
    | _ => exact .failed nofun

@[simp] theorem line_started (s : Solo α) (drain : Bool) (d : Delivery) :
    (s.started drain d).1.line = s.line := by
  have h := s.hears drain d
  generalize s.started drain d = o at h ⊢
  cases h <;> rfl

theorem started_error {e : Failure} (he : e ≠ .timeout) (s : Solo α) (drain : Bool) :
    s.started drain (.error e) = replying { s with query := s.query.fail e } (.failed e) := by
  have h := s.hears drain (.error e)
  generalize s.started drain (.error e) = o at h ⊢
  cases h with
  | timedOut => exact absurd rfl he
  | failed => rfl

end Solo

end QueryLanes
