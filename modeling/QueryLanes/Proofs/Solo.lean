import QueryLanes.Client.Step
import QueryLanes.Proofs.Wave

/-!
# A query by itself

A `Solo` is all that a query has to do with: its own state without its numbers (lane, inbox and
owner), its line, and whether a call on it waits. It knows no other query, no session, no
transaction and no router. `Solo.act` says what becomes of it when it is asked for something, when a
waiting call takes a delivery or gives up, when a response is heard on its line, when an owner ends,
and when the connection is lost.

`Client.soloOf` is the view of a query of a client as a `Solo`, and `Client.acts` what a move of the
client means for it.
-/

namespace QueryLanes

variable {α : Type}

/-- What a query is asked for. -/
inductive Ask where
  | start (bound : Option Nat)
  | nextAnswer
  | next
  | collect (bound : Option Nat)
  | drop
deriving DecidableEq, Repr

/-- The query that a call is made on, and what for. -/
def Call.ask? : Call α → Option (Handle × Ask)
  | .start h bound => some (h, .start bound)
  | .nextAnswer h => some (h, .nextAnswer)
  | .next h => some (h, .next)
  | .collect h bound => some (h, .collect bound)
  | .dropQuery h => some (h, .drop)
  | _ => none

/-- What a call on a query waits for. -/
inductive Pause (α : Type) where
  | start (bound : Option Nat) (drain : Bool)
  | pull (demand : Demand α)

/-- The wait as one on the query at a place, if it is. -/
def Wait.on (h : Handle) : Wait α → Option (Pause α)
  | .errand _ _ => none
  | .start h' bound drain => if h' = h then some (.start bound drain) else none
  | .pull h' demand => if h' = h then some (.pull demand) else none

/-- The query without its numbers. -/
def Query.unnumbered (q : Query α) : Query α := { q with lane := 0, owner := {}, inbox := 0 }

/-- One thing that happens to a query. -/
inductive Act where
  | ask (k : Ask)
  /-- The waiting call looks for its next delivery. -/
  | take
  | giveUp
  | heard (r : Response)
  | transactionEnded
  | sessionEnded
  | lost
deriving DecidableEq, Repr

structure Solo (α : Type) where
  query : Query α
  line : Line
  waiting : Option (Pause α) := none

namespace Solo

/-- A query right after its first request was sent. -/
def opening (transaction : UInt64) (text : Payload) (options : QueryOptions) (reader : Reader α) :
    Solo α where
  query :=
    { lane := 0, owner := {}, transaction := transaction, options := options, inbox := 0,
      reader := reader }
  line := ⟨true, [{ request := .fetch transaction (.first text options) }], some {}⟩

def replying (s : Solo α) (r : Reply α) : Solo α × Option (Reply α) :=
  ({ s with waiting := none }, some r)

def failing (s : Solo α) (demand : Demand α) (e : Failure) : Solo α × Option (Reply α) :=
  match demand, s.query.progress with
  | .item, .failed _ => replying { s with query := { s.query with fused := true } } (.failed e)
  | _, _ => s.replying (.failed e)

def beginPull (s : Solo α) (demand : Demand α) : Solo α × Option (Reply α) :=
  match s.query.progress with
  | .exhausted => s.replying (Client.atEnd demand)
  | .failed e => s.failing demand e
  | _ => ({ s with waiting := some (.pull demand) }, none)

def beginStart (s : Solo α) (bound : Option Nat) (drain : Bool) : Solo α × Option (Reply α) :=
  match s.query.progress with
  | .pending => ({ s with waiting := some (.start bound drain) }, none)
  | .failed e => s.replying (.failed e)
  | _ => if drain then s.beginPull (.rest []) else s.replying .done

def ask (s : Solo α) (k : Ask) : Solo α × Option (Reply α) :=
  if !s.query.held then s.replying .noSuchHandle
  else match k with
    | .start bound => s.beginStart bound false
    | .collect bound => s.beginStart bound true
    | .nextAnswer => s.beginPull .answer
    | .next => if s.query.fused then s.replying (.answer none) else s.beginPull .item
    | .drop =>
      replying { s with
        query := { s.query with held := false }
        line := { s.line with inbox := none } } .done

/-- The next batch is asked for. -/
def fetchMore (s : Solo α) (token : UInt64) (demand : Demand α) : Solo α × Option (Reply α) :=
  if s.line.isOpen then
    ({ s with
      line := s.line.renew
        (.fetch s.query.transaction (.continuation token s.query.options))
      waiting := some (.pull demand) }, none)
  else failing { s with query := s.query.fail .connectionClosed } demand .connectionClosed

def pulled (s : Solo α) (demand : Demand α) : Delivery → Solo α × Option (Reply α)
  | .error e => failing { s with query := s.query.fail e } demand e
  | .ok response =>
    match s.query.consume response with
    | (q, .answer (.ok a)) =>
      match demand with
      | .rest got => ({ s with query := q, waiting := some (.pull (.rest (got ++ [a]))) }, none)
      | .answer | .item => replying { s with query := q } (.answer (some a))
    | (q, .answer (.error e)) => failing { s with query := q } demand e
    | (q, .more token) => fetchMore { s with query := q } token demand
    | (q, .ended) => replying { s with query := q } (Client.atEnd demand)
    | (q, .failed e) => failing { s with query := q } demand e

def started (s : Solo α) (drain : Bool) : Delivery → Solo α × Option (Reply α)
  | .ok response =>
    if drain then
      ({ s with query := s.query.hold response, waiting := some (.pull (.rest [])) }, none)
    else replying { s with query := s.query.hold response } .done
  | .error .timeout => s.replying (.failed .timeout)
  | .error e => replying { s with query := s.query.fail e } (.failed e)

/-- What a pull finds: the stash, or else what the line delivers. -/
def poll (s : Solo α) : Option (Delivery × Solo α) :=
  match s.query.stash with
  | some r => some (.ok r, { s with query := { s.query with stash := none } })
  | none => s.line.poll.map fun (d, line) => (d, { s with line := line })

/-- The waiting call looks for its next delivery; with nothing there it goes on waiting. -/
def take (s : Solo α) : Solo α × Option (Reply α) :=
  match s.waiting with
  | none => (s, none)
  | some (.start _ drain) =>
    match s.line.poll with
    | none => (s, none)
    | some (d, line) => started { s with line := line } drain d
  | some (.pull demand) =>
    match s.poll with
    | none => (s, none)
    | some (d, s) => s.pulled demand d

def giveUp (s : Solo α) : Solo α × Option (Reply α) :=
  match s.waiting with
  | some (.start _ _) => s.replying (.failed .timeout)
  | some (.pull _) | none => (s, none)

def act (s : Solo α) : Act → Solo α × Option (Reply α)
  | .ask k => s.ask k
  | .take => s.take
  | .giveUp => s.giveUp
  | .heard r => ({ s with line := s.line.hear r }, none)
  | .transactionEnded => ({ s with line := s.line.strike .transactionClosed }, none)
  | .sessionEnded => ({ s with line := s.line.strike .sessionClosed }, none)
  | .lost => ({ s with line := s.line.lose }, none)

/-- Acts one after the other, and the replies they give. -/
def acts (s : Solo α) : List Act → Solo α × List (Reply α)
  | [] => (s, [])
  | a :: r =>
    let (s, reply) := s.act a
    let (s, replies) := s.acts r
    (s, reply.toList ++ replies)

/-- A call is not begun while another one waits. -/
def Takes (s : Solo α) (a : Act) : Prop := ∀ k, a = .ask k → s.waiting = none

theorem take_of_waiting_none {s : Solo α} (h : s.waiting = none) : s.take = (s, none) := by
  unfold take
  rw [h]

theorem take_start {s : Solo α} {bound : Option Nat} {drain : Bool}
    (h : s.waiting = some (.start bound drain)) :
    s.take = match s.line.poll with
      | none => (s, none)
      | some (d, line) => started { s with line := line } drain d := by
  unfold take
  rw [h]

theorem take_pull {s : Solo α} {demand : Demand α} (h : s.waiting = some (.pull demand)) :
    s.take = match s.poll with
      | none => (s, none)
      | some (d, s') => s'.pulled demand d := by
  unfold take
  rw [h]

/-- A pull finds the stash, or what the line delivers. -/
theorem poll_cases {s s' : Solo α} {d : Delivery} (h : s.poll = some (d, s')) :
    (∃ r, s.query.stash = some r ∧ d = .ok r ∧
      s' = { s with query := { s.query with stash := none } }) ∨
    (s.query.stash = none ∧ ∃ line, s.line.poll = some (d, line) ∧ s' = { s with line := line }) := by
  unfold poll at h
  cases hst : s.query.stash with
  | some r =>
    rw [hst] at h
    cases h
    exact .inl ⟨r, rfl, rfl, rfl⟩
  | none =>
    rw [hst] at h
    obtain ⟨⟨d', line⟩, hl, he⟩ := Option.map_eq_some_iff.1 h
    cases he
    exact .inr ⟨rfl, line, hl, rfl⟩

/-- A look finds nothing, or a delivery that the waiting call reads. -/
theorem take_cases (s : Solo α) :
    s.take = (s, none) ∨
    (∃ bound drain d line, s.waiting = some (.start bound drain) ∧ s.line.poll = some (d, line) ∧
      s.take = started { s with line := line } drain d) ∨
    (∃ demand d s', s.waiting = some (.pull demand) ∧ s.poll = some (d, s') ∧
      s.take = s'.pulled demand d) := by
  cases hw : s.waiting with
  | none => exact .inl (take_of_waiting_none hw)
  | some p =>
    cases p with
    | start bound drain =>
      have htake := take_start hw
      cases hp : s.line.poll with
      | none =>
        rw [hp] at htake
        exact .inl htake
      | some dl =>
        rw [hp] at htake
        exact .inr (.inl ⟨bound, drain, dl.1, dl.2, rfl, rfl, htake⟩)
    | pull demand =>
      have htake := take_pull hw
      cases hp : s.poll with
      | none =>
        rw [hp] at htake
        exact .inl htake
      | some ds =>
        rw [hp] at htake
        exact .inr (.inr ⟨demand, ds.1, ds.2, rfl, rfl, htake⟩)

theorem same_poll {s s' : Solo α} {d : Delivery} (h : s.poll = some (d, s')) :
    s'.line.waves = s.line.waves ∧ s'.line.isOpen = s.line.isOpen := by
  rcases poll_cases h with ⟨r, -, -, rfl⟩ | ⟨-, line, hl, rfl⟩
  · exact ⟨rfl, rfl⟩
  · exact Line.same_poll hl

theorem reader_poll {s s' : Solo α} {d : Delivery} (h : s.poll = some (d, s')) :
    s'.query.reader = s.query.reader := by
  rcases poll_cases h with ⟨r, -, -, rfl⟩ | ⟨-, line, -, rfl⟩ <;> rfl

theorem acts_cons (s : Solo α) (a : Act) (r : List Act) :
    s.acts (a :: r) =
      (((s.act a).1.acts r).1, (s.act a).2.toList ++ ((s.act a).1.acts r).2) := rfl

theorem acts_append (s : Solo α) (as bs : List Act) :
    s.acts (as ++ bs) = (((s.acts as).1.acts bs).1, (s.acts as).2 ++ ((s.acts as).1.acts bs).2) := by
  induction as generalizing s with
  | nil => rfl
  | cons a as ih =>
    rw [List.cons_append, acts_cons, acts_cons, ih]
    simp

end Solo

namespace Client

/-- The query at a place by itself. -/
def soloOf (c : Client α) (h : Handle) (q : Query α) : Solo α :=
  ⟨q.unnumbered, c.link.line q.lane q.inbox, c.waiting.bind (·.on h)⟩

/-- Whether some owner that was open before is not open after, and is the one that `own` selects. -/
def ended {β : Type} (isOpen own : β → Bool) (before after : List β) : Bool :=
  (before.zip after).any fun p => isOpen p.1 && !isOpen p.2 && own p.1

/-- Whether a transaction with the owner's number ends. -/
def endsTransaction (c c' : Client α) (o : Owner) : Bool :=
  ended (·.isOpen) (fun x => o.transaction == some x.id) c.transactions c'.transactions

/-- Whether a session with the owner's number ends. -/
def endsSession (c c' : Client α) (o : Owner) : Bool :=
  ended (·.isOpen) (fun x => o.session == some x.id) c.sessions c'.sessions

/-- What becomes of a query through the ends of others between two states. -/
def ends (c c' : Client α) (o : Owner) : List Act :=
  (if endsTransaction c c' o then [.transactionEnded] else []) ++
    (if endsSession c c' o then [.sessionEnded] else []) ++
    (if c.link.isOpen && !c'.link.isOpen then [.lost] else [])

def waitsOn (c : Client α) (h : Handle) : Bool := (c.waiting.bind (·.on h)).isSome

/-- What a move is for the query at a place, as far as it is about that query. -/
def ownActs (c : Client α) (h : Handle) (q : Query α) : Move α → List Act
  | .call k =>
    match c.waiting, k.ask? with
    | none, some (h', a) => if h' = h then [.ask a] else []
    | _, _ => []
  | .arrive f => if f.lane = q.lane then [.heard f.body] else []
  | .lose => []
  | .resume => if c.waitsOn h then [.take] else []
  | .expire =>
    if c.waitsOn h then
      if c.isReady then [.take] else if c.bound?.isSome then [.giveUp] else []
    else []

/-- What a move means for the query at a place. -/
def acts (c : Client α) (m : Move α) (h : Handle) (q : Query α) : List Act :=
  c.ownActs h q m ++ c.ends (c.step m).1 q.owner

/-- Whether a move begins a call on the query at a place or takes one on. -/
def concerns (c : Client α) (m : Move α) (h : Handle) : Bool :=
  match m with
  | .call k => c.waiting.isNone && k.ask?.any (·.1 == h)
  | .arrive _ | .lose => false
  | .resume | .expire => c.waitsOn h

end Client

end QueryLanes
