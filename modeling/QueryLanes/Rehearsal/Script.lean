import QueryLanes.Rehearsal.Stage

/-!
# Scripts

A script is a list of steps that use a client through named handles. A name may stand for a client,
a session, a transaction and a query at the same time; each step takes it as the first of these that
it is. Giving a name to something new gives up what had it, after the new handle was looked at.

- `Scene.perform` carries out a step and says what came of it;
- `Scene.report` is what can be seen after it.
-/

namespace QueryLanes.Rehearsal

/-- How a query is used: for all its answers, for a stream of them, or as an iterator. -/
inductive Use where
  | execute
  | stream
  | iterator
deriving DecidableEq, Repr

inductive Deed where
  | drop
  /-- The peer acts unasked. -/
  | server (actions : List Action)
  | session (database : String) (kind : SessionKind)
  | info
  | clone
  | close
  | transaction (kind : TransactionKind)
  | onClose (label : String)
  | query (use : Use) (text : Payload) (settings : List QueryOptions.Setting) (reading : Reading)
  | commit
  | rollback
  /-- Wait for the start, with or without a bound, and take answers up to the limit. -/
  | get (bound : Option Nat) (limit : Nat)
  | isDone
  | cancel
  | isCancelled
  | intoIterator
  | next
  | nextAnswer
  | pull (limit : Nat)
  | wait (bound : Option Nat)

structure Step where
  deed : Deed
  /-- The name of the handle used. -/
  subject : String := ""
  /-- The name for what is opened. -/
  object : Option String := none
  replies : Replies := []

/-- What came of a step. -/
inductive Result where
  | nothing
  | flag (b : Bool)
  | reply (r : Reply Answer)
  | opened
  | client (isOpen : Bool)
  | session (s : Session) (isOpen : Bool)
  /-- The session was opened by this step. -/
  | newSession (s : Session) (isOpen : Bool)
  | transaction (t : Transaction) (isOpen : Bool)
  | newTransaction (t : Transaction) (isOpen : Bool)
  | description (text : String)
  /-- What an iteration gave, and whether it came to its end. -/
  | items (items : List (Except Failure Answer)) (ended : Bool)
  | noSuchHandle
  /-- The call waits for what never comes, or does not apply to the handle. -/
  | stuck

structure Scene where
  stage : Stage Answer
  clients : List String := ["c"]
  sessions : List (String × Handle) := []
  transactions : List (String × Handle) := []
  queries : List (String × Handle × Use) := []

namespace Scene

def client (s : Scene) : Client Answer := s.stage.client

def session? (s : Scene) (name : String) : Option Handle := s.sessions.lookup name

def transaction? (s : Scene) (name : String) : Option Handle := s.transactions.lookup name

def query? (s : Scene) (name : String) : Option (Handle × Use) := s.queries.lookup name

/-- Bind a name in a table. -/
def bind {β : Type} (table : List (String × β)) (name : String) (b : β) : List (String × β) :=
  (name, b) :: table.filter (·.1 != name)

def unbind {β : Type} (table : List (String × β)) (name : String) : List (String × β) :=
  table.filter (·.1 != name)

def play (s : Scene) (k : Call Answer) : Scene × Result :=
  match s.stage.play k with
  | (stage, some r) => ({ s with stage := stage }, .reply r)
  | (stage, none) => ({ s with stage := stage }, .stuck)

/-- A call whose reply is of no interest. -/
def after (s : Scene) (k : Call Answer) : Scene := (s.play k).1

def sessionResult (s : Scene) (h : Handle) (result : Session → Bool → Result) : Result :=
  match s.client.sessions[h]? with
  | none => .noSuchHandle
  | some x => result x (s.client.sessionIsOpen x)

def transactionResult (s : Scene) (h : Handle) (result : Transaction → Bool → Result) : Result :=
  match s.client.transactions[h]? with
  | none => .noSuchHandle
  | some x => result x (s.client.transactionIsOpen x)

/-- Give up what a name stands for; the most dependent kind of handle goes first. -/
def drop (s : Scene) (name : String) : Scene × Result :=
  match s.query? name, s.transaction? name, s.session? name with
  | some (h, _), _, _ =>
    ({ s with queries := unbind s.queries name }.after (.dropQuery h), .flag true)
  | none, some h, _ =>
    ({ s with transactions := unbind s.transactions name }.after (.dropTransaction h), .flag true)
  | none, none, some h =>
    ({ s with sessions := unbind s.sessions name }.after (.dropSession h), .flag true)
  | none, none, none =>
    if s.clients.contains name then
      ({ s with clients := s.clients.erase name }.after .dropClient, .flag true)
    else (s, .flag false)

def nameSession (s : Scene) (name : String) (h : Handle) : Scene :=
  let named := { s with sessions := bind s.sessions name h }
  match s.session? name with
  | some old => named.after (.dropSession old)
  | none => named

def nameTransaction (s : Scene) (name : String) (h : Handle) : Scene :=
  let named := { s with transactions := bind s.transactions name h }
  match s.transaction? name with
  | some old => named.after (.dropTransaction old)
  | none => named

def nameQuery (s : Scene) (name : String) (h : Handle) (use : Use) : Scene :=
  let named := { s with queries := bind s.queries name (h, use) }
  match s.query? name with
  | some (old, _) => named.after (.dropQuery old)
  | none => named

/-- Iterate over a query, at most so many times. -/
def iterate (s : Scene) (h : Handle) : Nat → Scene × Result
  | 0 => (s, .items [] false)
  | limit + 1 =>
    match s.play (.next h) with
    | (s, .reply (.answer none)) => (s, .items [] true)
    | (s, .reply (.answer (some a))) => more s (.ok a) limit
    | (s, .reply (.failed e)) => more s (.error e) limit
    | (s, _) => (s, .stuck)
where
  /-- One item, and then the rest. -/
  more (s : Scene) (item : Except Failure Answer) (limit : Nat) : Scene × Result :=
    match s.iterate h limit with
    | (s, .items items ended) => (s, .items (item :: items) ended)
    | other => other

def onClient (s : Scene) (object : String) : Deed → Scene × Result
  | .session database kind =>
    match s.play (.openSession database kind) with
    | (s, .reply (.opened h)) => (s.nameSession object h, s.sessionResult h .newSession)
    | other => other
  | .info => (s, .client s.client.link.isOpen)
  | .clone =>
    if s.clients.contains object then (s, .nothing)
    else ({ s with clients := object :: s.clients }.after .clone, .nothing)
  | .close => (s.after .close, .nothing)
  | _ => (s, .stuck)

def onSession (s : Scene) (h : Handle) (object : String) : Deed → Scene × Result
  | .transaction kind =>
    match s.play (.openTransaction h kind) with
    | (s, .reply (.opened t)) => (s.nameTransaction object t, s.transactionResult t .newTransaction)
    | other => other
  | .onClose label => (s.after (.onClose h label), .nothing)
  | .close => s.play (.closeSession h)
  | .info => (s, s.sessionResult h .session)
  | _ => (s, .stuck)

def onTransaction (s : Scene) (h : Handle) (object : String) : Deed → Scene × Result
  | .query use text settings reading =>
    match QueryOptions.build settings with
    | .error e => (s, .reply (.failed e))
    | .ok options =>
      match s.play (.query h text options reading.reader) with
      | (s, .reply (.opened q)) => (s.nameQuery object q use, .opened)
      | other => other
  | .commit => s.play (.commit h)
  | .rollback => s.play (.rollback h)
  | .close => s.play (.closeTransaction h)
  | .info => (s, s.transactionResult h .transaction)
  | _ => (s, .stuck)

def onQuery (s : Scene) (name : String) (h : Handle) (use : Use) : Deed → Scene × Result
  | .get bound limit =>
    match use with
    | .execute => s.play (.collect h bound)
    | .stream =>
      match s.play (.start h bound) with
      | (s, .reply .done) => s.iterate h limit
      | other => other
    | .iterator => (s, .stuck)
  | .isDone => (s, .flag (s.client.queries[h]?.any fun q => q.isStarted s.client.link.router))
  | .cancel | .isCancelled => (s, .flag false)
  | .info => (s, match s.client.queries[h]? with
    | some q => .description q.describe
    | none => .noSuchHandle)
  | .intoIterator =>
    ({ s with queries := if use = .stream then bind s.queries name (h, .iterator) else s.queries },
      .nothing)
  | .next => s.play (if use = .iterator then .next h else .nextAnswer h)
  | .nextAnswer => s.play (.nextAnswer h)
  | .pull limit => s.iterate h limit
  | .wait bound => s.play (.start h bound)
  | _ => (s, .stuck)

def act (s : Scene) (step : Step) : Scene × Result :=
  let object := step.object.getD ""
  match step.deed with
  | .server actions => ({ s with stage := s.stage.unasked actions }, .nothing)
  | .drop => s.drop step.subject
  | deed =>
    if s.clients.contains step.subject then s.onClient object deed
    else match s.session? step.subject, s.transaction? step.subject, s.query? step.subject with
      | some h, _, _ => s.onSession h object deed
      | none, some h, _ => s.onTransaction h object deed
      | none, none, some (h, use) => s.onQuery step.subject h use deed
      | none, none, none => (s, .noSuchHandle)

/-- Carry out a step. The replies scripted for it are forgotten after it. -/
def perform (s : Scene) (step : Step) : Scene × Result :=
  let ready := { s with stage := { s.stage with peer := s.stage.peer.follow step.replies } }
  let (s, result) := ready.act step
  ({ s with stage := { s.stage with peer := s.stage.peer.follow [] } }, result)

/-! ## What can be seen -/

/-- Whether any name stands for anything. -/
def isHeld (s : Scene) : Bool :=
  !(s.clients.isEmpty && s.sessions.isEmpty && s.transactions.isEmpty && s.queries.isEmpty)

/-- The state of a query as it shows between steps. -/
structure QueryReport where
  progress : Progress
  batchSizes : List Nat
  started : Bool

structure Report where
  result : Result
  /-- The frames sent in this step, unless nobody is left to have sent them. -/
  sent : Option (List ClientFrame)
  /-- Whether the client is open, as long as someone holds it. -/
  isOpen : Option Bool
  standing : Standing
  /-- The callbacks that ran in this step. -/
  ran : List String
  query : Option QueryReport

/-- What a query named by the step looks like now. -/
def queryReport (s : Scene) (step : Step) : Option QueryReport :=
  let named := (step.object.bind s.query?).or (s.query? step.subject)
  named.bind fun (h, _) => s.client.queries[h]?.map fun q =>
    ⟨q.progress, q.batchSizes, q.isStarted s.client.link.router⟩

/-- Carry out a step and look at what there is to see. -/
def report (s : Scene) (step : Step) : Scene × Report :=
  let before := s.client.link
  let (s, result) := s.perform step
  let link := s.client.link
  (s, { result := result
        sent := if s.isHeld then some (link.sent.drop before.sent.length) else none
        isOpen := if s.clients.isEmpty then none else some link.isOpen
        standing := s.stage.standing
        ran := link.ran.drop before.ran.length
        query := s.queryReport step })

/-- The reports of a whole script. -/
def reports (s : Scene) : List Step → List Report
  | [] => []
  | step :: r =>
    let (s, report) := s.report step
    report :: s.reports r

end Scene

end QueryLanes.Rehearsal
