import QueryLanes.Proofs.Ageing
import QueryLanes.Proofs.Isolation
import QueryLanes.Proofs.Requests

/-!
# Parting

The server is told of an end once. A transaction can be committed, closed and dropped, its session
can be closed and dropped, and the connection can be lost, in any order; each of these leaves the
transaction over, `Client.TransactionOver`, and nothing is sent through one that is. It is the same
for a session and all its transactions, `Client.SessionOver`.

`Client.ended_once` says it of every run, by what the calls on one handle send in it.
-/

namespace QueryLanes

variable {α : Type}

/-- Whether a request ends the transaction that it names. -/
def Request.endsTransaction : Request → Bool
  | .commit _ | .closeTransaction _ => true
  | _ => false

/-- Whether a request ends the session that it names. -/
def Request.endsSession : Request → Bool
  | .closeSession _ => true
  | _ => false

namespace Client

variable {c c' : Client α} {t s : Handle} {m : Move α} {k : Call α}

/-- The move is a call that commits, closes or drops a transaction which the caller has. -/
def Finishes (c : Client α) (t : Handle) (m : Move α) : Prop :=
  ∃ k, m = .call k ∧ k.endsTransaction? = some t ∧ c.waiting = none ∧ (c.transaction? t).isSome = true

/-! ## Over -/

/-- A transaction takes no more requests: it is not open, or it waits for its commit. -/
def TransactionOver (c : Client α) (t : Handle) : Prop :=
  ∃ x, c.transactions[t]? = some x ∧
    (c.transactionIsOpen x = false ∨ ∃ i, c.waiting = some (.errand (.commit t) i))

def SessionOver (c : Client α) (s : Handle) : Prop :=
  ∃ y, c.sessions[s]? = some y ∧ c.sessionIsOpen y = false

theorem isOpen_step (ho : c.link.isOpen = false) (m : Move α) : (c.step m).1.link.isOpen = false := by
  rcases c.acts_step m with ⟨f, rfl⟩ | h
  · exact (isOpen_receive c.link f).trans ho
  · exact h.works.isOpen ho

/-- What is closed stays closed. -/
theorem Ages.closed (h : c.Ages c') {p : Parent} (hp : c.records.isOpen? p = some false) :
    c'.records.isOpen? p = some false := by
  cases p with
  | session s =>
    obtain ⟨y, hy, ho⟩ := Option.map_eq_some_iff.1 hp
    obtain ⟨y', hy', -, hopen⟩ := h.sessions s y hy
    refine Option.map_eq_some_iff.2 ⟨y', hy', Bool.eq_false_iff.2 fun h' => ?_⟩
    exact Bool.false_ne_true (ho.symm.trans (hopen h'))
  | transaction t =>
    obtain ⟨x, hx, ho⟩ := Option.map_eq_some_iff.1 hp
    obtain ⟨x', hx', -, -, hopen⟩ := h.transactions t x hx
    refine Option.map_eq_some_iff.2 ⟨x', hx', Bool.eq_false_iff.2 fun h' => ?_⟩
    exact Bool.false_ne_true (ho.symm.trans (hopen h'))

theorem closed_transaction {x : Transaction} (hx : c.transactions[t]? = some x)
    (ho : x.isOpen = false) : c.records.isOpen? (.transaction t) = some false :=
  Option.map_eq_some_iff.2 ⟨x, hx, ho⟩

theorem closed_session {y : Session} (hy : c.sessions[s]? = some y) (ho : y.isOpen = false) :
    c.records.isOpen? (.session s) = some false :=
  Option.map_eq_some_iff.2 ⟨y, hy, ho⟩

theorem transactionOver_of_closed (h : c.records.isOpen? (.transaction t) = some false) :
    c.TransactionOver t := by
  obtain ⟨x, hx, ho⟩ := Option.map_eq_some_iff.1 h
  refine ⟨x, hx, .inl ?_⟩
  rw [transactionIsOpen_eq, ho, Bool.and_false]

theorem sessionOver_of_closed (h : c.records.isOpen? (.session s) = some false) :
    c.SessionOver s := by
  obtain ⟨y, hy, ho⟩ := Option.map_eq_some_iff.1 h
  refine ⟨y, hy, ?_⟩
  rw [sessionIsOpen, ho, Bool.false_and]

/-- What is not open does not become open. -/
theorem SessionOver.step (h : c.SessionOver s) (m : Move α) : (c.step m).1.SessionOver s := by
  obtain ⟨y, hy, ho⟩ := h
  rcases Bool.and_eq_false_iff.1 ho with ho | ho
  · exact sessionOver_of_closed ((ages_step c m).closed (closed_session hy ho))
  · obtain ⟨y', hy', -⟩ := (ages_step c m).sessions s y hy
    refine ⟨y', hy', ?_⟩
    rw [sessionIsOpen, isOpen_step ho, Bool.and_false]

theorem transactionOver_step_of_not_open (hr : c.records.Rooted) {x : Transaction}
    (hx : c.transactions[t]? = some x) (ho : c.transactionIsOpen x = false) (m : Move α) :
    (c.step m).1.TransactionOver t := by
  obtain ⟨x', hx', hs, -⟩ := (ages_step c m).transactions t x hx
  rw [transactionIsOpen_eq, Bool.and_eq_false_iff, Bool.and_eq_false_iff] at ho
  rcases ho with (ho | ho) | ho
  · refine ⟨x', hx', .inl ?_⟩
    rw [transactionIsOpen_eq, isOpen_step ho, Bool.false_and, Bool.false_and]
  · -- the session is there, so no later one takes its place
    obtain ⟨y, hy, -⟩ : ∃ y, c.sessions[x.session]? = some y ∧ _ := hr x (List.mem_of_getElem? hx)
    rw [sessionFlag, hy, Option.any_some] at ho
    refine ⟨x', hx', .inl ?_⟩
    rw [transactionIsOpen_eq, hs, (ages_step c m).sessionFlag hy ho, Bool.and_false, Bool.false_and]
  · exact transactionOver_of_closed ((ages_step c m).closed (closed_transaction hx ho))

theorem getElem?_finishTransaction {x : Transaction} (hx : c.transactions[t]? = some x) :
    (c.finishTransaction t).transactions[t]? = some { x with isOpen := false } := by
  rw [finishTransaction_of_some hx]
  simp only [modifyTransaction, List.getElem?_modify, hx, if_true]
  rfl

theorem getElem?_endSession {y : Session} (hy : c.sessions[s]? = some y) (y' : Session) :
    (c.endSession s y').sessions[s]? = some { y with isOpen := false, callbacks := [] } := by
  simp only [endSession, modifySession, List.getElem?_modify, hy, if_true]
  rfl

/-- Whatever becomes of a commit, its transaction is closed. -/
theorem closed_commit {x : Transaction} (hx : c.transactions[t]? = some x)
    (d : Except Failure Response) :
    (c.conclude (.commit t) d).1.records.isOpen? (.transaction t) = some false :=
  ((Ages.refl (c.finishTransaction t)).replying _).closed
    (closed_transaction (getElem?_finishTransaction hx) rfl)

theorem transactionOver_commit {x : Transaction} (hx : c.transactions[t]? = some x)
    (d : Except Failure Response) : (c.conclude (.commit t) d).1.TransactionOver t :=
  transactionOver_of_closed (closed_commit hx d)

theorem TransactionOver.step (h : c.TransactionOver t) (hr : c.records.Rooted) (m : Move α) :
    (c.step m).1.TransactionOver t := by
  obtain ⟨x, hx, ho | ⟨i, hw⟩⟩ := h
  · exact transactionOver_step_of_not_open hr hx ho m
  · have hstays : c.TransactionOver t := ⟨x, hx, .inr ⟨i, hw⟩⟩
    have hfinds {o : Outcome α} (h : c.Finds o) : o.1.TransactionOver t := by
      cases h with
      | nothing => exact hstays
      | @errand i d r e hp hwait =>
        cases hw.symm.trans hwait
        exact transactionOver_commit
          (c := { c with link := { c.link with router := r.drop i } }) hx d
      | gaveUp e i hwait =>
        cases hw.symm.trans hwait
        exact transactionOver_commit (c := { c with link := c.link.dropInbox i }) hx _
      | start h drain hp hwait => cases hw.symm.trans hwait
      | pull h demand hp hwait => cases hw.symm.trans hwait
      | late hwait => cases hw.symm.trans hwait
    cases m with
    | call k =>
      have hidle : c.step (.call k) = (c, none) := call_of_waiting hw k
      rw [hidle]
      exact hstays
    | arrive f => exact ⟨x, hx, .inr ⟨i, hw⟩⟩
    | lose => exact ⟨x, hx, .inr ⟨i, hw⟩⟩
    | resume => exact hfinds c.finds_resume
    | expire => exact hfinds c.finds_expire

/-! ### Ends -/

/-- What is closed before its closing, or by it, is closed. -/
theorem closed_closing {p : Parent} {ended : Client α} {isOpen reports : Bool}
    (hbefore : isOpen = false → c.records.isOpen? p = some false)
    (hended : isOpen = true → ended.records.isOpen? p = some false)
    (hreports : reports = true → ended.link.isOpen = true) (e : Errand) (o : Owner)
    (request : Request) :
    (c.closing ended isOpen reports e o request).1.records.isOpen? p = some false := by
  have h := shuts c ended isOpen reports e o request
  generalize c.closing ended isOpen reports e o request = out at h ⊢
  cases h with
  | before ho => exact hbefore ho
  | told ho hr =>
    have hrun : ended.Acts (fun _ => True) (ended.run e o request).1 :=
      acts_run trivial trivial ended (hreports hr) (fun _ _ => trivial) o request
    exact hrun.ages.closed (hended ho)
  | silent ho => exact hended ho

theorem closed_quitting {p : Parent} {given ended : Client α} {isOpen reports : Bool}
    (hgiven : isOpen = false → given.records.isOpen? p = some false)
    (hended : isOpen = true → ended.records.isOpen? p = some false) (o : Owner)
    (request : Request) :
    (given.quitting ended isOpen reports o request).release.records.isOpen? p = some false := by
  have h := quits given ended isOpen reports o request
  generalize given.quitting ended isOpen reports o request = out at h ⊢
  rw [records_release]
  cases h with
  | before ho => exact hgiven ho
  | told ho => exact hended ho
  | silent ho => exact hended ho

theorem closed_closeTransaction {x : Transaction} (hx : c.transactions[t]? = some x) :
    (c.closeTransaction t x).1.records.isOpen? (.transaction t) = some false := by
  rw [closeTransaction_eq]
  exact closed_closing (closed_transaction hx)
    (fun _ => closed_transaction (getElem?_finishTransaction hx) rfl) isOpen_of_reportsClose _ _ _

theorem closed_closeSession {y : Session} (hy : c.sessions[s]? = some y) :
    (c.closeSession s y).1.records.isOpen? (.session s) = some false := by
  rw [closeSession_eq]
  exact closed_closing (closed_session hy)
    (fun _ => closed_session (getElem?_endSession hy y) rfl) id _ _ _

theorem closed_dropTransaction {x : Transaction} (hx : c.transactions[t]? = some x) :
    (c.dropTransaction t x).records.isOpen? (.transaction t) = some false := by
  have hgiven : (c.modifyTransaction t ({ · with held := false })).transactions[t]? =
      some { x with held := false } := by
    simp only [modifyTransaction, List.getElem?_modify, hx, if_true]
    rfl
  rw [dropTransaction_eq]
  exact closed_quitting (closed_transaction hgiven)
    (fun _ => closed_transaction (getElem?_finishTransaction hgiven) rfl) _ _

theorem closed_dropSession {y : Session} (hy : c.sessions[s]? = some y) :
    (c.dropSession s y).records.isOpen? (.session s) = some false := by
  have hgiven : (c.modifySession s ({ · with held := false })).sessions[s]? =
      some { y with held := false } := by
    simp only [modifySession, List.getElem?_modify, hy, if_true]
    rfl
  rw [dropSession_eq]
  exact closed_quitting (closed_session hgiven)
    (fun _ => closed_session (getElem?_endSession hgiven y) rfl) _ _

theorem Finishes.transactionOver (h : c.Finishes t m) : (c.step m).1.TransactionOver t := by
  obtain ⟨k, rfl, hk, hw, hx⟩ := h
  obtain ⟨x, hx⟩ := Option.isSome_iff_exists.1 hx
  have hget := getElem?_of_transaction? hx
  show (c.call k).1.TransactionOver t
  cases k with
  | commit t' =>
    cases hk
    cases ho : c.ensureOpen x with
    | error e =>
      rw [call_commit_of_refused hw hx ho]
      refine ⟨x, hget, .inl ?_⟩
      show (c.ensureOpen x).isOk = false
      rw [ho]
      rfl
    | ok u =>
      rw [call_commit hw hx ho]
      have h := c.runs (.commit t) x.owner (.commit x.id)
      generalize c.run (.commit t) x.owner (.commit x.id) = out at h ⊢
      cases h with
      | sent => exact ⟨x, hget, .inr ⟨_, rfl⟩⟩
      | @refused e l => exact transactionOver_commit (c := { c with link := l }) hget _
  | closeTransaction t' =>
    cases hk
    rw [call_closeTransaction hw hx]
    exact transactionOver_of_closed (closed_closeTransaction hget)
  | dropTransaction t' =>
    cases hk
    rw [call_dropTransaction hw hx]
    exact transactionOver_of_closed (c := ((c.dropTransaction t x).replying .done).1)
      (closed_dropTransaction hget)
  | _ => cases hk

theorem Closes.closed (h : c.Closes s m) :
    (c.step m).1.records.isOpen? (.session s) = some false := by
  obtain ⟨k, rfl, hk, hw, hy⟩ := h
  obtain ⟨y, hy⟩ := Option.isSome_iff_exists.1 hy
  have hget := getElem?_of_session? hy
  show (c.call k).1.records.isOpen? (.session s) = some false
  cases k with
  | closeSession s' =>
    cases hk
    rw [call_closeSession hw hy]
    exact closed_closeSession hget
  | dropSession s' =>
    cases hk
    rw [call_dropSession hw hy]
    exact closed_dropSession hget
  | _ => cases hk

/-! ### Nothing is sent through what is over -/

/-- Calls on a transaction. -/
def onTransaction (t : Handle) (_ : Client α) (k : Call α) : Bool := k.transaction? == some t

/-- Calls on a session. -/
def onSession (s : Handle) (_ : Client α) (k : Call α) : Bool := k.session? == some s

/-- Calls on the transactions of a session. -/
def within (s : Handle) (c : Client α) (k : Call α) : Bool :=
  (k.transaction?.bind (c.transactions[·]?)).any (·.session == s)

theorem TransactionOver.request? (h : c.TransactionOver t) (hk : onTransaction t c k = true) :
    c.request? k = none := by
  obtain ⟨x, hx, h⟩ := h
  cases hw : c.waiting with
  | some w =>
    unfold Client.request?
    rw [hw]
    rfl
  | none =>
    have ho : c.transactionIsOpen x = false := by
      rcases h with ho | ⟨i, hi⟩
      · exact ho
      · rw [hw] at hi
        cases hi
    rw [request?_transaction hw (eq_of_beq hk), Client.transaction?, hx]
    cases hheld : x.held <;> simp [hheld, ho]

theorem SessionOver.request? (h : c.SessionOver s) (hk : onSession s c k = true) :
    c.request? k = none := by
  obtain ⟨y, hy, ho⟩ := h
  have hs : k.session? = some s := eq_of_beq hk
  have ht : k.transaction? = none := by cases k <;> first | rfl | cases hs
  cases hw : c.waiting with
  | some w =>
    unfold Client.request?
    rw [hw]
    rfl
  | none =>
    rw [request?_session hw ht hs, Client.session?, hy]
    cases hheld : y.held <;> simp [hheld, ho]

theorem SessionOver.request?_within (h : c.SessionOver s) (hk : within s c k = true) :
    c.request? k = none := by
  obtain ⟨y, hy, ho⟩ := h
  unfold within at hk
  cases ht : k.transaction? with
  | none =>
    rw [ht] at hk
    cases hk
  | some t =>
    cases hx : c.transactions[t]? with
    | none =>
      rw [ht, Option.bind_some, hx] at hk
      cases hk
    | some x =>
      rw [ht, Option.bind_some, hx] at hk
      have hs : x.session = s := eq_of_beq hk
      refine TransactionOver.request? ⟨x, hx, .inl ?_⟩ (beq_iff_eq.2 ht)
      rw [transactionIsOpen_eq, sessionFlag, hs, hy, Option.any_some, Bool.and_comm c.link.isOpen,
        ← sessionIsOpen, ho, Bool.false_and]

/-- A call on a transaction that asks to end it does. -/
theorem finishes_of_request {r : Request} (hk : onTransaction t c k = true)
    (hr : c.request? k = some r) (hends : r.endsTransaction = true) : c.Finishes t (.call k) := by
  have ht : k.transaction? = some t := eq_of_beq hk
  cases hw : c.waiting with
  | some w =>
    unfold request? at hr
    rw [hw] at hr
    cases hr
  | none =>
    rw [request?_transaction hw ht] at hr
    obtain ⟨x, hx, hr⟩ := Option.bind_eq_some_iff.1 hr
    obtain ⟨hx, -⟩ := Option.filter_eq_some_iff.1 hx
    refine ⟨k, rfl, ?_, hw, by rw [hx]; rfl⟩
    cases k with
    | commit | closeTransaction | dropTransaction => exact ht
    | rollback t' =>
      cases hr
      cases hends
    | query t' text options reader =>
      obtain ⟨-, hr⟩ := Option.ite_none_right_eq_some.1 hr
      cases hr
      cases hends
    | _ => cases ht

/-- A call on a session that asks to end it does. -/
theorem closes_of_request {r : Request} (hk : onSession s c k = true)
    (hr : c.request? k = some r) (hends : r.endsSession = true) : c.Closes s (.call k) := by
  have hs : k.session? = some s := eq_of_beq hk
  have ht : k.transaction? = none := by cases k <;> first | rfl | cases hs
  cases hw : c.waiting with
  | some w =>
    unfold request? at hr
    rw [hw] at hr
    cases hr
  | none =>
    rw [request?_session hw ht hs] at hr
    obtain ⟨y, hy, hr⟩ := Option.bind_eq_some_iff.1 hr
    obtain ⟨hy, -⟩ := Option.filter_eq_some_iff.1 hy
    refine ⟨k, rfl, ?_, hw, by rw [hy]; rfl⟩
    cases k with
    | closeSession | dropSession => exact hs
    | openTransaction s' kind =>
      cases hr
      cases hends
    | onClose s' label => cases hr
    | _ => cases hs

/-! ## Runs -/

/-- The moves of a run, each with the client that makes it. -/
def trace (c : Client α) : List (Move α) → List (Client α × Move α)
  | [] => []
  | m :: ms => (c, m) :: (c.step m).1.trace ms

/-- What a run sends in the calls that `on` selects. -/
def sentOn (on : Client α → Call α → Bool) (run : List (Client α × Move α)) : List Request :=
  run.flatMap fun p => match p.2 with
    | .call k => if on p.1 k then p.1.sends p.2 else []
    | _ => []

theorem map_snd_trace (c : Client α) (ms : List (Move α)) : (c.trace ms).map Prod.snd = ms := by
  induction ms generalizing c with
  | nil => rfl
  | cons m ms ih => exact congrArg _ (ih _)

theorem trace_append (c : Client α) (ms ms' : List (Move α)) :
    c.trace (ms ++ ms') = c.trace ms ++ (c.runAll ms).1.trace ms' := by
  induction ms generalizing c with
  | nil => rfl
  | cons m ms ih => exact congrArg _ (ih _)

theorem trace_eq_append {ms : List (Move α)} {before after : List (Client α × Move α)}
    (h : c.trace ms = before ++ (c', m) :: after) :
    ∃ ms₁ ms₂, ms = ms₁ ++ m :: ms₂ ∧ before = c.trace ms₁ ∧ c' = (c.runAll ms₁).1 ∧
      after = (c'.step m).1.trace ms₂ := by
  induction before generalizing c ms with
  | nil =>
    cases ms with
    | nil => cases h
    | cons m' ms =>
      cases h
      exact ⟨[], ms, rfl, rfl, rfl, rfl⟩
  | cons p before ih =>
    cases ms with
    | nil => cases h
    | cons m' ms =>
      obtain ⟨hp, h⟩ := List.cons.inj h
      obtain ⟨ms₁, ms₂, rfl, rfl, hc', hafter⟩ := ih h
      cases hp
      exact ⟨m' :: ms₁, ms₂, rfl, rfl, hc', hafter⟩

/-- What the ends of handles rest on. -/
structure Fit (c : Client α) : Prop where
  aligned : c.link.Aligned
  rooted : c.records.Rooted

theorem fit_new (timeout : Option Nat) : (new timeout : Client α).Fit :=
  ⟨rfl, fun _ hx => absurd hx List.not_mem_nil⟩

theorem Fit.step (h : c.Fit) (m : Move α) : (c.step m).1.Fit :=
  ⟨aligned_step h.aligned m, rooted_step h.rooted m⟩

theorem Fit.runAll (h : c.Fit) (ms : List (Move α)) : (c.runAll ms).1.Fit := by
  induction ms generalizing c with
  | nil => exact h
  | cons m ms ih => exact ih (h.step m)

theorem Fit.sent_runAll (h : c.Fit) (ms : List (Move α)) :
    (c.runAll ms).1.link.sent.map (·.body) =
        c.link.sent.map (·.body) ++ (c.trace ms).flatMap (fun p => p.1.sends p.2) ∧
      ∀ p ∈ c.trace ms, p.1.SendsOnly p.2 := by
  induction ms generalizing c with
  | nil => exact ⟨(List.append_nil _).symm, fun _ hp => absurd hp List.not_mem_nil⟩
  | cons m ms ih =>
    obtain ⟨honly, hsent⟩ := sendsOnly_step h.aligned m
    obtain ⟨ihsent, ihonly⟩ := ih (h.step m)
    refine ⟨?_, fun p hp => ?_⟩
    · rw [runAll_cons, ihsent, hsent, List.append_assoc]
      rfl
    · rcases List.mem_cons.1 hp with rfl | hp
      · exact honly
      · exact ihonly p hp

/-- Once a client is in `I`, it stays there, and the calls that `on` selects ask for nothing. -/
structure Mutes (I : Client α → Prop) (on : Client α → Call α → Bool) : Prop where
  step : ∀ (c : Client α) m, c.Fit → I c → I (c.step m).1
  request? : ∀ (c : Client α) k, I c → on c k = true → c.request? k = none

section

variable {I : Client α → Prop} {on : Client α → Call α → Bool} {ends : Request → Bool}

theorem sentOn_cons (c : Client α) (m : Move α) (ms : List (Move α)) :
    sentOn on (c.trace (m :: ms)) = sentOn on [(c, m)] ++ sentOn on ((c.step m).1.trace ms) := by
  unfold sentOn
  rw [trace, List.flatMap_cons, List.flatMap_cons, List.flatMap_nil, List.append_nil]

theorem sentOn_call (hc : c.Fit) (k : Call α) :
    sentOn on [(c, .call k)] = if on c k then (c.request? k).toList else [] := by
  unfold sentOn
  rw [List.flatMap_cons, List.flatMap_nil, List.append_nil]
  dsimp only
  rw [sends_call_eq hc.aligned]

theorem Mutes.sentOn_eq_nil (h : Mutes I on) (hc : c.Fit) (hi : I c) (ms : List (Move α)) :
    sentOn on (c.trace ms) = [] := by
  induction ms generalizing c with
  | nil => rfl
  | cons m ms ih =>
    rw [sentOn_cons, ih (hc.step m) (h.step c m hc hi), List.append_nil]
    cases m with
    | call k =>
      rw [sentOn_call hc]
      split
      · rename_i hon
        rw [h.request? c k hi hon]
        rfl
      · rfl
    | _ => rfl

/-- A request that leads to `I` is sent at most once. -/
theorem Mutes.length_le_one (h : Mutes I on)
    (hends : ∀ (c : Client α) k r, on c k = true → c.request? k = some r → ends r = true →
      I (c.step (.call k)).1) (hc : c.Fit) (ms : List (Move α)) :
    ((sentOn on (c.trace ms)).filter ends).length ≤ 1 := by
  induction ms generalizing c with
  | nil => exact Nat.zero_le 1
  | cons m ms ih =>
    have ih := ih (hc.step m)
    rw [sentOn_cons, List.filter_append]
    cases hfirst : (sentOn on [(c, m)]).filter ends with
    | nil => exact ih
    | cons r rs =>
      -- the first request is the only one of its call, and after it there is none
      cases m with
      | call k =>
        rw [sentOn_call hc] at hfirst
        by_cases hon : on c k = true
        · rw [if_pos hon] at hfirst
          have hr : r ∈ (c.request? k).toList.filter ends := by rw [hfirst]; exact List.mem_cons_self
          obtain ⟨hr, hends'⟩ := List.mem_filter.1 hr
          have hr := Option.mem_toList.1 hr
          rw [h.sentOn_eq_nil (hc.step _) (hends c k r hon hr hends'), List.filter_nil,
            List.append_nil, ← hfirst, hr]
          exact List.length_filter_le ..
        · rw [if_neg hon] at hfirst
          cases hfirst
      | _ => cases hfirst

theorem Mutes.filter_eq (h : Mutes I on)
    (hends : ∀ (c : Client α) k r, on c k = true → c.request? k = some r → ends r = true →
      I (c.step (.call k)).1) {ms : List (Move α)} {before after : List (Client α × Move α)}
    (hc : c.Fit) (hrun : c.trace ms = before ++ (c', .call k) :: after) (hon : on c' k = true)
    {r : Request} (hr : c'.request? k = some r) (hr' : ends r = true) :
    (sentOn on (c.trace ms)).filter ends = [r] := by
  have hle := h.length_le_one hends hc ms
  obtain ⟨ms₁, ms₂, -, -, rfl, -⟩ := trace_eq_append hrun
  have hmem : r ∈ (sentOn on (c.trace ms)).filter ends := by
    refine List.mem_filter.2 ⟨?_, hr'⟩
    rw [hrun]
    refine List.mem_flatMap.2 ⟨_, List.mem_append_right _ List.mem_cons_self, ?_⟩
    dsimp only
    rw [if_pos hon, sends_call_eq (hc.runAll ms₁).aligned, hr]
    exact List.mem_cons_self
  obtain ⟨r', hsingle⟩ := List.length_eq_one_iff.1
    (Nat.le_antisymm hle (List.length_pos_of_mem hmem))
  rw [hsingle] at hmem ⊢
  rw [List.mem_singleton.1 hmem]

end

theorem mutes_transaction (t : Handle) :
    Mutes (fun c : Client α => c.TransactionOver t) (onTransaction t) where
  step _ m hc h := h.step hc.rooted m
  request? _ _ h hk := h.request? hk

theorem mutes_session (s : Handle) : Mutes (fun c : Client α => c.SessionOver s) (onSession s) where
  step _ m _ h := h.step m
  request? _ _ h hk := h.request? hk

theorem mutes_within (s : Handle) : Mutes (fun c : Client α => c.SessionOver s) (within s) where
  step _ m _ h := h.step m
  request? _ _ h hk := h.request?_within hk

/-- A session that nobody has closed in a run is open. -/
theorem untouched_runAll (hc : c.records.Untouched (.session s)) {ms : List (Move α)}
    (hms : ∀ p ∈ c.trace ms, ¬ p.1.Closes s p.2) :
    (c.runAll ms).1.records.Untouched (.session s) := by
  induction ms generalizing c with
  | nil => exact hc
  | cons m ms ih =>
    exact ih (untouched_step hc (hms _ List.mem_cons_self)) fun p hp =>
      hms p (List.mem_cons_of_mem _ hp)

/-- **One end for each handle.** In a run, whatever the server does in it: all that is sent is what
calls ask for, and requests for next batches. The calls on a transaction send at most one commit or
close, and one if the first of those that commit, close or drop it finds it open; after any of these
they send nothing. The calls on a session send at most one close, and one if the first that closes or
drops it finds the connection open; after any of these neither they nor the calls on the transactions
of the session send anything. -/
theorem ended_once (timeout : Option Nat) (ms : List (Move α)) :
    let run := (new timeout : Client α).trace ms
    (((new timeout).runAll ms).1.link.sent.map (·.body) = run.flatMap (fun p => p.1.sends p.2) ∧
      ∀ p ∈ run, p.1.SendsOnly p.2) ∧
    (∀ t, ((sentOn (onTransaction t) run).filter (·.endsTransaction)).length ≤ 1 ∧
      ∀ before c m after, run = before ++ (c, m) :: after → c.Finishes t m →
        sentOn (onTransaction t) after = [] ∧
        ∀ x, c.transaction? t = some x → c.transactionIsOpen x = true →
          ∃ k r, m = .call k ∧ x.request? k = some r ∧
            (sentOn (onTransaction t) run).filter (·.endsTransaction) = [r]) ∧
    ∀ s, ((sentOn (onSession s) run).filter (·.endsSession)).length ≤ 1 ∧
      ∀ before c m after, run = before ++ (c, m) :: after → c.Closes s m →
        sentOn (onSession s) after = [] ∧ sentOn (within s) after = [] ∧
        ((∀ p ∈ before, ¬ p.1.Closes s p.2) → c.link.isOpen = true →
          ∀ y, c.session? s = some y →
            (sentOn (onSession s) run).filter (·.endsSession) = [.closeSession y.id]) := by
  intro run
  have hfit : (new timeout : Client α).Fit := fit_new timeout
  -- a call that sends an end finds its handle open, and leaves it over
  have hfinish : ∀ t (c : Client α) k r, onTransaction t c k = true → c.request? k = some r →
      r.endsTransaction = true → (c.step (.call k)).1.TransactionOver t :=
    fun t c k r hk hr he => (finishes_of_request hk hr he).transactionOver
  have hclose : ∀ s (c : Client α) k r, onSession s c k = true → c.request? k = some r →
      r.endsSession = true → (c.step (.call k)).1.SessionOver s :=
    fun s c k r hk hr he => sessionOver_of_closed (closes_of_request hk hr he).closed
  refine ⟨hfit.sent_runAll ms, fun t => ⟨(mutes_transaction t).length_le_one (hfinish t) hfit ms,
    fun before c m after hrun hm => ?_⟩, fun s => ⟨(mutes_session s).length_le_one (hclose s) hfit ms,
    fun before c m after hrun hm => ?_⟩⟩
  · obtain ⟨ms₁, ms₂, -, -, rfl, rfl⟩ := trace_eq_append hrun
    have hfit' := (hfit.runAll ms₁).step m
    refine ⟨(mutes_transaction t).sentOn_eq_nil hfit' hm.transactionOver ms₂, fun x hx ho => ?_⟩
    obtain ⟨k, rfl, hk, hw, -⟩ := hm
    have ht : k.transaction? = some t := by cases k <;> first | exact hk | cases hk
    obtain ⟨r, hr, hends⟩ : ∃ r, x.request? k = some r ∧ r.endsTransaction = true := by
      cases k <;> first | exact ⟨_, rfl, rfl⟩ | cases hk
    have hreq : ((new timeout : Client α).runAll ms₁).1.request? k = some r := by
      rw [request?_transaction hw ht, filter_bind hx, if_pos ho, hr]
    exact ⟨k, r, rfl, hr, (mutes_transaction t).filter_eq (hfinish t) hfit hrun
      (beq_iff_eq.2 ht) hreq hends⟩
  · obtain ⟨ms₁, ms₂, -, rfl, rfl, rfl⟩ := trace_eq_append hrun
    have hfit' := (hfit.runAll ms₁).step m
    have hover := sessionOver_of_closed hm.closed
    refine ⟨(mutes_session s).sentOn_eq_nil hfit' hover ms₂,
      (mutes_within s).sentOn_eq_nil hfit' hover ms₂, fun hfirst hlink y hy => ?_⟩
    obtain ⟨k, rfl, hk, hw, -⟩ := hm
    have hs : k.session? = some s := by cases k <;> first | exact hk | cases hk
    have ht : k.transaction? = none := by cases k <;> first | rfl | cases hk
    have hr : y.request? k = some (.closeSession y.id) := by cases k <;> first | rfl | cases hk
    have ho : ((new timeout : Client α).runAll ms₁).1.sessionIsOpen y = true := by
      have hopen : y.isOpen = true := by
        by_contra hno
        have hclosed := closed_session (getElem?_of_session? hy) (Bool.eq_false_iff.2 hno)
        exact untouched_runAll (c := new timeout) nofun hfirst hclosed
      rw [sessionIsOpen, hopen, hlink]
      rfl
    have hreq : ((new timeout : Client α).runAll ms₁).1.request? k = some (.closeSession y.id) := by
      rw [request?_session hw ht hs, filter_bind hy, if_pos ho, hr]
    exact (mutes_session s).filter_eq (hclose s) hfit hrun (beq_iff_eq.2 hs) hreq rfl

/-- A commit is refused, and then everything is closed and dropped that can be. -/
def refusedCommit : List (Move Payload) :=
  [.call (.openSession "db" .data), .arrive ⟨1, .sessionOpened 7⟩, .resume,
    .call (.openTransaction 0 .write), .arrive ⟨2, .transactionOpened 9⟩, .resume,
    .call (.commit 0), .arrive ⟨3, .refused "conflict"⟩, .resume, .call (.closeTransaction 0),
    .call (.dropTransaction 0), .call (.dropSession 0), .call (.closeSession 0), .lose]

theorem ended_once_refusedCommit :
    (sentOn (onTransaction 0) ((new none).trace refusedCommit)).filter (·.endsTransaction) =
        [.commit 9] ∧
      (sentOn (onSession 0) ((new none).trace refusedCommit)).filter (·.endsSession) =
        [.closeSession 7] := by
  obtain ⟨-, htransaction, hsession⟩ := ended_once none refusedCommit
  constructor
  · obtain ⟨-, hone⟩ := (htransaction 0).2 _ _ _ _
      ((new none).trace_append (refusedCommit.take 6) (refusedCommit.drop 6))
      ⟨.commit 0, rfl, rfl, rfl, rfl⟩
    obtain ⟨k, r, hk, hr, hsent⟩ := hone ⟨0, 7, 9, .write, true, true⟩ rfl rfl
    cases hk
    cases hr
    exact hsent
  · obtain ⟨-, -, hone⟩ := (hsession 0).2 _ _ _ _
      ((new none).trace_append (refusedCommit.take 11) (refusedCommit.drop 11))
      ⟨.dropSession 0, rfl, rfl, rfl, rfl⟩
    refine hone ?_ rfl ⟨7, "db", .data, true, [], true⟩ rfl
    rintro p hp ⟨k, hk, hs, -⟩
    have hm : p.2 ∈ refusedCommit.take 11 := by
      rw [← map_snd_trace (new none) (refusedCommit.take 11)]
      exact List.mem_map_of_mem hp
    rw [hk] at hm
    simp only [refusedCommit, List.take_succ_cons, List.take_zero, List.mem_cons, Move.call.injEq,
      reduceCtorEq, List.not_mem_nil, or_false, false_or] at hm
    rcases hm with rfl | rfl | rfl | rfl | rfl <;> cases hs

end Client

end QueryLanes
