import QueryLanes.Proofs.Lasting
import QueryLanes.Proofs.Parting

/-!
# Refusing

A call that asks the server for something new is checked first: its options, and whether the
connection, the session and the transaction that it is made on are open. `Client.objections` lists
what may speak against a call, the weightiest first. The first that applies is what the caller is
told, and nothing else comes of the call; if none applies, its request goes out.

As the options are checked, no batch without room is ever asked for: not when a query is opened,
and as its options stay what they were, `Client.Roomy`, not later either.
`Client.refused_call_is_inert` is the main theorem.
-/

namespace QueryLanes

variable {α : Type}

namespace Call

/-- Whether a call is checked before anything comes of it. -/
def isChecked : Call α → Bool
  | .openSession _ _ | .openTransaction _ _ | .commit _ | .rollback _ | .query _ _ _ _ => true
  | _ => false

/-- What a call asks for beside the text of a query. -/
def options? : Call α → Option QueryOptions
  | .query _ _ options _ => some options
  | _ => none

/-- The check of the options of a call. -/
def validate (k : Call α) : Except Failure Unit := k.options?.elim (.ok ()) (·.validate)

end Call

/-- A request for a batch asks for one that has room. -/
def Request.Roomy : Request → Prop
  | .fetch _ f => f.options.validate = .ok ()
  | _ => True

namespace Client

variable {c c' : Client α} {k : Call α} {e : Failure} {h : Handle} {q x : Query α} {m : Move α}

/-- Whether the caller has what a call is made on. -/
def hasTarget (c : Client α) (k : Call α) : Bool :=
  match k.transaction?, k.session? with
  | some t, _ => (c.transaction? t).isSome
  | none, some s => (c.session? s).isSome
  | none, none => c.clones != 0

/-- The session that a call is made in. -/
def sessionOf? (c : Client α) (k : Call α) : Option Handle :=
  match k.transaction? with
  | some t => c.transactions[t]?.map (·.session)
  | none => k.session?

/-- Whether the transaction at a place has not been closed, held or not. -/
def transactionFlag (c : Client α) (t : Handle) : Bool := c.transactions[t]?.any (·.isOpen)

/-- What may speak against a call, the weightiest first, and whether it does. -/
def objections (c : Client α) (k : Call α) : List (Bool × Failure) :=
  [(k.options?.any (·.batchSize == .number 0), .misconfiguration (.batchSizeNotPositive 0)),
    (!c.link.isOpen, .connectionClosed),
    (!(c.sessionOf? k).all c.sessionFlag, .sessionClosed),
    (!k.transaction?.all c.transactionFlag, .transactionClosed)]

/-- The weightiest objection to a call, if there is one. -/
def objection? (c : Client α) (k : Call α) : Option Failure :=
  ((c.objections k).find? (·.1)).map (·.2)

/-! ## Refusals -/

theorem replying_of_idle (hw : c.waiting = none) (r : Reply α) : c.replying r = (c, some r) := by
  rw [replying, ← hw]

theorem validate_eq (k : Call α) : k.validate =
    if k.options?.any (·.batchSize == .number 0) = true then
      .error (.misconfiguration (.batchSizeNotPositive 0))
    else .ok () := by
  unfold Call.validate
  cases k.options? with
  | none => rfl
  | some o =>
    rw [Option.elim_some, QueryOptions.validate, Option.any_some]
    simp only [beq_iff_eq]

/-- Of a call on a transaction: the options count first, and then what `ensureOpen` finds. -/
theorem objection?_transaction {t : Handle} {y : Transaction} (hk : k.transaction? = some t)
    (hy : c.transaction? t = some y) : c.objection? k =
      match k.validate.bind fun _ => c.ensureOpen y with
      | .error e => some e
      | .ok () => none := by
  have hget := getElem?_of_transaction? hy
  rw [validate_eq]
  unfold objection? objections sessionOf? transactionFlag ensureOpen
  rw [hk]
  simp only [hget, Option.map_some, Option.all_some, Option.any_some]
  cases k.options?.any (·.batchSize == .number 0) <;> cases c.link.isOpen <;>
    cases c.sessionFlag y.session <;> cases y.isOpen <;> rfl

theorem objection?_transaction_eq_none {t : Handle} {y : Transaction}
    (hk : k.transaction? = some t) (hy : c.transaction? t = some y)
    (he : c.objection? k = none) : k.validate = .ok () ∧ c.ensureOpen y = .ok () := by
  rw [objection?_transaction hk hy] at he
  cases hv : k.validate with
  | error e =>
    rw [hv] at he
    cases he
  | ok =>
    cases ho : c.ensureOpen y with
    | error e =>
      rw [hv, ho] at he
      cases he
    | ok => exact ⟨rfl, rfl⟩

theorem objection?_session {s : Handle} {kind : TransactionKind} {y : Session}
    (hy : c.session? s = some y) : c.objection? (.openTransaction s kind : Call α) =
      if !c.link.isOpen then some .connectionClosed
      else if !y.isOpen then some .sessionClosed
      else none := by
  have hflag : c.sessionFlag s = y.isOpen := by
    rw [sessionFlag, getElem?_of_session? hy, Option.any_some]
  have hsession : c.sessionOf? (.openTransaction s kind) = some s := rfl
  unfold objection? objections
  rw [hsession, Option.all_some, hflag]
  cases c.link.isOpen <;> cases y.isOpen <;> rfl

theorem objection?_client {database : String} {kind : SessionKind} :
    c.objection? (.openSession database kind) =
      if !c.link.isOpen then some .connectionClosed else none := by
  unfold objection? objections
  cases c.link.isOpen <;> rfl

/-- A call to which there is an objection is refused with it, and nothing else comes of it. -/
theorem call_of_objection (hk : k.isChecked = true) (hw : c.waiting = none)
    (hh : c.hasTarget k = true) (he : c.objection? k = some e) :
    c.call k = (c, some (.failed e)) := by
  rw [← replying_of_idle hw]
  cases k with
  | openSession database kind =>
    have hclones : ¬ c.clones = 0 := bne_iff_ne.1 hh
    rw [objection?_client] at he
    rw [call_openSession hw, if_neg hclones]
    split_ifs at he ⊢
    cases he
    rfl
  | openTransaction s kind =>
    obtain ⟨y, hy⟩ := Option.isSome_iff_exists.1 hh
    rw [objection?_session hy] at he
    rw [call_openTransaction hw hy]
    split_ifs at he ⊢ <;> cases he <;> rfl
  | commit t =>
    obtain ⟨y, hy⟩ := Option.isSome_iff_exists.1 hh
    rw [objection?_transaction rfl hy] at he
    split at he <;> cases he
    exact call_commit_of_refused hw hy ‹_›
  | rollback t =>
    obtain ⟨y, hy⟩ := Option.isSome_iff_exists.1 hh
    rw [objection?_transaction rfl hy] at he
    split at he <;> cases he
    exact call_rollback_of_refused hw hy ‹_›
  | query t text options reader =>
    obtain ⟨y, hy⟩ := Option.isSome_iff_exists.1 hh
    rw [objection?_transaction rfl hy] at he
    split at he <;> cases he
    rw [call_query hw hy, openQuery_of_refused ‹_›]
  | _ => cases hk

/-- A call to which there is none sends its request. -/
theorem request?_of_no_objection (hk : k.isChecked = true) (hw : c.waiting = none)
    (hh : c.hasTarget k = true) (he : c.objection? k = none) : ∃ r, c.request? k = some r := by
  cases k with
  | openSession database kind =>
    rw [objection?_client] at he
    have hclones : ¬ c.clones = 0 := bne_iff_ne.1 hh
    have ho : c.link.isOpen = true := by
      split_ifs at he with ho
      simpa using ho
    refine ⟨.openSession database kind, ?_⟩
    unfold request?
    rw [hw]
    exact if_pos (And.intro hclones ho)
  | openTransaction s kind =>
    obtain ⟨y, hy⟩ := Option.isSome_iff_exists.1 hh
    rw [objection?_session hy] at he
    rw [request?_session hw rfl rfl, filter_bind hy]
    split_ifs at he with ho hs
    have hopen : c.sessionIsOpen y = true := by
      rw [sessionIsOpen, Bool.and_eq_true]
      exact ⟨by simpa using hs, by simpa using ho⟩
    rw [if_pos hopen]
    exact ⟨_, rfl⟩
  | commit t | rollback t =>
    obtain ⟨y, hy⟩ := Option.isSome_iff_exists.1 hh
    obtain ⟨-, ho⟩ := objection?_transaction_eq_none rfl hy he
    rw [request?_transaction hw rfl, filter_bind hy, transactionIsOpen, ho]
    exact ⟨_, rfl⟩
  | query t text options reader =>
    obtain ⟨y, hy⟩ := Option.isSome_iff_exists.1 hh
    obtain ⟨hv, ho⟩ := objection?_transaction_eq_none rfl hy he
    have hv : options.validate = .ok () := hv
    rw [request?_transaction hw rfl, filter_bind hy, transactionIsOpen, ho]
    have hfetch : y.request? (.query t text options reader) =
        some (.fetch y.id (.first text options)) := if_pos (by rw [hv]; rfl)
    exact ⟨_, hfetch⟩
  | _ => cases hk

/-! ## Batches have room -/

theorem roomy_new (timeout : Option Nat) : (new timeout : Client α).Roomy := by
  intro h q hq
  cases hq

theorem roomy_of_request? {r : Request} (hr : c.request? k = some r) : r.Roomy := by
  unfold request? at hr
  split at hr
  · cases hr
  · split at hr
    · obtain ⟨y, -, hr⟩ := Option.bind_eq_some_iff.1 hr
      cases k with
      | query t text options reader =>
        obtain ⟨hv, hr⟩ := Option.ite_none_right_eq_some.1 hr
        cases hr
        show options.validate = .ok ()
        cases hok : options.validate with
        | error e =>
          rw [hok] at hv
          cases hv
        | ok => rfl
      | _ => cases hr <;> trivial
    · obtain ⟨y, -, hr⟩ := Option.bind_eq_some_iff.1 hr
      cases k <;> cases hr <;> trivial
    · split at hr
      · obtain ⟨-, hr⟩ := Option.ite_none_right_eq_some.1 hr
        cases hr
        trivial
      · cases hr

/-- What a move sends asks for batches that have room. -/
theorem Roomy.sent_step (hc : c.Roomy) (ha : c.link.Aligned)
    (hs : ∀ f ∈ c.link.sent, f.body.Roomy) (m : Move α) :
    ∀ f ∈ (c.step m).1.link.sent, f.body.Roomy := by
  intro f hf
  by_cases hm : ∃ k, m = .call k
  · obtain ⟨k, rfl⟩ := hm
    rw [show (c.step (.call k)).1.link.sent = _ from (asks_call ha k).sent] at hf
    rcases List.mem_append.1 hf with hold | hnew
    · exact hs f hold
    · obtain ⟨r, hr, rfl⟩ := Option.map_eq_some_iff.1 (Option.mem_toList.1 hnew)
      exact roomy_of_request? hr
  · rcases fetches_step ha fun k hk => hm ⟨k, hk⟩ with hsilent | ⟨h, q, token, hq, -, hfetch⟩
    · rw [hsilent.sent] at hf
      exact hs f hf
    · rw [hfetch.sent] at hf
      rcases List.mem_append.1 hf with hold | hnew
      · exact hs f hold
      · rw [List.mem_singleton.1 hnew]
        exact hc h q hq

theorem roomy_runAll (hc : c.Roomy) (hfit : c.Fit) (hs : ∀ f ∈ c.link.sent, f.body.Roomy)
    (ms : List (Move α)) : ∀ f ∈ (c.runAll ms).1.link.sent, f.body.Roomy := by
  induction ms generalizing c with
  | nil => exact hs
  | cons m ms ih => exact ih (hc.step m) (hfit.step m) (hc.sent_step hfit.aligned hs m)

/-- **A refused call changes nothing.** In every state that is reached, a call that is checked is
refused if there is an objection to it, with the weightiest: a batch size of 0, then a closed
connection, a closed session, a closed transaction. The state is then the very same, so the rest of
the run is what it would have been without the call. If there is no objection, the call's request
goes out. Nothing that was sent asks for a batch of size 0, for the first batch of a query or for a
further one. -/
theorem refused_call_is_inert (timeout : Option Nat) (ms : List (Move α)) :
    let c := ((new timeout : Client α).runAll ms).1
    (∀ k : Call α, k.isChecked = true → c.waiting = none → c.hasTarget k = true →
      (∀ e, c.objection? k = some e → c.call k = (c, some (.failed e)) ∧
        ∀ rest, c.runAll (.call k :: rest) =
          ((c.runAll rest).1, .failed e :: (c.runAll rest).2)) ∧
      (c.objection? k = none → ∃ r, c.request? k = some r ∧
        (c.call k).1.link.sent = c.link.sent ++ [⟨c.link.nextLane, r⟩])) ∧
    ∀ f ∈ c.link.sent, ∀ transaction fetch, f.body = .fetch transaction fetch →
      fetch.options.batchSize ≠ .number 0 := by
  intro c
  have hfit : c.Fit := (fit_new timeout).runAll ms
  refine ⟨fun k hk hw hh => ⟨fun e he => ?_, fun he => ?_⟩,
    fun f hf transaction fetch hbody hzero => ?_⟩
  · have hcall := call_of_objection hk hw hh he
    refine ⟨hcall, fun rest => ?_⟩
    rw [runAll_cons, show c.step (.call k) = _ from hcall]
    rfl
  · obtain ⟨r, hr⟩ := request?_of_no_objection hk hw hh he
    have hsent := (asks_call hfit.aligned k).sent
    rw [hr] at hsent
    exact ⟨r, hr, hsent⟩
  · have hsent : ∀ f ∈ (new timeout : Client α).link.sent, f.body.Roomy :=
      fun f hf => absurd hf List.not_mem_nil
    have hroomy := roomy_runAll (roomy_new timeout) (fit_new timeout) hsent ms f hf
    rw [hbody] at hroomy
    have hroomy : fetch.options.validate = .ok () := hroomy
    rw [QueryOptions.validate, if_pos hzero] at hroomy
    cases hroomy

/-- A transaction in a session that is closed already. -/
def closedSession : List (Move Payload) :=
  [.call (.openSession "db" .data), .arrive ⟨1, .sessionOpened 7⟩, .resume,
    .call (.openTransaction 0 .read), .arrive ⟨2, .transactionOpened 9⟩, .resume,
    .call (.closeSession 0), .arrive ⟨3, .acknowledged⟩, .resume]

theorem refused_call_is_inert_closedSession :
    ∃ c : Client Payload, ((new none).runAll closedSession).1 = c ∧
      c.call (.query 0 [1] (.ofBatchSize (.number 0)) .raw) =
        (c, some (.failed (.misconfiguration (.batchSizeNotPositive 0)))) ∧
      c.call (.query 0 [1] {} .raw) = (c, some (.failed .sessionClosed)) ∧
      c.runAll [.call (.commit 0), .lose] =
        ((c.runAll [.lose]).1, .failed .sessionClosed :: (c.runAll [.lose]).2) := by
  refine ⟨_, rfl, ?_, ?_, ?_⟩
  · exact (((refused_call_is_inert none closedSession).1 _ rfl rfl rfl).1 _ rfl).1
  · exact (((refused_call_is_inert none closedSession).1 _ rfl rfl rfl).1 _ rfl).1
  · exact (((refused_call_is_inert none closedSession).1 _ rfl rfl rfl).1 _ rfl).2 [.lose]

end Client

end QueryLanes
