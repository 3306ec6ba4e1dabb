import QueryLanes.Proofs.Lasting
import QueryLanes.Proofs.Parting

/-!
# Serving

What one call comes to, for the caller who makes one call at a time and waits for its reply. As long
as there is no reply the call waits for what `Call.Leaves` names, and no session and no transaction
changes; what the reply says of them is `Client.Effect`. `Client.serves_call` says it of a call that
is begun, `Client.serves_move` of one that waits.

A transaction whose end was sent is over: `Client.Marked` says that no commit and no close names a
transaction that is still open.
-/

namespace QueryLanes

variable {α : Type}

/-! ## Requests in transactions -/

namespace Request

/-- The transaction that a request is for. -/
def within? : Request → Option UInt64
  | .commit id | .rollback id | .closeTransaction id | .fetch id _ => some id
  | _ => none

/-- The transaction that a request ends. -/
def ends? (r : Request) : Option UInt64 := if r.endsTransaction then r.within? else none

theorem ends?_eq_some {r : Request} {id : UInt64} :
    r.ends? = some id ↔ r.endsTransaction = true ∧ r.within? = some id := by
  rw [ends?, Option.ite_none_right_eq_some]

theorem ends?_of_continues {r : Request} (h : r.continues = true) : r.ends? = none := by
  cases r <;> first | rfl | cases h

end Request

theorem Transaction.within?_of_request {x : Transaction} {k : Call α} {r : Request}
    (hr : x.request? k = some r) : r.within? = some x.id := by
  cases k with
  | query t text options reader =>
    obtain ⟨-, hr⟩ := Option.ite_none_right_eq_some.1 hr
    cases hr
    rfl
  | commit | rollback | closeTransaction | dropTransaction =>
    cases hr
    rfl
  | _ => cases hr

theorem Transaction.id_of_owner {x x' : Transaction} (h : x'.owner = x.owner) : x'.id = x.id :=
  Option.some.inj (congrArg Owner.transaction h)

namespace Client

variable {c c' : Client α} {k : Call α} {m : Move α} {o : Outcome α} {h t : Handle} {q : Query α}

/-! ## Replies -/

/-- A call is over, or it waits. -/
def Answers (k : Call α) (o : Outcome α) : Prop :=
  (o.2.isSome = true ∧ o.1.waiting = none) ∨
    (o.2 = none ∧ ∃ w, o.1.waiting = some w ∧ k.Leaves w)

theorem answers_replying (c : Client α) (r : Reply α) : Answers k (c.replying r) := .inl ⟨rfl, rfl⟩

theorem answers_beginPull (c : Client α) (q : Query α) {demand : Demand α}
    (hk : k.Leaves (.pull h demand)) : Answers k (c.beginPull h q demand) := by
  have hb := c.beginsPull h q demand
  generalize c.beginPull h q demand = o at hb ⊢
  cases hb with
  | exhausted | failed => exact answers_replying ..
  | waits => exact .inr ⟨rfl, _, rfl, hk⟩

theorem leaves_drained {bound : Option Nat} (hk : k.Leaves (.start h bound true)) (got : List α) :
    k.Leaves (.pull h (.rest got)) := ⟨bound, hk⟩

theorem answers_beginStart (c : Client α) (q : Query α) {bound : Option Nat} {drain : Bool}
    (hk : k.Leaves (.start h bound drain)) : Answers k (c.beginStart h q bound drain) := by
  have hb := c.beginsStart h q bound drain
  generalize c.beginStart h q bound drain = o at hb ⊢
  cases hb with
  | waits => exact .inr ⟨rfl, _, rfl, hk⟩
  | failed | done => exact answers_replying ..
  | pulls _ _ hd =>
    subst hd
    exact answers_beginPull c q (leaves_drained hk [])

theorem answers_started (c : Client α) (q : Query α) {bound : Option Nat} {drain : Bool}
    (hk : k.Leaves (.start h bound drain)) (d : Delivery) : Answers k (c.started h q drain d) := by
  have hs := c.hearsStart h q drain d
  generalize c.started h q drain d = o at hs ⊢
  cases hs with
  | held | timedOut | failed => exact answers_replying ..
  | goesOn hd =>
    subst hd
    exact .inr ⟨rfl, _, rfl, leaves_drained hk []⟩

theorem answers_pulled (c : Client α) (q : Query α) {demand : Demand α}
    (hk : k.Leaves (.pull h demand)) (d : Delivery) : Answers k (c.pulled h q demand d) := by
  have hr := c.readsOn h q demand d
  generalize c.pulled h q demand d = o at hr ⊢
  cases hr with
  | broken | answer | failed | ended => exact answers_replying ..
  | got => exact .inr ⟨rfl, _, rfl, hk⟩
  | @more _ r x token =>
    have hf := c.fetchesMore h x token demand
    generalize c.fetchMore h x token demand = o at hf ⊢
    cases hf with
    | sent => exact .inr ⟨rfl, _, rfl, hk⟩
    | failed => exact answers_replying ..

theorem isSome_conclude (c : Client α) (e : Errand) (d : Except Failure Response) :
    (c.conclude e d).2.isSome = true := by
  have h := c.concludes e d
  generalize c.conclude e d = o at h ⊢
  cases h <;> rfl

/-! ## Effects -/

/-- What the reply to a call says of the sessions and transactions, and of a query that it opens. What
is closed and waited for does not wait for the reply, so nothing is said of that. -/
def Effect (c c' : Client α) (r : Reply α) : Call α → Prop
  | .openSession _ _ =>
    (∃ y, y.isOpen = true ∧ r = .opened c.sessions.length ∧
      c'.records = (c.sessions ++ [y], c.transactions)) ∨
    (∀ h, r ≠ .opened h) ∧ c'.records = c.records
  | .openTransaction s _ =>
    (∃ x, x.session = s ∧ x.isOpen = true ∧ x.held = true ∧ r = .opened c.transactions.length ∧
      c'.records = (c.sessions, c.transactions ++ [x])) ∨
    (∀ h, r ≠ .opened h) ∧ c'.records = c.records
  | .commit t | .dropTransaction t =>
    ∃ f : Transaction → Transaction, (∀ x, (f x).id = x.id) ∧
      c'.records = (c.sessions, c.transactions.modify t f)
  | .dropSession s | .onClose s _ =>
    ∃ f : Session → Session, c'.records = (c.sessions.modify s f, c.transactions)
  | .query _ text options _ => c'.records = c.records ∧ ∀ h, r = .opened h →
    ∃ q, c'.queries[h]? = some q ∧ q.options = options ∧
      c'.link.sent = c.link.sent ++ [⟨q.lane, .fetch q.transaction (.first text options)⟩]
  | .closeSession _ | .closeTransaction _ => True
  | _ => c'.records = c.records

theorem records_finishTransaction (c : Client α) (t : Handle) : (c.finishTransaction t).records =
    (c.sessions, c.transactions.modify t ({ · with isOpen := false })) := by
  cases hx : c.transactions[t]? with
  | none =>
    rw [finishTransaction_of_none hx]
    exact Prod.ext rfl (List.modify_eq_self (List.getElem?_eq_none_iff.1 hx)).symm
  | some x =>
    rw [finishTransaction_of_some hx]
    rfl

/-- Where nothing is opened, and nothing changes. -/
theorem effect_of_same {r : Reply α} (hr : ∀ h, r ≠ .opened h) (hs : c'.records = c.records) :
    c.Effect c' r k := by
  have hmodify : ∃ f : Transaction → Transaction, (∀ x, (f x).id = x.id) ∧
      ∀ t, c'.records = (c.sessions, c.transactions.modify t f) :=
    ⟨id, fun _ => rfl, fun t => by rw [List.modify_id]; exact hs⟩
  cases k with
  | openSession | openTransaction => exact .inr ⟨hr, hs⟩
  | commit t | dropTransaction t =>
    obtain ⟨f, hf, hr⟩ := hmodify
    exact ⟨f, hf, hr t⟩
  | dropSession s | onClose s => exact ⟨id, by rw [List.modify_id]; exact hs⟩
  | query => exact ⟨hs, fun h hopened => absurd hopened (hr h)⟩
  | closeSession | closeTransaction => trivial
  | _ => exact hs

theorem effect_conclude (c : Client α) (e : Errand) (d : Except Failure Response) {r : Reply α}
    (hr : (c.conclude e d).2 = some r) : c.Effect (c.conclude e d).1 r e.call := by
  have h := c.concludes e d
  generalize c.conclude e d = o at h hr ⊢
  cases h with
  | told r' hr' =>
    cases hr
    exact effect_of_same hr' rfl
  | session =>
    cases hr
    exact .inl ⟨_, rfl, rfl, rfl⟩
  | transaction =>
    cases hr
    exact .inl ⟨_, rfl, rfl, rfl, rfl, rfl⟩
  | commit t => exact ⟨({ · with isOpen := false }), fun _ => rfl, records_finishTransaction c t⟩

/-! ## What a call comes to -/

/-- One move of a call: it is over, with the effect of its reply, or waits and has changed nothing. -/
def Serves (c : Client α) (k : Call α) (o : Outcome α) : Prop :=
  (∃ r, o.2 = some r ∧ o.1.waiting = none ∧ c.Effect o.1 r k) ∨
    (o.2 = none ∧ o.1.records = c.records ∧ ∀ w, o.1.waiting = some w → k.Leaves w)

theorem serves_of_answers (ho : Answers k o) (hr : ∀ r, o.2 = some r → c.Effect o.1 r k)
    (hs : o.2 = none → o.1.records = c.records) : c.Serves k o := by
  rcases ho with ⟨hsome, hw⟩ | ⟨hnone, w, hw, hk⟩
  · obtain ⟨r, hr'⟩ := Option.isSome_iff_exists.1 hsome
    exact .inl ⟨r, hr', hw, hr r hr'⟩
  · refine .inr ⟨hnone, hs hnone, fun w' hw' => ?_⟩
    rw [hw] at hw'
    cases hw'
    exact hk

theorem effect_of_start {r : Reply α} {bound : Option Nat} {drain : Bool}
    (hk : k.Leaves (.start h bound drain)) (hs : c'.records = c.records) : c.Effect c' r k := by
  cases drain <;> cases hk <;> exact hs

theorem effect_of_pull {r : Reply α} {demand : Demand α} (hk : k.Leaves (.pull h demand))
    (hs : c'.records = c.records) : c.Effect c' r k := by
  cases demand with
  | answer | item =>
    cases hk
    exact hs
  | rest got =>
    obtain ⟨bound, rfl⟩ := hk
    exact hs

theorem effect_dropTransaction (c : Client α) (t : Handle) (x : Transaction) (r : Reply α) :
    c.Effect ((c.dropTransaction t x).replying r).1 r (.dropTransaction t) := by
  show ∃ f : Transaction → Transaction, (∀ x, (f x).id = x.id) ∧
    (c.dropTransaction t x).records = (c.sessions, c.transactions.modify t f)
  have hended := records_finishTransaction (c.modifyTransaction t ({ · with held := false })) t
  rw [modifyTransaction, List.modify_modify_eq] at hended
  rw [dropTransaction_eq, records_release]
  rcases records_quitting with h | h <;> rw [h]
  · exact ⟨({ · with held := false }), fun _ => rfl, rfl⟩
  · exact ⟨fun x => { x with held := false, isOpen := false }, fun _ => rfl, hended⟩

theorem effect_dropSession (c : Client α) (s : Handle) (y : Session) (r : Reply α) :
    c.Effect ((c.dropSession s y).replying r).1 r (.dropSession s) := by
  show ∃ f : Session → Session,
    (c.dropSession s y).records = (c.sessions.modify s f, c.transactions)
  rw [dropSession_eq, records_release]
  rcases records_quitting with h | h <;> rw [h]
  · exact ⟨({ · with held := false }), rfl⟩
  · rw [endSession_modify]
    exact ⟨fun y => { y with held := false, isOpen := false, callbacks := [] }, rfl⟩

theorem sent_of_dispatch {l l' : Link} {lane : Lane} {o : Owner} {request : Request} {i : Nat}
    (h : l.dispatch lane o request = (.ok i, l')) : l'.sent = l.sent ++ [⟨lane, request⟩] := by
  unfold Link.dispatch at h
  split at h
  · cases h
  · split at h <;> cases h
    rename_i r j _ hsend
    unfold Link.send at hsend
    split at hsend <;> cases hsend
    simp [Link.record, Link.sent]

theorem serves_openQuery (c : Client α) (x : Transaction) (text : Payload) (options : QueryOptions)
    (reader : Reader α) :
    c.Serves (.query t text options reader) (c.openQuery x text options reader) := by
  have h := c.enters x text options reader
  generalize c.openQuery x text options reader = o at h ⊢
  cases h with
  | refused | unsent => exact .inl ⟨_, rfl, rfl, rfl, nofun⟩
  | opened _ _ heq =>
    refine .inl ⟨_, rfl, rfl, rfl, fun h hopened => ?_⟩
    cases hopened
    have hsent := sent_of_dispatch (l := c.link.openLane.2) heq
    exact ⟨_, List.getElem?_concat_length, rfl, hsent⟩

theorem serves_conclude (c : Client α) (e : Errand) (d : Except Failure Response) :
    c.Serves e.call (c.conclude e d) := by
  obtain ⟨r, hr⟩ := Option.isSome_iff_exists.1 (isSome_conclude c e d)
  exact .inl ⟨r, hr, waiting_conclude e d, effect_conclude c e d hr⟩

/-- What the reply to an errand says does not depend on the link. -/
theorem Serves.of_relinked {l : Link} {e : Errand} (h : Serves { c with link := l } e.call o) :
    c.Serves e.call o := by
  cases e <;> exact h

theorem serves_run (c : Client α) (e : Errand) (o : Owner) (request : Request) :
    c.Serves e.call (c.run e o request) := by
  have h := c.runs e o request
  generalize c.run e o request = out at h ⊢
  cases h with
  | sent =>
    refine .inr ⟨rfl, rfl, fun w hw => ?_⟩
    cases hw
    rfl
  | @refused f l =>
    exact (serves_conclude { c with link := l } e (.error f)).of_relinked

/-- A call that does not wait for what it closes. -/
theorem serves_call (hw : c.waiting = none) (hs : ∀ s, k ≠ .closeSession s)
    (ht : ∀ t, k ≠ .closeTransaction t) : c.Serves k (c.call k) := by
  have hsame {c' : Client α} {r : Reply α} (hr : ∀ h, r ≠ .opened h)
      (hrecords : c'.records = c.records) : c.Serves k (c'.replying r) :=
    .inl ⟨r, rfl, rfl, effect_of_same hr hrecords⟩
  have h := c.begins_call k
  generalize c.call k = o at h ⊢
  cases h with
  | busy hbusy =>
    rw [hw] at hbusy
    cases hbusy
  | told r hr => exact hsame hr rfl
  | clone | close => exact hsame nofun rfl
  | dropClient => exact hsame nofun (records_release _)
  | run he =>
    rw [Errand.call_of_errand? he]
    exact serves_run ..
  | onClose => exact .inl ⟨.done, rfl, rfl, _, rfl⟩
  | @closeSession s => exact absurd rfl (hs s)
  | @closeTransaction t => exact absurd rfl (ht t)
  | dropSession => exact .inl ⟨.done, rfl, rfl, effect_dropSession ..⟩
  | dropTransaction => exact .inl ⟨.done, rfl, rfl, effect_dropTransaction ..⟩
  | query t text options reader x => exact serves_openQuery c x text options reader
  | start h q bound drain hq hk =>
    have hrecords := records_beginStart c h q bound drain
    exact serves_of_answers (answers_beginStart c q hk) (fun _ _ => effect_of_start hk hrecords)
      fun _ => hrecords
  | pull h q demand hq hk =>
    have hrecords := records_beginPull c h q demand
    exact serves_of_answers (answers_beginPull c q hk) (fun _ _ => effect_of_pull hk hrecords)
      fun _ => hrecords
  | dropQuery h q => exact hsame nofun (records_release _)

theorem serves_finds (hw : ∀ w, c.waiting = some w → k.Leaves w) (ho : c.Finds o) :
    c.Serves k o := by
  cases ho with
  | nothing => exact .inr ⟨rfl, rfl, hw⟩
  | @errand i d r e hp hwait =>
    rw [show k = e.call from hw _ hwait]
    exact (serves_conclude { c with link := { c.link with router := r.drop i } } e d).of_relinked
  | @start q d r h drain hp bound hwait hq =>
    have hk := hw _ hwait
    have hrecords := records_started { c with link := { c.link with router := r } } h q drain d
    exact serves_of_answers (answers_started _ q hk d) (fun _ _ => effect_of_start hk hrecords)
      fun _ => hrecords
  | @pull q q' d r h demand hp hwait hq =>
    have hk := hw _ hwait
    have hrecords := records_pulled { c with link := { c.link with router := r } } h q' demand d
    exact serves_of_answers (answers_pulled _ q' hk d) (fun _ _ => effect_of_pull hk hrecords)
      fun _ => hrecords
  | gaveUp e i hwait =>
    rw [show k = e.call from hw _ hwait]
    exact (serves_conclude { c with link := c.link.dropInbox i } e (.error .timeout)).of_relinked
  | late hwait => exact .inl ⟨_, rfl, rfl, effect_of_same nofun rfl⟩

/-- What happens while the call waits. -/
theorem serves_move (hw : ∀ w, c.waiting = some w → k.Leaves w) (hm : ∀ k, m ≠ .call k) :
    c.Serves k (c.step m) := by
  cases m with
  | call k => exact absurd rfl (hm k)
  | arrive f => exact .inr ⟨rfl, rfl, hw⟩
  | lose => exact .inr ⟨rfl, rfl, hw⟩
  | resume => exact serves_finds hw c.finds_resume
  | expire => exact serves_finds hw c.finds_expire

/-- While no call waits, nothing is replied and nothing changes. -/
theorem idle_move (hw : c.waiting = none) (hm : ∀ k, m ≠ .call k) :
    (c.step m).2 = none ∧ (c.step m).1.records = c.records ∧ (c.step m).1.waiting = none := by
  have hfinds {o : Outcome α} (ho : c.Finds o) : o = (c, none) := by
    cases ho with
    | nothing => rfl
    | errand e hp hwait | start h drain hp hwait | pull h demand hp hwait | gaveUp e i hwait
    | late hwait =>
      rw [hw] at hwait
      cases hwait
  cases m with
  | call k => exact absurd rfl (hm k)
  | arrive f => exact ⟨rfl, rfl, hw⟩
  | lose => exact ⟨rfl, rfl, hw⟩
  | resume =>
    rw [show c.step .resume = (c, none) from hfinds c.finds_resume]
    exact ⟨rfl, rfl, hw⟩
  | expire =>
    rw [show c.step .expire = (c, none) from hfinds c.finds_expire]
    exact ⟨rfl, rfl, hw⟩

/-- A token is pulled for a query that is being pulled. -/
theorem pulling_of_token? {token : UInt64} (ht : c.token? h m = some token) :
    ∃ demand, c.waiting = some (.pull h demand) := by
  obtain ⟨hp, -⟩ := Option.ite_none_right_eq_some.1 ht
  have hp : c.pulls h m = true := (Bool.and_eq_true_iff.1 hp).1
  unfold pulls at hp
  split at hp
  · split at hp
    · rename_i h' demand hw
      rw [eq_of_beq hp] at hw
      exact ⟨demand, hw⟩
    · cases hp
  · split at hp
    · rename_i h' demand hw
      rw [eq_of_beq hp] at hw
      exact ⟨demand, hw⟩
    · cases hp
  all_goals cases hp

/-! ## Ends that were sent -/

/-- A transaction of which a commit or a close was sent is over. -/
def Marked (c : Client α) : Prop :=
  ∀ r ∈ c.link.sent.map (·.body), ∀ id, r.ends? = some id →
    ∃ (t : Handle) (x : Transaction), c.transactions[t]? = some x ∧ x.id = id ∧ c.TransactionOver t

theorem marked_new (timeout : Option Nat) : (new timeout : Client α).Marked := nofun

/-- What a call on a transaction asks for while the transaction is open. -/
theorem request?_eq_some {r : Request} (ht : k.transaction? = some t) (hr : c.request? k = some r) :
    c.waiting = none ∧ ∃ x, c.transaction? t = some x ∧ c.transactionIsOpen x = true ∧
      x.request? k = some r := by
  cases hw : c.waiting with
  | some w =>
    unfold request? at hr
    rw [hw] at hr
    cases hr
  | none =>
    rw [request?_transaction hw ht] at hr
    obtain ⟨x, hx, hr⟩ := Option.bind_eq_some_iff.1 hr
    obtain ⟨hx, ho⟩ := Option.filter_eq_some_iff.1 hx
    exact ⟨rfl, x, hx, ho, hr⟩

/-- Only calls on a transaction work in one. -/
theorem transaction?_of_request {r : Request} {id : UInt64} (hr : c.request? k = some r)
    (hid : r.within? = some id) : ∃ t, k.transaction? = some t := by
  cases ht : k.transaction? with
  | some t => exact ⟨t, rfl⟩
  | none =>
    have hno : r.within? = none := by
      unfold request? at hr
      rw [ht] at hr
      split at hr
      · cases hr
      · split at hr
        · cases ‹none = some _›
        · obtain ⟨y, -, hr⟩ := Option.bind_eq_some_iff.1 hr
          cases k <;> cases hr <;> rfl
        · split at hr
          · obtain ⟨-, hr⟩ := Option.ite_none_right_eq_some.1 hr
            cases hr
            rfl
          · cases hr
    rw [hno] at hid
    cases hid

theorem Marked.step (h : c.Marked) (hc : c.Fit) (m : Move α) : (c.step m).1.Marked := by
  obtain ⟨honly, hsent⟩ := sendsOnly_step hc.aligned m
  intro r hr id hid
  obtain ⟨hends, hwithin⟩ := Request.ends?_eq_some.1 hid
  rw [hsent, List.mem_append] at hr
  rcases hr with hr | hr
  · obtain ⟨t, x, hx, rfl, hover⟩ := h r hr id hid
    obtain ⟨x', hx', -, howner, -⟩ := (ages_step c m).transactions t x hx
    exact ⟨t, x', hx', Transaction.id_of_owner howner, hover.step hc.rooted m⟩
  · cases m with
    | call k =>
      have hr : c.request? k = some r := by
        rw [show c.sends (.call k) = _ from honly] at hr
        exact Option.mem_toList.1 hr
      obtain ⟨t, ht⟩ := transaction?_of_request hr hwithin
      obtain ⟨-, x, hx, -, hxr⟩ := request?_eq_some ht hr
      have hover := (finishes_of_request (beq_iff_eq.2 ht) hr hends).transactionOver
      obtain ⟨x', hx', -, howner, -⟩ :=
        (ages_step c (.call k)).transactions t x (getElem?_of_transaction? hx)
      have hxid : r.within? = some x.id := Transaction.within?_of_request hxr
      rw [hwithin] at hxid
      exact ⟨t, x', hx', (Transaction.id_of_owner howner).trans (Option.some.inj hxid).symm, hover⟩
    | _ =>
      rw [Request.ends?_of_continues (honly r hr)] at hid
      cases hid

end Client

end QueryLanes
