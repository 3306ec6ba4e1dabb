import QueryLanes.Proofs.Sending

/-!
# Requests

Which request a call sends. It depends on whether what the call is made on is open:
`Client.request?` says so for all calls at once, `Client.asks_call` that a call sends this request
and no other frame, and `Client.sendsOnly_step` that every other move sends nothing but requests for
next batches.
-/

namespace QueryLanes

variable {α : Type}

/-! ## What a call asks for -/

/-- What a call on an open transaction asks the server for. -/
def Transaction.request? (x : Transaction) : Call α → Option Request
  | .commit _ => some (.commit x.id)
  | .rollback _ => some (.rollback x.id)
  | .closeTransaction _ | .dropTransaction _ => some (.closeTransaction x.id)
  | .query _ text options _ =>
    if options.validate.isOk then some (.fetch x.id (.first text options)) else none
  | _ => none

/-- What a call on an open session asks the server for. -/
def Session.request? (y : Session) : Call α → Option Request
  | .openTransaction _ kind => some (.openTransaction y.id kind)
  | .closeSession _ | .dropSession _ => some (.closeSession y.id)
  | _ => none

/-- What a call asks the server for. -/
def Client.request? (c : Client α) (k : Call α) : Option Request :=
  if c.waiting.isSome then none
  else match k.transaction?, k.session? with
    | some t, _ => ((c.transaction? t).filter c.transactionIsOpen).bind (·.request? k)
    | none, some s => ((c.session? s).filter c.sessionIsOpen).bind (·.request? k)
    | none, none => match k with
      | .openSession database kind =>
        if c.clones ≠ 0 ∧ c.link.isOpen then some (.openSession database kind) else none
      | _ => none

/-- Whether a request is for the next batch of a query. -/
def Request.continues : Request → Bool
  | .fetch _ f => f.query.isNone
  | _ => false

/-! ## Links -/

namespace Link

variable {l l' l'' : Link} {request? : Option Request}

/-- Between the links nothing goes out but this request, on the lane that is given out for it. -/
def Asks (l l' : Link) : Option Request → Prop
  | none => l.Silent l'
  | some request => l.issued < l'.issued ∧ l.Emits l' ⟨l.nextLane, request⟩

theorem Still.asks (h : l.Still l') : l.Asks l' none := h.toSilent

theorem Asks.refl (l : Link) : l.Asks l none := Silent.refl l

theorem Still.trans_asks (h : l.Still l') (h' : l'.Asks l'' request?) : l.Asks l'' request? := by
  cases request? with
  | none => exact h.toSilent.trans h'
  | some request =>
    obtain ⟨hi, hemits⟩ := h'
    have hlane : l'.nextLane = l.nextLane := by rw [nextLane, h.issued, nextLane]
    rw [h.issued] at hi
    rw [hlane] at hemits
    exact ⟨hi, h.toSilent.trans_emits hemits⟩

theorem Asks.trans_still (h : l.Asks l' request?) (h' : l'.Still l'') : l.Asks l'' request? := by
  cases request? with
  | none => exact Silent.trans h h'.toSilent
  | some request => exact ⟨h'.issued ▸ h.1, h.2.trans_silent h'.toSilent⟩

theorem Asks.sent (h : l.Asks l' request?) :
    l'.sent = l.sent ++ (request?.map (⟨l.nextLane, ·⟩)).toList := by
  cases request? with
  | none => exact (Silent.sent h).trans (List.append_nil _).symm
  | some request => exact Emits.sent h.2

theorem Emits.aligned {f : ClientFrame} (h : l.Emits l' f) (ha : l.Aligned) : l'.Aligned := by
  obtain ⟨l₁, o, h₁, h₂⟩ := h
  exact h₂.aligned (h₁.aligned ha)

theorem Asks.aligned (h : l.Asks l' request?) (ha : l.Aligned) : l'.Aligned := by
  cases request? with
  | none => exact Silent.aligned h ha
  | some request => exact Emits.aligned h.2 ha

theorem asks_request (ha : l.Aligned) (ho : l.isOpen = true) (o : Owner) (request : Request) :
    l.Asks (l.request o request).2 (some request) := by
  have hopen : l.Silent l.openLane.2 := silent_of_same rfl rfl id
  refine ⟨by rw [issued_request]; exact Nat.lt_succ_self _, ?_⟩
  rcases emits_dispatch (l := l.openLane.2) ha l.nextLane o request with h | ⟨-, h⟩
  · have hreg := h.registered
    have hopen' : l.openLane.2.isOpen = true := ho
    rw [dispatch_eq (l := l.openLane.2) ha, hopen', if_pos rfl] at hreg
    simp [launch, record, registered] at hreg
  · exact hopen.trans_emits h

theorem asks_post (ha : l.Aligned) (ho : l.isOpen = true) (o : Owner) (request : Request) :
    l.Asks (l.post o request) (some request) := by
  obtain ⟨l', hl, h | ⟨i, -, h⟩⟩ := post_eq (l := l) o request <;> rw [h, ← hl]
  · exact asks_request ha ho o request
  · exact (asks_request ha ho o request).trans_still (still_dropInbox _ i)

end Link

/-! ## Calls -/

namespace Client

variable {c : Client α} {k : Call α}

theorem request?_transaction {t : Handle} (hw : c.waiting = none) (hk : k.transaction? = some t) :
    c.request? k = ((c.transaction? t).filter c.transactionIsOpen).bind (·.request? k) := by
  unfold request?
  rw [hw, hk]
  rfl

theorem request?_session {s : Handle} (hw : c.waiting = none) (hk : k.transaction? = none)
    (hs : k.session? = some s) :
    c.request? k = ((c.session? s).filter c.sessionIsOpen).bind (·.request? k) := by
  unfold request?
  rw [hw, hk, hs]
  rfl

theorem request?_other (k : Call α) (hk : k.transaction? = none) (hs : k.session? = none)
    (hn : ∀ database kind, k ≠ .openSession database kind) : c.request? k = none := by
  unfold request?
  rw [hk, hs]
  dsimp only
  split
  · rfl
  · split
    · exact absurd rfl (hn _ _)
    · rfl

theorem transactionIsOpen_eq (c : Client α) (x : Transaction) :
    c.transactionIsOpen x = (c.link.isOpen && c.sessionFlag x.session && x.isOpen) := by
  unfold transactionIsOpen ensureOpen
  cases c.link.isOpen <;> cases c.sessionFlag x.session <;> cases x.isOpen <;> rfl

theorem reportsClose_finishTransaction (c : Client α) (t : Handle) (x : Transaction) :
    (c.finishTransaction t).reportsClose x = c.reportsClose x := by
  cases hx : c.transactions[t]? with
  | none => rw [finishTransaction_of_none hx]
  | some y =>
    rw [finishTransaction_of_some hx]
    rfl

theorem still_release (c : Client α) : c.link.Still c.release.link :=
  (acts_release (P := (· = .close)) c rfl).works.still nofun nofun

/-! ### Errands -/

theorem asks_run (ha : c.link.Aligned) (ho : c.link.isOpen = true) (e : Errand) (o : Owner)
    (request : Request) : c.link.Asks (c.run e o request).1.link (some request) := by
  have h := Link.asks_request ha ho o request
  have hr := c.runs e o request
  generalize c.run e o request = out at hr ⊢
  cases hr with
  | sent heq => rwa [heq] at h
  | @refused f l heq =>
    rw [heq] at h
    exact h.trans_still (still_conclude { c with link := l } e _)

/-- A request that is made if the transaction is open. -/
theorem asks_ensureOpen (ha : c.link.Aligned) {x : Transaction} {e : Errand} {request : Request}
    {o : Outcome α} (hrefused : ∀ f, c.ensureOpen x = .error f → o = c.replying (.failed f))
    (hrun : c.ensureOpen x = .ok () → o = c.run e x.owner request) :
    c.link.Asks o.1.link (if c.transactionIsOpen x then some request else none) := by
  unfold transactionIsOpen
  cases ho : c.ensureOpen x with
  | error f =>
    rw [hrefused f ho]
    exact .refl c.link
  | ok u =>
    rw [hrun ho]
    exact asks_run ha (ensureOpen_eq_ok.1 ho).1 ..

section

variable {ended : Client α} {isOpen reports : Bool}
variable (ha : c.link.Aligned) (hended : c.link.Still ended.link)
  (hreports : reports = true → ended.link.isOpen = true)
include ha hended hreports

/-- What is closed is reported if it was open, and can be. -/
theorem asks_closing (e : Errand) (o : Owner) (request : Request) :
    c.link.Asks (c.closing ended isOpen reports e o request).1.link
      (if isOpen && reports then some request else none) := by
  have h := shuts c ended isOpen reports e o request
  generalize c.closing ended isOpen reports e o request = out at h ⊢
  cases h with
  | before ho =>
    subst ho
    exact .refl c.link
  | told ho hr =>
    subst ho hr
    exact hended.trans_asks (asks_run (hended.aligned ha) (hreports rfl) e o request)
  | silent ho hr =>
    subst ho hr
    exact hended.asks

theorem asks_quitting {given : Client α} (hgiven : c.link.Still given.link) (o : Owner)
    (request : Request) :
    c.link.Asks (given.quitting ended isOpen reports o request).release.link
      (if isOpen && reports then some request else none) := by
  refine Link.Asks.trans_still ?_ (still_release _)
  have h := quits given ended isOpen reports o request
  generalize given.quitting ended isOpen reports o request = out at h ⊢
  cases h with
  | before ho =>
    subst ho
    exact hgiven.asks
  | told ho hr =>
    subst ho hr
    exact hended.trans_asks (Link.asks_post (hended.aligned ha) (hreports rfl) o request)
  | silent ho hr =>
    subst ho hr
    exact hended.asks

end

theorem asks_closeSession (ha : c.link.Aligned) (s : Handle) (y : Session) :
    c.link.Asks (c.closeSession s y).1.link
      (if c.sessionIsOpen y then some (.closeSession y.id) else none) := by
  rw [closeSession_eq, sessionIsOpen, ← isOpen_endSession c s y]
  exact asks_closing ha (still_endSession c s y) id ..

theorem asks_dropSession (ha : c.link.Aligned) (s : Handle) (y : Session) :
    c.link.Asks (c.dropSession s y).link
      (if c.sessionIsOpen y then some (.closeSession y.id) else none) := by
  have hopen := isOpen_endSession (c.modifySession s ({ · with held := false })) s y
  rw [dropSession_eq, sessionIsOpen,
    show c.link.isOpen = (c.modifySession s ({ · with held := false })).link.isOpen from rfl, ← hopen]
  refine asks_quitting ha (still_endSession (c.modifySession s _) s y) id ?_ ..
  exact .refl c.link

theorem transactionIsOpen_eq_reportsClose (c : Client α) (t : Handle) (x : Transaction) :
    c.transactionIsOpen x = (x.isOpen && (c.finishTransaction t).reportsClose x) := by
  rw [reportsClose_finishTransaction, transactionIsOpen_eq, reportsClose]
  cases x.isOpen <;> cases c.link.isOpen <;> cases c.sessionFlag x.session <;> rfl

theorem asks_closeTransaction (ha : c.link.Aligned) (t : Handle) (x : Transaction) :
    c.link.Asks (c.closeTransaction t x).1.link
      (if c.transactionIsOpen x then some (.closeTransaction x.id) else none) := by
  rw [closeTransaction_eq, c.transactionIsOpen_eq_reportsClose t x]
  exact asks_closing ha (still_finishTransaction c t) isOpen_of_reportsClose ..

theorem asks_dropTransaction (ha : c.link.Aligned) (t : Handle) (x : Transaction) :
    c.link.Asks (c.dropTransaction t x).link
      (if c.transactionIsOpen x then some (.closeTransaction x.id) else none) := by
  have hopen : c.transactionIsOpen x = _ :=
    transactionIsOpen_eq_reportsClose (c.modifyTransaction t ({ · with held := false })) t x
  rw [dropTransaction_eq, hopen]
  refine asks_quitting ha (still_finishTransaction (c.modifyTransaction t _) t)
    isOpen_of_reportsClose ?_ ..
  exact .refl c.link

theorem asks_openQuery (ha : c.link.Aligned) (x : Transaction) (text : Payload)
    (options : QueryOptions) (reader : Reader α) :
    c.link.Asks (c.openQuery x text options reader).1.link
      (if c.transactionIsOpen x then
        if options.validate.isOk then some (.fetch x.id (.first text options)) else none
      else none) := by
  have hsent (ho : c.ensureOpen x = .ok ()) := Link.asks_request ha (ensureOpen_eq_ok.1 ho).1
    x.owner (.fetch x.id (.first text options))
  have h := c.enters x text options reader
  generalize c.openQuery x text options reader = out at h ⊢
  unfold transactionIsOpen
  cases h with
  | refused h =>
    cases hv : options.validate with
    | error e =>
      rw [show (Except.error e : Except Failure Unit).isOk = false from rfl,
        if_neg Bool.false_ne_true, ite_self]
      exact .refl c.link
    | ok u =>
      rw [hv] at h
      rw [show c.ensureOpen x = .error _ from h]
      exact .refl c.link
  | unsent hv ho heq | opened hv ho heq =>
    have hsent := hsent ho
    rw [heq] at hsent
    rw [ho, hv]
    exact hsent

theorem asks_openSession (ha : c.link.Aligned) (hw : c.waiting = none) (database : String)
    (kind : SessionKind) :
    c.link.Asks (c.call (.openSession database kind)).1.link
      (c.request? (.openSession database kind)) := by
  have hrequest : c.request? (.openSession database kind) =
      if c.clones ≠ 0 ∧ c.link.isOpen then some (.openSession database kind) else none := by
    unfold request?
    rw [hw]
    rfl
  rw [hrequest, call_openSession hw]
  by_cases hclones : c.clones = 0
  · rw [if_pos hclones, if_neg fun h => h.1 hclones]
    exact .refl c.link
  · rw [if_neg hclones]
    cases ho : c.link.isOpen with
    | false =>
      rw [if_pos (by rfl), if_neg fun h => Bool.false_ne_true h.2]
      exact .refl c.link
    | true =>
      rw [if_neg (by decide), if_pos ⟨hclones, rfl⟩]
      exact asks_run ha ho ..

theorem asks_openTransaction (ha : c.link.Aligned) (hw : c.waiting = none) {s : Handle}
    {y : Session} (hy : c.session? s = some y) (kind : TransactionKind) :
    c.link.Asks (c.call (.openTransaction s kind)).1.link
      (if c.sessionIsOpen y then some (.openTransaction y.id kind) else none) := by
  rw [call_openTransaction hw hy]
  unfold sessionIsOpen
  cases ho : c.link.isOpen with
  | false =>
    rw [Bool.and_false]
    exact .refl c.link
  | true =>
    cases y.isOpen with
    | false => exact .refl c.link
    | true => exact asks_run ha ho ..

/-! ### All calls -/

theorem filter_bind {β γ : Type} {o : Option β} {x : β} (h : o = some x) (p : β → Bool)
    (f : β → Option γ) : (o.filter p).bind f = if p x then f x else none := by
  rw [h, Option.filter_some]
  split <;> rfl

theorem asks_onTransaction (ha : c.link.Aligned) (hw : c.waiting = none) {t : Handle}
    (hk : k.transaction? = some t) : c.link.Asks (c.call k).1.link (c.request? k) := by
  rw [request?_transaction hw hk]
  cases hx : c.transaction? t with
  | none =>
    rw [call_of_no_transaction hw hk hx]
    exact .refl c.link
  | some x =>
    rw [filter_bind rfl]
    cases k with
    | commit =>
      cases hk
      exact asks_ensureOpen ha (fun _ => call_commit_of_refused hw hx) (call_commit hw hx)
    | rollback =>
      cases hk
      exact asks_ensureOpen ha (fun _ => call_rollback_of_refused hw hx) (call_rollback hw hx)
    | closeTransaction =>
      cases hk
      rw [call_closeTransaction hw hx]
      exact asks_closeTransaction ha t x
    | dropTransaction =>
      cases hk
      rw [call_dropTransaction hw hx]
      exact asks_dropTransaction ha t x
    | query t' text options reader =>
      cases hk
      rw [call_query hw hx]
      exact asks_openQuery ha x text options reader
    | _ => cases hk

theorem asks_onSession (ha : c.link.Aligned) (hw : c.waiting = none) {s : Handle}
    (hk : k.transaction? = none) (hs : k.session? = some s) :
    c.link.Asks (c.call k).1.link (c.request? k) := by
  rw [request?_session hw hk hs]
  cases hy : c.session? s with
  | none =>
    rw [call_of_no_session hw hs hy]
    exact .refl c.link
  | some y =>
    rw [filter_bind rfl]
    cases k with
    | openTransaction s' kind =>
      cases hs
      exact asks_openTransaction ha hw hy kind
    | onClose s' label =>
      cases hs
      rw [call_onClose hw hy, show y.request? (.onClose s label : Call α) = none from rfl, ite_self]
      exact .refl c.link
    | closeSession =>
      cases hs
      rw [call_closeSession hw hy]
      exact asks_closeSession ha s y
    | dropSession =>
      cases hs
      rw [call_dropSession hw hy]
      exact asks_dropSession ha s y
    | _ => cases hs

/-- A call on the client or on a query sends nothing, unless it opens a session. -/
theorem still_call_of_other (hk : k.transaction? = none) (hs : k.session? = none)
    (hn : ∀ database kind, k ≠ .openSession database kind) :
    c.link.Still (c.call k).1.link := by
  have h := c.begins_call k
  generalize c.call k = o at h ⊢
  cases h with
  | busy | told | clone => exact .refl _
  | dropClient => exact still_release { c with clones := c.clones - 1 }
  | close => exact Link.still_close _
  | dropQuery h q hq =>
    have hacts := acts_dropQuery (P := fun p => p = .turn h ∨ p = .close)
      (Option.filter_eq_some_iff.1 hq).1 (.inl rfl) (.inr rfl)
    exact hacts.works.still (by simp) (by simp)
  | run he =>
    cases k with
    | openSession database kind => exact absurd rfl (hn database kind)
    | openTransaction => cases hs
    | commit | rollback => cases hk
    | _ => cases he
  | onClose | closeSession | dropSession => cases hs
  | closeTransaction | dropTransaction | query => cases hk
  | start =>
    rw [link_beginStart]
    exact .refl _
  | pull =>
    rw [link_beginPull]
    exact .refl _

/-- **What a call sends.** The request that it asks for, and no other frame. -/
theorem asks_call (ha : c.link.Aligned) (k : Call α) :
    c.link.Asks (c.call k).1.link (c.request? k) := by
  cases hw : c.waiting with
  | some w =>
    rw [call_of_waiting hw, show c.request? k = none from if_pos (by rw [hw]; rfl)]
    exact .refl c.link
  | none =>
    cases ht : k.transaction? with
    | some t => exact asks_onTransaction ha hw ht
    | none =>
      cases hs : k.session? with
      | some s => exact asks_onSession ha hw ht hs
      | none =>
        by_cases hn : ∃ database kind, k = .openSession database kind
        · obtain ⟨database, kind, rfl⟩ := hn
          exact asks_openSession ha hw database kind
        · have hn : ∀ database kind, k ≠ .openSession database kind :=
            fun database kind h => hn ⟨database, kind, h⟩
          rw [request?_other k ht hs hn]
          exact (still_call_of_other ht hs hn).asks

/-! ## Moves -/

/-- A move sends nothing, or a request for something new, or the token that it pulls. -/
theorem sends_step (ha : c.link.Aligned) (m : Move α) :
    (∃ request?, c.link.Asks (c.step m).1.link request?) ∨
      ∃ h q token, c.queries[h]? = some q ∧ c.token? h m = some token ∧
        c.Fetches (c.step m).1 q token := by
  by_cases hm : ∃ k, m = .call k
  · obtain ⟨k, rfl⟩ := hm
    exact .inl ⟨_, asks_call ha k⟩
  · exact (fetches_step ha fun k hk => hm ⟨k, hk⟩).imp_left fun h => ⟨none, h⟩

/-- A move that is no call sends nothing, or a request for a next batch. -/
theorem continues_step (ha : c.link.Aligned) {m : Move α} (hm : ∀ k, m ≠ .call k) :
    c.link.Silent (c.step m).1.link ∨
      ∃ f, f.body.continues = true ∧ c.link.Emits (c.step m).1.link f := by
  rcases fetches_step ha hm with h | ⟨h, q, token, -, -, hf⟩
  · exact .inl h
  · exact .inr ⟨_, rfl, hf⟩

theorem aligned_step (ha : c.link.Aligned) (m : Move α) : (c.step m).1.link.Aligned := by
  by_cases hm : ∃ k, m = .call k
  · obtain ⟨k, rfl⟩ := hm
    exact (asks_call ha k).aligned ha
  · rcases continues_step ha fun k hk => hm ⟨k, hk⟩ with h | ⟨f, -, h⟩
    · exact h.aligned ha
    · exact h.aligned ha

/-- The requests that a move sends. -/
def sends (c : Client α) (m : Move α) : List Request :=
  ((c.step m).1.link.sent.drop c.link.sent.length).map (·.body)

theorem sends_eq {m : Move α} {fs : List ClientFrame}
    (h : (c.step m).1.link.sent = c.link.sent ++ fs) : c.sends m = fs.map (·.body) := by
  rw [sends, h, List.drop_left]

/-- What a move may send: a call what it asks for, and every other move only requests for next
batches. -/
def SendsOnly (c : Client α) : Move α → Prop
  | .call k => c.sends (.call k) = (c.request? k).toList
  | m => ∀ r ∈ c.sends m, r.continues = true

theorem sends_call_eq (ha : c.link.Aligned) (k : Call α) :
    c.sends (.call k) = (c.request? k).toList := by
  rw [sends_eq (m := .call k) (asks_call ha k).sent]
  cases c.request? k <;> rfl

theorem sendsOnly_step (ha : c.link.Aligned) (m : Move α) :
    c.SendsOnly m ∧ (c.step m).1.link.sent.map (·.body) =
      c.link.sent.map (·.body) ++ c.sends m := by
  by_cases hm : ∃ k, m = .call k
  · obtain ⟨k, rfl⟩ := hm
    refine ⟨sends_call_eq ha k, ?_⟩
    have hsent : (c.step (.call k)).1.link.sent = _ := (asks_call ha k).sent
    rw [sends_eq hsent, hsent, List.map_append]
  · have hother (h : ∀ r ∈ c.sends m, r.continues = true) : c.SendsOnly m := by
      cases m with
      | call k => exact absurd ⟨k, rfl⟩ hm
      | _ => exact h
    rcases continues_step ha fun k hk => hm ⟨k, hk⟩ with h | ⟨f, hf, h⟩
    · have hsent := h.sent.trans (List.append_nil _).symm
      refine ⟨hother ?_, ?_⟩ <;> rw [sends_eq hsent]
      · exact nofun
      · rw [hsent, List.map_append]
    · refine ⟨hother ?_, ?_⟩ <;> rw [sends_eq h.sent]
      · intro r hr
        rw [List.mem_singleton.1 hr]
        exact hf
      · rw [h.sent, List.map_append]

end Client

end QueryLanes
