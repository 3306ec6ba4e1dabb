import QueryLanes.Proofs.Deeds

/-!
# Steps aside

The steps of a client in which no query takes part: calls on the client itself, on sessions and on
transactions, and the ends of their errands. `Client.Aside` says what such a step may do, and
`Client.aside_call` that every such call keeps to it: queries only feel the ends of their owners,
and a missing connection is reported only when the link is closed.
-/

namespace QueryLanes

variable {α : Type}

namespace Client

variable {c c₁ c' : Client α}

/-- The outcome of a step in which no query takes part: it replies, or sends an errand and waits. -/
structure Aside (c : Client α) (o : Outcome α) : Prop where
  quiet : c.Quiet o.1
  waiting : (o.1.waiting = none ∧ o.2.isSome) ∨ (o.2 = none ∧ ∃ e i o' request,
    o.1.waiting = some (.errand e i) ∧ c.link.Fresh o.1.link o' request i ∧
      ∀ t, e = .commit t → ∃ x, o.1.transactions[t]? = some x ∧ x.isOpen = true)
  candid : o.2 = some (.failed .connectionClosed) → o.1.link.isOpen = false

theorem Quiet.aside (h : c.Quiet c') {r : Reply α}
    (hr : r = .failed .connectionClosed → c'.link.isOpen = false) : c.Aside (c'.replying r) where
  quiet := h.replying r
  waiting := .inl ⟨rfl, rfl⟩
  candid hf := hr (Option.some.inj hf)

theorem quiet_finishTransaction {t : Handle} {x : Transaction} (hx : c.transactions[t]? = some x)
    (ho : x.isOpen = true) : c.Quiet (c.finishTransaction t) := by
  rw [finishTransaction_of_some hx]
  exact quiet_endTransaction (f := ({ · with isOpen := false })) hx ho rfl

theorem works_finishTransaction (c : Client α) (t : Handle) :
    c.link.Works (· = .ends (.transaction t)) (c.finishTransaction t).link :=
  (acts_finishTransaction (P := (· = .ends (.transaction t))) c rfl).works

theorem isOpen_finishTransaction (c : Client α) (t : Handle) :
    (c.finishTransaction t).link.isOpen = c.link.isOpen :=
  (works_finishTransaction c t).isOpen_eq nofun

theorem issued_finishTransaction (c : Client α) (t : Handle) :
    (c.finishTransaction t).link.issued = c.link.issued :=
  (works_finishTransaction c t).issued_eq nofun

theorem works_endSession (c : Client α) (s : Handle) (y : Session) : c.link.Works
    (fun p => p = .ends (.session s) ∨ ∃ label ∈ y.callbacks, p = .run label)
    (c.endSession s y).link :=
  (acts_endSession c (.inl rfl) fun label hl => .inr ⟨label, hl, rfl⟩).works

theorem isOpen_endSession (c : Client α) (s : Handle) (y : Session) :
    (c.endSession s y).link.isOpen = c.link.isOpen :=
  (works_endSession c s y).isOpen_eq (by simp)

theorem issued_endSession (c : Client α) (s : Handle) (y : Session) :
    (c.endSession s y).link.issued = c.link.issued :=
  (works_endSession c s y).issued_eq (by simp)

@[simp] theorem misconfiguration_ne_connectionClosed (m : Misconfiguration) :
    Failure.misconfiguration m ≠ .connectionClosed := nofun

/-- An errand comes to its end. -/
theorem aside_conclude {e : Errand} {d : Except Failure Response}
    (ht : ∀ t, e = .commit t → ∃ x, c.transactions[t]? = some x ∧ x.isOpen = true)
    (hd : d = .error .connectionClosed → c.link.isOpen = false) : c.Aside (c.conclude e d) := by
  have h := c.concludes e d
  generalize c.conclude e d = o at h ⊢
  cases h with
  | told r _ hlost => exact (Quiet.refl c).aside fun hr => hd (hlost hr)
  | session =>
    refine Quiet.aside ?_ nofun
    exact quiet_of_none_ended rfl rfl (fun _ => ended_self) fun _ => ended_append
  | transaction =>
    refine Quiet.aside ?_ nofun
    exact quiet_of_none_ended rfl rfl (fun _ => ended_append) fun _ => ended_self
  | commit t =>
    obtain ⟨x, hx, ho⟩ := ht t rfl
    refine (quiet_finishTransaction hx ho).aside fun h => ?_
    rw [isOpen_finishTransaction]
    exact hd (accepted_bind_acknowledgement h)

theorem works_conclude (c : Client α) (e : Errand) (d : Except Failure Response) :
    c.link.Works (∃ p, · = .ends p) (c.conclude e d).1.link :=
  (acts_conclude c (fun _ _ => ⟨_, rfl⟩) d).works

theorem issued_conclude (e : Errand) (d : Except Failure Response) :
    (c.conclude e d).1.link.issued = c.link.issued :=
  (works_conclude c e d).issued_eq nofun

theorem isOpen_conclude (e : Errand) (d : Except Failure Response) :
    (c.conclude e d).1.link.isOpen = c.link.isOpen :=
  (works_conclude c e d).isOpen_eq nofun

theorem waiting_conclude (e : Errand) (d : Except Failure Response) :
    (c.conclude e d).1.waiting = none := by
  have h := c.concludes e d
  generalize c.conclude e d = o at h ⊢
  cases h <;> rfl

theorem issued_run (e : Errand) (o : Owner) (request : Request) :
    (c.run e o request).1.link.issued = c.link.issued + 1 := by
  rw [← Link.issued_request o request]
  have h := c.runs e o request
  generalize c.run e o request = out at h ⊢
  cases h with
  | sent h => rw [h]
  | refused h => rw [issued_conclude, h]

/-- On an open connection an errand is sent. -/
theorem run_of_open (hs : c.link.Sound) (ho : c.link.isOpen = true) (e : Errand) {o : Owner}
    {request : Request} (hb : c.link.issued + 1 ≤ 2 ^ 64) :
    c.run e o request =
      ({ c with
          link := (c.link.request o request).2
          waiting := some (.errand e c.link.router.inboxes.length) }, none) := by
  obtain ⟨hi, -⟩ := hs.fresh_request ho o request (by rwa [Link.issued_request])
  have h := c.runs e o request
  generalize c.run e o request = out at h ⊢
  cases h with
  | sent h =>
    rw [h] at hi ⊢
    cases hi
    rfl
  | refused h =>
    rw [h] at hi
    cases hi

theorem Quiet.aside_run (h : c.Quiet c₁) (hs : c.link.Sound) (ho : c₁.link.isOpen = true)
    {e : Errand} {o : Owner} {request : Request}
    (hb : (c₁.run e o request).1.link.issued ≤ 2 ^ 64)
    (ht : ∀ t, e = .commit t → ∃ x, c₁.transactions[t]? = some x ∧ x.isOpen = true) :
    c.Aside (c₁.run e o request) := by
  rw [issued_run] at hb
  have hs₁ := h.turns.keeps.sound (Nat.le_of_succ_le hb) hs
  obtain ⟨-, hfresh⟩ := hs₁.fresh_request ho o request (by rwa [Link.issued_request])
  rw [run_of_open hs₁ ho e hb]
  have hq := h.link (Link.turns_request c₁.link o request) (Link.isOpen_request _ _ _)
  exact {
    quiet := ⟨hq.queries, hq.turns⟩
    waiting := .inr ⟨rfl, e, _, o, request, rfl,
      hfresh.of_extends fun hw => h.turns.keeps.wired (Nat.le_of_succ_le hb) hs hw, ht⟩
    candid := nofun }

/-! ### Ends of handles -/

theorem endSession_modify (s : Handle) (x : Session) (f : Session → Session) :
    (c.modifySession s f).endSession s x =
      { c with
        sessions := c.sessions.modify s fun y => { f y with isOpen := false, callbacks := [] }
        link := x.callbacks.foldl (fun l label => l.record (.ran label))
          (c.link.failSession x.id) } := by
  simp only [endSession, modifySession, List.modify_modify_eq]
  rfl

theorem finishTransaction_modify {t : Handle} {x : Transaction} (hx : c.transactions[t]? = some x)
    {f : Transaction → Transaction} (hf : (f x).id = x.id) :
    (c.modifyTransaction t f).finishTransaction t =
      { c with
        transactions := c.transactions.modify t fun y => { f y with isOpen := false }
        link := c.link.failTransaction x.id } := by
  have hg : (c.modifyTransaction t f).transactions[t]? = some (f x) := by
    simp [modifyTransaction, hx]
  rw [finishTransaction_of_some hg, hf]
  simp only [modifyTransaction, List.modify_modify_eq]
  rfl

theorem aside_closing (hs : c.link.Sound) {ended : Client α} {isOpen reports : Bool}
    (hended : isOpen = true → c.Quiet ended) (hreports : reports = true → ended.link.isOpen = true)
    {e : Errand} (he : ∀ t, e ≠ .commit t) {o : Owner} {request : Request}
    (hb : (c.closing ended isOpen reports e o request).1.link.issued ≤ 2 ^ 64) :
    c.Aside (c.closing ended isOpen reports e o request) := by
  have h := shuts c ended isOpen reports e o request
  generalize c.closing ended isOpen reports e o request = out at h hb ⊢
  cases h with
  | before => exact (Quiet.refl c).aside nofun
  | told ho hr =>
    exact (hended ho).aside_run hs (hreports hr) hb fun t ht => absurd ht (he t)
  | silent ho => exact (hended ho).aside nofun

/-- Nothing that is given up opens or closes the connection, unless it was the last handle. -/
theorem quiet_quitting {given ended : Client α} {isOpen reports : Bool}
    (hgiven : c.Quiet given ∧ given.link.isOpen = c.link.isOpen)
    (hended : isOpen = true → c.Quiet ended ∧ ended.link.isOpen = c.link.isOpen) (o : Owner)
    (request : Request) : c.Quiet (given.quitting ended isOpen reports o request).release := by
  have h := quits given ended isOpen reports o request
  generalize given.quitting ended isOpen reports o request = out at h ⊢
  cases h with
  | before => exact hgiven.1.release hgiven.2
  | told ho =>
    obtain ⟨hq, hl⟩ := hended ho
    exact (hq.link (Link.turns_post _ _ _) (Link.isOpen_post _ _ _)).release
      ((Link.isOpen_post _ _ _).trans hl)
  | silent ho => exact (hended ho).1.release (hended ho).2

theorem aside_closeSession (hs : c.link.Sound) {s : Handle} {x : Session}
    (hx : c.sessions[s]? = some x) (hb : (c.closeSession s x).1.link.issued ≤ 2 ^ 64) :
    c.Aside (c.closeSession s x) := by
  rw [closeSession_eq] at hb ⊢
  refine aside_closing hs (fun ho => quiet_endSession hx ho rfl _) id ?_ hb
  nofun

theorem aside_closeTransaction (hs : c.link.Sound) {t : Handle} {x : Transaction}
    (hx : c.transactions[t]? = some x) (hb : (c.closeTransaction t x).1.link.issued ≤ 2 ^ 64) :
    c.Aside (c.closeTransaction t x) := by
  rw [closeTransaction_eq] at hb ⊢
  refine aside_closing hs (quiet_finishTransaction hx) isOpen_of_reportsClose ?_ hb
  nofun

theorem quiet_dropSession {s : Handle} {x : Session} (hx : c.sessions[s]? = some x) :
    c.Quiet (c.dropSession s x) := by
  have hended (ho : x.isOpen = true) := quiet_endSession hx ho
    (f := fun y => { y with held := false, isOpen := false, callbacks := [] }) rfl x.callbacks
  have hgiven : c.Quiet (c.modifySession s ({ · with held := false })) :=
    quiet_of_none_ended rfl rfl (fun _ => ended_self) fun _ => ended_modify_keep fun _ h => h
  rw [dropSession_eq, endSession_modify]
  refine quiet_quitting ⟨hgiven, rfl⟩ (fun ho => ⟨hended ho, ?_⟩) _ _
  simp

theorem quiet_dropTransaction {t : Handle} {x : Transaction} (hx : c.transactions[t]? = some x) :
    c.Quiet (c.dropTransaction t x) := by
  have hended (ho : x.isOpen = true) := quiet_endTransaction hx ho
    (f := fun y => { y with held := false, isOpen := false }) rfl
  have hgiven : c.Quiet (c.modifyTransaction t ({ · with held := false })) :=
    quiet_of_none_ended rfl rfl (fun _ => ended_modify_keep fun _ h => h) fun _ => ended_self
  rw [dropTransaction_eq, finishTransaction_modify hx (f := ({ · with held := false })) rfl]
  exact quiet_quitting ⟨hgiven, rfl⟩ (fun ho => ⟨hended ho, rfl⟩) _ _

/-! ### Calls -/

theorem getElem?_of_session? {s : Handle} {x : Session} (h : c.session? s = some x) :
    c.sessions[s]? = some x := (Option.filter_eq_some_iff.1 h).1

theorem getElem?_of_transaction? {t : Handle} {x : Transaction} (h : c.transaction? t = some x) :
    c.transactions[t]? = some x := (Option.filter_eq_some_iff.1 h).1

/-- A call that is neither made on a query nor opens one is a step aside. -/
theorem aside_call (hs : c.link.Sound) (hw : c.waiting = none) {k : Call α} (hk : k.ask? = none)
    (hq : ∀ t text options reader, k ≠ .query t text options reader)
    (hb : (c.call k).1.link.issued ≤ 2 ^ 64) : c.Aside (c.call k) := by
  have hc := Quiet.refl c
  have h := c.begins_call k
  generalize c.call k = o at h hb ⊢
  cases h with
  | busy hbusy =>
    rw [hw] at hbusy
    cases hbusy
  | told r _ hlost => exact hc.aside hlost
  | clone =>
    have h : c.Quiet { c with clones := c.clones + 1 } := quiet_of_same rfl rfl rfl rfl
    exact h.aside nofun
  | dropClient =>
    have h : c.Quiet { c with clones := c.clones - 1 } := quiet_of_same rfl rfl rfl rfl
    exact (h.release rfl).aside nofun
  | close =>
    have h : c.Quiet { c with link := c.link.close } := quiet_close rfl rfl rfl rfl
    exact h.aside nofun
  | run he ho o request hcommit =>
    refine hc.aside_run hs ho hb fun t ht => ?_
    obtain ⟨x, hx, hopen, -⟩ := hcommit t ht
    exact ⟨x, getElem?_of_transaction? hx, hopen⟩
  | onClose =>
    refine Quiet.aside ?_ nofun
    exact quiet_of_none_ended rfl rfl (fun _ => ended_self) fun _ => ended_modify_keep fun _ h => h
  | closeSession _ hx => exact aside_closeSession hs (getElem?_of_session? hx) hb
  | dropSession _ hx => exact (quiet_dropSession (getElem?_of_session? hx)).aside nofun
  | closeTransaction t x hx => exact aside_closeTransaction hs (getElem?_of_transaction? hx) hb
  | dropTransaction t x hx =>
    exact (quiet_dropTransaction (getElem?_of_transaction? hx)).aside nofun
  | query t text options reader => exact absurd rfl (hq t text options reader)
  | start h q bound drain _ hleaves =>
    obtain ⟨a, ha⟩ : ∃ a, k.ask? = some (h, a) :=
      hleaves.ask? (p := .start bound drain) (by simp [Wait.on])
    rw [hk] at ha
    cases ha
  | pull h q demand _ hleaves =>
    obtain ⟨a, ha⟩ : ∃ a, k.ask? = some (h, a) :=
      hleaves.ask? (p := .pull demand) (by simp [Wait.on])
    rw [hk] at ha
    cases ha
  | dropQuery => cases hk

end Client

end QueryLanes
