import QueryLanes.Proofs.Ends
import QueryLanes.Proofs.Records

/-!
# Deeds

A client changes in few ways. Of its own accord it gives out a lane, dispatches a request, polls or
drops an inbox, fails the requests of an owner, runs a callback, or closes the connection: these are
the deeds of a `Link`. With what it does to its records and queries they are the deeds of a `Client`.
Whatever a call does, or a waiting call that looks or gives up, is some deeds one after the other, and
`Client.acts_step` says which of them a move has the power to do; frames that arrive are none.

What every deed keeps is kept by all that a client does. So what holds after every call is proved for
the deeds, and the functions of the client need not be gone through again.
-/

namespace QueryLanes

variable {α : Type}

/-- What a function of the client may do that not all of them do. -/
inductive Power where
  | openLane
  | dispatch
  | close
  /-- Run a callback. -/
  | run (label : String)
  /-- Close a record. -/
  | ends (p : Parent)
  /-- Register a callback. -/
  | register (s : Handle)
  | openQuery
  /-- Take a query on. -/
  | turn (h : Handle)
deriving DecidableEq, Repr

/-! ## Queries last -/

namespace Query

variable {q q' q'' : Query α}

/-- Two queries that ask for the same and read alike. -/
structure Alike (q q' : Query α) : Prop where
  reader : q'.reader = q.reader
  transaction : q'.transaction = q.transaction
  options : q'.options = q.options

theorem Alike.trans (h : q.Alike q') (h' : q'.Alike q'') : q.Alike q'' :=
  ⟨h'.reader.trans h.reader, h'.transaction.trans h.transaction, h'.options.trans h.options⟩

theorem consume_alike (q : Query α) (r : Response) : q.Alike (q.consume r).1 := by
  cases r with
  | item i => cases hm : i.meaning <;> simp only [consume, hm] <;> exact ⟨rfl, rfl, rfl⟩
  | _ => exact ⟨rfl, rfl, rfl⟩

theorem fuse_numbers (q : Query α) (demand : Demand α) :
    (q.fuse demand).lane = q.lane ∧ (q.fuse demand).owner = q.owner ∧
      (q.fuse demand).inbox = q.inbox := by
  obtain ⟨b, hb⟩ := q.exists_fuse demand
  rw [hb]
  exact ⟨rfl, rfl, rfl⟩

theorem consume_numbers (q : Query α) (r : Response) :
    (q.consume r).1.lane = q.lane ∧ (q.consume r).1.owner = q.owner ∧
      (q.consume r).1.inbox = q.inbox := by
  cases r with
  | item i => cases hm : i.meaning <;> simp [consume, hm, fail, endBatch]
  | _ => simp [consume, fail]

/-- Two states of one query: its requests go out on one lane and ask for the same. -/
structure Lasts (q q' : Query α) : Prop extends q.Alike q' where
  lane : q'.lane = q.lane

theorem Lasts.refl (q : Query α) : q.Lasts q := ⟨⟨rfl, rfl, rfl⟩, rfl⟩

theorem Lasts.trans (h : q.Lasts q') (h' : q'.Lasts q'') : q.Lasts q'' :=
  ⟨h.toAlike.trans h'.toAlike, h'.lane.trans h.lane⟩

theorem lasts_fail (q : Query α) (e : Failure) : q.Lasts (q.fail e) := ⟨⟨rfl, rfl, rfl⟩, rfl⟩

theorem lasts_hold (q : Query α) (r : Response) : q.Lasts (q.hold r) := ⟨⟨rfl, rfl, rfl⟩, rfl⟩

theorem lasts_fuse (q : Query α) (demand : Demand α) : q.Lasts (q.fuse demand) := by
  obtain ⟨b, hb⟩ := q.exists_fuse demand
  rw [hb]
  exact ⟨⟨rfl, rfl, rfl⟩, rfl⟩

theorem lasts_consume (q : Query α) (r : Response) : q.Lasts (q.consume r).1 :=
  ⟨q.consume_alike r, (q.consume_numbers r).1⟩

/-- What a query is given comes out of its stash, or out of its inbox. -/
theorem poll_cases {r r' : Router} {d : Delivery} (h : q.poll r = some (d, q', r')) :
    (r' = r ∧ q' = { q with stash := none }) ∨ (r.poll q.inbox = some (d, r') ∧ q' = q) := by
  unfold poll at h
  split at h
  · cases h
    exact .inl ⟨rfl, rfl⟩
  · obtain ⟨p, hp, he⟩ := Option.map_eq_some_iff.1 h
    cases he
    exact .inr ⟨hp, rfl⟩

theorem lasts_poll {r r' : Router} {d : Delivery} (h : q.poll r = some (d, q', r')) :
    q.Lasts q' := by
  rcases poll_cases h with ⟨-, rfl⟩ | ⟨-, rfl⟩
  · exact ⟨⟨rfl, rfl, rfl⟩, rfl⟩
  · exact .refl q'

end Query

/-! ## The deeds of a link -/

namespace Link

variable {P : Power → Prop} {l l' l'' : Link}

/-- One thing that a client does to its link. Lanes are given out while it is open. -/
inductive Deed (P : Power → Prop) : Link → Link → Prop where
  | openLane {l : Link} (ho : l.isOpen = true) (hp : P .openLane) : Deed P l l.openLane.2
  | dispatch (l : Link) (lane : Lane) (o : Owner) (request : Request) (hp : P .dispatch) :
    Deed P l (l.dispatch lane o request).2
  | dropInbox (l : Link) (i : Nat) : Deed P l (l.dropInbox i)
  | poll {l : Link} {i : Nat} {d : Delivery} {r : Router} (h : l.router.poll i = some (d, r)) :
    Deed P l { l with router := r }
  | fail (l : Link) (doomed : Owner → Bool) (e : Failure) : Deed P l (l.fail doomed e)
  | ran (l : Link) (label : String) (hp : P (.run label)) : Deed P l (l.record (.ran label))
  | close (l : Link) (hp : P .close) : Deed P l l.close

/-- Some deeds lead from one link to the other. -/
def Works (P : Power → Prop) : Link → Link → Prop := Relation.ReflTransGen (Deed P)

theorem Works.refl (l : Link) : l.Works P l := Relation.ReflTransGen.refl

theorem Works.trans (h : l.Works P l') (h' : l'.Works P l'') : l.Works P l'' :=
  Relation.ReflTransGen.trans h h'

theorem Deed.works (h : l.Deed P l') : l.Works P l' := .single h

/-- What every deed keeps is kept. -/
theorem Works.keeps {K : Link → Prop} (hdeed : ∀ l l' : Link, l.Deed P l' → K l → K l')
    (h : l.Works P l') (hl : K l) : K l' := by
  induction h with
  | refl => exact hl
  | tail _ hd ih => exact hdeed _ _ hd ih

/-! ### Several deeds -/

theorem works_request (ho : l.isOpen = true) (hlane : P .openLane) (hdispatch : P .dispatch)
    (o : Owner) (request : Request) : l.Works P (l.request o request).2 :=
  (Deed.openLane ho hlane).works.trans (Deed.dispatch l.openLane.2 _ o request hdispatch).works

theorem works_post (ho : l.isOpen = true) (hlane : P .openLane) (hdispatch : P .dispatch)
    (o : Owner) (request : Request) : l.Works P (l.post o request) := by
  have hrequest := works_request ho hlane hdispatch o request
  obtain ⟨l', hl, h | ⟨i, -, h⟩⟩ := post_eq (l := l) o request <;> rw [h, ← hl]
  · exact hrequest
  · exact hrequest.trans (Deed.dropInbox _ i).works

theorem works_ran_all (l : Link) {labels : List String} (hrun : ∀ label ∈ labels, P (.run label)) :
    l.Works P (labels.foldl (fun l label => l.record (.ran label)) l) := by
  induction labels generalizing l with
  | nil => exact .refl l
  | cons label labels ih =>
    rw [List.forall_mem_cons] at hrun
    exact (Deed.ran l label hrun.1).works.trans (ih _ hrun.2)

/-! ### What deeds leave alone -/

theorem isOpen_of_deed (h : l.Deed P l') (ho : l.isOpen = false) : l'.isOpen = false := by
  cases h with
  | dispatch lane o request => rwa [isOpen_dispatch]
  | close => exact isOpen_close l
  | _ => exact ho

/-- Nothing opens a closed link again. -/
theorem Works.isOpen (h : l.Works P l') (ho : l.isOpen = false) : l'.isOpen = false :=
  h.keeps (K := (·.isOpen = false)) (fun _ _ hd => isOpen_of_deed hd) ho

/-- Without the power to close it a link stays as it is. -/
theorem Works.isOpen_eq (h : l.Works P l') (hclose : ¬ P .close) : l'.isOpen = l.isOpen := by
  refine h.keeps (K := fun l' => l'.isOpen = l.isOpen) (fun l₁ l₂ hd heq => ?_) rfl
  rw [← heq]
  cases hd with
  | dispatch lane o request => exact isOpen_dispatch ..
  | close hp => exact absurd hp hclose
  | _ => rfl

theorem issued_of_deed (h : l.Deed P l') :
    l'.issued = l.issued ∨ P .openLane ∧ l'.issued = l.issued + 1 := by
  cases h with
  | openLane _ hp => exact .inr ⟨hp, rfl⟩
  | dispatch lane o request => exact .inl (issued_dispatch ..)
  | close => exact .inl (issued_close _)
  | _ => exact .inl rfl

/-- No lane is taken back. -/
theorem Works.issued_le (h : l.Works P l') : l.issued ≤ l'.issued := by
  refine h.keeps (K := fun l' => l.issued ≤ l'.issued) (fun l₁ l₂ hd hle => ?_) (Nat.le_refl _)
  rcases issued_of_deed hd with heq | ⟨-, heq⟩ <;> omega

theorem Works.issued_eq (h : l.Works P l') (hlane : ¬ P .openLane) : l'.issued = l.issued := by
  refine h.keeps (K := fun l' => l'.issued = l.issued) (fun l₁ l₂ hd heq => ?_) rfl
  exact ((issued_of_deed hd).resolve_right fun h => hlane h.1).trans heq

end Link

/-! ## The deeds of a client -/

theorem Call.Leaves.ask? {k : Call α} {h : Handle} {w : Wait α} {p : Pause α} (hk : k.Leaves w)
    (hw : w.on h = some p) : ∃ a, k.ask? = some (h, a) := by
  cases w with
  | errand => cases hw
  | start h' bound drain =>
    obtain ⟨rfl, -⟩ := Option.ite_none_right_eq_some.1 hw
    cases drain <;> cases hk <;> exact ⟨_, rfl⟩
  | pull h' demand =>
    obtain ⟨rfl, -⟩ := Option.ite_none_right_eq_some.1 hw
    cases demand with
    | answer | item =>
      cases hk
      exact ⟨_, rfl⟩
    | rest got =>
      obtain ⟨bound, rfl⟩ := hk
      exact ⟨_, rfl⟩

namespace Client

variable {P : Power → Prop} {c c₁ c' : Client α}

/-- One thing that a client does. A session is opened without callbacks, a transaction in a session
that is there, and a query with options that are valid; a query that is taken on asks for what it
asked for. -/
inductive Deed (P : Power → Prop) : Client α → Client α → Prop where
  | link {c : Client α} {l : Link} (h : c.link.Deed P l) : Deed P c { c with link := l }
  | wait (c : Client α) (clones : Nat) (w : Option (Wait α)) :
    Deed P c { c with clones := clones, waiting := w }
  | addSession (c : Client α) (y : Session) (ho : y.isOpen = true) (hcallbacks : y.callbacks = []) :
    Deed P c { c with sessions := c.sessions ++ [y] }
  | addTransaction (c : Client α) (x : Transaction) (ho : x.isOpen = true)
    (hsession : ∃ y, c.sessions[x.session]? = some y ∧ y.id = x.sessionId) :
    Deed P c { c with transactions := c.transactions ++ [x] }
  | register (c : Client α) (s : Handle) (labels : List String) (hp : P (.register s)) :
    Deed P c (c.modifySession s ({ · with callbacks := labels }))
  | endSession (c : Client α) (s : Handle) (hp : P (.ends (.session s))) :
    Deed P c (c.modifySession s ({ · with isOpen := false, callbacks := [] }))
  | dropSession (c : Client α) (s : Handle) :
    Deed P c (c.modifySession s ({ · with held := false }))
  | endTransaction (c : Client α) (t : Handle) (hp : P (.ends (.transaction t))) :
    Deed P c (c.modifyTransaction t ({ · with isOpen := false }))
  | dropTransaction (c : Client α) (t : Handle) :
    Deed P c (c.modifyTransaction t ({ · with held := false }))
  | openQuery (c : Client α) {q : Query α} (hv : q.options.validate = .ok ()) (hp : P .openQuery) :
    Deed P c { c with queries := c.queries ++ [q] }
  | turn {c : Client α} {h : Handle} {q q' : Query α} (hq : c.queries[h]? = some q)
    (hlasts : q.Lasts q') (hp : P (.turn h)) : Deed P c (c.setQuery h q')

/-- Some deeds lead from one client to the other. -/
def Acts (P : Power → Prop) : Client α → Client α → Prop := Relation.ReflTransGen (Deed P)

theorem Acts.refl (c : Client α) : c.Acts P c := Relation.ReflTransGen.refl

theorem Acts.trans (h : c.Acts P c₁) (h' : c₁.Acts P c') : c.Acts P c' :=
  Relation.ReflTransGen.trans h h'

theorem Deed.acts (h : c.Deed P c') : c.Acts P c' := .single h

/-- What every deed keeps is kept. -/
theorem Acts.keeps {K : Client α → Prop} (hdeed : ∀ c c' : Client α, c.Deed P c' → K c → K c')
    (h : c.Acts P c') (hc : K c) : K c' := by
  induction h with
  | refl => exact hc
  | tail _ hd ih => exact hdeed _ _ hd ih

/-! ### What deeds leave alone -/

theorem Acts.works (h : c.Acts P c') : c.link.Works P c'.link := by
  refine h.keeps (K := fun c' => c.link.Works P c'.link) (fun c₁ c₂ hd hw => ?_) (.refl _)
  cases hd with
  | link h => exact hw.trans h.works
  | _ => exact hw

theorem Deed.edits (h : c.Deed P c') : Records.Edits (P <| .ends ·) c.records c'.records := by
  cases h with
  | link | wait | openQuery | turn => exact .refl _
  | addSession y ho => exact (Records.Edit.addSession c.records y ho).edits
  | addTransaction x ho hs => exact (Records.Edit.addTransaction c.records x hs ho).edits
  | register s labels =>
    exact Records.Edit.edits (.session c.records s ({ · with callbacks := labels }) (fun _ => rfl)
      (.inr fun _ => rfl))
  | endSession s hp =>
    exact Records.Edit.edits (.session c.records s ({ · with isOpen := false, callbacks := [] })
      (fun _ => rfl) (.inl hp))
  | dropSession s =>
    exact Records.Edit.edits (.session c.records s ({ · with held := false }) (fun _ => rfl)
      (.inr fun _ => rfl))
  | endTransaction t hp =>
    exact Records.Edit.edits (.transaction c.records t ({ · with isOpen := false })
      (fun _ => ⟨rfl, rfl⟩) (.inl hp))
  | dropTransaction t =>
    exact Records.Edit.edits (.transaction c.records t ({ · with held := false })
      (fun _ => ⟨rfl, rfl⟩) (.inr fun _ => rfl))

theorem Acts.edits (h : c.Acts P c') : Records.Edits (P <| .ends ·) c.records c'.records :=
  h.keeps (K := fun c' => Records.Edits (P <| .ends ·) c.records c'.records)
    (fun _ _ hd he => he.trans hd.edits) (.refl _)

theorem Acts.queries_eq (h : c.Acts P c') (hopen : ¬ P .openQuery) (hturn : ∀ h, ¬ P (.turn h)) :
    c'.queries = c.queries := by
  refine h.keeps (K := fun c' => c'.queries = c.queries) (fun c₁ c₂ hd heq => ?_) rfl
  cases hd with
  | openQuery _ hp => exact absurd hp hopen
  | turn _ _ hp => exact absurd hp (hturn _)
  | _ => exact heq

/-- A query that is not taken on stays as it is. -/
theorem Acts.getElem?_queries (h : c.Acts P c') {i : Handle} (hturn : ¬ P (.turn i)) {q : Query α}
    (hq : c.queries[i]? = some q) : c'.queries[i]? = some q := by
  refine h.keeps (K := fun c' => c'.queries[i]? = some q) (fun c₁ c₂ hd hq => ?_) hq
  cases hd with
  | openQuery =>
    dsimp only
    rwa [List.getElem?_append_left (List.getElem?_eq_some_iff.1 hq).1]
  | @turn j _ _ _ _ hp =>
    have hne : j ≠ i := fun hj => hturn (hj ▸ hp)
    exact (List.getElem?_set_ne hne).trans hq
  | _ => exact hq

/-! ## Ends of handles -/

theorem acts_link {l : Link} (h : c.link.Works P l) : c.Acts P { c with link := l } :=
  h.keeps (K := fun l => c.Acts P { c with link := l })
    (fun _ _ hd ha => ha.trans (Deed.link hd).acts) (.refl c)

theorem Acts.link (h : c.Acts P c') {l : Link} (hl : c'.link.Works P l) :
    c.Acts P { c' with link := l } := h.trans (acts_link hl)

theorem Acts.wait (h : c.Acts P c') (w : Option (Wait α)) : c.Acts P { c' with waiting := w } :=
  h.trans (Deed.wait c' c'.clones w).acts

theorem Acts.replying (h : c.Acts P c') (r : Reply α) : c.Acts P (c'.replying r).1 := h.wait none

theorem acts_release (c : Client α) (hclose : P .close) : c.Acts P c.release := by
  rcases release_cases c with h | h <;> rw [h]
  · exact .refl c
  · exact acts_link (Link.Deed.close c.link hclose).works

theorem acts_finishTransaction (c : Client α) {t : Handle} (hp : P (.ends (.transaction t))) :
    c.Acts P (c.finishTransaction t) := by
  cases hx : c.transactions[t]? with
  | none =>
    rw [finishTransaction_of_none hx]
    exact .refl c
  | some x =>
    rw [finishTransaction_of_some hx]
    exact (Deed.endTransaction c t hp).acts.link
      (Link.Deed.fail c.link (·.transaction == some x.id) .transactionClosed).works

theorem acts_endSession (c : Client α) {s : Handle} {y : Session} (hp : P (.ends (.session s)))
    (hrun : ∀ label ∈ y.callbacks, P (.run label)) : c.Acts P (c.endSession s y) :=
  (Deed.endSession c s hp).acts.link
    ((Link.Deed.fail c.link (·.session == some y.id) .sessionClosed).works.trans
      (Link.works_ran_all (c.link.failSession y.id) hrun))

/-- Only a commit closes something when it is over. -/
theorem acts_conclude (c : Client α) {e : Errand}
    (hp : ∀ t, e = .commit t → P (.ends (.transaction t))) (d : Except Failure Response) :
    c.Acts P (c.conclude e d).1 := by
  have h := c.concludes e d
  generalize c.conclude e d = o at h ⊢
  cases h with
  | told r => exact (Acts.refl c).replying r
  | session database kind id => exact (Deed.addSession c _ rfl rfl).acts.replying _
  | transaction kind id hy => exact (Deed.addTransaction c _ rfl ⟨_, hy, rfl⟩).acts.replying _
  | commit t => exact (acts_finishTransaction c (hp t rfl)).replying _

section

variable (hlane : P .openLane) (hdispatch : P .dispatch)
include hlane hdispatch

theorem acts_run (c : Client α) (ho : c.link.isOpen = true) {e : Errand}
    (hp : ∀ t, e = .commit t → P (.ends (.transaction t))) (o : Owner) (request : Request) :
    c.Acts P (c.run e o request).1 := by
  have hrequest := Link.works_request ho hlane hdispatch o request
  have h := c.runs e o request
  generalize c.run e o request = out at h ⊢
  cases h with
  | sent heq =>
    rw [heq] at hrequest
    exact (acts_link hrequest).wait _
  | @refused f l heq =>
    rw [heq] at hrequest
    exact (acts_link hrequest).trans (acts_conclude { c with link := l } hp _)

theorem acts_closing {ended : Client α} (hended : c.Acts P ended) {isOpen reports : Bool}
    (hreports : reports = true → ended.link.isOpen = true) {e : Errand}
    (he : ∀ t, e ≠ .commit t) (o : Owner) (request : Request) :
    c.Acts P (c.closing ended isOpen reports e o request).1 := by
  have h := shuts c ended isOpen reports e o request
  generalize c.closing ended isOpen reports e o request = out at h ⊢
  cases h with
  | before => exact (Acts.refl c).replying _
  | told _ hr => exact hended.trans (acts_run hlane hdispatch ended (hreports hr)
      (fun t ht => absurd ht (he t)) o request)
  | silent => exact hended.replying _

theorem acts_quitting {given ended : Client α} (hgiven : c.Acts P given) (hended : c.Acts P ended)
    {isOpen reports : Bool} (hreports : reports = true → ended.link.isOpen = true) (o : Owner)
    (request : Request) : c.Acts P (given.quitting ended isOpen reports o request) := by
  have h := quits given ended isOpen reports o request
  generalize given.quitting ended isOpen reports o request = out at h ⊢
  cases h with
  | before => exact hgiven
  | told _ hr => exact hended.link (Link.works_post (hreports hr) hlane hdispatch o request)
  | silent => exact hended

theorem acts_closeSession (c : Client α) {s : Handle} {y : Session} (hp : P (.ends (.session s)))
    (hrun : ∀ label ∈ y.callbacks, P (.run label)) : c.Acts P (c.closeSession s y).1 := by
  rw [closeSession_eq]
  refine acts_closing hlane hdispatch (acts_endSession c hp hrun) id ?_ _ _
  nofun

theorem acts_closeTransaction (c : Client α) {t : Handle} (hp : P (.ends (.transaction t)))
    (x : Transaction) : c.Acts P (c.closeTransaction t x).1 := by
  rw [closeTransaction_eq]
  refine acts_closing hlane hdispatch (acts_finishTransaction c hp) isOpen_of_reportsClose ?_ _ _
  nofun

theorem acts_dropSession (c : Client α) (hclose : P .close) {s : Handle} {y : Session}
    (hp : P (.ends (.session s))) (hrun : ∀ label ∈ y.callbacks, P (.run label)) :
    c.Acts P (c.dropSession s y) := by
  have hgiven : c.Acts P (c.modifySession s ({ · with held := false })) := (Deed.dropSession c s).acts
  rw [dropSession_eq]
  exact (acts_quitting hlane hdispatch hgiven (hgiven.trans (acts_endSession _ hp hrun)) id
    _ _).trans (acts_release _ hclose)

theorem acts_dropTransaction (c : Client α) (hclose : P .close) {t : Handle}
    (hp : P (.ends (.transaction t))) (x : Transaction) : c.Acts P (c.dropTransaction t x) := by
  have hgiven : c.Acts P (c.modifyTransaction t ({ · with held := false })) :=
    (Deed.dropTransaction c t).acts
  rw [dropTransaction_eq]
  exact (acts_quitting hlane hdispatch hgiven (hgiven.trans (acts_finishTransaction _ hp))
    isOpen_of_reportsClose _ _).trans (acts_release _ hclose)

/-! ## Queries -/

theorem acts_openQuery (c : Client α) (hopen : P .openQuery) (x : Transaction) (text : Payload)
    (options : QueryOptions) (reader : Reader α) :
    c.Acts P (c.openQuery x text options reader).1 := by
  have h := c.enters x text options reader
  generalize c.openQuery x text options reader = out at h ⊢
  cases h with
  | refused => exact (Acts.refl c).replying _
  | unsent _ ho heq =>
    have hrequest := Link.works_request (ensureOpen_eq_ok.1 ho).1 hlane hdispatch x.owner
      (.fetch x.id (.first text options))
    rw [heq] at hrequest
    exact (acts_link hrequest).replying _
  | opened hv ho heq =>
    have hrequest := Link.works_request (ensureOpen_eq_ok.1 ho).1 hlane hdispatch x.owner
      (.fetch x.id (.first text options))
    rw [heq] at hrequest
    exact ((acts_link hrequest).trans (Deed.openQuery _ hv hopen).acts).replying _

end

section

variable {h : Handle} {x q : Query α}
variable (hx : c.queries[h]? = some x) (hlasts : x.Lasts q) (hturn : P (.turn h))
include hx hlasts hturn

theorem acts_setQuery : c.Acts P (c.setQuery h q) := (Deed.turn hx hlasts hturn).acts

theorem acts_beginPull (demand : Demand α) : c.Acts P (c.beginPull h q demand).1 := by
  have h := c.beginsPull h q demand
  generalize c.beginPull _ q demand = out at h ⊢
  cases h with
  | exhausted => exact (Acts.refl c).replying _
  | failed => exact (acts_setQuery hx (hlasts.trans (q.lasts_fuse demand)) hturn).replying _
  | waits => exact (Acts.refl c).wait _

theorem acts_beginStart (bound : Option Nat) (drain : Bool) :
    c.Acts P (c.beginStart h q bound drain).1 := by
  have h := c.beginsStart h q bound drain
  generalize c.beginStart _ q bound drain = out at h ⊢
  cases h with
  | waits => exact (Acts.refl c).wait _
  | failed | done => exact (Acts.refl c).replying _
  | pulls => exact acts_beginPull hx hlasts hturn _

theorem acts_fetchMore (hdispatch : P .dispatch) (token : UInt64) (demand : Demand α) :
    c.Acts P (c.fetchMore h q token demand).1 := by
  have hworks := (Link.Deed.dispatch c.link q.lane q.owner
    (.fetch q.transaction (.continuation token q.options)) hdispatch).works
  have h := c.fetchesMore h q token demand
  generalize c.fetchMore _ q token demand = out at h ⊢
  cases h with
  | @sent i l heq =>
    rw [heq] at hworks
    have hlinked := (acts_link hworks).link (Link.Deed.dropInbox l q.inbox).works
    exact (hlinked.trans (acts_setQuery (q := { q with inbox := i }) hx
      ⟨⟨hlasts.reader, hlasts.transaction, hlasts.options⟩, hlasts.lane⟩ hturn)).wait _
  | @failed e l heq =>
    rw [heq] at hworks
    exact ((acts_link hworks).trans (acts_setQuery hx
      (hlasts.trans ((q.lasts_fail e).trans ((q.fail e).lasts_fuse demand))) hturn)).replying _

theorem acts_pulled (hdispatch : P .dispatch) (demand : Demand α) (d : Delivery) :
    c.Acts P (c.pulled h q demand d).1 := by
  have hconsume {r : Response} {q' : Query α} {v : Query.Pulled α} (heq : q.consume r = (q', v)) :
      x.Lasts q' := by
    have h := hlasts.trans (q.lasts_consume r)
    rwa [heq] at h
  have h := c.readsOn h q demand d
  generalize c.pulled _ q demand d = out at h ⊢
  cases h with
  | @broken _ e =>
    exact (acts_setQuery hx
      (hlasts.trans ((q.lasts_fail e).trans ((q.fail e).lasts_fuse demand))) hturn).replying _
  | answer heq | ended heq => exact (acts_setQuery hx (hconsume heq) hturn).replying _
  | got heq => exact (acts_setQuery hx (hconsume heq) hturn).wait _
  | @failed _ r q' e heq =>
    have hl := heq.elim hconsume hconsume
    exact (acts_setQuery hx (hl.trans (q'.lasts_fuse demand)) hturn).replying _
  | more heq => exact acts_fetchMore hx (hconsume heq) hturn hdispatch _ _

theorem acts_started (drain : Bool) (d : Delivery) : c.Acts P (c.started h q drain d).1 := by
  have h := c.hearsStart h q drain d
  generalize c.started _ q drain d = out at h ⊢
  cases h with
  | @held r => exact (acts_setQuery hx (hlasts.trans (q.lasts_hold r)) hturn).replying _
  | @goesOn r => exact (acts_setQuery hx (hlasts.trans (q.lasts_hold r)) hturn).wait _
  | timedOut => exact (Acts.refl c).replying _
  | @failed e => exact (acts_setQuery hx (hlasts.trans (q.lasts_fail e)) hturn).replying _

end

theorem acts_dropQuery {h : Handle} {q : Query α} (hq : c.queries[h]? = some q)
    (hturn : P (.turn h)) (hclose : P .close) : c.Acts P (c.dropQuery h q) := by
  have hset := acts_setQuery (q := { q with held := false }) hq ⟨⟨rfl, rfl, rfl⟩, rfl⟩ hturn
  exact (hset.link (Link.Deed.dropInbox c.link q.inbox).works).trans (acts_release _ hclose)

/-! ## Moves -/

/-- The powers of a move. -/
def May (c : Client α) : Move α → Power → Prop
  | m, .ends p => c.Ends m p
  | m, .turn h => c.concerns m h = true
  | .call k, .openLane | .call k, .dispatch => k.ask? = none
  | .call k, .run label => ∃ s y, c.Closes s (.call k) ∧ c.session? s = some y ∧ label ∈ y.callbacks
  | .call k, .register s => ∃ label, k = .onClose s label
  | .call k, .openQuery => ∃ t text options reader, k = .query t text options reader
  | .call _, .close | .lose, .close => True
  | .resume, .dispatch | .expire, .dispatch => True
  | _, _ => False

theorem acts_call {k : Call α} (hmay : ∀ p, c.May (.call k) p → P p) :
    c.Acts P (c.call k).1 := by
  cases hidle : c.waiting with
  | some w =>
    rw [call_of_waiting hidle]
    exact .refl c
  | none =>
  have hturn {h : Handle} {a : Ask} (hask : k.ask? = some (h, a)) : P (.turn h) :=
    hmay (.turn h) (by simp [May, concerns, hidle, hask])
  have h := c.begins_call k
  generalize c.call k = o at h ⊢
  cases h with
  | busy => exact .refl c
  | told r => exact (Acts.refl c).replying r
  | clone => exact (Deed.wait c (c.clones + 1) c.waiting).acts.replying _
  | dropClient =>
    exact ((Deed.wait c (c.clones - 1) c.waiting).acts.trans
      (acts_release _ (hmay .close trivial))).replying _
  | close => exact (acts_link (Link.Deed.close c.link (hmay .close trivial)).works).replying _
  | @run _ e he ho o request =>
    have hask : k.ask? = none := by cases k <;> first | rfl | cases he
    refine acts_run (hmay .openLane hask) (hmay .dispatch hask) c ho (fun t ht => ?_) o request
    subst ht
    refine hmay (.ends _) (.inl ⟨k, rfl, ?_⟩)
    cases k <;> cases he
    rfl
  | onClose s label x =>
    exact (Deed.register c s _ (hmay (.register s) ⟨label, rfl⟩)).acts.replying _
  | @closeSession s y hw hy =>
    have hcloses : c.Closes s (.call (.closeSession s)) :=
      ⟨_, rfl, rfl, hw, Option.isSome_of_eq_some hy⟩
    exact acts_closeSession (hmay .openLane rfl) (hmay .dispatch rfl) c
      (hmay (.ends (.session s)) hcloses) fun label hl => hmay (.run label) ⟨s, y, hcloses, hy, hl⟩
  | @dropSession s y hw hy =>
    have hcloses : c.Closes s (.call (.dropSession s)) :=
      ⟨_, rfl, rfl, hw, Option.isSome_of_eq_some hy⟩
    exact (acts_dropSession (hmay .openLane rfl) (hmay .dispatch rfl) c (hmay .close trivial)
      (hmay (.ends (.session s)) hcloses)
      fun label hl => hmay (.run label) ⟨s, y, hcloses, hy, hl⟩).replying _
  | closeTransaction t x =>
    exact acts_closeTransaction (hmay .openLane rfl) (hmay .dispatch rfl) c
      (hmay (.ends _) (.inl ⟨_, rfl, rfl⟩)) x
  | dropTransaction t x =>
    exact (acts_dropTransaction (hmay .openLane rfl) (hmay .dispatch rfl) c (hmay .close trivial)
      (hmay (.ends _) (.inl ⟨_, rfl, rfl⟩)) x).replying _
  | query t text options reader x =>
    exact acts_openQuery (hmay .openLane rfl) (hmay .dispatch rfl) c
      (hmay .openQuery ⟨t, text, options, reader, rfl⟩) x text options reader
  | start h q bound drain hq hk =>
    obtain ⟨a, ha⟩ : ∃ a, k.ask? = some (h, a) :=
      hk.ask? (p := .start bound drain) (by simp [Wait.on])
    exact acts_beginStart (Option.filter_eq_some_iff.1 hq).1 (.refl q) (hturn ha) bound drain
  | pull h q demand hq hk =>
    obtain ⟨a, ha⟩ : ∃ a, k.ask? = some (h, a) := hk.ask? (p := .pull demand) (by simp [Wait.on])
    exact acts_beginPull (Option.filter_eq_some_iff.1 hq).1 (.refl q) (hturn ha) demand
  | dropQuery h q hq =>
    exact (acts_dropQuery (Option.filter_eq_some_iff.1 hq).1 (hturn rfl)
      (hmay .close trivial)).replying _

theorem acts_finds {o : Outcome α} (h : c.Finds o)
    (hends : ∀ t i, c.waiting = some (.errand (.commit t) i) → P (.ends (.transaction t)))
    (hturn : ∀ h, c.waitsOn h = true → P (.turn h)) (hdispatch : P .dispatch) :
    c.Acts P o.1 := by
  cases h with
  | nothing => exact .refl c
  | late => exact (Acts.refl c).replying _
  | @errand i d r e hp hw =>
    have hlinked : c.Acts P { c with link := { c.link with router := r.drop i } } :=
      acts_link ((Link.Deed.poll hp).works.trans
        (Link.Deed.dropInbox { c.link with router := r } i).works)
    exact hlinked.trans (acts_conclude _ (fun t ht => hends t i (ht ▸ hw)) d)
  | @start q d r h drain hp bound hw hq =>
    have hpolled : c.Acts P { c with link := { c.link with router := r } } :=
      acts_link (Link.Deed.poll hp).works
    exact hpolled.trans (acts_started (c := { c with link := { c.link with router := r } }) hq
      (.refl q) (hturn h (by simp [waitsOn, hw, Wait.on])) drain d)
  | @pull q q' d r h demand hp hw hq =>
    have hpolled : c.Acts P { c with link := { c.link with router := r } } := by
      rcases Query.poll_cases hp with ⟨rfl, -⟩ | ⟨hp, -⟩
      · exact .refl c
      · exact acts_link (Link.Deed.poll hp).works
    exact hpolled.trans (acts_pulled (c := { c with link := { c.link with router := r } }) hq
      (Query.lasts_poll hp) (hturn h (by simp [waitsOn, hw, Wait.on])) hdispatch demand d)
  | gaveUp e i hw =>
    exact (acts_link (Link.Deed.dropInbox c.link i).works).trans
      (acts_conclude _ (fun t ht => hends t i (ht ▸ hw)) _)

/-- **What a move does is within its powers.** Only a frame that arrives is not the client's own
doing. -/
theorem acts_step (c : Client α) (m : Move α) :
    (∃ f, m = .arrive f) ∨ c.Acts (c.May m) (c.step m).1 := by
  cases m with
  | call k => exact .inr (acts_call fun _ => id)
  | arrive f => exact .inl ⟨f, rfl⟩
  | lose => exact .inr (acts_link (Link.Deed.close c.link trivial).works)
  | resume =>
    exact .inr (acts_finds c.finds_resume (fun _ i hi => .inr ⟨⟨i, hi⟩, .inl rfl⟩)
      (fun _ => id) trivial)
  | expire =>
    exact .inr (acts_finds c.finds_expire (fun _ i hi => .inr ⟨⟨i, hi⟩, .inr rfl⟩)
      (fun _ => id) trivial)

theorem works_step (c : Client α) {m : Move α} (hm : ∀ f, m ≠ .arrive f) :
    c.link.Works (c.May m) (c.step m).1.link :=
  ((c.acts_step m).resolve_left fun ⟨f, hf⟩ => hm f hf).works

end Client

end QueryLanes
