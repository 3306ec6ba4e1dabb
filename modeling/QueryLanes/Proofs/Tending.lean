import QueryLanes.Proofs.Likeness
import QueryLanes.Proofs.Steps

/-!
# Who waits on an inbox

An inbox that is not dropped is somebody's: that of the errand in progress, or of a query that the
caller still has. `Client.Tended` says so, and `Tended.step` that every move keeps it. Requests open
one inbox each (`Link.isSome_inbox?_dispatch`), and whatever else a client does to its link opens none
(`Link.Sheds`), so that the invariant comes down to what becomes of the inbox of the request: the
caller waits on it, or a query keeps it, or it is dropped.
-/

namespace QueryLanes

variable {α : Type}

/-! ## Inboxes that stay -/

namespace Router

variable {r : Router} {i : Nat}

theorem isSome_inbox?_route {f : ServerFrame} (h : ((r.route f).inbox? i).isSome = true) :
    (r.inbox? i).isSome = true := by
  cases hs : r.slot? f.lane with
  | none => rwa [route, hs] at h
  | some s =>
    obtain ⟨fed, hr, hfed⟩ := route_eq hs
    have hi : (r.route f).inbox? i = fed.inbox? i := by rw [hr]; split <;> rfl
    rw [hi] at h
    rcases hfed with ⟨-, rfl⟩ | ⟨-, rfl⟩ | ⟨-, rfl⟩
    · exact h
    · rw [inbox?_deliver] at h
      split at h
      · rwa [Option.isSome_map] at h
      · exact h
    · exact h

theorem isSome_inbox?_failWhere {doomed : Owner → Bool} {e : Failure}
    (h : ((r.failWhere doomed e).1.inbox? i).isSome = true) : (r.inbox? i).isSome = true := by
  rcases inbox?_failWhere (r := r) doomed e i with ⟨-, -, -, -, he⟩ | ⟨-, he⟩
  · rwa [he, Option.isSome_map] at h
  · rwa [he] at h

/-- An inbox that is there after a step was there before, or was opened by it. -/
theorem isSome_inbox?_step {s : Step} (h : ((r.step s).inbox? i).isSome = true) :
    (r.inbox? i).isSome = true ∨ ∃ t, s.opens r = some t ∧ t.inbox = i := by
  cases s with
  | register lane o =>
    rw [step_register] at h
    cases hc : r.closed with
    | true => exact .inl (by rwa [hc] at h)
    | false =>
      rw [hc, if_neg Bool.false_ne_true] at h
      by_cases hi : i = r.inboxes.length
      · exact .inr ⟨_, by rw [Step.opens, hc]; rfl, hi.symm⟩
      · refine .inl ?_
        unfold inbox? at h ⊢
        dsimp only at h
        by_cases hlt : i < r.inboxes.length
        · rwa [List.getElem?_append_left hlt] at h
        · rw [List.getElem?_eq_none (by simp; omega)] at h
          cases h
  | withdraw lane => exact .inl h
  | route f => exact .inl (isSome_inbox?_route h)
  | failTransaction t e => exact .inl (isSome_inbox?_failWhere h)
  | failSession t e => exact .inl (isSome_inbox?_failWhere h)
  | close e => exact .inl (isSome_inbox?_failWhere (r := { r with closed := true }) h)
  | poll j =>
    obtain ⟨-, -, -, hother, hself⟩ := step_poll r j
    by_cases hi : i = j
    · rw [hi] at h ⊢
      exact .inl (hself ▸ h)
    · exact .inl (hother i hi ▸ h)
  | drop j =>
    rw [step, inbox?_drop] at h
    split at h
    · cases h
    · exact .inl h

end Router

namespace Link

variable {l l' l'' : Link} {i : Nat}

/-- The second link has no inbox that the first one has not. -/
def Sheds (l l' : Link) : Prop :=
  ∀ i, (l'.router.inbox? i).isSome = true → (l.router.inbox? i).isSome = true

theorem Sheds.trans (h : l.Sheds l') (h' : l'.Sheds l'') : l.Sheds l'' := fun i hi => h i (h' i hi)

/-- Only a request opens an inbox. -/
theorem sheds_of_step {s : Router.Step} (hs : s.opens l.router = none)
    (h : l'.router = l.router.step s) : l.Sheds l' := by
  intro i hi
  rw [h] at hi
  rcases Router.isSome_inbox?_step hi with hi | ⟨t, ht, -⟩
  · exact hi
  · rw [hs] at ht
    cases ht

theorem sheds_dropInbox (l : Link) (i : Nat) : l.Sheds (l.dropInbox i) :=
  sheds_of_step (s := .drop i) rfl rfl

theorem sheds_poll {d : Delivery} {r : Router} (h : l.router.poll i = some (d, r)) :
    l.Sheds { l with router := r } :=
  sheds_of_step (s := .poll i) rfl (by rw [Router.step, h])

theorem sheds_fail (l : Link) (doomed : Owner → Bool) (e : Failure) : l.Sheds (l.fail doomed e) :=
  fun _ => Router.isSome_inbox?_failWhere

theorem sheds_close (l : Link) : l.Sheds l.close := by
  unfold close
  split
  · exact sheds_of_step (s := .close .connectionClosed) rfl rfl
  · exact fun _ => id

theorem sheds_receive (l : Link) (f : ServerFrame) : l.Sheds (l.receive f) := by
  unfold receive
  split
  · exact sheds_of_step (s := .route f) rfl rfl
  · exact fun _ => id

/-- Without the power to send requests a link opens no inbox. -/
theorem Works.sheds {P : Power → Prop} (h : l.Works P l') (hdispatch : ¬ P .dispatch) :
    l.Sheds l' := by
  refine h.keeps (K := l.Sheds) (fun l₁ l₂ hd hs => hs.trans ?_) (fun _ => id)
  cases hd with
  | openLane | ran => exact fun _ => id
  | dispatch _ _ _ hp => exact absurd hp hdispatch
  | dropInbox i => exact l₁.sheds_dropInbox i
  | poll hpoll => exact sheds_poll hpoll
  | fail doomed e => exact l₁.sheds_fail doomed e
  | close => exact l₁.sheds_close

/-- A request that goes out opens its own inbox and no other. -/
theorem isSome_inbox?_dispatch {lane : Lane} {o : Owner} {request : Request}
    {res : Except Failure Nat} (h : l.dispatch lane o request = (res, l'))
    (hi : (l'.router.inbox? i).isSome = true) :
    (l.router.inbox? i).isSome = true ∨ res = .ok i := by
  unfold dispatch at h
  rw [Router.register_eq] at h
  cases hc : l.router.closed with
  | true =>
    rw [hc] at h
    cases h
    exact .inl hi
  | false =>
    rw [hc, if_neg Bool.false_ne_true] at h
    have hopened : ((l.router.step (.register lane o)).inbox? i).isSome = true →
        (l.router.inbox? i).isSome = true ∨ l.router.inboxes.length = i := by
      intro hi
      rcases Router.isSome_inbox?_step hi with hi | ⟨t, ht, rfl⟩
      · exact .inl hi
      · exact .inr (Router.Step.opens_eq_some ht).2.2.symm
    dsimp only at h
    split at h <;> rename_i hsend <;> cases h
    · unfold send at hsend
      split at hsend <;> cases hsend
      exact (hopened hi).imp_right (congrArg _)
    · -- what was opened is dropped again
      have hi : (((l.router.step (.register lane o)).withdraw lane).drop
        l.router.inboxes.length |>.inbox? i).isSome = true := hi
      rw [Router.inbox?_drop] at hi
      split at hi
      · cases hi
      · rename_i hne
        exact .inl ((hopened hi).resolve_right hne)

theorem isSome_inbox?_request {o : Owner} {request : Request} {res : Except Failure Nat}
    (h : l.request o request = (res, l')) (hi : (l'.router.inbox? i).isSome = true) :
    (l.router.inbox? i).isSome = true ∨ res = .ok i :=
  isSome_inbox?_dispatch (l := l.openLane.2) h hi

theorem sheds_post (l : Link) (o : Owner) (request : Request) : l.Sheds (l.post o request) := by
  intro i hi
  unfold post at hi
  split at hi <;> rename_i heq
  · unfold dropInbox at hi
    rw [Router.inbox?_drop] at hi
    split at hi
    · cases hi
    · rename_i hne
      exact (isSome_inbox?_request heq hi).resolve_right fun h => hne (Except.ok.inj h)
  · exact (isSome_inbox?_request heq hi).resolve_right nofun

end Link

/-! ## Who waits on an inbox -/

namespace Client

variable {c c' c'' : Client α} {h : Handle} {q : Query α} {i : Nat}

/-- Somebody waits on the inbox: the errand in progress, or a query that the caller has. -/
def Awaits (c : Client α) (i : Nat) : Prop :=
  (∃ e, c.waiting = some (.errand e i)) ∨
    ∃ (h : Handle) (q : Query α), c.query? h = some q ∧ q.inbox = i

/-- Somebody waits on every inbox that is not dropped, and a call waits on a query that the caller
has. -/
structure Tended (c : Client α) : Prop where
  inbox : ∀ i, (c.link.router.inbox? i).isSome = true → c.Awaits i
  waiting : ∀ (h : Handle) p, c.waiting = some (Pause.wait h p) → (c.query? h).isSome = true

/-- Every inbox that is not dropped is that of a query that the caller has. -/
def Kept (c : Client α) : Prop :=
  ∀ i, (c.link.router.inbox? i).isSome = true →
    ∃ (h : Handle) (q : Query α), c.query? h = some q ∧ q.inbox = i

/-- The queries stay as they are, and no inbox is new. -/
structure Lets (c c' : Client α) : Prop where
  queries : c'.queries = c.queries
  sheds : c.link.Sheds c'.link

theorem query?_congr (hq : c'.queries = c.queries) (h : Handle) : c'.query? h = c.query? h := by
  unfold query?
  rw [hq]

theorem Kept.lets (hk : c.Kept) (hl : c.Lets c') : c'.Kept := by
  intro i hi
  obtain ⟨h, q, hq, hqi⟩ := hk i (hl.sheds i hi)
  exact ⟨h, q, (query?_congr hl.queries h).trans hq, hqi⟩

theorem Tended.kept (ht : c.Tended) (hw : ∀ e i, c.waiting ≠ some (.errand e i)) : c.Kept :=
  fun i hi => (ht.inbox i hi).resolve_left fun ⟨e, he⟩ => hw e i he

theorem Tended.kept_of_idle (ht : c.Tended) (hw : c.waiting = none) : c.Kept :=
  ht.kept fun e i he => by rw [hw] at he; cases he

/-- With the inbox of the errand in progress all that is left is that of queries. -/
theorem Tended.kept_dropInbox (ht : c.Tended) {e : Errand} (hw : c.waiting = some (.errand e i)) :
    Kept { c with link := c.link.dropInbox i } := by
  intro j hj
  have hlive := c.link.sheds_dropInbox i j hj
  rcases ht.inbox j hlive with ⟨e', he⟩ | hq
  · rw [hw] at he
    cases he
    have hj : ((c.link.router.drop i).inbox? i).isSome = true := hj
    rw [Router.inbox?_drop, if_pos rfl] at hj
    cases hj
  · exact hq

theorem Kept.tended (hk : c.Kept) (hw : c.waiting = none) : c.Tended where
  inbox i hi := .inr (hk i hi)
  waiting h p hp := by rw [hw] at hp; cases hp

theorem Kept.replying (hk : c.Kept) (r : Reply α) : (c.replying r).1.Tended :=
  Kept.tended (c := (c.replying r).1) (hk.lets ⟨rfl, fun _ => id⟩) rfl

theorem Kept.wait (hk : c.Kept) (hq : (c.query? h).isSome = true) (p : Pause α) :
    Tended { c with waiting := some (p.wait h) } where
  inbox i hi := .inr (hk i hi)
  waiting h' p' hp := by
    have hh := Pause.wait_inj (Option.some.inj hp)
    rwa [← hh]

/-! ### Errands -/

theorem lets_post (c : Client α) (o : Owner) (request : Request) :
    c.Lets { c with link := c.link.post o request } := ⟨rfl, c.link.sheds_post o request⟩

/-- What is done for no query, and sends nothing. -/
def Idle : Power → Prop
  | .dispatch | .openQuery | .turn _ => False
  | _ => True

theorem Acts.lets (h : c.Acts Idle c') : c.Lets c' :=
  ⟨h.queries_eq id fun _ => id, h.works.sheds id⟩

theorem Kept.acts (hk : c.Kept) (h : c.Acts Idle c') : c'.Kept := hk.lets h.lets

theorem Kept.conclude (hk : c.Kept) (e : Errand) (d : Except Failure Response) :
    (c.conclude e d).1.Tended :=
  (hk.acts (acts_conclude c (fun _ _ => trivial) d)).tended (waiting_conclude e d)

theorem Kept.run (hk : c.Kept) (e : Errand) (o : Owner) (request : Request) :
    (c.run e o request).1.Tended := by
  have h := c.runs e o request
  generalize c.run e o request = out at h ⊢
  cases h with
  | sent heq =>
    refine ⟨fun i hi => ?_, fun h p hp => absurd (Option.some.inj hp).symm Pause.wait_ne_errand⟩
    rcases Link.isSome_inbox?_request heq hi with hi | he
    · exact .inr (hk i hi)
    · exact .inl ⟨e, by rw [Except.ok.inj he]⟩
  | @refused f l heq =>
    have hl : c.Lets { c with link := l } :=
      ⟨rfl, fun i hi => (Link.isSome_inbox?_request heq hi).resolve_right nofun⟩
    exact (hk.lets hl).conclude ..

section

variable {ended : Client α} (hk : c.Kept) (hended : c.Acts Idle ended)
include hk hended

theorem Kept.closing (isOpen reports : Bool) (e : Errand) (o : Owner) (request : Request) :
    (c.closing ended isOpen reports e o request).1.Tended := by
  have h := shuts c ended isOpen reports e o request
  generalize c.closing ended isOpen reports e o request = out at h ⊢
  cases h with
  | before => exact hk.replying _
  | told => exact (hk.acts hended).run ..
  | silent => exact (hk.acts hended).replying _

theorem Kept.quitting {given : Client α} (hgiven : given.Kept) (isOpen reports : Bool) (o : Owner)
    (request : Request) : (given.quitting ended isOpen reports o request).release.Kept := by
  refine Kept.acts ?_ (acts_release _ trivial)
  have h := quits given ended isOpen reports o request
  generalize given.quitting ended isOpen reports o request = out at h ⊢
  cases h with
  | before => exact hgiven
  | told => exact (hk.acts hended).lets (lets_post ..)
  | silent => exact hk.acts hended

end

theorem Kept.closeSession (hk : c.Kept) (s : Handle) (y : Session) :
    (c.closeSession s y).1.Tended :=
  hk.closing (acts_endSession c trivial fun _ _ => trivial) ..

theorem Kept.closeTransaction (hk : c.Kept) (t : Handle) (x : Transaction) :
    (c.closeTransaction t x).1.Tended :=
  hk.closing (acts_finishTransaction c trivial) ..

theorem Kept.dropSession (hk : c.Kept) (s : Handle) (y : Session) : (c.dropSession s y).Kept := by
  have hgiven := hk.acts (Deed.dropSession c s).acts
  exact hgiven.quitting (acts_endSession _ trivial fun _ _ => trivial) hgiven _ _ _ _

theorem Kept.dropTransaction (hk : c.Kept) (t : Handle) (x : Transaction) :
    (c.dropTransaction t x).Kept := by
  have hgiven := hk.acts (Deed.dropTransaction c t).acts
  exact hgiven.quitting (acts_finishTransaction _ trivial) hgiven _ _ _ _

/-! ### Queries -/

theorem query?_append {q' : Query α} (hq : c.query? h = some q') :
    Client.query? { c with queries := c.queries ++ [q] } h = some q' := by
  obtain ⟨hq, hheld⟩ := Option.filter_eq_some_iff.1 hq
  refine Option.filter_eq_some_iff.2 ⟨?_, hheld⟩
  dsimp only
  rwa [List.getElem?_append_left (List.getElem?_eq_some_iff.1 hq).1]

theorem Kept.openQuery (hk : c.Kept) (x : Transaction) (text : Payload) (options : QueryOptions)
    (reader : Reader α) : (c.openQuery x text options reader).1.Tended := by
  have h := c.enters x text options reader
  generalize c.openQuery x text options reader = out at h ⊢
  cases h with
  | refused => exact hk.replying _
  | @unsent e l _ _ heq =>
    have hl : c.Lets { c with link := l } :=
      ⟨rfl, fun i hi => (Link.isSome_inbox?_request heq hi).resolve_right nofun⟩
    exact (hk.lets hl).replying _
  | opened _ _ heq =>
    refine Kept.replying (fun i hi => ?_) _
    rcases Link.isSome_inbox?_request heq hi with hi | he
    · obtain ⟨h, q, hq, hqi⟩ := hk i hi
      exact ⟨h, q, query?_append hq, hqi⟩
    · have hnew (q : Query α) : (c.queries ++ [q])[c.queries.length]? = some q :=
        List.getElem?_concat_length
      exact ⟨c.queries.length, _, Option.filter_eq_some_iff.2 ⟨hnew _, rfl⟩, Except.ok.inj he⟩

/-- The caller has the query, which may have come further since than the client has noted. -/
def Has (c : Client α) (h : Handle) (q : Query α) : Prop :=
  q.held = true ∧ ∃ x, c.query? h = some x ∧ x.inbox = q.inbox

theorem has_of_query? (hq : c.query? h = some q) : c.Has h q :=
  ⟨(Option.filter_eq_some_iff.1 hq).2, q, hq, rfl⟩

theorem query?_set_self (hq : (c.query? h).isSome = true) (hheld : q.held = true) :
    (c.setQuery h q).query? h = some q := by
  obtain ⟨x, hx⟩ := Option.isSome_iff_exists.1 hq
  have hlt := (List.getElem?_eq_some_iff.1 (Option.filter_eq_some_iff.1 hx).1).1
  exact Option.filter_eq_some_iff.2 ⟨List.getElem?_set_self hlt, hheld⟩

theorem query?_set_of_ne {h' : Handle} (hne : h ≠ h') :
    (c.setQuery h q).query? h' = c.query? h' := by
  unfold Client.query? setQuery
  rw [List.getElem?_set_ne hne]

theorem Has.query? (hq : c.Has h q) : (c.setQuery h q).query? h = some q := by
  obtain ⟨hheld, x, hx, -⟩ := hq
  exact query?_set_self (by rw [hx]; rfl) hheld

theorem Kept.setQuery (hk : c.Kept) (hq : c.Has h q) : (c.setQuery h q).Kept := by
  intro i hi
  obtain ⟨h', q', hq', rfl⟩ := hk i hi
  by_cases hh : h = h'
  · subst hh
    obtain ⟨-, x, hx, hxi⟩ := id hq
    rw [hx] at hq'
    cases hq'
    exact ⟨h, q, hq.query?, hxi.symm⟩
  · exact ⟨h', q', (query?_set_of_ne hh).trans hq', rfl⟩

theorem Has.consume (hq : c.Has h q) (r : Response) : c.Has h (q.consume r).1 := by
  have hheld : (q.consume r).1.held = q.held := by
    unfold Query.consume
    split
    · split <;> rfl
    · rfl
    · rfl
  obtain ⟨hh, x, hx, hxi⟩ := hq
  exact ⟨hheld.trans hh, x, hx, hxi.trans (Query.consume_numbers q r).2.2.symm⟩

theorem Has.fuse (hq : c.Has h q) (demand : Demand α) : c.Has h (q.fuse demand) := by
  obtain ⟨b, hb⟩ := q.exists_fuse demand
  rw [hb]
  exact hq

theorem Kept.beginPull (hk : c.Kept) (hq : c.query? h = some q) (demand : Demand α) :
    (c.beginPull h q demand).1.Tended := by
  have hb := c.beginsPull h q demand
  generalize c.beginPull h q demand = o at hb ⊢
  cases hb with
  | exhausted => exact hk.replying _
  | failed => exact (hk.setQuery ((has_of_query? hq).fuse demand)).replying _
  | waits => exact hk.wait (Option.isSome_of_eq_some hq) (.pull demand)

theorem Kept.beginStart (hk : c.Kept) (hq : c.query? h = some q) (bound : Option Nat)
    (drain : Bool) : (c.beginStart h q bound drain).1.Tended := by
  have hb := c.beginsStart h q bound drain
  generalize c.beginStart h q bound drain = o at hb ⊢
  cases hb with
  | waits => exact hk.wait (Option.isSome_of_eq_some hq) (.start bound drain)
  | failed | done => exact hk.replying _
  | pulls => exact hk.beginPull hq _

theorem Kept.dropQuery (hk : c.Kept) (hq : c.query? h = some q) : (c.dropQuery h q).Kept := by
  refine Kept.acts (fun i hi => ?_) (acts_release _ trivial)
  obtain ⟨h', q', hq', rfl⟩ := hk i (c.link.sheds_dropInbox q.inbox i hi)
  by_cases hh : h = h'
  · subst hh
    rw [hq] at hq'
    cases hq'
    have hi : ((c.link.router.drop q.inbox).inbox? q.inbox).isSome = true := hi
    rw [Router.inbox?_drop, if_pos rfl] at hi
    cases hi
  · exact ⟨h', q', (query?_set_of_ne hh).trans hq', rfl⟩

/-- The query goes on with a new inbox, and the one it had is dropped. -/
theorem Kept.renew (hk : c.Kept) (hq : c.Has h q) {l : Link} {j : Nat}
    (hl : ∀ i, (l.router.inbox? i).isSome = true →
      i ≠ q.inbox ∧ ((c.link.router.inbox? i).isSome = true ∨ i = j)) :
    Kept ({ c with link := l }.setQuery h { q with inbox := j }) := by
  obtain ⟨hheld, x, hx, hxi⟩ := hq
  intro i hi
  obtain ⟨hne, hi | rfl⟩ := hl i hi
  · obtain ⟨h', q', hq', rfl⟩ := hk i hi
    have hh : h ≠ h' := by
      rintro rfl
      rw [hx] at hq'
      cases hq'
      exact hne hxi
    exact ⟨h', q', (query?_set_of_ne (c := { c with link := l }) hh).trans hq', rfl⟩
  · exact ⟨h, _, query?_set_self (c := { c with link := l }) (Option.isSome_of_eq_some hx) hheld,
      rfl⟩

theorem Kept.fetchMore (hk : c.Kept) (hq : c.Has h q) (token : UInt64) (demand : Demand α) :
    (c.fetchMore h q token demand).1.Tended := by
  have hf := c.fetchesMore h q token demand
  generalize c.fetchMore h q token demand = o at hf ⊢
  cases hf with
  | @sent j l heq =>
    have hkept := hk.renew hq (l := l.dropInbox q.inbox) (j := j) fun i hi => by
      refine ⟨?_, (Link.isSome_inbox?_dispatch heq (l.sheds_dropInbox q.inbox i hi)).imp_right
        fun he => (Except.ok.inj he).symm⟩
      rintro rfl
      have hi : ((l.router.drop q.inbox).inbox? q.inbox).isSome = true := hi
      rw [Router.inbox?_drop, if_pos rfl] at hi
      cases hi
    obtain ⟨hheld, x, hx, -⟩ := hq
    exact hkept.wait (Option.isSome_of_eq_some (query?_set_self (Option.isSome_of_eq_some hx) hheld))
      (.pull demand)
  | @failed e l heq =>
    have hl : c.Lets { c with link := l } :=
      ⟨rfl, fun i hi => (Link.isSome_inbox?_dispatch heq hi).resolve_right nofun⟩
    have hfailed : Has { c with link := l } h (q.fail e) := hq
    exact ((hk.lets hl).setQuery (hfailed.fuse demand)).replying _

theorem Kept.pulled (hk : c.Kept) (hq : c.Has h q) (demand : Demand α) (d : Delivery) :
    (c.pulled h q demand d).1.Tended := by
  have hconsume {r : Response} {x : Query α} {v : Query.Pulled α} (hx : q.consume r = (x, v)) :
      c.Has h x := by
    have hconsumed := hq.consume r
    rwa [hx] at hconsumed
  have hr := c.readsOn h q demand d
  generalize c.pulled h q demand d = o at hr ⊢
  cases hr with
  | @broken _ e =>
    have hfailed : c.Has h (q.fail e) := hq
    exact (hk.setQuery (hfailed.fuse demand)).replying _
  | answer hx | ended hx => exact (hk.setQuery (hconsume hx)).replying _
  | got hx =>
    exact (hk.setQuery (hconsume hx)).wait (Option.isSome_of_eq_some (hconsume hx).query?) (.pull _)
  | failed hx =>
    have hhas := hx.elim hconsume hconsume
    exact (hk.setQuery (hhas.fuse demand)).replying _
  | more hx => exact hk.fetchMore (hconsume hx) ..

theorem Kept.started (hk : c.Kept) (hq : c.Has h q) (drain : Bool) (d : Delivery) :
    (c.started h q drain d).1.Tended := by
  have hs := c.hearsStart h q drain d
  generalize c.started h q drain d = o at hs ⊢
  cases hs with
  | @held r => exact (hk.setQuery (q := q.hold r) hq).replying _
  | @goesOn r =>
    have hheld : c.Has h (q.hold r) := hq
    exact (hk.setQuery hheld).wait (Option.isSome_of_eq_some hheld.query?) (.pull _)
  | timedOut => exact hk.replying _
  | @failed e => exact (hk.setQuery (q := q.fail e) hq).replying _

/-! ### Moves -/

theorem Tended.call (ht : c.Tended) (k : Call α) : (c.call k).1.Tended := by
  cases hw : c.waiting with
  | some w =>
    rw [call_of_waiting hw]
    exact ht
  | none =>
    have hk := ht.kept_of_idle hw
    have h := c.begins_call k
    generalize c.call k = o at h ⊢
    cases h with
    | busy => exact ht
    | told => exact hk.replying _
    | clone => exact (hk.acts (Deed.wait c (c.clones + 1) c.waiting).acts).replying _
    | dropClient =>
      exact (hk.acts ((Deed.wait c (c.clones - 1) c.waiting).acts.trans
        (acts_release _ trivial))).replying _
    | close => exact (hk.acts (acts_link (Link.Deed.close c.link trivial).works)).replying _
    | onClose s label x => exact (hk.acts (Deed.register c s _ trivial).acts).replying _
    | run => exact hk.run ..
    | closeSession => exact hk.closeSession ..
    | dropSession => exact Kept.replying (hk.dropSession _ _) _
    | closeTransaction => exact hk.closeTransaction ..
    | dropTransaction => exact Kept.replying (hk.dropTransaction _ _) _
    | query => exact hk.openQuery ..
    | start h q bound drain hq => exact hk.beginStart hq ..
    | pull h q demand hq => exact hk.beginPull hq ..
    | dropQuery h q hq => exact Kept.replying (hk.dropQuery hq) _

/-- A call that waits on a query has a query that the caller has. -/
theorem Tended.has (ht : c.Tended) {p : Pause α} (hw : c.waiting = some (p.wait h))
    (hq : c.queries[h]? = some q) : c.Kept ∧ c.query? h = some q := by
  refine ⟨ht.kept fun e i he => ?_, ?_⟩
  · rw [hw] at he
    exact absurd (Option.some.inj he) Pause.wait_ne_errand
  · obtain ⟨x, hx⟩ := Option.isSome_iff_exists.1 (ht.waiting h p hw)
    obtain ⟨hqx, -⟩ := Option.filter_eq_some_iff.1 hx
    rw [hx, ← hqx, hq]

theorem Tended.finds {o : Outcome α} (ht : c.Tended) (h : c.Finds o) : o.1.Tended := by
  cases h with
  | nothing => exact ht
  | @errand i d r e hp hw =>
    rw [poll_drop hp]
    exact (ht.kept_dropInbox hw).conclude ..
  | @start q d r h drain hp bound hw hq =>
    obtain ⟨hk, hhas⟩ := ht.has (p := .start bound drain) hw hq
    have hl : c.Lets { c with link := { c.link with router := r } } := ⟨rfl, Link.sheds_poll hp⟩
    exact (hk.lets hl).started (has_of_query? hhas) ..
  | @pull q q' d r h demand hp hw hq =>
    obtain ⟨hk, hhas⟩ := ht.has (p := .pull demand) hw hq
    have hheld := (has_of_query? hhas).1
    rcases Query.poll_cases hp with ⟨rfl, rfl⟩ | ⟨hp, rfl⟩
    · exact hk.pulled (q := { q with stash := none }) ⟨hheld, q, hhas, rfl⟩ ..
    · have hl : c.Lets { c with link := { c.link with router := r } } := ⟨rfl, Link.sheds_poll hp⟩
      exact (hk.lets hl).pulled (has_of_query? hhas) ..
  | gaveUp e i hw => exact (ht.kept_dropInbox hw).conclude ..
  | late hw => exact (ht.kept fun e i he => by rw [hw] at he; cases he).replying _

theorem Tended.relink (ht : c.Tended) {l : Link} (hl : c.link.Sheds l) :
    Tended { c with link := l } where
  inbox i hi := ht.inbox i (hl i hi)
  waiting := ht.waiting

theorem Tended.step (ht : c.Tended) (m : Move α) : (c.step m).1.Tended := by
  cases m with
  | call k => exact ht.call k
  | arrive f => exact ht.relink (c.link.sheds_receive f)
  | lose => exact ht.relink c.link.sheds_close
  | resume => exact ht.finds c.finds_resume
  | expire => exact ht.finds c.finds_expire

theorem Tended.runAll (ht : c.Tended) (ms : List (Move α)) : (c.runAll ms).1.Tended := by
  induction ms generalizing c with
  | nil => exact ht
  | cons m ms ih => exact ih (ht.step m)

theorem tended_empty (timeout : Option Nat) : ({ requestTimeout := timeout } : Client α).Tended where
  inbox i hi := by simp [Router.inbox?] at hi
  waiting h p hp := by cases hp

end Client

end QueryLanes
