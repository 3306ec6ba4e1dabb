import QueryLanes.Proofs.Growth
import QueryLanes.Proofs.Steps

/-!
# Sending

What is registered and sent: a link is `Silent`, or `Still` if no lane is given out either, or it
`Emits` one frame. A waiting call sends at most the request for the next batch of its query, which
goes out on the query's lane for the token that is pulled (`Client.fetches_step`).
-/

namespace QueryLanes

variable {α : Type}

/-! ## Links -/

namespace Link

variable {l l' l'' : Link} {f : ClientFrame}

/-- How many requests were registered: each was given an inbox, and its place stays. -/
def registered (l : Link) : Nat := l.router.inboxes.length

/-- Requests are registered as long as frames can be sent. -/
def Aligned (l : Link) : Prop := l.router.closed = !l.isOpen

/-- Between the links nothing is registered, and no frame goes out. -/
structure Silent (l l' : Link) : Prop where
  transcript : ∃ es, l'.transcript = l.transcript ++ es ∧ ∀ f, .sent f ∉ es
  registered : l'.registered = l.registered
  aligned : l.Aligned → l'.Aligned

/-- And no lane is given out. -/
structure Still (l l' : Link) : Prop extends Silent l l' where
  issued : l'.issued = l.issued

/-- Between the links one request is registered, its frame goes out, and no other does. -/
def Emits (l l' : Link) (f : ClientFrame) : Prop :=
  ∃ l₁ o, l.Silent l₁ ∧ (l₁.launch f.lane o f.body).Silent l'

theorem silent_of_same (ht : l'.transcript = l.transcript) (hr : l'.registered = l.registered)
    (ha : l.Aligned → l'.Aligned) : l.Silent l' where
  transcript := ⟨[], by rw [ht, List.append_nil], by simp⟩
  registered := hr
  aligned := ha

theorem Silent.refl (l : Link) : l.Silent l := silent_of_same rfl rfl id

theorem Still.refl (l : Link) : l.Still l := ⟨.refl l, rfl⟩

theorem Silent.trans (h : l.Silent l') (h' : l'.Silent l'') : l.Silent l'' where
  transcript := by
    obtain ⟨es, he, hes⟩ := h.transcript
    obtain ⟨es', he', hes'⟩ := h'.transcript
    refine ⟨es ++ es', by rw [he', he, List.append_assoc], fun f hf => ?_⟩
    rcases List.mem_append.1 hf with hf | hf
    · exact hes f hf
    · exact hes' f hf
  registered := h'.registered.trans h.registered
  aligned := h'.aligned ∘ h.aligned

theorem Still.trans (h : l.Still l') (h' : l'.Still l'') : l.Still l'' :=
  ⟨h.toSilent.trans h'.toSilent, h'.issued.trans h.issued⟩

theorem Silent.trans_emits (h : l.Silent l') (h' : l'.Emits l'' f) : l.Emits l'' f := by
  obtain ⟨l₁, o, h₁, h₂⟩ := h'
  exact ⟨l₁, o, h.trans h₁, h₂⟩

theorem Emits.trans_silent (h : l.Emits l' f) (h' : l'.Silent l'') : l.Emits l'' f := by
  obtain ⟨l₁, o, h₁, h₂⟩ := h
  exact ⟨l₁, o, h₁, h₂.trans h'⟩

theorem Silent.sent (h : l.Silent l') : l'.sent = l.sent := by
  obtain ⟨es, he, hes⟩ := h.transcript
  unfold Link.sent
  rw [he, List.filterMap_append, List.append_right_eq_self,
    List.filterMap_eq_nil_iff]
  intro e hm
  cases e with
  | sent f => exact absurd hm (hes f)
  | _ => rfl

theorem Emits.sent (h : l.Emits l' f) : l'.sent = l.sent ++ [f] := by
  obtain ⟨l₁, o, h₁, h₂⟩ := h
  rw [h₂.sent, ← h₁.sent]
  simp [launch, record, Link.sent]

theorem Emits.registered (h : l.Emits l' f) : l'.registered = l.registered + 1 := by
  obtain ⟨l₁, o, h₁, h₂⟩ := h
  rw [h₂.registered, ← h₁.registered]
  simp [launch, record, Link.registered]

/-! ### Operations -/

theorem still_record (l : Link) {e : Entry} (he : ∀ f, e ≠ .sent f) : l.Still (l.record e) where
  transcript := ⟨[e], rfl, fun f hf => he f (List.mem_singleton.1 hf).symm⟩
  registered := rfl
  aligned := id
  issued := rfl

theorem still_router {r : Router} (hr : r.inboxes.length = l.router.inboxes.length)
    (hc : r.closed = l.router.closed) : l.Still { l with router := r } where
  transcript := ⟨[], (List.append_nil _).symm, by simp⟩
  registered := hr
  aligned := hc.trans
  issued := rfl

theorem still_dropInbox (l : Link) (i : Nat) : l.Still (l.dropInbox i) :=
  still_router (Router.length_drop i) rfl

theorem still_poll {i : Nat} {d : Delivery} {r : Router} (h : l.router.poll i = some (d, r)) :
    l.Still { l with router := r } := by
  refine still_router (length_poll h) ?_
  obtain ⟨b, -, ⟨rest, -, rfl⟩ | ⟨-, -, -, rfl⟩⟩ := poll_cases h <;> rfl

theorem still_fail (l : Link) (doomed : Owner → Bool) (e : Failure) :
    l.Still (l.fail doomed e) := by
  have hr : l.Still { l with router := (l.router.failWhere doomed e).1 } := by
    refine still_router ?_ ?_ <;> simp [Router.failWhere_eq, Router.deliver]
  exact hr.trans (still_record _ (by simp))

theorem still_close (l : Link) : l.Still l.close := by
  rw [close_eq]
  split
  · have h := l.still_fail (fun _ => true) .connectionClosed
    exact ⟨⟨h.transcript, h.registered, fun _ => rfl⟩, h.issued⟩
  · exact .refl l

theorem still_receive (l : Link) (f : ServerFrame) : l.Still (l.receive f) := by
  rw [receive_eq]
  split
  · have hr : l.Still { l with router := l.router.route f } :=
      still_router (Router.length_route f) (Router.closed_route f)
    exact hr.trans (still_record _ (by simp))
  · exact .refl l

/-- A request that is registered is sent as well. -/
theorem emits_dispatch (ha : l.Aligned) (lane : Lane) (o : Owner) (request : Request) :
    l.Silent (l.dispatch lane o request).2 ∨
      l.isOpen = true ∧ l.Emits (l.dispatch lane o request).2 ⟨lane, request⟩ := by
  rw [dispatch_eq ha]
  split
  · rename_i ho
    exact .inr ⟨ho, l, o, .refl l, .refl _⟩
  · exact .inl (.refl l)

/-- Without the power to give out lanes and to send requests a link is still. -/
theorem Works.still {P : Power → Prop} (h : l.Works P l') (hlane : ¬ P .openLane)
    (hdispatch : ¬ P .dispatch) : l.Still l' := by
  refine h.keeps (K := l.Still) (fun l₁ l₂ hd hs => hs.trans ?_) (.refl l)
  cases hd with
  | openLane _ hp => exact absurd hp hlane
  | dispatch _ _ _ hp => exact absurd hp hdispatch
  | dropInbox i => exact still_dropInbox l₁ i
  | poll hpoll => exact still_poll hpoll
  | fail doomed e => exact still_fail l₁ doomed e
  | ran label => exact still_record l₁ (by simp)
  | close => exact still_close l₁

end Link

/-! ## Tokens -/

namespace Client

variable {c : Client α} {h : Handle} {q : Query α} {m : Move α} {token : UInt64}

/-- Whether a move takes on a call that pulls the query at a place. -/
def pulls (c : Client α) (h : Handle) : Move α → Bool
  | .resume | .expire => match c.waiting with
    | some (.pull h' _) => h' == h
    | _ => false
  | .call _ | .arrive _ | .lose => false

/-- The token that a move pulls for the query at a place while the connection is open. -/
def token? (c : Client α) (h : Handle) (m : Move α) : Option UInt64 :=
  if c.pulls h m && c.link.isOpen then
    (c.queries[h]?.bind (·.poll c.link.router)).bind (·.1.token?)
  else none

/-- The tokens that a run pulls for the query at a place while the connection is open. -/
def tokens (c : Client α) (h : Handle) : List (Move α) → List UInt64
  | [] => []
  | m :: ms => (c.token? h m).toList ++ (c.step m).1.tokens h ms

/-! ## Ends of handles -/

theorem still_finishTransaction (c : Client α) (t : Handle) :
    c.link.Still (c.finishTransaction t).link :=
  (works_finishTransaction c t).still nofun nofun

theorem still_endSession (c : Client α) (s : Handle) (y : Session) :
    c.link.Still (c.endSession s y).link :=
  (works_endSession c s y).still (by simp) (by simp)

theorem still_conclude (c : Client α) (e : Errand) (d : Except Failure Response) :
    c.link.Still (c.conclude e d).1.link :=
  (works_conclude c e d).still nofun nofun

/-! ## Waiting calls -/

/-- The request for the next batch of a query goes out. -/
def Fetches (c c' : Client α) (q : Query α) (token : UInt64) : Prop :=
  c.link.Emits c'.link ⟨q.lane, .fetch q.transaction (.continuation token q.options)⟩

theorem emits_fetchMore (ha : c.link.Aligned) (h : Handle) (q : Query α) (token : UInt64)
    (demand : Demand α) : c.link.Silent (c.fetchMore h q token demand).1.link ∨
      c.link.isOpen = true ∧ c.Fetches (c.fetchMore h q token demand).1 q token := by
  have hd := Link.emits_dispatch ha q.lane q.owner
    (.fetch q.transaction (.continuation token q.options))
  have hf := c.fetchesMore h q token demand
  unfold Fetches
  generalize c.fetchMore h q token demand = o at hf ⊢
  cases hf with
  | @sent i l heq =>
    rw [heq] at hd
    have hdrop := (l.still_dropInbox q.inbox).toSilent
    exact hd.imp (·.trans hdrop) fun ⟨ho, he⟩ => ⟨ho, he.trans_silent hdrop⟩
  | failed heq => rwa [heq] at hd

theorem emits_pulled (ha : c.link.Aligned) (h : Handle) (q : Query α) (demand : Demand α)
    (d : Delivery) : c.link.Silent (c.pulled h q demand d).1.link ∨
      c.link.isOpen = true ∧ ∃ token, d.token? = some token ∧
        c.Fetches (c.pulled h q demand d).1 q token := by
  have hr := c.readsOn h q demand d
  generalize c.pulled h q demand d = o at hr ⊢
  cases hr with
  | @more _ r q' token hx =>
    obtain ⟨hl, -, -⟩ := q.consume_numbers r
    obtain ⟨-, ht, ho⟩ := q.consume_alike r
    have htoken := (q.consume_eq_more r token).1 (congrArg Prod.snd hx)
    have hf := emits_fetchMore ha h q' token demand
    unfold Fetches at hf
    rw [hx] at hl ht ho
    rw [hl, ht, ho] at hf
    exact hf.imp_right fun ⟨hopen, he⟩ => ⟨hopen, token, htoken, he⟩
  | _ => exact .inl (.refl c.link)

theorem still_polled {d : Delivery} {q' : Query α} {r : Router}
    (hp : q.poll c.link.router = some (d, q', r)) :
    c.link.Still { c.link with router := r } ∧ q.Lasts q' := by
  refine ⟨?_, Query.lasts_poll hp⟩
  rcases Query.poll_cases hp with ⟨rfl, -⟩ | ⟨hp, -⟩
  · exact .refl _
  · exact Link.still_poll hp

/-- A waiting call sends the request for the next batch, or nothing. -/
theorem emits_finds {o : Outcome α} (ha : c.link.Aligned) (hf : c.Finds o)
    (hm : m = .resume ∨ m = .expire) : c.link.Silent o.1.link ∨
    ∃ h q token, c.queries[h]? = some q ∧ c.token? h m = some token ∧ c.Fetches o.1 q token := by
  cases hf with
  | nothing | late => exact .inl (.refl c.link)
  | @errand i d r e hp =>
    have hpolled := (Link.still_poll hp).trans (Link.still_dropInbox { c.link with router := r } i)
    have hover := still_conclude { c with link := { c.link with router := r.drop i } } e d
    exact .inl (hpolled.trans hover).toSilent
  | gaveUp e i =>
    have hover := still_conclude { c with link := c.link.dropInbox i } e (.error .timeout)
    exact .inl ((c.link.still_dropInbox i).trans hover).toSilent
  | start h drain hp =>
    rw [link_started]
    exact .inl (Link.still_poll hp).toSilent
  | @pull q q' d r h demand hp hw hq =>
    obtain ⟨hstill, hlasts⟩ := still_polled hp
    have hemits := emits_pulled (c := { c with link := { c.link with router := r } })
      (hstill.aligned ha) h q' demand d
    unfold Fetches at hemits
    rw [hlasts.lane, hlasts.transaction, hlasts.options] at hemits
    rcases hemits with hemits | ⟨hopen, token, htoken, hemits⟩
    · exact .inl (hstill.toSilent.trans hemits)
    · refine .inr ⟨h, q, token, hq, ?_, hstill.toSilent.trans_emits hemits⟩
      have hopen : c.link.isOpen = true := hopen
      rcases hm with rfl | rfl <;> simp [token?, pulls, hw, hopen, hq, hp, htoken]

/-- A move that is no call sends nothing, or the token that it pulls. -/
theorem fetches_step (ha : c.link.Aligned) (hm : ∀ k, m ≠ .call k) :
    c.link.Silent (c.step m).1.link ∨
      ∃ h q token, c.queries[h]? = some q ∧ c.token? h m = some token ∧
        c.Fetches (c.step m).1 q token := by
  cases m with
  | call k => exact absurd rfl (hm k)
  | arrive f => exact .inl (c.link.still_receive f).toSilent
  | lose => exact .inl c.link.still_close.toSilent
  | resume => exact emits_finds ha c.finds_resume (.inl rfl)
  | expire => exact emits_finds ha c.finds_expire (.inr rfl)

end Client

end QueryLanes
