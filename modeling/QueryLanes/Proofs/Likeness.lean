import QueryLanes.Proofs.Mirroring
import QueryLanes.Proofs.Slots

/-!
# Alike states

Two states are `Alike` if only slots whose inboxes are dropped tell them apart: such a slot counts as
pending, but what arrives on its lane goes nowhere. Nothing that a client does reads it
(`Mirror.slots`), so that alike clients take every move alike, give the same replies, and stay alike
(`Client.Alike.step`, `Client.Alike.runAll`). On alike links the same was sent, and the same callbacks
ran.
-/

namespace QueryLanes

variable {α : Type}

/-! ## Routers that differ in slots nobody waits on -/

namespace Router

variable {r r' : Router} {i : Nat}

/-- The routers are the same, but for slots whose inboxes are dropped. -/
structure Alike (r r' : Router) : Prop where
  neat : r.Neat
  neat' : r'.Neat
  closed : r'.closed = r.closed
  inboxes : r'.inboxes = r.inboxes
  fed : ∀ t : Slot, (r.inbox? t.inbox).isSome = true → (t ∈ r'.plain ↔ t ∈ r.plain)

theorem Alike.refl (h : r.Neat) : r.Alike r := ⟨h, h, rfl, rfl, fun _ _ => Iff.rfl⟩

theorem Alike.inbox? (h : r.Alike r') (i : Nat) : r'.inbox? i = r.inbox? i := by
  unfold Router.inbox?
  rw [h.inboxes]

theorem Alike.feeds (h : r.Alike r') (hi : (r.inbox? i).isSome = true) :
    r'.feeds i = r.feeds i := by
  rw [Bool.eq_iff_iff, feeds_iff_plain, feeds_iff_plain]
  constructor
  · rintro ⟨t, ht, rfl⟩
    exact ⟨t, (h.fed t hi).1 ht, rfl⟩
  · rintro ⟨t, ht, rfl⟩
    exact ⟨t, (h.fed t hi).2 ht, rfl⟩

theorem Alike.opens (h : r.Alike r') (s : Step) : s.opens r' = s.opens r := by
  cases s with
  | register lane o => simp only [Step.opens, h.closed, h.inboxes]
  | _ => rfl

theorem inboxes_ext (hl : r'.inboxes.length = r.inboxes.length)
    (h : ∀ i, r'.inbox? i = r.inbox? i) : r'.inboxes = r.inboxes := by
  refine List.ext_getElem hl fun i hi hi' => ?_
  have hi := h i
  unfold Router.inbox? at hi
  rwa [List.getElem?_eq_getElem, List.getElem?_eq_getElem] at hi

/-- What a step brings to an inbox that somebody waits on is the same in both. -/
theorem Alike.inbox?_step (h : r.Alike r') {s : Step} (hi : i < r.inboxes.length)
    (hd : s ≠ .drop i) (hp : s ≠ .poll i) : (r'.step s).inbox? i = (r.step s).inbox? i := by
  have hi' : i < r'.inboxes.length := by rwa [h.inboxes]
  cases hb : r.inbox? i with
  | none =>
    rw [h.neat.inbox?_step_none hi hb, h.neat'.inbox?_step_none hi' ((h.inbox? i).trans hb)]
  | some b =>
    have hfed {t : Slot} (ht : t.inbox = i) : t ∈ r'.plain ↔ t ∈ r.plain :=
      h.fed t (by rw [ht, hb]; rfl)
    rcases h.neat.inbox?_step hi hd hp with ⟨t, ht, hti, d, hbr, he⟩ | ⟨hn, he⟩ <;>
      rcases h.neat'.inbox?_step hi' hd hp with ⟨t', ht', hti', d', hbr', he'⟩ | ⟨hn', he'⟩
    · have hsame : t = t' := h.neat.single t ht t' ((hfed hti').1 ht') (.inr (hti.trans hti'.symm))
      rw [hsame, hbr'] at hbr
      rw [he, he', h.inbox?, Option.some.inj hbr]
    · rw [hn' t ((hfed hti).2 ht) hti] at hbr
      cases hbr
    · rw [hn t' ((hfed hti').1 ht') hti'] at hbr'
      cases hbr'
    · rw [he, he', h.inbox?]

theorem register_eq (r : Router) (lane : Lane) (o : Owner) : r.register lane o =
    if r.closed then .error .connectionClosed
    else .ok (r.step (.register lane o), r.inboxes.length) := by
  rw [step_register, register]
  split <;> rfl

/-- A poll finds the same in both. -/
theorem Alike.poll (h : r.Alike r') (i : Nat) : (r.poll i = none ∧ r'.poll i = none) ∨
    ∃ d bs, r.poll i = some (d, { r with inboxes := bs }) ∧
      r'.poll i = some (d, { r' with inboxes := bs }) := by
  unfold Router.poll
  rw [h.inbox?, h.inboxes]
  cases hb : r.inbox? i with
  | none => exact .inl ⟨rfl, rfl⟩
  | some b =>
    dsimp only
    rw [h.feeds (by rw [hb]; rfl)]
    split
    · exact .inr ⟨_, _, rfl, rfl⟩
    · split
      · exact .inl ⟨rfl, rfl⟩
      · refine .inr ⟨_, r.inboxes, rfl, ?_⟩
        rw [← h.inboxes]

theorem Alike.inboxes_step (h : r.Alike r') (s : Step) :
    (r'.step s).inboxes = (r.step s).inboxes := by
  cases s with
  | register lane o =>
    rw [step_register, step_register, h.closed, h.inboxes]
    split
    · exact h.inboxes
    · rfl
  | drop i => exact congrArg (·.set i none) h.inboxes
  | poll i =>
    simp only [step]
    rcases h.poll i with ⟨hr, hr'⟩ | ⟨d, bs, hr, hr'⟩ <;> rw [hr, hr']
    exact h.inboxes
  | _ =>
    refine inboxes_ext ?_ fun i => ?_
    · rw [length_step, length_step, h.inboxes, h.opens]
    · by_cases hi : i < r.inboxes.length
      · exact h.inbox?_step hi (by simp) (by simp)
      · unfold Router.inbox?
        rw [List.getElem?_eq_none, List.getElem?_eq_none] <;>
          simpa [length_step, h.inboxes, Step.opens] using Nat.le_of_not_lt hi

/-- Whatever happens to both leaves them alike. -/
theorem Alike.step (h : r.Alike r') (s : Step) : (r.step s).Alike (r'.step s) where
  neat := h.neat.step s
  neat' := h.neat'.step s
  closed := by rw [Bool.eq_iff_iff, closed_step, closed_step, h.closed]
  inboxes := h.inboxes_step s
  fed t ht := by
    rw [mem_plain_step h.neat.closed, mem_plain_step h.neat'.closed, h.opens]
    -- a slot that was there before has an inbox that was there before
    have hlive (hi : t.inbox < r.inboxes.length) : (r.inbox? t.inbox).isSome = true := by
      rw [Option.isSome_iff_ne_none] at ht ⊢
      exact fun hn => ht (h.neat.inbox?_step_none hi hn s)
    have hlt : t ∈ r'.plain → t.inbox < r.inboxes.length := by
      rw [← h.inboxes]
      exact h.neat'.inbox_lt t
    constructor
    · rintro (ho | ⟨hm, he⟩)
      · exact .inl ho
      · exact .inr ⟨(h.fed t (hlive (hlt hm))).1 hm, he⟩
    · rintro (ho | ⟨hm, he⟩)
      · exact .inl ho
      · exact .inr ⟨(h.fed t (hlive (h.neat.inbox_lt t hm))).2 hm, he⟩

end Router

/-! ## Links -/

namespace Link

variable {l l' : Link}

/-- The links are the same for all who use them; their transcripts may differ in what was received and
what failed. -/
structure Alike (l l' : Link) : Prop where
  isOpen : l'.isOpen = l.isOpen
  issued : l'.issued = l.issued
  sent : l'.sent = l.sent
  ran : l'.ran = l.ran
  router : l.router.Alike l'.router

theorem Alike.refl (h : l.router.Neat) : l.Alike l := ⟨rfl, rfl, rfl, rfl, .refl h⟩

theorem sent_record (l : Link) (e : Entry) :
    (l.record e).sent = l.sent ++ (match e with | .sent f => [f] | _ => []) := by
  unfold Link.sent Link.record
  rw [List.filterMap_append]
  cases e <;> rfl

theorem ran_record (l : Link) (e : Entry) :
    (l.record e).ran = l.ran ++ (match e with | .ran label => [label] | _ => []) := by
  unfold Link.ran Link.record
  rw [List.filterMap_append]
  cases e <;> rfl

theorem Alike.record (h : l.Alike l') (e : Entry) : (l.record e).Alike (l'.record e) :=
  { h with
    sent := by rw [sent_record, sent_record, h.sent]
    ran := by rw [ran_record, ran_record, h.ran]
    router := h.router }

/-- Which lanes failed does not show. -/
theorem Alike.recordFailed (h : l.Alike l') (lanes lanes' : List Lane) (e : Failure) :
    (l.record (.failed lanes e)).Alike (l'.record (.failed lanes' e)) :=
  { h with
    sent := by rw [sent_record, sent_record, h.sent]
    ran := by rw [ran_record, ran_record, h.ran]
    router := h.router }

theorem Alike.step (h : l.Alike l') (s : Router.Step) :
    Alike { l with router := l.router.step s } { l' with router := l'.router.step s } :=
  { h with router := h.router.step s }

theorem Alike.dropInbox (h : l.Alike l') (i : Nat) : (l.dropInbox i).Alike (l'.dropInbox i) :=
  h.step (.drop i)

theorem Alike.failTransaction (h : l.Alike l') (id : UInt64) :
    (l.failTransaction id).Alike (l'.failTransaction id) :=
  (h.step (.failTransaction id .transactionClosed)).recordFailed ..

theorem Alike.failSession (h : l.Alike l') (id : UInt64) :
    (l.failSession id).Alike (l'.failSession id) :=
  (h.step (.failSession id .sessionClosed)).recordFailed ..

theorem Alike.close (h : l.Alike l') : l.close.Alike l'.close := by
  have hclosed : Alike { l with isOpen := false, router := l.router.step (.close .connectionClosed) }
      { l' with isOpen := false, router := l'.router.step (.close .connectionClosed) } :=
    { h.step (.close .connectionClosed) with isOpen := rfl }
  unfold Link.close
  rw [h.isOpen]
  split
  · exact hclosed.recordFailed ..
  · exact h

theorem Alike.receive (h : l.Alike l') (f : ServerFrame) : (l.receive f).Alike (l'.receive f) := by
  unfold Link.receive
  rcases Bool.eq_false_or_eq_true l.isOpen with ho | ho
  · rw [if_pos ho, if_pos (h.isOpen.trans ho)]
    exact (h.step (.route f)).record (.received f)
  · rwa [if_neg (by rw [ho]; decide), if_neg (by rw [h.isOpen, ho]; decide)]

theorem send_of_open (ho : l.isOpen = true) (f : ClientFrame) :
    l.send f = .ok (l.record (.sent f)) := if_pos ho

theorem send_of_closed (ho : l.isOpen = false) (f : ClientFrame) :
    l.send f = .error .connectionClosed := if_neg (by rw [ho]; decide)

theorem Alike.dispatch (h : l.Alike l') (lane : Lane) (o : Owner) (request : Request) :
    ∃ res l₁ l₁', l.dispatch lane o request = (res, l₁) ∧ l'.dispatch lane o request = (res, l₁') ∧
      l₁.Alike l₁' := by
  have hregistered := h.step (.register lane o)
  unfold Link.dispatch
  rw [Router.register_eq, Router.register_eq, h.router.closed, h.router.inboxes]
  cases l.router.closed with
  | true => exact ⟨_, l, l', rfl, rfl, h⟩
  | false =>
    rw [if_neg Bool.false_ne_true, if_neg Bool.false_ne_true]
    dsimp only
    generalize l.router.step (.register lane o) = r at hregistered ⊢
    generalize l'.router.step (.register lane o) = r' at hregistered ⊢
    rcases Bool.eq_false_or_eq_true l.isOpen with ho | ho
    · rw [send_of_open (l := { l with router := r }) ho,
        send_of_open (l := { l' with router := r' }) (h.isOpen.trans ho)]
      exact ⟨_, _, _, rfl, rfl, hregistered.record (.sent ⟨lane, request⟩)⟩
    · rw [send_of_closed (l := { l with router := r }) ho,
        send_of_closed (l := { l' with router := r' }) (h.isOpen.trans ho)]
      exact ⟨_, _, _, rfl, rfl,
        (hregistered.step (.withdraw lane)).step (.drop l.router.inboxes.length)⟩

theorem Alike.openLane (h : l.Alike l') : l.openLane.2.Alike l'.openLane.2 :=
  { h with
    issued := congrArg (· + 1) h.issued
    router := h.router }

/-- A poll finds the same on both. -/
theorem Alike.poll (h : l.Alike l') (i : Nat) :
    (l.router.poll i = none ∧ l'.router.poll i = none) ∨
    ∃ d r r', l.router.poll i = some (d, r) ∧ l'.router.poll i = some (d, r') ∧
      Alike { l with router := r } { l' with router := r' } := by
  rcases h.router.poll i with hn | ⟨d, bs, hr, hr'⟩
  · exact .inl hn
  · have hstep := h.step (.poll i)
    simp only [Router.step, hr, hr'] at hstep
    exact .inr ⟨d, _, _, hr, hr', hstep⟩

end Link

/-! ## Clients -/

/-- Slots that nobody waits on tell the links apart, and nothing the queries. -/
def Mirror.slots : Mirror α where
  toQueryMirror := .plain
  link := Link.Alike
  Read _ := True
  isOpen h := h.isOpen
  issued h := h.issued
  openLane h := h.openLane
  dispatch h := h.dispatch
  dropInbox h := h.dropInbox
  poll h i _ := h.poll i
  failTransaction h := h.failTransaction
  failSession h := h.failSession
  ran h label := h.record (.ran label)
  close h := h.close
  receive h := h.receive

namespace Client

variable {c d : Client α}

/-- The clients are the same, and their links are the same for all who use them. -/
def Alike (c d : Client α) : Prop := ∃ l, d = { c with link := l } ∧ c.link.Alike l

theorem alike_of_link {l l' : Link} (h : l.Alike l') (c : Client α) :
    Alike { c with link := l } { c with link := l' } := ⟨l', rfl, h⟩

theorem Alike.link (h : c.Alike d) : c.link.Alike d.link := by
  obtain ⟨l, rfl, hl⟩ := h
  exact hl

theorem alike_iff_mirrors : c.Alike d ↔ c.Mirrors Mirror.slots d := by
  constructor
  · rintro ⟨l, rfl, hl⟩
    exact ⟨l, c.queries, rfl, hl, rfl⟩
  · rintro ⟨l, qs, rfl, hl, rfl⟩
    exact ⟨l, rfl, hl⟩

theorem reads_slots (c : Client α) (w : Wait α) : c.ReadsAlike Mirror.slots w := by
  cases w with
  | errand => trivial
  | start | pull => exact ⟨trivial, fun _ _ => trivial⟩

theorem Alike.isReady (h : c.Alike d) : d.isReady = c.isReady :=
  (alike_iff_mirrors.1 h).isReady fun w _ => c.reads_slots w

/-- Clients that are alike take the same move alike. -/
theorem Alike.step (h : c.Alike d) (m : Move α) :
    (d.step m).2 = (c.step m).2 ∧ (c.step m).1.Alike (d.step m).1 := by
  obtain ⟨hreply, hnext⟩ := (alike_iff_mirrors.1 h).step (m := m) (fun _ _ _ _ _ _ => trivial)
    fun _ w _ => c.reads_slots w
  exact ⟨hreply, alike_iff_mirrors.2 hnext⟩

/-- Clients that are alike run alike: the same moves give the same replies. -/
theorem Alike.runAll (h : c.Alike d) (ms : List (Move α)) :
    (d.runAll ms).2 = (c.runAll ms).2 ∧ (c.runAll ms).1.Alike (d.runAll ms).1 := by
  induction ms generalizing c d with
  | nil => exact ⟨rfl, h⟩
  | cons m ms ih =>
    obtain ⟨hreply, hnext⟩ := h.step m
    obtain ⟨hreplies, hlast⟩ := ih hnext
    refine ⟨?_, hlast⟩
    unfold Client.runAll
    dsimp only
    rw [hreply, hreplies]

end Client

end QueryLanes
