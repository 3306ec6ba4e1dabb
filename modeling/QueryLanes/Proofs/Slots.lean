import QueryLanes.Proofs.Routing

/-!
# Slots

What one step does to a router, whatever the step. A slot that a step leaves was opened by it or was
there before and is not ended (`Router.mem_plain_step`); an inbox gets what the step brings to the
slot that feeds it, and nothing else (`Router.Neat.inbox?_step`). `Router.Neat` is what makes
"the slot that feeds it" one slot; every run from the empty router keeps it.
-/

namespace QueryLanes

/-- The slot as it is without its mark. -/
def Slot.plain (s : Slot) : Slot := { s with abandoned := false }

namespace Router

/-- One thing that happens to a router. -/
inductive Step where
  | register (lane : Lane) (owner : Owner)
  | withdraw (lane : Lane)
  | route (frame : ServerFrame)
  | failTransaction (transaction : UInt64) (e : Failure)
  | failSession (session : UInt64) (e : Failure)
  | close (e : Failure)
  | drop (i : Nat)
  /-- The next delivery of an inbox is asked for, with a bound on the wait or without one. -/
  | poll (i : Nat)
deriving DecidableEq

/-- A refused registration and a poll that finds nothing leave the router as it was. -/
def step (r : Router) : Step → Router
  | .register lane o => match r.register lane o with
    | .ok (r', _) => r'
    | .error _ => r
  | .withdraw lane => r.withdraw lane
  | .route f => r.route f
  | .failTransaction t e => (r.failTransaction t e).1
  | .failSession s e => (r.failSession s e).1
  | .close e => (r.close e).1
  | .drop i => r.drop i
  | .poll i => match r.poll i with
    | some (_, r') => r'
    | none => r

def run (r : Router) (ss : List Step) : Router := ss.foldl step r

/-- What the step brings to the request that is outstanding on the lane for the owner. -/
def Step.brings (lane : Lane) (o : Owner) : Step → Option Delivery
  | .route f => if f.lane = lane then some (.ok f.body) else none
  | .failTransaction t e => if o.transaction = some t then some (.error e) else none
  | .failSession s e => if o.session = some s then some (.error e) else none
  | .close e => some (.error e)
  | _ => none

/-- Whether the step is the last that concerns this request. -/
def Step.ends (lane : Lane) (o : Owner) : Step → Bool
  | .route f => f.lane == lane && f.body.isTerminal
  | .failTransaction t _ => o.transaction == some t
  | .failSession s _ => o.session == some s
  | .close _ => true
  | .withdraw l => l == lane
  | .register l _ => l == lane
  | .drop _ => false
  | .poll _ => false

/-- The slot that the step opens. -/
def Step.opens (r : Router) : Step → Option Slot
  | .register lane o =>
    if r.closed then none else some { lane := lane, owner := o, inbox := r.inboxes.length }
  | _ => none

section

variable {r : Router} {s : Step} {lane : Lane} {o : Owner} {i : Nat}

/-- The slots without their marks. -/
def plain (r : Router) : List Slot := r.slots.map Slot.plain

/-- How the slots and the inboxes of a router agree. -/
structure Neat (r : Router) : Prop where
  single : ∀ s ∈ r.plain, ∀ t ∈ r.plain, s.lane = t.lane ∨ s.inbox = t.inbox → s = t
  inbox_lt : ∀ s ∈ r.plain, s.inbox < r.inboxes.length
  abandoned : ∀ s ∈ r.slots, s.abandoned = true → r.inbox? s.inbox = none
  closed : r.closed = true → r.slots = []

/-! ## Single operations -/

theorem poll_eq {b : Inbox} (hb : r.inbox? i = some b) : r.poll i = match b.queue with
    | d :: rest => some (d, { r with inboxes := r.inboxes.set i (some { b with queue := rest }) })
    | [] => if r.feeds i then none else some (.error .connectionClosed, r) := by
  cases hq : b.queue <;> simp only [poll, hb, hq]

/-- Polling changes nothing but the inbox that is polled. -/
theorem step_poll (r : Router) (i : Nat) :
    ∃ bs, r.step (.poll i) = { r with inboxes := bs } ∧ bs.length = r.inboxes.length ∧
      (∀ j ≠ i, (r.step (.poll i)).inbox? j = r.inbox? j) ∧
      ((r.step (.poll i)).inbox? i).isSome = (r.inbox? i).isSome := by
  cases hb : r.inbox? i with
  | none => exact ⟨r.inboxes, by simp [step, poll, hb]⟩
  | some b =>
    cases hq : b.queue with
    | nil =>
      have hr : r.step (.poll i) = r := by
        simp only [step, poll_eq hb, hq]
        cases r.feeds i <;> rfl
      exact ⟨r.inboxes, by simp [hr, hb]⟩
    | cons d rest =>
      have hr : r.step (.poll i) =
          { r with inboxes := r.inboxes.set i (some { b with queue := rest }) } := by
        simp only [step, poll_eq hb, hq]
      have hi : i < r.inboxes.length := by
        by_contra hi
        simp [inbox?, hi] at hb
      refine ⟨_, hr, by simp, fun j hj => ?_, ?_⟩
      · rw [hr, inbox?_set, if_neg fun h => hj h.1.symm]
      · rw [hr, inbox?_set, if_pos ⟨rfl, hi⟩]
        rfl

theorem step_register (r : Router) (lane : Lane) (o : Owner) :
    r.step (.register lane o) = if r.closed then r else { r.withdraw lane with
      slots := { lane := lane, owner := o, inbox := r.inboxes.length } :: (r.withdraw lane).slots
      inboxes := r.inboxes ++ [some {}] } := by
  cases hc : r.closed <;> simp [step, register, hc]

theorem plain_withdraw (lane : Lane) : (r.withdraw lane).plain = r.plain.filter (·.lane != lane) := by
  rw [plain, plain, List.filter_map]
  rfl

theorem plain_abandon (lane : Lane) : (r.abandon lane).plain = r.plain := by
  simp only [plain, abandon, List.map_map]
  refine List.map_congr_left fun s _ => ?_
  by_cases h : s.lane = lane <;> simp [Slot.plain, h]

theorem plain_route (f : ServerFrame) : (r.route f).plain =
    r.plain.filter fun t => !(f.lane == t.lane && f.body.isTerminal) := by
  cases hs : r.slot? f.lane with
  | none =>
    have hn := slot?_eq_none.1 hs
    have hr : r.route f = r := by rw [route, hs]
    rw [hr, eq_comm, List.filter_eq_self]
    intro t ht
    obtain ⟨s, hs, rfl⟩ := List.mem_map.1 ht
    have hne : f.lane ≠ s.lane := fun h => hn ⟨s, hs, h.symm⟩
    simp [Slot.plain, hne]
  | some s =>
    obtain ⟨fed, hr, hfed⟩ := route_eq hs
    have hf : fed.plain = r.plain := by
      rcases hfed with ⟨-, rfl⟩ | ⟨-, rfl⟩ | ⟨-, rfl⟩
      · rfl
      · rfl
      · exact plain_abandon _
    rw [hr]
    cases f.body.isTerminal with
    | false => simp [hf]
    | true =>
      simp only [if_true, plain_withdraw, hf, Bool.and_true]
      refine List.filter_congr fun t _ => ?_
      simp [bne, Bool.beq_comm]

theorem plain_failWhere (doomed : Owner → Bool) (e : Failure) :
    (r.failWhere doomed e).1.plain = r.plain.filter fun t => !doomed t.owner := by
  rw [failWhere_eq, plain, plain, List.filter_map]
  rfl

/-! ## Steps -/

/-- A step leaves the slot that it opens and those that it does not end. -/
theorem plain_step (h : r.closed = true → r.slots = []) : (r.step s).plain =
    (s.opens r).toList ++ r.plain.filter fun t => !s.ends t.lane t.owner := by
  cases s with
  | register lane o =>
    rw [step_register]
    cases hc : r.closed with
    | true => simp [Step.opens, hc, plain, h hc]
    | false =>
      have hp : (r.withdraw lane).slots.map Slot.plain = _ := plain_withdraw lane
      simp only [Step.opens, hc, plain, Bool.false_eq_true, if_false, List.map_cons, hp,
        Option.toList_some, List.singleton_append]
      refine congrArg _ (List.filter_congr fun t _ => ?_)
      simp [Step.ends, bne, Bool.beq_comm]
  | withdraw lane =>
    rw [step, plain_withdraw]
    refine List.filter_congr fun t _ => ?_
    simp [Step.ends, bne, Bool.beq_comm]
  | route f => exact plain_route f
  | failTransaction x e => exact plain_failWhere _ e
  | failSession x e => exact plain_failWhere _ e
  | close e => exact plain_failWhere (fun _ => true) e
  | drop i => simp [step, Step.opens, Step.ends, Router.drop, plain]
  | poll i =>
    obtain ⟨bs, hr, -⟩ := step_poll r i
    rw [hr]
    simp [Step.opens, Step.ends, plain]

/-- A slot that is there after a step was opened by it or was there before, and not ended. -/
theorem mem_plain_step (h : r.closed = true → r.slots = []) {t : Slot} :
    t ∈ (r.step s).plain ↔ s.opens r = some t ∨ t ∈ r.plain ∧ s.ends t.lane t.owner = false := by
  simp [plain_step h]

theorem length_step (s : Step) :
    (r.step s).inboxes.length = r.inboxes.length + (s.opens r).toList.length := by
  cases s with
  | register lane o => rw [step_register]; cases hc : r.closed <;> simp [Step.opens, hc]
  | withdraw lane => rfl
  | route f => exact length_route f
  | failTransaction x e => simp [step, failTransaction, failWhere_eq, Step.opens]
  | failSession x e => simp [step, failSession, failWhere_eq, Step.opens]
  | close e => simp [step, close, failWhere_eq, Step.opens]
  | drop i => exact length_drop i
  | poll i =>
    obtain ⟨bs, hr, hl, -⟩ := step_poll r i
    rw [hr]
    exact hl

theorem closed_step (s : Step) :
    (r.step s).closed = true ↔ r.closed = true ∨ ∃ e, s = .close e := by
  cases s with
  | register lane o => rw [step_register]; cases hc : r.closed <;> simp [withdraw, hc]
  | withdraw lane => simp [step, withdraw]
  | route f => simp [step, closed_route]
  | failTransaction x e => simp [step, failTransaction, failWhere_eq, deliver]
  | failSession x e => simp [step, failSession, failWhere_eq, deliver]
  | close e => simp [step, close, failWhere_eq, deliver]
  | drop i => simp [step, Router.drop]
  | poll i =>
    obtain ⟨bs, hr, -⟩ := step_poll r i
    rw [hr]
    simp

theorem mem_plain {t : Slot} : t ∈ r.plain ↔ ∃ s ∈ r.slots, s.plain = t := List.mem_map

theorem plain_mem {t : Slot} (h : t ∈ r.slots) : t.plain ∈ r.plain := List.mem_map_of_mem h

theorem inbox?_failWhere (doomed : Owner → Bool) (e : Failure) (i : Nat) :
    (∃ t ∈ r.plain, t.inbox = i ∧ doomed t.owner = true ∧
      (r.failWhere doomed e).1.inbox? i = (r.inbox? i).map (·.push (.error e))) ∨
    ((∀ t ∈ r.plain, t.inbox = i → doomed t.owner = false) ∧
      (r.failWhere doomed e).1.inbox? i = r.inbox? i) := by
  have hi : (r.failWhere doomed e).1.inbox? i =
      if (r.slots.filter (doomed ·.owner)).any (·.inbox == i)
      then (r.inbox? i).map (·.push (.error e)) else r.inbox? i := by
    rw [failWhere_eq]
    exact inbox?_deliver _ _ i
  rw [hi]
  by_cases ha : (r.slots.filter (doomed ·.owner)).any (·.inbox == i) = true
  · rw [if_pos ha]
    obtain ⟨s, hs, hsi⟩ := List.any_eq_true.1 ha
    obtain ⟨hs, hd⟩ := List.mem_filter.1 hs
    exact .inl ⟨s.plain, mem_plain.2 ⟨s, hs, rfl⟩, beq_iff_eq.1 hsi, hd, rfl⟩
  · rw [if_neg ha]
    refine .inr ⟨fun t ht hti => ?_, rfl⟩
    obtain ⟨s, hs, rfl⟩ := mem_plain.1 ht
    by_contra hd
    rw [Bool.not_eq_false] at hd
    exact ha (List.any_eq_true.2 ⟨s, List.mem_filter.2 ⟨hs, hd⟩, beq_iff_eq.2 hti⟩)

theorem Neat.inbox?_route (h : r.Neat) (f : ServerFrame) (i : Nat) :
    (∃ t ∈ r.plain, t.inbox = i ∧ f.lane = t.lane ∧
      (r.route f).inbox? i = (r.inbox? i).map (·.push (.ok f.body))) ∨
    ((∀ t ∈ r.plain, t.inbox = i → f.lane ≠ t.lane) ∧ (r.route f).inbox? i = r.inbox? i) := by
  cases hs : r.slot? f.lane with
  | none =>
    have hn := slot?_eq_none.1 hs
    refine .inr ⟨fun t ht _ hl => ?_, by rw [route, hs]⟩
    obtain ⟨s, hs, rfl⟩ := mem_plain.1 ht
    exact hn ⟨s, hs, hl.symm⟩
  | some s =>
    obtain ⟨hm, hl⟩ := slot?_eq_some hs
    have hm' : s.plain ∈ r.plain := mem_plain.2 ⟨s, hm, rfl⟩
    rw [Router.inbox?_route hs (h.abandoned s hm)]
    by_cases hi : i = s.inbox
    · rw [if_pos hi]
      exact .inl ⟨s.plain, hm', hi.symm, hl.symm, rfl⟩
    · rw [if_neg hi]
      refine .inr ⟨fun t ht hti hlt => hi ?_, rfl⟩
      have hst := h.single _ hm' t ht (.inl (hl.trans hlt))
      rw [← hti, ← hst]
      rfl

/-- What a step does to an inbox other than by dropping or polling it: it brings what it brings to
the slot that feeds the inbox. -/
theorem Neat.inbox?_step (h : r.Neat) (hi : i < r.inboxes.length) (hd : s ≠ .drop i)
    (hp : s ≠ .poll i) :
    (∃ t ∈ r.plain, t.inbox = i ∧ ∃ d, s.brings t.lane t.owner = some d ∧
      (r.step s).inbox? i = (r.inbox? i).map (·.push d)) ∨
    ((∀ t ∈ r.plain, t.inbox = i → s.brings t.lane t.owner = none) ∧
      (r.step s).inbox? i = r.inbox? i) := by
  -- The three ways to fail differ in whom they select.
  have hfail : ∀ (doomed : Owner → Bool) (e : Failure),
      (r.step s).inbox? i = (r.failWhere doomed e).1.inbox? i →
      (∀ t : Slot, s.brings t.lane t.owner = if doomed t.owner then some (.error e) else none) →
      (∃ t ∈ r.plain, t.inbox = i ∧ ∃ d, s.brings t.lane t.owner = some d ∧
        (r.step s).inbox? i = (r.inbox? i).map (·.push d)) ∨
      ((∀ t ∈ r.plain, t.inbox = i → s.brings t.lane t.owner = none) ∧
        (r.step s).inbox? i = r.inbox? i) := by
    intro doomed e hr hb
    rw [hr]
    rcases inbox?_failWhere doomed e i with ⟨t, ht, hti, hdo, hr⟩ | ⟨hn, hr⟩
    · exact .inl ⟨t, ht, hti, _, by rw [hb, if_pos hdo], hr⟩
    · exact .inr ⟨fun t ht hti => by rw [hb, hn t ht hti]; rfl, hr⟩
  cases s with
  | register lane o =>
    refine .inr ⟨fun _ _ _ => rfl, ?_⟩
    rw [step_register]
    cases r.closed with
    | true => rfl
    | false => simp [inbox?, List.getElem?_append_left hi]
  | withdraw lane => exact .inr ⟨fun _ _ _ => rfl, rfl⟩
  | route f =>
    rcases h.inbox?_route f i with ⟨t, ht, hti, hl, hr⟩ | ⟨hn, hr⟩
    · exact .inl ⟨t, ht, hti, _, if_pos hl, hr⟩
    · exact .inr ⟨fun t ht hti => if_neg (hn t ht hti), hr⟩
  | failTransaction x e => exact hfail (·.transaction == some x) e rfl (by simp [Step.brings])
  | failSession x e => exact hfail (·.session == some x) e rfl (by simp [Step.brings])
  | close e => exact hfail (fun _ => true) e rfl (by simp [Step.brings])
  | drop j =>
    refine .inr ⟨fun _ _ _ => rfl, ?_⟩
    rw [step, inbox?_drop, if_neg fun hj : j = i => hd (hj ▸ rfl)]
  | poll j =>
    obtain ⟨-, -, -, hj, -⟩ := step_poll r j
    exact .inr ⟨fun _ _ _ => rfl, hj i fun hj : i = j => hp (hj ▸ rfl)⟩

/-! ## Runs -/

theorem Step.opens_eq_some {t : Slot} (h : s.opens r = some t) :
    s = .register t.lane t.owner ∧ r.closed = false ∧ t.inbox = r.inboxes.length := by
  cases s with
  | register lane o =>
    cases hc : r.closed with
    | true => simp [opens, hc] at h
    | false =>
      simp only [opens, hc, Bool.false_eq_true, if_false, Option.some.injEq] at h
      exact ⟨h ▸ rfl, rfl, h ▸ rfl⟩
  | _ => cases h

theorem Neat.empty : Neat {} where
  single := by simp [plain]
  inbox_lt := by simp [plain]
  abandoned := by simp
  closed := by simp

/-- A dropped inbox stays dropped. -/
theorem Neat.inbox?_step_none (h : r.Neat) (hi : i < r.inboxes.length) (hn : r.inbox? i = none)
    (s : Step) : (r.step s).inbox? i = none := by
  by_cases hd : s = .drop i
  · rw [hd, step, inbox?_drop, if_pos rfl]
  · by_cases hp : s = .poll i
    · obtain ⟨-, -, -, -, hs⟩ := step_poll r i
      rw [hn] at hs
      rw [hp]
      exact Option.isNone_iff_eq_none.1 (by simpa using hs)
    · rcases h.inbox?_step hi hd hp with ⟨-, -, -, d, -, hr⟩ | ⟨-, hr⟩ <;> simp [hr, hn]

/-- A marked slot was marked before, or the step found its inbox dropped. -/
theorem Neat.abandoned_step (h : r.Neat) {t : Slot} (ht : t ∈ (r.step s).slots)
    (ha : t.abandoned = true) : t.inbox < r.inboxes.length ∧ r.inbox? t.inbox = none := by
  have hold : ∀ t ∈ r.slots, t.abandoned = true →
      t.inbox < r.inboxes.length ∧ r.inbox? t.inbox = none :=
    fun t ht ha => ⟨h.inbox_lt t.plain (plain_mem ht), h.abandoned t ht ha⟩
  have hfail : ∀ (doomed : Owner → Bool) (e : Failure), t ∈ (r.failWhere doomed e).1.slots →
      t.inbox < r.inboxes.length ∧ r.inbox? t.inbox = none := by
    intro doomed e ht
    rw [failWhere_eq] at ht
    exact hold t (List.mem_filter.1 ht).1 ha
  cases s with
  | register lane o =>
    rw [step_register] at ht
    cases hc : r.closed with
    | true =>
      rw [hc] at ht
      exact hold t ht ha
    | false =>
      rw [hc] at ht
      rcases List.mem_cons.1 ht with rfl | ht
      · cases ha
      · exact hold t (List.mem_filter.1 ht).1 ha
  | withdraw lane => exact hold t (List.mem_filter.1 ht).1 ha
  | route f =>
    obtain ⟨g, hg, hs⟩ := exists_of_mem_route (r := r) f
    obtain ⟨s, hm, rfl⟩ := hg t ht
    obtain ⟨-, -, hi, hmark⟩ := hs s
    rw [hi]
    rcases hmark ha with ha | ⟨u, hu, hl, hn⟩
    · exact hold s hm ha
    · obtain ⟨hu, hul⟩ := slot?_eq_some hu
      have hsu : s.plain = u.plain := h.single _ (plain_mem hm) _ (plain_mem hu)
        (.inl (hl.trans hul.symm))
      have hsu : s.plain.inbox = u.plain.inbox := by rw [hsu]
      change s.inbox = u.inbox at hsu
      exact ⟨h.inbox_lt s.plain (plain_mem hm), hsu ▸ hn⟩
  | failTransaction x e => exact hfail _ e ht
  | failSession x e => exact hfail _ e ht
  | close e => exact hfail (fun _ => true) e ht
  | drop j => exact hold t ht ha
  | poll j =>
    obtain ⟨bs, hr, -⟩ := step_poll r j
    rw [hr] at ht
    exact hold t ht ha

theorem Neat.step (h : r.Neat) (s : Step) : (r.step s).Neat where
  single t ht u hu hor := by
    rw [mem_plain_step h.closed] at ht hu
    rcases ht with ht | ⟨ht, hte⟩ <;> rcases hu with hu | ⟨hu, hue⟩
    · exact Option.some.inj (ht.symm.trans hu)
    · obtain ⟨rfl, -, hti⟩ := Step.opens_eq_some ht
      have hui := h.inbox_lt u hu
      simp only [Step.ends, beq_eq_false_iff_ne] at hue
      rcases hor with hl | hi
      · exact absurd hl hue
      · omega
    · obtain ⟨rfl, -, hui⟩ := Step.opens_eq_some hu
      have hti := h.inbox_lt t ht
      simp only [Step.ends, beq_eq_false_iff_ne] at hte
      rcases hor with hl | hi
      · exact absurd hl.symm hte
      · omega
    · exact h.single t ht u hu hor
  inbox_lt t ht := by
    rw [length_step]
    rcases (mem_plain_step h.closed).1 ht with ht | ⟨ht, -⟩
    · rw [ht, (Step.opens_eq_some ht).2.2]
      exact Nat.lt_succ_self _
    · exact Nat.lt_of_lt_of_le (h.inbox_lt t ht) (Nat.le_add_right _ _)
  abandoned t ht ha := by
    obtain ⟨hi, hn⟩ := h.abandoned_step ht ha
    exact h.inbox?_step_none hi hn s
  closed hc := by
    have hp : (r.step s).plain = [] := by
      refine List.eq_nil_iff_forall_not_mem.2 fun t ht => ?_
      rcases (mem_plain_step h.closed).1 ht with ho | ⟨ht, he⟩
      · obtain ⟨rfl, ho, -⟩ := Step.opens_eq_some ho
        rcases (closed_step _).1 hc with hc | ⟨e, he⟩
        · rw [hc] at ho
          cases ho
        · cases he
      · rcases (closed_step s).1 hc with hc | ⟨e, rfl⟩
        · rw [plain, h.closed hc] at ht
          cases ht
        · cases he
    exact List.map_eq_nil_iff.1 hp

theorem Neat.run (h : r.Neat) (ss : List Step) : (r.run ss).Neat := by
  induction ss generalizing r with
  | nil => exact h
  | cons s ss ih => exact ih (h.step s)

theorem feeds_iff_plain : r.feeds i = true ↔ ∃ t ∈ r.plain, t.inbox = i := by
  rw [feeds_iff]
  constructor
  · rintro ⟨t, ht, hti⟩
    exact ⟨t.plain, plain_mem ht, hti⟩
  · rintro ⟨t, ht, hti⟩
    obtain ⟨s, hs, rfl⟩ := mem_plain.1 ht
    exact ⟨s, hs, hti⟩

end

end Router

end QueryLanes
