import Mathlib.Data.List.Basic
import QueryLanes.Lane.Router

/-!
# Routing

What the operations of the router do to one inbox and to the slot of one lane. `Router.inbox?_route`
and `Router.holds_route` say it of routing: a response reaches the inbox that the slot of its lane
feeds, and a lane loses its slot to a terminal response on it. Failing is one delivery to many
inboxes (`Router.failWhere_eq`).
-/

namespace QueryLanes

namespace Router

variable {r : Router}

/-- Whether some slot is the lane's. -/
def Holds (r : Router) (lane : Lane) : Prop := ∃ s ∈ r.slots, s.lane = lane

theorem slot?_eq_none {lane : Lane} : r.slot? lane = none ↔ ¬ r.Holds lane := by
  simp [slot?, Holds, List.find?_eq_none]

theorem slot?_eq_some {lane : Lane} {s : Slot} (h : r.slot? lane = some s) :
    s ∈ r.slots ∧ s.lane = lane := by
  refine ⟨List.mem_of_find?_eq_some h, ?_⟩
  simpa using List.find?_some h

theorem feeds_iff {i : Nat} : r.feeds i = true ↔ ∃ s ∈ r.slots, s.inbox = i := by simp [feeds]

theorem inbox?_deliver (reached : Nat → Bool) (d : Delivery) (i : Nat) :
    (r.deliver reached d).inbox? i =
      if reached i then (r.inbox? i).map (·.push d) else r.inbox? i := by
  simp only [inbox?, deliver, List.getElem?_mapIdx]
  cases r.inboxes[i]? with
  | none => cases reached i <;> rfl
  | some b => cases reached i <;> rfl

theorem inbox?_set (i j : Nat) (b : Option Inbox) :
    Router.inbox? { r with inboxes := r.inboxes.set j b } i =
      if j = i ∧ j < r.inboxes.length then b else r.inbox? i := by
  unfold inbox?
  by_cases h : j = i
  · subst h
    by_cases hj : j < r.inboxes.length
    · simp [hj]
    · simp [hj]
  · simp [h]

theorem inbox?_drop (i j : Nat) : (r.drop j).inbox? i = if j = i then none else r.inbox? i := by
  rw [drop, inbox?_set]
  by_cases h : j = i
  · subst h
    by_cases hj : j < r.inboxes.length
    · simp [hj]
    · simp [hj, inbox?]
  · simp [h]

@[simp] theorem length_drop (i : Nat) : (r.drop i).inboxes.length = r.inboxes.length := by
  simp [drop]

@[simp] theorem length_deliver (reached : Nat → Bool) (d : Delivery) :
    (r.deliver reached d).inboxes.length = r.inboxes.length := by simp [deliver]

/-! ### Routing -/

/-- Routing as one step for the inboxes and one for the slots: whether the slot's inbox is still there
decides between a delivery and a mark. -/
theorem route_eq {f : ServerFrame} {s : Slot} (hs : r.slot? f.lane = some s) :
    ∃ fed : Router, r.route f = (if f.body.isTerminal then fed.withdraw f.lane else fed) ∧
      ((s.abandoned = true ∧ fed = r) ∨
        ((r.inbox? s.inbox).isSome ∧ fed = r.deliver (· == s.inbox) (.ok f.body)) ∨
        (r.inbox? s.inbox = none ∧ fed = r.abandon f.lane)) := by
  refine ⟨_, by simp only [route, hs]; rfl, ?_⟩
  cases ha : s.abandoned with
  | true => exact .inl ⟨rfl, rfl⟩
  | false =>
    cases hp : r.inbox? s.inbox with
    | none => exact .inr (.inr ⟨rfl, by simp⟩)
    | some b => exact .inr (.inl ⟨rfl, by simp⟩)

/-- A response reaches the inbox that the slot feeds, and no other. -/
theorem inbox?_route {f : ServerFrame} {s : Slot} (hs : r.slot? f.lane = some s)
    (ha : s.abandoned = true → r.inbox? s.inbox = none) (i : Nat) :
    (r.route f).inbox? i =
      if i = s.inbox then (r.inbox? i).map (·.push (.ok f.body)) else r.inbox? i := by
  obtain ⟨fed, hr, hfed⟩ := route_eq hs
  have key : (r.route f).inbox? i = fed.inbox? i := by rw [hr]; split <;> rfl
  rw [key]
  rcases hfed with ⟨hb, rfl⟩ | ⟨-, rfl⟩ | ⟨hn, rfl⟩
  · by_cases hi : i = s.inbox
    · subst hi; simp [ha hb]
    · simp [hi]
  · simp [inbox?_deliver]
  · have : (r.abandon f.lane).inbox? i = r.inbox? i := rfl
    rw [this]
    by_cases hi : i = s.inbox
    · subst hi; simp [hn]
    · simp [hi]

theorem length_route (f : ServerFrame) : (r.route f).inboxes.length = r.inboxes.length := by
  cases hs : r.slot? f.lane with
  | none => simp [route, hs]
  | some s =>
    obtain ⟨fed, hr, hfed⟩ := route_eq hs
    have key : (r.route f).inboxes.length = fed.inboxes.length := by rw [hr]; split <;> rfl
    rw [key]
    rcases hfed with ⟨-, rfl⟩ | ⟨-, rfl⟩ | ⟨-, rfl⟩
    · rfl
    · simp
    · rfl

theorem closed_route (f : ServerFrame) : (r.route f).closed = r.closed := by
  cases hs : r.slot? f.lane with
  | none => simp [route, hs]
  | some s =>
    obtain ⟨fed, hr, hfed⟩ := route_eq hs
    have key : (r.route f).closed = fed.closed := by rw [hr]; split <;> rfl
    rw [key]
    rcases hfed with ⟨-, rfl⟩ | ⟨-, rfl⟩ | ⟨-, rfl⟩ <;> rfl

/-- A slot that is there after a response was routed was there before; it may have got its mark. -/
theorem exists_of_mem_route (f : ServerFrame) :
    ∃ g : Slot → Slot, (∀ s' ∈ (r.route f).slots, ∃ s ∈ r.slots, g s = s') ∧
      ∀ s, (g s).lane = s.lane ∧ (g s).owner = s.owner ∧ (g s).inbox = s.inbox ∧
        ((g s).abandoned = true → s.abandoned = true ∨
          ∃ t, r.slot? f.lane = some t ∧ s.lane = f.lane ∧ r.inbox? t.inbox = none) := by
  cases hs : r.slot? f.lane with
  | none => exact ⟨id, fun s' h => ⟨s', by rwa [route, hs] at h, rfl⟩, fun s => ⟨rfl, rfl, rfl, .inl⟩⟩
  | some t =>
    obtain ⟨fed, hr, hfed⟩ := route_eq hs
    have hm : ∀ s' ∈ (r.route f).slots, s' ∈ fed.slots := by
      intro s' h
      rw [hr] at h
      split at h
      · exact (List.mem_filter.1 h).1
      · exact h
    rcases hfed with ⟨-, rfl⟩ | ⟨-, rfl⟩ | ⟨hn, rfl⟩
    · exact ⟨id, fun s' h => ⟨s', hm s' h, rfl⟩, fun s => ⟨rfl, rfl, rfl, .inl⟩⟩
    · exact ⟨id, fun s' h => ⟨s', hm s' h, rfl⟩, fun s => ⟨rfl, rfl, rfl, .inl⟩⟩
    · refine ⟨_, fun s' h => List.mem_map.1 (hm s' h), fun s => ?_⟩
      by_cases hl : s.lane = f.lane
      · simp only [hl, beq_self_eq_true, if_true, true_and]
        exact fun _ => .inr ⟨t, rfl, hn⟩
      · simp [hl]

/-- A lane loses its slot to a terminal response on it and to nothing else. -/
theorem holds_route {f : ServerFrame} {lane : Lane} :
    (r.route f).Holds lane ↔ r.Holds lane ∧ ¬ (f.lane = lane ∧ f.body.isTerminal = true) := by
  cases hs : r.slot? f.lane with
  | none =>
    have hn := slot?_eq_none.1 hs
    rw [route, hs]
    exact ⟨fun h => ⟨h, fun hl => hn (hl.1 ▸ h)⟩, fun h => h.1⟩
  | some s =>
    obtain ⟨fed, hr, hfed⟩ := route_eq hs
    have hf : fed.Holds lane ↔ r.Holds lane := by
      rcases hfed with ⟨-, rfl⟩ | ⟨-, rfl⟩ | ⟨-, rfl⟩
      · exact Iff.rfl
      · exact Iff.rfl
      · simp only [Holds, abandon, List.mem_map, exists_exists_and_eq_and]
        constructor
        · rintro ⟨t, ht, h⟩
          exact ⟨t, ht, by split at h <;> exact h⟩
        · rintro ⟨t, ht, h⟩
          exact ⟨t, ht, by split <;> exact h⟩
    rw [hr, ← hf]
    cases ht : f.body.isTerminal with
    | false => simp
    | true =>
      simp only [Holds, withdraw, List.mem_filter, bne_iff_ne, ite_true]
      constructor
      · rintro ⟨t, ⟨ht, hne⟩, rfl⟩
        exact ⟨⟨t, ht, rfl⟩, fun h => hne h.1.symm⟩
      · rintro ⟨⟨t, ht, rfl⟩, hne⟩
        exact ⟨t, ⟨ht, fun h => hne ⟨h.symm, trivial⟩⟩, rfl⟩

/-! ### Failing -/

theorem failWhere_eq (doomed : Owner → Bool) (e : Failure) :
    r.failWhere doomed e =
      ({ r.deliver (fun i => (r.slots.filter (doomed ·.owner)).any (·.inbox == i)) (.error e) with
          slots := r.slots.filter (!doomed ·.owner) },
        (r.slots.filter (doomed ·.owner)).map (·.lane)) := by
  simp [failWhere, List.partition_eq_filter_filter, Function.comp_def]

end Router

end QueryLanes
