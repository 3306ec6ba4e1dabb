import Mathlib.Data.List.Induction
import QueryLanes.Proofs.Slots

/-!
# Collecting

A router against its history. `Router.due` reads off the steps what a request is to get: the
responses on its lane up to the terminal one, or up to a failure of its owner and with it, or up to
the step that takes its slot away. `Router.Collects` says how far a collector has got with that, and
each step keeps it. The result is `Router.collected`: whatever the steps, and in whatever order the
collectors are asked, each hands out what is due to it.
-/

namespace QueryLanes.Router

/-- What a step hands out from an inbox. -/
def answers (r : Router) (i : Nat) : Step → List Delivery
  | .poll j => if j = i then ((r.poll i).map (·.1)).toList else []
  | _ => []

/-- What an inbox hands out along a run, in order. -/
def yields (r : Router) (i : Nat) : List Step → List Delivery
  | [] => []
  | s :: ss => r.answers i s ++ (r.step s).yields i ss

/-! ## What is due to a request -/

/-- Everything that the steps bring to the request, up to the one that ends it. -/
def due (lane : Lane) (o : Owner) : List Step → List Delivery
  | [] => []
  | s :: ss => (s.brings lane o).toList ++ if s.ends lane o then [] else due lane o ss

/-- Whether the request is still outstanding after the steps. -/
def lives (lane : Lane) (o : Owner) (ss : List Step) : Bool := ss.all fun s => !s.ends lane o

section

variable {r : Router} {s : Step} {lane : Lane} {o : Owner} {i : Nat} {ss : List Step}

theorem run_concat : r.run (ss ++ [s]) = (r.run ss).step s := by
  rw [run, List.foldl_append]
  rfl

theorem lives_concat : lives lane o (ss ++ [s]) = (lives lane o ss && !s.ends lane o) := by
  simp [lives]

theorem due_concat : due lane o (ss ++ [s]) =
    if lives lane o ss then due lane o ss ++ (s.brings lane o).toList else due lane o ss := by
  induction ss with
  | nil => simp [due, lives]
  | cons t ss ih =>
    have hl : lives lane o (t :: ss) = (!t.ends lane o && lives lane o ss) := rfl
    rw [List.cons_append, due, ih, due, hl]
    cases t.ends lane o <;> cases lives lane o ss <;> simp

/-! ## One collector -/

/-- Where the collector with the number `i` stands that was registered on the lane for the owner,
when the steps have come since and it has handed out `got`. -/
structure Collects (r : Router) (i : Nat) (lane : Lane) (o : Owner) (ss : List Step)
    (got : List Delivery) : Prop where
  inbox_lt : i < r.inboxes.length
  slot : ∀ t ∈ r.plain, t.inbox = i → t.lane = lane ∧ t.owner = o
  live : (∃ t ∈ r.plain, t.inbox = i) ↔ lives lane o ss = true
  queue : ∃ b, r.inbox? i = some b ∧ b.arrived = !(due lane o ss).isEmpty ∧
    ∃ k, got ++ b.queue = due lane o ss ++ List.replicate k (.error .connectionClosed) ∧
      (k = 0 ∨ b.queue = [] ∧ lives lane o ss = false)

theorem Neat.collects_register (h : r.Neat) {r' : Router} (hr : r.register lane o = .ok (r', i)) :
    r'.Collects i lane o [] [] := by
  have hc : r.closed = false := by
    cases hc : r.closed with
    | false => rfl
    | true => simp [register, hc] at hr
  have hs : r' = r.step (.register lane o) ∧ i = r.inboxes.length := by
    simp only [register, hc, Bool.false_eq_true, if_false, Except.ok.injEq, Prod.mk.injEq] at hr
    rw [step_register, hc]
    exact ⟨hr.1.symm, hr.2.symm⟩
  obtain ⟨rfl, rfl⟩ := hs
  have hopens : (Step.register lane o).opens r =
      some { lane := lane, owner := o, inbox := r.inboxes.length } := by
    simp [Step.opens, hc]
  refine ⟨?_, ?_, ?_, ?_⟩
  · rw [length_step, hopens]
    exact Nat.lt_succ_self _
  · intro t ht hti
    rcases (mem_plain_step h.closed).1 ht with ht | ⟨ht, -⟩
    · cases (Step.opens_eq_some ht).1
      exact ⟨rfl, rfl⟩
    · have hlt := h.inbox_lt t ht
      omega
  · exact iff_of_true ⟨_, (mem_plain_step h.closed).2 (.inl hopens), rfl⟩ rfl
  · refine ⟨{}, ?_, rfl, 0, rfl, .inl rfl⟩
    rw [step_register, hc]
    simp [inbox?]

/-- A step opens no slot for an inbox that is there. -/
theorem Neat.mem_plain_step_of_lt (h : r.Neat) (hi : i < r.inboxes.length) {t : Slot} :
    t ∈ (r.step s).plain ∧ t.inbox = i ↔
      (t ∈ r.plain ∧ t.inbox = i) ∧ s.ends t.lane t.owner = false := by
  rw [mem_plain_step h.closed]
  constructor
  · rintro ⟨ht | ⟨ht, he⟩, hti⟩
    · have hlen := (Step.opens_eq_some ht).2.2
      omega
    · exact ⟨⟨ht, hti⟩, he⟩
  · rintro ⟨⟨ht, hti⟩, he⟩
    exact ⟨.inr ⟨ht, he⟩, hti⟩

theorem answers_of_ne (h : s ≠ .poll i) : r.answers i s = [] := by
  cases s with
  | poll j => simp [answers, show j ≠ i from fun hj => h (hj ▸ rfl)]
  | _ => rfl

/-- A poll hands out what is first in the queue, or that the connection is closed. -/
theorem Collects.queue_poll {got : List Delivery} (h : r.Collects i lane o ss got) :
    ∃ b, (r.step (.poll i)).inbox? i = some b ∧
      b.arrived = !(due lane o (ss ++ [.poll i])).isEmpty ∧
      ∃ k, got ++ r.answers i (.poll i) ++ b.queue =
          due lane o (ss ++ [.poll i]) ++ List.replicate k (.error .connectionClosed) ∧
        (k = 0 ∨ b.queue = [] ∧ lives lane o (ss ++ [.poll i]) = false) := by
  obtain ⟨b, hb, ha, k, hq, hk⟩ := h.queue
  have hdue : due lane o (ss ++ [.poll i]) = due lane o ss := by
    rw [due_concat]
    simp [Step.brings]
  have hlives : lives lane o (ss ++ [.poll i]) = lives lane o ss := by
    rw [lives_concat]
    simp [Step.ends]
  have hans : r.answers i (.poll i) = ((r.poll i).map (·.1)).toList := by simp [answers]
  rw [hdue, hlives, hans]
  have hstep : r.step (.poll i) = ((r.poll i).map (·.2)).getD r := by
    simp only [Router.step]
    cases r.poll i <;> rfl
  rw [hstep, poll_eq hb]
  cases hbq : b.queue with
  | cons d rest =>
    refine ⟨{ b with queue := rest }, ?_, ha, k, ?_, ?_⟩
    · simp [inbox?, h.inbox_lt]
    · simpa [hbq] using hq
    · exact .inl (by simpa [hbq] using hk)
  | nil =>
    have hf : r.feeds i = lives lane o ss := by
      rw [Bool.eq_iff_iff, feeds_iff_plain, h.live]
    rw [hf]
    cases hl : lives lane o ss with
    | true => exact ⟨b, hb, ha, k, by simpa [hbq] using hq, by simpa [hbq, hl] using hk⟩
    | false =>
      refine ⟨b, hb, ha, k + 1, ?_, .inr ⟨hbq, rfl⟩⟩
      rw [hbq, List.append_nil] at hq
      simp [hbq, hq, List.replicate_succ']

/-- Any other step brings a delivery to the end of the queue, or leaves it alone. -/
theorem Collects.queue_step {got : List Delivery} (h : r.Collects i lane o ss got) (hr : r.Neat)
    (hd : s ≠ .drop i) (hp : s ≠ .poll i) :
    ∃ b, (r.step s).inbox? i = some b ∧ b.arrived = !(due lane o (ss ++ [s])).isEmpty ∧
      ∃ k, got ++ r.answers i s ++ b.queue =
          due lane o (ss ++ [s]) ++ List.replicate k (.error .connectionClosed) ∧
        (k = 0 ∨ b.queue = [] ∧ lives lane o (ss ++ [s]) = false) := by
  obtain ⟨b, hb, ha, k, hq, hk⟩ := h.queue
  rw [answers_of_ne hp, List.append_nil]
  rcases hr.inbox?_step h.inbox_lt hd hp with ⟨t, ht, hti, d, hbr, hi⟩ | ⟨hn, hi⟩
  · obtain ⟨rfl, rfl⟩ := h.slot t ht hti
    have hl := h.live.1 ⟨t, ht, hti⟩
    have hk : k = 0 := by simpa [hl] using hk
    refine ⟨b.push d, by rw [hi, hb]; rfl, ?_, 0, ?_, .inl rfl⟩
    · simp [due_concat, hl, hbr]
    · rw [due_concat, if_pos hl, hbr]
      rw [hk] at hq
      simp [← List.append_assoc, hq]
  · have hdue : due lane o (ss ++ [s]) = due lane o ss := by
      rw [due_concat]
      split
      · obtain ⟨t, ht, hti⟩ := h.live.2 ‹_›
        obtain ⟨rfl, rfl⟩ := h.slot t ht hti
        simp [hn t ht hti]
      · rfl
    refine ⟨b, hi.trans hb, ?_, k, ?_, ?_⟩
    · rw [hdue, ha]
    · rw [hdue, hq]
    · refine hk.imp_right fun hk => ⟨hk.1, ?_⟩
      rw [lives_concat, hk.2, Bool.false_and]

theorem Collects.step {got : List Delivery} (h : r.Collects i lane o ss got) (hr : r.Neat)
    (hd : s ≠ .drop i) : (r.step s).Collects i lane o (ss ++ [s]) (got ++ r.answers i s) where
  inbox_lt := by
    rw [length_step]
    exact Nat.lt_of_lt_of_le h.inbox_lt (Nat.le_add_right _ _)
  slot t ht hti := by
    obtain ⟨⟨ht, hti⟩, -⟩ := (hr.mem_plain_step_of_lt h.inbox_lt).1 ⟨ht, hti⟩
    exact h.slot t ht hti
  live := by
    rw [lives_concat, Bool.and_eq_true, ← h.live, Bool.not_eq_true']
    simp only [hr.mem_plain_step_of_lt h.inbox_lt]
    constructor
    · rintro ⟨t, ⟨ht, hti⟩, he⟩
      obtain ⟨rfl, rfl⟩ := h.slot t ht hti
      exact ⟨⟨t, ht, hti⟩, he⟩
    · rintro ⟨⟨t, ht, hti⟩, he⟩
      obtain ⟨rfl, rfl⟩ := h.slot t ht hti
      exact ⟨t, ⟨ht, hti⟩, he⟩
  queue := by
    by_cases hp : s = .poll i
    · subst hp
      exact h.queue_poll
    · exact h.queue_step hr hd hp

theorem Collects.run {got : List Delivery} (h : r.Collects i lane o ss got) (hr : r.Neat)
    {more : List Step} (hd : .drop i ∉ more) :
    (r.run more).Collects i lane o (ss ++ more) (got ++ r.yields i more) := by
  induction more generalizing r ss got with
  | nil => simpa [Router.run, yields] using h
  | cons s more ih =>
    rw [List.mem_cons, not_or] at hd
    have hs := ih (h.step hr (Ne.symm hd.1)) (hr.step s) hd.2
    simpa [Router.run, yields] using hs

theorem Collects.yielded {got : List Delivery} (h : r.Collects i lane o ss got) :
    got = (due lane o ss).take got.length ++
        List.replicate (got.length - (due lane o ss).length) (.error .connectionClosed) ∧
      ((due lane o ss).length < got.length → lives lane o ss = false) := by
  obtain ⟨b, -, -, k, hq, hk⟩ := h.queue
  rcases hk with rfl | ⟨hb, hl⟩
  · rw [List.replicate_zero, List.append_nil] at hq
    rw [← hq]
    refine ⟨by simp, fun hlt => ?_⟩
    rw [List.length_append] at hlt
    omega
  · rw [hb, List.append_nil] at hq
    refine ⟨?_, fun _ => hl⟩
    rw [hq]
    simp [List.take_of_length_le]

theorem Collects.poll {got : List Delivery} (h : r.Collects i lane o ss got) :
    (r.poll i).map (·.1) = match (due lane o ss)[got.length]? with
      | some d => some d
      | none => if lives lane o ss then none else some (.error .connectionClosed) := by
  obtain ⟨b, hb, -, k, hq, hk⟩ := h.queue
  have hf : r.feeds i = lives lane o ss := by
    rw [Bool.eq_iff_iff, feeds_iff_plain, h.live]
  rw [poll_eq hb, hf]
  cases hbq : b.queue with
  | nil =>
    have hnone : (due lane o ss)[got.length]? = none := by
      rw [hbq, List.append_nil] at hq
      simp [hq]
    rw [hnone]
    cases lives lane o ss <;> rfl
  | cons d rest =>
    have hk : k = 0 := by simpa [hbq] using hk
    have hsome : (due lane o ss)[got.length]? = some d := by
      rw [hk, List.replicate_zero, List.append_nil, hbq] at hq
      simp [← hq]
    rw [hsome]
    rfl

theorem Collects.hasArrived {got : List Delivery} (h : r.Collects i lane o ss got) :
    r.hasArrived i = !(due lane o ss).isEmpty := by
  obtain ⟨b, hb, ha, -⟩ := h.queue
  rw [Router.hasArrived, hb]
  exact ha

theorem due_isEmpty_append {more : List Step} (h : (due lane o ss).isEmpty = false) :
    (due lane o (ss ++ more)).isEmpty = false := by
  induction more using List.reverseRecOn with
  | nil => simpa using h
  | append_singleton more s ih =>
    rw [← List.append_assoc, due_concat]
    split
    · simp_all
    · exact ih

/-! ## Histories -/

theorem closed_run : (run {} ss).closed = true ↔ ∃ e, .close e ∈ ss := by
  induction ss using List.reverseRecOn with
  | nil => simp [run]
  | append_singleton ss s ih =>
    rw [run_concat, closed_step, ih, ← exists_or]
    refine exists_congr fun e => ?_
    rw [List.mem_append, List.mem_singleton]
    exact or_congr Iff.rfl eq_comm

/-- A slot that is there goes back to a registration that has not been ended since. -/
theorem exists_register {t : Slot} (h : t ∈ (run {} ss).plain) :
    ∃ a b, ss = a ++ .register t.lane t.owner :: b ∧ lives t.lane t.owner b = true := by
  induction ss using List.reverseRecOn with
  | nil => cases h
  | append_singleton ss s ih =>
    rw [run_concat, mem_plain_step (Neat.empty.run ss).closed] at h
    rcases h with h | ⟨h, he⟩
    · obtain ⟨rfl, -⟩ := Step.opens_eq_some h
      exact ⟨ss, [], rfl, rfl⟩
    · obtain ⟨a, b, rfl, hb⟩ := ih h
      refine ⟨a, b ++ [s], by simp, ?_⟩
      rw [lives_concat, hb, he]
      rfl

/-- **A router does what its history says.** A collector hands out what is due to its request, in
order and once, and then `connectionClosed`, but this only when its slot is gone. Asked again, it
gives the next that is due; if there is none, nothing while its slot is there, so that a bounded wait
times out and an unbounded one goes on, and `connectionClosed` after that. It has arrived from the
first delivery on. A response that finds no slot of its lane, as after a close, changes nothing. -/
theorem collected (ss : List Step) :
    (∀ (pre post : List Step) (lane : Lane) (o : Owner) (r : Router) (i : Nat),
      ss = pre ++ .register lane o :: post → (run {} pre).register lane o = .ok (r, i) →
      .drop i ∉ post →
      let got := r.yields i post
      let all := due lane o post
      got = all.take got.length ++
          List.replicate (got.length - all.length) (.error .connectionClosed) ∧
        (all.length < got.length → lives lane o post = false) ∧
        ((run {} ss).poll i).map (·.1) = (match all[got.length]? with
          | some d => some d
          | none => if lives lane o post then none else some (.error .connectionClosed)) ∧
        ((∃ t ∈ (run {} ss).slots, t.inbox = i) ↔ lives lane o post = true) ∧
        (run {} ss).hasArrived i = !all.isEmpty ∧
        ∀ more, .drop i ∉ more → (run {} ss).hasArrived i = true →
          (run {} (ss ++ more)).hasArrived i = true) ∧
    ∀ f : ServerFrame,
      (∃ a o b, ss = a ++ .register f.lane o :: b ∧ lives f.lane o b = true ∧ ∀ e, .close e ∉ ss) ∨
        (run {} ss).route f = run {} ss := by
  constructor
  · rintro pre post lane o r i rfl hr hd
    have hn := Neat.empty.run pre
    have hstep : r = (run {} pre).step (.register lane o) := by simp [step, hr]
    have hrun : run {} (pre ++ .register lane o :: post) = r.run post := by
      rw [hstep]
      simp [run]
    have hneat : r.Neat := hstep ▸ hn.step _
    have hc := (hn.collects_register hr).run hneat hd
    rw [hrun]
    refine ⟨hc.yielded.1, hc.yielded.2, hc.poll, ?_, hc.hasArrived, fun more hd' ha => ?_⟩
    · rw [← feeds_iff, feeds_iff_plain]
      exact hc.live
    · have hc' := hc.run (hneat.run post) hd'
      have hr' : run {} (pre ++ .register lane o :: post ++ more) = (r.run post).run more := by
        rw [← hrun]
        simp [run]
      rw [hc.hasArrived, Bool.not_eq_true'] at ha
      rw [hr', hc'.hasArrived, due_isEmpty_append ha]
      rfl
  · intro f
    by_cases hf : (run {} ss).Holds f.lane
    · obtain ⟨t, ht, hl⟩ := hf
      obtain ⟨a, b, hab, hb⟩ := exists_register (plain_mem ht)
      refine .inl ⟨a, t.owner, b, hl ▸ hab, hl ▸ hb, fun e he => ?_⟩
      rw [(Neat.empty.run ss).closed (closed_run.2 ⟨e, he⟩)] at ht
      cases ht
    · exact .inr (by rw [route, slot?_eq_none.2 hf])

/-- A collector that hands out its two deliveries, an answer and a failure, and is then at its end;
the response that comes after the failure does not reach it. -/
theorem collected_failedTransaction :
    let r := run {} [.register 7 { transaction := some 2 }, .route ⟨7, .item (.data [97])⟩, .poll 0,
      .failTransaction 2 .transactionClosed, .route ⟨7, .acknowledged⟩, .poll 0]
    r.hasArrived 0 = true ∧ (r.poll 0).map (·.1) = some (.error .connectionClosed) := by
  have h := (collected _).1 [] [.route ⟨7, .item (.data [97])⟩, .poll 0,
    .failTransaction 2 .transactionClosed, .route ⟨7, .acknowledged⟩, .poll 0] 7
    { transaction := some 2 } _ 0 rfl rfl (by decide)
  exact ⟨h.2.2.2.2.1, h.2.2.1⟩

end

end QueryLanes.Router
