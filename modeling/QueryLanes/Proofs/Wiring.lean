import Mathlib.Algebra.Group.Nat.Defs
import QueryLanes.Proofs.Routing
import QueryLanes.Proofs.Wave

/-!
# Wiring

`Link.Sound` says how the slots of a link agree with its transcript: a lane has a slot exactly while
its last wave goes on. `Link.Wired` ties a lane to the inbox of the one who waits on it. From the two
follows what each operation of the link does to a line:

- `Wired.line_launch`, `line_launch_self`: a request that is sent renews its own line and no other;
- `Wired.line_receive`: a frame is heard on its own lane and nowhere else;
- `Wired.line_fail`: a failing owner strikes the lines that are its own, and no others;
- `Wired.line_poll`: what the router polls is what the line polls.

`Link.Extends` says of two links that the second keeps whatever was sound and wired in the first.
Lanes are numbers of 64 bits, so it asks for that as long as no more lanes were given out than there
are.
-/

namespace QueryLanes

/-! ## Sound links -/

namespace Link

variable {l : Link}

/-- The lane was given out. -/
def Issued (l : Link) (lane : Lane) : Prop := ∃ n < l.issued, lane = UInt64.ofNat (n + 1)

/-- How the slots of a link agree with its transcript. -/
structure Sound (l : Link) : Prop where
  closed : l.router.closed = !l.isOpen
  quiet : l.isOpen = false → l.router.slots = []
  single : ∀ s ∈ l.router.slots, ∀ t ∈ l.router.slots, s.lane = t.lane → s = t
  slot_issued : ∀ s ∈ l.router.slots, l.Issued s.lane
  slot_inbox : ∀ s ∈ l.router.slots, s.inbox < l.router.inboxes.length
  abandoned : ∀ s ∈ l.router.slots, s.abandoned = true → l.router.inbox? s.inbox = none
  unissued : ∀ lane, ¬ l.Issued lane → l.waves lane = []
  live : ∀ lane, l.router.Holds lane ↔ Wave.ongoing (l.waves lane) = true

/-- The lane's slot, while it has one, feeds the inbox with the number `i`, which no other slot
does. -/
structure Wired (l : Link) (lane : Lane) (i : Nat) (o : Owner) : Prop where
  issued : l.Issued lane
  inbox_lt : i < l.router.inboxes.length
  slot : ∀ s ∈ l.router.slots, s.lane = lane ↔ s.inbox = i
  owner : ∀ s ∈ l.router.slots, s.lane = lane → s.owner = o

/-- Whatever is sound and wired in the first link is so in the second, as long as no lane was given
out twice. -/
structure Extends (l l' : Link) : Prop where
  issued_le : l.issued ≤ l'.issued
  sound : l'.issued ≤ 2 ^ 64 → l.Sound → l'.Sound
  wired : l'.issued ≤ 2 ^ 64 → l.Sound → ∀ {lane i o}, l.Wired lane i o → l'.Wired lane i o

theorem Extends.refl (l : Link) : l.Extends l := ⟨Nat.le_refl _, fun _ h => h, fun _ _ _ _ _ h => h⟩

theorem Extends.trans {l l' l'' : Link} (h : l.Extends l') (h' : l'.Extends l'') : l.Extends l'' where
  issued_le := Nat.le_trans h.issued_le h'.issued_le
  sound hb hs := h'.sound hb (h.sound (Nat.le_trans h'.issued_le hb) hs)
  wired hb hs _ _ _ hw :=
    h'.wired hb (h.sound (Nat.le_trans h'.issued_le hb) hs)
      (h.wired (Nat.le_trans h'.issued_le hb) hs hw)

theorem Sound.empty : ({} : Link).Sound where
  closed := rfl
  quiet _ := rfl
  single := by simp
  slot_issued := by simp
  slot_inbox := by simp
  abandoned := by simp
  unissued _ _ := rfl
  live lane := by simp [Router.Holds, waves]

theorem Issued.mono {l' : Link} (h : l.issued ≤ l'.issued) {lane : Lane} (hi : l.Issued lane) :
    l'.Issued lane := by
  obtain ⟨n, hn, rfl⟩ := hi
  exact ⟨n, Nat.lt_of_lt_of_le hn h, rfl⟩

/-- Two lanes with different places among the first `2 ^ 64` are different. -/
theorem not_issued_of_le {n : Nat} (hn : l.issued ≤ n) (hb : n < 2 ^ 64) :
    ¬ l.Issued (UInt64.ofNat (n + 1)) := by
  rintro ⟨m, hm, h⟩
  have := congrArg UInt64.toNat h
  simp only [UInt64.toNat_ofNat'] at this
  omega

/-! ### Requests -/

/-- A request goes out on a lane: it gets a slot, an inbox and a frame. -/
def launch (l : Link) (lane : Lane) (o : Owner) (request : Request) : Link :=
  record { l with router := { l.router with
    slots := { lane := lane, owner := o, inbox := l.router.inboxes.length } ::
      (l.router.withdraw lane).slots
    inboxes := l.router.inboxes ++ [some {}] } } (.sent ⟨lane, request⟩)

theorem dispatch_eq (hc : l.router.closed = !l.isOpen) (lane : Lane) (o : Owner)
    (request : Request) :
    l.dispatch lane o request =
      if l.isOpen then (.ok l.router.inboxes.length, l.launch lane o request)
      else (.error .connectionClosed, l) := by
  cases ho : l.isOpen <;> rw [ho] at hc <;>
    simp [dispatch, Router.register, Router.withdraw, hc, ho, send, launch]

theorem mem_slots_launch {lane : Lane} {o : Owner} {request : Request} {s : Slot} :
    s ∈ (l.launch lane o request).router.slots ↔
      s = { lane := lane, owner := o, inbox := l.router.inboxes.length } ∨
        s ∈ l.router.slots ∧ s.lane ≠ lane := by
  simp [launch, record, Router.withdraw]

theorem inbox?_launch {lane : Lane} {o : Owner} {request : Request} {i : Nat}
    (hi : i < l.router.inboxes.length) :
    (l.launch lane o request).router.inbox? i = l.router.inbox? i := by
  simp [launch, record, Router.inbox?, List.getElem?_append_left hi]

theorem inbox?_launch_self {lane : Lane} {o : Owner} {request : Request} :
    (l.launch lane o request).router.inbox? l.router.inboxes.length = some {} := by
  simp [launch, record, Router.inbox?]

theorem waves_launch {lane lane' : Lane} {o : Owner} {request : Request} :
    (l.launch lane o request).waves lane' =
      if lane = lane' then l.waves lane' ++ [{ request := request }] else l.waves lane' := by
  rw [launch, waves_record]
  rfl

theorem Sound.launch (hs : l.Sound) {lane : Lane} (hi : l.Issued lane) (ho : l.isOpen = true)
    (o : Owner) (request : Request) : (l.launch lane o request).Sound where
  closed := hs.closed
  quiet h := by rw [show (l.launch lane o request).isOpen = l.isOpen from rfl, ho] at h; cases h
  single s hm t hm' hl := by
    rw [mem_slots_launch] at hm hm'
    rcases hm with rfl | ⟨hm, hne⟩ <;> rcases hm' with rfl | ⟨hm', hne'⟩
    · rfl
    · exact absurd hl.symm hne'
    · exact absurd hl hne
    · exact hs.single s hm t hm' hl
  slot_issued s hm := by
    rcases mem_slots_launch.1 hm with rfl | ⟨hm, -⟩
    · exact hi
    · exact hs.slot_issued s hm
  slot_inbox s hm := by
    have hlen : (l.launch lane o request).router.inboxes.length = l.router.inboxes.length + 1 := by
      simp [Link.launch, record]
    rw [hlen]
    rcases mem_slots_launch.1 hm with rfl | ⟨hm, -⟩
    · exact Nat.lt_succ_self _
    · exact Nat.lt_succ_of_lt (hs.slot_inbox s hm)
  abandoned s hm ha := by
    rcases mem_slots_launch.1 hm with rfl | ⟨hm, -⟩
    · cases ha
    · rw [inbox?_launch (hs.slot_inbox s hm)]
      exact hs.abandoned s hm ha
  unissued lane' h := by
    have h' : ¬ l.Issued lane' := h
    have hne : lane ≠ lane' := by rintro rfl; exact h' hi
    rw [waves_launch, if_neg hne]
    exact hs.unissued lane' h'
  live lane' := by
    rw [waves_launch]
    by_cases he : lane = lane'
    · subst he
      simp only [if_true, Wave.ongoing_concat, Wave.isOver, Option.isSome_none, Bool.not_false,
        iff_true]
      exact ⟨_, mem_slots_launch.2 (.inl rfl), rfl⟩
    · rw [if_neg he, ← hs.live]
      constructor
      · rintro ⟨s, hm, rfl⟩
        rcases mem_slots_launch.1 hm with rfl | ⟨hm, -⟩
        · exact absurd rfl he
        · exact ⟨s, hm, rfl⟩
      · rintro ⟨s, hm, rfl⟩
        exact ⟨s, mem_slots_launch.2 (.inr ⟨hm, Ne.symm he⟩), rfl⟩

theorem Sound.wired_launch (hs : l.Sound) {lane : Lane} (hi : l.Issued lane) (o : Owner)
    (request : Request) : (l.launch lane o request).Wired lane l.router.inboxes.length o where
  issued := hi
  inbox_lt := by simp [Link.launch, record]
  slot s hm := by
    rcases mem_slots_launch.1 hm with rfl | ⟨hm, hne⟩
    · simp
    · have := hs.slot_inbox s hm
      exact ⟨fun h => absurd h hne, fun h => by omega⟩
  owner s hm hl := by
    rcases mem_slots_launch.1 hm with rfl | ⟨hm, hne⟩
    · rfl
    · exact absurd hl hne

theorem Wired.launch {lane lane' : Lane} {i : Nat} {o o' : Owner} (hw : l.Wired lane i o)
    (hne : lane' ≠ lane) (request : Request) : (l.launch lane' o' request).Wired lane i o where
  issued := hw.issued
  inbox_lt := by
    have := hw.inbox_lt
    simp only [Link.launch, record, List.length_append, List.length_singleton]
    omega
  slot s hm := by
    rcases mem_slots_launch.1 hm with rfl | ⟨hm, -⟩
    · have := hw.inbox_lt
      exact ⟨fun h => absurd h hne, fun (h : l.router.inboxes.length = i) => by omega⟩
    · exact hw.slot s hm
  owner s hm hl := by
    rcases mem_slots_launch.1 hm with rfl | ⟨hm, -⟩
    · exact absurd hl hne
    · exact hw.owner s hm hl

theorem Wired.line_launch {lane lane' : Lane} {i : Nat} {o o' : Owner} (hw : l.Wired lane i o)
    (hne : lane' ≠ lane) (request : Request) :
    (l.launch lane' o' request).line lane i = l.line lane i := by
  simp only [line, waves_launch, if_neg hne, inbox?_launch hw.inbox_lt]
  rfl

theorem line_launch_self (lane : Lane) (o : Owner) (request : Request) (i : Nat) :
    (l.launch lane o request).line lane l.router.inboxes.length =
      (l.line lane i).renew request := by
  simp only [line, waves_launch, if_true, inbox?_launch_self, Line.renew]
  rfl

/-- The lane that is given out next. -/
def nextLane (l : Link) : Lane := UInt64.ofNat (l.issued + 1)

theorem extends_openLane (l : Link) : l.Extends l.openLane.2 where
  issued_le := Nat.le_succ _
  sound _ hs :=
    { hs with
      slot_issued := fun s hm => (hs.slot_issued s hm).mono (Nat.le_succ _)
      unissued := fun lane h => hs.unissued lane fun hi => h (hi.mono (Nat.le_succ _)) }
  wired _ _ _ _ _ hw := { hw with issued := hw.issued.mono (Nat.le_succ _) }

theorem issued_nextLane (l : Link) : l.openLane.2.Issued l.nextLane :=
  ⟨l.issued, Nat.lt_succ_self _, rfl⟩

theorem Wired.nextLane_ne {lane : Lane} {i : Nat} {o : Owner} (hw : l.Wired lane i o)
    (hb : l.issued < 2 ^ 64) : l.nextLane ≠ lane := by
  rintro rfl
  exact not_issued_of_le (Nat.le_refl _) hb hw.issued

theorem Sound.request_eq (hs : l.Sound) (o : Owner) (request : Request) :
    l.request o request =
      if l.isOpen then (.ok l.router.inboxes.length, l.openLane.2.launch l.nextLane o request)
      else (.error .connectionClosed, l.openLane.2) :=
  dispatch_eq (l := l.openLane.2) hs.closed _ _ _

theorem issued_dispatch (lane : Lane) (o : Owner) (request : Request) :
    (l.dispatch lane o request).2.issued = l.issued := by
  unfold dispatch
  split
  · rfl
  · simp only [send]
    split <;> rename_i h
    · split at h
      · cases h; rfl
      · cases h
    · rfl

theorem issued_request (o : Owner) (request : Request) :
    (l.request o request).2.issued = l.issued + 1 := issued_dispatch _ _ _

theorem extends_request (l : Link) (o : Owner) (request : Request) :
    l.Extends (l.request o request).2 where
  issued_le := by rw [issued_request]; omega
  sound hb hs := by
    rw [issued_request] at hb
    rw [hs.request_eq]
    have hs' := (extends_openLane l).sound hb hs
    cases ho : l.isOpen with
    | true => exact hs'.launch (issued_nextLane l) ho o request
    | false => exact hs'
  wired hb hs _ _ _ hw := by
    rw [issued_request] at hb
    rw [hs.request_eq]
    have hw' := (extends_openLane l).wired hb hs hw
    cases ho : l.isOpen with
    | true => exact hw'.launch (hw.nextLane_ne hb) request
    | false => exact hw'

theorem Wired.line_request {lane : Lane} {i : Nat} {o o' : Owner} (hw : l.Wired lane i o)
    (hs : l.Sound) {request : Request} (hb : (l.request o' request).2.issued ≤ 2 ^ 64) :
    (l.request o' request).2.line lane i = l.line lane i := by
  rw [issued_request] at hb
  rw [hs.request_eq]
  have hw' := (extends_openLane l).wired hb hs hw
  cases ho : l.isOpen with
  | true => exact hw'.line_launch (hw.nextLane_ne hb) request
  | false => rfl

/-! ### Inboxes -/

theorem inbox?_dropInbox (i j : Nat) :
    (l.dropInbox j).router.inbox? i = if j = i then none else l.router.inbox? i :=
  Router.inbox?_drop i j

theorem extends_dropInbox (l : Link) (j : Nat) : l.Extends (l.dropInbox j) where
  issued_le := Nat.le_refl _
  sound _ hs :=
    { hs with
      slot_inbox := fun s hm => by
        rw [show (l.dropInbox j).router = l.router.drop j from rfl, Router.length_drop]
        exact hs.slot_inbox s hm
      abandoned := fun s hm ha => by
        rw [inbox?_dropInbox, hs.abandoned s hm ha, ite_self] }
  wired _ _ _ _ _ hw :=
    { hw with
      inbox_lt := by
        rw [show (l.dropInbox j).router = l.router.drop j from rfl, Router.length_drop]
        exact hw.inbox_lt }

theorem line_dropInbox_of_ne {i j : Nat} (h : j ≠ i) (lane : Lane) :
    (l.dropInbox j).line lane i = l.line lane i := by
  simp only [line, inbox?_dropInbox, if_neg h]
  rfl

theorem line_dropInbox_self (i : Nat) (lane : Lane) :
    (l.dropInbox i).line lane i = { l.line lane i with inbox := none } := by
  simp only [line, inbox?_dropInbox, if_true]
  rfl

theorem post_eq (o : Owner) (request : Request) :
    ∃ l' : Link, (l.request o request).2 = l' ∧
      (l.post o request = l' ∨
        ∃ i, (l.request o request).1 = .ok i ∧ l.post o request = l'.dropInbox i) := by
  unfold post
  split <;> rename_i h <;> rw [h]
  · exact ⟨_, rfl, .inr ⟨_, rfl, rfl⟩⟩
  · exact ⟨_, rfl, .inl rfl⟩

theorem extends_post (l : Link) (o : Owner) (request : Request) : l.Extends (l.post o request) := by
  obtain ⟨l', hl, h | ⟨i, -, h⟩⟩ := post_eq (l := l) o request
  · rw [h, ← hl]; exact extends_request l o request
  · rw [h, ← hl]; exact (extends_request l o request).trans (extends_dropInbox _ i)

/-- The number of the inbox that a request is given is new. -/
theorem Sound.inbox_request (hs : l.Sound) {o : Owner} {request : Request}
    {i : Nat} (h : (l.request o request).1 = .ok i) : i = l.router.inboxes.length := by
  rw [hs.request_eq] at h
  split at h
  · exact (Except.ok.inj h).symm
  · cases h

theorem issued_post (o : Owner) (request : Request) :
    (l.post o request).issued = l.issued + 1 := by
  rw [← issued_request o request]
  obtain ⟨l', hl, h | ⟨i, -, h⟩⟩ := post_eq (l := l) o request <;> rw [h, hl]
  rfl

theorem Wired.line_post {lane : Lane} {i : Nat} {o o' : Owner} (hw : l.Wired lane i o)
    (hs : l.Sound) {request : Request} (hb : (l.post o' request).issued ≤ 2 ^ 64) :
    (l.post o' request).line lane i = l.line lane i := by
  rw [issued_post, ← issued_request o' request] at hb
  obtain ⟨l', hl, h | ⟨j, hj, h⟩⟩ := post_eq (l := l) o' request <;> rw [h, ← hl]
  · exact hw.line_request hs hb
  · have hj' := hs.inbox_request hj
    have := hw.inbox_lt
    rw [line_dropInbox_of_ne (by omega), hw.line_request hs hb]

/-- What a poll finds: the oldest delivery, or that there is nothing to come any more. -/
theorem poll_cases {i : Nat} {d : Delivery} {r : Router} (h : l.router.poll i = some (d, r)) :
    ∃ b : Inbox, l.router.inbox? i = some b ∧
      ((∃ rest, b.queue = d :: rest ∧
          r = { l.router with inboxes := l.router.inboxes.set i (some { b with queue := rest }) }) ∨
        (b.queue = [] ∧ l.router.feeds i = false ∧ d = .error .connectionClosed ∧ r = l.router)) := by
  unfold Router.poll at h
  split at h
  · cases h
  · rename_i b hb
    refine ⟨b, hb, ?_⟩
    split at h
    · rename_i d' rest hq
      cases h
      exact .inl ⟨rest, hq, rfl⟩
    · rename_i hq
      split at h
      · cases h
      · rename_i hf
        cases h
        exact .inr ⟨hq, by simpa using hf, rfl, rfl⟩

theorem extends_poll {i : Nat} {d : Delivery} {r : Router} (h : l.router.poll i = some (d, r)) :
    l.Extends { l with router := r } := by
  obtain ⟨b, hb, ⟨rest, -, rfl⟩ | ⟨-, -, -, rfl⟩⟩ := poll_cases h
  · refine ⟨Nat.le_refl _, fun _ hs => { hs with
      slot_inbox := fun s hm => ?_, abandoned := fun s hm ha => ?_ }, fun _ _ _ _ _ hw => { hw with
      inbox_lt := ?_ }⟩
    · simpa using hs.slot_inbox s hm
    · have hn := hs.abandoned s hm ha
      have hne : i ≠ s.inbox := by rintro rfl; rw [hb] at hn; cases hn
      rw [Router.inbox?_set, if_neg (fun h => hne h.1), hn]
    · simpa using hw.inbox_lt
  · exact .refl _

theorem line_poll_of_ne {i j : Nat} {d : Delivery} {r : Router} (h : l.router.poll j = some (d, r))
    (hne : j ≠ i) (lane : Lane) : Link.line { l with router := r } lane i = l.line lane i := by
  obtain ⟨b, hb, ⟨rest, -, rfl⟩ | ⟨-, -, -, rfl⟩⟩ := poll_cases h
  · simp only [line, Router.inbox?_set, if_neg (fun h : j = i ∧ _ => hne h.1)]
    rfl
  · rfl

theorem Wired.feeds_iff {lane : Lane} {i : Nat} {o : Owner} (hw : l.Wired lane i o) (hs : l.Sound) :
    l.router.feeds i = (l.line lane i).isLive := by
  rw [Bool.eq_iff_iff, Router.feeds_iff, Line.isLive, line, ← hs.live]
  constructor
  · rintro ⟨s, hm, h⟩
    exact ⟨s, hm, (hw.slot s hm).2 h⟩
  · rintro ⟨s, hm, h⟩
    exact ⟨s, hm, (hw.slot s hm).1 h⟩

/-- What the router polls is what the line polls. -/
theorem Wired.line_poll {lane : Lane} {i : Nat} {o : Owner} (hw : l.Wired lane i o) (hs : l.Sound) :
    (l.line lane i).poll =
      (l.router.poll i).map fun p => (p.1, Link.line { l with router := p.2 } lane i) := by
  have hf := hw.feeds_iff hs
  unfold Line.poll Router.poll
  cases hb : l.router.inbox? i with
  | none => simp [line, hb]
  | some b =>
    have hb' : (l.line lane i).inbox = some b := hb
    simp only [hb']
    cases hq : b.queue with
    | nil =>
      rw [hf]
      cases (l.line lane i).isLive <;> rfl
    | cons d rest =>
      have hset := Router.inbox?_set (r := l.router) i i (some { b with queue := rest })
      simp only [hw.inbox_lt, and_self, if_true] at hset
      simp only [Option.map_some, line, hset]
      rfl

/-! ### Failures -/

/-- The requests of the owners that `doomed` selects fail. -/
def fail (l : Link) (doomed : Owner → Bool) (e : Failure) : Link :=
  record { l with router := (l.router.failWhere doomed e).1 }
    (.failed (l.router.failWhere doomed e).2 e)

theorem failTransaction_eq (l : Link) (id : UInt64) :
    l.failTransaction id = l.fail (·.transaction == some id) .transactionClosed := rfl

theorem failSession_eq (l : Link) (id : UInt64) :
    l.failSession id = l.fail (·.session == some id) .sessionClosed := rfl

theorem close_eq (l : Link) :
    l.close = if l.isOpen then
        { l.fail (fun _ => true) .connectionClosed with
          isOpen := false
          router := { (l.fail (fun _ => true) .connectionClosed).router with closed := true } }
      else l := rfl

theorem mem_slots_fail {doomed : Owner → Bool} {e : Failure} {s : Slot} :
    s ∈ (l.fail doomed e).router.slots ↔ s ∈ l.router.slots ∧ doomed s.owner = false := by
  simp [fail, record, Router.failWhere_eq]

theorem inbox?_fail {doomed : Owner → Bool} {e : Failure} (i : Nat) :
    (l.fail doomed e).router.inbox? i =
      if ∃ s ∈ l.router.slots, doomed s.owner = true ∧ s.inbox = i then
        (l.router.inbox? i).map (·.push (.error e))
      else l.router.inbox? i := by
  have h := Router.inbox?_deliver (r := l.router)
    (fun i => (l.router.slots.filter (doomed ·.owner)).any (·.inbox == i)) (.error e) i
  simp only [List.any_eq_true, List.mem_filter, beq_iff_eq, and_assoc] at h
  rw [← h]
  simp only [fail, record, Router.failWhere_eq]
  rfl

theorem waves_fail {doomed : Owner → Bool} {e : Failure} (lane : Lane) :
    (l.fail doomed e).waves lane =
      if ∃ s ∈ l.router.slots, doomed s.owner = true ∧ s.lane = lane then
        (l.waves lane).modifyLast (·.strike e)
      else l.waves lane := by
  have h : lane ∈ (l.router.slots.filter (doomed ·.owner)).map (·.lane) ↔
      ∃ s ∈ l.router.slots, doomed s.owner = true ∧ s.lane = lane := by
    simp [List.mem_map, and_assoc]
  simp only [← h, fail, waves_record, Router.failWhere_eq]
  rfl

theorem Sound.fail (hs : l.Sound) (doomed : Owner → Bool) (e : Failure) :
    (l.fail doomed e).Sound where
  closed := by
    have := hs.closed
    simpa [Link.fail, record, Router.failWhere_eq, Router.deliver] using this
  quiet h := by
    have := hs.quiet h
    simp [Link.fail, record, Router.failWhere_eq, this]
  single s hm t hm' := hs.single s (mem_slots_fail.1 hm).1 t (mem_slots_fail.1 hm').1
  slot_issued s hm := hs.slot_issued s (mem_slots_fail.1 hm).1
  slot_inbox s hm := by
    have := hs.slot_inbox s (mem_slots_fail.1 hm).1
    simpa [Link.fail, record, Router.failWhere_eq] using this
  abandoned s hm ha := by
    rw [inbox?_fail, hs.abandoned s (mem_slots_fail.1 hm).1 ha, Option.map_none, ite_self]
  unissued lane h := by
    rw [waves_fail, hs.unissued lane h]
    split <;> rfl
  live lane := by
    rw [waves_fail]
    split <;> rename_i hd
    · obtain ⟨s, hm, hdoom, rfl⟩ := hd
      obtain ⟨done, w, hw, -⟩ := Wave.exists_of_ongoing ((hs.live s.lane).1 ⟨s, hm, rfl⟩)
      simp only [hw, List.modifyLast_concat, Wave.ongoing_concat, Wave.isOver_strike,
        Bool.not_true, Bool.false_eq_true, iff_false]
      rintro ⟨t, hmt, hlane⟩
      obtain ⟨hmt, hkept⟩ := mem_slots_fail.1 hmt
      rw [hs.single t hmt s hm hlane, hdoom] at hkept
      cases hkept
    · rw [← hs.live]
      constructor
      · rintro ⟨s, hm, h⟩
        exact ⟨s, (mem_slots_fail.1 hm).1, h⟩
      · rintro ⟨s, hm, rfl⟩
        exact ⟨s, mem_slots_fail.2 ⟨hm, by
          by_contra hdoom
          exact hd ⟨s, hm, by simpa using hdoom, rfl⟩⟩, rfl⟩

theorem Wired.fail {lane : Lane} {i : Nat} {o : Owner} (hw : l.Wired lane i o)
    (doomed : Owner → Bool) (e : Failure) : (l.fail doomed e).Wired lane i o where
  issued := hw.issued
  inbox_lt := by
    have := hw.inbox_lt
    simpa [Link.fail, record, Router.failWhere_eq] using this
  slot s hm := hw.slot s (mem_slots_fail.1 hm).1
  owner s hm := hw.owner s (mem_slots_fail.1 hm).1

theorem extends_fail (l : Link) (doomed : Owner → Bool) (e : Failure) :
    l.Extends (l.fail doomed e) :=
  ⟨Nat.le_refl _, fun _ hs => hs.fail doomed e, fun _ _ _ _ _ hw => hw.fail doomed e⟩

/-- A failing owner strikes the lines that are its own, and no others. -/
theorem Wired.line_fail {lane : Lane} {i : Nat} {o : Owner} (hw : l.Wired lane i o) (hs : l.Sound)
    (doomed : Owner → Bool) (e : Failure) :
    (l.fail doomed e).line lane i =
      if doomed o then (l.line lane i).strike e else l.line lane i := by
  have hlane : (∃ s ∈ l.router.slots, doomed s.owner = true ∧ s.lane = lane) ↔
      doomed o = true ∧ (l.line lane i).isLive = true := by
    rw [Line.isLive, line, ← hs.live]
    constructor
    · rintro ⟨s, hm, hd, h⟩
      exact ⟨hw.owner s hm h ▸ hd, s, hm, h⟩
    · rintro ⟨hd, s, hm, h⟩
      exact ⟨s, hm, (hw.owner s hm h).symm ▸ hd, h⟩
  have hinbox : (∃ s ∈ l.router.slots, doomed s.owner = true ∧ s.inbox = i) ↔
      doomed o = true ∧ (l.line lane i).isLive = true := by
    rw [← hlane]
    exact exists_congr fun s => and_congr_right fun hm => and_congr_right fun _ =>
      (hw.slot s hm).symm
  have key : (l.fail doomed e).line lane i = ⟨l.isOpen, (l.fail doomed e).waves lane,
      (l.fail doomed e).router.inbox? i⟩ := rfl
  rw [key, inbox?_fail, waves_fail]
  simp only [hlane, hinbox]
  cases hd : doomed o with
  | false => simp [line]
  | true =>
    unfold Line.strike
    cases hl : (l.line lane i).isLive <;> simp [line]

theorem isOpen_close (l : Link) : l.close.isOpen = false := by
  rw [close_eq]
  cases ho : l.isOpen <;> simp [ho]

theorem issued_close (l : Link) : l.close.issued = l.issued := by
  rw [close_eq]
  split <;> rfl

theorem extends_close (l : Link) : l.Extends l.close := by
  rw [close_eq]
  split
  · refine ⟨Nat.le_refl _, fun _ hs => ?_, fun _ _ _ _ _ hw => ?_⟩
    · have h := hs.fail (fun _ => true) .connectionClosed
      exact { h with
        closed := rfl
        quiet := fun _ => List.eq_nil_iff_forall_not_mem.2 fun s hm => by
          have hm' : s ∈ (l.fail (fun _ => true) .connectionClosed).router.slots := hm
          cases (mem_slots_fail.1 hm').2 }
    · exact { hw.fail (fun _ => true) .connectionClosed with }
  · exact .refl l

/-- On a closed link nothing goes on. -/
theorem Sound.not_ongoing (hs : l.Sound) (ho : l.isOpen = false) (lane : Lane) :
    Wave.ongoing (l.waves lane) = false := by
  rw [Bool.eq_false_iff, ne_eq, ← hs.live]
  rintro ⟨s, hm, -⟩
  rw [hs.quiet ho] at hm
  cases hm

theorem Wired.line_close {lane : Lane} {i : Nat} {o : Owner} (hw : l.Wired lane i o)
    (hs : l.Sound) : l.close.line lane i = (l.line lane i).lose := by
  rw [close_eq]
  split <;> rename_i ho
  · have h := hw.line_fail hs (fun _ => true) .connectionClosed
    rw [if_pos rfl] at h
    rw [Line.lose, ← h]
    rfl
  · have hl : (l.line lane i).isLive = false := hs.not_ongoing (by simpa using ho) lane
    rw [Line.lose, Line.strike, hl]
    simpa [line] using ho

/-! ### Frames -/

/-- A frame is routed. -/
def heard (l : Link) (f : ServerFrame) : Link :=
  record { l with router := l.router.route f } (.received f)

theorem receive_eq (l : Link) (f : ServerFrame) :
    l.receive f = if l.isOpen then l.heard f else l := rfl

theorem waves_heard (f : ServerFrame) (lane : Lane) :
    (l.heard f).waves lane = Wave.follow lane (l.waves lane) (.received f) := by
  simp [heard, waves, record]

theorem ongoing_heard (f : ServerFrame) (lane : Lane) :
    Wave.ongoing ((l.heard f).waves lane) = true ↔
      Wave.ongoing (l.waves lane) = true ∧ ¬ (f.lane = lane ∧ f.body.isTerminal = true) := by
  rw [waves_heard]
  by_cases hl : f.lane = lane
  · simp only [Wave.follow, hl, true_and, if_true]
    cases hw : Wave.ongoing (l.waves lane) with
    | false => simp [Wave.modifyLast_of_not_ongoing hw fun w h => Wave.hear_of_isOver h _, hw]
    | true =>
      obtain ⟨done, w, hd, hwo⟩ := Wave.exists_of_ongoing hw
      simp [hd, List.modifyLast_concat, Wave.isOver_hear hwo]
  · simp [Wave.follow, hl]

/-- A frame is heard on its own lane and nowhere else. -/
theorem Wired.line_receive {lane : Lane} {i : Nat} {o : Owner} (hw : l.Wired lane i o)
    (hs : l.Sound) (f : ServerFrame) :
    (l.receive f).line lane i =
      if f.lane = lane then (l.line lane i).hear f.body else l.line lane i := by
  rw [receive_eq]
  split <;> rename_i ho
  · have key : (l.heard f).line lane i =
        ⟨l.isOpen, (l.heard f).waves lane, (l.router.route f).inbox? i⟩ := rfl
    rw [key, waves_heard]
    cases hslot : l.router.slot? f.lane with
    | none =>
      have hroute : l.router.route f = l.router := by rw [Router.route, hslot]
      rw [hroute]
      by_cases hl : f.lane = lane
      · have hn : Wave.ongoing (l.waves lane) = false := by
          rw [Bool.eq_false_iff, ne_eq, ← hs.live, ← hl]
          exact Router.slot?_eq_none.1 hslot
        simp [Wave.follow, hl, Line.hear, Line.isLive, line, hn,
          Wave.modifyLast_of_not_ongoing hn fun w h => Wave.hear_of_isOver h _]
      · simp [Wave.follow, hl, line]
    | some s =>
      obtain ⟨hm, hsl⟩ := Router.slot?_eq_some hslot
      rw [Router.inbox?_route hslot (hs.abandoned s hm)]
      by_cases hl : f.lane = lane
      · have hn : Wave.ongoing (l.waves lane) = true := (hs.live lane).1 ⟨s, hm, hsl.trans hl⟩
        have hi : i = s.inbox := ((hw.slot s hm).1 (hsl.trans hl)).symm
        simp [Wave.follow, hl, Line.hear, Line.isLive, line, hn, hi]
      · have hi : i ≠ s.inbox := fun h => hl (hsl.symm.trans ((hw.slot s hm).2 h.symm))
        simp [Wave.follow, hl, line, hi]
  · have hn := hs.not_ongoing (by simpa using ho) lane
    simp [Line.hear, Line.isLive, line, hn]

theorem Sound.heard (hs : l.Sound) (ho : l.isOpen = true) (f : ServerFrame) :
    (l.heard f).Sound := by
  obtain ⟨g, hg, hmark⟩ := Router.exists_of_mem_route (r := l.router) f
  exact {
    closed := (Router.closed_route f).trans hs.closed
    quiet := fun h => by simp [Link.heard, record, ho] at h
    single := fun s' hm' t' hn' hl => by
      obtain ⟨s, hm, rfl⟩ := hg s' hm'
      obtain ⟨t, hn, rfl⟩ := hg t' hn'
      rw [hs.single s hm t hn (by rw [← (hmark s).1, hl, (hmark t).1])]
    slot_issued := fun s' hm' => by
      obtain ⟨s, hm, rfl⟩ := hg s' hm'
      rw [(hmark s).1]
      exact hs.slot_issued s hm
    slot_inbox := fun s' hm' => by
      obtain ⟨s, hm, rfl⟩ := hg s' hm'
      rw [(hmark s).2.2.1]
      exact (Router.length_route f).symm ▸ hs.slot_inbox s hm
    abandoned := fun s' hm' ha => by
      obtain ⟨s, hm, rfl⟩ := hg s' hm'
      obtain ⟨-, -, hi, hab⟩ := hmark s
      have hn : l.router.inbox? s.inbox = none := by
        rcases hab ha with h | ⟨t, ht, hl, hn⟩
        · exact hs.abandoned s hm h
        · obtain ⟨htm, htl⟩ := Router.slot?_eq_some ht
          rwa [← hs.single s hm t htm (hl.trans htl.symm)] at hn
      rw [hi]
      show (l.router.route f).inbox? s.inbox = none
      cases hslot : l.router.slot? f.lane with
      | none => rwa [Router.route, hslot]
      | some t =>
        have := Router.slot?_eq_some hslot
        rw [Router.inbox?_route hslot (hs.abandoned t this.1), hn, Option.map_none, ite_self]
    unissued := fun lane h => by
      rw [waves_heard, hs.unissued lane h]
      simp only [Wave.follow]
      split <;> rfl
    live := fun lane => by
      rw [ongoing_heard, ← hs.live]
      exact Router.holds_route }

theorem Wired.heard {lane : Lane} {i : Nat} {o : Owner} (hw : l.Wired lane i o) (f : ServerFrame) :
    (l.heard f).Wired lane i o := by
  obtain ⟨g, hg, hmark⟩ := Router.exists_of_mem_route (r := l.router) f
  exact {
    issued := hw.issued
    inbox_lt := (Router.length_route f).symm ▸ hw.inbox_lt
    slot := fun s' hm' => by
      obtain ⟨s, hm, rfl⟩ := hg s' hm'
      rw [(hmark s).1, (hmark s).2.2.1]
      exact hw.slot s hm
    owner := fun s' hm' hl => by
      obtain ⟨s, hm, rfl⟩ := hg s' hm'
      rw [(hmark s).2.1]
      exact hw.owner s hm ((hmark s).1 ▸ hl) }

theorem extends_receive (l : Link) (f : ServerFrame) : l.Extends (l.receive f) := by
  rw [receive_eq]
  split <;> rename_i ho
  · exact ⟨Nat.le_refl _, fun _ hs => hs.heard ho f, fun _ _ _ _ _ hw => hw.heard f⟩
  · exact .refl l

/-! ### Callbacks -/

theorem extends_ran (l : Link) (label : String) : l.Extends (l.record (.ran label)) where
  issued_le := Nat.le_refl _
  sound _ hs :=
    { hs with
      unissued := fun lane h => by rw [waves_record]; exact hs.unissued lane h
      live := fun lane => by rw [waves_record]; exact hs.live lane }
  wired _ _ _ _ _ hw := { hw with }

theorem line_ran (l : Link) (label : String) (lane : Lane) (i : Nat) :
    (l.record (.ran label)).line lane i = l.line lane i := by
  simp [line, Wave.follow, record, waves]

/-- The callbacks of a session run one after the other. -/
theorem extends_ran_all (l : Link) (labels : List String) :
    l.Extends (labels.foldl (fun l label => l.record (.ran label)) l) ∧
      ∀ lane i, (labels.foldl (fun l label => l.record (.ran label)) l).line lane i =
        l.line lane i := by
  induction labels generalizing l with
  | nil => exact ⟨.refl l, fun _ _ => rfl⟩
  | cons label labels ih =>
    obtain ⟨hx, hl⟩ := ih (l.record (.ran label))
    exact ⟨(extends_ran l label).trans hx, fun lane i => (hl lane i).trans (line_ran l label lane i)⟩

end Link

end QueryLanes
