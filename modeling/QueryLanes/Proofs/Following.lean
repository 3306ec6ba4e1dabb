import QueryLanes.Proofs.Acting
import QueryLanes.Proofs.Aside

/-!
# Steps of one query

The steps of a client that one query takes part in, each beside the same step of the query by
itself. `Client.Follows` says that the two agree: same reply, same state of the query, same line. It
also says that nobody else is concerned: by `Link.Carries` the lines of others stay as they are.
-/

namespace QueryLanes

variable {α : Type}

/-- The wait of a call on the query at a place. -/
def Pause.wait (h : Handle) : Pause α → Wait α
  | .start bound drain => .start h bound drain
  | .pull demand => .pull h demand

@[simp] theorem Pause.on_wait (h : Handle) (p : Pause α) : (p.wait h).on h = some p := by
  cases p <;> simp [wait, Wait.on]

theorem Pause.on_wait_of_ne {h h' : Handle} (hne : h ≠ h') (p : Pause α) :
    (p.wait h).on h' = none := by
  cases p <;> simp [wait, Wait.on, hne]

theorem Pause.wait_inj {h h' : Handle} {p p' : Pause α} (he : p.wait h = p'.wait h') : h = h' := by
  by_contra hne
  have hnone := Pause.on_wait_of_ne hne p
  rw [he, Pause.on_wait] at hnone
  cases hnone

theorem Pause.wait_ne_errand {h : Handle} {p : Pause α} {e : Errand} {i : Nat} :
    p.wait h ≠ .errand e i := by
  cases p <;> nofun

theorem Wait.on_eq_some {h : Handle} {w : Wait α} {p : Pause α} : w.on h = some p ↔ w = p.wait h := by
  constructor
  · intro hw
    cases w with
    | errand e i => cases hw
    | start h' bound drain =>
      simp only [on] at hw
      split at hw <;> cases hw
      rename_i hh
      rw [hh]
      rfl
    | pull h' demand =>
      simp only [on] at hw
      split at hw <;> cases hw
      rename_i hh
      rw [hh]
      rfl
  · rintro rfl
    exact Pause.on_wait h p

/-! ## The link -/

/-- What a step of one query leaves of the link: the query keeps its lane, and whoever waits on
another lane is not concerned. -/
structure Link.Carries (l : Link) (q : Query α) (l' : Link) (q' : Query α) : Prop where
  lane : q'.lane = q.lane
  owner : q'.owner = q.owner
  issued : l'.issued = l.issued
  isOpen : l'.isOpen = l.isOpen
  sound : l'.Sound
  wired : l'.Wired q'.lane q'.inbox q'.owner
  grows : l.router.inboxes.length ≤ l'.router.inboxes.length
  inbox : q'.inbox = q.inbox ∨ l.router.inboxes.length ≤ q'.inbox
  others : ∀ {lane i o}, l.Wired lane i o → lane ≠ q.lane → i ≠ q.inbox →
    l'.Wired lane i o ∧ l'.line lane i = l.line lane i

namespace Link

variable {l l₁ l' : Link} {q q₁ q' : Query α}

theorem Carries.self (hs : l.Sound) (hw : l.Wired q.lane q.inbox q.owner) (hl : q'.lane = q.lane)
    (ho : q'.owner = q.owner) (hi : q'.inbox = q.inbox) : l.Carries q l q' where
  lane := hl
  owner := ho
  issued := rfl
  isOpen := rfl
  sound := hs
  wired := by rwa [hl, ho, hi]
  grows := Nat.le_refl _
  inbox := .inl hi
  others hw _ _ := ⟨hw, rfl⟩

theorem Carries.trans (h : l.Carries q l₁ q₁) (h' : l₁.Carries q₁ l' q') : l.Carries q l' q' where
  lane := h'.lane.trans h.lane
  owner := h'.owner.trans h.owner
  issued := h'.issued.trans h.issued
  isOpen := h'.isOpen.trans h.isOpen
  sound := h'.sound
  wired := h'.wired
  grows := Nat.le_trans h.grows h'.grows
  inbox := by
    rcases h'.inbox with hi | hi
    · rw [hi]
      exact h.inbox
    · exact .inr (Nat.le_trans h.grows hi)
  others {lane i o} hw hl hi := by
    have hi₁ : i ≠ q₁.inbox := by
      have := hw.inbox_lt
      rcases h.inbox with he | he <;> omega
    obtain ⟨hw₁, h₁⟩ := h.others hw hl hi
    obtain ⟨hw', h₂⟩ := h'.others hw₁ (by rwa [h.lane]) hi₁
    exact ⟨hw', h₂.trans h₁⟩

theorem length_poll {i : Nat} {d : Delivery} {r : Router} (h : l.router.poll i = some (d, r)) :
    r.inboxes.length = l.router.inboxes.length := by
  obtain ⟨b, -, ⟨rest, -, rfl⟩ | ⟨-, -, -, rfl⟩⟩ := poll_cases h
  · exact List.length_set
  · rfl

/-- A poll of the query's inbox. -/
theorem Carries.poll (hs : l.Sound) (hw : l.Wired q.lane q.inbox q.owner) (hb : l.issued ≤ 2 ^ 64)
    {d : Delivery} {r : Router} (h : l.router.poll q.inbox = some (d, r)) :
    l.Carries q { l with router := r } q where
  lane := rfl
  owner := rfl
  issued := rfl
  isOpen := rfl
  sound := (extends_poll h).sound hb hs
  wired := (extends_poll h).wired hb hs hw
  grows := Nat.le_of_eq (length_poll h).symm
  inbox := .inl rfl
  others hw' _ hi := ⟨(extends_poll h).wired hb hs hw', line_poll_of_ne h (Ne.symm hi) _⟩

/-- The query gives up its inbox. -/
theorem Carries.dropInbox (hs : l.Sound) (hw : l.Wired q.lane q.inbox q.owner)
    (hb : l.issued ≤ 2 ^ 64) (hl : q'.lane = q.lane) (ho : q'.owner = q.owner)
    (hi : q'.inbox = q.inbox) : l.Carries q (l.dropInbox q.inbox) q' where
  lane := hl
  owner := ho
  issued := rfl
  isOpen := rfl
  sound := (extends_dropInbox l q.inbox).sound hb hs
  wired := by
    rw [hl, ho, hi]
    exact (extends_dropInbox l q.inbox).wired hb hs hw
  grows := by simp [Link.dropInbox]
  inbox := .inl hi
  others hw' _ hne :=
    ⟨(extends_dropInbox l q.inbox).wired hb hs hw', line_dropInbox_of_ne (Ne.symm hne) _⟩

/-- The query's next request goes out on its lane, and takes the place of its inbox. -/
theorem Carries.renew (hs : l.Sound) (hw : l.Wired q.lane q.inbox q.owner)
    (hb : l.issued ≤ 2 ^ 64) (ho : l.isOpen = true) (request : Request) :
    l.Carries q ((l.launch q.lane q.owner request).dropInbox q.inbox)
        { q with inbox := l.router.inboxes.length } ∧
      ((l.launch q.lane q.owner request).dropInbox q.inbox).line q.lane l.router.inboxes.length =
        (l.line q.lane q.inbox).renew request := by
  have hx := extends_dropInbox (l.launch q.lane q.owner request) q.inbox
  have hs' := hs.launch hw.issued ho q.owner request
  have hne : q.inbox ≠ l.router.inboxes.length := Nat.ne_of_lt hw.inbox_lt
  refine ⟨{
    lane := rfl
    owner := rfl
    issued := rfl
    isOpen := rfl
    sound := hx.sound hb hs'
    wired := hx.wired hb hs' (hs.wired_launch hw.issued q.owner request)
    grows := by simp [Link.dropInbox, Link.launch, record]
    inbox := .inr (Nat.le_refl _)
    others := fun hw' hl hi => ⟨hx.wired hb hs' (hw'.launch (Ne.symm hl) request), ?_⟩ }, ?_⟩
  · rw [line_dropInbox_of_ne (Ne.symm hi), hw'.line_launch (Ne.symm hl)]
  · rw [line_dropInbox_of_ne hne, line_launch_self]

end Link

/-! ## The query -/

namespace Query

theorem fuse_unnumbered (q : Query α) (demand : Demand α) :
    q.unnumbered.fuse demand = (q.fuse demand).unnumbered := by
  unfold fuse
  rw [show q.unnumbered.progress = q.progress from rfl]
  split <;> rfl

theorem consume_unnumbered (q : Query α) (r : Response) :
    q.unnumbered.consume r = ((q.consume r).1.unnumbered, (q.consume r).2) := by
  cases r with
  | item i => cases hm : i.meaning <;> simp only [consume, hm] <;> rfl
  | _ => rfl

end Query

/-! ## The client -/

namespace Client

variable {c : Client α} {h : Handle} {q q₁ : Query α}

/-- The outcome of a step that the query `q` at a place takes, and the same step of the query by
itself. -/
def Follows (c : Client α) (h : Handle) (q : Query α) (o : Outcome α)
    (s : Solo α × Option (Reply α)) : Prop :=
  ∃ l q' w, o = ({ c with
      link := l
      queries := c.queries.set h q'
      waiting := w.map (Pause.wait h) }, s.2) ∧
    s.1 = ⟨q'.unnumbered, l.line q'.lane q'.inbox, w⟩ ∧ c.link.Carries q l q'

theorem Follows.after {l : Link} {o : Outcome α} {s : Solo α × Option (Reply α)}
    (hl : c.link.Carries q l q₁) (hf : Follows { c with link := l } h q₁ o s) :
    c.Follows h q o s := by
  obtain ⟨l', q', w, ho, hs, hc⟩ := hf
  exact ⟨l', q', w, ho, hs, hl.trans hc⟩

/-- The query without its numbers, its line, and whether a call on it waits. -/
def view (c : Client α) (q : Query α) (w : Option (Pause α)) : Solo α :=
  ⟨q.unnumbered, c.link.line q.lane q.inbox, w⟩

/-- The query in the outcome, by itself. -/
theorem Follows.soloOf {o : Outcome α} {s : Solo α × Option (Reply α)} (hf : c.Follows h q o s)
    (hq : c.queries[h]? = some x) : ∃ q', o.1.queries[h]? = some q' ∧ q'.lane = q.lane ∧
      o.1.soloOf h q' = s.1 ∧ o.1.waiting = s.1.waiting.map (Pause.wait h) := by
  obtain ⟨l, q', w, ho, hs, hc⟩ := hf
  refine ⟨q', ?_, hc.lane, ?_, by rw [ho, hs]⟩
  · rw [ho]
    exact List.getElem?_set_self (List.getElem?_eq_some_iff.1 hq).1
  · rw [ho, hs, Client.soloOf]
    cases w <;> simp

theorem set_of_getElem? {β : Type} {xs : List β} {k : Nat} {x : β} (h : xs[k]? = some x) :
    xs.set k x = xs := by
  obtain ⟨hk, rfl⟩ := List.getElem?_eq_some_iff.1 h
  exact List.set_getElem_self hk

section

variable (hs : c.link.Sound) (hw : c.link.Wired q.lane q.inbox q.owner)

include hs hw

/-- The query changes nothing but what it knows itself. -/
theorem follows_self {x : Query α} (hl : x.lane = q.lane) (ho : x.owner = q.owner)
    (hi : x.inbox = q.inbox) (w : Option (Pause α)) (r : Option (Reply α)) :
    c.Follows h q ({ c with queries := c.queries.set h x, waiting := w.map (Pause.wait h) }, r)
      (c.view x w, r) :=
  ⟨c.link, x, w, rfl, rfl, .self hs hw hl ho hi⟩

variable {x : Query α} (hl : x.lane = q.lane) (ho : x.owner = q.owner) (hi : x.inbox = q.inbox)
  (w : Option (Pause α))

include hl ho hi

/-- The query does not change at all. -/
theorem follows_stay (hq : c.queries[h]? = some x) (w : Option (Pause α))
    (r : Option (Reply α)) :
    c.Follows h q ({ c with waiting := w.map (Pause.wait h) }, r) (c.view x w, r) := by
  have hf := follows_self (h := h) hs hw hl ho hi w r
  rwa [set_of_getElem? hq] at hf

theorem follows_failing (demand : Demand α) (e : Failure) :
    c.Follows h q (c.failing h x demand e) ((c.view x w).failing demand e) := by
  obtain ⟨hl', ho', hi'⟩ := x.fuse_numbers demand
  rw [failing_eq, Solo.failing_eq]
  have hv : Solo.replying { c.view x w with query := (c.view x w).query.fuse demand }
      (.failed e) = (c.view (x.fuse demand) none, some (.failed e)) := by
    simp only [view, Query.fuse_unnumbered, hl', hi']
    rfl
  rw [hv]
  exact follows_self hs hw (hl'.trans hl) (ho'.trans ho) (hi'.trans hi) none _

/-- The next batch is asked for on the same lane, and what the old inbox held is given up. -/
theorem follows_fetchMore (hb : c.link.issued ≤ 2 ^ 64) (token : UInt64) (demand : Demand α) :
    c.Follows h q (c.fetchMore h x token demand) ((c.view x w).fetchMore token demand) := by
  have hw' : c.link.Wired x.lane x.inbox x.owner := by rwa [hl, ho, hi]
  cases hc : c.link.isOpen with
  | false =>
    have h₁ : c.fetchMore h x token demand =
        c.failing h (x.fail .connectionClosed) demand .connectionClosed := by
      unfold Client.fetchMore
      rw [Link.dispatch_eq hs.closed, hc]
      rfl
    have h₂ : (c.view x w).fetchMore token demand =
        (c.view (x.fail .connectionClosed) w).failing demand .connectionClosed := by
      unfold Solo.fetchMore
      rw [show (c.view x w).line.isOpen = c.link.isOpen from rfl, hc]
      rfl
    rw [h₁, h₂]
    exact follows_failing hs hw (x := x.fail .connectionClosed) hl ho hi w demand .connectionClosed
  | true =>
    obtain ⟨hcar, hline⟩ := Link.Carries.renew hs hw' hb hc
      (.fetch x.transaction (.continuation token x.options))
    have h₂ : (c.view x w).fetchMore token demand =
        (⟨x.unnumbered, (c.link.line x.lane x.inbox).renew
          (.fetch x.transaction (.continuation token x.options)), some (.pull demand)⟩, none) := by
      unfold Solo.fetchMore
      rw [show (c.view x w).line.isOpen = c.link.isOpen from rfl, hc]
      rfl
    refine ⟨_, { x with inbox := c.link.router.inboxes.length }, some (.pull demand), ?_, ?_,
      (Link.Carries.self hs hw hl ho hi).trans hcar⟩
    · unfold Client.fetchMore
      rw [Link.dispatch_eq hs.closed, hc, h₂]
      rfl
    · rw [h₂]
      dsimp only
      rw [hline]
      rfl

theorem follows_pulled (hb : c.link.issued ≤ 2 ^ 64) (demand : Demand α) (d : Delivery) :
    c.Follows h q (c.pulled h x demand d) ((c.view x w).pulled demand d) := by
  cases d with
  | error e => exact follows_failing hs hw (x := x.fail e) hl ho hi w demand e
  | ok r =>
    obtain ⟨hl₁, ho₁, hi₁⟩ := x.consume_numbers r
    have hu := x.consume_unnumbered r
    have hline : (c.view x w).line = c.link.line (x.consume r).1.lane (x.consume r).1.inbox := by
      rw [hl₁, hi₁]
      rfl
    rw [hl] at hl₁
    rw [ho] at ho₁
    rw [hi] at hi₁
    unfold Client.pulled Solo.pulled
    dsimp only
    rw [show (c.view x w).query = x.unnumbered from rfl, hu, hline]
    rw [show (c.view x w).waiting = w from rfl]
    generalize x.consume r = p at *
    obtain ⟨q', p⟩ := p
    cases p with
    | answer a =>
      cases a with
      | ok a =>
        cases demand with
        | rest got =>
          exact follows_self hs hw hl₁ ho₁ hi₁ (some (.pull (.rest (got ++ [a])))) none
        | answer => exact follows_self hs hw hl₁ ho₁ hi₁ none _
        | item => exact follows_self hs hw hl₁ ho₁ hi₁ none _
      | error e => exact follows_failing hs hw hl₁ ho₁ hi₁ w demand e
    | more token => exact follows_fetchMore hs hw hl₁ ho₁ hi₁ w hb token demand
    | ended => exact follows_self hs hw hl₁ ho₁ hi₁ none _
    | failed e => exact follows_failing hs hw hl₁ ho₁ hi₁ w demand e

theorem follows_started (hq : c.queries[h]? = some x) (drain : Bool) (d : Delivery) :
    c.Follows h q (c.started h x drain d) ((c.view x w).started drain d) := by
  cases d with
  | ok r =>
    cases drain with
    | true => exact follows_self hs hw (x := x.hold r) hl ho hi (some (.pull (.rest []))) none
    | false => exact follows_self hs hw (x := x.hold r) hl ho hi none _
  | error e =>
    cases e with
    | timeout =>
      exact follows_stay hs hw hl ho hi hq none _
    | _ => exact follows_self hs hw (x := x.fail _) hl ho hi none _

theorem follows_beginPull (hq : c.queries[h]? = some x) (demand : Demand α) :
    c.Follows h q (c.beginPull h x demand) ((c.view x w).beginPull demand) := by
  have hp : (c.view x w).query.progress = x.progress := rfl
  unfold Client.beginPull Solo.beginPull
  rw [hp]
  cases x.progress with
  | exhausted => exact follows_stay hs hw hl ho hi hq none _
  | failed e => exact follows_failing hs hw hl ho hi w demand e
  | _ => exact follows_stay hs hw hl ho hi hq (some (.pull demand)) none

theorem follows_beginStart (hq : c.queries[h]? = some x) (bound : Option Nat) (drain : Bool) :
    c.Follows h q (c.beginStart h x bound drain) ((c.view x w).beginStart bound drain) := by
  have hp : (c.view x w).query.progress = x.progress := rfl
  unfold Client.beginStart Solo.beginStart
  rw [hp]
  cases x.progress with
  | pending => exact follows_stay hs hw hl ho hi hq (some (.start bound drain)) none
  | failed e => exact follows_stay hs hw hl ho hi hq none _
  | _ =>
    cases drain with
    | true => exact follows_beginPull hs hw hl ho hi w hq (.rest [])
    | false => exact follows_stay hs hw hl ho hi hq none _

end

/-! ### Waiting calls -/

section

variable (hs : c.link.Sound) (hw : c.link.Wired q.lane q.inbox q.owner)
  (hq : c.queries[h]? = some q) {p : Pause α} (hp : c.waiting = some (p.wait h))

include hs hw hq hp

/-- Nothing was found, and the call goes on waiting. -/
theorem follows_idle : c.Follows h q (c, none) (c.view q (some p), none) := by
  have hf := follows_stay hs hw rfl rfl rfl hq (some p) none
  rwa [Option.map_some, ← hp] at hf

theorem follows_resume (hb : c.link.issued ≤ 2 ^ 64) :
    c.Follows h q c.resume (c.view q (some p)).take := by
  have hidle := follows_idle hs hw hq hp
  have hline := hw.line_poll hs
  cases p with
  | start bound drain =>
    rw [resume_start hp hq, Solo.take_start (s := c.view q (some (.start bound drain))) rfl,
      show (c.view q (some (.start bound drain))).line = c.link.line q.lane q.inbox from rfl, hline]
    cases hpoll : c.link.router.poll q.inbox with
    | none => exact hidle
    | some dr =>
      obtain ⟨d, r⟩ := dr
      have hcar := Link.Carries.poll hs hw hb hpoll
      exact .after hcar (follows_started (c := { c with link := { c.link with router := r } })
        hcar.sound hcar.wired rfl rfl rfl (some (.start bound drain)) hq drain d)
  | pull demand =>
    rw [resume_pull hp hq, Solo.take_pull (s := c.view q (some (.pull demand))) rfl]
    unfold Query.poll Solo.poll
    rw [show (c.view q (some (.pull demand))).query.stash = q.stash from rfl]
    cases hst : q.stash with
    | some response =>
      exact follows_pulled hs hw (x := { q with stash := none }) rfl rfl rfl (some (.pull demand))
        hb demand (.ok response)
    | none =>
      dsimp only
      rw [show (c.view q (some (.pull demand))).line = c.link.line q.lane q.inbox from rfl, hline]
      cases hpoll : c.link.router.poll q.inbox with
      | none => exact hidle
      | some dr =>
        obtain ⟨d, r⟩ := dr
        have hcar := Link.Carries.poll hs hw hb hpoll
        exact .after hcar (follows_pulled (c := { c with link := { c.link with router := r } })
          hcar.sound hcar.wired rfl rfl rfl (some (.pull demand)) hb demand d)

theorem follows_giveUp : c.Follows h q c.giveUp (c.view q (some p)).giveUp := by
  cases p with
  | start bound drain =>
    rw [giveUp_of_start hp]
    exact follows_stay hs hw rfl rfl rfl hq none _
  | pull demand =>
    rw [giveUp_of_pull hp]
    exact follows_idle hs hw hq hp

end

/-! ### Calls -/

theorem query?_eq (hq : c.queries[h]? = some q) : c.query? h = if q.held then some q else none := by
  rw [query?, hq]
  cases hh : q.held <;> simp [Option.filter, hh]

theorem release_replying (c : Client α) (r : Reply α) :
    c.release.replying r = ((c.replying r).1.release, some r) := by
  unfold release
  rw [show (c.replying r).1.isHeld = c.isHeld from rfl]
  split <;> rfl

/-- A call on a query is a step of that query. With it the link may lose its last handle. -/
theorem follows_call (hs : c.link.Sound) (hb : c.link.issued ≤ 2 ^ 64)
    (hw : c.link.Wired q.lane q.inbox q.owner) (hq : c.queries[h]? = some q)
    (hidle : c.waiting = none) {k : Call α} {a : Ask} (hk : k.ask? = some (h, a)) :
    ∃ c₁, c.Follows h q (c₁, (c.call k).2) ((c.view q none).ask a) ∧
      ((c.call k).1 = c₁ ∨ (c.call k).1 = c₁.release) := by
  have hheld : (c.view q none).query.held = q.held := rfl
  have hgone : c.Follows h q (c.replying .noSuchHandle) (c.view q none, some .noSuchHandle) :=
    follows_stay hs hw rfl rfl rfl hq none (some .noSuchHandle)
  unfold call Solo.ask
  rw [if_neg (by simp [hidle]), hheld]
  cases k with
  | start h' bound =>
    cases hk
    dsimp only
    rw [query?_eq hq]
    cases q.held with
    | false => exact ⟨_, hgone, .inl rfl⟩
    | true => exact ⟨_, follows_beginStart hs hw rfl rfl rfl none hq bound false, .inl rfl⟩
  | collect h' bound =>
    cases hk
    dsimp only
    rw [query?_eq hq]
    cases q.held with
    | false => exact ⟨_, hgone, .inl rfl⟩
    | true => exact ⟨_, follows_beginStart hs hw rfl rfl rfl none hq bound true, .inl rfl⟩
  | nextAnswer h' =>
    cases hk
    dsimp only
    rw [query?_eq hq]
    cases q.held with
    | false => exact ⟨_, hgone, .inl rfl⟩
    | true => exact ⟨_, follows_beginPull hs hw rfl rfl rfl none hq .answer, .inl rfl⟩
  | next h' =>
    cases hk
    dsimp only
    rw [query?_eq hq, show (c.view q none).query.fused = q.fused from rfl]
    cases q.held with
    | false => exact ⟨_, hgone, .inl rfl⟩
    | true =>
      rw [if_pos rfl]
      dsimp only
      cases q.fused with
      | true => exact ⟨_, follows_stay hs hw rfl rfl rfl hq none _, .inl rfl⟩
      | false => exact ⟨_, follows_beginPull hs hw rfl rfl rfl none hq .item, .inl rfl⟩
  | dropQuery h' =>
    cases hk
    dsimp only
    rw [query?_eq hq]
    cases q.held with
    | false => exact ⟨_, hgone, .inl rfl⟩
    | true =>
      refine ⟨({ c.setQuery h { q with held := false } with
        link := c.link.dropInbox q.inbox }.replying .done).1, ⟨c.link.dropInbox q.inbox,
        { q with held := false }, none, rfl, ?_, .dropInbox hs hw hb rfl rfl rfl⟩, .inr ?_⟩
      · show Solo.mk _ _ _ = Solo.mk _ _ _
        rw [Link.line_dropInbox_self]
        rfl
      · simp only [if_true, dropQuery, release_replying]
  | _ => cases hk

end Client

end QueryLanes
