import QueryLanes.Proofs.Drawing
import QueryLanes.Proofs.Restoring
import QueryLanes.Proofs.Slots

/-!
# Announced deliveries

A delivery has two halves: the flag of the inbox is raised, and then the delivery is put there. The
router is locked meanwhile, but neither a look at the flag nor one at the queue takes the lock, so a
caller may come in between. A `Moment` is a client as its caller may find it, also there.

A moment is like the client that whole moves lead to, but for one flag (`Moment.Shows`), and it goes on
like it (`Moment.Shows.run`). So a query counts as started a moment before its first delivery is there,
and a wait whose time is over in that moment still ends with a timeout. That no other wait for a start
does, is `Moment.started_iff_announced`.
-/

namespace QueryLanes

variable {α : Type}

/-! ## Routers -/

namespace Router

variable {r : Router} {i j : Nat}

/-- The first half of a delivery to an inbox. -/
def announce (r : Router) (i : Nat) : Router :=
  { r with inboxes := r.inboxes.modify i (Option.map Inbox.announce) }

/-- The second half. -/
def put (r : Router) (i : Nat) (d : Delivery) : Router :=
  { r with inboxes := r.inboxes.modify i (Option.map (·.put d)) }

/-- A delivery to one inbox is made of its halves. -/
theorem deliver_eq_put (r : Router) (i : Nat) (d : Delivery) :
    r.deliver (· == i) d = (r.announce i).put i d := by
  unfold deliver put announce
  congr 1
  rw [List.modify_modify_eq]
  refine List.ext_getElem? fun k => ?_
  rw [List.getElem?_mapIdx, List.getElem?_modify]
  by_cases hk : i = k
  · subst hk
    cases r.inboxes[i]? with
    | none => rfl
    | some b => cases b <;> simp [Inbox.push]
  · simp [hk, Ne.symm hk]

theorem inbox?_announce (r : Router) (i j : Nat) :
    (r.announce i).inbox? j = if i = j then (r.inbox? j).map Inbox.announce else r.inbox? j := by
  simp only [inbox?, announce, List.getElem?_modify]
  split <;> cases r.inboxes[j]? <;> rfl

/-- A delivery that was announced is the same delivery. -/
theorem deliver_announce {reached : Nat → Bool} (h : reached i = true) (d : Delivery) :
    (r.announce i).deliver reached d = r.deliver reached d := by
  unfold deliver announce
  congr 1
  refine List.ext_getElem? fun k => ?_
  rw [List.getElem?_mapIdx, List.getElem?_mapIdx, List.getElem?_modify]
  by_cases hk : i = k
  · subst hk
    cases r.inboxes[i]? with
    | none => rfl
    | some b => cases b <;> simp [h, Inbox.push, Inbox.announce]
  · simp [hk]

theorem route_announce {f : ServerFrame} {s : Slot} (hs : r.slot? f.lane = some s)
    (ha : s.abandoned = false) (hb : (r.inbox? s.inbox).isSome = true) :
    (r.announce s.inbox).route f = r.route f := by
  have hslot : (r.announce s.inbox).slot? f.lane = some s := hs
  have hbox : ((r.announce s.inbox).inbox? s.inbox).isSome = true := by
    rw [inbox?_announce, if_pos rfl, Option.isSome_map, hb]
  have hfed : (r.announce s.inbox).deliver (· == s.inbox) (.ok f.body) =
      r.deliver (· == s.inbox) (.ok f.body) :=
    deliver_announce (i := s.inbox) (by exact beq_self_eq_true s.inbox) _
  simp only [route, hs, hslot, ha, hb, hbox, hfed, if_true, Bool.false_eq_true, if_false]

theorem failWhere_announce {doomed : Owner → Bool}
    (h : (r.slots.filter (doomed ·.owner)).any (·.inbox == i) = true) (e : Failure) :
    (r.announce i).failWhere doomed e = r.failWhere doomed e := by
  let reached (j : Nat) : Bool := (r.slots.filter (doomed ·.owner)).any (·.inbox == j)
  have hfed : (r.announce i).deliver reached (.error e) = r.deliver reached (.error e) :=
    deliver_announce h _
  rw [failWhere_eq, failWhere_eq, show (r.announce i).slots = r.slots from rfl, hfed]

theorem close_announce (h : r.feeds i = true) (e : Failure) :
    (r.announce i).close e = r.close e := by
  refine failWhere_announce (r := { r with closed := true }) ?_ e
  rw [List.filter_true]
  exact h

theorem poll_announce (r : Router) (i j : Nat) :
    (r.announce i).poll j = (r.poll j).map fun x => (x.1, x.2.announce i) := by
  by_cases hij : i = j
  · subst hij
    have hbox := inbox?_announce r i i
    rw [if_pos rfl] at hbox
    cases hb : r.inbox? i with
    | none =>
      rw [hb, Option.map_none] at hbox
      simp only [poll, hb, hbox, Option.map_none]
    | some b =>
      have hlt : i < r.inboxes.length :=
        (List.getElem?_eq_some_iff.1 (Option.join_eq_some_iff.1 hb)).1
      rw [hb, Option.map_some] at hbox
      rw [poll_eq hb, poll_eq hbox]
      cases hq : b.queue with
      | nil =>
        simp only [Inbox.announce, hq]
        rw [show (r.announce i).feeds i = r.feeds i from rfl]
        split <;> rfl
      | cons d rest =>
        simp only [Inbox.announce, hq, announce, Option.map_some]
        rw [set_modify, modify_set hlt]
        rfl
  · exact poll_adjust_of_ne (Ne.symm hij)

theorem isStarted_announce (hb : (r.inbox? i).isSome = true) (q : Query α) :
    q.isStarted (r.announce i) = true ↔ q.isStarted r = true ∨ i = q.inbox := by
  have hflag := inbox?_announce r i q.inbox
  unfold Query.isStarted hasArrived
  rw [hflag]
  by_cases hi : i = q.inbox
  · subst hi
    obtain ⟨b, hb⟩ := Option.isSome_iff_exists.1 hb
    simp [hb, Inbox.announce]
  · simp [hi]

end Router

/-! ## Queries -/

namespace Solo

variable {s : Solo α} {hand : List Delivery} {done : List Wave} {w : Wave}
  {read rest : List Payload}

theorem getElem?_answers (h : StandsAt s hand done w read rest) :
    (s.line.waves.flatMap (·.answers))[s.query.handed.length]? = rest.head? := by
  have hall : s.line.waves.flatMap (·.answers) = s.query.handed ++ rest := by
    simp [h.waves, h.answers, h.handed]
  rw [hall, List.getElem?_append_right (Nat.le_refl _), Nat.sub_self, List.head?_eq_getElem?]

/-- A call that collects the rest is told of a timeout only by the reader of the next answer. -/
theorem rest_times_out_iff (h : Stands s) {got : List α}
    (hw : s.waiting = some (.pull (.rest got))) :
    s.take.2 = some (.failed .timeout) ↔
      ∃ p, (s.line.waves.flatMap (·.answers))[s.query.handed.length]? = some p ∧
        s.query.reader s.query.handed p = .error .timeout := by
  obtain ⟨done, w, read, rest, h⟩ := h
  rw [getElem?_answers h]
  have hsees := sees_take h
  have htimely := h.timely
  generalize s.take = o at hsees ⊢
  cases hsees with
  | idle hw' | begun hw' | unbegun hw' =>
    rw [hw] at hw'
    cases hw'
  | nothing _ hr | token _ hr => simp [hr]
  | answer hw' hr =>
    rw [hw] at hw'
    cases hw'
    rw [hr]
    cases hread : s.query.reader s.query.handed _ <;> simp [handOver, hread]
  | ended hw' hr =>
    rw [hw] at hw'
    cases hw'
    simp [hr, Client.atEnd]
  | @failed _ d e _ _ hr he _ hd =>
    have hne : e ≠ .timeout := by
      rintro rfl
      refine verdict_ne_timeout ?_ hd
      rintro rfl
      exact htimely he
    simp [hr, hne]

end Solo

/-! ## Clients -/

/-- The inbox that a response on the lane would be delivered to. -/
def Link.awaits? (l : Link) (lane : Lane) : Option Nat :=
  if !l.isOpen then none
  else match l.router.slot? lane with
    | none => none
    | some s =>
      if !s.abandoned && (l.router.inbox? s.inbox).isSome then some s.inbox else none

theorem Link.awaits?_eq_some {l : Link} {lane : Lane} {i : Nat} : l.awaits? lane = some i ↔
    l.isOpen = true ∧ ∃ s, l.router.slot? lane = some s ∧ s.abandoned = false ∧
      (l.router.inbox? s.inbox).isSome = true ∧ s.inbox = i := by
  unfold awaits?
  cases l.isOpen <;> cases l.router.slot? lane <;> simp [and_assoc]

/-- The flag of an inbox is raised. -/
def Mirror.announced (i : Nat) : Mirror α where
  toLinkMirror := .adjusted i Inbox.announce (fun _ => True) (fun _ _ => rfl)
    fun r j _ => r.poll_announce i j
  toQueryMirror := .plain

namespace Client

variable {c : Client α} {h : Handle} {q q' : Query α} {m : Move α} {i : Nat}

/-- The flag of an inbox is raised. -/
def announce (c : Client α) (i : Nat) : Client α :=
  { c with link := { c.link with router := c.link.router.announce i } }

/-- Whether the move is what the delivery to the inbox comes from. -/
def lands (c : Client α) (i : Nat) : Move α → Bool
  | .arrive f => c.link.awaits? f.lane == some i
  | .lose => true
  | _ => false

/-- Whether the move has to do with no more than the start of a query, so that it takes no lock. -/
def lockless (c : Client α) : Move α → Bool
  | .call (.start _ _) | .call (.collect _ _) => true
  | .resume | .expire => match c.waiting with
    | some (.start _ _ _) => true
    | _ => false
  | _ => false

theorem step_announce_of_lands {lane : Lane} (ha : c.link.awaits? lane = some i)
    (hm : c.lands i m = true) : (c.announce i).step m = c.step m := by
  obtain ⟨ho, t, ht, -, -, hti⟩ := Link.awaits?_eq_some.1 ha
  cases m with
  | arrive f =>
    obtain ⟨-, s, hs, hab, hbox, rfl⟩ := Link.awaits?_eq_some.1 (by simpa [lands] using hm)
    have hroute := Router.route_announce hs hab hbox
    simp only [step, announce, Link.receive, ho, if_true, hroute]
  | lose =>
    have hfeeds : c.link.router.feeds i = true :=
      Router.feeds_iff.2 ⟨t, (Router.slot?_eq_some ht).1, hti⟩
    have hclose := Router.close_announce hfeeds .connectionClosed
    simp only [step, announce, Link.close, ho, if_true, hclose]
  | call | resume | expire => cases hm

theorem waiting_of_lockless (hm : c.lockless m = true) (hlook : m = .resume ∨ m = .expire) :
    ∃ h bound drain, c.waiting = some (.start h bound drain) := by
  have hwait : (match c.waiting with
      | some (.start _ _ _) => true
      | _ => false) = true := by
    rcases hlook with rfl | rfl <;> exact hm
  split at hwait
  · exact ⟨_, _, _, ‹_›⟩
  · cases hwait

/-- Nothing that a client does heeds the flag. -/
theorem step_announce (hi : (c.link.router.inbox? i).isSome = true) (m : Move α) :
    (c.announce i).step m = ((c.step m).1.announce i, (c.step m).2) := by
  obtain ⟨b, hb⟩ := Option.isSome_iff_exists.1 hi
  have hlt : i < c.link.router.inboxes.length :=
    (List.getElem?_eq_some_iff.1 (Option.join_eq_some_iff.1 hb)).1
  have hmirrors : c.Mirrors (.announced i) (c.announce i) := ⟨_, _, rfl, ⟨hlt, rfl⟩, rfl⟩
  obtain ⟨hreply, -, -, hnext, ⟨-, rfl⟩, rfl⟩ := hmirrors.step (m := m) (fun _ _ _ _ _ _ => trivial)
    fun _ w _ => by cases w <;> first | trivial | exact ⟨trivial, fun _ _ => trivial⟩
  exact Prod.ext hnext hreply

/-! ### What a look leaves alone -/

/-- Nothing happened to the slots, no inbox was dropped, and the queries read from those they had. -/
structure Glances (c c' : Client α) : Prop where
  awaits : ∀ lane, c'.link.awaits? lane = c.link.awaits? lane
  inbox : ∀ (h : Handle) q, c.queries[h]? = some q →
    ∃ q', c'.queries[h]? = some q' ∧ q'.inbox = q.inbox

theorem glances_of_same {c' : Client α} (hl : c'.link = c.link) (hq : c'.queries = c.queries) :
    c.Glances c' :=
  ⟨fun lane => by rw [hl], fun h q h' => ⟨q, by rw [hq, h'], rfl⟩⟩

theorem glances_set {c' : Client α} (hawaits : ∀ lane, c'.link.awaits? lane = c.link.awaits? lane)
    (hq : c.queries[h]? = some q) (q' : Query α) (hi : q'.inbox = q.inbox)
    (hc : c'.queries = c.queries.set h q') : c.Glances c' := by
  refine ⟨hawaits, fun j x hx => ?_⟩
  rw [hc, List.getElem?_set]
  split
  · rename_i hj
    subst hj
    rw [hq] at hx
    cases hx
    exact ⟨q', if_pos (List.getElem?_eq_some_iff.1 hq).1, hi⟩
  · exact ⟨x, hx, rfl⟩

theorem awaits?_poll {l : Link} {d : Delivery} {r : Router} (hp : l.router.poll i = some (d, r))
    (lane : Lane) : Link.awaits? { l with router := r } lane = l.awaits? lane := by
  obtain ⟨b, hb, ⟨rest, -, rfl⟩ | ⟨-, -, -, rfl⟩⟩ := Link.poll_cases hp
  · have hsome (j : Nat) : (Router.inbox? { l.router with
        inboxes := l.router.inboxes.set i (some { b with queue := rest }) } j).isSome =
        (l.router.inbox? j).isSome := by
      rw [Router.inbox?_set]
      split
      · rename_i hij
        rw [← hij.1, hb]
        rfl
      · rfl
    unfold Link.awaits?
    simp only [hsome]
    rfl
  · rfl

theorem glances_beginPull (hq : c.queries[h]? = some q) (demand : Demand α) :
    c.Glances (c.beginPull h q demand).1 := by
  have hb := c.beginsPull h q demand
  generalize c.beginPull h q demand = o at hb ⊢
  cases hb with
  | exhausted | waits => exact glances_of_same rfl rfl
  | failed => exact glances_set (fun _ => rfl) hq (q.fuse demand) (q.fuse_numbers demand).2.2 rfl

theorem glances_beginStart (hq : c.queries[h]? = some q) (bound : Option Nat) (drain : Bool) :
    c.Glances (c.beginStart h q bound drain).1 := by
  have hb := c.beginsStart h q bound drain
  generalize c.beginStart h q bound drain = o at hb ⊢
  cases hb with
  | waits | failed | done => exact glances_of_same rfl rfl
  | pulls => exact glances_beginPull hq _

theorem glances_finds {o : Outcome α} (ho : c.Finds o) {bound : Option Nat} {drain : Bool}
    (hw : c.waiting = some (.start h bound drain)) : c.Glances o.1 := by
  cases ho with
  | nothing | late => exact glances_of_same rfl rfl
  | @start q d r h' drain' hp bound' hw' hq =>
    have hawaits := awaits?_poll hp
    have hs := hearsStart { c with link := { c.link with router := r } } h' q drain' d
    generalize started { c with link := { c.link with router := r } } h' q drain' d = o at hs ⊢
    cases hs with
    | @held response | @goesOn response => exact glances_set hawaits hq (q.hold response) rfl rfl
    | timedOut => exact ⟨hawaits, fun j x hx => ⟨x, hx, rfl⟩⟩
    | @failed e => exact glances_set hawaits hq (q.fail e) rfl rfl
  | errand e hp hw' | pull h' demand hp hw' | gaveUp e i hw' =>
    rw [hw] at hw'
    cases hw'

theorem glances_step (hm : c.lockless m = true) : c.Glances (c.step m).1 := by
  cases m with
  | call k =>
    have hb := c.begins_call k
    show c.Glances (c.call k).1
    generalize c.call k = o at hb ⊢
    cases hb with
    | busy | told | clone => exact glances_of_same rfl rfl
    | start h q bound drain hq =>
      exact glances_beginStart (Option.filter_eq_some_iff.1 hq).1 bound drain
    | pull h q demand hq => exact glances_beginPull (Option.filter_eq_some_iff.1 hq).1 demand
    | run he =>
      cases k with
      | start | collect => cases he
      | _ => cases hm
    | _ => cases hm
  | arrive | lose => cases hm
  | resume =>
    obtain ⟨h, bound, drain, hw⟩ := waiting_of_lockless hm (.inl rfl)
    exact glances_finds c.finds_resume hw
  | expire =>
    obtain ⟨h, bound, drain, hw⟩ := waiting_of_lockless hm (.inr rfl)
    exact glances_finds c.finds_expire hw

/-! ### Landing, and collecting -/

/-- A query whose inbox was waiting for what lands has started. -/
theorem Reachable.begun_of_lands (hc : c.Reachable) (hb : (c.step m).1.link.issued ≤ 2 ^ 64)
    (hq : c.queries[h]? = some q) {lane : Lane} (ha : c.link.awaits? lane = some q.inbox)
    (hm : c.lands q.inbox m = true) : Wave.Begun ((c.step m).1.link.waves q.lane) := by
  obtain ⟨ho, t, ht, -, hbox, hti⟩ := Link.awaits?_eq_some.1 ha
  rw [hti] at hbox
  obtain ⟨b, hbox⟩ := Option.isSome_iff_exists.1 hbox
  have hheld : q.held = true := by
    obtain ⟨done, w, read, rest, hst⟩ := hc.stands (Nat.le_trans (issued_step c m) hb) hq
    have hinbox := hst.inbox
    rw [show (c.soloOf h q).line.inbox = some b from hbox] at hinbox
    exact hinbox.symm
  have hkept : (c.step m).1.queries = c.queries := by
    cases m with
    | arrive | lose => rfl
    | call | resume | expire => cases hm
  have hq' : (c.step m).1.query? h = some q := by
    rw [query?, hkept]
    exact Option.filter_eq_some_iff.2 ⟨hq, hheld⟩
  refine ((hc.step m).isStarted_iff hb hq').1 ?_
  have hpushed : ∃ d, (c.step m).1.link.router.inbox? q.inbox = some (b.push d) := by
    cases m with
    | arrive f =>
      obtain ⟨-, s, hs, hab, -, hsi⟩ := Link.awaits?_eq_some.1 (by simpa [lands] using hm)
      have hroute := Router.inbox?_route hs (fun h => absurd h (by simp [hab])) q.inbox
      rw [if_pos hsi.symm, hbox] at hroute
      refine ⟨.ok f.body, ?_⟩
      simp only [Client.step, Link.receive, ho, if_true]
      exact hroute
    | lose =>
      have hfail : (c.link.fail (fun _ => true) .connectionClosed).router.inbox? q.inbox = _ :=
        Link.inbox?_fail q.inbox
      rw [if_pos ⟨t, (Router.slot?_eq_some ht).1, rfl, hti⟩, hbox] at hfail
      refine ⟨.error .connectionClosed, ?_⟩
      simp only [Client.step, Link.close_eq, ho, if_true]
      exact hfail
    | call | resume | expire => cases hm
  obtain ⟨d, hd⟩ := hpushed
  simp [Query.isStarted, Router.hasArrived, hd]

/-- A call that collects the rest ends with a timeout exactly if it looks at an answer of which the
reader says so. -/
theorem Reachable.rest_times_out_iff (hc : c.Reachable) (hb : c.link.issued ≤ 2 ^ 64)
    (hq : c.queries[h]? = some q) {got : List α} (hw : c.waiting = some (.pull h (.rest got)))
    (m : Move α) :
    (c.step m).2 = some (.failed .timeout) ↔ (m = .resume ∨ m = .expire) ∧
      ∃ p, ((c.link.waves q.lane).flatMap (·.answers))[q.handed.length]? = some p ∧
        q.reader q.handed p = .error .timeout := by
  have hwait : (c.soloOf h q).waiting = some (.pull (.rest got)) := by
    rw [soloOf, hw]
    simp [Wait.on]
  have hwaits : c.waitsOn h = true := congrArg Option.isSome hwait
  have hrest := Solo.rest_times_out_iff (hc.stands hb hq) hwait
  by_cases hm : m = .resume ∨ m = .expire
  · have hlook : (c.step m).2 = (c.soloOf h q).take.2 := by
      cases hr : c.isReady with
      | true =>
        refine (hc.sound hb).reply_look ?_ hq hwaits hr hm
        have hissued : (c.step m).1.link.issued = c.link.issued := by
          rcases hm with rfl | rfl
          · exact issued_resume c
          · exact issued_expire c
        rw [hissued]
        exact hb
      | false =>
        rw [(hc.sound hb).take_idle hq hwaits hr]
        rcases hm with rfl | rfl
        · exact congrArg Prod.snd (resume_of_not_isReady hr)
        · simp [Client.step, expire_of_not_isReady hr, bound?, hw]
    rw [hlook, hrest]
    exact (and_iff_right hm).symm
  · have hreply : (c.step m).2 = none := by
      cases m with
      | call k => exact congrArg Prod.snd (call_of_waiting hw k)
      | arrive | lose => rfl
      | resume => exact absurd (.inl rfl) hm
      | expire => exact absurd (.inr rfl) hm
    simp [hreply, hm]

end Client

/-! ## Moments -/

/-- A client, and the inbox to which a delivery was announced that is still to be put there. -/
structure Moment (α : Type) where
  client : Client α
  due : Option Nat := none

/-- What happens between two moments. -/
inductive Beat (α : Type) where
  | move (m : Move α)
  /-- The first half of a delivery to the inbox that the lane feeds. -/
  | announce (lane : Lane)

namespace Moment

/-- Between the halves of a delivery a move that needs the lock is not made, unless it is the one
that the delivery comes from. -/
def beat (s : Moment α) : Beat α → Moment α × Option (Reply α)
  | .announce lane =>
    match s.due, s.client.link.awaits? lane with
    | none, some i => (⟨s.client.announce i, some i⟩, none)
    | _, _ => (s, none)
  | .move m =>
    let next := s.client.step m
    match s.due with
    | none => (⟨next.1, none⟩, next.2)
    | some i =>
      if s.client.lands i m then (⟨next.1, none⟩, next.2)
      else if s.client.lockless m then (⟨next.1, some i⟩, next.2)
      else (s, none)

/-- Beats one after the other, and the replies they give. -/
def run (s : Moment α) : List (Beat α) → Moment α × List (Reply α)
  | [] => (s, [])
  | b :: r =>
    let (s, reply) := s.beat b
    let (s, replies) := s.run r
    (s, reply.toList ++ replies)

theorem run_cons (s : Moment α) (b : Beat α) (bs : List (Beat α)) :
    s.run (b :: bs) = (((s.beat b).1.run bs).1, (s.beat b).2.toList ++ ((s.beat b).1.run bs).2) := rfl

theorem run_append (s : Moment α) (bs bs' : List (Beat α)) :
    s.run (bs ++ bs') = (((s.run bs).1.run bs').1, (s.run bs).2 ++ ((s.run bs).1.run bs').2) := by
  induction bs generalizing s with
  | nil => rfl
  | cons b bs ih => rw [List.cons_append, run_cons, run_cons, ih, List.append_assoc]

/-- Some beats lead there from a new client. -/
def Reachable (s : Moment α) : Prop :=
  ∃ timeout bs, s = (run ⟨Client.new timeout, none⟩ bs).1

variable {s : Moment α} {c : Client α} {k : Handle} {q q' : Query α} {i : Nat}

/-- The moment shows the client, but for one flag. -/
inductive Shows (c : Client α) : Moment α → Prop
  | plain : Shows c ⟨c, none⟩
  | announced {lane : Lane} {i : Nat} (h : c.link.awaits? lane = some i) :
    Shows c ⟨c.announce i, some i⟩

theorem awaits?_announce (c : Client α) (i : Nat) (lane : Lane) :
    (c.announce i).link.awaits? lane = c.link.awaits? lane := by
  have hsome (j : Nat) : ((c.link.router.announce i).inbox? j).isSome =
      (c.link.router.inbox? j).isSome := by
    rw [Router.inbox?_announce]
    split
    · rw [Option.isSome_map]
    · rfl
  unfold Link.awaits? Client.announce
  simp only [hsome]
  rfl

theorem lands_announce (c : Client α) (i : Nat) (m : Move α) :
    (c.announce i).lands i m = c.lands i m := by
  cases m with
  | arrive f =>
    unfold Client.lands
    dsimp only
    rw [awaits?_announce]
  | _ => rfl

/-- A move that is made shows as the move of the client that the moment shows; every other beat
leaves that client as it is. -/
inductive Passes (c : Client α) (s : Moment α) : Beat α → Moment α × Option (Reply α) → Prop
  | made {m : Move α} {s' : Moment α} (h : Shows (c.step m).1 s')
      (hdue : s.due = none ∧ s'.due = none ∨
        (∃ i, s.due = some i ∧ c.lands i m = true ∧ s'.due = none) ∨
        c.lockless m = true ∧ s'.due = s.due) : Passes c s (.move m) (s', (c.step m).2)
  | announced {lane : Lane} {s' : Moment α} (h : Shows c s') (hdue : s.due = none) :
    Passes c s (.announce lane) (s', none)
  | waits {b : Beat α} (hdue : s.due.isSome = true ∨ ∃ lane, b = .announce lane)
      (hm : ∀ m, b = .move m → c.lockless m = false) : Passes c s b (s, none)

theorem Shows.passes (h : Shows c s) (b : Beat α) : Passes c s b (s.beat b) := by
  cases h with
  | plain =>
    cases b with
    | move m => exact .made .plain (.inl ⟨rfl, rfl⟩)
    | announce lane =>
      cases ha : c.link.awaits? lane with
      | none =>
        have hbeat : beat ⟨c, none⟩ (.announce lane) = (⟨c, none⟩, none) := by simp [beat, ha]
        rw [hbeat]
        exact .waits (.inr ⟨lane, rfl⟩) nofun
      | some i =>
        have hbeat : beat ⟨c, none⟩ (.announce lane) = (⟨c.announce i, some i⟩, none) := by
          simp [beat, ha]
        rw [hbeat]
        exact .announced (.announced ha) rfl
  | @announced lane i ha =>
    cases b with
    | announce lane' => exact .waits (.inl rfl) nofun
    | move m =>
      cases hlands : c.lands i m with
      | true =>
        have hbeat : beat ⟨c.announce i, some i⟩ (.move m) = (⟨(c.step m).1, none⟩, (c.step m).2) := by
          simp [beat, lands_announce, hlands, Client.step_announce_of_lands ha hlands]
        rw [hbeat]
        exact .made .plain (.inr (.inl ⟨i, rfl, hlands, rfl⟩))
      | false =>
        have hlockless' : (c.announce i).lockless m = c.lockless m := by cases m <;> rfl
        cases hlockless : c.lockless m with
        | true =>
          obtain ⟨-, t, -, -, hbox, rfl⟩ := Link.awaits?_eq_some.1 ha
          have hbeat : beat ⟨c.announce t.inbox, some t.inbox⟩ (.move m) =
              (⟨(c.step m).1.announce t.inbox, some t.inbox⟩, (c.step m).2) := by
            simp [beat, lands_announce, hlands, hlockless', hlockless, Client.step_announce hbox m]
          rw [hbeat]
          have ha' := (Client.glances_step hlockless).awaits lane
          exact .made (.announced (ha'.trans ha)) (.inr (.inr ⟨hlockless, rfl⟩))
        | false =>
          have hbeat : beat ⟨c.announce i, some i⟩ (.move m) = (⟨c.announce i, some i⟩, none) := by
            simp [beat, lands_announce, hlands, hlockless', hlockless]
          rw [hbeat]
          refine .waits (.inl rfl) fun m' hm => ?_
          cases hm
          exact hlockless

theorem Shows.same (h : Shows c s) : s.client.queries = c.queries ∧ s.client.waiting = c.waiting ∧
    s.client.link.issued = c.link.issued ∧
    ∀ lane, s.client.link.waves lane = c.link.waves lane := by
  cases h <;> exact ⟨rfl, rfl, rfl, fun _ => rfl⟩

/-- Beats come to moves, and to their replies. -/
theorem Shows.beat (h : Shows c s) (b : Beat α) : ∃ ms, Shows (c.runAll ms).1 (s.beat b).1 ∧
    (s.beat b).2.toList = (c.runAll ms).2 := by
  have hb := h.passes b
  generalize s.beat b = o at hb ⊢
  cases hb with
  | @made m s' h' => exact ⟨[m], h', by simp [Client.runAll]⟩
  | announced h' => exact ⟨[], h', rfl⟩
  | waits => exact ⟨[], h, rfl⟩

theorem Shows.run (h : Shows c s) (bs : List (Beat α)) : ∃ ms, Shows (c.runAll ms).1 (s.run bs).1 ∧
    (s.run bs).2 = (c.runAll ms).2 := by
  induction bs generalizing s c with
  | nil => exact ⟨[], h, rfl⟩
  | cons b bs ih =>
    obtain ⟨ms₁, h₁, hreply⟩ := h.beat b
    obtain ⟨ms₂, h₂, hreplies⟩ := ih h₁
    refine ⟨ms₁ ++ ms₂, ?_, ?_⟩
    · rw [Client.runAll_append]
      exact h₂
    · rw [Client.runAll_append, ← hreply, ← hreplies]
      rfl

/-- Every moment shows a client that whole moves lead to. -/
theorem Reachable.shows (hs : s.Reachable) : ∃ c, c.Reachable ∧ Shows c s := by
  obtain ⟨timeout, bs, rfl⟩ := hs
  obtain ⟨ms, hms, -⟩ := Shows.run (.plain (c := Client.new timeout)) bs
  exact ⟨_, ⟨timeout, ms, rfl⟩, hms⟩

/-! ### Starts -/

/-- A query has started as its caller sees it if it has, or if something was announced to it. -/
theorem Shows.isStarted_iff (h : Shows c s) (q : Query α) :
    q.isStarted s.client.link.router = true ↔
      q.isStarted c.link.router = true ∨ s.due = some q.inbox := by
  cases h with
  | plain => simp
  | @announced lane i ha =>
    obtain ⟨-, t, -, -, hbox, rfl⟩ := Link.awaits?_eq_some.1 ha
    have h := Router.isStarted_announce hbox q
    rw [Option.some_inj]
    exact h

/-- What was begun or announced is begun or announced still. -/
theorem Shows.beat_started (h : Shows c s) (hc : c.Reachable) {b : Beat α}
    (hb : (s.beat b).1.client.link.issued ≤ 2 ^ 64) (hq : c.queries[k]? = some q)
    (hs : Wave.Begun (c.link.waves q.lane) ∨ s.due = some q.inbox) :
    ∃ c' q', c'.Reachable ∧ Shows c' (s.beat b).1 ∧ c'.queries[k]? = some q' ∧
      (Wave.Begun (c'.link.waves q'.lane) ∨ (s.beat b).1.due = some q'.inbox) := by
  have hpass := h.passes b
  generalize s.beat b = o at hb hpass ⊢
  cases hpass with
  | announced h' hdue =>
    rw [hdue] at hs
    exact ⟨c, q, hc, h', hq, .inl (hs.resolve_right nofun)⟩
  | waits => exact ⟨c, q, hc, h, hq, hs⟩
  | @made m s' h' hdue =>
    have hb' : (c.runAll [m]).1.link.issued ≤ 2 ^ 64 := by
      rw [show (c.runAll [m]).1.link.issued = s'.client.link.issued from h'.same.2.2.1.symm]
      exact hb
    have hb₀ := Nat.le_trans (Client.issued_step c m) hb'
    obtain ⟨q', hq', hl, hkeep⟩ := (hc.sound hb₀).solo_runAll
      (J := fun s => Wave.Begun (c.link.waves q.lane) → Wave.Begun s.line.waves)
      (fun s a _ hs hbegun => (Solo.steps_act s a).begun (hs hbegun)) hb' hq id
    refine ⟨_, q', hc.step m, h', hq', ?_⟩
    rcases hs with hbegun | hs
    · exact .inl (hkeep hbegun)
    · rcases hdue with ⟨hnone, -⟩ | ⟨i, hi, hlands, -⟩ | ⟨hlockless, hsame⟩
      · rw [hnone] at hs
        cases hs
      · rw [hs] at hi
        cases hi
        cases h with
        | plain => cases hs
        | announced ha =>
          cases hs
          rw [hl]
          exact .inl (hc.begun_of_lands hb' hq ha hlands)
      · obtain ⟨q'', hq'', hinbox⟩ := (Client.glances_step hlockless).inbox k q hq
        have hq'' : (c.step m).1.queries[k]? = some q'' := hq''
        rw [show (c.step m).1.queries[k]? = some q' from hq'] at hq''
        cases hq''
        rw [hsame, hinbox]
        exact .inr hs

theorem Shows.run_started (h : Shows c s) (hc : c.Reachable) {bs : List (Beat α)}
    (hb : (s.run bs).1.client.link.issued ≤ 2 ^ 64) (hq : c.queries[k]? = some q)
    (hs : Wave.Begun (c.link.waves q.lane) ∨ s.due = some q.inbox) :
    ∃ c' q', c'.Reachable ∧ Shows c' (s.run bs).1 ∧ c'.queries[k]? = some q' ∧
      (Wave.Begun (c'.link.waves q'.lane) ∨ (s.run bs).1.due = some q'.inbox) := by
  induction bs generalizing s c q with
  | nil => exact ⟨c, q, hc, h, hq, hs⟩
  | cons b bs ih =>
    have hb₁ : (s.beat b).1.client.link.issued ≤ 2 ^ 64 := by
      obtain ⟨ms₁, h₁, -⟩ := h.beat b
      obtain ⟨ms₂, h₂, -⟩ := h₁.run bs
      have hle := Client.issued_runAll (c.runAll ms₁).1 ms₂
      rw [← h₁.same.2.2.1, ← h₂.same.2.2.1] at hle
      exact Nat.le_trans hle hb
    obtain ⟨c₁, q₁, hc₁, h₁, hq₁, hs₁⟩ := h.beat_started hc hb₁ hq hs
    exact ih h₁ hc₁ hb hq₁ hs₁

/-- The reply of a beat is that of the move that is made, if one is. -/
theorem Shows.reply_beat (h : Shows c s) (b : Beat α) :
    (∃ m, b = .move m ∧ (s.beat b).2 = (c.step m).2) ∨
      (s.beat b).2 = none ∧ ∀ m, b = .move m → s.due.isSome = true ∧ c.lockless m = false := by
  have hpass := h.passes b
  generalize s.beat b = o at hpass ⊢
  cases hpass with
  | @made m => exact .inl ⟨m, rfl, rfl⟩
  | announced => exact .inr ⟨rfl, nofun⟩
  | waits hdue hm =>
    refine .inr ⟨rfl, ?_⟩
    rintro m rfl
    exact ⟨hdue.resolve_right (by simp), hm m rfl⟩

/-- A move that takes no lock is made. -/
theorem Shows.beat_of_lockless (h : Shows c s) {m : Move α} (hm : c.lockless m = true) :
    Shows (c.step m).1 (s.beat (.move m)).1 ∧ (s.beat (.move m)).2 = (c.step m).2 := by
  have hpass := h.passes (.move m)
  generalize s.beat (.move m) = o at hpass ⊢
  cases hpass with
  | made h' => exact ⟨h', rfl⟩
  | waits _ hno => exact absurd hm (by simp [hno m rfl])

theorem lockless_of_start {bound : Option Nat} {drain : Bool}
    (hw : c.waiting = some (.start k bound drain)) {m : Move α} (hm : m = .resume ∨ m = .expire) :
    c.lockless m = true := by
  rcases hm with rfl | rfl <;> simp [Client.lockless, hw]

theorem Shows.wait_times_out_iff (h : Shows c s) (hc : c.Reachable) (hb : c.link.issued ≤ 2 ^ 64)
    (hq : c.queries[k]? = some q) {bound : Option Nat} {drain : Bool}
    (hw : c.waiting = some (.start k bound drain)) (b : Beat α) :
    (s.beat b).2 = some (.failed .timeout) ↔
      b = .move .expire ∧ bound.isSome = true ∧ ¬ Wave.Begun (c.link.waves q.lane) := by
  rcases h.reply_beat b with ⟨m, rfl, hr⟩ | ⟨hr, hm⟩
  · rw [hr, hc.wait_times_out_iff hb hq hw m]
    simp
  · have hno : b ≠ .move .expire := fun he =>
      absurd (lockless_of_start hw (.inr rfl)) (by simp [(hm _ he).2])
    simp [hr, hno]

theorem Shows.rest_times_out_iff (h : Shows c s) (hc : c.Reachable) (hb : c.link.issued ≤ 2 ^ 64)
    (hq : c.queries[k]? = some q) {got : List α} (hw : c.waiting = some (.pull k (.rest got)))
    (hdue : s.due = none) (b : Beat α) :
    (s.beat b).2 = some (.failed .timeout) ↔ (b = .move .resume ∨ b = .move .expire) ∧
      ∃ p, ((c.link.waves q.lane).flatMap (·.answers))[q.handed.length]? = some p ∧
        q.reader q.handed p = .error .timeout := by
  rcases h.reply_beat b with ⟨m, rfl, hr⟩ | ⟨hr, hm⟩
  · rw [hr, hc.rest_times_out_iff hb hq hw m]
    simp
  · have hno (m : Move α) : b ≠ .move m := fun he => by simp [hdue] at hm; exact (hm m he).elim
    simp [hr, hno]

/-- A bounded call on a query that has not started, during which nothing is delivered, times out. -/
theorem Shows.times_out (h : Shows c s) (hc : c.Reachable) (hq : c.query? k = some q)
    (hp : q.progress = .pending) (hw : c.waiting = none) {call : Call α} {n : Nat}
    (hcall : call = .start k (some n) ∨ call = .collect k (some n)) {bs : List (Beat α)}
    (hb : (s.run (.move (.call call) :: bs)).1.client.link.issued ≤ 2 ^ 64)
    (hnot : ¬ Wave.Begun ((s.run (.move (.call call) :: bs)).1.client.link.waves q.lane)) :
    (s.run (.move (.call call) :: bs ++ [.move .expire])).2.head? = some (.failed .timeout) := by
  obtain ⟨drain, hbegin⟩ := Client.waiting_of_pending hq hp hw hcall
  have hlockless : c.lockless (.call call) = true := by rcases hcall with rfl | rfl <;> rfl
  obtain ⟨h₁, hreply₁⟩ := h.beat_of_lockless hlockless
  have hc₁ := hc.step (.call call)
  rw [hbegin] at h₁ hreply₁ hc₁
  obtain ⟨ms, h₂, hreplies⟩ := h₁.run bs
  obtain ⟨-, -, hissued, hwaves⟩ := h₂.same
  rw [run_cons] at hb hnot
  rw [hissued] at hb
  rw [hwaves] at hnot
  have hq₀ := (Option.filter_eq_some_iff.1 hq).1
  rw [List.cons_append, run_cons, run_append, hreply₁, Option.toList_none, List.nil_append, hreplies]
  rcases hc₁.times_out_or_waits hb hq₀ rfl hnot with hhead | ⟨hnil, hw₂⟩
  · rw [List.head?_append, hhead]
    rfl
  · have hs₁ := hc₁.sound (Nat.le_trans (Client.issued_runAll _ ms) hb)
    obtain ⟨q₂, hq₂, hl, -⟩ :=
      hs₁.solo_runAll (J := fun _ => True) (fun _ _ _ _ => trivial) hb hq₀ trivial
    have hreply := (h₂.wait_times_out_iff (hc₁.runAll ms) hb hq₂ hw₂ (.move .expire)).2
      ⟨rfl, rfl, by rw [hl]; exact hnot⟩
    rw [hnil, List.nil_append, run_cons, hreply]
    rfl

/-- **What a start promises.** Of every query a caller has, in every moment:
- it counts as started if its first wave has delivered something, or if a delivery was announced to it
  that is still to be put there, and only then;
- it stays so, whatever comes after;
- a wait for the start ends with a timeout if it has a bound, its time is over, and the first wave has
  delivered nothing, and only then. So it does also if a delivery was announced. Once something was
  delivered, a wait that is for the start alone is answered with the next look;
- a call that goes on to collect the answers ends with a timeout if the reader makes one of the next
  answer, and only then; no call for the start or for the answers is answered with one at once;
- a query that does not count as started is pending, and a bounded wait for its start during which
  nothing is delivered times out. -/
theorem started_iff_announced (hs : s.Reachable) (hb : s.client.link.issued ≤ 2 ^ 64)
    (hq : s.client.query? k = some q) :
    (q.isStarted s.client.link.router = true ↔
      Wave.Begun (s.client.link.waves q.lane) ∨ s.due = some q.inbox) ∧
    (q.isStarted s.client.link.router = true → ∀ bs q',
      (s.run bs).1.client.link.issued ≤ 2 ^ 64 → (s.run bs).1.client.query? k = some q' →
      q'.isStarted (s.run bs).1.client.link.router = true) ∧
    (∀ bound drain, s.client.waiting = some (.start k bound drain) →
      (∀ b, (s.beat b).2 = some (.failed .timeout) ↔
        b = .move .expire ∧ bound.isSome = true ∧ ¬ Wave.Begun (s.client.link.waves q.lane)) ∧
      (Wave.Begun (s.client.link.waves q.lane) → drain = false → ∀ m, m = .resume ∨ m = .expire →
        ∃ r, (s.beat (.move m)).2 = some r ∧ (r = .done ∨ ∃ e, e ≠ .timeout ∧ r = .failed e))) ∧
    (∀ got, s.client.waiting = some (.pull k (.rest got)) → s.due = none →
      ∀ b, (s.beat b).2 = some (.failed .timeout) ↔ (b = .move .resume ∨ b = .move .expire) ∧
        ∃ p, ((s.client.link.waves q.lane).flatMap (·.answers))[q.handed.length]? = some p ∧
          q.reader q.handed p = .error .timeout) ∧
    (∀ call bound, call = .start k bound ∨ call = .collect k bound →
      (s.beat (.move (.call call))).2 ≠ some (.failed .timeout)) ∧
    (q.isStarted s.client.link.router = false →
      q.progress = .pending ∧
      ∀ call n bs, s.client.waiting = none → call = .start k (some n) ∨ call = .collect k (some n) →
        (s.run (.move (.call call) :: bs)).1.client.link.issued ≤ 2 ^ 64 →
        ¬ Wave.Begun ((s.run (.move (.call call) :: bs)).1.client.link.waves q.lane) →
        (s.run (.move (.call call) :: bs ++ [.move .expire])).2.head? =
          some (.failed .timeout)) := by
  obtain ⟨c, hc, h⟩ := hs.shows
  obtain ⟨hqueries, hwaiting, hissued, hwaves⟩ := h.same
  rw [Client.query?, hqueries] at hq
  have hq : c.query? k = some q := hq
  obtain ⟨hq₀, hheld⟩ := Option.filter_eq_some_iff.1 hq
  rw [hissued] at hb
  rw [hwaiting, hwaves]
  have hstart := (h.isStarted_iff q).trans (or_congr_left (hc.isStarted_iff hb hq))
  refine ⟨hstart, fun hyes bs q' hb' hq' => ?_,
    fun bound drain hw => ⟨h.wait_times_out_iff hc hb hq₀ hw, fun hbegun hdrain m hm => ?_⟩,
    fun got hw hdue => h.rest_times_out_iff hc hb hq₀ hw hdue, fun call bound hcall => ?_, fun hno => ?_⟩
  · obtain ⟨c', q'', hc', h', hq'', hlast⟩ := h.run_started hc hb' hq₀ (hstart.1 hyes)
    obtain ⟨hqueries', -, hissued', -⟩ := h'.same
    rw [Client.query?, hqueries'] at hq'
    have hq' : c'.query? k = some q' := hq'
    rw [(Option.filter_eq_some_iff.1 hq').1] at hq''
    cases hq''
    rw [hissued'] at hb'
    exact (h'.isStarted_iff q').2 (hlast.imp_left (hc'.isStarted_iff hb' hq').2)
  · rw [(h.beat_of_lockless (lockless_of_start hw hm)).2]
    refine (hc.look_of_begun hb hq₀ hw hbegun hm).resolve_left ?_
    rintro ⟨hdrain', -⟩
    rw [hdrain] at hdrain'
    cases hdrain'
  · rcases h.reply_beat (.move (.call call)) with ⟨m, hm, hr⟩ | ⟨hr, -⟩
    · cases hm
      rw [hr]
      exact hc.begins_without_timeout hb hq hcall
    · simp [hr]
  · have hp : q.progress = .pending := by
      unfold Query.isStarted at hno
      rw [Bool.or_eq_false_iff, bne_eq_false_iff_eq] at hno
      exact hno.1
    exact ⟨hp, fun call n bs hw hcall => h.times_out hc hq hp hw hcall⟩

/-- A query whose request was sent and not answered yet. -/
def unanswered (reader : Reader Payload) : List (Move Payload) :=
  [.call (.openSession "db" .data), .arrive ⟨1, .sessionOpened 7⟩, .resume,
    .call (.openTransaction 0 .read), .arrive ⟨2, .transactionOpened 9⟩, .resume,
    .call (.query 0 [113] {} reader)]

/-- A call waits for a first delivery that was announced and is still to be put there. -/
def between : List (Beat Payload) :=
  (unanswered Reader.raw).map .move ++ [.announce 3, .move (.call (.start 0 (some 0)))]

/-- An answer has come, of which the reader says that it came too late. -/
def late : List (Beat Payload) :=
  (unanswered fun _ _ => .error .timeout).map .move ++
    [.announce 3, .move (.arrive ⟨3, .data [1]⟩), .move (.call (.collect 0 (some 0))), .move .resume]

theorem started_iff_announced_between_late :
    (∃ s : Moment Payload, (run ⟨Client.new none, none⟩ between).1 = s ∧ ∃ q,
      s.client.query? 0 = some q ∧ q.isStarted s.client.link.router = true ∧
        s.due = some q.inbox ∧ (s.beat (.move .expire)).2 = some (.failed .timeout)) ∧
    ∃ s : Moment Payload, (run ⟨Client.new none, none⟩ late).1 = s ∧ ∃ q,
      s.client.query? 0 = some q ∧ q.isStarted s.client.link.router = true ∧
        s.due = none ∧ (s.beat (.move .expire)).2 = some (.failed .timeout) := by
  constructor
  · obtain ⟨s, hs⟩ : ∃ s, (run ⟨Client.new none, none⟩ between).1 = s := ⟨_, rfl⟩
    have hreach : s.Reachable := ⟨none, between, hs.symm⟩
    have hb : s.client.link.issued ≤ 2 ^ 64 := by
      rw [← hs]
      decide +kernel
    have hdue : (s.client.query? 0).map (fun q => (q.lane, some q.inbox)) = some (3, s.due) ∧
        s.due.isSome = true := by
      rw [← hs]
      decide +kernel
    have hwaves : (s.client.link.waves 3).head?.map (·.deliveries) = some [] := by
      rw [← hs]
      decide +kernel
    have hwait : s.client.waiting = some (.start 0 (some 0) false) := by
      rw [← hs]
      rfl
    obtain ⟨q, hq, he⟩ := Option.map_eq_some_iff.1 hdue.1
    obtain ⟨hlane, hinbox⟩ := Prod.mk.inj he
    obtain ⟨hstarted, -, hwaits, -⟩ := started_iff_announced hreach hb hq
    have hnot : ¬ Wave.Begun (s.client.link.waves q.lane) := by
      rintro ⟨w, hw, hd⟩
      rw [hlane] at hw
      rw [hw] at hwaves
      exact hd (Option.some.inj hwaves)
    exact ⟨s, hs, q, hq, hstarted.2 (.inr hinbox.symm), hinbox.symm,
      ((hwaits _ _ hwait).1 (.move .expire)).2 ⟨rfl, rfl, hnot⟩⟩
  · obtain ⟨s, hs⟩ : ∃ s, (run ⟨Client.new none, none⟩ late).1 = s := ⟨_, rfl⟩
    have hreach : s.Reachable := ⟨none, late, hs.symm⟩
    have hb : s.client.link.issued ≤ 2 ^ 64 := by
      rw [← hs]
      decide +kernel
    have hquery : (s.client.query? 0).map (fun q => (q.isStarted s.client.link.router,
        ((s.client.link.waves q.lane).flatMap (·.answers))[q.handed.length]?)) =
        some (true, some [1]) ∧ s.due = none := by
      rw [← hs]
      decide +kernel
    have hreader : ∀ q, s.client.query? 0 = some q → q.reader q.handed [1] = .error .timeout := by
      rw [← hs]
      rintro q ⟨⟩
      rfl
    have hwait : s.client.waiting = some (.pull 0 (.rest [])) := by
      rw [← hs]
      rfl
    obtain ⟨q, hq, he⟩ := Option.map_eq_some_iff.1 hquery.1
    obtain ⟨hyes, hnext⟩ := Prod.mk.inj he
    obtain ⟨-, -, -, hrest, -⟩ := started_iff_announced hreach hb hq
    exact ⟨s, hs, q, hq, hyes, hquery.2, ((hrest _ hwait hquery.2) (.move .expire)).2
      ⟨.inr rfl, [1], hnext, hreader q hq⟩⟩

end Moment

end QueryLanes
