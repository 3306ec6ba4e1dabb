import QueryLanes.Proofs.Following
import QueryLanes.Proofs.Mirroring

/-!
# Putting a delivery back

A wait for the start of a query takes the first delivery out of its inbox and notes it in the query.
`Client.putBack` undoes that: the delivery is first in the inbox again, and the query is pending. It
makes no difference to anything else: `Client.step_putBack` says that every move which is not about
the query does the same before and after, so that it may as well come before.
-/

namespace QueryLanes

variable {α : Type}

/-! ## Routers -/

def Inbox.putBack (b : Inbox) (d : Delivery) : Inbox := { b with queue := d :: b.queue }

section

variable {β : Type} {l : List β} {i j : Nat} {f : β → β}

theorem modify_append_of_lt (h : i < l.length) (l' : List β) :
    (l ++ l').modify i f = l.modify i f ++ l' := by
  refine List.ext_getElem? fun k => ?_
  simp only [List.getElem?_modify, List.getElem?_append, List.length_modify]
  by_cases hk : k < l.length
  · rw [if_pos hk, if_pos hk]
  · have hi : i ≠ k := by omega
    simp [hk, hi]

theorem set_modify_of_ne (h : j ≠ i) (x : β) :
    (l.modify i f).set j x = (l.set j x).modify i f := by
  refine List.ext_getElem? fun k => ?_
  simp only [List.getElem?_modify, List.getElem?_set, List.length_modify]
  by_cases hj : j = k
  · have hi : i ≠ k := fun hi => h (hj.trans hi.symm)
    simp [hj, hi]
  · rw [if_neg hj, if_neg hj]

theorem set_modify (x : β) : (l.modify i f).set i x = l.set i x := by
  refine List.ext_getElem? fun k => ?_
  rw [List.getElem?_set, List.getElem?_set, List.getElem?_modify, List.length_modify]
  by_cases hk : i = k <;> simp [hk]

theorem modify_set (h : i < l.length) (x : β) : (l.set i x).modify i f = l.set i (f x) := by
  refine List.ext_getElem? fun k => ?_
  rw [List.getElem?_set, List.getElem?_modify, List.getElem?_set]
  by_cases hk : i = k
  · subst hk
    simp [h]
  · simp [hk]

theorem set_modify_self {x : β} (h : l[i]? = some x) : (l.modify i f).set i x = l := by
  obtain ⟨hi, hx⟩ := List.getElem?_eq_some_iff.1 h
  refine List.ext_getElem? fun k => ?_
  rw [List.getElem?_set, List.getElem?_modify]
  by_cases hk : i = k
  · subst hk
    simp [hi, hx]
  · simp [hk]

theorem modify_set_self {x y : β} (h : l[i]? = some x) (hf : f y = x) :
    (l.set i y).modify i f = l := by
  obtain ⟨hi, hx⟩ := List.getElem?_eq_some_iff.1 h
  refine List.ext_getElem? fun k => ?_
  rw [List.getElem?_modify, List.getElem?_set]
  by_cases hk : i = k
  · subst hk
    simp [hi, hx, hf]
  · simp [hk]

end

namespace Router

/-- One inbox is changed. -/
def adjust (r : Router) (i : Nat) (g : Inbox → Inbox) : Router :=
  { r with inboxes := r.inboxes.modify i (Option.map g) }

/-- The delivery is first in the inbox again. -/
def putBack (r : Router) (i : Nat) (d : Delivery) : Router := r.adjust i (·.putBack d)

variable {r : Router} {i j : Nat} {g : Inbox → Inbox} {d : Delivery}

theorem inbox?_adjust_self (r : Router) (i : Nat) (g : Inbox → Inbox) :
    (r.adjust i g).inbox? i = (r.inbox? i).map g := by
  unfold adjust inbox?
  rw [List.getElem?_modify_eq]
  rcases r.inboxes[i]? with _ | _ | b <;> rfl

theorem inbox?_adjust_of_ne (h : j ≠ i) : (r.adjust i g).inbox? j = r.inbox? j := by
  unfold adjust inbox?
  rw [List.getElem?_modify_ne _ _ h.symm]

theorem isSome_inbox?_adjust (r : Router) (i : Nat) (g : Inbox → Inbox) (j : Nat) :
    ((r.adjust i g).inbox? j).isSome = (r.inbox? j).isSome := by
  by_cases h : j = i
  · subst h
    rw [inbox?_adjust_self, Option.isSome_map]
  · rw [inbox?_adjust_of_ne h]

theorem drop_adjust (r : Router) (i : Nat) (g : Inbox → Inbox) (j : Nat) :
    (r.adjust i g).drop j = (r.drop j).adjust i g := by
  unfold adjust drop
  congr 1
  refine List.ext_getElem? fun k => ?_
  simp only [List.getElem?_set, List.getElem?_modify, List.length_modify]
  by_cases hj : j = k <;> by_cases hi : i = k <;> simp [hj, hi]

theorem register_adjust (h : i < r.inboxes.length) (lane : Lane) (o : Owner) :
    (r.adjust i g).register lane o = (r.register lane o).map fun x => (x.1.adjust i g, x.2) := by
  unfold register
  rw [show (r.adjust i g).closed = r.closed from rfl]
  split
  · rfl
  · simp only [Except.map, adjust, withdraw, List.length_modify]
    rw [modify_append_of_lt h]

theorem poll_adjust_of_ne (h : j ≠ i) :
    (r.adjust i g).poll j = (r.poll j).map fun x => (x.1, x.2.adjust i g) := by
  unfold poll
  rw [inbox?_adjust_of_ne h]
  cases r.inbox? j with
  | none => rfl
  | some b =>
    dsimp only
    split
    · simp only [Option.map_some, adjust]
      rw [set_modify_of_ne h]
    · rw [show (r.adjust i g).feeds j = r.feeds j from rfl]
      split <;> rfl

section

variable (hg : ∀ b x, g (Inbox.push b x) = (g b).push x)
include hg

theorem deliver_adjust (r : Router) (i : Nat) (reached : Nat → Bool) (x : Delivery) :
    (r.adjust i g).deliver reached x = (r.deliver reached x).adjust i g := by
  unfold adjust deliver
  congr 1
  refine List.ext_getElem? fun k => ?_
  simp only [List.getElem?_mapIdx, List.getElem?_modify]
  rcases r.inboxes[k]? with _ | _ | b <;> by_cases hk : i = k <;> cases hr : reached k <;>
    simp [hk, hg]

theorem route_adjust (r : Router) (i : Nat) (f : ServerFrame) :
    (r.adjust i g).route f = (r.route f).adjust i g := by
  unfold route
  rw [show (r.adjust i g).slot? f.lane = r.slot? f.lane from rfl]
  split
  · rfl
  · rename_i s hs
    rw [isSome_inbox?_adjust, deliver_adjust hg]
    dsimp only
    split <;> split <;> first | rfl | (split <;> rfl)

theorem failWhere_adjust (r : Router) (i : Nat) (doomed : Owner → Bool) (e : Failure) :
    (r.adjust i g).failWhere doomed e =
      ((r.failWhere doomed e).1.adjust i g, (r.failWhere doomed e).2) := by
  rw [failWhere_eq, failWhere_eq, deliver_adjust hg]
  rfl

theorem close_adjust (r : Router) (i : Nat) (e : Failure) :
    (r.adjust i g).close e = ((r.close e).1.adjust i g, (r.close e).2) :=
  failWhere_adjust hg { r with closed := true } i _ e

end

/-- A poll finds what was put back. -/
theorem poll_putBack_self (h : (r.inbox? i).isSome = true) :
    (r.putBack i d).poll i = some (d, r) := by
  obtain ⟨b, hb⟩ := Option.isSome_iff_exists.1 h
  have hget : r.inboxes[i]? = some (some b) := Option.join_eq_some_iff.1 hb
  unfold putBack poll
  rw [inbox?_adjust_self, hb]
  simp only [Option.map_some, Inbox.putBack, adjust]
  rw [set_modify_self hget]

/-- What a poll has found can be put back. -/
theorem putBack_poll {b : Inbox} {rest : List Delivery} (hb : r.inbox? i = some b)
    (hq : b.queue = d :: rest) {r' : Router} (h : r.poll i = some (d, r')) :
    r'.putBack i d = r := by
  have hget : r.inboxes[i]? = some (some b) := Option.join_eq_some_iff.1 hb
  unfold poll at h
  simp only [hb, hq] at h
  cases h
  unfold putBack adjust
  dsimp only
  rw [modify_set_self hget]
  simp [Inbox.putBack, ← hq]

end Router

/-! ## Links -/

namespace Link

/-- One inbox is changed. -/
def adjust (l : Link) (i : Nat) (g : Inbox → Inbox) : Link :=
  { l with router := l.router.adjust i g }

variable {l : Link} {i j : Nat} {g : Inbox → Inbox}

theorem send_adjust (l : Link) (i : Nat) (g : Inbox → Inbox) (f : ClientFrame) :
    (l.adjust i g).send f = (l.send f).map (·.adjust i g) := by
  unfold send
  rw [show (l.adjust i g).isOpen = l.isOpen from rfl]
  split <;> rfl

theorem dispatch_adjust (h : i < l.router.inboxes.length) (lane : Lane) (o : Owner)
    (request : Request) : (l.adjust i g).dispatch lane o request =
      ((l.dispatch lane o request).1, (l.dispatch lane o request).2.adjust i g) := by
  unfold dispatch
  rw [show (l.adjust i g).router = l.router.adjust i g from rfl, Router.register_adjust h]
  cases l.router.register lane o with
  | error e => rfl
  | ok x =>
    have hsend := send_adjust { l with router := x.1 } i g ⟨lane, request⟩
    simp only [adjust] at hsend
    simp only [Except.map, adjust, hsend]
    cases send { l with router := x.1 } ⟨lane, request⟩ with
    | ok sent => rfl
    | error e =>
      dsimp only [Except.map]
      rw [← Router.drop_adjust]
      rfl

theorem dropInbox_adjust (l : Link) (i : Nat) (g : Inbox → Inbox) (j : Nat) :
    (l.adjust i g).dropInbox j = (l.dropInbox j).adjust i g := by
  unfold dropInbox adjust
  dsimp only
  rw [Router.drop_adjust]

section

variable (hg : ∀ b x, g (Inbox.push b x) = (g b).push x)
include hg

theorem receive_adjust (l : Link) (i : Nat) (f : ServerFrame) :
    (l.adjust i g).receive f = (l.receive f).adjust i g := by
  unfold receive
  rw [show (l.adjust i g).isOpen = l.isOpen from rfl,
    show (l.adjust i g).router = l.router.adjust i g from rfl, Router.route_adjust hg]
  split <;> rfl

theorem fail_adjust (l : Link) (i : Nat) (doomed : Owner → Bool) (e : Failure) :
    (l.adjust i g).fail doomed e = (l.fail doomed e).adjust i g := by
  unfold fail
  rw [show (l.adjust i g).router = l.router.adjust i g from rfl, Router.failWhere_adjust hg]
  rfl

theorem close_adjust (l : Link) (i : Nat) : (l.adjust i g).close = l.close.adjust i g := by
  unfold close
  rw [show (l.adjust i g).isOpen = l.isOpen from rfl,
    show (l.adjust i g).router = l.router.adjust i g from rfl, Router.close_adjust hg]
  split <;> rfl

end

theorem length_inboxes_fail (l : Link) (doomed : Owner → Bool) (e : Failure) :
    (l.fail doomed e).router.inboxes.length = l.router.inboxes.length := by
  unfold fail
  rw [Router.failWhere_eq]
  exact List.length_mapIdx

/-- No inbox loses its place. -/
theorem lt_inboxes_of_deed {P : Power → Prop} {l' : Link} (h : l.Deed P l')
    (hi : i < l.router.inboxes.length) : i < l'.router.inboxes.length := by
  cases h with
  | openLane | ran => exact hi
  | dispatch lane o request =>
    cases hc : l.router.closed <;> cases ho : l.isOpen <;>
      simp [dispatch, Router.register, Router.withdraw, Router.drop, send, record, hc, ho] <;> omega
  | dropInbox j => exact Nat.lt_of_lt_of_eq hi (Router.length_drop j).symm
  | poll hpoll => exact Nat.lt_of_lt_of_eq hi (length_poll hpoll).symm
  | fail doomed e => exact Nat.lt_of_lt_of_eq hi (length_inboxes_fail l doomed e).symm
  | close =>
    rw [close_eq]
    split
    · exact Nat.lt_of_lt_of_eq hi (length_inboxes_fail l (fun _ => true) .connectionClosed).symm
    · exact hi

theorem lt_inboxes_receive (hi : i < l.router.inboxes.length) (f : ServerFrame) :
    i < (l.receive f).router.inboxes.length := by
  rw [receive_eq]
  split
  · exact Nat.lt_of_lt_of_eq hi (Router.length_route f).symm
  · exact hi

end Link

/-- One inbox is changed in a way that deliveries do not heed; where that does not show in what is
found there, it may be read. -/
def LinkMirror.adjusted (i : Nat) (g : Inbox → Inbox) (Read : Nat → Prop)
    (hg : ∀ b x, g (Inbox.push b x) = (g b).push x)
    (hread : ∀ (r : Router) j, Read j →
      (r.adjust i g).poll j = (r.poll j).map fun x => (x.1, x.2.adjust i g)) : LinkMirror where
  link l l' := i < l.router.inboxes.length ∧ l' = l.adjust i g
  Read := Read
  isOpen h := h.2 ▸ rfl
  issued h := h.2 ▸ rfl
  openLane h := ⟨h.1, h.2 ▸ rfl⟩
  dispatch := by
    rintro l - ⟨hi, rfl⟩ lane o request
    exact ⟨_, _, _, rfl, Link.dispatch_adjust hi lane o request, Link.lt_inboxes_of_deed
      (P := fun _ => True) (.dispatch l lane o request trivial) hi, rfl⟩
  dropInbox := by
    rintro l - ⟨hi, rfl⟩ j
    exact ⟨Link.lt_inboxes_of_deed (P := fun _ => True) (.dropInbox l j) hi, l.dropInbox_adjust i g j⟩
  poll := by
    rintro l - ⟨hi, rfl⟩ j hj
    rw [show (l.adjust i g).router = l.router.adjust i g from rfl, hread _ j hj]
    cases hp : l.router.poll j with
    | none => exact .inl ⟨rfl, rfl⟩
    | some x =>
      exact .inr ⟨x.1, x.2, _, rfl, rfl, Nat.lt_of_lt_of_eq hi (Link.length_poll hp).symm, rfl⟩
  failTransaction := by
    rintro l - ⟨hi, rfl⟩ id
    rw [Link.failTransaction_eq, Link.failTransaction_eq]
    exact ⟨Link.lt_inboxes_of_deed (P := fun _ => True) (.fail l _ _) hi, l.fail_adjust hg ..⟩
  failSession := by
    rintro l - ⟨hi, rfl⟩ id
    rw [Link.failSession_eq, Link.failSession_eq]
    exact ⟨Link.lt_inboxes_of_deed (P := fun _ => True) (.fail l _ _) hi, l.fail_adjust hg ..⟩
  ran h _ := ⟨h.1, h.2 ▸ rfl⟩
  close := by
    rintro l - ⟨hi, rfl⟩
    exact ⟨Link.lt_inboxes_of_deed (P := fun _ => True) (.close l trivial) hi, l.close_adjust hg i⟩
  receive := by
    rintro l - ⟨hi, rfl⟩ f
    exact ⟨Link.lt_inboxes_receive hi f, l.receive_adjust hg i f⟩

/-! ## Clients -/

/-- The query as if nothing had been waited for. -/
def Query.putBack (q : Query α) : Query α := { q with stash := none, progress := .pending }

/-- A delivery is first in its inbox again, and its query as if nothing had been waited for. -/
def Mirror.restored (h : Handle) (i : Nat) (d : Delivery) : Mirror α where
  toLinkMirror := .adjusted i (·.putBack d) (· ≠ i) (fun _ _ => rfl)
    fun _ _ => Router.poll_adjust_of_ne
  queries qs qs' := h < qs.length ∧ qs' = qs.modify h Query.putBack
  Same := (· ≠ h)
  length := by
    rintro qs - ⟨-, rfl⟩
    exact List.length_modify ..
  held := by
    rintro qs - ⟨-, rfl⟩
    have hmap : (qs.modify h Query.putBack).map (·.held) = qs.map (·.held) := by
      refine List.ext_getElem? fun k => ?_
      simp only [List.getElem?_map, List.getElem?_modify]
      by_cases hk : h = k <;> cases qs[k]? <;> simp [hk, Query.putBack]
    simpa [List.any_map, Function.comp_def] using congrArg (List.any · id) hmap
  concat := by
    rintro qs - ⟨hh, rfl⟩ q
    exact ⟨Nat.lt_of_lt_of_le hh (by simp), (modify_append_of_lt hh [q]).symm⟩
  get := by
    rintro qs - ⟨-, rfl⟩ j hj
    exact List.getElem?_modify_ne _ _ hj.symm
  set := by
    rintro qs - ⟨hh, rfl⟩ j hj q
    exact ⟨Nat.lt_of_lt_of_eq hh (List.length_set ..).symm, set_modify_of_ne hj q⟩

namespace Client

/-- The query at a place is as if nothing had been waited for, and the delivery is first in its
inbox again. -/
def putBack (c : Client α) (h : Handle) (i : Nat) (d : Delivery) : Client α :=
  { c with
    link := c.link.adjust i (·.putBack d)
    queries := c.queries.modify h Query.putBack }

section

variable (c : Client α) (h : Handle) (i : Nat) (d : Delivery)

theorem query?_putBack_self :
    (c.putBack h i d).query? h = (c.query? h).map Query.putBack := by
  unfold query? putBack
  rw [List.getElem?_modify_eq]
  cases c.queries[h]? with
  | none => rfl
  | some q => cases hq : q.held <;> simp [Query.putBack, Option.filter, hq]

variable {h}

theorem getElem?_queries_putBack_of_ne {h' : Handle} (hne : h' ≠ h) :
    (c.putBack h i d).queries[h']? = c.queries[h']? :=
  List.getElem?_modify_ne _ _ hne.symm

end

section

variable {c : Client α} {h : Handle} {i : Nat} {d : Delivery}

theorem mirrors_putBack (hi : i < c.link.router.inboxes.length) (hh : h < c.queries.length) :
    c.Mirrors (.restored h i d) (c.putBack h i d) := ⟨_, _, rfl, ⟨hi, rfl⟩, hh, rfl⟩

theorem Mirrors.eq_putBack {c' : Client α} (hm : c.Mirrors (.restored h i d) c') :
    c' = c.putBack h i d := by
  obtain ⟨-, -, rfl, ⟨-, rfl⟩, -, rfl⟩ := hm
  rfl

theorem Agree.eq_putBack {o o' : Outcome α} (ho : Agree (.restored h i d) o o') :
    o' = Prod.map (·.putBack h i d) id o := Prod.ext ho.2.eq_putBack ho.1

/-- Giving up the query itself is no different. -/
theorem dropQuery_putBack (hi : i < c.link.router.inboxes.length) (hh : h < c.queries.length)
    (q : Query α) : (c.putBack h i d).dropQuery h q.putBack = (c.dropQuery h q).putBack h i d := by
  have hqueries : (c.queries.modify h Query.putBack).set h { q.putBack with held := false } =
      (c.queries.set h { q with held := false }).modify h Query.putBack := by
    rw [set_modify, modify_set hh]
    rfl
  have hmirrors : Mirrors (.restored h i d)
      { c.setQuery h { q with held := false } with link := c.link.dropInbox q.inbox }
      { (c.putBack h i d).setQuery h { q.putBack with held := false } with
        link := (c.putBack h i d).link.dropInbox q.inbox } :=
    mirrors_of ((Mirror.restored h i d).dropInbox ⟨hi, rfl⟩ q.inbox)
      ⟨Nat.lt_of_lt_of_eq hh (List.length_set ..).symm, hqueries⟩ c
  exact hmirrors.release.eq_putBack

/-! ### Moves -/

/-- No call waits for something of the query, or for what comes into its inbox. -/
structure Aloof (c : Client α) (h : Handle) (i : Nat) : Prop where
  query : ∀ (h' : Handle) p, c.waiting = some (Pause.wait h' p) →
    h' ≠ h ∧ ∃ q, c.queries[h']? = some q ∧ q.inbox ≠ i
  errand : ∀ e j, c.waiting = some (.errand e j) → j ≠ i

theorem Aloof.reads (hw : c.Aloof h i) {w : Wait α} (hwait : c.waiting = some w) :
    c.ReadsAlike (.restored h i d) w := by
  have hquery {h' : Handle} {p : Pause α} (hp : c.waiting = some (p.wait h')) :
      h' ≠ h ∧ ∀ q, c.queries[h']? = some q → q.inbox ≠ i := by
    obtain ⟨hne, q, hq, hj⟩ := hw.query h' p hp
    refine ⟨hne, fun q' hq' => ?_⟩
    rw [hq] at hq'
    cases hq'
    exact hj
  cases w with
  | errand e j => exact hw.errand e j hwait
  | start h' bound drain => exact hquery (p := .start bound drain) hwait
  | pull h' demand => exact hquery (p := .pull demand) hwait

/-- A move that takes no call on the query on, and begins none but to give it up, is the same before
and after. -/
theorem step_putBack (hi : i < c.link.router.inboxes.length) (hh : h < c.queries.length)
    {m : Move α} (hk : ∀ k a, m = .call k → c.waiting = none → k.ask? = some (h, a) → a = .drop)
    (hw : m = .resume ∨ m = .expire → c.Aloof h i) :
    (c.putBack h i d).step m = Prod.map (·.putBack h i d) id (c.step m) := by
  have hmirrors := mirrors_putBack (d := d) hi hh
  by_cases hdrop : m = .call (.dropQuery h) ∧ c.waiting = none
  · obtain ⟨rfl, hidle⟩ := hdrop
    have hquery := c.query?_putBack_self h i d
    cases hq : c.query? h with
    | none =>
      rw [hq] at hquery
      rw [step, step, call_of_gone hidle rfl hq, call_of_gone (c := c.putBack h i d) hidle rfl hquery]
      rfl
    | some q =>
      rw [hq] at hquery
      rw [step, step, call_dropQuery hidle hq, call_dropQuery (c := c.putBack h i d) hidle hquery,
        dropQuery_putBack hi hh]
      rfl
  · refine (hmirrors.step (fun k hm hidle h' a ha => ?_) fun hm w => (hw hm).reads).eq_putBack
    rintro rfl
    cases hk k a hm hidle ha
    refine hdrop ⟨?_, hidle⟩
    cases k <;> cases ha
    exact hm

end

end Client

end QueryLanes
