import QueryLanes.Proofs.Acting

/-!
# Mirrored clients

Two clients may differ in something that no function of a client heeds: a slot nobody waits on, a flag,
a delivery that nobody reads. A `Mirror` is such a difference of links and of queries, together with
what has to be shown of it: every operation of a link keeps it, and what is read is the same on both
sides. `Client.Mirrors.step` derives from this, once for all mirrors, that a move which concerns only
what is the same gives the same reply on both sides, and keeps the difference.
-/

namespace QueryLanes

variable {α : Type}

/-- A difference of links that their operations keep. -/
structure LinkMirror where
  link : Link → Link → Prop
  /-- The inboxes in which the same is found on both sides. -/
  Read : Nat → Prop
  isOpen {l l' : Link} (h : link l l') : l'.isOpen = l.isOpen
  issued {l l' : Link} (h : link l l') : l'.issued = l.issued
  openLane {l l' : Link} (h : link l l') : link l.openLane.2 l'.openLane.2
  dispatch {l l' : Link} (h : link l l') (lane : Lane) (o : Owner) (request : Request) :
    ∃ res l₁ l₁', l.dispatch lane o request = (res, l₁) ∧ l'.dispatch lane o request = (res, l₁') ∧
      link l₁ l₁'
  dropInbox {l l' : Link} (h : link l l') (i : Nat) : link (l.dropInbox i) (l'.dropInbox i)
  poll {l l' : Link} (h : link l l') {i : Nat} (hi : Read i) :
    (l.router.poll i = none ∧ l'.router.poll i = none) ∨
    ∃ d r r', l.router.poll i = some (d, r) ∧ l'.router.poll i = some (d, r') ∧
      link { l with router := r } { l' with router := r' }
  failTransaction {l l' : Link} (h : link l l') (id : UInt64) :
    link (l.failTransaction id) (l'.failTransaction id)
  failSession {l l' : Link} (h : link l l') (id : UInt64) :
    link (l.failSession id) (l'.failSession id)
  ran {l l' : Link} (h : link l l') (label : String) :
    link (l.record (.ran label)) (l'.record (.ran label))
  close {l l' : Link} (h : link l l') : link l.close l'.close
  receive {l l' : Link} (h : link l l') (f : ServerFrame) : link (l.receive f) (l'.receive f)

/-- A difference of queries at some places. -/
structure QueryMirror (α : Type) where
  queries : List (Query α) → List (Query α) → Prop
  /-- The places where the queries are the same on both sides. -/
  Same : Handle → Prop
  length {qs qs' : List (Query α)} (h : queries qs qs') : qs'.length = qs.length
  held {qs qs' : List (Query α)} (h : queries qs qs') : qs'.any (·.held) = qs.any (·.held)
  concat {qs qs' : List (Query α)} (h : queries qs qs') (q : Query α) :
    queries (qs ++ [q]) (qs' ++ [q])
  get {qs qs' : List (Query α)} (h : queries qs qs') {i : Handle} (hi : Same i) : qs'[i]? = qs[i]?
  set {qs qs' : List (Query α)} (h : queries qs qs') {i : Handle} (hi : Same i) (q : Query α) :
    queries (qs.set i q) (qs'.set i q)

structure Mirror (α : Type) extends LinkMirror, QueryMirror α

/-- No difference at all. -/
def QueryMirror.plain : QueryMirror α where
  queries := Eq
  Same _ := True
  length h := h ▸ rfl
  held h := h ▸ rfl
  concat h _ := h ▸ rfl
  get h _ _ := h ▸ rfl
  set h _ _ _ := h ▸ rfl

namespace Mirror

variable {M : Mirror α} {l l' : Link}

theorem request (h : M.link l l') (o : Owner) (request : Request) :
    ∃ res l₁ l₁', l.request o request = (res, l₁) ∧ l'.request o request = (res, l₁') ∧
      M.link l₁ l₁' := by
  have hlane : l'.openLane.1 = l.openLane.1 := congrArg (fun n => UInt64.ofNat (n + 1)) (M.issued h)
  unfold Link.request
  dsimp only
  rw [hlane]
  exact M.dispatch (M.openLane h) ..

theorem post (h : M.link l l') (o : Owner) (request : Request) :
    M.link (l.post o request) (l'.post o request) := by
  obtain ⟨res, l₁, l₁', heq, heq', h₁⟩ := M.request h o request
  unfold Link.post
  rw [heq, heq']
  cases res with
  | ok i => exact M.dropInbox h₁ i
  | error e => exact h₁

theorem ran_all (h : M.link l l') (labels : List String) :
    M.link (labels.foldl (fun l label => l.record (.ran label)) l)
      (labels.foldl (fun l label => l.record (.ran label)) l') := by
  induction labels generalizing l l' with
  | nil => exact h
  | cons label labels ih => exact ih (M.ran h label)

/-- What a pull finds is the same on both sides. -/
theorem pollQuery (h : M.link l l') {q : Query α} (hq : M.Read q.inbox) :
    (q.poll l.router = none ∧ q.poll l'.router = none) ∨
    ∃ d q' r r', q.poll l.router = some (d, q', r) ∧ q.poll l'.router = some (d, q', r') ∧
      M.link { l with router := r } { l' with router := r' } := by
  unfold Query.poll
  split
  · exact .inr ⟨_, _, _, _, rfl, rfl, h⟩
  · rcases M.poll h hq with ⟨hn, hn'⟩ | ⟨d, r, r', hr, hr', hl⟩
    · exact .inl ⟨by rw [hn]; rfl, by rw [hn']; rfl⟩
    · exact .inr ⟨d, q, r, r', by rw [hr]; rfl, by rw [hr']; rfl, hl⟩

end Mirror

namespace Client

variable {M : Mirror α} {c d : Client α}

/-- The second client is the first one with another link and other queries, that mirror its own. -/
def Mirrors (M : Mirror α) (c d : Client α) : Prop :=
  ∃ l qs, d = { c with link := l, queries := qs } ∧ M.link c.link l ∧ M.queries c.queries qs

/-- The same reply, and clients that mirror one another. -/
def Agree (M : Mirror α) (o o' : Outcome α) : Prop := o'.2 = o.2 ∧ o.1.Mirrors M o'.1

theorem mirrors_of {l l' : Link} {qs qs' : List (Query α)} (hl : M.link l l')
    (hq : M.queries qs qs') (c : Client α) :
    Mirrors M { c with link := l, queries := qs } { c with link := l', queries := qs' } :=
  ⟨l', qs', rfl, hl, hq⟩

theorem Mirrors.link (h : c.Mirrors M d) : M.link c.link d.link := by
  obtain ⟨l, qs, rfl, hl, -⟩ := h
  exact hl

theorem Mirrors.queries (h : c.Mirrors M d) : M.queries c.queries d.queries := by
  obtain ⟨l, qs, rfl, -, hq⟩ := h
  exact hq

theorem Mirrors.waiting (h : c.Mirrors M d) : d.waiting = c.waiting := by
  obtain ⟨l, qs, rfl, -⟩ := h
  rfl

theorem Mirrors.isOpen (h : c.Mirrors M d) : d.link.isOpen = c.link.isOpen := M.isOpen h.link

theorem Mirrors.idle (h : c.Mirrors M d) : Agree M (c, none) (d, none) := ⟨rfl, h⟩

theorem Mirrors.replying (h : c.Mirrors M d) (r : Reply α) :
    Agree M (c.replying r) (d.replying r) := by
  obtain ⟨l, qs, rfl, hl, hq⟩ := h
  exact ⟨rfl, mirrors_of hl hq { c with waiting := none }⟩

theorem Mirrors.wait (h : c.Mirrors M d) (w : Wait α) :
    Agree M ({ c with waiting := some w }, none) ({ d with waiting := some w }, none) := by
  obtain ⟨l, qs, rfl, hl, hq⟩ := h
  exact ⟨rfl, mirrors_of hl hq { c with waiting := some w }⟩

theorem Mirrors.relink (h : c.Mirrors M d) {l l' : Link} (hl : M.link l l') :
    Mirrors M { c with link := l } { d with link := l' } := by
  obtain ⟨-, qs, rfl, -, hq⟩ := h
  exact mirrors_of hl hq c

theorem Mirrors.modifySession (h : c.Mirrors M d) (s : Handle) (f : Session → Session) :
    (c.modifySession s f).Mirrors M (d.modifySession s f) := by
  obtain ⟨l, qs, rfl, hl, hq⟩ := h
  exact mirrors_of hl hq (c.modifySession s f)

theorem Mirrors.modifyTransaction (h : c.Mirrors M d) (t : Handle) (f : Transaction → Transaction) :
    (c.modifyTransaction t f).Mirrors M (d.modifyTransaction t f) := by
  obtain ⟨l, qs, rfl, hl, hq⟩ := h
  exact mirrors_of hl hq (c.modifyTransaction t f)

theorem Mirrors.setQuery (h : c.Mirrors M d) {i : Handle} (hi : M.Same i) (q : Query α) :
    (c.setQuery i q).Mirrors M (d.setQuery i q) := by
  obtain ⟨l, qs, rfl, hl, hq⟩ := h
  exact mirrors_of hl (M.set hq hi q) c

theorem Mirrors.release (h : c.Mirrors M d) : c.release.Mirrors M d.release := by
  obtain ⟨l, qs, rfl, hl, hq⟩ := h
  have hheld : ({ c with link := l, queries := qs } : Client α).isHeld = c.isHeld := by
    unfold isHeld
    dsimp only
    rw [M.held hq]
  unfold Client.release
  rw [hheld]
  split
  · exact mirrors_of hl hq c
  · exact mirrors_of (M.close hl) hq c

/-! ### Errands -/

theorem Mirrors.finishTransaction (h : c.Mirrors M d) (t : Handle) :
    (c.finishTransaction t).Mirrors M (d.finishTransaction t) := by
  have ht : d.transactions = c.transactions := by obtain ⟨l, qs, rfl, -⟩ := h; rfl
  cases hx : c.transactions[t]? with
  | none => rwa [finishTransaction_of_none hx, finishTransaction_of_none (by rw [ht, hx])]
  | some x =>
    rw [finishTransaction_of_some hx, finishTransaction_of_some (by rw [ht, hx])]
    exact (h.modifyTransaction t _).relink (M.failTransaction h.link x.id)

theorem Mirrors.endSession (h : c.Mirrors M d) (s : Handle) (y : Session) :
    (c.endSession s y).Mirrors M (d.endSession s y) :=
  (h.modifySession s _).relink (M.ran_all (M.failSession h.link y.id) y.callbacks)

theorem Mirrors.conclude (h : c.Mirrors M d) (e : Errand) (r : Except Failure Response) :
    Agree M (c.conclude e r) (d.conclude e r) := by
  have hfinish := h.finishTransaction
  obtain ⟨l, qs, rfl, hl, hq⟩ := h
  unfold Client.conclude
  split
  case h_3 =>
    dsimp only
    split <;> exact ⟨rfl, l, qs, rfl, hl, hq⟩
  case h_9 => exact (hfinish _).replying _
  all_goals exact ⟨rfl, l, qs, rfl, hl, hq⟩

theorem Mirrors.run (h : c.Mirrors M d) (e : Errand) (o : Owner) (request : Request) :
    Agree M (c.run e o request) (d.run e o request) := by
  obtain ⟨res, l₁, l₁', heq, heq', h₁⟩ := M.request h.link o request
  unfold Client.run
  rw [heq, heq']
  cases res with
  | ok i => exact (h.relink h₁).wait _
  | error f => exact (h.relink h₁).conclude e _

section

variable {c' d' : Client α} (h : c.Mirrors M d) (hended : c'.Mirrors M d') (isOpen reports : Bool)
include h hended

theorem Mirrors.closing (e : Errand) (o : Owner) (request : Request) :
    Agree M (c.closing c' isOpen reports e o request) (d.closing d' isOpen reports e o request) := by
  unfold Client.closing
  split
  · exact h.replying _
  · split
    · exact hended.run ..
    · exact hended.replying _

theorem Mirrors.quitting (o : Owner) (request : Request) :
    (c.quitting c' isOpen reports o request).Mirrors M (d.quitting d' isOpen reports o request) := by
  unfold Client.quitting
  split
  · exact h
  · split
    · exact hended.relink (M.post hended.link o request)
    · exact hended

end

theorem Mirrors.sessionFlag (h : c.Mirrors M d) (s : Handle) : d.sessionFlag s = c.sessionFlag s := by
  obtain ⟨l, qs, rfl, -⟩ := h
  rfl

theorem Mirrors.reportsClose (h : c.Mirrors M d) (x : Transaction) :
    d.reportsClose x = c.reportsClose x := by
  unfold Client.reportsClose
  rw [h.sessionFlag, h.isOpen]

theorem Mirrors.ensureOpen (h : c.Mirrors M d) (x : Transaction) :
    d.ensureOpen x = c.ensureOpen x := by
  unfold Client.ensureOpen
  rw [h.sessionFlag, h.isOpen]

theorem Mirrors.closeSession (h : c.Mirrors M d) (s : Handle) (y : Session) :
    Agree M (c.closeSession s y) (d.closeSession s y) := by
  have hended := h.endSession s y
  rw [closeSession_eq, closeSession_eq, hended.isOpen]
  exact h.closing hended ..

theorem Mirrors.dropSession (h : c.Mirrors M d) (s : Handle) (y : Session) :
    (c.dropSession s y).Mirrors M (d.dropSession s y) := by
  have hgiven := h.modifySession s ({ · with held := false })
  have hended := hgiven.endSession s y
  rw [dropSession_eq, dropSession_eq, hended.isOpen]
  exact (hgiven.quitting hended ..).release

theorem Mirrors.closeTransaction (h : c.Mirrors M d) (t : Handle) (x : Transaction) :
    Agree M (c.closeTransaction t x) (d.closeTransaction t x) := by
  have hended := h.finishTransaction t
  rw [closeTransaction_eq, closeTransaction_eq, hended.reportsClose]
  exact h.closing hended ..

theorem Mirrors.dropTransaction (h : c.Mirrors M d) (t : Handle) (x : Transaction) :
    (c.dropTransaction t x).Mirrors M (d.dropTransaction t x) := by
  have hgiven := h.modifyTransaction t ({ · with held := false })
  have hended := hgiven.finishTransaction t
  rw [dropTransaction_eq, dropTransaction_eq, hended.reportsClose]
  exact (hgiven.quitting hended ..).release

/-! ### Queries -/

theorem Mirrors.openQuery (h : c.Mirrors M d) (x : Transaction) (text : Payload)
    (options : QueryOptions) (reader : Reader α) :
    Agree M (c.openQuery x text options reader) (d.openQuery x text options reader) := by
  unfold Client.openQuery
  rw [h.ensureOpen]
  split
  · exact h.replying _
  · have hlane : d.link.openLane.1 = c.link.openLane.1 :=
      congrArg (fun n => UInt64.ofNat (n + 1)) (M.issued h.link)
    obtain ⟨res, l₁, l₁', heq, heq', h₁⟩ := M.dispatch (M.openLane h.link) c.link.openLane.1 x.owner
      (.fetch x.id (.first text options))
    dsimp only
    rw [hlane, heq, heq']
    cases res with
    | ok i =>
      obtain ⟨l, qs, rfl, -, hq⟩ := h
      dsimp only
      rw [M.length hq]
      exact (mirrors_of h₁ (M.concat hq _) c).replying _
    | error f => exact (h.relink h₁).replying _

theorem Mirrors.dropQuery (h : c.Mirrors M d) {i : Handle} (hi : M.Same i) (q : Query α) :
    (c.dropQuery i q).Mirrors M (d.dropQuery i q) :=
  ((h.setQuery hi { q with held := false }).relink (M.dropInbox h.link q.inbox)).release

section

variable (h : c.Mirrors M d) {i : Handle} (hi : M.Same i) (q : Query α)
include h hi

theorem Mirrors.failing (demand : Demand α) (e : Failure) :
    Agree M (c.failing i q demand e) (d.failing i q demand e) := by
  rw [failing_eq, failing_eq]
  exact (h.setQuery hi _).replying _

theorem Mirrors.beginPull (demand : Demand α) :
    Agree M (c.beginPull i q demand) (d.beginPull i q demand) := by
  unfold Client.beginPull
  split
  · exact h.replying _
  · exact h.failing hi ..
  · exact h.wait _

theorem Mirrors.beginStart (bound : Option Nat) (drain : Bool) :
    Agree M (c.beginStart i q bound drain) (d.beginStart i q bound drain) := by
  unfold Client.beginStart
  split
  · exact h.wait _
  · exact h.replying _
  · split
    · exact h.beginPull hi ..
    · exact h.replying _

theorem Mirrors.fetchMore (token : UInt64) (demand : Demand α) :
    Agree M (c.fetchMore i q token demand) (d.fetchMore i q token demand) := by
  obtain ⟨res, l₁, l₁', heq, heq', h₁⟩ := M.dispatch h.link q.lane q.owner
    (.fetch q.transaction (.continuation token q.options))
  unfold Client.fetchMore
  rw [heq, heq']
  cases res with
  | ok j => exact ((h.relink (M.dropInbox h₁ q.inbox)).setQuery hi { q with inbox := j }).wait _
  | error f => exact (h.relink h₁).failing hi ..

theorem Mirrors.pulled (demand : Demand α) (r : Delivery) :
    Agree M (c.pulled i q demand r) (d.pulled i q demand r) := by
  unfold Client.pulled
  split
  · exact h.failing hi ..
  · split
    · split
      · exact (h.setQuery hi _).wait _
      · exact (h.setQuery hi _).replying _
      · exact (h.setQuery hi _).replying _
    · exact h.failing hi ..
    · exact h.fetchMore hi ..
    · exact (h.setQuery hi _).replying _
    · exact h.failing hi ..

theorem Mirrors.started (drain : Bool) (r : Delivery) :
    Agree M (c.started i q drain r) (d.started i q drain r) := by
  unfold Client.started
  split
  · split
    · exact (h.setQuery hi _).wait _
    · exact (h.setQuery hi _).replying _
  · exact h.replying _
  · exact (h.setQuery hi _).replying _

end

/-! ### Calls -/

theorem Mirrors.clones (h : c.Mirrors M d) : d.clones = c.clones := by
  obtain ⟨l, qs, rfl, -⟩ := h
  rfl

theorem Mirrors.cloned (h : c.Mirrors M d) (n : Nat) :
    Mirrors M { c with clones := n } { d with clones := n } := by
  obtain ⟨l, qs, rfl, hl, hq⟩ := h
  exact mirrors_of hl hq { c with clones := n }

theorem Mirrors.session? (h : c.Mirrors M d) (s : Handle) : d.session? s = c.session? s := by
  obtain ⟨l, qs, rfl, -⟩ := h
  rfl

theorem Mirrors.transaction? (h : c.Mirrors M d) (t : Handle) :
    d.transaction? t = c.transaction? t := by
  obtain ⟨l, qs, rfl, -⟩ := h
  rfl

theorem Mirrors.query? (h : c.Mirrors M d) {i : Handle} (hi : M.Same i) :
    d.query? i = c.query? i :=
  congrArg (·.filter (·.held)) (M.get h.queries hi)

section

variable (h : c.Mirrors M d) (hw : c.waiting = none) {k : Call α}
include h hw

theorem Mirrors.callClient (ha : k.ask? = none) (hs : k.session? = none)
    (ht : k.transaction? = none) : Agree M (c.call k) (d.call k) := by
  have hw' := h.waiting.trans hw
  cases k with
  | clone =>
    rw [call_clone hw, call_clone hw', h.clones]
    split
    · exact h.replying _
    · exact (h.cloned _).replying _
  | dropClient =>
    rw [call_dropClient hw, call_dropClient hw', h.clones]
    split
    · exact h.replying _
    · exact (h.cloned _).release.replying _
  | close =>
    obtain ⟨l, qs, rfl, hl, hq⟩ := id h
    rw [call_close hw, call_close hw']
    dsimp only
    split
    · exact h.replying _
    · exact (mirrors_of (M.close hl) hq c).replying _
  | openSession database kind =>
    rw [call_openSession hw, call_openSession hw', h.clones, h.isOpen]
    split
    · exact h.replying _
    · split
      · exact h.replying _
      · exact h.run ..
  | onClose | closeSession | dropSession | openTransaction => cases hs
  | commit | rollback | closeTransaction | dropTransaction | query => cases ht
  | start | collect | nextAnswer | next | dropQuery => cases ha

theorem Mirrors.callSession {s : Handle} (hs : k.session? = some s) :
    Agree M (c.call k) (d.call k) := by
  have hw' := h.waiting.trans hw
  have hsame := h.session? s
  cases hy : c.session? s with
  | none =>
    rw [call_of_no_session hw hs hy, call_of_no_session hw' hs (hsame.trans hy)]
    exact h.replying _
  | some y =>
    have hy' := hsame.trans hy
    cases k with
    | openTransaction s' kind =>
      cases hs
      rw [call_openTransaction hw hy, call_openTransaction hw' hy', h.isOpen]
      split
      · exact h.replying _
      · split
        · exact h.replying _
        · exact h.run ..
    | onClose s' label =>
      cases hs
      rw [call_onClose hw hy, call_onClose hw' hy']
      exact (h.modifySession ..).replying _
    | closeSession s' =>
      cases hs
      rw [call_closeSession hw hy, call_closeSession hw' hy']
      exact h.closeSession ..
    | dropSession s' =>
      cases hs
      rw [call_dropSession hw hy, call_dropSession hw' hy']
      exact (h.dropSession ..).replying _
    | _ => cases hs

theorem Mirrors.callTransaction {t : Handle} (ht : k.transaction? = some t) :
    Agree M (c.call k) (d.call k) := by
  have hw' := h.waiting.trans hw
  have hsame := h.transaction? t
  cases hx : c.transaction? t with
  | none =>
    rw [call_of_no_transaction hw ht hx, call_of_no_transaction hw' ht (hsame.trans hx)]
    exact h.replying _
  | some x =>
    have hx' := hsame.trans hx
    have hopen := h.ensureOpen x
    cases k with
    | commit t' =>
      cases ht
      cases ho : c.ensureOpen x with
      | error e =>
        rw [call_commit_of_refused hw hx ho, call_commit_of_refused hw' hx' (hopen.trans ho)]
        exact h.replying _
      | ok u =>
        rw [call_commit hw hx ho, call_commit hw' hx' (hopen.trans ho)]
        exact h.run ..
    | rollback t' =>
      cases ht
      cases ho : c.ensureOpen x with
      | error e =>
        rw [call_rollback_of_refused hw hx ho, call_rollback_of_refused hw' hx' (hopen.trans ho)]
        exact h.replying _
      | ok u =>
        rw [call_rollback hw hx ho, call_rollback hw' hx' (hopen.trans ho)]
        exact h.run ..
    | closeTransaction t' =>
      cases ht
      rw [call_closeTransaction hw hx, call_closeTransaction hw' hx']
      exact h.closeTransaction ..
    | dropTransaction t' =>
      cases ht
      rw [call_dropTransaction hw hx, call_dropTransaction hw' hx']
      exact (h.dropTransaction ..).replying _
    | query t' text options reader =>
      cases ht
      rw [call_query hw hx, call_query hw' hx']
      exact h.openQuery ..
    | _ => cases ht

theorem Mirrors.callQuery {i : Handle} {a : Ask} (ha : k.ask? = some (i, a)) (hi : M.Same i) :
    Agree M (c.call k) (d.call k) := by
  have hw' := h.waiting.trans hw
  have hsame := h.query? hi
  cases hq : c.query? i with
  | none =>
    rw [call_of_gone hw ha hq, call_of_gone hw' ha (hsame.trans hq)]
    exact h.replying _
  | some q =>
    have hq' := hsame.trans hq
    cases k with
    | start i' bound =>
      cases ha
      rw [call_start hw hq, call_start hw' hq']
      exact h.beginStart hi ..
    | collect i' bound =>
      cases ha
      rw [call_collect hw hq, call_collect hw' hq']
      exact h.beginStart hi ..
    | nextAnswer i' =>
      cases ha
      rw [call_nextAnswer hw hq, call_nextAnswer hw' hq']
      exact h.beginPull hi ..
    | next i' =>
      cases ha
      rw [call_next hw hq, call_next hw' hq']
      split
      · exact h.replying _
      · exact h.beginPull hi ..
    | dropQuery i' =>
      cases ha
      rw [call_dropQuery hw hq, call_dropQuery hw' hq']
      exact (h.dropQuery hi _).replying _
    | _ => cases ha

end

/-! ### Moves -/

theorem Mirrors.call (h : c.Mirrors M d) {k : Call α}
    (hk : c.waiting = none → ∀ i a, k.ask? = some (i, a) → M.Same i) :
    Agree M (c.call k) (d.call k) := by
  cases hw : c.waiting with
  | some w =>
    rw [call_of_waiting hw, call_of_waiting (h.waiting.trans hw)]
    exact h.idle
  | none =>
    cases ha : k.ask? with
    | some x => exact h.callQuery hw ha (hk hw x.1 x.2 ha)
    | none =>
      cases hs : k.session? with
      | some s => exact h.callSession hw hs
      | none =>
        cases ht : k.transaction? with
        | some t => exact h.callTransaction hw ht
        | none => exact h.callClient hw ha hs ht

/-- What a wait is for is the same on both sides. -/
def ReadsAlike (M : Mirror α) (c : Client α) : Wait α → Prop
  | .errand _ i => M.Read i
  | .start i _ _ | .pull i _ => M.Same i ∧ ∀ q, c.queries[i]? = some q → M.Read q.inbox

section

variable (h : c.Mirrors M d) (hw : ∀ w, c.waiting = some w → c.ReadsAlike M w)
include h hw

theorem Mirrors.resume : Agree M c.resume d.resume := by
  obtain ⟨l, qs, rfl, hl, hq⟩ := id h
  unfold Client.resume
  dsimp only
  split <;> rename_i hwait
  · exact h.idle
  · rename_i e i
    rcases M.poll hl (hw _ hwait) with ⟨hn, hn'⟩ | ⟨x, r, r', hr, hr', hl'⟩
    · rw [hn, hn']
      exact h.idle
    · rw [hr, hr']
      exact (h.relink (M.dropInbox hl' i)).conclude e x
  · obtain ⟨hsame, hread⟩ := hw _ hwait
    rw [M.get hq hsame]
    split <;> rename_i hget
    · exact h.idle
    · rename_i q
      rcases M.poll hl (hread q hget) with ⟨hn, hn'⟩ | ⟨x, r, r', hr, hr', hl'⟩
      · rw [hn, hn']
        exact h.idle
      · rw [hr, hr']
        exact (h.relink hl').started hsame ..
  · obtain ⟨hsame, hread⟩ := hw _ hwait
    rw [M.get hq hsame]
    split <;> rename_i hget
    · exact h.idle
    · rename_i q
      rcases M.pollQuery hl (hread q hget) with ⟨hn, hn'⟩ | ⟨x, q', r, r', hr, hr', hl'⟩
      · rw [hn, hn']
        exact h.idle
      · rw [hr, hr']
        exact (h.relink hl').pulled hsame ..

theorem Mirrors.isReady : d.isReady = c.isReady := by
  have hpoll {i : Nat} (hi : M.Read i) :
      (d.link.router.poll i).isSome = (c.link.router.poll i).isSome := by
    rcases M.poll h.link hi with ⟨hn, hn'⟩ | ⟨x, r, r', hr, hr', -⟩
    · rw [hn, hn']
    · rw [hr, hr']
      rfl
  unfold Client.isReady
  rw [h.waiting]
  split <;> rename_i hwait
  · rfl
  · exact hpoll (hw _ hwait)
  · rename_i i _ _
    obtain ⟨hsame, hread⟩ := hw _ hwait
    rw [M.get h.queries hsame]
    cases hq : c.queries[i]? with
    | none => rfl
    | some q => exact hpoll (hread q hq)
  · rename_i i _
    obtain ⟨hsame, hread⟩ := hw _ hwait
    rw [M.get h.queries hsame]
    cases hq : c.queries[i]? with
    | none => rfl
    | some q =>
      rw [Option.any_some, Option.any_some]
      rcases M.pollQuery h.link (hread q hq) with ⟨hn, hn'⟩ | ⟨x, q', r, r', hr, hr', -⟩
      · rw [hn, hn']
      · rw [hr, hr']
        rfl

omit hw in
theorem Mirrors.giveUp : Agree M c.giveUp d.giveUp := by
  obtain ⟨l, qs, rfl, hl, hq⟩ := id h
  unfold Client.giveUp
  dsimp only
  split
  · exact (h.relink (M.dropInbox hl _)).conclude ..
  · exact h.replying _
  · exact h.idle
  · exact h.idle

theorem Mirrors.expire : Agree M c.expire d.expire := by
  have hbound : d.bound? = c.bound? := by obtain ⟨l, qs, rfl, -⟩ := h; rfl
  unfold Client.expire
  rw [h.isReady hw, hbound]
  split
  · exact h.resume hw
  · split
    · exact h.giveUp
    · exact h.idle

end

/-- **Clients that mirror one another take a move alike**, if what it reads is the same on both
sides. -/
theorem Mirrors.step (h : c.Mirrors M d) {m : Move α}
    (hk : ∀ k, m = .call k → c.waiting = none → ∀ i a, k.ask? = some (i, a) → M.Same i)
    (hw : m = .resume ∨ m = .expire → ∀ w, c.waiting = some w → c.ReadsAlike M w) :
    Agree M (c.step m) (d.step m) := by
  cases m with
  | call k => exact h.call (hk k rfl)
  | arrive f => exact (h.relink (M.receive h.link f)).idle
  | lose => exact (h.relink (M.close h.link)).idle
  | resume => exact h.resume (hw (.inl rfl))
  | expire => exact h.expire (hw (.inr rfl))

end Client

end QueryLanes
