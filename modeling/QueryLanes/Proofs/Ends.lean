import QueryLanes.Proofs.Outcomes
import QueryLanes.Proofs.Solo
import QueryLanes.Proofs.Wiring

/-!
# Ends

What becomes of the line of a query when something else happens: another request is sent, a
transaction or a session ends, the link closes. `Link.Turns` says it for the operations of a link,
for all lines at once, and `Client.toll` for a step of the client, from which owners have ended in
it.
-/

namespace QueryLanes

variable {α : Type}

/-! ## Turns -/

namespace Link

/-- The second link keeps what was sound and wired in the first, and `turn` says what became of the
line of each owner. -/
structure Turns (l l' : Link) (turn : Owner → Line → Line) : Prop where
  keeps : l.Extends l'
  line : l'.issued ≤ 2 ^ 64 → l.Sound →
    ∀ {lane i o}, l.Wired lane i o → l'.line lane i = turn o (l.line lane i)

variable {l l' l'' : Link} {f g : Owner → Line → Line}

theorem Turns.refl (l : Link) : l.Turns l fun _ x => x := ⟨.refl l, fun _ _ _ _ _ _ => rfl⟩

theorem Turns.trans (h : l.Turns l' f) (h' : l'.Turns l'' g) :
    l.Turns l'' fun o x => g o (f o x) where
  keeps := h.keeps.trans h'.keeps
  line hb hs lane i o hw := by
    have hb' := Nat.le_trans h'.keeps.issued_le hb
    rw [h'.line hb (h.keeps.sound hb' hs) (h.keeps.wired hb' hs hw), h.line hb' hs hw]

theorem turns_request (l : Link) (o : Owner) (request : Request) :
    l.Turns (l.request o request).2 fun _ x => x :=
  ⟨extends_request l o request, fun hb hs _ _ _ hw => hw.line_request hs hb⟩

theorem turns_post (l : Link) (o : Owner) (request : Request) :
    l.Turns (l.post o request) fun _ x => x :=
  ⟨extends_post l o request, fun hb hs _ _ _ hw => hw.line_post hs hb⟩

theorem turns_failTransaction (l : Link) (id : UInt64) : l.Turns (l.failTransaction id)
    fun o x => if o.transaction == some id then x.strike .transactionClosed else x := by
  rw [failTransaction_eq]
  exact ⟨extends_fail l (·.transaction == some id) _, fun _ hs _ _ _ hw =>
    hw.line_fail hs (·.transaction == some id) _⟩

theorem turns_failSession (l : Link) (id : UInt64) : l.Turns (l.failSession id)
    fun o x => if o.session == some id then x.strike .sessionClosed else x := by
  rw [failSession_eq]
  exact ⟨extends_fail l (·.session == some id) _, fun _ hs _ _ _ hw =>
    hw.line_fail hs (·.session == some id) _⟩

theorem turns_ran_all (l : Link) (labels : List String) :
    l.Turns (labels.foldl (fun l label => l.record (.ran label)) l) fun _ x => x :=
  ⟨(extends_ran_all l labels).1, fun _ _ _ _ _ _ => (extends_ran_all l labels).2 _ _⟩

theorem turns_close (l : Link) : l.Turns l.close fun _ x => x.lose :=
  ⟨extends_close l, fun _ hs _ _ _ hw => hw.line_close hs⟩

/-! ### Fresh inboxes -/

/-- The lane that was given out last. -/
def lastLane (l : Link) : Lane := UInt64.ofNat l.issued

/-- Nothing of the line's only wave was polled yet, and it was not lost before the link was. -/
structure Unread (x : Line) : Prop where
  queue : ∃ w b, x.waves = [w] ∧ x.inbox = some b ∧ b.queue = w.deliveries
  candid : x.Candid

theorem Unread.hear {x : Line} (h : Unread x) (r : Response) : Unread (x.hear r) := by
  refine ⟨?_, h.candid.hear r⟩
  obtain ⟨w, b, hw, hb, hq⟩ := h.queue
  cases ho : w.isOver with
  | true =>
    rw [Line.hear_of_not_live (by simp [Line.isLive, Wave.ongoing, hw, ho])]
    exact ⟨w, b, hw, hb, hq⟩
  | false =>
    rw [Line.hear_of_live (show x.waves = [] ++ [w] from hw) ho]
    exact ⟨w.hear r, b.push (.ok r), rfl, by simp [hb], by simp [ho, hq]⟩

theorem Unread.strike {x : Line} (h : Unread x) {e : Failure}
    (hne : e = .connectionClosed → x.isOpen = false) : Unread (x.strike e) := by
  refine ⟨?_, h.candid.strike hne⟩
  obtain ⟨w, b, hw, hb, hq⟩ := h.queue
  cases ho : w.isOver with
  | true =>
    rw [Line.strike_of_not_live (by simp [Line.isLive, Wave.ongoing, hw, ho])]
    exact ⟨w, b, hw, hb, hq⟩
  | false =>
    rw [Line.strike_of_live (show x.waves = [] ++ [w] from hw) ho]
    exact ⟨w.strike e, b.push (.error e), rfl, by simp [hb], by simp [ho, hq]⟩

theorem Unread.lose {x : Line} (h : Unread x) : Unread x.lose := by
  have h' : Unread ({ x with isOpen := false } : Line) := ⟨h.queue, Line.candid_of_closed rfl⟩
  have hx : x.lose = Line.strike { x with isOpen := false } .connectionClosed := by
    unfold Line.lose Line.strike Line.isLive
    dsimp only
    split <;> rfl
  rw [hx]
  exact h'.strike fun _ => rfl

/-- A request was sent between the two links, and `i` is the number of the inbox it was given. -/
structure Fresh (l l' : Link) (o : Owner) (request : Request) (i : Nat) : Prop where
  wired : l'.Wired l'.lastLane i o
  line : l'.line l'.lastLane i = ⟨true, [{ request := request }], some {}⟩
  apart : ∀ {lane j o'}, l.Wired lane j o' → lane ≠ l'.lastLane ∧ j ≠ i

variable {o : Owner} {request : Request} {i : Nat}

theorem Fresh.unread (h : l.Fresh l' o request i) : Unread (l'.line l'.lastLane i) := by
  rw [h.line]
  exact ⟨⟨_, _, rfl, rfl, rfl⟩, by simp [Line.Candid]⟩

theorem Fresh.of_extends (h : l'.Fresh l'' o request i)
    (hx : ∀ {lane j o'}, l.Wired lane j o' → l'.Wired lane j o') : l.Fresh l'' o request i where
  wired := h.wired
  line := h.line
  apart hw := h.apart (hx hw)

theorem lastLane_request (l : Link) (o : Owner) (request : Request) :
    (l.request o request).2.lastLane = l.nextLane := by
  rw [lastLane, issued_request]
  rfl

theorem Sound.fresh_request (hs : l.Sound) (ho : l.isOpen = true) (o : Owner) (request : Request)
    (hb : (l.request o request).2.issued ≤ 2 ^ 64) :
    (l.request o request).1 = .ok l.router.inboxes.length ∧
      l.Fresh (l.request o request).2 o request l.router.inboxes.length := by
  have hl := lastLane_request l o request
  rw [issued_request] at hb
  rw [hs.request_eq, ho, if_pos rfl] at hl ⊢
  have hs' := (extends_openLane l).sound hb hs
  refine ⟨rfl, ?_, ?_, fun hw => ?_⟩
  · rw [hl]
    exact hs'.wired_launch (issued_nextLane l) o request
  · have hn : l.openLane.2.waves l.nextLane = [] :=
      hs.unissued _ (not_issued_of_le (Nat.le_refl _) hb)
    have h := line_launch_self (l := l.openLane.2) l.nextLane o request 0
    rw [show l.openLane.2.router.inboxes.length = l.router.inboxes.length from rfl] at h
    rw [hl, h, Line.renew, line, hn, show l.openLane.2.isOpen = l.isOpen from rfl, ho]
    rfl
  · have := hw.inbox_lt
    rw [hl]
    exact ⟨(hw.nextLane_ne hb).symm, by omega⟩

/-! ### Whether the link is open -/

@[simp] theorem isOpen_dispatch (l : Link) (lane : Lane) (o : Owner) (request : Request) :
    (l.dispatch lane o request).2.isOpen = l.isOpen := by
  unfold dispatch
  split
  · rfl
  · simp only [send]
    split <;> rename_i h
    · split at h
      · cases h; rfl
      · cases h
    · rfl

@[simp] theorem isOpen_request (l : Link) (o : Owner) (request : Request) :
    (l.request o request).2.isOpen = l.isOpen := isOpen_dispatch _ _ _ _

@[simp] theorem isOpen_post (l : Link) (o : Owner) (request : Request) :
    (l.post o request).isOpen = l.isOpen := by
  rw [← isOpen_request l o request]
  obtain ⟨l', hl, h | ⟨i, -, h⟩⟩ := post_eq (l := l) o request <;> rw [h, hl]
  rfl

@[simp] theorem isOpen_failTransaction (l : Link) (id : UInt64) :
    (l.failTransaction id).isOpen = l.isOpen := rfl

@[simp] theorem isOpen_failSession (l : Link) (id : UInt64) :
    (l.failSession id).isOpen = l.isOpen := rfl

@[simp] theorem isOpen_ran_all (l : Link) (labels : List String) :
    (labels.foldl (fun l label => l.record (.ran label)) l).isOpen = l.isOpen := by
  induction labels generalizing l with
  | nil => rfl
  | cons label labels ih => exact ih _

end Link

/-! ## Owners that have ended -/

namespace Client

section

variable {β : Type} {isOpen own : β → Bool} {xs ys : List β}

theorem ended_iff : ended isOpen own xs ys = true ↔ ∃ (k : Nat) (x y : β), xs[k]? = some x ∧
    ys[k]? = some y ∧ isOpen x = true ∧ isOpen y = false ∧ own x = true := by
  simp only [ended, List.any_eq_true, Bool.and_eq_true, Bool.not_eq_true']
  constructor
  · rintro ⟨⟨x, y⟩, hm, ⟨hx, hy⟩, ho⟩
    obtain ⟨k, hk⟩ := List.mem_iff_getElem?.1 hm
    obtain ⟨hkx, hky⟩ := List.getElem?_zip_eq_some.1 hk
    exact ⟨k, x, y, hkx, hky, hx, hy, ho⟩
  · rintro ⟨k, x, y, hkx, hky, hx, hy, ho⟩
    exact ⟨(x, y), List.mem_iff_getElem?.2 ⟨k, List.getElem?_zip_eq_some.2 ⟨hkx, hky⟩⟩, ⟨hx, hy⟩, ho⟩

/-- Nothing has ended when all that was open still is. -/
theorem ended_eq_false (h : ∀ (k : Nat) (x y : β), xs[k]? = some x → ys[k]? = some y →
    isOpen x = true → isOpen y = true) : ended isOpen own xs ys = false := by
  rw [Bool.eq_false_iff, ne_eq, ended_iff]
  rintro ⟨k, x, y, hx, hy, hxo, hyo, -⟩
  rw [h k x y hx hy hxo] at hyo
  cases hyo

@[simp] theorem ended_self : ended isOpen own xs xs = false :=
  ended_eq_false fun k x y hx hy ho => by rw [hx] at hy; cases hy; exact ho

@[simp] theorem ended_append : ended isOpen own xs (xs ++ ys) = false :=
  ended_eq_false fun k x y hx hy ho => by
    rw [List.getElem?_append_left (List.getElem?_eq_some_iff.1 hx).1, hx] at hy
    cases hy
    exact ho

theorem ended_modify_keep {t : Nat} {f : β → β} (hf : ∀ x, isOpen x = true → isOpen (f x) = true) :
    ended isOpen own xs (xs.modify t f) = false :=
  ended_eq_false fun k x y hx hy ho => by
    rw [List.getElem?_modify, hx] at hy
    cases hy
    dsimp only
    split
    · exact hf x ho
    · exact ho

/-- When one owner ends, it is told to those that it owns. -/
theorem ended_modify {t : Nat} {f : β → β} {x : β} (ht : xs[t]? = some x) (ho : isOpen x = true)
    (hf : isOpen (f x) = false) : ended isOpen own xs (xs.modify t f) = own x := by
  rw [Bool.eq_iff_iff, ended_iff]
  constructor
  · rintro ⟨k, y, z, hy, hz, hyo, hzo, hown⟩
    rw [List.getElem?_modify, hy] at hz
    cases hz
    dsimp only at hzo
    split at hzo
    · rename_i hk
      subst hk
      rw [ht] at hy
      cases hy
      exact hown
    · rw [hyo] at hzo
      cases hzo
  · intro hown
    refine ⟨t, x, f x, ht, ?_, ho, hf, hown⟩
    rw [List.getElem?_modify, ht]
    simp

end

variable {c c₁ c' : Client α}

/-- What the ends between two states do to the line of an owner. -/
def toll (c c' : Client α) (o : Owner) (x : Line) : Line :=
  let x := if endsTransaction c c' o then x.strike .transactionClosed else x
  let x := if endsSession c c' o then x.strike .sessionClosed else x
  if c.link.isOpen && !c'.link.isOpen then x.lose else x

theorem isLive_toll {o : Owner} (h : c.endsTransaction c' o = true ∨ c.endsSession c' o = true)
    (x : Line) : (c.toll c' o x).isLive = false := by
  have hstruck : (if endsSession c c' o then
      (if endsTransaction c c' o then x.strike .transactionClosed else x).strike .sessionClosed
      else if endsTransaction c c' o then x.strike .transactionClosed else x).isLive = false := by
    rcases h with h | h <;> rw [h]
    · split <;> exact Line.isLive_strike _ _
    · exact Line.isLive_strike _ _
  unfold toll
  dsimp only
  split
  · exact Line.isLive_strike _ .connectionClosed
  · exact hstruck

theorem isOpen_toll {x : Line} (hx : x.isOpen = false) (o : Owner) :
    (c.toll c' o x).isOpen = false := by
  unfold toll
  dsimp only
  split
  · rfl
  · split <;> split <;> simp [hx]

/-- A line on which nothing is going on feels no end but that of the link. -/
theorem toll_of_not_live {x : Line} (hx : x.isLive = false) (ho : c'.link.isOpen = c.link.isOpen)
    (o : Owner) : c.toll c' o x = x := by
  have hno : (c.link.isOpen && !c'.link.isOpen) = false := by
    rw [ho]
    exact Bool.and_not_self _
  unfold toll
  rw [Line.strike_of_not_live hx]
  simp only [ite_self, Line.strike_of_not_live hx, hno, Bool.false_eq_true, if_false]

theorem acts_ends (o : Owner) (s : Solo α) :
    s.acts (c.ends c' o) = ({ s with line := c.toll c' o s.line }, []) := by
  unfold ends toll
  cases endsTransaction c c' o <;> cases endsSession c c' o <;>
    cases (c.link.isOpen && !c'.link.isOpen) <;> rfl

theorem toll_congr (ht : c'.transactions = c₁.transactions) (hs : c'.sessions = c₁.sessions)
    (ho : c'.link.isOpen = c₁.link.isOpen) : c.toll c' = c.toll c₁ := by
  funext o x
  unfold toll endsTransaction endsSession
  rw [ht, hs, ho]

/-! ## Quiet steps -/

/-- No query takes part in what leads from one state to the other: their lines feel the ends of
their owners and nothing else. -/
structure Quiet (c c' : Client α) : Prop where
  queries : c'.queries = c.queries
  turns : c.link.Turns c'.link (c.toll c')

theorem quiet_of_none_ended (hq : c'.queries = c.queries) (hl : c'.link = c.link)
    (ht : ∀ own, ended (·.isOpen) own c.transactions c'.transactions = false)
    (hs : ∀ own, ended (·.isOpen) own c.sessions c'.sessions = false) : c.Quiet c' where
  queries := hq
  turns := by
    have htoll : c.toll c' = fun _ x => x := by
      funext o x
      simp [toll, endsTransaction, endsSession, ht, hs, hl]
    rw [htoll, hl]
    exact .refl _

theorem quiet_of_same (hq : c'.queries = c.queries) (hl : c'.link = c.link)
    (ht : c'.transactions = c.transactions) (hs : c'.sessions = c.sessions) : c.Quiet c' :=
  quiet_of_none_ended hq hl (fun _ => by rw [ht, ended_self]) fun _ => by rw [hs, ended_self]

theorem Quiet.refl (c : Client α) : c.Quiet c := quiet_of_same rfl rfl rfl rfl

theorem Quiet.link (h : c.Quiet c₁) {l : Link} (hl : c₁.link.Turns l fun _ x => x)
    (ho : l.isOpen = c₁.link.isOpen) : c.Quiet { c₁ with link := l } where
  queries := h.queries
  turns := by
    have htoll : c.toll { c₁ with link := l } = c.toll c₁ := toll_congr rfl rfl ho
    rw [htoll]
    exact h.turns.trans hl

theorem Quiet.replying (h : c.Quiet c') (r : Reply α) : c.Quiet (c'.replying r).1 where
  queries := h.queries
  turns := h.turns

theorem quiet_close (ht : c'.transactions = c.transactions) (hs : c'.sessions = c.sessions)
    (hq : c'.queries = c.queries) (hl : c'.link = c.link.close) : c.Quiet c' where
  queries := hq
  turns := by
    have ho : c'.link.isOpen = false := by rw [hl, Link.isOpen_close]
    have htoll : c.toll c' = fun _ x => if c.link.isOpen then x.lose else x := by
      funext o x
      simp [toll, endsTransaction, endsSession, ht, hs, ho]
    rw [htoll, hl]
    cases hc : c.link.isOpen with
    | true => exact Link.turns_close _
    | false =>
      rw [Link.close_eq, hc]
      exact .refl _

/-- With the last handle the link is lost, and with no other one. -/
theorem Quiet.release (h : c.Quiet c₁) (ho : c₁.link.isOpen = c.link.isOpen) :
    c.Quiet c₁.release := by
  rcases release_cases c₁ with heq | heq <;> rw [heq]
  · exact h
  · refine ⟨h.queries, ?_⟩
    show c.link.Turns c₁.link.close _
    have htoll : c.toll { c₁ with link := c₁.link.close } =
        fun o x => if c₁.link.isOpen then (c.toll c₁ o x).lose else c.toll c₁ o x := by
      funext o x
      cases hc : c.link.isOpen <;> rw [hc] at ho <;>
        simp only [toll, hc, ho, Link.isOpen_close] <;> rfl
    rw [htoll]
    cases hc : c₁.link.isOpen with
    | true => exact h.turns.trans (Link.turns_close _)
    | false =>
      rw [Link.close_eq, hc]
      exact h.turns

/-- A transaction ends, whatever else becomes of its record. -/
theorem quiet_endTransaction {t : Handle} {x : Transaction} (hx : c.transactions[t]? = some x)
    (ho : x.isOpen = true) {f : Transaction → Transaction} (hf : (f x).isOpen = false) :
    c.Quiet { c with
      transactions := c.transactions.modify t f
      link := c.link.failTransaction x.id } where
  queries := rfl
  turns := by
    have htoll : c.toll { c with
        transactions := c.transactions.modify t f
        link := c.link.failTransaction x.id } =
        fun o x' => if o.transaction == some x.id then x'.strike .transactionClosed else x' := by
      funext o x'
      simp [toll, endsTransaction, endsSession, ended_modify hx ho hf]
    rw [htoll]
    exact Link.turns_failTransaction _ _

/-- A session ends, whatever else becomes of its record, and its callbacks run. -/
theorem quiet_endSession {s : Handle} {x : Session} (hx : c.sessions[s]? = some x)
    (ho : x.isOpen = true) {f : Session → Session} (hf : (f x).isOpen = false)
    (labels : List String) :
    c.Quiet { c with
      sessions := c.sessions.modify s f
      link := labels.foldl (fun l label => l.record (.ran label)) (c.link.failSession x.id) } where
  queries := rfl
  turns := by
    have htoll : c.toll { c with
        sessions := c.sessions.modify s f
        link := labels.foldl (fun l label => l.record (.ran label)) (c.link.failSession x.id) } =
        fun o x' => if o.session == some x.id then x'.strike .sessionClosed else x' := by
      funext o x'
      simp [toll, endsTransaction, endsSession, ended_modify hx ho hf]
    rw [htoll]
    exact (Link.turns_failSession _ _).trans (Link.turns_ran_all _ _)

end Client

end QueryLanes
