import Mathlib
import QueryLanes.Proofs.Conservation

/-!
# Supply

Nobody waits for what cannot come. Whoever waits on an inbox, a query that is not over or an errand
in progress, has either a slot in the router that feeds this very inbox, or before it the delivery
that ends the wait. So an inbox that is empty and not fed is never polled, and that the connection is
closed is reported only when it is: `Client.supplied`.
-/

namespace QueryLanes

variable {α : Type}

/-! ## Candid replies -/

namespace Solo

variable {s : Solo α} {done : List Wave} {w : Wave} {read rest : List Payload}

theorem candid_ask (h : StandsAt s [] done w read rest) {k : Ask}
    (hr : (s.ask k).2 = some (.failed .connectionClosed)) : (s.ask k).1.line.isOpen = false := by
  have hasks := s.asks k
  generalize s.ask k = o at hasks hr ⊢
  cases hasks with
  | broken _ _ hp | failed _ _ hp =>
    cases hr
    exact h.blame hp
  | @ended _ demand => cases demand <;> cases hr
  | _ => cases hr

/-- That the connection is closed comes out of the inbox only when it is. -/
theorem closed_of_hand {e : Failure} (h : StandsAt s [.error e] done w read rest)
    (hheld : s.query.held = true) (hover : s.query.progress.isOver = false)
    (he : e = .connectionClosed) : s.line.isOpen = false := by
  subst he
  rcases h.taken hheld hover with ⟨p, rest', hd, -, -⟩ | ⟨-, hend, -⟩
  · cases hd
  · exact h.closed_of_ending hend

theorem candid_started {d : Delivery} (h : StandsAt s [d] done w read rest)
    (hheld : s.query.held = true) (hover : s.query.progress.isOver = false) (drain : Bool)
    (hr : (s.started drain d).2 = some (.failed .connectionClosed)) :
    (s.started drain d).1.line.isOpen = false := by
  have hhears := s.hears drain d
  generalize s.started drain d = o at hhears hr ⊢
  cases hhears with
  | failed =>
    cases hr
    show s.line.isOpen = false
    exact closed_of_hand h hheld hover rfl
  | _ => cases hr

theorem candid_pulled {d : Delivery} (h : StandsAt s [d] done w read rest)
    (hheld : s.query.held = true) (hover : s.query.progress.isOver = false)
    (hread : ∀ ps p, s.query.reader ps p ≠ .error .connectionClosed) (demand : Demand α)
    (hr : (s.pulled demand d).2 = some (.failed .connectionClosed)) :
    (s.pulled demand d).1.line.isOpen = false := by
  have hpulls := s.pulls demand d
  generalize s.pulled demand d = o at hpulls hr ⊢
  cases hpulls with
  | refused ha =>
    cases hr
    exact absurd ha (hread _ _)
  | unsent _ ho => exact ho
  | ended => cases demand <;> cases hr
  | failed he =>
    cases hr
    exact absurd rfl he
  | broken =>
    cases hr
    show s.line.isOpen = false
    exact closed_of_hand h hheld hover rfl
  | _ => cases hr

theorem candid_take (h : StandsAt s [] done w read rest)
    (hread : ∀ ps p, s.query.reader ps p ≠ .error .connectionClosed)
    (hr : s.take.2 = some (.failed .connectionClosed)) : s.take.1.line.isOpen = false := by
  rcases h.take_cases with htake | ⟨drain, d, line, htake, -, hheld, hpend, h'⟩ |
    ⟨demand, d, s', htake, hp, -, -, h', hheld', hover'⟩ <;> rw [htake] at hr ⊢
  · cases hr
  · exact candid_started h' hheld (by dsimp only; rw [hpend]; rfl) drain hr
  · exact candid_pulled h' hheld' hover' (by rwa [reader_poll hp]) demand hr

/-- That the connection is closed is reported only when it is. -/
theorem candid_act (h : Stands s) (hread : ∀ ps p, s.query.reader ps p ≠ .error .connectionClosed)
    {a : Act} (hr : (s.act a).2 = some (.failed .connectionClosed)) :
    (s.act a).1.line.isOpen = false := by
  obtain ⟨done, w, read, rest, h⟩ := h
  cases a with
  | ask k => exact candid_ask h hr
  | take => exact candid_take h hread hr
  | giveUp =>
    have hr : s.giveUp.2 = some (.failed .connectionClosed) := hr
    rcases s.giveUp_cases with hgive | ⟨-, -, -, hgive⟩ <;> rw [hgive] at hr <;> cases hr
  | heard r => cases hr
  | transactionEnded => cases hr
  | sessionEnded => cases hr
  | lost => cases hr

end Solo

/-! ## Supply -/

/-- Whether the delivery ends a wait. -/
def Delivery.isLast : Delivery → Bool
  | .ok r => r.isTerminal
  | .error _ => true

/-- The lane has a slot, which feeds the inbox; and the inbox has not been dropped. -/
def Router.Feeds (r : Router) (lane : Lane) (i : Nat) : Prop :=
  ∃ s, r.slot? lane = some s ∧ s.inbox = i ∧ s.abandoned = false ∧ (r.inbox? i).isSome = true

/-- What is ahead of one who waits ends the wait, or the router goes on feeding the inbox. -/
def Link.Supplies (l : Link) (lane : Lane) (i : Nat) (ahead : List Delivery) : Prop :=
  l.router.Feeds lane i ∨ ∃ ds d, ahead = ds ++ [d] ∧ d.isLast = true

namespace Client

variable {c : Client α} {h : Handle} {q : Query α}

/-- A lane on which something is going on has its slot. -/
theorem feeds_of_isLive {l : Link} {lane : Lane} {i : Nat} {o : Owner} (hs : l.Sound)
    (hw : l.Wired lane i o) (hlive : (l.line lane i).isLive = true)
    (hb : (l.router.inbox? i).isSome = true) : l.router.Feeds lane i := by
  have hholds := (hs.live lane).2 hlive
  cases hslot : l.router.slot? lane with
  | none => exact absurd hholds (Router.slot?_eq_none.1 hslot)
  | some s =>
    obtain ⟨hm, hl⟩ := Router.slot?_eq_some hslot
    have hi := (hw.slot s hm).1 hl
    refine ⟨s, hslot, hi, ?_, hb⟩
    rw [Bool.eq_false_iff]
    intro ha
    have hnone := hs.abandoned s hm ha
    rw [hi] at hnone
    rw [hnone] at hb
    cases hb

theorem supplies_query (hc : c.Sound) (hs : Stands (c.soloOf h q)) (hq : c.queries[h]? = some q)
    (hheld : q.held = true) (hover : q.progress.isOver = false) :
    c.link.Supplies q.lane q.inbox (c.ahead q) := by
  obtain ⟨done, w, read, rest, hs⟩ := hs
  have hlive := hs.isLive
  cases hend : w.ending with
  | none =>
    have hw : w.isOver = false := by rw [Wave.isOver, hend]; rfl
    rw [hw] at hlive
    exact .inl (feeds_of_isLive hc.link (hc.wired h q hq) hlive (hs.inbox.trans hheld))
  | some d =>
    have hahead : c.ahead q = _ := hs.ahead hheld
    have hp : (c.soloOf h q).query.progress.isOver = false := hover
    rw [hp, hend] at hahead
    refine .inr ⟨_, d, hahead, ?_⟩
    cases d with
    | error e => rfl
    | ok r => exact hs.terminal r hend

theorem supplies_errand (hc : c.Sound) {e : Errand} {i : Nat}
    (hw : c.waiting = some (.errand e i)) :
    ∃ b, c.link.router.inbox? i = some b ∧ c.link.Supplies c.link.lastLane i b.queue := by
  obtain ⟨o, hwired⟩ := (hc.errand e i hw).wired
  obtain ⟨w, b, hwaves, hb, hqueue⟩ := (hc.errand e i hw).unread.queue
  have hb : c.link.router.inbox? i = some b := hb
  refine ⟨b, hb, ?_⟩
  have hlive : (c.link.line c.link.lastLane i).isLive = !w.isOver := by
    rw [Line.isLive, hwaves]
    exact Wave.ongoing_concat [] w
  cases hend : w.ending with
  | none =>
    have hover : w.isOver = false := by rw [Wave.isOver, hend]; rfl
    rw [hover] at hlive
    exact .inl (feeds_of_isLive hc.link hwired hlive (by rw [hb]; rfl))
  | some d =>
    refine .inr ⟨_, d, by rw [hqueue, Wave.deliveries, hend]; rfl, ?_⟩
    cases d with
    | error e => rfl
    | ok r =>
      have hm : w ∈ c.link.waves c.link.lastLane := by
        rw [show c.link.waves c.link.lastLane = [w] from hwaves]
        exact List.mem_singleton_self w
      exact c.link.proper_waves _ w hm r hend

/-- Every query that is held and not over, and every errand in progress, has before it the delivery
that ends its wait, or is fed by the router. With readers that do not report it themselves, a call
reports that the connection is closed only when it is. The bound says that no lane is used for
another request, which would take the slot from the one who waits on it. -/
theorem supplied (hc : c.Reachable) {m : Move α} (hb : (c.step m).1.link.issued ≤ 2 ^ 64) :
    (∀ (h : Handle) q, c.queries[h]? = some q → q.held = true → q.progress.isOver = false →
      c.link.Supplies q.lane q.inbox (c.ahead q)) ∧
    (∀ e i, c.waiting = some (.errand e i) → ∃ b, c.link.router.inbox? i = some b ∧
      c.link.Supplies c.link.lastLane i b.queue) ∧
    ((∀ (h : Handle) q, c.queries[h]? = some q → ∀ ps p, q.reader ps p ≠ .error .connectionClosed) →
      (c.step m).2 = some (.failed .connectionClosed) → (c.step m).1.link.isOpen = false) := by
  have hb₀ := Nat.le_trans (issued_step c m) hb
  have hs := hc.sound hb₀
  refine ⟨fun h q hq hheld hover => ?_, fun e i hw => supplies_errand hs hw, fun hread hr => ?_⟩
  · exact supplies_query hs (hc.stands hb₀ hq) hq hheld hover
  · have hstep := hs.step m hb
    by_cases hcon : ∃ h q, c.queries[h]? = some q ∧ c.concerns m h = true
    · obtain ⟨h, q, hq, hcon⟩ := hcon
      obtain ⟨a, q', hq', -, -, hreply, hsolo⟩ := hstep.replied hq hcon hr
      have hact := Solo.candid_act (hc.stands hb₀ hq) (hread h q hq) hreply
      have hopen : (c.step m).1.link.isOpen = _ := congrArg (·.line.isOpen) hsolo
      rw [hopen]
      exact isOpen_toll hact q.owner
    · refine hstep.candid (fun h q hq => ?_) hr
      rw [Bool.eq_false_iff]
      exact fun h' => hcon ⟨h, q, hq, h'⟩

/-- A query that has read one answer when the connection is lost, and is asked for the next. -/
def lostBatch : List (Move Payload) :=
  [.call (.openSession "db" .data), .arrive ⟨1, .sessionOpened 7⟩, .resume,
    .call (.openTransaction 0 .read), .arrive ⟨2, .transactionOpened 9⟩, .resume,
    .call (.query 0 [113] {} Reader.raw), .arrive ⟨3, .data [1]⟩, .call (.nextAnswer 0), .resume,
    .lose, .call (.nextAnswer 0)]

theorem supplied_lostBatch :
    ∃ c : Client Payload, c = (runAll { requestTimeout := none } lostBatch).1 ∧
      (c.step .resume).1.link.issued ≤ 2 ^ 64 ∧
      (c.step .resume).2 = some (.failed .connectionClosed) ∧
      (c.step .resume).1.link.isOpen = false ∧
      ∃ q, c.queries[0]? = some q ∧ c.link.Supplies q.lane q.inbox (c.ahead q) := by
  obtain ⟨c, hc⟩ : ∃ c : Client Payload, c = (runAll { requestTimeout := none } lostBatch).1 :=
    ⟨_, rfl⟩
  have hb : (c.step .resume).1.link.issued ≤ 2 ^ 64 := by
    rw [hc]
    decide +kernel
  have hr : (c.step .resume).2 = some (.failed .connectionClosed) := by
    rw [hc]
    decide +kernel
  have hreaders : c.queries.map (·.reader) = [Reader.raw] := by
    rw [hc]
    cbv
  have hstate : c.queries[0]?.map (fun q => (q.held, q.progress.isOver)) = some (true, false) := by
    rw [hc]
    decide +kernel
  obtain ⟨q, hq, hstate⟩ := Option.map_eq_some_iff.1 hstate
  obtain ⟨hheld, hover⟩ := Prod.mk.inj hstate
  obtain ⟨hsup, -, hcandid⟩ := supplied ⟨none, lostBatch, hc⟩ hb
  refine ⟨c, hc, hb, hr, hcandid (fun h q' hq' ps p => ?_) hr, q, hq, hsup 0 q hq hheld hover⟩
  have hm : q'.reader ∈ c.queries.map (·.reader) :=
    List.mem_map_of_mem (List.mem_of_getElem? hq')
  rw [hreaders, List.mem_singleton] at hm
  rw [hm]
  simp [Reader.raw]

end Client

end QueryLanes
