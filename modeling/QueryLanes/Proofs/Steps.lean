import QueryLanes.Proofs.Issuing

/-!
# Steps

What one move of the client does, for all its queries at once. `Client.Sound` is the invariant of
its wiring: every query has a lane and an inbox of its own, and so has an errand in progress. Lanes
are never used again for another request; as numbers of 64 bits they are enough for `2 ^ 64` of them,
and this is assumed throughout.

- `Sound.step`: every move keeps the invariant, as long as there are lanes to give out, and to each
  query it is what its acts are to the query by itself;
- `Reachable.induction`: what every move keeps holds in every state that is reached;
- `Reachable.solo`: what every act keeps of a query by itself holds of every query.
-/

namespace QueryLanes

variable {α : Type}

namespace Client

/-- The errand `e` waits alone on the inbox with the number `i`, and has its response before it. -/
structure OnErrand (c : Client α) (e : Errand) (i : Nat) : Prop where
  wired : ∃ o, c.link.Wired c.link.lastLane i o
  unread : Link.Unread (c.link.line c.link.lastLane i)
  apart : ∀ (h : Handle) q, c.queries[h]? = some q → q.lane ≠ c.link.lastLane ∧ q.inbox ≠ i
  commit : ∀ t, e = .commit t → ∃ x, c.transactions[t]? = some x ∧ x.isOpen = true

/-- Every query is wired, and no two of them share a lane or an inbox. -/
structure Laid (c : Client α) : Prop where
  link : c.link.Sound
  wired : ∀ (h : Handle) q, c.queries[h]? = some q → c.link.Wired q.lane q.inbox q.owner
  apart : ∀ (h h' : Handle) q q', c.queries[h]? = some q → c.queries[h']? = some q' → h ≠ h' →
    q.lane ≠ q'.lane ∧ q.inbox ≠ q'.inbox

/-- Queries and the waiting call are wired. -/
structure Sound (c : Client α) : Prop extends Laid c where
  waiting : ∀ (h : Handle) p, c.waiting = some (Pause.wait h p) → ∃ q, c.queries[h]? = some q
  errand : ∀ e i, c.waiting = some (.errand e i) → c.OnErrand e i

theorem Sound.empty (timeout : Option Nat) : ({ requestTimeout := timeout } : Client α).Sound where
  link := .empty
  wired := by simp
  apart := by simp
  waiting := by simp
  errand := by simp

variable {c c₁ c' : Client α} {m : Move α}

/-- A query that a move opened: where it stands, and what it is by itself. -/
def Opened (c : Client α) (m : Move α) (h : Handle) (q : Query α) (o : Outcome α) : Prop :=
  ∃ t text options reader x, m = .call (.query t text options reader) ∧ c.waiting = none ∧
    c.transaction? t = some x ∧ options.validate = .ok () ∧ c.ensureOpen x = .ok () ∧
    h = c.queries.length ∧ q.lane = c.link.nextLane ∧ q.owner = x.owner ∧
    o.1.soloOf h q = .opening x.id text options reader ∧ o.2 = some (.opened h)

/-- What a move comes to. -/
structure Stepped (c : Client α) (m : Move α) (o : Outcome α) : Prop where
  sound : o.1.Sound
  solo : ∀ (h : Handle) q, c.queries[h]? = some q → ∃ q', o.1.queries[h]? = some q' ∧
    q'.lane = q.lane ∧ q'.owner = q.owner ∧
    (c.soloOf h q).acts (c.ownActs h q m ++ c.ends o.1 q.owner) =
      (o.1.soloOf h q', if c.concerns m h then o.2.toList else [])
  opened : ∀ (h : Handle) q, o.1.queries[h]? = some q → c.queries[h]? = none → c.Opened m h q o
  candid : (∀ (h : Handle) q, c.queries[h]? = some q → c.concerns m h = false) →
    o.2 = some (.failed .connectionClosed) → o.1.link.isOpen = false
  /-- While a call on a query waits, sessions and transactions stay as they are. -/
  calm : ∀ (h : Handle) p, o.1.waiting = some (Pause.wait h p) →
    o.1.transactions = c.transactions ∧ o.1.sessions = c.sessions

theorem ends_of_same (ht : c'.transactions = c.transactions) (hs : c'.sessions = c.sessions)
    (ho : c'.link.isOpen = c.link.isOpen) (o : Owner) : c.ends c' o = [] := by
  simp [ends, endsTransaction, endsSession, ht, hs, ho]

/-- The move does not apply. -/
theorem Sound.stepped_idle (hc : c.Sound)
    (hown : ∀ (h : Handle) q, c.queries[h]? = some q → c.ownActs h q m = []) :
    c.Stepped m (c, none) where
  sound := hc
  solo h q hq :=
    ⟨q, hq, rfl, rfl, by simp [hown h q hq, ends_of_same rfl rfl rfl, Solo.acts]⟩
  opened h q hq hn := by
    dsimp only at hq
    rw [hq] at hn
    cases hn
  candid _ := nofun
  calm _ _ _ := ⟨rfl, rfl⟩

/-! ## Steps aside -/

theorem Quiet.laid (hq : c.Quiet c') (hc : c.Laid) (hb : c'.link.issued ≤ 2 ^ 64) : c'.Laid where
  link := hq.turns.keeps.sound hb hc.link
  wired h q hqq := by
    rw [hq.queries] at hqq
    exact hq.turns.keeps.wired hb hc.link (hc.wired h q hqq)
  apart h h' q q' hqq hqq' := by
    rw [hq.queries] at hqq hqq'
    exact hc.apart h h' q q' hqq hqq'

theorem Quiet.solo (hq : c.Quiet c') (hc : c.Laid) (hb : c'.link.issued ≤ 2 ^ 64) {h : Handle}
    {q : Query α} (hqq : c.queries[h]? = some q)
    (hw : c'.waiting.bind (·.on h) = c.waiting.bind (·.on h)) :
    (c.soloOf h q).acts (c.ends c' q.owner) = (c'.soloOf h q, []) := by
  rw [acts_ends]
  have hline := hq.turns.line hb hc.link (hc.wired h q hqq)
  simp only [Client.soloOf, hw, hline]

theorem Aside.on_eq_none {o : Outcome α} (ho : c.Aside o) (h : Handle) :
    o.1.waiting.bind (·.on h) = none := by
  rcases ho.waiting with ⟨hw, -⟩ | ⟨-, e, i, -, -, hw, -⟩ <;> rw [hw] <;> rfl

theorem Aside.waiting_ne {o : Outcome α} (ho : c.Aside o) (h : Handle) (p : Pause α) :
    o.1.waiting ≠ some (p.wait h) := by
  intro hp
  have hnone := ho.on_eq_none h
  rw [hp, Option.bind_some, Pause.on_wait] at hnone
  cases hnone

theorem Aside.sound {o : Outcome α} (ho : c.Aside o) (hc : c.Laid) (hb : o.1.link.issued ≤ 2 ^ 64) :
    o.1.Sound where
  toLaid := ho.quiet.laid hc hb
  waiting h p hp := absurd hp (ho.waiting_ne h p)
  errand e i hw := by
    rcases ho.waiting with ⟨hn, -⟩ | ⟨-, e', i', o', request, hw', hfresh, hcommit⟩
    · rw [hn] at hw
      cases hw
    · rw [hw'] at hw
      cases hw
      refine ⟨⟨o', hfresh.wired⟩, hfresh.unread, fun h q hq => ?_, hcommit⟩
      rw [ho.quiet.queries] at hq
      exact hfresh.apart (hc.wired h q hq)

/-- No query takes part in the move. -/
def Bystands (c : Client α) (m : Move α) : Prop :=
  ∀ (h : Handle) q, c.queries[h]? = some q → c.ownActs h q m = [] ∧ c.concerns m h = false

/-- A step aside from a state that may differ from `c` in what no query knows of. -/
theorem Aside.stepped {o : Outcome α} (ho : c₁.Aside o) (hc₁ : c₁.Laid)
    (hb : o.1.link.issued ≤ 2 ^ 64) (hown : c.Bystands m) (hq : c₁.queries = c.queries)
    (hidle : ∀ h, c.waiting.bind (·.on h) = none)
    (hline : ∀ (h : Handle) q, c.queries[h]? = some q →
      c₁.link.line q.lane q.inbox = c.link.line q.lane q.inbox)
    (hends : ∀ o', c.ends o.1 o' = c₁.ends o.1 o') : c.Stepped m o where
  sound := ho.sound hc₁ hb
  solo h q hqq := by
    refine ⟨q, by rwa [ho.quiet.queries, hq], rfl, rfl, ?_⟩
    have hsolo : c.soloOf h q = { c₁.soloOf h q with waiting := none } := by
      simp only [soloOf, hline h q hqq, hidle]
    obtain ⟨hacts, hcon⟩ := hown h q hqq
    rw [hacts, hcon, List.nil_append, hends, acts_ends, hsolo]
    have hturn := ho.quiet.turns.line hb hc₁.link (hc₁.wired h q (by rwa [hq]))
    simp only [soloOf, hturn, ho.on_eq_none, Bool.false_eq_true, if_false]
  opened h q hqq hn := by
    rw [ho.quiet.queries, hq, hn] at hqq
    cases hqq
  candid _ := ho.candid
  calm h p hp := absurd hp (ho.waiting_ne h p)

/-! ## Errands -/

theorem poll_drop {l : Link} {i : Nat} {d : Delivery} {r : Router}
    (h : l.router.poll i = some (d, r)) :
    ({ l with router := r.drop i } : Link) = l.dropInbox i := by
  obtain ⟨b, -, ⟨rest, -, rfl⟩ | ⟨-, -, -, rfl⟩⟩ := Link.poll_cases h
  · simp [Router.drop, Link.dropInbox]
  · rfl

/-- The response of an errand comes through its inbox; that the connection is lost is told by
nothing but its loss. -/
theorem OnErrand.closed_of_poll {e : Errand} {i : Nat} (he : c.OnErrand e i) (hs : c.link.Sound)
    {r : Router} (h : c.link.router.poll i = some (.error .connectionClosed, r)) :
    c.link.isOpen = false := by
  obtain ⟨o, hw⟩ := he.wired
  obtain ⟨⟨w, b, hwaves, hb, hqueue⟩, hcandid⟩ := he.unread
  obtain ⟨b', hb', hcase⟩ := Link.poll_cases h
  have hbb : b = b' := Option.some.inj (hb.symm.trans hb')
  subst hbb
  rcases hcase with ⟨rest, hq, -⟩ | ⟨hq, hfeeds, -, -⟩
  · have hm : (.error .connectionClosed : Delivery) ∈ w.deliveries := by
      rw [← hqueue, hq]
      exact List.mem_cons_self
    refine hcandid w (by simp [hwaves]) ?_
    simpa [Wave.deliveries] using hm
  · rw [hw.feeds_iff hs, Line.isLive, hwaves] at hfeeds
    have ho : w.isOver = true := by simpa [Wave.ongoing] using hfeeds
    rw [hqueue, Wave.deliveries] at hq
    simp only [List.append_eq_nil_iff] at hq
    rw [Wave.isOver, Option.toList_eq_nil_iff.1 hq.2] at ho
    cases ho

/-- An errand comes to its end, and nobody else notices that its inbox goes. -/
theorem Sound.stepped_conclude (hc : c.Sound) {e : Errand} {i : Nat}
    (hw : c.waiting = some (.errand e i)) (hown : c.Bystands m) {d : Except Failure Response}
    (hd : d = .error .connectionClosed → c.link.isOpen = false)
    (hb : (conclude { c with link := c.link.dropInbox i } e d).1.link.issued ≤ 2 ^ 64) :
    c.Stepped m (conclude { c with link := c.link.dropInbox i } e d) := by
  have he := hc.errand e i hw
  have hb₁ : c.link.issued ≤ 2 ^ 64 := by
    rw [issued_conclude] at hb
    exact hb
  have hx := Link.extends_dropInbox c.link i
  have hlaid : Laid { c with link := c.link.dropInbox i } := {
    link := hx.sound hb₁ hc.link
    wired := fun h q hq => hx.wired hb₁ hc.link (hc.wired h q hq)
    apart := hc.apart }
  refine Aside.stepped (aside_conclude he.commit hd) hlaid hb hown rfl ?_ ?_ fun _ => rfl
  · intro h
    rw [hw]
    rfl
  · intro h q hq
    exact Link.line_dropInbox_of_ne (Ne.symm (he.apart h q hq).2) _

theorem Sound.stepped_resume_errand (hc : c.Sound) {e : Errand} {i : Nat}
    (hw : c.waiting = some (.errand e i)) (hown : c.Bystands m)
    (hb : c.resume.1.link.issued ≤ 2 ^ 64) :
    c.Stepped m c.resume := by
  rw [resume_errand hw] at hb ⊢
  cases hpoll : c.link.router.poll i with
  | none => exact hc.stepped_idle fun h q hq => (hown h q hq).1
  | some dr =>
    obtain ⟨d, r⟩ := dr
    rw [hpoll] at hb
    dsimp only at hb ⊢
    rw [poll_drop hpoll] at hb ⊢
    refine hc.stepped_conclude hw hown (fun h => ?_) hb
    subst h
    exact (hc.errand e i hw).closed_of_poll hc.link hpoll

theorem Sound.stepped_giveUp_errand (hc : c.Sound) {e : Errand} {i : Nat}
    (hw : c.waiting = some (.errand e i)) (hown : c.Bystands m)
    (hb : c.giveUp.1.link.issued ≤ 2 ^ 64) :
    c.Stepped m c.giveUp := by
  rw [giveUp_of_errand hw] at hb ⊢
  exact hc.stepped_conclude hw hown nofun hb

/-! ## Frames -/

theorem lastLane_receive (l : Link) (f : ServerFrame) : (l.receive f).lastLane = l.lastLane := by
  unfold Link.receive
  split <;> rfl

theorem issued_receive (l : Link) (f : ServerFrame) : (l.receive f).issued = l.issued := by
  unfold Link.receive
  split <;> rfl

theorem isOpen_receive (l : Link) (f : ServerFrame) : (l.receive f).isOpen = l.isOpen := by
  unfold Link.receive
  split <;> rfl

theorem Sound.stepped_arrive (hc : c.Sound) (f : ServerFrame)
    (hb : (c.link.receive f).issued ≤ 2 ^ 64) :
    c.Stepped (.arrive f) ({ c with link := c.link.receive f }, none) := by
  have hx := Link.extends_receive c.link f
  refine ⟨⟨⟨hx.sound hb hc.link, fun h q hq => hx.wired hb hc.link (hc.wired h q hq), hc.apart⟩,
    hc.waiting, fun e i hw => ?_⟩, fun h q hq => ⟨q, hq, rfl, rfl, ?_⟩, fun h q hq hn => ?_, nofun,
    fun _ _ _ => ⟨rfl, rfl⟩⟩
  · have he := hc.errand e i hw
    obtain ⟨o, hwired⟩ := he.wired
    have hline := hwired.line_receive hc.link f
    refine ⟨⟨o, ?_⟩, ?_, ?_, he.commit⟩
    · rw [lastLane_receive]
      exact hx.wired hb hc.link hwired
    · rw [lastLane_receive, hline]
      split
      · exact he.unread.hear f.body
      · exact he.unread
    · rw [lastLane_receive]
      exact he.apart
  · have hends : c.ends { c with link := c.link.receive f } q.owner = [] := by
      apply ends_of_same
      · rfl
      · rfl
      · exact isOpen_receive _ _
    have hline := (hc.wired h q hq).line_receive hc.link f
    rw [hends, List.append_nil]
    simp only [ownActs, soloOf, hline]
    split <;> rfl
  · dsimp only at hq
    rw [hq] at hn
    cases hn

theorem Sound.stepped_lose (hc : c.Sound) (hb : c.link.close.issued ≤ 2 ^ 64) :
    c.Stepped .lose ({ c with link := c.link.close }, none) := by
  have hquiet : c.Quiet { c with link := c.link.close } := quiet_close rfl rfl rfl rfl
  refine ⟨⟨hquiet.laid hc.toLaid hb, hc.waiting, fun e i hw => ?_⟩,
    fun h q hq => ⟨q, hq, rfl, rfl, hquiet.solo hc.toLaid hb hq rfl⟩, fun h q hq hn => ?_, nofun,
    fun _ _ _ => ⟨rfl, rfl⟩⟩
  · have he := hc.errand e i hw
    obtain ⟨o, hwired⟩ := he.wired
    have hlast : c.link.close.lastLane = c.link.lastLane := by
      rw [Link.lastLane, Link.issued_close]
      rfl
    refine ⟨⟨o, ?_⟩, ?_, ?_, he.commit⟩
    · rw [hlast]
      exact (Link.extends_close c.link).wired hb hc.link hwired
    · rw [hlast, hwired.line_close hc.link]
      exact he.unread.lose
    · rw [hlast]
      exact he.apart
  · dsimp only at hq
    rw [hq] at hn
    cases hn

/-! ## Queries -/

/-- The state after a step of one query is laid as the one before. -/
theorem Laid.follow (hc : c.Laid) {h : Handle} {q q' : Query α} (hq : c.queries[h]? = some q)
    {l : Link} (hcar : c.link.Carries q l q') (w : Option (Wait α)) :
    Laid { c with link := l, queries := c.queries.set h q', waiting := w } := by
  have hself : (c.queries.set h q')[h]? = some q' := by
    rw [List.getElem?_set_self (List.getElem?_eq_some_iff.1 hq).1]
  have hother {h' : Handle} (hne : h ≠ h') : (c.queries.set h q')[h']? = c.queries[h']? :=
    List.getElem?_set_ne hne
  have hapart {h' : Handle} {p : Query α} (hne : h ≠ h') (hp : c.queries[h']? = some p) :
      q'.lane ≠ p.lane ∧ q'.inbox ≠ p.inbox := by
    obtain ⟨hl, hi⟩ := hc.apart h h' q p hq hp hne
    have hlt := (hc.wired h' p hp).inbox_lt
    refine ⟨by rwa [hcar.lane], ?_⟩
    rcases hcar.inbox with he | he
    · rwa [he]
    · omega
  refine ⟨hcar.sound, fun h' p hp => ?_, fun h₁ h₂ p₁ p₂ hp₁ hp₂ hne => ?_⟩
  · dsimp only at hp ⊢
    by_cases hh : h = h'
    · subst hh
      rw [hself] at hp
      cases hp
      exact hcar.wired
    · rw [hother hh] at hp
      obtain ⟨hl, hi⟩ := hc.apart h h' q p hq hp hh
      exact (hcar.others (hc.wired h' p hp) (Ne.symm hl) (Ne.symm hi)).1
  · dsimp only at hp₁ hp₂
    by_cases h₁h : h = h₁
    · subst h₁h
      rw [hself] at hp₁
      rw [hother hne] at hp₂
      cases hp₁
      exact hapart hne hp₂
    · rw [hother h₁h] at hp₁
      by_cases h₂h : h = h₂
      · subst h₂h
        rw [hself] at hp₂
        cases hp₂
        obtain ⟨hl, hi⟩ := hapart h₁h hp₁
        exact ⟨Ne.symm hl, Ne.symm hi⟩
      · rw [hother h₂h] at hp₂
        exact hc.apart h₁ h₂ p₁ p₂ hp₁ hp₂ hne

theorem Sound.stepped_follow (hc : c.Sound) {h : Handle} {q : Query α} (hq : c.queries[h]? = some q)
    {a : Act} {r : Option (Reply α)} {o : Outcome α}
    (hf : c.Follows h q (c₁, r) ((c.soloOf h q).act a)) (ho : o.2 = r)
    (ho₁ : o.1 = c₁ ∨ o.1 = c₁.release) (hb : o.1.link.issued ≤ 2 ^ 64)
    (hidle : ∀ h', h ≠ h' → c.waiting.bind (·.on h') = none)
    (hown : ∀ h' q', c.ownActs h' q' m = if h = h' then [a] else [])
    (hcon : ∀ h', c.concerns m h' = decide (h = h')) : c.Stepped m o := by
  obtain ⟨l, q', w, he, hs, hcar⟩ := hf
  obtain ⟨he, hr⟩ := Prod.mk.inj he
  have hlaid : c₁.Laid := by
    rw [he]
    exact hc.toLaid.follow hq hcar _
  have hqueries : c₁.queries = c.queries.set h q' := by rw [he]
  have hlink : c₁.link = l := by rw [he]
  have hquiet : c₁.Quiet o.1 := by
    rcases ho₁ with h | h <;> rw [h]
    · exact .refl _
    · exact (Quiet.refl _).release rfl
  obtain ⟨l₁, hl₁⟩ : ∃ l₁, o.1 = { c₁ with link := l₁ } := by
    rcases ho₁ with h | h <;> rw [h]
    · exact ⟨c₁.link, rfl⟩
    · exact release_eq c₁
  have hwait₁ : o.1.waiting = c₁.waiting := by rw [hl₁]
  have hwait : o.1.waiting = w.map (Pause.wait h) := by rw [hwait₁, he]
  have hends (o' : Owner) : c.ends o.1 o' = c₁.ends o.1 o' := by
    simp only [ends, hlink, hcar.isOpen]
    rw [he]
    rfl
  have hself : c₁.queries[h]? = some q' := by
    rw [hqueries, List.getElem?_set_self (List.getElem?_eq_some_iff.1 hq).1]
  have hother {h' : Handle} (hne : h ≠ h') : c₁.queries[h']? = c.queries[h']? := by
    rw [hqueries, List.getElem?_set_ne hne]
  refine ⟨⟨hquiet.laid hlaid hb, fun h' p hp => ?_, fun e i hw => ?_⟩, fun h' p hp => ?_,
    fun h' p hp hn => ?_, fun hno => ?_, fun _ _ _ => ?_⟩
  · rw [hwait] at hp
    cases w with
    | none => cases hp
    | some p' =>
      have hh : h = h' := Pause.wait_inj (Option.some.inj hp)
      subst hh
      exact ⟨q', by rw [hquiet.queries]; exact hself⟩
  · rw [hwait] at hw
    cases w with
    | none => cases hw
    | some p' => exact absurd (Option.some.inj hw) Pause.wait_ne_errand
  · by_cases hh : h = h'
    · subst hh
      rw [hq] at hp
      cases hp
      refine ⟨q', by rw [hquiet.queries]; exact hself, hcar.lane, hcar.owner, ?_⟩
      have hview : c₁.soloOf h q' = ((c.soloOf h q).act a).1 := by
        rw [hs, soloOf, ← hwait₁, hwait, hlink]
        cases w <;> simp
      have hsolo := hquiet.solo hlaid hb hself (by rw [hwait₁])
      rw [hown, if_pos rfl, hcon, List.singleton_append, hends, Solo.acts_cons, ← hview,
        ← hcar.owner, hsolo, ho, hr]
      simp
    · have hl := hc.apart h h' q p hq hp hh
      obtain ⟨-, hline⟩ := hcar.others (hc.wired h' p hp) (Ne.symm hl.1) (Ne.symm hl.2)
      have hp' : c₁.queries[h']? = some p := by rwa [hother hh]
      have hview : c.soloOf h' p = c₁.soloOf h' p := by
        have hnone : c₁.waiting.bind (·.on h') = none := by
          rw [← hwait₁, hwait]
          cases w with
          | none => rfl
          | some p' => exact Pause.on_wait_of_ne hh p'
        simp only [soloOf, hlink, hline, hidle h' hh, hnone]
      refine ⟨p, by rwa [hquiet.queries], rfl, rfl, ?_⟩
      rw [hown, if_neg hh, hcon, List.nil_append, hends, decide_eq_false hh, hview]
      exact hquiet.solo hlaid hb hp' (by rw [hwait₁])
  · rw [hquiet.queries] at hp
    by_cases hh : h = h'
    · subst hh
      rw [hq] at hn
      cases hn
    · rw [hother hh, hn] at hp
      cases hp
  · have hyes := hno h q hq
    rw [hcon, decide_eq_true rfl] at hyes
    cases hyes
  · rw [hl₁, he]
    exact ⟨rfl, rfl⟩

/-! ## Openings -/

/-- The state after a query was opened. -/
def withQuery (c : Client α) (o : Owner) (transaction : UInt64) (text : Payload)
    (options : QueryOptions) (reader : Reader α) : Client α :=
  { c with
    link := (c.link.request o (.fetch transaction (.first text options))).2
    queries := c.queries ++
      [{ lane := c.link.nextLane, owner := o, transaction := transaction, options := options,
         inbox := c.link.router.inboxes.length, reader := reader }]
    waiting := none }

/-- A query is refused, or its first request goes out on the next lane. -/
theorem openQuery_cases (hs : c.link.Sound) (x : Transaction) (text : Payload)
    (options : QueryOptions) (reader : Reader α) :
    (∃ e, c.openQuery x text options reader = c.replying (.failed e) ∧
      (e = .connectionClosed → c.link.isOpen = false)) ∨
    (options.validate = .ok () ∧ c.ensureOpen x = .ok () ∧
      c.openQuery x text options reader =
        (c.withQuery x.owner x.id text options reader, some (.opened c.queries.length))) := by
  have h := c.enters x text options reader
  have hreq := hs.request_eq x.owner (.fetch x.id (.first text options))
  generalize c.openQuery x text options reader = o at h ⊢
  cases h with
  | @refused e he =>
    refine .inl ⟨e, rfl, ?_⟩
    rintro rfl
    cases hv : options.validate with
    | error e =>
      rw [hv] at he
      cases he
      rw [QueryOptions.validate_eq_error] at hv
      exact absurd hv.1.symm (misconfiguration_ne_connectionClosed _)
    | ok u =>
      rw [hv] at he
      exact ensureOpen_eq_connectionClosed.1 he
  | unsent _ ho heq =>
    rw [(ensureOpen_eq_ok.1 ho).1, if_pos rfl, heq] at hreq
    cases hreq
  | opened hv ho heq =>
    refine .inr ⟨hv, ho, ?_⟩
    rw [(ensureOpen_eq_ok.1 ho).1, if_pos rfl, heq] at hreq
    cases hreq
    rw [withQuery, heq]
    rfl

theorem Sound.withQuery (hc : c.Sound) (hopen : c.link.isOpen = true) (o : Owner)
    (transaction : UInt64) (text : Payload) (options : QueryOptions) (reader : Reader α)
    (hb : (c.withQuery o transaction text options reader).link.issued ≤ 2 ^ 64) :
    (c.withQuery o transaction text options reader).Sound ∧
      ∀ q, (c.withQuery o transaction text options reader).queries[c.queries.length]? = some q →
        q.lane = c.link.nextLane ∧ q.owner = o ∧
          (c.withQuery o transaction text options reader).soloOf c.queries.length q =
            .opening transaction text options reader := by
  have hx := Link.extends_request c.link o (.fetch transaction (.first text options))
  have hfresh := (hc.link.fresh_request hopen o (.fetch transaction (.first text options)) hb).2
  have hlast := Link.lastLane_request c.link o (.fetch transaction (.first text options))
  have hqueries : (c.withQuery o transaction text options reader).queries = c.queries ++
      [{ lane := c.link.nextLane, owner := o, transaction := transaction, options := options,
         inbox := c.link.router.inboxes.length, reader := reader }] := rfl
  have hlink : (c.withQuery o transaction text options reader).link =
      (c.link.request o (.fetch transaction (.first text options))).2 := rfl
  have hcases {h : Handle} {q : Query α}
      (hq : (c.withQuery o transaction text options reader).queries[h]? = some q) :
      c.queries[h]? = some q ∨ (h = c.queries.length ∧ q.lane = c.link.nextLane ∧ q.owner = o ∧
        q.inbox = c.link.router.inboxes.length ∧
        q.unnumbered = (Solo.opening transaction text options reader).query) := by
    rw [hqueries] at hq
    by_cases hlt : h < c.queries.length
    · exact .inl (by rwa [List.getElem?_append_left hlt] at hq)
    · have hlen : h < c.queries.length + 1 := by simpa using (List.getElem?_eq_some_iff.1 hq).1
      have hh : h = c.queries.length := Nat.le_antisymm (Nat.le_of_lt_succ hlen) (Nat.not_lt.1 hlt)
      subst hh
      rw [List.getElem?_concat_length] at hq
      cases hq
      exact .inr ⟨rfl, rfl, rfl, rfl, rfl⟩
  refine ⟨⟨⟨hx.sound hb hc.link, fun h q hq => ?_, fun h₁ h₂ q₁ q₂ hq₁ hq₂ hne => ?_⟩, nofun, nofun⟩,
    fun q hq => ?_⟩
  · rw [hlink]
    rcases hcases hq with hq | ⟨-, hl, ho, hi, -⟩
    · exact hx.wired hb hc.link (hc.wired h q hq)
    · rw [hl, ho, hi, ← hlast]
      exact hfresh.wired
  · rcases hcases hq₁ with hq₁ | ⟨hh₁, hl₁, -, hi₁, -⟩ <;>
      rcases hcases hq₂ with hq₂ | ⟨hh₂, hl₂, -, hi₂, -⟩
    · exact hc.apart h₁ h₂ q₁ q₂ hq₁ hq₂ hne
    · rw [hl₂, hi₂, ← hlast]
      exact hfresh.apart (hc.wired h₁ q₁ hq₁)
    · rw [hl₁, hi₁, ← hlast]
      obtain ⟨hl, hi⟩ := hfresh.apart (hc.wired h₂ q₂ hq₂)
      exact ⟨Ne.symm hl, Ne.symm hi⟩
    · exact absurd (hh₁.trans hh₂.symm) hne
  · rcases hcases hq with hq | ⟨-, hl, ho, hi, hu⟩
    · exact absurd (List.getElem?_eq_some_iff.1 hq).1 (Nat.lt_irrefl _)
    · refine ⟨hl, ho, ?_⟩
      have hline := hfresh.line
      rw [hlast, ← hlink] at hline
      rw [soloOf, hl, hi, hu, hline]
      rfl

theorem length_withQuery (c : Client α) (o : Owner) (transaction : UInt64) (text : Payload)
    (options : QueryOptions) (reader : Reader α) :
    (c.withQuery o transaction text options reader).queries.length = c.queries.length + 1 :=
  List.length_append

/-- A call that is not about a query concerns none. -/
theorem bystands_call (hw : c.waiting = none) {k : Call α} (hk : k.ask? = none) :
    c.Bystands (.call k) := by
  intro h q _
  simp [ownActs, concerns, hw, hk]

/-- The caller is only told something. -/
theorem Sound.stepped_told (hc : c.Sound) (hw : c.waiting = none) {k : Call α}
    (hown : c.Bystands (.call k)) {r : Reply α}
    (hr : r = .failed .connectionClosed → c.link.isOpen = false) (hb : c.link.issued ≤ 2 ^ 64) :
    c.Stepped (.call k) (c.replying r) :=
  Aside.stepped ((Quiet.refl c).aside hr) hc.toLaid hb hown rfl (fun h => by rw [hw]; rfl)
    (fun _ _ _ => rfl) fun _ => rfl

theorem Sound.stepped_query (hc : c.Sound) (hw : c.waiting = none) {t : Handle} {text : Payload}
    {options : QueryOptions} {reader : Reader α}
    (hb : (c.call (.query t text options reader)).1.link.issued ≤ 2 ^ 64) :
    c.Stepped (.call (.query t text options reader)) (c.call (.query t text options reader)) := by
  have hown : c.Bystands (.call (.query t text options reader)) := bystands_call hw rfl
  cases hx : c.transaction? t with
  | none =>
    rw [call_of_no_transaction hw rfl hx] at hb ⊢
    exact hc.stepped_told hw hown nofun hb
  | some x =>
    rw [call_query hw hx] at hb ⊢
    rcases openQuery_cases hc.link x text options reader with ⟨e, ho, he⟩ | ⟨hv, hopen, ho⟩
    · rw [ho] at hb ⊢
      exact hc.stepped_told hw hown (fun h => he (Reply.failed.inj h)) hb
    · rw [ho] at hb ⊢
      have hlinkOpen := (ensureOpen_eq_ok.1 hopen).1
      obtain ⟨hsound, hnew⟩ := hc.withQuery hlinkOpen x.owner x.id text options reader hb
      refine ⟨hsound, fun h q hq => ?_, fun h q hq hn => ?_, fun _ => nofun, nofun⟩
      · refine ⟨q, ?_, rfl, rfl, ?_⟩
        · exact (List.getElem?_append_left (List.getElem?_eq_some_iff.1 hq).1).trans hq
        · obtain ⟨hacts, hcon⟩ := hown h q hq
          have hends : c.ends (c.withQuery x.owner x.id text options reader) q.owner = [] := by
            apply ends_of_same
            · rfl
            · rfl
            · exact Link.isOpen_request _ _ _
          have hline := (hc.wired h q hq).line_request hc.link hb
          have hsolo : c.soloOf h q =
              (c.withQuery x.owner x.id text options reader).soloOf h q := by
            rw [soloOf, hw, ← hline]
            rfl
          rw [hacts, hcon, hends, hsolo]
          rfl
      · have hlt : ¬ h < c.queries.length := Nat.not_lt.2 (List.getElem?_eq_none_iff.1 hn)
        have hlen : h < c.queries.length + 1 := by
          rw [← length_withQuery c x.owner x.id text options reader]
          exact (List.getElem?_eq_some_iff.1 hq).1
        have hh : h = c.queries.length :=
          Nat.le_antisymm (Nat.le_of_lt_succ hlen) (Nat.not_lt.1 hlt)
        subst hh
        obtain ⟨hl, ho, hsolo⟩ := hnew q hq
        exact ⟨t, text, options, reader, x, rfl, hw, hx, hv, hopen, rfl, hl, ho, hsolo, rfl⟩

/-! ## Moves -/

theorem Sound.stepped_call (hc : c.Sound) {k : Call α}
    (hb : (c.call k).1.link.issued ≤ 2 ^ 64) : c.Stepped (.call k) (c.call k) := by
  cases hw : c.waiting with
  | some w =>
    rw [call_of_waiting hw]
    exact hc.stepped_idle fun h q _ => by simp [ownActs, hw]
  | none =>
    have hidle (h) : c.waiting.bind (Wait.on h) = none := by rw [hw]; rfl
    cases hk : k.ask? with
    | none =>
      have hown : c.Bystands (.call k) := bystands_call hw hk
      by_cases hquery : ∃ t text options reader, k = .query t text options reader
      · obtain ⟨t, text, options, reader, rfl⟩ := hquery
        exact hc.stepped_query hw hb
      · have hne : ∀ t text options reader, k ≠ .query t text options reader :=
          fun t text options reader h => hquery ⟨t, text, options, reader, h⟩
        exact Aside.stepped (aside_call hc.link hw hk hne hb) hc.toLaid hb hown rfl hidle
          (fun _ _ _ => rfl) fun _ => rfl
    | some ha =>
      obtain ⟨h, a⟩ := ha
      have hacts (h' q') : c.ownActs h' q' (.call k) = if h = h' then [.ask a] else [] := by
        simp only [ownActs, hw, hk]
      have hcon (h') : c.concerns (.call k) h' = decide (h = h') := by
        simp [concerns, hw, hk, beq_eq_decide]
      cases hq : c.queries[h]? with
      | some q =>
        have hb₁ : c.link.issued ≤ 2 ^ 64 := Nat.le_trans (issued_call c k) hb
        obtain ⟨c₁, hf, ho⟩ := follows_call hc.link hb₁ (hc.wired h q hq) hq hw hk
        have hview : c.view q none = c.soloOf h q := by rw [soloOf, hidle, view]
        rw [hview] at hf
        exact hc.stepped_follow (a := .ask a) hq hf rfl ho hb (fun h' _ => hidle h') hacts hcon
      | none =>
        have hgone : c.call k = c.replying .noSuchHandle := by
          refine call_of_gone hw hk ?_
          rw [query?, hq]
          rfl
        have hown : c.Bystands (.call k) := fun h' q' hq' => by
          have hne : ¬ h = h' := by
            rintro rfl
            rw [hq] at hq'
            cases hq'
          rw [hacts, hcon, if_neg hne, decide_eq_false hne]
          exact ⟨rfl, rfl⟩
        rw [hgone] at hb ⊢
        exact hc.stepped_told hw hown (fun h => by cases h) hb

theorem wait_cases (w : Wait α) : (∃ e i, w = .errand e i) ∨ ∃ h p, w = Pause.wait h p := by
  cases w with
  | errand e i => exact .inl ⟨e, i, rfl⟩
  | start h bound drain => exact .inr ⟨h, .start bound drain, rfl⟩
  | pull h demand => exact .inr ⟨h, .pull demand, rfl⟩

section

variable {h : Handle} {p : Pause α}

theorem waitsOn_pause (hp : c.waiting = some (p.wait h)) (h' : Handle) :
    c.waitsOn h' = decide (h = h') := by
  rw [waitsOn, hp, Option.bind_some]
  by_cases hh : h = h'
  · subst hh
    simp
  · rw [Pause.on_wait_of_ne hh, decide_eq_false hh]
    rfl

theorem Sound.stepped_pause (hc : c.Sound) (hp : c.waiting = some (p.wait h)) {a : Act}
    {o : Outcome α} (hb : o.1.link.issued ≤ 2 ^ 64)
    (hf : ∀ q, c.queries[h]? = some q → c.Follows h q o ((c.view q (some p)).act a))
    (hown : ∀ h' q', c.ownActs h' q' m = if h = h' then [a] else [])
    (hcon : ∀ h', c.concerns m h' = decide (h = h')) : c.Stepped m o := by
  obtain ⟨q, hq⟩ := hc.waiting h p hp
  have hview : c.view q (some p) = c.soloOf h q := by
    rw [soloOf, hp, Option.bind_some, Pause.on_wait, view]
  have hf : c.Follows h q (o.1, o.2) ((c.soloOf h q).act a) := by
    rw [← hview]
    exact hf q hq
  refine hc.stepped_follow hq hf rfl (.inl rfl) hb (fun h' hh => ?_) hown hcon
  rw [hp]
  exact Pause.on_wait_of_ne hh p

theorem Sound.stepped_resume (hc : c.Sound) (hb : c.resume.1.link.issued ≤ 2 ^ 64) :
    c.Stepped .resume c.resume := by
  cases hw : c.waiting with
  | none =>
    rw [resume_of_idle hw]
    exact hc.stepped_idle fun h q _ => by simp [ownActs, waitsOn, hw]
  | some w =>
    rcases wait_cases w with ⟨e, i, rfl⟩ | ⟨h, p, rfl⟩
    · refine hc.stepped_resume_errand hw (fun h q _ => ?_) hb
      simp [ownActs, concerns, waitsOn, hw, Wait.on]
    · have hwaits := waitsOn_pause hw
      have hb₁ : c.link.issued ≤ 2 ^ 64 := by rwa [issued_resume] at hb
      refine hc.stepped_pause (a := .take) hw hb (fun q hq => ?_) (fun h' q' => ?_) hwaits
      · exact follows_resume hc.link (hc.wired h q hq) hq hw hb₁
      · simp [ownActs, hwaits]

theorem Sound.stepped_expire (hc : c.Sound) (hb : c.expire.1.link.issued ≤ 2 ^ 64) :
    c.Stepped .expire c.expire := by
  cases hw : c.waiting with
  | none =>
    rw [expire_of_idle hw]
    exact hc.stepped_idle fun h q _ => by simp [ownActs, waitsOn, hw]
  | some w =>
    have hb₁ : c.link.issued ≤ 2 ^ 64 := Nat.le_trans (issued_step c .expire) hb
    rcases wait_cases w with ⟨e, i, rfl⟩ | ⟨h, p, rfl⟩
    · have hown : c.Bystands .expire := fun h q _ => by
        simp [ownActs, concerns, waitsOn, hw, Wait.on]
      cases hr : c.isReady with
      | true =>
        rw [expire_of_isReady hr] at hb ⊢
        exact hc.stepped_resume_errand hw hown hb
      | false =>
        rw [expire_of_not_isReady hr] at hb ⊢
        split
        · rename_i hbound
          rw [if_pos hbound] at hb
          exact hc.stepped_giveUp_errand hw hown hb
        · exact hc.stepped_idle fun h q hq => (hown h q hq).1
    · have hwaits := waitsOn_pause hw
      cases hr : c.isReady with
      | true =>
        rw [expire_of_isReady hr] at hb ⊢
        refine hc.stepped_pause (a := .take) hw hb (fun q hq => ?_) (fun h' q' => ?_) hwaits
        · exact follows_resume hc.link (hc.wired h q hq) hq hw hb₁
        · simp [ownActs, hwaits, hr]
      | false =>
        rw [expire_of_not_isReady hr] at hb ⊢
        split
        · rename_i hbound
          rw [if_pos hbound] at hb
          refine hc.stepped_pause (a := .giveUp) hw hb (fun q hq => ?_) (fun h' q' => ?_) hwaits
          · exact follows_giveUp hc.link (hc.wired h q hq) hq hw
          · simp [ownActs, hwaits, hr, hbound]
        · rename_i hbound
          exact hc.stepped_idle fun h q _ => by simp [ownActs, hr, hbound]

end

/-- Every move keeps the wiring, and to each query it is what its acts are to the query by itself. -/
theorem Sound.step (hc : c.Sound) (m : Move α) (hb : (c.step m).1.link.issued ≤ 2 ^ 64) :
    c.Stepped m (c.step m) := by
  cases m with
  | call k => exact hc.stepped_call hb
  | arrive f => exact hc.stepped_arrive f hb
  | lose => exact hc.stepped_lose hb
  | resume => exact hc.stepped_resume hb
  | expire => exact hc.stepped_expire hb

/-! ## Runs -/

theorem runAll_cons (c : Client α) (m : Move α) (ms : List (Move α)) :
    c.runAll (m :: ms) =
      (((c.step m).1.runAll ms).1, (c.step m).2.toList ++ ((c.step m).1.runAll ms).2) := rfl

theorem runAll_append (c : Client α) (ms ms' : List (Move α)) :
    c.runAll (ms ++ ms') = (((c.runAll ms).1.runAll ms').1,
      (c.runAll ms).2 ++ ((c.runAll ms).1.runAll ms').2) := by
  induction ms generalizing c with
  | nil => rfl
  | cons m ms ih =>
    rw [List.cons_append, runAll_cons, runAll_cons, ih]
    simp

theorem issued_runAll (c : Client α) (ms : List (Move α)) :
    c.link.issued ≤ (c.runAll ms).1.link.issued := by
  induction ms generalizing c with
  | nil => exact Nat.le_refl _
  | cons m ms ih =>
    rw [runAll_cons]
    exact Nat.le_trans (issued_step c m) (ih _)

/-- Some run of a new client ends in the state. -/
def Reachable (c : Client α) : Prop :=
  ∃ timeout ms, c = (runAll { requestTimeout := timeout } ms).1

theorem Reachable.runAll (hc : c.Reachable) (ms : List (Move α)) : (c.runAll ms).1.Reachable := by
  obtain ⟨timeout, before, rfl⟩ := hc
  exact ⟨timeout, before ++ ms, by rw [runAll_append]⟩

theorem Reachable.step (hc : c.Reachable) (m : Move α) : (c.step m).1.Reachable := hc.runAll [m]

/-- What holds of a new client and is kept by every move holds in every state that is reached before
lanes run out. -/
theorem Reachable.induction {P : Client α → Prop} (hc : c.Reachable) (hb : c.link.issued ≤ 2 ^ 64)
    (hnew : ∀ timeout, P { requestTimeout := timeout })
    (hstep : ∀ (c : Client α) m, c.Sound → (c.step m).1.link.issued ≤ 2 ^ 64 → P c →
      P (c.step m).1) : c.Sound ∧ P c := by
  obtain ⟨timeout, ms, rfl⟩ := hc
  induction ms using List.reverseRecOn with
  | nil => exact ⟨.empty timeout, hnew timeout⟩
  | append_singleton ms m ih =>
    rw [runAll_append] at hb ⊢
    have hb' : ((Client.runAll { requestTimeout := timeout } ms).1.step m).1.link.issued ≤ 2 ^ 64 := hb
    obtain ⟨hs, hp⟩ := ih (Nat.le_trans (issued_step _ m) hb')
    exact ⟨(hs.step m hb').sound, hstep _ m hs hb' hp⟩

theorem Reachable.sound (hc : c.Reachable) (hb : c.link.issued ≤ 2 ^ 64) : c.Sound :=
  (hc.induction (P := fun _ => True) hb (fun _ => trivial) fun _ _ _ _ _ => trivial).1

theorem mem_ends {o : Owner} {a : Act} (ha : a ∈ c.ends c' o) :
    a = .transactionEnded ∨ a = .sessionEnded ∨ a = .lost := by
  unfold ends at ha
  simp only [List.mem_append] at ha
  rcases ha with (ha | ha) | ha <;> split at ha <;> simp at ha
  · exact .inl ha
  · exact .inr (.inl ha)
  · exact .inr (.inr ha)

theorem ownActs_cases (c : Client α) (m : Move α) (h : Handle) (q : Query α) :
    c.ownActs h q m = [] ∨ ∃ a, c.ownActs h q m = [a] ∧ (c.soloOf h q).Takes a := by
  cases m with
  | call k =>
    simp only [ownActs]
    split
    · rename_i hw _
      split
      · exact .inr ⟨_, rfl, fun _ _ => by rw [soloOf, hw]; rfl⟩
      · exact .inl rfl
    · exact .inl rfl
  | arrive f =>
    simp only [ownActs]
    split
    · exact .inr ⟨_, rfl, by simp [Solo.Takes]⟩
    · exact .inl rfl
  | lose => exact .inl rfl
  | resume =>
    simp only [ownActs]
    split
    · exact .inr ⟨_, rfl, by simp [Solo.Takes]⟩
    · exact .inl rfl
  | expire =>
    simp only [ownActs]
    split
    · split
      · exact .inr ⟨_, rfl, by simp [Solo.Takes]⟩
      · split
        · exact .inr ⟨_, rfl, by simp [Solo.Takes]⟩
        · exact .inl rfl
    · exact .inl rfl

/-- A reply to a call on a query is the reply to what the move is for the query. -/
theorem Stepped.replied {o : Outcome α} (ho : c.Stepped m o) {h : Handle} {q : Query α}
    (hq : c.queries[h]? = some q) (hcon : c.concerns m h = true) {r : Reply α} (hr : o.2 = some r) :
    ∃ a q', o.1.queries[h]? = some q' ∧ q'.lane = q.lane ∧ c.ownActs h q m = [a] ∧
      ((c.soloOf h q).act a).2 = some r ∧ o.1.soloOf h q' = { ((c.soloOf h q).act a).1 with
        line := c.toll o.1 q.owner ((c.soloOf h q).act a).1.line } := by
  obtain ⟨q', hq', hl, -, hacts⟩ := ho.solo h q hq
  rw [hcon, if_pos rfl, hr] at hacts
  rcases ownActs_cases c m h q with hown | ⟨a, hown, -⟩
  · rw [hown, List.nil_append, acts_ends] at hacts
    cases congrArg Prod.snd hacts
  · rw [hown, List.singleton_append, Solo.acts_cons, acts_ends] at hacts
    obtain ⟨hsolo, hreply⟩ := Prod.mk.inj hacts
    refine ⟨a, q', hq', hl, hown, ?_, hsolo.symm⟩
    rw [List.append_nil] at hreply
    exact Option.toList_eq_singleton_iff.1 hreply

/-- What every act keeps of a query by itself, the ends of owners keep: none of them is a call. -/
theorem solo_ends {J : Solo α → Prop} (hact : ∀ s a, s.Takes a → J s → J (s.act a).1)
    {as : List Act} (has : ∀ a ∈ as, a = .transactionEnded ∨ a = .sessionEnded ∨ a = .lost)
    {s : Solo α} (hs : J s) : J (s.acts as).1 := by
  induction as generalizing s with
  | nil => exact hs
  | cons a as ih =>
    rw [Solo.acts_cons]
    refine ih (fun b hb => has b (List.mem_cons_of_mem _ hb)) (hact s a ?_ hs)
    rintro k rfl
    rcases has _ List.mem_cons_self with h | h | h <;> cases h

/-- What every act keeps of a query by itself, a move keeps. -/
theorem solo_acts {J : Solo α → Prop} (hact : ∀ s a, s.Takes a → J s → J (s.act a).1)
    {h : Handle} {q : Query α} (hJ : J (c.soloOf h q)) (m : Move α) :
    J ((c.soloOf h q).acts (c.acts m h q)).1 := by
  rw [acts, Solo.acts_append]
  refine solo_ends hact (fun a ha => mem_ends ha) ?_
  rcases ownActs_cases c m h q with hown | ⟨a, hown, ha⟩
  · rw [hown]
    exact hJ
  · rw [hown]
    exact hact _ a ha hJ

/-- What every act keeps of a query by itself, a run keeps. -/
theorem Sound.solo_runAll {J : Solo α → Prop} (hc : c.Sound)
    (hact : ∀ s a, s.Takes a → J s → J (s.act a).1) {ms : List (Move α)}
    (hb : (c.runAll ms).1.link.issued ≤ 2 ^ 64) {h : Handle} {q : Query α}
    (hq : c.queries[h]? = some q) (hJ : J (c.soloOf h q)) : ∃ q',
      (c.runAll ms).1.queries[h]? = some q' ∧ q'.lane = q.lane ∧ J ((c.runAll ms).1.soloOf h q') := by
  induction ms generalizing c q with
  | nil => exact ⟨q, hq, rfl, hJ⟩
  | cons m ms ih =>
    rw [runAll_cons] at hb ⊢
    have hstep := hc.step m (Nat.le_trans (issued_runAll _ ms) hb)
    obtain ⟨q₁, hq₁, hl, -, hacts⟩ := hstep.solo h q hq
    have hkeep := solo_acts hact hJ m
    rw [acts, hacts] at hkeep
    obtain ⟨q', hq', hl', hJ'⟩ := ih hstep.sound hb hq₁ hkeep
    exact ⟨q', hq', hl'.trans hl, hJ'⟩

/-- What holds of every query when it is opened, and is kept by every act, holds in every state that
is reached before lanes run out. -/
theorem Reachable.solo {J : Solo α → Prop} (hc : c.Reachable) (hb : c.link.issued ≤ 2 ^ 64)
    (hopen : ∀ transaction text options reader, J (.opening transaction text options reader))
    (hact : ∀ s a, s.Takes a → J s → J (s.act a).1) {h : Handle} {q : Query α}
    (hq : c.queries[h]? = some q) : J (c.soloOf h q) := by
  have hall := hc.induction (P := fun c => ∀ (h : Handle) q, c.queries[h]? = some q →
    J (c.soloOf h q)) hb (by simp) ?_
  · exact hall.2 h q hq
  · intro c m hs hb hJ h q hq
    have hstep := hs.step m hb
    cases hq₀ : c.queries[h]? with
    | some q₀ =>
      obtain ⟨q', hq', -, -, hacts⟩ := hstep.solo h q₀ hq₀
      rw [hq] at hq'
      cases hq'
      have hkeep := solo_acts hact (hJ h q₀ hq₀) m
      rw [acts, hacts] at hkeep
      exact hkeep
    | none =>
      obtain ⟨t, text, options, reader, x, -, -, -, -, -, -, -, -, hsolo, -⟩ :=
        hstep.opened h q hq hq₀
      rw [hsolo]
      exact hopen x.id text options reader

end Client

end QueryLanes
