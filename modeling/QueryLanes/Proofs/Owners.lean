import QueryLanes.Proofs.Ageing
import QueryLanes.Proofs.Conservation
import QueryLanes.Proofs.Growth

/-!
# Owners

What a query still sends after the transaction or the session that it belongs to has ended. The end
strikes the wave that is going on, so that no token comes any more; but a token that is already in
the inbox is not taken back. `Client.frames_after_end` says that with such a token, and only then,
the next batch is still asked for.
-/

namespace QueryLanes

variable {α : Type}

/-! ## Frames -/

/-- The requests sent on a lane, in order. -/
def Link.frames (l : Link) (lane : Lane) : List Request :=
  (l.sent.filter (·.lane == lane)).map (·.body)

theorem Link.frames_eq (l : Link) (lane : Lane) :
    l.frames lane = (l.waves lane).map (·.request) := (l.map_request_waves lane).symm

/-! ## Queries whose last wave is over -/

namespace Solo

variable {s : Solo α} {done : List Wave} {w : Wave} {read rest : List Payload}

/-- The last wave is over, and no token of it can be sent back. -/
structure Spent (s : Solo α) (done : List Wave) (w : Wave) : Prop where
  stands : Stands s
  waves : s.line.waves = done ++ [w]
  finished : w.isOver = true
  mute : s.line.isOpen = false ∨ s.query.held = false ∨ s.query.progress.isOver = true ∨
    w.token? = none

theorem Spent.mild {s' : Solo α} (h : s.Spent done w) (hm : s.Mild s') (hs : Stands s') :
    s'.Spent done w where
  stands := hs
  waves := hm.line.1.trans h.waves
  finished := h.finished
  mute := by
    rcases h.mute with ho | hh | hp | ht
    · exact .inl (hm.line.2.trans ho)
    · refine .inr (.inl ?_)
      rw [Bool.eq_false_iff] at hh ⊢
      exact fun h' => hh (hm.held h')
    · exact .inr (.inr (.inl (by rw [hm.progress, hp])))
    · exact .inr (.inr (.inr ht))

/-! ### Deliveries -/

/-- With no token, or no connection, a delivery of the last wave sends nothing. -/
theorem line_of_mute {d : Delivery} (h : StandsAt s [d] done w read rest)
    (hheld : s.query.held = true) (hprog : s.query.progress.isOver = false)
    (hmute : s.line.isOpen = false ∨ w.token? = none) (demand : Demand α) :
    (s.pulled demand d).1.line = s.line := by
  have hnone : (if s.line.isOpen then d.token? else none) = none := by
    split
    · rename_i ho
      refine Option.eq_none_iff_forall_ne_some.2 fun token ht => ?_
      obtain ⟨i, rfl, hi⟩ := Delivery.token?_eq_some.1 ht
      rcases h.taken hheld hprog with ⟨p, -, hd, -, -⟩ | ⟨-, hend, -⟩
      · cases hd
        cases hi
      · rcases hmute with hc | hn
        · rw [ho] at hc
          cases hc
        · rw [Wave.token?_eq_some.2 ⟨i, hend, hi⟩] at hn
          cases hn
    · rfl
  rw [line_pulled, hnone]
  rfl

theorem Spent.muted (h : s.Spent done w) (hheld : s.query.held = true)
    (hover : s.query.progress.isOver = false) : s.line.isOpen = false ∨ w.token? = none := by
  rcases h.mute with ho | hh | hp | ht
  · exact .inl ho
  · rw [hheld] at hh
    cases hh
  · rw [hover] at hp
    cases hp
  · exact .inr ht

theorem Spent.taken (h : s.Spent done w) {s' : Solo α} (hs' : Stands s')
    (hline : s'.line.waves = s.line.waves ∧ s'.line.isOpen = s.line.isOpen)
    (hmute : s.line.isOpen = false ∨ w.token? = none) : s'.Spent done w where
  stands := hs'
  waves := hline.1.trans h.waves
  finished := h.finished
  mute := by
    rcases hmute with ho | ht
    · exact .inl (hline.2.trans ho)
    · exact .inr (.inr (.inr ht))

theorem Spent.take (h : s.Spent done w) : s.take.1.Spent done w := by
  have hstands := h.stands.take
  obtain ⟨done', w', read, rest, hs⟩ := h.stands
  obtain ⟨rfl, rfl⟩ := List.append_singleton_inj.1 (h.waves.symm.trans hs.waves)
  rcases hs.take_cases with htake | ⟨drain, d, line, htake, hp, hheld, hpend, -⟩ |
    ⟨demand, d, s', htake, hp, hheld, hover, h', hheld', hover'⟩ <;> rw [htake] at hstands ⊢
  · exact h
  · refine h.taken hstands ?_ (h.muted hheld (by rw [hpend]; rfl))
    rw [line_started]
    exact Line.same_poll hp
  · have hline := same_poll hp
    have hmute := h.muted hheld hover
    refine h.taken hstands ?_ hmute
    rw [← hline.2] at hmute
    rw [line_of_mute h' hheld' hover' hmute demand]
    exact hline

theorem Spent.act (h : s.Spent done w) (a : Act) : (s.act a).1.Spent done w := by
  have hstands := h.stands.act a
  have hlive : s.line.isLive = false := by
    rw [Line.isLive, h.waves, Wave.ongoing_concat, h.finished]
    rfl
  cases a with
  | ask k => exact h.mild (mild_ask s k) hstands
  | take => exact h.take
  | giveUp => exact h.mild (mild_giveUp s) hstands
  | heard r =>
    refine h.mild (mild_of_query rfl ?_ (Line.isOpen_hear _ _)) hstands
    rw [Solo.act, Line.hear_of_not_live hlive]
  | transactionEnded =>
    refine h.mild (mild_of_query rfl ?_ (Line.isOpen_strike _ _)) hstands
    rw [Solo.act, Line.strike_of_not_live hlive]
  | sessionEnded =>
    refine h.mild (mild_of_query rfl ?_ (Line.isOpen_strike _ _)) hstands
    rw [Solo.act, Line.strike_of_not_live hlive]
  | lost =>
    refine ⟨hstands, ?_, h.finished, .inl rfl⟩
    rw [Solo.act, Line.lose, Line.strike_of_not_live hlive]
    exact h.waves

/-! ### Asking for the next answer -/

theorem poll_of_ahead {d : Delivery} {ds : List Delivery}
    (h : s.query.ahead s.line.inbox = d :: ds) : ∃ s', s.poll = some (d, s') ∧
      s'.waiting = s.waiting ∧ s'.query.progress = s.query.progress := by
  unfold poll
  unfold Query.ahead at h
  cases hst : s.query.stash with
  | some r =>
    rw [hst] at h
    obtain ⟨rfl, -⟩ := List.cons.inj h
    exact ⟨_, rfl, rfl, rfl⟩
  | none =>
    rw [hst] at h
    cases hb : s.line.inbox with
    | none =>
      rw [hb] at h
      cases h
    | some b =>
      rw [hb] at h
      have hq : b.queue = d :: ds := h
      unfold Line.poll
      rw [hb]
      dsimp only
      rw [hq]
      exact ⟨_, rfl, rfl, rfl⟩

theorem beginPull_of_not_over (hover : s.query.progress.isOver = false) (demand : Demand α) :
    s.beginPull demand = ({ s with waiting := some (.pull demand) }, none) := by
  unfold beginPull
  cases hp : s.query.progress <;> rw [hp] at hover <;> first | rfl | cases hover

/-- A call for the next answer, which is taken on once. -/
def pullOnce (s : Solo α) : Solo α := (s.acts [.ask .nextAnswer, .take]).1

theorem pullOnce_eq (hheld : s.query.held = true) (hover : s.query.progress.isOver = false)
    {d : Delivery} {ds : List Delivery} (h : s.query.ahead s.line.inbox = d :: ds) :
    ∃ s', Solo.poll { s with waiting := some (.pull .answer) } = some (d, s') ∧
      s.pullOnce = (s'.pulled .answer d).1 := by
  have hbegin : s.ask .nextAnswer = ({ s with waiting := some (.pull .answer) }, none) := by
    unfold ask
    rw [hheld]
    exact beginPull_of_not_over hover .answer
  obtain ⟨s', hs', -, -⟩ := poll_of_ahead (s := { s with waiting := some (.pull .answer) }) h
  refine ⟨s', hs', ?_⟩
  show ((s.ask .nextAnswer).1.take).1 = _
  rw [hbegin]
  unfold take
  dsimp only
  rw [hs']

/-- A query that stands before an answer takes it. -/
theorem pullOnce_data {p : Payload} (h : StandsAt s [] done w read (p :: rest))
    (hheld : s.query.held = true) (hover : s.query.progress.isOver = false) :
    StandsAt s.pullOnce [] done w (read ++ [p]) rest ∧ s.pullOnce.waiting = none ∧
      s.pullOnce.query.held = true ∧ s.pullOnce.query.progress.isOver = false ∧
      s.pullOnce.line.isOpen = s.line.isOpen := by
  have hahead := h.ahead hheld
  rw [List.nil_append, List.map_cons, List.cons_append] at hahead
  obtain ⟨s', hp, heq⟩ := pullOnce_eq hheld hover hahead
  have hwait := h.wait (p := .pull .answer) ⟨hheld, hover⟩
  obtain ⟨h', hheld', hover'⟩ := hwait.poll hheld hover hp
  have hline := same_poll hp
  rcases h'.taken hheld' hover' with ⟨p', rest', hd, hrest, hahead'⟩ | ⟨hnil, -, -⟩
  · cases hd
    cases hrest
    have hn := h'.next hahead'
    rw [heq, Function.comp_apply, pulled_data]
    cases s'.query.reader s'.query.handed p <;> exact ⟨hn, rfl, hheld', rfl, hline.2⟩
  · cases hnil

/-- A query that stands before a token sends it back. -/
theorem pullOnce_token {token : UInt64} (h : StandsAt s [] done w read [])
    (hheld : s.query.held = true) (hover : s.query.progress.isOver = false)
    (ho : s.line.isOpen = true) {i : Item} (hend : w.ending = some (.ok (.item i)))
    (hi : i.meaning = .continuation token) :
    ∃ v, s.pullOnce.line.waves = (done ++ [w]) ++ [v] := by
  have hahead := h.ahead hheld
  rw [List.nil_append, List.map_nil, List.nil_append, hover, hend] at hahead
  obtain ⟨s', hp, heq⟩ := pullOnce_eq hheld hover hahead
  have hwait := h.wait (p := .pull .answer) ⟨hheld, hover⟩
  obtain ⟨h', -, -⟩ := hwait.poll hheld hover hp
  have hline := same_poll hp
  rw [heq, pulled_token hi, if_pos (hline.2.trans ho)]
  exact ⟨_, by dsimp only; rw [Line.renew, h'.waves]⟩

end Solo

namespace Client

variable {c c' : Client α} {m : Move α} {h : Handle} {q : Query α}

/-! ## New queries -/

/-- A transaction that has ended, or whose session has, sends no first request. -/
theorem sent_query_of_closed {t : Handle} (hclosed : ∀ x, c.transaction? t = some x →
      x.isOpen = false ∨ c.sessionFlag x.session = false)
    (text : Payload) (options : QueryOptions) (reader : Reader α) :
    (c.call (.query t text options reader)).1.link.sent = c.link.sent := by
  cases hw : c.waiting with
  | some w => rw [call_of_waiting hw]
  | none =>
  cases hx : c.transaction? t with
  | none =>
    rw [call_of_no_transaction hw rfl hx]
    rfl
  | some x =>
    have hno : c.ensureOpen x ≠ .ok () := fun ho => by
      obtain ⟨-, hs, ho⟩ := ensureOpen_eq_ok.1 ho
      rcases hclosed x hx with h | h
      · rw [h] at ho
        cases ho
      · rw [h] at hs
        cases hs
    have h := c.enters x text options reader
    rw [call_query hw hx]
    generalize c.openQuery x text options reader = o at h ⊢
    cases h with
    | refused => rfl
    | unsent _ ho | opened _ ho => exact absurd ho hno

/-! ## Steps that leave a query alone -/

theorem Stepped.still {o : Outcome α} (ho : c.Stepped m o) (hq : c.queries[h]? = some q)
    (hown : c.ownActs h q m = []) (hlive : (c.link.line q.lane q.inbox).isLive = false)
    (hopen : o.1.link.isOpen = c.link.isOpen) : ∃ q', o.1.queries[h]? = some q' ∧
      q'.lane = q.lane ∧ o.1.soloOf h q' = c.soloOf h q := by
  obtain ⟨q', hq', hl, -, hacts⟩ := ho.solo h q hq
  rw [hown, List.nil_append, acts_ends] at hacts
  have hsolo := (Prod.mk.inj hacts).1
  have htoll : c.toll o.1 q.owner _ = _ := toll_of_not_live hlive hopen q.owner
  refine ⟨q', hq', hl, ?_⟩
  rw [← hsolo]
  simp only [soloOf, htoll]

/-- A response has come for an errand. -/
theorem OnErrand.poll_of_not_live {e : Errand} {i : Nat} (he : c.OnErrand e i)
    (hlive : (c.link.line c.link.lastLane i).isLive = false) :
    ∃ d r, c.link.router.poll i = some (d, r) := by
  obtain ⟨w, b, hwaves, hb, hqueue⟩ := he.unread.queue
  have hover : w.isOver = true := by
    simpa [Line.isLive, hwaves, Wave.ongoing] using hlive
  obtain ⟨d, hend⟩ := Option.isSome_iff_exists.1 hover
  have hb : c.link.router.inbox? i = some b := hb
  unfold Router.poll
  rw [hb]
  dsimp only
  cases hq : b.queue with
  | cons d' rest => exact ⟨_, _, rfl⟩
  | nil =>
    rw [hq, Wave.deliveries, hend] at hqueue
    simp at hqueue

/-- An errand whose response has come is over with the next move, and a query on whose lane nothing
is going on does not notice. -/
theorem Sound.errand_resumed (hc : c.Sound) (hb : c.link.issued ≤ 2 ^ 64) {e : Errand} {i : Nat}
    (hw : c.waiting = some (.errand e i)) (hline : (c.link.line c.link.lastLane i).isLive = false)
    (hq : c.queries[h]? = some q) (hlive : (c.link.line q.lane q.inbox).isLive = false) :
    c.resume.1.Sound ∧ c.resume.1.waiting = none ∧ ∃ q', c.resume.1.queries[h]? = some q' ∧
      q'.lane = q.lane ∧ c.resume.1.soloOf h q' = c.soloOf h q := by
  obtain ⟨d, r, hpoll⟩ := (hc.errand e i hw).poll_of_not_live hline
  have hresume : c.resume = conclude { c with link := { c.link with router := r.drop i } } e d := by
    rw [resume_errand hw, hpoll]
  have hstep : c.Stepped .resume c.resume := hc.step .resume (by
    show c.resume.1.link.issued ≤ 2 ^ 64
    rwa [issued_resume])
  have hopen : c.resume.1.link.isOpen = c.link.isOpen := by
    rw [hresume, isOpen_conclude]
  have hown : c.ownActs h q .resume = [] := by simp [ownActs, waitsOn, hw, Wait.on]
  exact ⟨hstep.sound, by rw [hresume, waiting_conclude], hstep.still hq hown hlive hopen⟩

/-- An errand that is given an acknowledgement comes to its end. -/
theorem Sound.errand_over (hc : c.Sound) (hb : c.link.issued ≤ 2 ^ 64) {e : Errand} {i : Nat}
    (hw : c.waiting = some (.errand e i)) (hq : c.queries[h]? = some q)
    (hlive : (c.link.line q.lane q.inbox).isLive = false) : ∃ ms q', (c.runAll ms).1.Sound ∧
      (c.runAll ms).1.waiting = none ∧ (c.runAll ms).1.link.issued = c.link.issued ∧
      (c.runAll ms).1.queries[h]? = some q' ∧ q'.lane = q.lane ∧
      (c.runAll ms).1.soloOf h q' = c.soloOf h q := by
  obtain ⟨o, hwired⟩ := (hc.errand e i hw).wired
  have hne := (hc.errand e i hw).apart h q hq
  obtain ⟨f, hf⟩ : ∃ f : ServerFrame, f = ⟨c.link.lastLane, .acknowledged⟩ := ⟨_, rfl⟩
  obtain ⟨c₁, hc₁⟩ : ∃ c₁ : Client α, c₁ = { c with link := c.link.receive f } := ⟨_, rfl⟩
  have hissued : c₁.link.issued = c.link.issued := by
    rw [hc₁]
    exact issued_receive c.link f
  have hstep : c.Stepped (.arrive f) (c₁, none) := by
    rw [hc₁]
    exact hc.stepped_arrive f (by rwa [issued_receive])
  have hown : c.ownActs h q (.arrive f) = [] := by
    rw [ownActs, if_neg (by rw [hf]; exact Ne.symm hne.1)]
  have hopen : c₁.link.isOpen = c.link.isOpen := by
    rw [hc₁]
    exact isOpen_receive c.link f
  obtain ⟨q₁, hq₁, hl₁, hsolo₁⟩ := hstep.still hq hown hlive hopen
  have hline : (c₁.link.line c₁.link.lastLane i).isLive = false := by
    have hlast : c₁.link.lastLane = c.link.lastLane := by
      rw [hc₁]
      exact lastLane_receive c.link f
    have hline := hwired.line_receive hc.link f
    rw [hlast, hc₁, hline, if_pos (by rw [hf]), hf]
    exact Line.isLive_hear_terminal _ rfl
  have hlive₁ : (c₁.link.line q₁.lane q₁.inbox).isLive = false :=
    (congrArg (·.line.isLive) hsolo₁).trans hlive
  have hw₁ : c₁.waiting = some (.errand e i) := by rw [hc₁, hw]
  obtain ⟨hsound, hwait, q', hq', hl', hsolo⟩ :=
    hstep.sound.errand_resumed (by rwa [hissued]) hw₁ hline hq₁ hlive₁
  have hrun : (c.runAll [.arrive f, .resume]).1 = c₁.resume.1 := by rw [hc₁]; rfl
  refine ⟨[.arrive f, .resume], q', ?_⟩
  rw [hrun]
  refine ⟨hsound, hwait, ?_, hq', hl'.trans hl₁, hsolo.trans hsolo₁⟩
  rw [issued_resume, hissued]

/-! ## Asking again -/

/-- The query finds a token after the answers that are ahead, and can send it. -/
def AsksAgain (c : Client α) (q : Query α) : Prop :=
  c.link.isOpen = true ∧ q.held = true ∧ ∃ (ps : List Payload) (i : Item) (token : UInt64),
    c.ahead q = ps.map (.ok ∘ .data) ++ [.ok (.item i)] ∧ i.meaning = .continuation token

theorem beginPull_of_not_over (hover : q.progress.isOver = false) (demand : Demand α) :
    c.beginPull h q demand = ({ c with waiting := some (.pull h demand) }, none) := by
  obtain ⟨hx, hf⟩ := Progress.isOver_eq_false.1 hover
  have hb := c.beginsPull h q demand
  generalize c.beginPull h q demand = o at hb ⊢
  cases hb with
  | exhausted hp => exact absurd hp hx
  | failed hp => exact absurd hp (hf _)
  | waits => rfl

/-- A call for the next answer on a query of an idle client. -/
theorem Sound.pullOnce (hc : c.Sound) (hb : c.link.issued ≤ 2 ^ 64) (hw : c.waiting = none)
    (hq : c.queries[h]? = some q) (hheld : q.held = true) (hover : q.progress.isOver = false) :
    ∃ ms q', (c.runAll ms).1.Sound ∧ (c.runAll ms).1.link.issued = c.link.issued ∧
      (c.runAll ms).1.queries[h]? = some q' ∧ q'.lane = q.lane ∧
      (c.runAll ms).1.soloOf h q' = (c.soloOf h q).pullOnce ∧
      (c.runAll ms).1.waiting = (c.soloOf h q).pullOnce.waiting.map (Pause.wait h) := by
  obtain ⟨c₁, hc₁⟩ : ∃ c₁ : Client α, c₁ = { c with waiting := some (.pull h .answer) } := ⟨_, rfl⟩
  have hcall : c.step (.call (.nextAnswer h)) = (c₁, none) := by
    show c.call (.nextAnswer h) = _
    have hheld : c.query? h = some q := by rw [query?_eq hq, hheld, if_pos rfl]
    rw [call_nextAnswer hw hheld, beginPull_of_not_over hover, hc₁]
  have hstep : c.Stepped (.call (.nextAnswer h)) (c₁, none) := by
    have h := hc.step (.call (.nextAnswer h)) (by rw [hcall, hc₁]; exact hb)
    rwa [hcall] at h
  have hq₁ : c₁.queries[h]? = some q := by rw [hc₁, hq]
  have hsolo₁ : c₁.soloOf h q = ((c.soloOf h q).ask .nextAnswer).1 := by
    obtain ⟨q', hq', -, -, hacts⟩ := hstep.solo h q hq
    rw [hq₁] at hq'
    cases hq'
    have hown : c.ownActs h q (.call (.nextAnswer h)) = [.ask .nextAnswer] := by
      simp [ownActs, hw, Call.ask?]
    have hends : c.ends c₁ q.owner = [] := by
      rw [hc₁]
      exact ends_of_same rfl rfl rfl _
    rw [hown, hends] at hacts
    exact (congrArg Prod.fst hacts).symm
  have hb₁ : c₁.link.issued ≤ 2 ^ 64 := by
    rw [hc₁]
    exact hb
  have hw₁ : c₁.waiting = some (Pause.wait h (.pull .answer)) := by rw [hc₁]; rfl
  have hresume := follows_resume hstep.sound.link (hstep.sound.wired h q hq₁) hq₁ hw₁ hb₁
  obtain ⟨q', hq', hl, hsolo, hwait⟩ := hresume.soloOf hq₁
  have hview : (c₁.view q (some (.pull .answer))).take.1 = (c.soloOf h q).pullOnce := by
    have hview : c₁.view q (some (.pull .answer)) = c₁.soloOf h q := by
      rw [soloOf, hw₁, Option.bind_some, Pause.on_wait, view]
    rw [hview, hsolo₁]
    rfl
  have hrun : (c.runAll [.call (.nextAnswer h), .resume]).1 = c₁.resume.1 := by
    rw [runAll_cons, hcall]
    rfl
  rw [hview] at hsolo hwait
  refine ⟨[.call (.nextAnswer h), .resume], q', ?_⟩
  rw [hrun]
  refine ⟨?_, ?_, hq', hl, hsolo, hwait⟩
  · refine (hstep.sound.step .resume ?_).sound
    show c₁.resume.1.link.issued ≤ 2 ^ 64
    rwa [issued_resume]
  · rw [issued_resume, hc₁]

/-- By induction on the answers before it, the token is reached and sent back. -/
theorem Sound.sends_token (hc : c.Sound) (hb : c.link.issued ≤ 2 ^ 64) (hw : c.waiting = none)
    (hq : c.queries[h]? = some q) (hheld : q.held = true) (hover : q.progress.isOver = false)
    (ho : c.link.isOpen = true) {done : List Wave} {w : Wave} {read rest : List Payload}
    (hs : StandsAt (c.soloOf h q) [] done w read rest) {i : Item} {token : UInt64}
    (hend : w.ending = some (.ok (.item i))) (hi : i.meaning = .continuation token) :
    ∃ ms, (c.runAll ms).1.link.issued ≤ 2 ^ 64 ∧
      (c.runAll ms).1.link.frames q.lane ≠ c.link.frames q.lane := by
  induction rest generalizing c q read with
  | nil =>
    obtain ⟨ms, q', -, hissued, hq', hl, hsolo, -⟩ := hc.pullOnce hb hw hq hheld hover
    obtain ⟨v, hv⟩ := Solo.pullOnce_token hs hheld hover ho hend hi
    refine ⟨ms, by rwa [hissued], fun heq => ?_⟩
    have hwaves : (c.runAll ms).1.link.waves q.lane = c.link.waves q.lane ++ [v] := by
      rw [← hsolo] at hv
      rw [show c.link.waves q.lane = done ++ [w] from hs.waves, ← hl]
      exact hv
    rw [Link.frames_eq, Link.frames_eq, hwaves] at heq
    simpa using congrArg List.length heq
  | cons p rest ih =>
    obtain ⟨ms, q', hc', hissued, hq', hl, hsolo, hwait⟩ := hc.pullOnce hb hw hq hheld hover
    obtain ⟨hs', hnone, hheld', hover', ho'⟩ := Solo.pullOnce_data hs hheld hover
    rw [hnone, Option.map_none] at hwait
    rw [← hsolo] at hs' hheld' hover' ho'
    obtain ⟨ms', hb', hne⟩ := ih hc' (by rwa [hissued]) hwait hq' hheld' hover' (ho'.trans ho) hs'
    refine ⟨ms ++ ms', ?_, ?_⟩
    · rwa [runAll_append]
    · have hsame : (c.runAll ms).1.link.frames q.lane = c.link.frames q.lane := by
        have hwaves : (c.runAll ms).1.link.waves q'.lane = done ++ [w] := hs'.waves
        rw [Link.frames_eq, Link.frames_eq, ← hl, hwaves, hl,
          show c.link.waves q.lane = done ++ [w] from hs.waves]
      rw [runAll_append, ← hsame, ← hl]
      exact hne

/-! ## Ended owners -/

/-- After the step in which its owner ended, a query has nothing going on on its lane. -/
theorem Stepped.not_live {o : Outcome α} (ho : c.Stepped m o) (hq : c.queries[h]? = some q)
    (hended : c.endsTransaction o.1 q.owner = true ∨ c.endsSession o.1 q.owner = true) :
    ∃ q', o.1.queries[h]? = some q' ∧ q'.lane = q.lane ∧
      (o.1.link.line q'.lane q'.inbox).isLive = false := by
  obtain ⟨q', hq', hl, -, hacts⟩ := ho.solo h q hq
  refine ⟨q', hq', hl, ?_⟩
  rw [Solo.acts_append, acts_ends] at hacts
  have hline : _ = o.1.link.line q'.lane q'.inbox :=
    congrArg (·.line) (Prod.mk.inj hacts).1
  rw [← hline]
  exact isLive_toll hended _

/-- After a step in which an owner ended, no call on a query waits. -/
theorem Stepped.waiting_of_ended {o : Outcome α} (ho : c.Stepped m o) {own : Owner}
    (hended : c.endsTransaction o.1 own = true ∨ c.endsSession o.1 own = true) :
    o.1.waiting = none ∨ ∃ e i, o.1.waiting = some (.errand e i) := by
  cases hw : o.1.waiting with
  | none => exact .inl rfl
  | some w =>
    rcases wait_cases w with he | ⟨h, p, rfl⟩
    · obtain ⟨e, i, rfl⟩ := he
      exact .inr ⟨e, i, rfl⟩
    · obtain ⟨ht, hs⟩ := ho.calm h p hw
      unfold endsTransaction endsSession at hended
      rw [ht, hs, ended_self, ended_self] at hended
      rcases hended with h | h <;> cases h

/-- When its last wave is over, the token that a query can send is what ended that wave. -/
theorem asksAgain_iff {done : List Wave} {w : Wave} {read rest : List Payload}
    (hs : StandsAt (c.soloOf h q) [] done w read rest) (hover : w.isOver = true) :
    c.AsksAgain q ↔ c.link.isOpen = true ∧ q.held = true ∧ q.progress.isOver = false ∧
      ∃ i token, w.ending = some (.ok (.item i)) ∧ i.meaning = .continuation token := by
  obtain ⟨d, hend⟩ := Option.isSome_iff_exists.1 hover
  have hahead (hheld : q.held = true) : c.ahead q = _ := hs.ahead hheld
  constructor
  · rintro ⟨ho, hheld, ps, i, token, hps, hi⟩
    rw [hahead hheld] at hps
    cases hp : q.progress.isOver with
    | true =>
      have hp' : (c.soloOf h q).query.progress.isOver = true := hp
      rw [hp', (hs.finished hp').1] at hps
      simp at hps
    | false =>
      have hp' : (c.soloOf h q).query.progress.isOver = false := hp
      rw [hp', hend] at hps
      simp only [Bool.false_eq_true, if_false, Option.toList_some] at hps
      obtain ⟨-, hd⟩ := List.append_singleton_inj.1 hps
      exact ⟨ho, hheld, rfl, i, token, by rw [hend, hd], hi⟩
  · rintro ⟨ho, hheld, hp, i, token, hi, hm⟩
    refine ⟨ho, hheld, rest, i, token, ?_, hm⟩
    have hp' : (c.soloOf h q).query.progress.isOver = false := hp
    rw [hahead hheld, hp', hi]
    rfl

/-- A query that cannot ask again after the end of its owner is spent. -/
theorem spent_of_not_asksAgain {done : List Wave} {w : Wave} {read rest : List Payload}
    (hs : StandsAt (c.soloOf h q) [] done w read rest) (hover : w.isOver = true)
    (hno : ¬ c.AsksAgain q) : (c.soloOf h q).Spent done w where
  stands := ⟨done, w, read, rest, hs⟩
  waves := hs.waves
  finished := hover
  mute := by
    rw [asksAgain_iff hs hover] at hno
    by_cases ho : c.link.isOpen = true
    · by_cases hh : q.held = true
      · by_cases hp : q.progress.isOver = true
        · exact .inr (.inr (.inl hp))
        · refine .inr (.inr (.inr ?_))
          rw [Option.eq_none_iff_forall_ne_some]
          intro token ht
          obtain ⟨i, hend, hi⟩ := Wave.token?_eq_some.1 ht
          exact hno ⟨ho, hh, by simpa using hp, i, token, hend, hi⟩
      · exact .inr (.inl (Bool.eq_false_iff.2 hh))
    · exact .inl (Bool.eq_false_iff.2 ho)

theorem Sound.sends_iff (hc : c.Sound) (hb : c.link.issued ≤ 2 ^ 64)
    (hw : c.waiting = none ∨ ∃ e i, c.waiting = some (.errand e i))
    (hq : c.queries[h]? = some q) {done : List Wave} {w : Wave} {read rest : List Payload}
    (hs : StandsAt (c.soloOf h q) [] done w read rest) (hover : w.isOver = true) :
    (∃ ms, (c.runAll ms).1.link.issued ≤ 2 ^ 64 ∧
      (c.runAll ms).1.link.frames q.lane ≠ c.link.frames q.lane) ↔ c.AsksAgain q := by
  constructor
  · rintro ⟨ms, hbm, hne⟩
    by_contra hno
    obtain ⟨q', -, hl, hspent⟩ := hc.solo_runAll (J := (·.Spent done w))
      (fun _ a _ h => h.act a) hbm hq (spent_of_not_asksAgain hs hover hno)
    have hwaves : (c.runAll ms).1.link.waves q'.lane = done ++ [w] := hspent.waves
    refine hne ?_
    rw [Link.frames_eq, Link.frames_eq, ← hl, hwaves, hl,
      show c.link.waves q.lane = done ++ [w] from hs.waves]
  · intro hasks
    obtain ⟨ho, hheld, hp, i, token, hend, hi⟩ := (asksAgain_iff hs hover).1 hasks
    rcases hw with hw | ⟨e, j, hw⟩
    · exact hc.sends_token hb hw hq hheld hp ho hs hend hi
    · have hlive : (c.link.line q.lane q.inbox).isLive = false := by
        have h := hs.isLive
        rw [hover] at h
        exact h
      -- the errand of the end itself comes first
      obtain ⟨ms, q', hc', hw', hissued, hq', hl, hsolo⟩ := hc.errand_over hb hw hq hlive
      rw [← hsolo] at hs
      have hheld' : q'.held = true := (congrArg (·.query.held) hsolo).trans hheld
      have hp' : q'.progress.isOver = false := (congrArg (·.query.progress.isOver) hsolo).trans hp
      have ho' : (c.runAll ms).1.link.isOpen = true := (congrArg (·.line.isOpen) hsolo).trans ho
      obtain ⟨ms', hb', hne⟩ :=
        hc'.sends_token (by rwa [hissued]) hw' hq' hheld' hp' ho' hs hend hi
      have hwaves : (c.runAll ms).1.link.waves q'.lane = c.link.waves q.lane :=
        congrArg (·.line.waves) hsolo
      refine ⟨ms ++ ms', by rwa [runAll_append], ?_⟩
      rw [runAll_append, Link.frames_eq c.link, ← hwaves, ← hl, ← Link.frames_eq]
      exact hne

/-- A transaction that has ended, or whose session has, sends no query any more. A query that was
opened before sends a request on its lane after its owner has ended if, and only if, the token of
the next batch was ahead of it at that moment; otherwise it comes to its end only with the mark of
completion that had come by then. -/
theorem frames_after_end (hc : c.Reachable) (hm : (c.step m).1 = c')
    (hb : c'.link.issued ≤ 2 ^ 64) :
    (∀ (t : Handle) x, c'.transactions[t]? = some x →
      (x.isOpen = false ∨ ∃ y, c'.sessions[x.session]? = some y ∧ y.isOpen = false) →
      ∀ ms text options reader,
        ((c'.runAll ms).1.call (.query t text options reader)).1.link.sent =
          (c'.runAll ms).1.link.sent) ∧
    ∀ (h : Handle) q, c.queries[h]? = some q →
      (c.endsTransaction c' q.owner = true ∨ c.endsSession c' q.owner = true) →
      ∃ q', c'.queries[h]? = some q' ∧ q'.lane = q.lane ∧
        ((∃ ms, (c'.runAll ms).1.link.issued ≤ 2 ^ 64 ∧
          (c'.runAll ms).1.link.frames q.lane ≠ c'.link.frames q.lane) ↔ c'.AsksAgain q') ∧
        (¬ c'.AsksAgain q' → ∀ ms q'', (c'.runAll ms).1.link.issued ≤ 2 ^ 64 →
          (c'.runAll ms).1.queries[h]? = some q'' → q''.progress = .exhausted →
          ∃ done w, c'.link.waves q.lane = done ++ [w] ∧
            w.ending = some (.ok (.item .completion))) := by
  subst hm
  have hstep := (hc.sound (Nat.le_trans (issued_step c m) hb)).step m hb
  refine ⟨fun t x hx hclosed ms text options reader => ?_, fun h q hq hended => ?_⟩
  · have hages := ages_runAll (c.step m).1 ms
    refine sent_query_of_closed (fun x' hx' => ?_) text options reader
    obtain ⟨hs, ho⟩ := hages.transaction? hx hx'
    rcases hclosed with hx₀ | ⟨y, hy, hy₀⟩
    · refine .inl ?_
      rw [Bool.eq_false_iff] at hx₀ ⊢
      exact fun h => hx₀ (ho h)
    · rw [hs]
      exact .inr (hages.sessionFlag hy hy₀)
  · obtain ⟨q', hq', hl, hlive⟩ := hstep.not_live hq hended
    obtain ⟨done, w, read, rest, hs⟩ := (hc.step m).stands hb hq'
    have hover : w.isOver = true := by
      have hnot := hs.isLive
      rw [show ((c.step m).1.soloOf h q').line.isLive = false from hlive] at hnot
      simpa using hnot
    refine ⟨q', hq', hl, ?_, fun hno ms q'' hbm hq'' hex => ?_⟩
    · rw [← hl]
      exact hstep.sound.sends_iff hb (hstep.waiting_of_ended hended) hq' hs hover
    · obtain ⟨q₁, hq₁, hl₁, hspent⟩ := hstep.sound.solo_runAll (J := (·.Spent done w))
        (fun _ a _ h => h.act a) hbm hq' (spent_of_not_asksAgain hs hover hno)
      rw [hq''] at hq₁
      cases hq₁
      obtain ⟨done', w', read', rest', hs'⟩ := hspent.stands
      obtain ⟨-, hww⟩ := List.append_singleton_inj.1 (hspent.waves.symm.trans hs'.waves)
      refine ⟨done, w, ?_, ?_⟩
      · rw [← hl]
        exact hs.waves
      · rw [hww]
        exact hs'.exhausted hex

/-- A query whose first batch has come, with an answer and a token that were not read yet. -/
def unreadToken : List (Move Payload) :=
  [.call (.openSession "db" .data), .arrive ⟨1, .sessionOpened 7⟩, .resume,
    .call (.openTransaction 0 .read), .arrive ⟨2, .transactionOpened 9⟩, .resume,
    .call (.query 0 [113] {} Reader.raw), .arrive ⟨3, .data [1]⟩,
    .arrive ⟨3, .item (.continuation 5)⟩]

theorem frames_after_end_unreadToken :
    ∃ c c' : Client Payload, c = (runAll { requestTimeout := none } unreadToken).1 ∧
      (c.step (.call (.closeTransaction 0))).1 = c' ∧ c'.link.issued ≤ 2 ^ 64 ∧
      (c'.transactions[0]?.any fun x => !x.isOpen) = true ∧
      ∃ q', c'.queries[0]? = some q' ∧ c'.AsksAgain q' ∧
        ∃ ms, (c'.runAll ms).1.link.issued ≤ 2 ^ 64 ∧
          (c'.runAll ms).1.link.frames 3 ≠ c'.link.frames 3 := by
  obtain ⟨c, hc⟩ : ∃ c : Client Payload, c = (runAll { requestTimeout := none } unreadToken).1 :=
    ⟨_, rfl⟩
  obtain ⟨c', hc'⟩ : ∃ c', (c.step (.call (.closeTransaction 0))).1 = c' := ⟨_, rfl⟩
  have hb : c'.link.issued ≤ 2 ^ 64 := by
    rw [← hc', hc]
    decide +kernel
  have hclosed : (c'.transactions[0]?.any fun x => !x.isOpen) = true := by
    rw [← hc', hc]
    decide +kernel
  have hq : c.queries[0]?.map (·.lane) = some 3 := by
    rw [hc]
    decide +kernel
  obtain ⟨q, hq, hlane⟩ := Option.map_eq_some_iff.1 hq
  have hended : c.queries[0]?.any (fun q => c.endsTransaction c' q.owner) = true := by
    rw [← hc', hc]
    decide +kernel
  rw [hq, Option.any_some] at hended
  obtain ⟨q', hq', -, hiff, -⟩ :=
    (frames_after_end ⟨none, unreadToken, hc⟩ hc' hb).2 0 q hq (.inl hended)
  have hahead : c'.queries[0]?.map c'.ahead =
      some [.ok (.data [1]), .ok (.item (.continuation 5))] := by
    rw [← hc', hc]
    decide +kernel
  have hheld : c'.link.isOpen = true ∧ c'.queries[0]?.map (·.held) = some true := by
    rw [← hc', hc]
    decide +kernel
  rw [hq'] at hahead hheld
  have hasks : c'.AsksAgain q' :=
    ⟨hheld.1, Option.some.inj hheld.2, [[1]], .continuation 5, 5, Option.some.inj hahead, rfl⟩
  rw [hlane] at hiff
  exact ⟨c, c', hc, hc', hb, hclosed, q', hq', hasks, hiff.2 hasks⟩

end Client

end QueryLanes
