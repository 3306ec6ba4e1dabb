import QueryLanes.Proofs.Isolation
import QueryLanes.Proofs.Requests

/-!
# Discipline

A query asks for its batches one after the other. Its lane carries its first request and then one
request for each token that it pulled, and nothing else; a request is registered only on a lane on
which nothing goes on, and the next one of a query only when all of the batch before it was handed
out. `Client.disciplined` says so for every run.
-/

namespace QueryLanes

variable {α : Type}

/-! ## Waves one at a time -/

namespace Wave

variable {lane : Lane} {ws : List Wave}

/-- All waves but the last are over. -/
def Settled (ws : List Wave) : Prop := ∀ w ∈ ws.dropLast, w.isOver = true

theorem Settled.all (h : Settled ws) (ho : ongoing ws = false) : ∀ w ∈ ws, w.isOver = true := by
  rcases List.eq_nil_or_concat' ws with rfl | ⟨done, v, rfl⟩
  · simp
  · rw [Settled, List.dropLast_concat] at h
    intro w hw
    rcases List.mem_append.1 hw with hw | hw
    · exact h w hw
    · rw [List.mem_singleton.1 hw]
      simpa using ho

theorem dropLast_modifyLast (ws : List Wave) (f : Wave → Wave) :
    (ws.modifyLast f).dropLast = ws.dropLast := by
  rcases List.eq_nil_or_concat' ws with rfl | ⟨done, w, rfl⟩
  · rfl
  · simp [List.modifyLast_concat]

/-- What is not a frame sent changes at most the last wave, and that only if it is not over. -/
theorem follow_eq (lane : Lane) (ws : List Wave) {e : Entry} (he : ∀ f, e ≠ .sent f) :
    follow lane ws e = ws ∨ ∃ g : Wave → Wave, (∀ w : Wave, w.isOver = true → g w = w) ∧
      follow lane ws e = ws.modifyLast g := by
  cases e with
  | sent f => exact absurd rfl (he f)
  | received f =>
    by_cases hl : f.lane = lane
    · exact .inr ⟨(·.hear f.body), fun w hw => hear_of_isOver hw _, by simp [follow, hl]⟩
    · exact .inl (by simp [follow, hl])
  | failed lanes e =>
    by_cases hl : lane ∈ lanes
    · exact .inr ⟨(·.strike e), fun w hw => by simp [strike, hw], by simp [follow, hl]⟩
    · exact .inl (by simp [follow, hl])
  | ran label => exact .inl rfl

theorem dropLast_follow {e : Entry} (he : ∀ f, e ≠ .sent f) :
    (follow lane ws e).dropLast = ws.dropLast := by
  rcases follow_eq lane ws he with h | ⟨g, -, h⟩ <;> rw [h]
  exact dropLast_modifyLast ws g

theorem follow_of_not_ongoing (ho : ongoing ws = false) {e : Entry} (he : ∀ f, e ≠ .sent f) :
    follow lane ws e = ws := by
  rcases follow_eq lane ws he with h | ⟨g, hg, h⟩ <;> rw [h]
  exact modifyLast_of_not_ongoing ho hg

/-- Without a frame of its own a lane goes on with the wave that it has. -/
theorem dropLast_foldl {es : List Entry} (hes : ∀ f, .sent f ∉ es) :
    (es.foldl (follow lane) ws).dropLast = ws.dropLast := by
  induction es generalizing ws with
  | nil => rfl
  | cons e es ih =>
    rw [List.foldl_cons, ih fun f hf => hes f (List.mem_cons_of_mem _ hf)]
    exact dropLast_follow fun f hf => hes f (by simp [hf])

theorem foldl_of_not_ongoing {es : List Entry} (hes : ∀ f, .sent f ∉ es) (ho : ongoing ws = false) :
    es.foldl (follow lane) ws = ws := by
  induction es with
  | nil => rfl
  | cons e es ih =>
    rw [List.foldl_cons, follow_of_not_ongoing ho fun f hf => hes f (by simp [hf])]
    exact ih fun f hf => hes f (List.mem_cons_of_mem _ hf)

end Wave

namespace Link

variable {l l' : Link} {f : ClientFrame}

theorem Silent.dropLast_waves (h : l.Silent l') (lane : Lane) :
    (l'.waves lane).dropLast = (l.waves lane).dropLast := by
  obtain ⟨es, he, hes⟩ := h.transcript
  rw [waves, he, List.foldl_append]
  exact Wave.dropLast_foldl hes

theorem Silent.waves_eq (h : l.Silent l') {lane : Lane}
    (ho : Wave.ongoing (l.waves lane) = false) : l'.waves lane = l.waves lane := by
  obtain ⟨es, he, hes⟩ := h.transcript
  rw [waves, he, List.foldl_append]
  exact Wave.foldl_of_not_ongoing hes ho

theorem Silent.settled (h : l.Silent l') (hs : ∀ lane, Wave.Settled (l.waves lane)) (lane : Lane) :
    Wave.Settled (l'.waves lane) := by
  rw [Wave.Settled, h.dropLast_waves]
  exact hs lane

/-- A frame that goes out where nothing goes on finds all waves over. -/
theorem Emits.settled (h : l.Emits l' f) (ho : Wave.ongoing (l.waves f.lane) = false)
    (hs : ∀ lane, Wave.Settled (l.waves lane)) (lane : Lane) : Wave.Settled (l'.waves lane) := by
  obtain ⟨l₁, o, h₁, h₂⟩ := h
  refine h₂.settled (fun lane => ?_) lane
  rw [waves_launch]
  split
  · rename_i hl
    subst hl
    rw [Wave.Settled, List.dropLast_concat, h₁.waves_eq ho]
    exact (hs f.lane).all ho
  · exact h₁.settled hs lane

end Link

/-! ## Tokens of a query by itself -/

theorem Item.token_ne_zero {i : Item} {token : UInt64} (h : i.meaning = .continuation token) :
    token ≠ 0 := by
  unfold meaning at h
  split at h
  · split at h <;> cases h
  · rename_i hne
    split at h <;> cases h
    exact hne

section

variable {s : Solo α} {done : List Wave} {w : Wave} {read rest : List Payload} {token : UInt64}

/-- A token is pulled when all answers of its wave were handed out. -/
theorem StandsAt.of_token? (h : StandsAt s [] done w read rest) (ht : s.token? = some token) :
    rest = [] ∧ ∃ i : Item, i.meaning = .continuation token ∧ w.ending = some (.ok (.item i)) ∧
      s.query.ahead s.line.inbox = [.ok (.item i)] := by
  unfold Solo.token? at ht
  split at ht
  · rename_i demand hw
    obtain ⟨hheld, hover⟩ := h.waiting _ hw
    split at ht
    · obtain ⟨⟨d, s'⟩, hp, hd⟩ := Option.bind_eq_some_iff.1 ht
      obtain ⟨i, rfl, hi⟩ := Delivery.token?_eq_some.1 hd
      obtain ⟨h', hheld', hover'⟩ := h.poll hheld hover hp
      rcases h'.taken hheld' hover' with ⟨p, rest', hd', -, -⟩ | ⟨hrest, hend, -⟩
      · cases hd'
        cases hi
      · refine ⟨hrest, i, hi, hend, ?_⟩
        rw [← List.nil_append (s.query.ahead s.line.inbox), h.ahead hheld, hover, hrest, hend]
        rfl
    · cases ht
  · cases ht

end

namespace Client

variable {c : Client α} {h : Handle} {q : Query α} {m : Move α} {token : UInt64}

/-! ## Tokens of a query of the client -/

/-- What a query finds is what it finds by itself. -/
theorem Sound.poll_soloOf (hc : c.Sound) (hq : c.queries[h]? = some q) :
    (c.soloOf h q).poll.map (·.1) = (q.poll c.link.router).map (·.1) := by
  have hline := (hc.wired h q hq).line_poll hc.link
  unfold Solo.poll Query.poll
  rw [show (c.soloOf h q).query.stash = q.stash from rfl]
  cases q.stash with
  | some r => rfl
  | none =>
    dsimp only
    rw [show (c.soloOf h q).line.poll = _ from hline]
    cases c.link.router.poll q.inbox <;> rfl

theorem Sound.token?_resume (hc : c.Sound) (hq : c.queries[h]? = some q) :
    c.token? h .resume = (c.soloOf h q).token? := by
  have hpoll : (c.soloOf h q).poll.bind (·.1.token?) =
      (q.poll c.link.router).bind (·.1.token?) := by
    have hmap := congrArg (·.bind Delivery.token?) (hc.poll_soloOf hq)
    simpa only [Option.bind_map, Function.comp_def] using hmap
  have hopen : (c.soloOf h q).line.isOpen = c.link.isOpen := rfl
  have hwait : (c.soloOf h q).waiting = c.waiting.bind (·.on h) := rfl
  unfold token? Solo.token?
  rw [hopen, hwait, hpoll, hq, Option.bind_some, pulls]
  cases c.waiting with
  | none => rfl
  | some w =>
    cases w with
    | errand e i => rfl
    | start h' bound drain =>
      by_cases hh : h' = h <;> simp [Wait.on, hh]
    | pull h' demand =>
      by_cases hh : h' = h <;> simp [Wait.on, hh]

/-- A token is pulled by a look. -/
theorem ownActs_of_token? (ht : c.token? h m = some token) : c.ownActs h q m = [.take] := by
  unfold token? at ht
  split at ht
  · rename_i hp
    obtain ⟨hp, -⟩ := Bool.and_eq_true_iff.1 hp
    obtain ⟨⟨d, q', r⟩, hfound, -⟩ := Option.bind_eq_some_iff.1 ht
    obtain ⟨q, hq, hpoll⟩ := Option.bind_eq_some_iff.1 hfound
    have hlook {h' : Handle} {demand : Demand α} (hw : c.waiting = some (.pull h' demand))
        (hh : h' = h) : c.waitsOn h = true ∧ c.isReady = true := by
      subst hh
      exact ⟨by simp [waitsOn, hw, Wait.on], by simp [isReady, hw, hq, hpoll]⟩
    unfold pulls at hp
    split at hp
    · split at hp
      · rename_i hw
        simp only [ownActs, (hlook hw (eq_of_beq hp)).1, if_true]
      · cases hp
    · split at hp
      · rename_i hw
        obtain ⟨hwaits, hready⟩ := hlook hw (eq_of_beq hp)
        simp only [ownActs, hwaits, hready, if_true]
      · cases hp
    · cases hp
    · cases hp
    · cases hp
  · cases ht

theorem of_ownActs_take (hm : c.ownActs h q m = [.take]) : m = .resume ∨ m = .expire := by
  cases m with
  | call k =>
    simp only [ownActs] at hm
    split at hm
    · split at hm <;> cases hm
    · cases hm
  | arrive f =>
    simp only [ownActs] at hm
    split at hm <;> cases hm
  | lose => cases hm
  | resume => exact .inl rfl
  | expire => exact .inr rfl

/-- The token that a move pulls is the one that the query pulls by itself. -/
theorem Sound.token?_eq (hc : c.Sound) (hq : c.queries[h]? = some q) (m : Move α) :
    c.token? h m = if c.ownActs h q m = [.take] then (c.soloOf h q).token? else none := by
  split
  · rename_i hown
    rw [← hc.token?_resume hq]
    rcases of_ownActs_take hown with rfl | rfl <;> rfl
  · rename_i hown
    exact Option.eq_none_iff_forall_ne_some.2 fun token ht => hown (ownActs_of_token? ht)

theorem adds_ends {as : List Act}
    (has : ∀ a ∈ as, a = .transactionEnded ∨ a = .sessionEnded ∨ a = .lost) (s : Solo α) :
    s.Adds (s.acts as).1 [] := by
  induction as generalizing s with
  | nil => exact Solo.adds_of_same ⟨rfl, rfl, rfl⟩ rfl
  | cons a as ih =>
    have hact : s.Adds (s.act a).1 [] := by
      have h := s.adds_act a
      rcases has a List.mem_cons_self with rfl | rfl | rfl <;> exact h
    exact hact.trans (ih (fun b hb => has b (List.mem_cons_of_mem _ hb)) _)

/-- A move adds to the line of a query the request for the token that it pulls. -/
theorem Sound.adds_step (hc : c.Sound) (hb : (c.step m).1.link.issued ≤ 2 ^ 64)
    (hq : c.queries[h]? = some q) : ∃ q', (c.step m).1.queries[h]? = some q' ∧
      (c.soloOf h q).Adds ((c.step m).1.soloOf h q') (c.token? h m).toList := by
  obtain ⟨q', hq', -, -, hacts⟩ := (hc.step m hb).solo h q hq
  refine ⟨q', hq', ?_⟩
  have hsolo : (c.step m).1.soloOf h q' = ((c.soloOf h q).acts
      (c.ownActs h q m ++ c.ends (c.step m).1 q.owner)).1 := (congrArg Prod.fst hacts).symm
  rw [hsolo, Solo.acts_append, hc.token?_eq hq]
  have hends (s : Solo α) : s.Adds (s.acts (c.ends (c.step m).1 q.owner)).1 [] :=
    adds_ends (fun a ha => mem_ends ha) s
  rcases ownActs_cases c m h q with hown | ⟨a, hown, -⟩ <;> rw [hown]
  · exact hends _
  · have hact := ((c.soloOf h q).adds_act a).trans (hends _)
    rw [List.append_nil] at hact
    simp only [List.cons.injEq, and_true]
    exact hact

/-! ## Runs -/

/-- A run adds to the line of a query the requests for the tokens that it pulls. -/
theorem Sound.adds_runAll (hc : c.Sound) {ms : List (Move α)}
    (hb : (c.runAll ms).1.link.issued ≤ 2 ^ 64) (hq : c.queries[h]? = some q) :
    ∃ q', (c.runAll ms).1.queries[h]? = some q' ∧
      (c.soloOf h q).Adds ((c.runAll ms).1.soloOf h q') (c.tokens h ms) := by
  induction ms generalizing c q with
  | nil => exact ⟨q, hq, Solo.adds_of_same ⟨rfl, rfl, rfl⟩ rfl⟩
  | cons m ms ih =>
    rw [runAll_cons] at hb ⊢
    have hb₁ := Nat.le_trans (issued_runAll _ ms) hb
    obtain ⟨q₁, hq₁, hadds⟩ := hc.adds_step hb₁ hq
    obtain ⟨q', hq', hrest⟩ := ih (hc.step m hb₁).sound hb hq₁
    exact ⟨q', hq', hadds.trans hrest⟩

/-- A call of the run opened the query at a place. -/
def Opens (c : Client α) (ms : List (Move α)) (h : Handle) (x : Transaction) (text : Payload)
    (options : QueryOptions) : Prop :=
  ∃ before after t reader, ms = before ++ .call (.query t text options reader) :: after ∧
    (c.runAll before).1.transaction? t = some x ∧
    ((c.runAll before).1.call (.query t text options reader)).2 = some (.opened h)

/-- The same from before it is opened. -/
theorem Sound.adds_opened (hc : c.Sound) {ms : List (Move α)}
    (hb : (c.runAll ms).1.link.issued ≤ 2 ^ 64) (hn : c.queries[h]? = none)
    (hq : (c.runAll ms).1.queries[h]? = some q) :
    ∃ x text options reader, c.Opens ms h x text options ∧
      (Solo.opening x.id text options reader).Adds ((c.runAll ms).1.soloOf h q)
        (c.tokens h ms) := by
  induction ms generalizing c with
  | nil =>
    rw [show (c.runAll []).1 = c from rfl, hn] at hq
    cases hq
  | cons m ms ih =>
    rw [runAll_cons] at hb hq ⊢
    have hstep := hc.step m (Nat.le_trans (issued_runAll _ ms) hb)
    have hnone : c.token? h m = none := by
      unfold token?
      rw [hn]
      exact ite_self _
    have htokens : c.tokens h (m :: ms) = (c.step m).1.tokens h ms := by
      rw [tokens, hnone]
      rfl
    rw [htokens]
    cases hq₁ : (c.step m).1.queries[h]? with
    | none =>
      obtain ⟨x, text, options, reader, ⟨before, after, t, reader', rfl, hx, hr⟩, hadds⟩ :=
        ih hstep.sound hb hq₁ hq
      exact ⟨x, text, options, reader, ⟨m :: before, after, t, reader', rfl, hx, hr⟩, hadds⟩
    | some q₁ =>
      obtain ⟨t, text, options, reader, x, rfl, -, hx, -, -, -, -, -, hsolo, hr⟩ :=
        hstep.opened h q₁ hq₁ hn
      obtain ⟨q', hq', hadds⟩ := hstep.sound.adds_runAll hb hq₁
      rw [hq] at hq'
      cases hq'
      rw [hsolo] at hadds
      exact ⟨x, text, options, reader, ⟨[], ms, t, reader, rfl, hx, hr⟩, hadds⟩

theorem token?_ne_zero (ht : c.token? h m = some token) : token ≠ 0 := by
  unfold token? at ht
  split at ht
  · obtain ⟨p, -, hp⟩ := Option.bind_eq_some_iff.1 ht
    obtain ⟨i, -, hi⟩ := Delivery.token?_eq_some.1 hp
    exact Item.token_ne_zero hi
  · cases ht

theorem ne_zero_of_mem_tokens {ms : List (Move α)} (ht : token ∈ c.tokens h ms) : token ≠ 0 := by
  induction ms generalizing c with
  | nil => cases ht
  | cons m ms ih =>
    rcases List.mem_append.1 ht with ht | ht
    · exact token?_ne_zero (Option.mem_toList.1 ht)
    · exact ih ht

/-! ## One request at a time -/

/-- All that came for a query was handed out, and a token alone is ahead. -/
def Drained (c : Client α) (q : Query α) : Prop :=
  ∃ i token, c.ahead q = [.ok (.item i)] ∧ i.meaning = .continuation token ∧
    q.handed = (c.link.waves q.lane).flatMap (·.answers)

theorem Sound.drained (hc : c.Sound) (hs : Stands (c.soloOf h q)) (hq : c.queries[h]? = some q)
    (ht : c.token? h m = some token) :
    c.Drained q ∧ Wave.ongoing (c.link.waves q.lane) = false := by
  rw [hc.token?_eq hq] at ht
  split at ht
  · obtain ⟨done, w, read, rest, hs⟩ := hs
    obtain ⟨rfl, i, hi, hend, hahead⟩ := hs.of_token? ht
    have hwaves : c.link.waves q.lane = done ++ [w] := hs.waves
    have hhanded : q.handed = done.flatMap (·.answers) ++ read := hs.handed
    refine ⟨⟨i, token, hahead, hi, ?_⟩, ?_⟩
    · rw [hhanded, hwaves]
      simp [hs.answers]
    · rw [hwaves, Wave.ongoing_concat, Wave.isOver, hend]
      rfl
  · cases ht

/-- A frame that a move sends goes out on a lane on which nothing goes on. -/
theorem Reachable.emits_step (hc : c.Reachable) (hb : (c.step m).1.link.issued ≤ 2 ^ 64) :
    c.link.Silent (c.step m).1.link ∨
    ∃ f, c.link.Emits (c.step m).1.link f ∧ Wave.ongoing (c.link.waves f.lane) = false ∧
      ∀ (h : Handle) q, c.queries[h]? = some q → q.lane = f.lane → c.Drained q := by
  have hb₀ := Nat.le_trans (issued_step c m) hb
  have hs := hc.sound hb₀
  rcases sends_step hs.link.closed m with ⟨_ | request, h⟩ | ⟨h, q, token, hq, ht, he⟩
  · exact .inl h
  · -- the lane is new, so that no query has it
    obtain ⟨hi, he⟩ := h
    have hnew : ¬ c.link.Issued c.link.nextLane :=
      Link.not_issued_of_le (Nat.le_refl _) (Nat.lt_of_lt_of_le hi hb)
    refine .inr ⟨⟨c.link.nextLane, request⟩, he, ?_, fun h q hq hl => ?_⟩
    · exact congrArg Wave.ongoing (hs.link.unissued _ hnew)
    · have hissued := (hs.wired h q hq).issued
      rw [hl] at hissued
      exact absurd hissued hnew
  · obtain ⟨hdrained, hover⟩ := hs.drained (hc.stands hb₀ hq) hq ht
    refine .inr ⟨_, he, hover, fun h' q' hq' hl => ?_⟩
    by_cases hh : h = h'
    · subst hh
      rw [hq] at hq'
      cases hq'
      exact hdrained
    · exact absurd hl.symm (hs.apart h h' q q' hq hq' hh).1

theorem settled_runAll (timeout : Option Nat) (ms : List (Move α))
    (hb : ((new timeout).runAll ms).1.link.issued ≤ 2 ^ 64) (lane : Lane) :
    Wave.Settled (((new timeout).runAll ms).1.link.waves lane) := by
  induction ms using List.reverseRecOn generalizing lane with
  | nil => exact fun w hw => by cases hw
  | append_singleton ms m ih =>
    rw [runAll_append] at hb ⊢
    have hc : ((new timeout).runAll ms).1.Reachable := ⟨timeout, ms, rfl⟩
    have hb₁ : (((new timeout).runAll ms).1.step m).1.link.issued ≤ 2 ^ 64 := hb
    have hprev := ih (Nat.le_trans (issued_step _ m) hb₁)
    rcases hc.emits_step hb₁ with h | ⟨f, he, ho, -⟩
    · exact h.settled hprev lane
    · exact he.settled ho hprev lane

/-- What a move registers and sends: nothing, or one request, on a lane that has none outstanding.
If the lane is that of a query, the query is drained. -/
def Paced (c : Client α) (m : Move α) : Prop :=
  ((c.step m).1.link.sent = c.link.sent ∧
    (c.step m).1.link.registered = c.link.registered) ∨
  ∃ f, (c.step m).1.link.sent = c.link.sent ++ [f] ∧
    (c.step m).1.link.registered = c.link.registered + 1 ∧ ¬ c.link.router.Holds f.lane ∧
    ∀ (h : Handle) q, c.queries[h]? = some q → q.lane = f.lane → c.Drained q

theorem Reachable.paced (hc : c.Reachable) (hb : (c.step m).1.link.issued ≤ 2 ^ 64) :
    c.Paced m := by
  rcases hc.emits_step hb with h | ⟨f, he, ho, hdrained⟩
  · exact .inl ⟨h.sent, h.registered⟩
  · refine .inr ⟨f, he.sent, he.registered, ?_, hdrained⟩
    rw [(hc.sound (Nat.le_trans (issued_step c m) hb)).link.live, ho]
    exact nofun

/-- The lane of a query carries the request that opened it, with the token 0 and its text, then one
request without a text for each token that was pulled while the connection was open, and nothing
else; all of them name the transaction and the options of the query. A request is registered and
sent only when its lane has none outstanding, and the next one of a query only when the query is
drained, so that a lane has a slot exactly while its last wave goes on, and all waves before are
over. The bound says that no lane was given out twice. -/
theorem disciplined {timeout : Option Nat} {ms : List (Move α)}
    (hc : ((new timeout).runAll ms).1 = c) (hb : c.link.issued ≤ 2 ^ 64) :
    (∀ (h : Handle) q, c.queries[h]? = some q → ∃ x text options,
      (new timeout).Opens ms h x text options ∧
      c.link.frames q.lane = .fetch x.id ⟨0, options, some text⟩ ::
        ((new timeout).tokens h ms).map fun token => .fetch x.id ⟨token, options, none⟩) ∧
    (∀ h, ∀ token ∈ (new timeout).tokens h ms, token ≠ 0) ∧
    (∀ (h h' : Handle) q q', c.queries[h]? = some q → c.queries[h']? = some q' → h ≠ h' →
      q.lane ≠ q'.lane) ∧
    (∀ before m after, ms = before ++ m :: after → ((new timeout).runAll before).1.Paced m) ∧
    ∀ lane, (c.link.router.Holds lane ↔ Wave.ongoing (c.link.waves lane) = true) ∧
      Wave.Settled (c.link.waves lane) := by
  have hreach : c.Reachable := ⟨timeout, ms, hc.symm⟩
  have hs := hreach.sound hb
  refine ⟨fun h q hq => ?_, fun h token => ne_zero_of_mem_tokens, fun h h' q q' hq hq' hh => ?_,
    fun before m after hms => ?_, fun lane => ⟨hs.link.live lane, ?_⟩⟩
  · subst hc
    obtain ⟨x, text, options, reader, hopens, hadds⟩ :=
      (Sound.empty (α := α) timeout).adds_opened hb rfl hq
    refine ⟨x, text, options, hopens, ?_⟩
    rw [Link.frames_eq]
    exact hadds.requests
  · exact (hs.apart h h' q q' hq hq' hh).1
  · have hbefore : ((new timeout).runAll before).1.Reachable := ⟨timeout, before, rfl⟩
    refine hbefore.paced ?_
    rw [← hc, hms, runAll_append] at hb
    exact Nat.le_trans (issued_runAll _ after) hb
  · subst hc
    exact settled_runAll timeout ms hb lane

theorem disciplined_twoBatches :
    ∃ c : Client Payload, ((new none).runAll twoBatches).1 = c ∧ c.link.issued ≤ 2 ^ 64 ∧
      (new (α := Payload) none).tokens 0 twoBatches = [5] ∧
      ∃ (q : Query Payload) (x : Transaction) (text : Payload) (options : QueryOptions),
        c.queries[0]? = some q ∧
        c.link.frames q.lane =
          [.fetch x.id ⟨0, options, some text⟩, .fetch x.id ⟨5, options, none⟩] ∧
        (c.link.router.Holds q.lane ↔ Wave.ongoing (c.link.waves q.lane) = true) := by
  obtain ⟨c, hc⟩ : ∃ c : Client Payload, ((new none).runAll twoBatches).1 = c := ⟨_, rfl⟩
  have hb : c.link.issued ≤ 2 ^ 64 := by
    rw [← hc]
    decide +kernel
  have htokens : (new (α := Payload) none).tokens 0 twoBatches = [5] := by decide +kernel
  have hopen : c.queries[0]?.isSome = true := by
    rw [← hc]
    decide +kernel
  obtain ⟨q, hq⟩ := Option.isSome_iff_exists.1 hopen
  obtain ⟨hframes, -, -, -, hlanes⟩ := disciplined hc hb
  obtain ⟨x, text, options, -, hlane⟩ := hframes 0 q hq
  rw [htokens] at hlane
  exact ⟨c, hc, hb, htokens, q, x, text, options, hq, hlane, (hlanes q.lane).1⟩

end Client

end QueryLanes
