import Mathlib.Algebra.GroupWithZero.Nat
import QueryLanes.Proofs.Owners

/-!
# Reckoning

What a query can tell of the waves it has read. Its batch sizes are the numbers of answers of these
waves, and a query that is over says of itself what the end of its last wave says of it, its
`Delivery.verdict`. `Solo.Accounts` is this as an invariant, `Client.Reachable.accounts` that it
holds of every query of every run.

`StandsAt` knows what is ahead of a query, so it also knows what a waiting call finds when it looks:
the next answer, what ended the last wave, or the token of the next one.
-/

namespace QueryLanes

variable {α : Type}

/-! ## Verdicts -/

/-- What a query comes to that has read a wave to its end and cannot ask for another one. -/
def Delivery.verdict : Delivery → Except Failure Unit
  | .ok (.item i) => match i.meaning with
    | .completion => .ok ()
    | .continuation _ => .error .connectionClosed
    | .data _ | .malformed => .error (.violation .malformedItem)
  | .ok (.refused description) => .error (.server description)
  | .ok other => .error (.violation (.noItem other))
  | .error e => .error e

theorem Query.verdict_of_failed {q q' : Query α} {r : Response} {e : Failure}
    (h : q.consume r = (q', .failed e)) : Delivery.verdict (.ok r) = .error e := by
  cases r with
  | item i =>
    simp only [consume] at h
    cases hm : i.meaning with
    | malformed =>
      rw [hm] at h
      cases h
      simp only [Delivery.verdict, hm]
    | _ =>
      rw [hm] at h
      cases h
  | _ =>
    cases h
    rfl

theorem Delivery.verdict_continuation {i : Item} {token : UInt64}
    (h : i.meaning = .continuation token) :
    Delivery.verdict (.ok (.item i)) = .error .connectionClosed := by
  simp only [verdict, h]

/-! ## Accounts -/

namespace Solo

variable {s s' : Solo α} {done : List Wave} {w : Wave} {read rest : List Payload}

/-- The batch sizes of a query are the answer counts of the waves before the last one, and of all
waves once it is exhausted. A failure that ended it is the verdict of its last wave. -/
structure Accounts (s : Solo α) : Prop where
  batches : s.query.progress.isOver = false →
    s.query.batchSizes = s.line.waves.dropLast.map (·.answers.length)
  counted : s.query.progress.isOver = false →
    s.query.handed.length = s.query.batchSizes.sum + s.query.inBatch
  exhausted : s.query.progress = .exhausted →
    s.query.batchSizes = s.line.waves.map (·.answers.length)
  failed : ∀ e, s.query.progress = .failed e →
    ∃ done w d, s.line.waves = done ++ [w] ∧ w.ending = some d ∧ d.verdict = .error e

/-- The accounts of a query that goes on. -/
theorem accounts_of_ongoing (ho : s.query.progress.isOver = false)
    (hb : s.query.batchSizes = s.line.waves.dropLast.map (·.answers.length))
    (hc : s.query.handed.length = s.query.batchSizes.sum + s.query.inBatch) : s.Accounts where
  batches _ := hb
  counted _ := hc
  exhausted hp := by
    rw [hp] at ho
    cases ho
  failed e hp := by
    rw [hp] at ho
    cases ho

/-- The accounts of a query that has come to its end. -/
theorem accounts_of_exhausted (hp : s.query.progress = .exhausted)
    (hb : s.query.batchSizes = s.line.waves.map (·.answers.length)) : s.Accounts where
  batches ho := by
    rw [hp] at ho
    cases ho
  counted ho := by
    rw [hp] at ho
    cases ho
  exhausted _ := hb
  failed e he := by
    rw [hp] at he
    cases he

theorem accounts_opening (transaction : UInt64) (text : Payload) (options : QueryOptions)
    (reader : Reader α) : (opening transaction text options reader).Accounts :=
  accounts_of_ongoing rfl rfl rfl

/-- The accounts of a query that has failed, as the end of its last wave says. -/
theorem accounts_of_failed {e : Failure} {d : Delivery} (hp : s.query.progress = .failed e)
    (hw : s.line.waves = done ++ [w]) (hend : w.ending = some d) (hv : d.verdict = .error e) :
    s.Accounts where
  batches ho := by
    rw [hp] at ho
    cases ho
  counted ho := by
    rw [hp] at ho
    cases ho
  exhausted he := by
    rw [hp] at he
    cases he
  failed e' he := by
    rw [hp] at he
    cases he
    exact ⟨done, w, d, hw, hend, hv⟩

/-- What the accounts of a query are about. -/
structure Level (s s' : Solo α) : Prop where
  waves : s'.line.waves = s.line.waves
  progress : s'.query.progress = s.query.progress
  batchSizes : s'.query.batchSizes = s.query.batchSizes
  inBatch : s'.query.inBatch = s.query.inBatch
  handed : s'.query.handed = s.query.handed

theorem Accounts.level (hs : s.Accounts) (h : s.Level s') : s'.Accounts where
  batches hp := by
    rw [h.batchSizes, h.waves]
    exact hs.batches (h.progress ▸ hp)
  counted hp := by
    rw [h.batchSizes, h.inBatch, h.handed]
    exact hs.counted (h.progress ▸ hp)
  exhausted hp := by
    rw [h.batchSizes, h.waves]
    exact hs.exhausted (h.progress ▸ hp)
  failed e hp := by
    rw [h.waves]
    exact hs.failed e (h.progress ▸ hp)

theorem Mild.level (h : s.Mild s') : s.Level s' := by
  obtain ⟨held, fused, hq, -⟩ := h.query
  refine ⟨h.line.1, ?_, ?_, ?_, ?_⟩ <;> rw [hq]

theorem level_fuse (s : Solo α) (demand : Demand α) (w : Option (Pause α)) :
    s.Level { s with query := s.query.fuse demand, waiting := w } := by
  obtain ⟨b, hb⟩ := s.query.exists_fuse demand
  rw [hb]
  exact ⟨rfl, rfl, rfl, rfl, rfl⟩

theorem level_poll {d : Delivery} (h : s.poll = some (d, s')) : s.Level s' := by
  have hline := same_poll h
  rcases poll_cases h with ⟨r, -, -, rfl⟩ | ⟨-, line, -, rfl⟩ <;>
    exact ⟨hline.1, rfl, rfl, rfl, rfl⟩

/-- What is heard or fails on the line concerns the last wave alone, and only while it is going on. -/
theorem Accounts.amend (hs : s.Accounts) (hst : Stands s) {line : Line}
    (hline : line.waves = s.line.waves ∨
      ∃ done w w', s.line.waves = done ++ [w] ∧ w.isOver = false ∧ line.waves = done ++ [w']) :
    Accounts { s with line := line } := by
  rcases hline with hline | ⟨done, w, w', hw, ho, hline⟩
  · exact hs.level ⟨hline, rfl, rfl, rfl, rfl⟩
  · obtain ⟨done', v, read, rest, h⟩ := hst
    have hlast := List.append_inj_right' (h.waves.symm.trans hw) rfl
    cases hlast
    have hprog := h.not_over ho
    refine ⟨fun hp => ?_, hs.counted, fun hp => ?_, fun e hp => ?_⟩
    · have hb := hs.batches hp
      rw [hw, List.dropLast_concat] at hb
      rw [hline, List.dropLast_concat]
      exact hb
    · rw [show s.query.progress = .exhausted from hp] at hprog
      cases hprog
    · rw [show s.query.progress = .failed e from hp] at hprog
      cases hprog

theorem inBatch_eq {hand : List Delivery} (h : StandsAt s hand done w read rest)
    (hs : s.Accounts) (hover : s.query.progress.isOver = false) :
    s.query.batchSizes = done.map (·.answers.length) ∧ s.query.inBatch = read.length := by
  have hbatches := hs.batches hover
  rw [h.waves, List.dropLast_concat] at hbatches
  have hcounted := hs.counted hover
  rw [h.handed, hbatches, List.length_append, List.length_flatMap] at hcounted
  exact ⟨hbatches, by omega⟩

/-- A query whose last wave has been read to its end closes its batch. -/
theorem batchSizes_endBatch {hand : List Delivery} (h : StandsAt s hand done w read [])
    (hs : s.Accounts) (hover : s.query.progress.isOver = false) :
    s.query.endBatch.batchSizes = (done ++ [w]).map (·.answers.length) := by
  obtain ⟨hbatches, hin⟩ := inBatch_eq h hs hover
  have hread : w.answers = read := by simpa using h.answers
  rw [Query.endBatch, hbatches, hin, ← hread]
  simp

theorem accounts_fail {x : Query α} {e : Failure} {d : Delivery}
    (hw : s.line.waves = done ++ [w]) (hend : w.ending = some d) (hv : d.verdict = .error e)
    (demand : Demand α) :
    Accounts { s with query := (x.fail e).fuse demand, waiting := none } := by
  have hfailed : Accounts { s with query := x.fail e } := accounts_of_failed rfl hw hend hv
  exact hfailed.level (level_fuse _ demand none)

theorem Accounts.pulled {d : Delivery} (hs : s.Accounts) (h : StandsAt s [d] done w read rest)
    (hheld : s.query.held = true) (hover : s.query.progress.isOver = false) (demand : Demand α) :
    (s.pulled demand d).1.Accounts := by
  have hcounted := hs.counted hover
  rcases h.taken hheld hover with ⟨p, rest', rfl, rfl, -⟩ | ⟨rfl, hend, -⟩
  · have hread (w : Option (Pause α)) :
        Accounts { s with query := (s.query.consume (.data p)).1, waiting := w } := by
      rw [Query.consume_data]
      refine accounts_of_ongoing rfl (hs.batches hover) ?_
      simp only [List.length_append, List.length_singleton]
      omega
    rw [pulled_data]
    cases s.query.reader s.query.handed p <;> cases demand <;> exact hread _
  · have hclosed := batchSizes_endBatch h hs hover
    have hpulls := s.pulls demand d
    generalize s.pulled demand d = o at hpulls ⊢
    cases hpulls with
    | answer | got | refused => cases h.terminal _ hend
    | sent =>
      refine accounts_of_ongoing rfl (hclosed.trans (by simp [Line.renew, h.waves])) ?_
      simp only [Query.endBatch, List.sum_append, List.sum_singleton]
      omega
    | unsent hi => exact accounts_fail h.waves hend (Delivery.verdict_continuation hi) demand
    | ended => exact accounts_of_exhausted rfl (hclosed.trans (by rw [← h.waves]; rfl))
    | failed _ hc => exact accounts_fail h.waves hend (Query.verdict_of_failed hc) demand
    | broken => exact accounts_fail h.waves hend rfl demand

theorem Accounts.started {d : Delivery} (hs : s.Accounts) (h : StandsAt s [d] done w read rest)
    (hheld : s.query.held = true) (hprog : s.query.progress = .pending) (drain : Bool) :
    (s.started drain d).1.Accounts := by
  have hover : s.query.progress.isOver = false := by rw [hprog]; rfl
  have hnot := h.ne_timeout hheld hover
  have hhears := s.hears drain d
  generalize s.started drain d = o at hhears ⊢
  cases hhears with
  | held | goesOn => exact accounts_of_ongoing rfl (hs.batches hover) (hs.counted hover)
  | timedOut => exact absurd rfl hnot
  | failed =>
    rcases h.taken hheld hover with ⟨p, rest', hd, -, -⟩ | ⟨rfl, hend, -⟩
    · cases hd
    · exact accounts_of_failed rfl h.waves hend rfl

theorem Accounts.take (hs : s.Accounts) (hst : Stands s) : s.take.1.Accounts := by
  obtain ⟨done, w, read, rest, h⟩ := hst
  rcases h.take_cases with htake | ⟨drain, d, line, htake, hp, hheld, hpend, h'⟩ |
    ⟨demand, d, s', htake, hp, hheld, hover, h', hheld', hover'⟩ <;> rw [htake]
  · exact hs
  · have hpolled : Accounts { s with line := line } :=
      hs.level ⟨(Line.same_poll hp).1, rfl, rfl, rfl, rfl⟩
    exact hpolled.started h' hheld hpend drain
  · exact (hs.level (level_poll hp)).pulled h' hheld' hover' demand

theorem Accounts.strike (hs : s.Accounts) (hst : Stands s) (e : Failure) (isOpen : Bool) :
    Accounts { s with line := { s.line.strike e with isOpen := isOpen } } := by
  refine hs.amend hst ?_
  cases hl : s.line.isLive with
  | false => exact .inl (by rw [Line.strike_of_not_live hl])
  | true =>
    obtain ⟨done, w, hw, ho⟩ := Wave.exists_of_ongoing hl
    exact .inr ⟨done, w, w.strike e, hw, ho, by rw [Line.strike_of_live hw ho]⟩

theorem Accounts.act (hs : s.Accounts) (hst : Stands s) (a : Act) : (s.act a).1.Accounts := by
  cases a with
  | ask k => exact hs.level (mild_ask s k).level
  | take => exact hs.take hst
  | giveUp => exact hs.level (mild_giveUp s).level
  | heard r =>
    refine hs.amend hst ?_
    cases hl : s.line.isLive with
    | false => exact .inl (by rw [Line.hear_of_not_live hl])
    | true =>
      obtain ⟨done, w, hw, ho⟩ := Wave.exists_of_ongoing hl
      exact .inr ⟨done, w, w.hear r, hw, ho, by rw [Line.hear_of_live hw ho]⟩
  | transactionEnded =>
    have h := hs.strike hst .transactionClosed s.line.isOpen
    rwa [← Line.isOpen_strike s.line .transactionClosed] at h
  | sessionEnded =>
    have h := hs.strike hst .sessionClosed s.line.isOpen
    rwa [← Line.isOpen_strike s.line .sessionClosed] at h
  | lost => exact hs.strike hst .connectionClosed false

/-! ## Looks -/

/-- The same query on the same lane, with `ps` handed to its reader in between. -/
structure Advances (s s' : Solo α) (ps : List Payload) : Prop where
  reader : s'.query.reader = s.query.reader
  transaction : s'.query.transaction = s.query.transaction
  options : s'.query.options = s.query.options
  handed : s'.query.handed = s.query.handed ++ ps
  fused : s'.query.fused = s.query.fused
  held : s'.query.held = s.query.held
  isOpen : s'.line.isOpen = s.line.isOpen

theorem advances_poll {d : Delivery} (h : s.poll = some (d, s')) : s.Advances s' [] := by
  have hline := same_poll h
  rcases poll_cases h with ⟨r, -, -, rfl⟩ | ⟨-, line, -, rfl⟩ <;>
    exact ⟨rfl, rfl, rfl, (List.append_nil _).symm, rfl, rfl, hline.2⟩

/-- A pulling call that finds what is next takes it. -/
theorem take_of_ahead {demand : Demand α} {d : Delivery} {ds : List Delivery}
    (h : StandsAt s [] done w read rest) (hw : s.waiting = some (.pull demand))
    (hahead : rest.map (.ok ∘ .data) ++ w.ending.toList = d :: ds) :
    ∃ s₁, StandsAt s₁ [d] done w read rest ∧ s.Advances s₁ [] ∧ s₁.query.held = true ∧
      s₁.query.progress.isOver = false ∧ s.take = s₁.pulled demand d := by
  obtain ⟨hheld, hover⟩ := h.waiting _ hw
  have hfound := h.ahead hheld
  rw [hover, List.nil_append] at hfound
  obtain ⟨s₁, hp, -, -⟩ := poll_of_ahead (hfound.trans hahead)
  have htake := take_pull hw
  rw [hp] at htake
  obtain ⟨h₁, hheld₁, hover₁⟩ := h.poll hheld hover hp
  exact ⟨s₁, h₁, advances_poll hp, hheld₁, hover₁, htake⟩

/-- The next answer is handed to the reader, and the caller is told what the reader says. -/
theorem look_answer {demand : Demand α} {p : Payload} (h : StandsAt s [] done w read (p :: rest))
    (hw : s.waiting = some (.pull demand)) :
    ∃ s', StandsAt s' [] done w (read ++ [p]) rest ∧ s.Advances s' [p] ∧ s'.waiting = none ∧
      s'.query.progress = .streaming ∧
      s.take = s'.handOver demand (s.query.reader s.query.handed p) := by
  obtain ⟨s₁, h₁, hadv, hheld, hover, htake⟩ := take_of_ahead h hw rfl
  rcases h₁.taken hheld hover with ⟨p', rest', hd, hrest, hahead⟩ | ⟨hnil, -, -⟩
  · cases hd
    cases hrest
    have hn := h₁.next hahead
    have hhanded : s₁.query.handed = s.query.handed := hadv.handed.trans (List.append_nil _)
    refine ⟨_, hn, { hadv with handed := by rw [Query.consume_data, ← hhanded] }, rfl, rfl, ?_⟩
    rw [htake, ← hadv.reader, ← hhanded, Function.comp_apply, pulled_data]
  · cases hnil

/-- With all answers read, what ended the last wave ends the query, if it is no token or there is no
connection to send it on. -/
theorem look_end {demand : Demand α} {d : Delivery} (h : StandsAt s [] done w read [])
    (hw : s.waiting = some (.pull demand)) (hend : w.ending = some d)
    (hmute : s.line.isOpen = false ∨ w.token? = none) :
    ∃ s', StandsAt s' [] done w read [] ∧ s.Advances s' [] ∧ s'.waiting = none ∧
      match d.verdict with
      | .ok () => s'.query.progress = .exhausted ∧ s.take = (s', some (Client.atEnd demand))
      | .error e => s'.query.progress = .failed e ∧
          s.take = ({ s' with query := s'.query.fuse demand }, some (.failed e)) := by
  obtain ⟨s₁, h₁, hadv, hheld, hover, htake⟩ := take_of_ahead h hw (by rw [hend]; rfl)
  rcases h₁.taken hheld hover with ⟨p', rest', -, hrest, -⟩ | ⟨-, -, hahead⟩
  · cases hrest
  · -- all ends but the mark of completion fail the query, some after it has taken note of them
    have hfailed {e : Failure} {x : Query α} (hx : s₁.query.Same x)
        (hr : x.reader = s₁.query.reader) (hu : x.fused = s₁.query.fused)
        (he : e = .connectionClosed → s₁.line.isOpen = false) :
        ∃ s', StandsAt s' [] done w read [] ∧ s.Advances s' [] ∧ s'.waiting = none ∧
          s'.query.progress = .failed e ∧
          replying { s₁ with query := (x.fail e).fuse demand } (.failed e) =
            ({ s' with query := s'.query.fuse demand }, some (.failed e)) := by
      have hf := h₁.finish hend hahead (x := x.fail e)
        ⟨hx.handed, hx.transaction, hx.options, hx.held, hx.stash⟩ rfl nofun
        fun hp => he (Progress.failed.inj hp)
      exact ⟨_, hf, { hadv with
        reader := hr.trans hadv.reader
        transaction := hx.transaction.trans hadv.transaction
        options := hx.options.trans hadv.options
        handed := hx.handed.trans hadv.handed
        fused := hu.trans hadv.fused
        held := hx.held.trans hadv.held }, rfl, rfl, rfl⟩
    have hpulls := s₁.pulls demand d
    rw [htake]
    generalize s₁.pulled demand d = o at hpulls ⊢
    cases hpulls with
    | answer | got | refused => cases h₁.terminal _ hend
    | sent hi ho =>
      rcases hmute with hc | ht
      · rw [hadv.isOpen, hc] at ho
        cases ho
      · rw [Wave.token?_eq_some.2 ⟨_, hend, hi⟩] at ht
        cases ht
    | unsent hi ho =>
      rw [Delivery.verdict_continuation hi]
      exact hfailed (x := s₁.query.endBatch) ⟨rfl, rfl, rfl, rfl, rfl⟩ rfl rfl fun _ => ho
    | ended =>
      have hf := h₁.finish hend hahead (x := { s₁.query.endBatch with progress := .exhausted })
        ⟨rfl, rfl, rfl, rfl, rfl⟩ rfl (fun _ => rfl) nofun
      exact ⟨_, hf, { hadv with }, rfl, rfl, rfl⟩
    | failed he hc =>
      rw [Query.verdict_of_failed hc]
      exact hfailed ⟨rfl, rfl, rfl, rfl, rfl⟩ rfl rfl fun hcc => absurd hcc he
    | broken =>
      refine hfailed ⟨rfl, rfl, rfl, rfl, rfl⟩ rfl rfl ?_
      rintro rfl
      exact h₁.closed_of_ending hend

/-- A query stands at the waves of its lane and nowhere else. -/
theorem standsAt_of_waves (h : Stands s) (hw : s.line.waves = done ++ [w]) :
    ∃ read rest, StandsAt s [] done w read rest := by
  obtain ⟨done', w', read, rest, h⟩ := h
  obtain ⟨hdone, hlast⟩ := List.append_inj' (h.waves.symm.trans hw) rfl
  cases hdone
  cases hlast
  exact ⟨read, rest, h⟩

/-- With a token and a connection, the next wave is begun. -/
theorem look_token {demand : Demand α} {token : UInt64} (h : StandsAt s [] done w read [])
    (hw : s.waiting = some (.pull demand)) (htoken : w.token? = some token)
    (hopen : s.line.isOpen = true) :
    ∃ s' v, StandsAt s' [] (done ++ [w]) v [] [] ∧ s.Advances s' [] ∧
      v = { request := .fetch s.query.transaction (.continuation token s.query.options) } ∧
      s'.waiting = some (.pull demand) ∧ s'.query.progress = .continuing ∧
      s.take = (s', none) := by
  obtain ⟨i, hend, hi⟩ := Wave.token?_eq_some.1 htoken
  obtain ⟨s₁, h₁, hadv, hheld, hover, htake⟩ := take_of_ahead h hw (by rw [hend]; rfl)
  rcases h₁.taken hheld hover with ⟨p', rest', -, hrest, -⟩ | ⟨-, -, hahead⟩
  · cases hrest
  · have ho := hadv.isOpen.trans hopen
    rw [htake, pulled_token hi, if_pos ho, ← hadv.transaction, ← hadv.options]
    exact ⟨_, _, h₁.renew hi hend hahead hheld ho demand, { hadv with }, rfl, rfl, rfl, rfl⟩

/-- With nothing read in between, a query stands where it stood. -/
theorem standsAt_of_same {hand : List Delivery} (h : StandsAt s hand done w read rest)
    (hs' : Stands s') (hw : s'.line.waves = s.line.waves)
    (hh : s'.query.handed = s.query.handed) : StandsAt s' [] done w read rest := by
  obtain ⟨read', rest', h'⟩ := standsAt_of_waves hs' (hw.trans h.waves)
  have hread : read' = read :=
    List.append_cancel_left (h'.handed.symm.trans (hh.trans h.handed))
  subst hread
  have hrest : rest' = rest := List.append_cancel_left (h'.answers.symm.trans h.answers)
  rwa [← hrest]

/-- A call that waits for the start finds a response and keeps it, or finds the failure that came
instead. -/
theorem look_start {bound : Option Nat} {drain : Bool} {d : Delivery} {ds : List Delivery}
    (h : StandsAt s [] done w read rest) (hw : s.waiting = some (.start bound drain))
    (hahead : rest.map (.ok ∘ .data) ++ w.ending.toList = d :: ds) :
    ∃ s', StandsAt s' [] done w read rest ∧ s.Advances s' [] ∧ s'.waiting = none ∧
      match d with
      | .ok _ => s'.query.progress = .streaming ∧ s.take =
          if drain then ({ s' with waiting := some (.pull (.rest [])) }, none) else (s', some .done)
      | .error e => s'.query.progress = .failed e ∧ s.take = (s', some (.failed e)) := by
  obtain ⟨hheld, hpend⟩ := h.waiting _ hw
  have hover : s.query.progress.isOver = false := by rw [hpend]; rfl
  have hst := (h.pending hpend).2.2
  have hfound := h.ahead hheld
  rw [hover, List.nil_append] at hfound
  obtain ⟨s₁, hp, -, -⟩ := poll_of_ahead (hfound.trans hahead)
  obtain ⟨line, hl⟩ : ∃ line, s.line.poll = some (d, line) := by
    rcases poll_cases hp with ⟨r, hst', -, -⟩ | ⟨-, line, hl, -⟩
    · rw [hst] at hst'
      cases hst'
    · exact ⟨line, hl⟩
  obtain ⟨hwaves, hopen⟩ := Line.same_poll hl
  have h' := h.linePoll hheld hover hst hl
  have htake := take_start hw
  rw [hl] at htake
  rw [htake]
  cases d with
  | ok r =>
    have hs' := standsAt_of_same h' (h'.started hheld hpend false) rfl rfl
    refine ⟨_, hs', ⟨rfl, rfl, rfl, (List.append_nil _).symm, rfl, rfl, hopen⟩, rfl, rfl, ?_⟩
    cases drain <;> rfl
  | error e =>
    have hne : e ≠ .timeout := fun he => h'.ne_timeout hheld hover (congrArg Except.error he)
    have hs := h'.started hheld hpend drain
    dsimp only
    rw [started_error hne] at hs ⊢
    exact ⟨_, standsAt_of_same h' hs rfl rfl,
      ⟨rfl, rfl, rfl, (List.append_nil _).symm, rfl, rfl, hopen⟩, rfl, rfl, rfl⟩

end Solo

theorem Client.Reachable.accounts {c : Client α} (hc : c.Reachable) (hb : c.link.issued ≤ 2 ^ 64)
    {h : Handle} {q : Query α} (hq : c.queries[h]? = some q) :
    Stands (c.soloOf h q) ∧ (c.soloOf h q).Accounts :=
  hc.solo (J := fun s => Stands s ∧ s.Accounts) hb
    (fun transaction text options reader =>
      ⟨.opening transaction text options reader,
        Solo.accounts_opening transaction text options reader⟩)
    (fun _ a _ hs => ⟨hs.1.act a, hs.2.act hs.1 a⟩) hq

end QueryLanes
