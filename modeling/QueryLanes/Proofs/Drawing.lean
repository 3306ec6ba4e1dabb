import QueryLanes.Proofs.Lifecycle
import QueryLanes.Proofs.Starting

/-!
# Drawing

What pulling calls draw from a query, and what the query keeps of it. A query counts what is drawn
(`Solo.Books`), and what is drawn are the deliveries of its waves, in order and up to where it stands
(`Solo.Drawn`). `Solo.Sees` says once what a look of a waiting call comes to. The result is
`Client.batches_counted`: the batch sizes of a query are the answer counts of the waves of which the
end was drawn, and they count the requests that were sent for it.
-/

namespace QueryLanes

variable {α : Type}

/-! ## Deliveries and tallies -/

/-- Whether the delivery closes a batch: the token of the next one, or the mark of completion. -/
def Delivery.closes : Delivery → Bool
  | .ok (.item i) => match i.meaning with
    | .continuation _ | .completion => true
    | .data _ | .malformed => false
  | _ => false

/-- The sizes of the batches that are closed and of the one that is not, after one more delivery. -/
def Delivery.tally (sizes : List Nat × Nat) (d : Delivery) : List Nat × Nat :=
  if d.closes then (sizes.1 ++ [sizes.2], 0)
  else (sizes.1, sizes.2 + d.payload?.toList.length)

theorem Delivery.closes_of_token? {d : Delivery} (h : d.token?.isSome = true) :
    d.closes = true := by
  obtain ⟨token, ht⟩ := Option.isSome_iff_exists.1 h
  obtain ⟨i, rfl, hi⟩ := token?_eq_some.1 ht
  simp only [closes, hi]

theorem Delivery.payload?_of_closes {d : Delivery} (h : d.closes = true) : d.payload? = none := by
  unfold closes at h
  split at h
  · rename_i i
    split at h <;> rename_i hi
    · simp [payload?, Response.answer?, hi]
    · simp [payload?, Response.answer?, hi]
    · cases h
    · cases h
  · cases h

/-- What ends a wave and closes no batch fails the query. -/
theorem Delivery.closes_eq {d : Delivery} :
    d.closes = (d.token?.isSome || decide (d = .ok (.item .completion))) := by
  cases d with
  | error e => rfl
  | ok r =>
    cases r with
    | item i =>
      cases hm : i.meaning with
      | data p =>
        obtain rfl := Item.meaning_eq_data_iff.1 hm
        rfl
      | continuation token =>
        have hne : i ≠ .completion := by
          rintro rfl
          cases hm
        simp [closes, token?, hm, hne]
      | completion =>
        obtain rfl := Item.eq_completion hm
        rfl
      | malformed =>
        have hne : i ≠ .completion := by
          rintro rfl
          cases hm
        simp [closes, token?, hm, hne]
    | _ => simp [closes, token?]

/-- Where nothing closes a batch, the answers are counted. -/
theorem tally_of_not_closes {ds : List Delivery} (h : ∀ d ∈ ds, d.closes = false)
    (sizes : List Nat × Nat) : ds.foldl Delivery.tally sizes =
      (sizes.1, sizes.2 + (ds.filterMap Delivery.payload?).length) := by
  induction ds generalizing sizes with
  | nil => rfl
  | cons d ds ih =>
    rw [List.foldl_cons, ih fun d' hd' => h d' (List.mem_cons_of_mem d hd')]
    have hd := h d List.mem_cons_self
    cases hp : d.payload? <;> simp [Delivery.tally, hd, hp, Nat.add_assoc, Nat.add_comm 1]

theorem closes_of_mem_data {ps : List Payload} {d : Delivery}
    (h : d ∈ ps.map (Except.ok ∘ Response.data)) : d.closes = false := by
  obtain ⟨p, -, rfl⟩ := List.mem_map.1 h
  rfl

/-- A wave whose end closes it is one batch. -/
theorem Wave.tally_deliveries {w : Wave} {d : Delivery} (he : w.ending = some d)
    (hd : d.closes = true) (sizes : List Nat) :
    w.deliveries.foldl Delivery.tally (sizes, 0) = (sizes ++ [w.answers.length], 0) := by
  rw [deliveries, he, List.foldl_append, tally_of_not_closes fun _ => closes_of_mem_data,
    filterMap_payload?_data]
  simp [Delivery.tally, hd]

/-- The wave was read to its end, and its end closed a batch. -/
def Wave.Closed (w : Wave) : Prop := ∃ d, w.ending = some d ∧ d.closes = true

theorem Wave.tally_closed {ws : List Wave} (h : ∀ w ∈ ws, w.Closed) (sizes : List Nat) :
    (ws.flatMap (·.deliveries)).foldl Delivery.tally (sizes, 0) =
      (sizes ++ ws.map (·.answers.length), 0) := by
  induction ws generalizing sizes with
  | nil => simp
  | cons w ws ih =>
    obtain ⟨d, he, hd⟩ := h w List.mem_cons_self
    rw [List.flatMap_cons, List.foldl_append, tally_deliveries he hd,
      ih fun v hv => h v (List.mem_cons_of_mem w hv)]
    simp

/-- What the reader is given of waves that are closed are their answers. -/
theorem Wave.payloads_closed {ws : List Wave} (h : ∀ w ∈ ws, w.Closed) :
    (ws.flatMap (·.deliveries)).filterMap Delivery.payload? = ws.flatMap (·.answers) := by
  induction ws with
  | nil => rfl
  | cons w ws ih =>
    obtain ⟨d, he, hd⟩ := h w List.mem_cons_self
    rw [List.flatMap_cons, List.filterMap_append, ih fun v hv => h v (List.mem_cons_of_mem w hv),
      deliveries, he, List.filterMap_append, filterMap_payload?_data]
    simp [Delivery.payload?_of_closes hd]

theorem Wave.token?_eq (w : Wave) : w.token? = w.ending.bind Delivery.token? := by
  unfold token?
  cases w.ending with
  | none => rfl
  | some d =>
    cases d with
    | error e => rfl
    | ok r => cases r <;> rfl

theorem Wave.closed_of_token? {w : Wave} (h : w.token?.isSome = true) : w.Closed := by
  rw [token?_eq] at h
  cases he : w.ending with
  | none =>
    rw [he] at h
    cases h
  | some d =>
    rw [he] at h
    exact ⟨d, he, Delivery.closes_of_token? h⟩

/-- The end of a wave that was continued is a token. -/
theorem Wave.closed_of_isChain {transaction : UInt64} {options : QueryOptions} {ws : List Wave}
    {w : Wave} (h : (ws ++ [w]).IsChain (Continues transaction options)) : ∀ v ∈ ws, v.Closed := by
  induction ws with
  | nil => simp
  | cons v ws ih =>
    rw [List.cons_append, List.isChain_cons] at h
    intro u hu
    rcases List.mem_cons.1 hu with rfl | hu
    · obtain ⟨x, hx⟩ : ∃ x, x ∈ (ws ++ [w]).head? := by cases ws <;> simp
      obtain ⟨token, ht, -⟩ := h.1 x hx
      exact closed_of_token? (by rw [ht]; rfl)
    · exact ih h.2 u hu

/-- The query failed as the request for its next batch could not be sent: the last that it drew is a
token. -/
def Query.Refused (q : Query α) (ds : List Delivery) : Prop :=
  (∃ e, q.progress = .failed e) ∧ ∃ d, ds.getLast? = some d ∧ d.token?.isSome = true

namespace Solo

variable {s s' : Solo α} {done : List Wave} {w : Wave} {read rest : List Payload}
  {ds : List Delivery}

/-! ## Looks -/

/-- What a look comes to when the query has read `done` and, of the wave `w`, the answers `read` but
not `rest`. -/
inductive Sees (s : Solo α) (done : List Wave) (w : Wave) (read rest : List Payload) :
    Solo α × Option (Reply α) → Prop
  | idle (hw : s.waiting = none) : Sees s done w read rest (s, none)
  | nothing {pause : Pause α} (hw : s.waiting = some pause) (hr : rest = [])
      (he : w.ending = none) : Sees s done w read rest (s, none)
  | begun {bound : Option Nat} {drain : Bool} {s' : Solo α}
      (hw : s.waiting = some (.start bound drain)) (hst : StandsAt s' [] done w read rest)
      (hs : s.Advances s' []) (hn : s'.waiting = none) (hp : s'.query.progress = .streaming) :
      Sees s done w read rest
        (if drain then ({ s' with waiting := some (.pull (.rest [])) }, none) else (s', some .done))
  | unbegun {bound : Option Nat} {drain : Bool} {e : Failure} {s' : Solo α}
      (hw : s.waiting = some (.start bound drain)) (hr : rest = [])
      (he : w.ending = some (.error e)) (hst : StandsAt s' [] done w read rest)
      (hs : s.Advances s' []) (hn : s'.waiting = none) (hp : s'.query.progress = .failed e) :
      Sees s done w read rest (s', some (.failed e))
  | answer {demand : Demand α} {p : Payload} {rest' : List Payload} {s' : Solo α}
      (hw : s.waiting = some (.pull demand)) (hr : rest = p :: rest')
      (hst : StandsAt s' [] done w (read ++ [p]) rest') (hs : s.Advances s' [p])
      (hn : s'.waiting = none) (hp : s'.query.progress = .streaming) :
      Sees s done w read rest (s'.handOver demand (s.query.reader s.query.handed p))
  | token {demand : Demand α} {token : UInt64} {v : Wave} {s' : Solo α}
      (hw : s.waiting = some (.pull demand)) (hr : rest = []) (ht : w.token? = some token)
      (ho : s.line.isOpen = true) (hst : StandsAt s' [] (done ++ [w]) v [] [])
      (hs : s.Advances s' [])
      (hv : v = { request := .fetch s.query.transaction (.continuation token s.query.options) })
      (hn : s'.waiting = some (.pull demand)) (hp : s'.query.progress = .continuing) :
      Sees s done w read rest (s', none)
  | ended {demand : Demand α} {d : Delivery} {s' : Solo α} (hw : s.waiting = some (.pull demand))
      (hr : rest = []) (he : w.ending = some d) (hd : d.verdict = .ok ())
      (hst : StandsAt s' [] done w read rest) (hs : s.Advances s' [])
      (hp : s'.query.progress = .exhausted) :
      Sees s done w read rest (s', some (Client.atEnd demand))
  | failed {demand : Demand α} {d : Delivery} {e : Failure} {s' : Solo α}
      (hw : s.waiting = some (.pull demand)) (hr : rest = []) (he : w.ending = some d)
      (hm : s.line.isOpen = false ∨ w.token? = none) (hd : d.verdict = .error e)
      (hst : StandsAt s' [] done w read rest) (hs : s.Advances s' []) (hn : s'.waiting = none)
      (hp : s'.query.progress = .failed e) :
      Sees s done w read rest ({ s' with query := s'.query.fuse demand }, some (.failed e))

/-- A look sees what is next. -/
theorem sees_take (h : StandsAt s [] done w read rest) : s.Sees done w read rest s.take := by
  cases hw : s.waiting with
  | none =>
    rw [take_of_waiting_none hw]
    exact .idle hw
  | some pause =>
    cases hahead : rest.map (.ok ∘ .data) ++ w.ending.toList with
    | nil =>
      rw [h.take_of_ahead_nil hahead]
      obtain ⟨hr, he⟩ := List.append_eq_nil_iff.1 hahead
      exact .nothing hw (List.map_eq_nil_iff.1 hr) (Option.toList_eq_nil_iff.1 he)
    | cons d ds =>
      cases pause with
      | start bound drain =>
        obtain ⟨s', hst, hs, hn, hd⟩ := look_start h hw hahead
        cases d with
        | ok r =>
          rw [hd.2]
          exact .begun hw hst hs hn hd.1
        | error e =>
          rw [hd.2]
          cases rest with
          | cons p rest => cases hahead
          | nil =>
            cases he : w.ending with
            | none => simp [he] at hahead
            | some d =>
              rw [he] at hahead
              cases (List.cons.inj hahead).1
              exact .unbegun hw rfl he hst hs hn hd.1
      | pull demand =>
        cases rest with
        | cons p rest =>
          obtain ⟨s', hst, hs, hn, hp, htake⟩ := look_answer h hw
          rw [htake]
          exact .answer hw rfl hst hs hn hp
        | nil =>
          cases he : w.ending with
          | none => simp [he] at hahead
          | some d' =>
            by_cases hmute : s.line.isOpen = false ∨ w.token? = none
            · obtain ⟨s', hst, hs, hn, hv⟩ := look_end h hw he hmute
              cases hd : d'.verdict with
              | ok u =>
                rw [hd] at hv
                rw [hv.2]
                exact .ended hw rfl he hd hst hs hv.1
              | error e =>
                rw [hd] at hv
                rw [hv.2]
                exact .failed hw rfl he hmute hd hst hs hn hv.1
            · rw [not_or, Bool.not_eq_false] at hmute
              obtain ⟨token, ht⟩ := Option.ne_none_iff_exists'.1 hmute.2
              obtain ⟨s', v, hst, hs, hv, hn, hp, htake⟩ := look_token h hw ht hmute.1
              rw [htake]
              exact .token hw rfl ht hmute.1 hst hs hv hn hp

/-- Only a wait with a bound is given up. -/
def Bounds (s : Solo α) (a : Act) : Prop :=
  a = .giveUp → ∀ drain, s.waiting ≠ some (.start none drain)

/-! ## Books -/

/-- The delivery that the waiting call draws when it looks: a call that pulls takes what is next, one
that waits for the start takes nothing. -/
def draw? (s : Solo α) : Option Delivery :=
  match s.waiting with
  | some (.pull _) => s.poll.map (·.1)
  | _ => none

/-- The delivery that an act draws. -/
def draws (s : Solo α) (a : Act) : Option Delivery := if a = .take then s.draw? else none

/-- The reader was given the payloads that were drawn, and the batches are counted as they were drawn. -/
structure Books (s : Solo α) (ds : List Delivery) : Prop where
  handed : s.query.handed = ds.filterMap Delivery.payload?
  tallied : (s.query.batchSizes, s.query.inBatch) = ds.foldl Delivery.tally ([], 0)

theorem Books.level (h : s.Books ds) (hl : s.Level s') : s'.Books ds where
  handed := hl.handed.trans h.handed
  tallied := by rw [hl.batchSizes, hl.inBatch, h.tallied]

theorem books_consume (h : s.Books ds) (r : Response) :
    Books { s with query := (s.query.consume r).1 } (ds ++ [.ok r]) := by
  have hsizes : ds.foldl Delivery.tally ([], 0) = (s.query.batchSizes, s.query.inBatch) :=
    h.tallied.symm
  have hfold : (ds ++ [Except.ok r]).foldl Delivery.tally ([], 0) =
      Delivery.tally (s.query.batchSizes, s.query.inBatch) (.ok r) := by
    rw [List.foldl_append, hsizes]
    rfl
  constructor
  · rw [List.filterMap_append, ← h.handed]
    cases r with
    | item i => cases hm : i.meaning <;>
        simp [Query.consume, hm, Query.endBatch, Query.fail, Delivery.payload?, Response.answer?]
    | _ => simp [Query.consume, Query.fail, Delivery.payload?, Response.answer?]
  · rw [hfold]
    cases r with
    | item i => cases hm : i.meaning <;>
        simp [Query.consume, hm, Query.endBatch, Query.fail, Delivery.tally, Delivery.closes,
          Delivery.payload?, Response.answer?]
    | _ => simp [Query.consume, Query.fail, Delivery.tally, Delivery.closes, Delivery.payload?,
        Response.answer?]

theorem Books.fuse (h : s.Books ds) (demand : Demand α) (w : Option (Pause α)) :
    Books { s with query := s.query.fuse demand, waiting := w } ds :=
  h.level (level_fuse s demand w)

theorem books_pulled (h : s.Books ds) (demand : Demand α) (d : Delivery) :
    (s.pulled demand d).1.Books (ds ++ [d]) := by
  have hpulls := s.pulls demand d
  generalize s.pulled demand d = o at hpulls ⊢
  cases hpulls with
  | @answer _ p | @got _ p | @refused _ p =>
    have hq := books_consume h (.data p)
    exact ⟨hq.handed, hq.tallied⟩
  | ended =>
    have hq := books_consume h (.item .completion)
    exact ⟨hq.handed, hq.tallied⟩
  | @sent _ i _ hi =>
    have hq := books_consume h (.item i)
    rw [s.query.consume_token hi] at hq
    exact ⟨hq.handed, hq.tallied⟩
  | @unsent _ i _ hi =>
    have hq := books_consume h (.item i)
    rw [s.query.consume_token hi] at hq
    have hfail : Books { s with query := s.query.endBatch.fail .connectionClosed } _ :=
      ⟨hq.handed, hq.tallied⟩
    exact hfail.fuse demand none
  | @failed _ r _ _ hc =>
    have hq := books_consume h r
    rw [hc] at hq
    exact hq.fuse demand none
  | @broken _ e =>
    have hfail : Books { s with query := s.query.fail e } (ds ++ [.error e]) := by
      refine ⟨?_, ?_⟩
      · rw [List.filterMap_append, ← h.handed]
        exact (List.append_nil _).symm
      · rw [List.foldl_append, ← h.tallied]
        rfl
    exact hfail.fuse demand none

theorem books_started (h : s.Books ds) (drain : Bool) (d : Delivery) :
    (s.started drain d).1.Books ds := by
  have hhears := s.hears drain d
  generalize s.started drain d = o at hhears ⊢
  cases hhears <;> exact ⟨h.handed, h.tallied⟩

theorem books_take (h : s.Books ds) : s.take.1.Books (ds ++ s.draw?.toList) := by
  have hnone (hd : s.draw? = none) : ds ++ s.draw?.toList = ds := by rw [hd]; exact List.append_nil ds
  cases hw : s.waiting with
  | none =>
    rw [take_of_waiting_none hw, hnone (by rw [draw?, hw])]
    exact h
  | some pause =>
    cases pause with
    | start bound drain =>
      rw [take_start hw, hnone (by rw [draw?, hw])]
      cases hp : s.line.poll with
      | none => exact h
      | some dl =>
        obtain ⟨d, line⟩ := dl
        have hpolled : Books { s with line := line } ds := ⟨h.handed, h.tallied⟩
        exact books_started hpolled drain d
    | pull demand =>
      rw [take_pull hw, draw?, hw]
      cases hp : s.poll with
      | none => exact (List.append_nil ds).symm ▸ h
      | some ds' =>
        obtain ⟨d, s'⟩ := ds'
        exact books_pulled (h.level (level_poll hp)) demand d

theorem books_act (h : s.Books ds) (a : Act) : (s.act a).1.Books (ds ++ (s.draws a).toList) := by
  by_cases ha : a = .take
  · subst ha
    exact books_take h
  · rw [draws, if_neg ha, Option.toList_none, List.append_nil]
    cases a with
    | ask k => exact h.level (mild_ask s k).level
    | take => exact absurd rfl ha
    | giveUp => exact h.level (mild_giveUp s).level
    | _ => exact ⟨h.handed, h.tallied⟩

/-! ## What was drawn -/

/-- Of a query that goes on, the waves before the last one were drawn and the answers of the last one
that were read; of one that is over, all of its waves, but for a failure that a call found which
waited for the start. -/
inductive Drawn (s : Solo α) (ds : List Delivery) : Prop
  | going {done : List Wave} {w : Wave} {read rest : List Payload}
      (h : StandsAt s [] done w read rest) (ho : s.query.progress.isOver = false)
      (hds : ds = done.flatMap (·.deliveries) ++ read.map (.ok ∘ .data))
  | closed {done : List Wave} {w : Wave} (hw : s.line.waves = done ++ [w])
      (hdone : ∀ v ∈ done, v.Closed) (hclosed : w.Closed)
      (hds : ds = (done ++ [w]).flatMap (·.deliveries))
      (hp : s.query.progress = .exhausted ∨
        s.query.progress = .failed .connectionClosed ∧ w.token?.isSome = true ∧
          s.line.isOpen = false)
  | failed {done : List Wave} {w : Wave} {d : Delivery} {e : Failure}
      (hw : s.line.waves = done ++ [w]) (hdone : ∀ v ∈ done, v.Closed) (he : w.ending = some d)
      (hd : d.closes = false)
      (hds : ds = (done ++ [w]).flatMap (·.deliveries) ∨ done = [] ∧ ds = [])
      (hp : s.query.progress = .failed e)

theorem Drawn.opening (transaction : UInt64) (text : Payload) (options : QueryOptions)
    (reader : Reader α) : (opening transaction text options reader).Drawn [] := by
  obtain ⟨read, rest, h⟩ := standsAt_of_waves (.opening transaction text options reader)
    (show _ = [] ++ [_] from rfl)
  obtain ⟨rfl, rfl⟩ := List.nil_eq_append_iff.1 h.answers
  exact .going h rfl rfl

/-- Where nothing is drawn and the query does not move, what was drawn stays. -/
theorem Drawn.same (h : s.Drawn ds) (hst : Stands s') (hw : s'.line.waves = s.line.waves)
    (hh : s'.query.handed = s.query.handed) (hp : s'.query.progress = s.query.progress)
    (ho : s.line.isOpen = false → s'.line.isOpen = false) : s'.Drawn ds := by
  cases h with
  | going h hgoes hds => exact .going (standsAt_of_same h hst hw hh) (hp ▸ hgoes) hds
  | closed hwaves hdone hclosed hds hover =>
    refine .closed (hw.trans hwaves) hdone hclosed hds ?_
    rw [hp]
    exact hover.imp_right fun ⟨hf, ht, hl⟩ => ⟨hf, ht, ho hl⟩
  | failed hwaves hdone he hd hds hf => exact .failed (hw.trans hwaves) hdone he hd hds (hp.trans hf)

/-- The end of a wave that fails the query does not close it, unless there is no connection. -/
theorem closes_of_verdict {d : Delivery} {e : Failure} (hd : d.verdict = .error e)
    (ht : d.token? = none) : d.closes = false := by
  rw [Delivery.closes_eq, ht]
  refine decide_eq_false ?_
  rintro rfl
  cases hd

theorem closes_of_verdict_ok {d : Delivery} (hd : d.verdict = .ok ()) : d.closes = true := by
  unfold Delivery.verdict at hd
  split at hd
  · split at hd <;> rename_i hi
    · simp only [Delivery.closes, hi]
    · cases hd
    · cases hd
    · cases hd
  · cases hd
  · cases hd
  · cases hd

theorem deliveries_of_read (h : StandsAt s [] done w read []) {d : Delivery}
    (he : w.ending = some d) :
    (done ++ [w]).flatMap (·.deliveries) =
      done.flatMap (·.deliveries) ++ read.map (Except.ok ∘ Response.data) ++ [d] := by
  have hanswers : w.answers = read := h.answers.trans (List.append_nil read)
  simp [Wave.deliveries, hanswers, he]

theorem draw?_of_pull {demand : Demand α} (h : StandsAt s [] done w read rest)
    (hw : s.waiting = some (.pull demand)) :
    s.draw? = (rest.map (Except.ok ∘ Response.data) ++ w.ending.toList).head? := by
  obtain ⟨hheld, hover⟩ := h.waiting _ hw
  have hahead := h.ahead hheld
  rw [hover, List.nil_append, if_neg Bool.false_ne_true] at hahead
  rw [draw?, hw, ← hahead]
  cases hp : s.poll with
  | none =>
    cases hne : s.query.ahead s.line.inbox with
    | nil => rfl
    | cons d ds =>
      obtain ⟨s', hs', -⟩ := poll_of_ahead hne
      rw [hp] at hs'
      cases hs'
  | some ds =>
    obtain ⟨d, s'⟩ := ds
    obtain ⟨h', hheld', hover'⟩ := h.poll hheld hover hp
    have hfound := h'.ahead hheld'
    rw [hover', if_neg Bool.false_ne_true, List.singleton_append] at hfound
    rw [hahead, ← hfound]
    rfl

theorem Drawn.exists_standsAt (h : s.Drawn ds) (ho : s.query.progress.isOver = false) :
    ∃ done w read rest, StandsAt s [] done w read rest ∧
      ds = done.flatMap (·.deliveries) ++ read.map (.ok ∘ .data) := by
  cases h with
  | going h _ hds => exact ⟨_, _, _, _, h, hds⟩
  | closed _ _ _ _ hp =>
    rcases hp with hp | ⟨hp, -⟩ <;> rw [hp] at ho <;> cases ho
  | failed _ _ _ _ _ hp =>
    rw [hp] at ho
    cases ho

theorem Drawn.take_going (h : StandsAt s [] done w read rest) (ho : s.query.progress.isOver = false)
    (hds : ds = done.flatMap (·.deliveries) ++ read.map (.ok ∘ .data)) :
    s.take.1.Drawn (ds ++ s.draw?.toList) := by
  have hdone := Wave.closed_of_isChain h.linked
  have hstart {bound : Option Nat} {drain : Bool} (hw : s.waiting = some (.start bound drain)) :
      ds ++ s.draw?.toList = ds := by
    rw [draw?, hw]
    exact List.append_nil ds
  -- all of the last wave was drawn with its end
  have hlast {demand : Demand α} {d : Delivery} (hw : s.waiting = some (.pull demand))
      (hr : rest = []) (he : w.ending = some d) :
      ds ++ s.draw?.toList = (done ++ [w]).flatMap (·.deliveries) := by
    subst hr
    rw [draw?_of_pull h hw, he, hds, deliveries_of_read h he]
    rfl
  have hsees := sees_take h
  generalize s.take = o at hsees ⊢
  cases hsees with
  | idle hw =>
    rw [draw?, hw]
    exact .going h ho (hds ▸ List.append_nil _)
  | @nothing pause hw hr he =>
    refine .going h ho ?_
    cases pause with
    | start => rw [hstart hw, hds]
    | pull demand =>
      rw [draw?_of_pull h hw, hr, he, hds]
      exact List.append_nil _
  | @begun bound drain s' hw hst hs hn hp =>
    rw [hstart hw]
    have hover : s'.query.progress.isOver = false := by rw [hp]; rfl
    have hheld : s'.query.held = true := hs.held.trans (h.waiting _ hw).1
    cases drain with
    | true => exact .going (hst.wait (p := .pull (.rest [])) ⟨hheld, hover⟩) hover hds
    | false => exact .going hst hover hds
  | unbegun hw hr he hst hs hn hp =>
    rw [hstart hw]
    obtain ⟨rfl, rfl, -⟩ := h.pending (h.waiting _ hw).2
    exact .failed hst.waves hdone he rfl (.inr ⟨rfl, hds⟩) hp
  | @answer demand p rest' s' hw hr hst hs hn hp =>
    have hover : s'.query.progress.isOver = false := by rw [hp]; rfl
    have hheld : s'.query.held = true := hs.held.trans (h.waiting _ hw).1
    have hnext : ds ++ s.draw?.toList =
        done.flatMap (·.deliveries) ++ (read ++ [p]).map (.ok ∘ .data) := by
      rw [draw?_of_pull h hw, hr, hds]
      simp
    rw [hnext]
    cases s.query.reader s.query.handed p with
    | error e => cases demand <;> exact .going hst hover rfl
    | ok a =>
      cases demand with
      | rest got => exact .going (hst.wait (p := .pull (.rest (got ++ [a]))) ⟨hheld, hover⟩) hover rfl
      | answer | item => exact .going hst hover rfl
  | @token demand token v s' hw hr ht hopen hst hs hv hn hp =>
    obtain ⟨d, he⟩ : ∃ d, w.ending = some d := by
      rw [Wave.token?_eq] at ht
      obtain ⟨d, he, -⟩ := Option.bind_eq_some_iff.1 ht
      exact ⟨d, he⟩
    rw [hlast hw hr he]
    refine .going hst (hst.waiting _ hn).2 ?_
    exact (List.append_nil _).symm
  | ended hw hr he hd hst hs hp =>
    rw [hlast hw hr he]
    exact .closed hst.waves hdone ⟨_, he, closes_of_verdict_ok hd⟩ rfl (.inl hp)
  | @failed demand d e s' hw hr he hm hd hst hs hn hp =>
    rw [hlast hw hr he]
    have htoken : w.token? = d.token? := by rw [Wave.token?_eq, he]; rfl
    have hwaves : s'.line.waves = done ++ [w] := hst.waves
    have hprogress : (s'.query.fuse demand).progress = .failed e :=
      (Query.progress_fuse s'.query demand).trans hp
    cases ht : d.token? with
    | none => exact .failed hwaves hdone he (closes_of_verdict hd ht) (.inl rfl) hprogress
    | some token =>
      obtain ⟨i, rfl, hi⟩ := Delivery.token?_eq_some.1 ht
      rw [Delivery.verdict_continuation hi] at hd
      cases hd
      refine .closed hwaves hdone (Wave.closed_of_token? (by rw [htoken, ht]; rfl)) rfl
        (.inr ⟨hprogress, by rw [htoken, ht]; rfl, ?_⟩)
      rw [htoken, ht] at hm
      exact hs.isOpen.trans (hm.resolve_right nofun)

theorem Drawn.take (h : s.Drawn ds) (hst : Stands s) : s.take.1.Drawn (ds ++ s.draw?.toList) := by
  cases ho : s.query.progress.isOver with
  | true =>
    have hw := (over_of_isOver hst ho).idle
    rw [take_of_waiting_none hw, draw?, hw]
    exact (List.append_nil ds).symm ▸ h
  | false =>
    obtain ⟨done, w, read, rest, hat, hds⟩ := h.exists_standsAt ho
    exact Drawn.take_going hat ho hds

/-- What is heard on a line or fails it comes after all that was drawn. -/
theorem Drawn.amend (h : s.Drawn ds) (hst : Stands s) {line : Line}
    (hline : ∀ {done w read rest}, StandsAt s [] done w read rest →
      ∃ w' rest', StandsAt { s with line := line } [] done w' read rest')
    (hover : s.query.progress.isOver = true → line.waves = s.line.waves)
    (ho : s.line.isOpen = false → line.isOpen = false) : Drawn { s with line := line } ds := by
  cases hp : s.query.progress.isOver with
  | true =>
    obtain ⟨done, w, read, rest, hat⟩ := hst
    obtain ⟨w', rest', hat'⟩ := hline hat
    exact h.same ⟨_, _, _, _, hat'⟩ (hover hp) rfl rfl ho
  | false =>
    obtain ⟨done, w, read, rest, hat, hds⟩ := h.exists_standsAt hp
    obtain ⟨w', rest', hat'⟩ := hline hat
    exact .going hat' hp hds

theorem isLive_of_isOver (h : Stands s) (hover : s.query.progress.isOver = true) :
    s.line.isLive = false := by
  obtain ⟨done, w, read, rest, h⟩ := h
  rw [h.isLive, (h.finished hover).2]
  rfl

theorem Drawn.strike (h : s.Drawn ds) (hst : Stands s) {e : Failure} (he : e ≠ .timeout)
    (isOpen : Bool)
    (hb : isOpen = false ∨ (isOpen = s.line.isOpen ∧ e ≠ .connectionClosed)) :
    Drawn { s with line := { s.line.strike e with isOpen := isOpen } } ds := by
  refine h.amend hst (fun hat => ?_) (fun hover => ?_) fun ho => ?_
  · obtain ⟨w', hat'⟩ := hat.strike he isOpen hb
    exact ⟨w', _, hat'⟩
  · rw [Line.strike_of_not_live (isLive_of_isOver hst hover)]
  · rcases hb with rfl | ⟨rfl, -⟩
    · rfl
    · exact ho

theorem Drawn.act (h : s.Drawn ds) (hst : Stands s) (a : Act) :
    (s.act a).1.Drawn (ds ++ (s.draws a).toList) := by
  by_cases ha : a = .take
  · subst ha
    exact h.take hst
  · rw [draws, if_neg ha, Option.toList_none, List.append_nil]
    have hst' := hst.act a
    cases a with
    | ask k =>
      have hmild := mild_ask s k
      exact h.same hst' hmild.line.1 (mild_ask s k).level.handed hmild.progress
        fun ho => hmild.line.2.trans ho
    | take => exact absurd rfl ha
    | giveUp =>
      have hmild := mild_giveUp s
      exact h.same hst' hmild.line.1 (mild_giveUp s).level.handed hmild.progress
        fun ho => hmild.line.2.trans ho
    | heard r =>
      refine h.amend hst (fun hat => hat.hear r) (fun hover => ?_) fun ho => ?_
      · rw [Line.hear_of_not_live (isLive_of_isOver hst hover)]
      · rw [Line.isOpen_hear]
        exact ho
    | transactionEnded =>
      have hs := h.strike hst (e := .transactionClosed) nofun s.line.isOpen (.inr ⟨rfl, nofun⟩)
      rwa [← Line.isOpen_strike s.line .transactionClosed] at hs
    | sessionEnded =>
      have hs := h.strike hst (e := .sessionClosed) nofun s.line.isOpen (.inr ⟨rfl, nofun⟩)
      rwa [← Line.isOpen_strike s.line .sessionClosed] at hs
    | lost => exact h.strike hst (e := .connectionClosed) nofun false (.inl rfl)

/-- The waves that were drawn to their ends, and what was drawn of the last one if it is none of
these. -/
theorem Drawn.counted (h : s.Drawn ds) : ∃ closed last tail, s.line.waves = closed ++ last ∧
    ds = closed.flatMap (·.deliveries) ++ tail ∧ tail <+: last.flatMap (·.deliveries) ∧
    (∀ w ∈ closed, w.Closed) ∧ (∀ d ∈ tail, d.closes = false) ∧
    (last = [] ∧ (s.query.progress = .exhausted ∨ s.query.Refused ds ∧
        s.query.progress = .failed .connectionClosed ∧ s.line.isOpen = false) ∨
      last.length = 1 ∧ s.query.progress ≠ .exhausted ∧ ¬ s.query.Refused ds) := by
  cases h with
  | @going done w read rest h ho hds =>
    refine ⟨done, [w], read.map (.ok ∘ .data), h.waves, hds, ?_, Wave.closed_of_isChain h.linked,
      fun _ => closes_of_mem_data, .inr ⟨rfl, ?_, ?_⟩⟩
    · rw [List.flatMap_singleton, Wave.deliveries, h.answers, List.map_append, List.append_assoc]
      exact List.prefix_append _ _
    · intro hp
      rw [hp] at ho
      cases ho
    · rintro ⟨⟨e, hp⟩, -⟩
      rw [hp] at ho
      cases ho
  | @closed done w hw hdone hclosed hds hp =>
    refine ⟨done ++ [w], [], [], by rw [hw, List.append_nil], by rw [hds, List.append_nil],
      List.prefix_rfl, fun v hv => ?_, by simp, .inl ⟨rfl, hp.imp_right ?_⟩⟩
    · rcases List.mem_append.1 hv with hv | hv
      · exact hdone v hv
      · exact List.mem_singleton.1 hv ▸ hclosed
    · rintro ⟨hf, ht, ho⟩
      obtain ⟨d, he, -⟩ := hclosed
      refine ⟨⟨⟨_, hf⟩, d, ?_, ?_⟩, hf, ho⟩
      · simp [hds, Wave.deliveries, he]
      · rw [Wave.token?_eq, he] at ht
        exact ht
  | @failed done w d e hw hdone he hd hds hp =>
    have hgoing : s.query.progress ≠ .exhausted := by
      rw [hp]
      exact Progress.noConfusion
    rcases hds with hds | ⟨rfl, hds⟩
    · refine ⟨done, [w], w.deliveries, hw, by simp [hds], by simp, hdone, fun d' hd' => ?_,
        .inr ⟨rfl, hgoing, ?_⟩⟩
      · rw [Wave.deliveries, he, List.mem_append] at hd'
        rcases hd' with hd' | hd'
        · exact closes_of_mem_data hd'
        · cases Option.mem_toList.1 hd'
          exact hd
      · rintro ⟨-, d', hlast, ht⟩
        have hd' : d' = d := by simpa [hds, Wave.deliveries, he, eq_comm] using hlast
        rw [← hd', Delivery.closes_of_token? ht] at hd
        cases hd
    · refine ⟨[], [w], [], hw, hds, List.nil_prefix, hdone, by simp, .inr ⟨rfl, hgoing, ?_⟩⟩
      rintro ⟨-, d', hlast, -⟩
      rw [hds] at hlast
      cases hlast

end Solo

namespace Client

variable {c : Client α} {h : Handle} {q : Query α} {m : Move α}

/-! ## Runs -/

/-- The delivery that a move draws from the query at a place. -/
def draw? (c : Client α) (h : Handle) (m : Move α) : Option Delivery :=
  if c.pulls h m then c.found? h else none

/-- The deliveries that a run draws from the query at a place, in order. -/
def drawn (c : Client α) (h : Handle) : List (Move α) → List Delivery
  | [] => []
  | m :: ms => (c.draw? h m).toList ++ (c.step m).1.drawn h ms

theorem drawn_append (c : Client α) (h : Handle) (ms ms' : List (Move α)) :
    c.drawn h (ms ++ ms') = c.drawn h ms ++ (c.runAll ms).1.drawn h ms' := by
  induction ms generalizing c with
  | nil => rfl
  | cons m ms ih =>
    rw [List.cons_append, drawn, ih, ← List.append_assoc]
    rfl

theorem exists_of_pulls (hp : c.pulls h m = true) :
    (m = .resume ∨ m = .expire) ∧ ∃ demand, c.waiting = some (.pull h demand) := by
  unfold pulls at hp
  split at hp
  · split at hp
    · exact ⟨.inl rfl, _, by rw [← eq_of_beq hp]; assumption⟩
    · cases hp
  · split at hp
    · exact ⟨.inr rfl, _, by rw [← eq_of_beq hp]; assumption⟩
    · cases hp
  · cases hp
  · cases hp
  · cases hp

/-- What a move draws from a query is what the query draws by itself. -/
theorem Sound.draw?_eq (hc : c.Sound) (hq : c.queries[h]? = some q) (m : Move α) :
    c.draw? h m = if c.ownActs h q m = [.take] then (c.soloOf h q).draw? else none := by
  have hfound : c.found? h = (c.soloOf h q).poll.map (·.1) := by
    rw [hc.poll_soloOf hq, found?, hq]
    rfl
  split
  · rename_i hown
    have hpulls : c.pulls h m = c.pulls h .resume := by
      rcases of_ownActs_take hown with rfl | rfl <;> rfl
    have hwait : (c.soloOf h q).waiting = c.waiting.bind (·.on h) := rfl
    rw [draw?, Solo.draw?, hpulls, hfound, hwait, pulls]
    cases c.waiting with
    | none => rfl
    | some w =>
      cases w with
      | errand e i => rfl
      | start h' bound drain => by_cases hh : h' = h <;> simp [Wait.on, hh]
      | pull h' demand => by_cases hh : h' = h <;> simp [Wait.on, hh]
  · rename_i hown
    rw [draw?]
    split
    · rename_i hp
      obtain ⟨hm, demand, hw⟩ := exists_of_pulls hp
      have hwaits : c.waitsOn h = true := by simp [waitsOn, hw, Wait.on]
      cases hf : c.found? h with
      | none => rfl
      | some d =>
        -- what is found is there for the look
        refine absurd ?_ hown
        have hready : c.isReady = true := by
          unfold found? at hf
          rw [hq, Option.bind_some] at hf
          obtain ⟨p, hpoll, -⟩ := Option.map_eq_some_iff.1 hf
          simp [isReady, hw, hq, hpoll]
        rcases hm with rfl | rfl
        · exact if_pos hwaits
        · exact (if_pos hwaits).trans (if_pos hready)
    · rfl

/-- A query is asked for something when a call is made on it and none waits. -/
theorem of_ownActs_ask {a : Ask} (hown : c.ownActs h q m = [.ask a]) :
    ∃ k, m = .call k ∧ c.waiting = none ∧ k.ask? = some (h, a) := by
  cases m with
  | call k =>
    simp only [ownActs] at hown
    split at hown
    · rename_i h' a' hw hk
      split at hown
      · rename_i hh
        cases hown
        exact ⟨k, rfl, hw, hh ▸ hk⟩
      · cases hown
    · cases hown
  | arrive f =>
    simp only [ownActs] at hown
    split at hown <;> cases hown
  | lose => cases hown
  | resume =>
    simp only [ownActs] at hown
    split at hown <;> cases hown
  | expire =>
    simp only [ownActs] at hown
    split at hown
    · split at hown
      · cases hown
      · split at hown <;> cases hown
    · cases hown

/-- A wait without a bound is not given up. -/
theorem bounded_of_ownActs (hown : c.ownActs h q m = [.giveUp]) (drain : Bool) :
    (c.soloOf h q).waiting ≠ some (.start none drain) := by
  intro hw
  have hwait := waiting_of_soloOf hw
  have hbound : c.bound? = none := by
    unfold bound?
    rw [hwait]
  cases m with
  | call k =>
    simp only [ownActs] at hown
    split at hown
    · split at hown <;> cases hown
    · cases hown
  | arrive f =>
    simp only [ownActs] at hown
    split at hown <;> cases hown
  | lose => cases hown
  | resume =>
    simp only [ownActs] at hown
    split at hown <;> cases hown
  | expire =>
    simp only [ownActs, hbound] at hown
    split at hown
    · split at hown <;> cases hown
    · cases hown

/-- A place at which there is no query yet draws nothing and has no replies. -/
theorem untold_step (hq : c.queries[h]? = none) : c.drawn h [m] = [] ∧ c.repliesTo h [m] = [] := by
  simp [drawn, draw?, found?, repliesTo, hq]

section

variable {J : List Delivery → List (Reply α) → Solo α → Prop} {Allowed : List (Reply α) → Ask → Prop}
  {ds : List Delivery} {rs : List (Reply α)}
  (hact : ∀ ds rs s a, s.Takes a → s.Bounds a → (∀ k, a = .ask k → Allowed rs k) → J ds rs s →
    J (ds ++ (s.draws a).toList) (rs ++ (s.act a).2.toList) (s.act a).1)

include hact

/-- The ends of owners draw nothing and give no replies. -/
theorem kept_ends {as : List Act}
    (has : ∀ a ∈ as, a = .transactionEnded ∨ a = .sessionEnded ∨ a = .lost)
    {s : Solo α} (hs : J ds rs s) : J ds rs (s.acts as).1 := by
  induction as generalizing s with
  | nil => exact hs
  | cons a as ih =>
    refine ih (fun b hb => has b (List.mem_cons_of_mem _ hb)) ?_
    have hstep := hact ds rs s a
    rcases has a List.mem_cons_self with rfl | rfl | rfl <;>
      simpa [Solo.draws, Solo.act, Solo.Takes, Solo.Bounds, hs] using hstep

/-- What every act keeps of a query along with what it draws and replies, a move keeps. -/
theorem kept_step (hs : c.Sound) (hb : (c.step m).1.link.issued ≤ 2 ^ 64)
    (hask : ∀ k a, m = .call k → c.waiting = none → k.ask? = some (h, a) → Allowed rs a)
    (hq : c.queries[h]? = some q) (hJ : J ds rs (c.soloOf h q)) :
    ∃ q', (c.step m).1.queries[h]? = some q' ∧
      J (ds ++ c.drawn h [m]) (rs ++ c.repliesTo h [m]) ((c.step m).1.soloOf h q') := by
  obtain ⟨q', hq', -, -, hacts⟩ := (hs.step m hb).solo h q hq
  refine ⟨q', hq', ?_⟩
  have hreplies : c.repliesTo h [m] =
      ((c.soloOf h q).acts (c.ownActs h q m ++ c.ends (c.step m).1 q.owner)).2 := by
    rw [hacts]
    simp [repliesTo, hq]
  have hdrawn : c.drawn h [m] =
      (if c.ownActs h q m = [.take] then (c.soloOf h q).draw? else none).toList := by
    rw [drawn, drawn, List.append_nil, hs.draw?_eq hq]
  have hsolo : (c.step m).1.soloOf h q' = _ := (congrArg Prod.fst hacts).symm
  have hquiet (s : Solo α) : (s.acts (c.ends (c.step m).1 q.owner)).2 = [] := by
    rw [acts_ends]
  rw [hreplies, hdrawn, hsolo, Solo.acts_append, hquiet, List.append_nil]
  refine kept_ends hact (fun a ha => mem_ends ha) ?_
  rcases ownActs_cases c m h q with hown | ⟨a, hown, ha⟩
  · rw [hown]
    simpa [Solo.acts] using hJ
  · have hallowed : ∀ k, a = .ask k → Allowed rs k := by
      rintro k rfl
      obtain ⟨k', rfl, hw, hk'⟩ := of_ownActs_ask hown
      exact hask k' k rfl hw hk'
    have hbounds : (c.soloOf h q).Bounds a := by
      rintro rfl
      exact bounded_of_ownActs hown
    have hnext := hact _ _ _ a ha hbounds hallowed hJ
    rw [hown, Solo.acts_cons]
    simpa [Solo.acts, Solo.draws] using hnext

end

/-- What holds of a query when it is opened, and what every act keeps of it along with the deliveries
that are drawn and the replies that are given, if the calls that are made on it are of a kind that is
allowed after the replies so far. -/
theorem traced {timeout : Option Nat} {J : List Delivery → List (Reply α) → Solo α → Prop}
    (Allowed : List (Reply α) → Ask → Prop)
    (hopen : ∀ transaction text options reader, J [] [] (.opening transaction text options reader))
    (hact : ∀ ds rs s a, s.Takes a → s.Bounds a → (∀ k, a = .ask k → Allowed rs k) → J ds rs s →
      J (ds ++ (s.draws a).toList) (rs ++ (s.act a).2.toList) (s.act a).1)
    {ms : List (Move α)} (hb : ((new timeout).runAll ms).1.link.issued ≤ 2 ^ 64)
    (hask : ∀ before k after a, ms = before ++ .call k :: after →
      ((new timeout).runAll before).1.waiting = none →
      ((new timeout).runAll before).1.queries[h]?.isSome = true → k.ask? = some (h, a) →
      Allowed ((new timeout).repliesTo h before) a)
    (hq : ((new timeout).runAll ms).1.queries[h]? = some q) :
    J ((new timeout).drawn h ms) ((new timeout).repliesTo h ms)
      (((new timeout).runAll ms).1.soloOf h q) := by
  have hall : (((new timeout).runAll ms).1.queries[h]? = none →
        (new timeout).drawn h ms = [] ∧ (new timeout).repliesTo h ms = []) ∧
      ∀ q, ((new timeout).runAll ms).1.queries[h]? = some q →
        J ((new timeout).drawn h ms) ((new timeout).repliesTo h ms)
          (((new timeout).runAll ms).1.soloOf h q) := by
    clear hq
    induction ms using List.reverseRecOn with
    | nil =>
      refine ⟨fun _ => ⟨rfl, rfl⟩, fun q hq => ?_⟩
      cases hq
    | append_singleton ms m ih =>
      rw [runAll_append] at hb ⊢
      have hb₁ : (((new timeout).runAll ms).1.step m).1.link.issued ≤ 2 ^ 64 := hb
      have hb₀ := Nat.le_trans (issued_step _ m) hb₁
      obtain ⟨hnone, hsome⟩ := ih hb₀ fun before k after a hms =>
        hask before k (after ++ [m]) a (by rw [hms]; simp)
      have hreach : ((new timeout).runAll ms).1.Reachable := ⟨timeout, ms, rfl⟩
      have hs := hreach.sound hb₀
      have hafter : (((new timeout).runAll ms).1.runAll [m]).1 =
        (((new timeout).runAll ms).1.step m).1 := rfl
      rw [drawn_append, repliesTo_append]
      dsimp only
      rw [hafter]
      cases hq₀ : ((new timeout).runAll ms).1.queries[h]? with
      | none =>
        obtain ⟨hd, hr⟩ := hnone hq₀
        obtain ⟨hd', hr'⟩ := untold_step (m := m) hq₀
        rw [hd, hr, hd', hr']
        refine ⟨fun _ => ⟨rfl, rfl⟩, fun q hq => ?_⟩
        obtain ⟨t, text, options, reader, x, -, -, -, -, -, -, -, -, hsolo, -⟩ :=
          (hs.step m hb₁).opened h q hq hq₀
        rw [hsolo]
        exact hopen x.id text options reader
      | some q₀ =>
        have hcalls : ∀ k a, m = .call k → ((new timeout).runAll ms).1.waiting = none →
            k.ask? = some (h, a) → Allowed ((new timeout).repliesTo h ms) a := by
          rintro k a rfl hw hk
          exact hask ms k [] a rfl hw (by rw [hq₀]; rfl) hk
        obtain ⟨q', hq', hJ⟩ := kept_step hact hs hb₁ hcalls hq₀ (hsome q₀ hq₀)
        refine ⟨fun hn => ?_, fun q hq => ?_⟩
        · rw [hq'] at hn
          cases hn
        · rw [hq'] at hq
          cases hq
          exact hJ
  exact hall.2 q hq

/-! ## The theorem -/

/-- **Batches are counted as they are drawn.** The batch sizes of a query are the answer counts of the
waves of which the token or the mark of completion was drawn, in order. With the answers drawn of the
next wave, in which nothing was drawn that closes it, they add up to the calls of the reader, which was
given each answer that was drawn once. Each wave was asked for with one frame, so that there are as many
frames as batches once the query is exhausted or failed for lack of a connection to ask for the next
one on, and one more until then and when it failed of something else. -/
theorem batches_counted {timeout : Option Nat} {ms : List (Move α)}
    (hc : ((new timeout).runAll ms).1 = c) (hb : c.link.issued ≤ 2 ^ 64)
    (hq : c.queries[h]? = some q) :
    q.handed = ((new timeout).drawn h ms).filterMap Delivery.payload? ∧
    (∃ closed last tail, c.link.waves q.lane = closed ++ last ∧
      (new timeout).drawn h ms = closed.flatMap (·.deliveries) ++ tail ∧
      tail <+: last.flatMap (·.deliveries) ∧ (∀ w ∈ closed, w.Closed) ∧
      (∀ d ∈ tail, d.closes = false) ∧ q.batchSizes = closed.map (·.answers.length) ∧
      q.handed.length = q.batchSizes.sum + (tail.filterMap Delivery.payload?).length) ∧
    (q.Refused ((new timeout).drawn h ms) →
      q.progress = .failed .connectionClosed ∧ c.link.isOpen = false) ∧
    ((q.progress = .exhausted ∨ q.Refused ((new timeout).drawn h ms)) →
      (c.link.frames q.lane).length = q.batchSizes.length) ∧
    (¬ (q.progress = .exhausted ∨ q.Refused ((new timeout).drawn h ms)) →
      (c.link.frames q.lane).length = q.batchSizes.length + 1) := by
  subst hc
  obtain ⟨hst, hbooks, hdrawn⟩ := traced (q := q) (h := h)
    (J := fun ds _ s => Stands s ∧ s.Books ds ∧ s.Drawn ds) (fun _ _ => True)
    (fun transaction text options reader => ⟨.opening transaction text options reader,
      ⟨rfl, rfl⟩, .opening transaction text options reader⟩)
    (fun ds _ s a _ _ _ hs => ⟨hs.1.act a, Solo.books_act hs.2.1 a, hs.2.2.act hs.1 a⟩) hb
    (fun _ _ _ _ _ _ _ _ => trivial) hq
  obtain ⟨closed, last, tail, hwaves, hds, htail, hclosed, hopen, hlast⟩ := hdrawn.counted
  have hhanded : q.handed = _ := hbooks.handed
  have hsizes : q.batchSizes = closed.map (·.answers.length) := by
    have htallied := hbooks.tallied
    rw [hds, List.foldl_append, Wave.tally_closed hclosed, tally_of_not_closes hopen] at htallied
    exact congrArg Prod.fst htallied
  have hframes : (((new timeout).runAll ms).1.link.frames q.lane).length =
      q.batchSizes.length + last.length := by
    have hwaves : ((new timeout).runAll ms).1.link.waves q.lane = closed ++ last := hwaves
    rw [Link.frames_eq, List.length_map, hwaves, hsizes, List.length_append, List.length_map]
  refine ⟨hhanded, ⟨closed, last, tail, hwaves, hds, htail, hclosed, hopen, hsizes, ?_⟩, ?_, ?_, ?_⟩
  · rw [hhanded, hds, List.filterMap_append, Wave.payloads_closed hclosed, List.length_append,
      List.length_flatMap, hsizes]
  · intro hr
    rcases hlast with ⟨-, hp | ⟨-, hp, ho⟩⟩ | ⟨-, -, hnot⟩
    · obtain ⟨⟨e, he⟩, -⟩ := hr
      rw [show q.progress = .exhausted from hp] at he
      cases he
    · exact ⟨hp, ho⟩
    · exact absurd hr hnot
  · intro hr
    rcases hlast with ⟨rfl, -⟩ | ⟨-, hgoing, hnot⟩
    · exact hframes
    · exact absurd hr (not_or.2 ⟨hgoing, hnot⟩)
  · intro hr
    rcases hlast with ⟨-, hp | ⟨hp, -⟩⟩ | ⟨hone, -⟩
    · exact absurd (.inl hp) hr
    · exact absurd (.inr hp) hr
    · rw [hframes, hone]

/-- A query whose second answer is no text. Its second batch is empty, and when the token of the third
is drawn the connection is gone. -/
def emptyBatch : List (Move String) :=
  [.call (.openSession "db" .data), .arrive ⟨1, .sessionOpened 7⟩, .resume,
    .call (.openTransaction 0 .read), .arrive ⟨2, .transactionOpened 9⟩, .resume,
    .call (.query 0 [113] {} Reader.text), .arrive ⟨3, .data [97]⟩, .arrive ⟨3, .data [255]⟩,
    .arrive ⟨3, .item (.continuation 5)⟩, .call (.nextAnswer 0), .resume, .call (.nextAnswer 0), .resume,
    .call (.nextAnswer 0), .resume, .arrive ⟨3, .item (.continuation 6)⟩, .lose, .resume]

theorem batches_counted_emptyBatch :
    ∃ c : Client String, ((new none).runAll emptyBatch).1 = c ∧ c.link.issued ≤ 2 ^ 64 ∧
      ∃ q, c.queries[0]? = some q ∧ q.handed = [[97], [255]] ∧ q.batchSizes = [2, 0] ∧
        q.Refused ((new none).drawn 0 emptyBatch) ∧ q.progress = .failed .connectionClosed ∧
        (c.link.frames q.lane).length = 2 := by
  obtain ⟨c, hc⟩ : ∃ c : Client String, ((new none).runAll emptyBatch).1 = c := ⟨_, rfl⟩
  have hb : c.link.issued ≤ 2 ^ 64 := by
    rw [← hc]
    decide +kernel
  have hdrawn : (new (α := String) none).drawn 0 emptyBatch = [.ok (.data [97]), .ok (.data [255]),
      .ok (.item (.continuation 5)), .ok (.item (.continuation 6))] := by
    decide +kernel
  have hquery : c.queries[0]?.map (fun q => (q.progress, q.batchSizes)) =
      some (.failed .connectionClosed, [2, 0]) := by
    rw [← hc]
    decide +kernel
  obtain ⟨q, hq, hp⟩ := Option.map_eq_some_iff.1 hquery
  obtain ⟨hprogress, hsizes⟩ := Prod.mk.inj hp
  obtain ⟨hhanded, -, -, hframes, -⟩ := batches_counted hc hb hq
  have hrefused : q.Refused ((new none).drawn 0 emptyBatch) :=
    ⟨⟨_, hprogress⟩, .ok (.item (.continuation 6)), by rw [hdrawn]; rfl, rfl⟩
  have hlength := hframes (.inr hrefused)
  rw [hdrawn] at hhanded
  rw [hsizes] at hlength
  exact ⟨c, hc, hb, q, hq, hhanded, hsizes, hrefused, hprogress, hlength⟩

end Client

end QueryLanes
