import QueryLanes.Proofs.Dialogue

/-!
# Draining

A caller who gathers the answers of a query gets them all, as long as the responses of its pager keep
arriving and the waiting call keeps looking. `Solo.Drains` says what such a call has gathered and
what is still to come. With each turn in which something arrives or is found less is to go,
`Solo.toGo`, and until the call is over there is always something on the way or something to find,
`Solo.Drains.ready`. So the call ends within a number of rounds that depends on the number of
payloads alone, `Dialogue.drained`, and `Dialogue.paged` is the whole story of a query.
-/

namespace QueryLanes

variable {α : Type}

/-- What a reader makes of payloads that it is given one after the other after those `seen`, if it
accepts them all. -/
def Reader.readAll (reader : Reader α) (seen : List Payload) :
    List Payload → Except Failure (List α)
  | [] => .ok []
  | p :: ps =>
    match reader seen p with
    | .error e => .error e
    | .ok a => (readAll reader (seen ++ [p]) ps).map (a :: ·)

theorem Reader.readAll_cons {reader : Reader α} {seen ps : List Payload} {p : Payload}
    {as : List α} (h : reader.readAll seen (p :: ps) = .ok as) :
    ∃ a as', reader seen p = .ok a ∧ reader.readAll (seen ++ [p]) ps = .ok as' ∧ as = a :: as' := by
  rw [readAll] at h
  cases ha : reader seen p with
  | error e =>
    rw [ha] at h
    cases h
  | ok a =>
    rw [ha] at h
    dsimp only at h
    cases has : reader.readAll (seen ++ [p]) ps with
    | error e =>
      rw [has] at h
      cases h
    | ok as' =>
      rw [has] at h
      cases h
      exact ⟨a, as', rfl, rfl, rfl⟩

/-- The waiting call gathers all answers. With those that are made of the payloads `rest` they are
`as`. -/
def Pause.Gathers (q : Query α) (rest : List Payload) (as : List α) : Pause α → Prop
  | .start _ drain => drain = true ∧ q.reader.readAll q.handed rest = .ok as
  | .pull (.rest got) => ∃ more, q.reader.readAll q.handed rest = .ok more ∧ as = got ++ more
  | .pull .answer | .pull .item => False

/-- A payload that is left weighs four turns, a response that is on the way two: so the next batch
weighs no more on the way than it did before. -/
theorem Pager.weight_answer (p : Pager) (t : UInt64) (f : Fetch) (hout : p.outbox = [])
    (hleft : p.left ≠ []) (hb : f.options.batchSize ≠ .number 0) :
    4 * (p.answer (.fetch t f)).left.length + 2 * (p.answer (.fetch t f)).outbox.length ≤
      4 * p.left.length := by
  have hle := f.options.batchSize.share_le p.left.length
  have hpos := BatchSize.share_pos hb (List.length_pos_iff.2 hleft)
  simp only [answer, cut, hout, List.length_append, List.length_map, List.length_drop,
    List.length_take, List.length_singleton, List.length_nil, Nat.min_eq_left hle]
  omega

theorem Wave.unfailed_hear {w : Wave} (ho : w.isOver = false)
    (hw : ∀ e, w.ending ≠ some (.error e)) (r : Response) (e : Failure) :
    (w.hear r).ending ≠ some (.error e) := by
  cases hr : r.isTerminal with
  | true =>
    rw [hear_terminal ho hr]
    intro he
    cases he
  | false =>
    obtain ⟨a, rfl⟩ := Response.eq_data_of_not_isTerminal hr
    rw [hear_data ho]
    exact hw e

/-! ## A query and its pager -/

namespace Solo

variable {s : Solo α} {ps : List Payload} {b : BatchSize} {as : List α} {p : Pager}

/-- What the query finds when it looks, in order. -/
def unread (s : Solo α) : List Delivery := s.query.ahead s.line.inbox

/-- How many turns the query may still take until it is drained, if all of them do something. -/
def toGo (s : Solo α) (p : Pager) : Nat :=
  4 * p.left.length + 2 * p.outbox.length + s.unread.length +
    if s.query.progress = .pending then 1 else 0

/-- A call waits that gathers the answers, and nothing has come between the query and its pager. -/
structure Drains (ps : List Payload) (b : BatchSize) (as : List α) (s : Solo α) (p : Pager) : Prop
    extends Pages ps b s p where
  unfailed : ∀ w ∈ s.line.waves, ∀ e, w.ending ≠ some (.error e)
  isOpen : s.line.isOpen = true
  gathers : ∃ pause rest, s.waiting = some pause ∧ s.query.handed ++ rest = ps ∧
    pause.Gathers s.query rest as

/-- Where a query stands that is being drained. -/
theorem Drains.standsAt (h : s.Drains ps b as p) : ∃ done w chunk read rest,
    StandsAt s [] done w read rest ∧ ServesAt ps b p done w chunk ∧
      s.unread = rest.map (.ok ∘ .data) ++ w.ending.toList ∧ ∀ e, w.ending ≠ some (.error e) := by
  obtain ⟨done, w, chunk, hw, hat⟩ := h.serves
  obtain ⟨read, rest, hst⟩ := standsAt_of_waves h.stands hw
  obtain ⟨pause, -, hpause, -, -⟩ := h.gathers
  obtain ⟨hheld, hover⟩ : s.query.held = true ∧ s.query.progress.isOver = false := by
    have hfits := hst.waiting pause hpause
    cases pause with
    | start bound drain => exact ⟨hfits.1, by rw [hfits.2]; rfl⟩
    | pull demand => exact hfits
  have hahead := hst.ahead hheld
  rw [hover, List.nil_append] at hahead
  exact ⟨done, w, chunk, read, rest, hst, h.options ▸ hat, hahead,
    h.unfailed w (by rw [hw]; exact List.mem_append_right _ (List.mem_singleton_self w))⟩

/-- Something is on the way, or something is there to be found. -/
theorem Drains.ready (h : s.Drains ps b as p) : p.outbox ≠ [] ∨ s.unread ≠ [] := by
  obtain ⟨done, w, chunk, read, rest, -, hat, hunread, -⟩ := h.standsAt
  cases hend : w.ending with
  | none =>
    obtain ⟨zs, -, hout⟩ := hat.ongoing hend
    exact .inl (by simp [hout])
  | some d => exact .inr (by simp [hunread, hend])

/-- What is found first is a response. -/
theorem Drains.exists_response (h : s.Drains ps b as p) (hn : s.unread ≠ []) :
    ∃ r ds, s.unread = .ok r :: ds := by
  obtain ⟨done, w, chunk, read, rest, -, -, hunread, hfail⟩ := h.standsAt
  rw [hunread] at hn ⊢
  cases rest with
  | cons a rest => exact ⟨_, _, rfl⟩
  | nil =>
    cases hend : w.ending with
    | none =>
      rw [hend] at hn
      exact absurd rfl hn
    | some d =>
      cases d with
      | error e => exact absurd hend (hfail e)
      | ok r => exact ⟨r, [], rfl⟩

section

variable {done : List Wave} {w : Wave} {chunk read rest : List Payload}

theorem Drains.unread_eq (h : s.Drains ps b as p) (hst : StandsAt s [] done w read rest) :
    s.unread = rest.map (.ok ∘ .data) ++ w.ending.toList := by
  obtain ⟨done', w', chunk', read', rest', hst', -, hunread, -⟩ := h.standsAt
  obtain ⟨rfl, hw⟩ := List.append_inj' (hst'.waves.symm.trans hst.waves) rfl
  cases hw
  have hread : read' = read := List.append_cancel_left (hst'.handed.symm.trans hst.handed)
  subst hread
  rwa [List.append_cancel_left (hst'.answers.symm.trans hst.answers)] at hunread

/-- What the last wave has delivered is read or there to be found. -/
theorem Drains.length_unread (h : s.Drains ps b as p) (hst : StandsAt s [] done w read rest) :
    read.length + s.unread.length = w.deliveries.length := by
  rw [h.unread_eq hst, Wave.deliveries, hst.answers]
  simp only [List.length_append, List.length_map]
  omega

/-! ### Arrivals -/

/-- A wave that is over has delivered its batch, so that nothing of it is on the way. -/
theorem Drains.ongoing (h : s.Drains ps b as p) (hst : StandsAt s [] done w read rest)
    (hat : ServesAt ps b p done w chunk) (hout : p.outbox ≠ []) : w.ending = none := by
  refine Option.eq_none_iff_forall_ne_some.2 fun d hd => ?_
  cases d with
  | error e => exact h.unfailed w (by simp [hst.waves]) e hd
  | ok r => exact hout (hat.delivered hd (hst.terminal r hd)).2.2

theorem Drains.heard (h : s.Drains ps b as p) {r : Response} {out : List Response}
    (hout : p.outbox = r :: out) : (s.act (.heard r)).1.Drains ps b as { p with outbox := out } ∧
      (s.act (.heard r)).1.toGo { p with outbox := out } < s.toGo p := by
  obtain ⟨done, w, chunk, read, rest, hst, hat, -, hfail⟩ := h.standsAt
  have hend := h.ongoing hst hat (by rw [hout]; exact List.cons_ne_nil _ _)
  have ho : w.isOver = false := by rw [Wave.isOver, hend]; rfl
  have hwaves : (s.act (.heard r)).1.line.waves = done ++ [w.hear r] := by
    rw [Solo.act, Line.hear_of_live hst.waves ho]
  have hgathers := h.gathers
  have hdrains : (s.act (.heard r)).1.Drains ps b as { p with outbox := out } := by
    refine { h.toPages.heard hout with
      unfailed := fun v hv e => ?_
      isOpen := (Line.isOpen_hear s.line r).trans h.isOpen
      gathers := hgathers }
    rw [hwaves] at hv
    rcases List.mem_append.1 hv with hv | hv
    · exact h.unfailed v (by rw [hst.waves]; exact List.mem_append_left _ hv) e
    · rw [List.mem_singleton.1 hv]
      exact Wave.unfailed_hear ho hfail r e
  refine ⟨hdrains, ?_⟩
  obtain ⟨read', rest', hst'⟩ := standsAt_of_waves hdrains.stands hwaves
  have hread : read' = read := List.append_cancel_left (hst'.handed.symm.trans hst.handed)
  -- one delivery more is there to be found, and one response less is on the way
  have hless := hdrains.length_unread hst'
  rw [hread, Wave.deliveries_hear ho, List.length_append, ← h.length_unread hst,
    List.length_singleton] at hless
  have hprogress : (s.act (.heard r)).1.query.progress = s.query.progress := rfl
  unfold toGo
  rw [hprogress, hout, List.length_cons]
  dsimp only
  omega

end

/-! ### Looks -/

theorem Drains.take_of_unread_nil (h : s.Drains ps b as p) (hn : s.unread = []) :
    s.take = (s, none) := by
  obtain ⟨done, w, chunk, read, rest, hst, -, hunread, -⟩ := h.standsAt
  exact hst.take_of_ahead_nil (hunread ▸ hn)

/-- What is not read yet is what the last wave has for the query, what is on the way, and what the
pager has left. -/
theorem Drains.rest_eq (h : s.Drains ps b as p) {done : List Wave} {w : Wave}
    {chunk read rest all : List Payload} (hst : StandsAt s [] done w read rest)
    (hat : ServesAt ps b p done w chunk) (hall : s.query.handed ++ all = ps) :
    ∃ zs, chunk = w.answers ++ zs ∧ all = rest ++ zs ++ p.left := by
  obtain ⟨zs, hchunk⟩ : ∃ zs, chunk = w.answers ++ zs := by
    cases hend : w.ending with
    | none =>
      obtain ⟨zs, hchunk, -⟩ := hat.ongoing hend
      exact ⟨zs, hchunk⟩
    | some d =>
      cases d with
      | error e =>
        have hw : w ∈ s.line.waves := by simp [hst.waves]
        exact absurd hend (h.unfailed w hw e)
      | ok r => exact ⟨[], by rw [(hat.delivered hend (hst.terminal r hend)).1, List.append_nil]⟩
  have heq : s.query.handed ++ all = s.query.handed ++ (rest ++ zs ++ p.left) := by
    rw [hall, ← hat.payloads, hchunk, hst.handed, hst.answers]
    simp only [List.append_assoc]
  exact ⟨zs, hchunk, List.append_cancel_left heq⟩

/-- What a look comes to that finds something: the call is over, or less is to go. -/
def Looks (ps : List Payload) (b : BatchSize) (as : List α) (n : Nat) (p : Pager)
    (o : Solo α × Option (Reply α)) : Prop :=
  (o.2 = some (.answers as) ∧ o.1.query.progress = .exhausted) ∨
  (o.2 = none ∧ o.1.Drains ps b as p ∧ o.1.toGo p < n)

section

variable {done : List Wave} {w : Wave} {chunk read rest : List Payload} {got : List α}

/-- A query that begins no wave asks its pager for nothing. -/
theorem answerAll_of_same {t : Solo α} (ht : t.line.waves = s.line.waves) (p : Pager) :
    p.answerAll (s.news t) = p := by
  rw [news_eq (by rw [ht, List.append_nil])]
  rfl

/-- A look that begins no wave hands `qs` to the reader, and the call goes on. -/
theorem Drains.streams (h : s.Drains ps b as p) {t : Solo α} {qs all read' rest' : List Payload}
    {more : List α} (hst : StandsAt s [] done w read rest) (ht : StandsAt t [] done w read' rest')
    (hadv : s.Advances t qs) (hprogress : t.query.progress = .streaming)
    (htake : s.take = ({ t with waiting := some (.pull (.rest got)) }, none))
    (hall : s.query.handed ++ qs ++ all = ps)
    (hread : s.query.reader.readAll (s.query.handed ++ qs) all = .ok more) (has : as = got ++ more)
    (hless : rest'.length < rest.length + if s.query.progress = .pending then 1 else 0) :
    Looks ps b as (s.toGo p) (p.answerAll (s.news s.take.1)) s.take := by
  have hpages := h.toPages.act (a := .take) nofun
  have hsame : t.line.waves = s.line.waves := ht.waves.trans hst.waves.symm
  have hpager : p.answerAll (s.news s.take.1) = p := answerAll_of_same (by rw [htake, hsame]) p
  rw [show (s.act .take).1 = s.take.1 from rfl, hpager, htake] at hpages
  rw [hpager, htake]
  have hdrains : Drains ps b as { t with waiting := some (.pull (.rest got)) } p :=
    { hpages with
      unfailed := hsame ▸ h.unfailed
      isOpen := hadv.isOpen.trans h.isOpen
      gathers := ⟨.pull (.rest got), all, rfl, by rw [hadv.handed, hall], more,
        by rw [hadv.reader, hadv.handed, hread], has⟩ }
  refine .inr ⟨rfl, hdrains, ?_⟩
  have hunread := hdrains.unread_eq (standsAt_of_same ht hpages.stands rfl rfl)
  unfold toGo
  rw [hunread, h.unread_eq hst, if_neg (by rw [hprogress]; decide)]
  simp only [List.length_append, List.length_map]
  omega

/-- The first response is kept, and then the answers are pulled. -/
theorem Drains.take_start (h : s.Drains ps b as p) {bound : Option Nat} {drain : Bool}
    (hpause : s.waiting = some (.start bound drain)) (hn : s.unread ≠ []) :
    Looks ps b as (s.toGo p) (p.answerAll (s.news s.take.1)) s.take := by
  obtain ⟨done, w, read, rest, hst⟩ := h.stands
  obtain ⟨pause, all, hpause', hall, hgathers⟩ := h.gathers
  rw [hpause] at hpause'
  cases hpause'
  obtain ⟨rfl, hread⟩ := hgathers
  have hpending := (hst.waiting _ hpause).2
  obtain ⟨r, ds, hfound⟩ := h.exists_response hn
  obtain ⟨s', hs', hadv, -, hprogress, htake⟩ :=
    look_start hst hpause ((h.unread_eq hst).symm.trans hfound)
  rw [if_pos rfl] at htake
  rw [← List.append_nil s.query.handed] at hall hread
  refine h.streams hst hs' hadv hprogress htake hall hread (List.nil_append as).symm ?_
  rw [if_pos hpending]
  exact Nat.lt_succ_self _

/-- The next answer is put to those that were gathered. -/
theorem Drains.take_answer (h : s.Drains ps b as p) {a : Payload}
    (hst : StandsAt s [] done w read (a :: rest)) (hat : ServesAt ps b p done w chunk)
    (hpause : s.waiting = some (.pull (.rest got))) :
    Looks ps b as (s.toGo p) (p.answerAll (s.news s.take.1)) s.take := by
  obtain ⟨pause, all, hpause', hall, hgathers⟩ := h.gathers
  rw [hpause] at hpause'
  cases hpause'
  obtain ⟨more, hread, rfl⟩ := hgathers
  obtain ⟨zs, -, rfl⟩ := h.rest_eq hst hat hall
  obtain ⟨x, more, hx, hmore, rfl⟩ := Reader.readAll_cons hread
  obtain ⟨s', hs', hadv, -, hprogress, htake⟩ := look_answer hst hpause
  rw [hx] at htake
  refine h.streams hst hs' hadv hprogress htake ?_ hmore ?_ ?_
  · rw [← hall, List.append_assoc]
    rfl
  · rw [List.append_assoc]
    rfl
  · exact Nat.lt_of_lt_of_le (Nat.lt_succ_self _) (Nat.le_add_right ..)

/-- The mark of completion ends the call. -/
theorem Drains.take_completion (h : s.Drains ps b as p) (hst : StandsAt s [] done w read [])
    (hat : ServesAt ps b p done w chunk) (hpause : s.waiting = some (.pull (.rest got)))
    (hend : w.ending = some (.ok p.closing)) (hleft : p.left = []) :
    s.take.2 = some (.answers as) ∧ s.take.1.query.progress = .exhausted := by
  obtain ⟨pause, all, hpause', hall, hgathers⟩ := h.gathers
  rw [hpause] at hpause'
  cases hpause'
  obtain ⟨more, hread, rfl⟩ := hgathers
  obtain ⟨zs, hchunk, rfl⟩ := h.rest_eq hst hat hall
  have hzs : zs = [] :=
    List.append_right_eq_self.1 (hchunk.symm.trans (hat.delivered hend p.isTerminal_closing).1.symm)
  rw [hleft, hzs] at hread
  cases hread
  have hclosing : p.closing = .item .completion := by rw [Pager.closing, hleft]; rfl
  rw [hclosing] at hend
  obtain ⟨s', -, -, -, hprogress, htake⟩ :=
    look_end hst hpause hend (.inr (by rw [Wave.token?, hend]; rfl))
  rw [htake, List.append_nil]
  exact ⟨rfl, hprogress⟩

/-- A token is sent back, and the pager answers with the next batch. -/
theorem Drains.take_token (h : s.Drains ps b as p) (hst : StandsAt s [] done w read [])
    (hat : ServesAt ps b p done w chunk) (hpause : s.waiting = some (.pull (.rest got)))
    (hend : w.ending = some (.ok p.closing)) (hleft : p.left ≠ []) :
    Looks ps b as (s.toGo p) (p.answerAll (s.news s.take.1)) s.take := by
  have hpages := h.toPages.act (a := .take) nofun
  obtain ⟨pause, all, hpause', hall, hgathers⟩ := h.gathers
  rw [hpause] at hpause'
  cases hpause'
  obtain ⟨more, hread, rfl⟩ := hgathers
  have htoken : w.token? = some (p.token p.served) := by
    have ht := p.token?_closing
    rw [if_neg (mt List.isEmpty_iff.1 hleft)] at ht
    obtain ⟨i, hi, hmeaning⟩ := Delivery.token?_eq_some.1 ht
    exact Wave.token?_eq_some.2 ⟨i, hend.trans (congrArg some hi), hmeaning⟩
  obtain ⟨s', v, hs', hadv, rfl, hwait, -, htake⟩ := look_token hst hpause htoken h.isOpen
  have hwaves : s.take.1.line.waves = s.line.waves ++ [s.nextWave (p.token p.served)] := by
    rw [htake, hst.waves]
    exact hs'.waves
  have hnews : s.news s.take.1 = [(s.nextWave (p.token p.served)).request] :=
    news_eq (by rw [hwaves, List.map_append, List.map_singleton])
  have hhanded : s.take.1.query.handed = s.query.handed := by
    rw [htake]
    exact hadv.handed.trans (List.append_nil _)
  rw [show (s.act .take).1 = s.take.1 from rfl] at hpages
  have hdrains : s.take.1.Drains ps b (got ++ more) (p.answerAll (s.news s.take.1)) := by
    refine { hpages with unfailed := fun u hu e => ?_, isOpen := ?_, gathers := ?_ }
    · rw [hwaves] at hu
      rcases List.mem_append.1 hu with hu | hu
      · exact h.unfailed u hu e
      · rw [List.mem_singleton.1 hu]
        exact nofun
    · rw [htake]
      exact hadv.isOpen.trans h.isOpen
    · refine ⟨.pull (.rest got), all, by rw [htake]; exact hwait, by rw [hhanded, hall], more, ?_,
        rfl⟩
      rw [hhanded, htake]
      exact (congrArg (fun r : Reader α => r.readAll _ _) hadv.reader).trans hread
  refine .inr ⟨by rw [htake], hdrains, ?_⟩
  have hst' : StandsAt s.take.1 [] (done ++ [w]) (s.nextWave (p.token p.served)) [] [] := by
    rw [htake]
    exact hs'
  have hstarted : s.take.1.query.progress ≠ .pending := fun hp => by
    have hnil := (hst'.pending hp).1
    simp at hnil
  -- the token is read, and its batch weighs no more on the way than it did in the pager
  have hout := (hat.delivered hend p.isTerminal_closing).2.2
  have hweight := p.weight_answer s.query.transaction
    (.continuation (p.token p.served) s.query.options) hout hleft (h.options ▸ h.roomy)
  have hanswered : p.answerAll [(s.nextWave (p.token p.served)).request] = p.answer (.fetch
      s.query.transaction (.continuation (p.token p.served) s.query.options)) := rfl
  unfold toGo
  rw [hdrains.unread_eq hst', h.unread_eq hst, hend, hnews, if_neg hstarted, hout, hanswered]
  simp only [nextWave, List.map_nil, List.nil_append, Option.toList_none, Option.toList_some,
    List.length_nil, List.length_singleton]
  omega

end

/-- With each look that finds something less is to go. -/
theorem Drains.take (h : s.Drains ps b as p) (hn : s.unread ≠ []) :
    Looks ps b as (s.toGo p) (p.answerAll (s.news s.take.1)) s.take := by
  obtain ⟨done, w, chunk, read, rest, hst, hat, hunread, hfail⟩ := h.standsAt
  obtain ⟨pause, all, hpause, -, hgathers⟩ := h.gathers
  cases pause with
  | start bound drain => exact h.take_start hpause hn
  | pull demand =>
    cases demand with
    | answer | item => cases hgathers
    | rest got =>
      cases rest with
      | cons a rest => exact h.take_answer hst hat hpause
      | nil =>
        cases hend : w.ending with
        | none =>
          rw [hunread, hend] at hn
          exact absurd rfl hn
        | some d =>
          cases d with
          | error e => exact absurd hend (hfail e)
          | ok r =>
            obtain ⟨-, rfl, -⟩ := hat.delivered hend (hst.terminal r hend)
            by_cases hleft : p.left = []
            · exact .inl (h.take_completion hst hat hpause hend hleft)
            · exact h.take_token hst hat hpause hend hleft

/-- What is to go is bounded by the number of payloads. -/
theorem Drains.toGo_le (h : s.Drains ps b as p) : s.toGo p ≤ 4 * ps.length + 3 := by
  obtain ⟨done, w, chunk, read, rest, hst, hat, hunread, -⟩ := h.standsAt
  have hpayloads := congrArg List.length hat.payloads
  have hanswers := congrArg List.length hst.answers
  have hbit : (if s.query.progress = .pending then 1 else 0) ≤ 1 := by split <;> decide
  simp only [List.length_append] at hpayloads hanswers
  unfold toGo
  rw [hunread, List.length_append, List.length_map]
  cases hend : w.ending with
  | none =>
    obtain ⟨zs, rfl, hout⟩ := hat.ongoing hend
    simp only [List.length_append] at hpayloads
    simp only [hout, List.length_append, List.length_map, List.length_singleton,
      Option.toList_none, List.length_nil]
    omega
  | some d =>
    cases d with
    | error e => exact absurd hend (h.unfailed w (by simp [hst.waves]) e)
    | ok r =>
      obtain ⟨rfl, -, hout⟩ := hat.delivered hend (hst.terminal r hend)
      simp only [hout, Option.toList_some, List.length_nil, List.length_singleton]
      omega

end Solo

/-! ## The dialogue -/

namespace Dialogue

variable {d : Dialogue α} {h : Handle} {s : Solo α} {p : Pager} {u : Turn α} {m : Move α}
  {us us' : List (Turn α)} {ps : List Payload} {b : BatchSize} {as : List α} {pause : Pause α}

/-- The connection is not lost, and no wait is given up. -/
def Turn.Calm : Turn α → Prop
  | .move .lose | .move .expire => False
  | _ => True

/-- At some point of the turns the caller is told the answers, and the query is exhausted then. -/
def Drained (d : Dialogue α) (h : Handle) (as : List α) (us : List (Turn α)) : Prop :=
  ∃ us', us' <+: us ∧ (d.run us').2 = [.answers as] ∧
    ∃ q, (d.run us').1.client.queries[h]? = some q ∧ q.progress = .exhausted

theorem Drained.append (hd : d.Drained h as us) (us' : List (Turn α)) :
    d.Drained h as (us ++ us') := by
  obtain ⟨us₁, hprefix, hrest⟩ := hd
  exact ⟨us₁, hprefix.trans (List.prefix_append us us'), hrest⟩

theorem Drained.after (hd : (d.run us).1.Drained h as us') (hn : (d.run us).2 = []) :
    d.Drained h as (us ++ us') := by
  obtain ⟨us₁, hprefix, hreply, hq⟩ := hd
  refine ⟨us ++ us₁, (List.prefix_append_right_inj us).2 hprefix, ?_⟩
  rw [run_append, hn, List.nil_append]
  exact ⟨hreply, hq⟩

theorem move_of_idle (hm : d.client.step m = (d.client, none)) : d.move m = (d, none) := by
  unfold move
  rw [hm]
  dsimp only
  rw [List.drop_length]
  rfl

/-- The call that waits on the query is the only one. -/
theorem At.waiting (hd : d.At h s p) (hw : s.waiting = some pause) :
    d.client.waiting = some (pause.wait h) := by
  obtain ⟨q, -, -, rfl⟩ := hd.query
  obtain ⟨w, hw, hon⟩ := Option.bind_eq_some_iff.1 hw
  rw [hw, Wait.on_eq_some.1 hon]

/-- A look of the call that waits on the query is a look of the query by itself. -/
theorem At.resume (hd : d.At h s p) (hw : s.waiting = some pause)
    (hb : (d.move .resume).1.client.link.issued ≤ 2 ^ 64) : (d.move .resume).2 = s.take.2 ∧
      (d.move .resume).1.At h s.take.1 (p.answerAll (s.news s.take.1)) := by
  have hwait := hd.waiting hw
  obtain ⟨q, hq, hlane, rfl⟩ := hd.query
  have hsound := hd.sound
  have hview : d.client.view q (some pause) = d.client.soloOf h q := by rw [← hw]; rfl
  have hf := Client.follows_resume hsound.link (hsound.wired h q hq) hq hwait
    (Nat.le_trans (Client.issued_step d.client .resume) hb)
  rw [hview] at hf
  obtain ⟨q', hq', hlane', hsolo, -⟩ := hf.soloOf hq
  obtain ⟨l, x, w, ho, -, -⟩ := hf
  refine ⟨congrArg Prod.snd ho, (hsound.step .resume hb).sound,
    ⟨q', hq', hlane'.trans hlane, hsolo⟩, ?_⟩
  rw [← hsolo, ← asked_eq hlane (hlane'.trans hlane), ← hd.pager]
  rfl

/-- The call goes on through the turns. Less is to go, or nothing has changed: then nothing was on
the way that could arrive, and nothing was there that could be found. -/
def GoesOn (d : Dialogue α) (h : Handle) (ps : List Payload) (b : BatchSize) (as : List α)
    (s : Solo α) (p : Pager) (us : List (Turn α)) : Prop :=
  (d.run us).2 = [] ∧ ∃ s' p', (d.run us).1.At h s' p' ∧ s'.Drains ps b as p' ∧
    (s'.toGo p' < s.toGo p ∨ s' = s ∧ p' = p ∧ (.serve ∈ us → p.outbox = []) ∧
      (.move .resume ∈ us → s.unread = []))

theorem goesOn_of_turn {s' : Solo α} {p' : Pager} (hr : (d.turn u).2 = none)
    (hd : (d.turn u).1.At h s' p') (hs : s'.Drains ps b as p')
    (hless : s'.toGo p' < s.toGo p ∨ s' = s ∧ p' = p ∧ (u = .serve → p.outbox = []) ∧
      (u = .move .resume → s.unread = [])) : d.GoesOn h ps b as s p [u] := by
  refine ⟨by rw [run_cons, hr]; rfl, s', p', hd, hs, hless.imp_right ?_⟩
  rintro ⟨rfl, rfl, hserve, hresume⟩
  exact ⟨rfl, rfl, fun hu => hserve (List.mem_singleton.1 hu).symm,
    fun hu => hresume (List.mem_singleton.1 hu).symm⟩

/-- What arrives on another lane is nothing to the query. -/
theorem At.turn_arrive (hd : d.At h s p) {f : ServerFrame} (hl : f.lane ≠ d.lane)
    (hb : (d.turn (.move (.arrive f))).1.client.link.issued ≤ 2 ^ 64) :
    (d.turn (.move (.arrive f))).2 = none ∧ (d.turn (.move (.arrive f))).1.At h s p := by
  have hturn : d.turn (.move (.arrive f)) = d.move (.arrive f) := by
    unfold Dialogue.turn
    exact if_neg hl
  rw [hturn] at hb ⊢
  obtain ⟨q, -, hlane, hat⟩ := hd.move hb
  have hacts : d.client.acts (.arrive f) h q = [] := by
    rw [Client.acts, Client.ownActs, if_neg (by rwa [hlane]), List.nil_append]
    refine Client.ends_of_same ?_ ?_ ?_ _
    · rfl
    · rfl
    · exact Client.isOpen_receive ..
  rw [hacts, show (s.acts []).1 = s from rfl, Solo.answerAll_of_same rfl] at hat
  exact ⟨rfl, hat⟩

theorem At.turn_resume (hd : d.At h s p) (hs : s.Drains ps b as p)
    (hb : (d.turn (.move .resume)).1.client.link.issued ≤ 2 ^ 64) :
    d.Drained h as [.move .resume] ∨ d.GoesOn h ps b as s p [.move .resume] := by
  obtain ⟨pause, -, hpause, -, -⟩ := hs.gathers
  obtain ⟨hreply, hat⟩ := hd.resume hpause hb
  by_cases hn : s.unread = []
  · rw [hs.take_of_unread_nil hn] at hreply hat
    rw [Solo.answerAll_of_same rfl] at hat
    refine .inr (goesOn_of_turn hreply hat hs (.inr ⟨rfl, rfl, fun hu => ?_, fun _ => hn⟩))
    cases hu
  · rcases hs.take hn with ⟨htold, hover⟩ | ⟨hnone, hdrains, hless⟩
    · obtain ⟨q, hq, -, hsolo⟩ := hat.query
      refine .inl ⟨[.move .resume], List.prefix_rfl, ?_, q, hq, ?_⟩
      · rw [run_cons, show d.turn (.move .resume) = d.move .resume from rfl, hreply, htold]
        rfl
      · rw [← hsolo] at hover
        exact hover
    · exact .inr (goesOn_of_turn (hreply.trans hnone) hat hdrains (.inl hless))

/-- One turn, as long as nothing cuts the call off. -/
theorem At.turn (hd : d.At h s p) (hs : s.Drains ps b as p) (hu : u.Calm)
    (hb : (d.turn u).1.client.link.issued ≤ 2 ^ 64) :
    d.Drained h as [u] ∨ d.GoesOn h ps b as s p [u] := by
  obtain ⟨pause, -, hpause, -, -⟩ := hs.gathers
  have hstay (hturn : d.turn u = (d, none)) (hserve : u = .serve → p.outbox = [])
      (hresume : u = .move .resume → s.unread = []) : d.GoesOn h ps b as s p [u] :=
    goesOn_of_turn (by rw [hturn]) (by rw [hturn]; exact hd) hs (.inr ⟨rfl, rfl, hserve, hresume⟩)
  cases u with
  | serve =>
    cases hout : p.outbox with
    | nil => exact .inr (hstay (hd.idle hout) (fun _ => hout) nofun)
    | cons r out =>
      obtain ⟨hreply, hat⟩ := hd.serve hout hb
      obtain ⟨hdrains, hless⟩ := hs.heard hout
      exact .inr (goesOn_of_turn hreply hat hdrains (.inl hless))
  | move m =>
    cases m with
    | call k =>
      have hbusy : d.client.step (.call k) = (d.client, none) :=
        Client.call_of_waiting (hd.waiting hpause) k
      exact .inr (hstay (move_of_idle hbusy) nofun nofun)
    | arrive f =>
      by_cases hl : f.lane = d.lane
      · exact .inr (hstay (by unfold Dialogue.turn; exact if_pos hl) nofun nofun)
      · obtain ⟨hreply, hat⟩ := hd.turn_arrive hl hb
        exact .inr (goesOn_of_turn hreply hat hs (.inr ⟨rfl, rfl, nofun, nofun⟩))
    | lose | expire => cases hu
    | resume => exact hd.turn_resume hs hb

/-- By induction on the turns. -/
theorem At.run (hd : d.At h s p) (hs : s.Drains ps b as p) (hus : ∀ u ∈ us, u.Calm)
    (hb : (d.run us).1.client.link.issued ≤ 2 ^ 64) :
    d.Drained h as us ∨ d.GoesOn h ps b as s p us := by
  induction us generalizing d s p with
  | nil => exact .inr ⟨rfl, s, p, hd, hs, .inr ⟨rfl, rfl, nofun, nofun⟩⟩
  | cons u us ih =>
    have hone : (d.run [u]).1 = (d.turn u).1 := rfl
    rcases hd.turn hs (hus u List.mem_cons_self) (Nat.le_trans (issued_run _ us) hb) with
      hend | ⟨hnone, s₁, p₁, hd₁, hs₁, hless₁⟩
    · exact .inl (hend.append us)
    · rcases ih hd₁ hs₁ (fun v hv => hus v (List.mem_cons_of_mem _ hv)) hb with
        hend | ⟨hnone', s₂, p₂, hd₂, hs₂, hless₂⟩
      · exact .inl (hend.after hnone)
      · -- if the first turn changes nothing, what the others find was there before it
        refine .inr ⟨?_, s₂, p₂, hd₂, hs₂, ?_⟩
        · rw [← List.singleton_append, run_append, hnone]
          exact hnone'
        · rcases hless₁ with hless₁ | ⟨rfl, rfl, hserve₁, hresume₁⟩
          · refine .inl ?_
            rcases hless₂ with hless₂ | ⟨rfl, rfl, -⟩
            · exact Nat.lt_trans hless₂ hless₁
            · exact hless₁
          · refine hless₂.imp_right ?_
            rintro ⟨rfl, rfl, hserve₂, hresume₂⟩
            refine ⟨rfl, rfl, fun hu => ?_, fun hu => ?_⟩
            · rcases List.mem_cons.1 hu with hu | hu
              · exact hserve₁ (List.mem_singleton.2 hu)
              · exact hserve₂ hu
            · rcases List.mem_cons.1 hu with hu | hu
              · exact hresume₁ (List.mem_singleton.2 hu)
              · exact hresume₂ hu

/-- In each of the rounds the next response arrives, if one is on the way, and the waiting call
looks; nothing cuts it off. -/
def Fair (rounds : List (List (Turn α))) : Prop :=
  ∀ us ∈ rounds, .serve ∈ us ∧ .move .resume ∈ us ∧ ∀ u ∈ us, u.Calm

/-- By induction on the rounds: in each of them something arrives or something is found. -/
theorem At.rounds {rounds : List (List (Turn α))} (hd : d.At h s p) (hs : s.Drains ps b as p)
    (hfair : Fair rounds) (hlength : s.toGo p ≤ rounds.length)
    (hb : (d.run rounds.flatten).1.client.link.issued ≤ 2 ^ 64) :
    d.Drained h as rounds.flatten := by
  induction rounds generalizing d s p with
  | nil =>
    have hgo : s.toGo p = 0 := Nat.le_zero.1 hlength
    unfold Solo.toGo at hgo
    rcases hs.ready with hready | hready <;>
      exact absurd (List.length_eq_zero_iff.1 (by omega)) hready
  | cons us rounds ih =>
    obtain ⟨hserve, hresume, hcalm⟩ := hfair us List.mem_cons_self
    rw [List.flatten_cons, run_append] at hb
    rw [List.flatten_cons]
    rcases hd.run hs hcalm (Nat.le_trans (issued_run _ _) hb) with
      hend | ⟨hnone, s', p', hd', hs', hless | ⟨-, -, hout, hunread⟩⟩
    · exact hend.append _
    · have hrest : Fair rounds := fun us hus => hfair us (List.mem_cons_of_mem _ hus)
      refine Drained.after (ih hd' hs' hrest ?_ hb) hnone
      rw [List.length_cons] at hlength
      omega
    · rcases hs.ready with hready | hready
      · exact absurd (hout hserve) hready
      · exact absurd (hunread hresume) hready

/-! ## Gathering all answers -/

/-- The move does nothing but make a call wait on the query. -/
theorem At.waits (hd : d.At h s p) (hb : d.client.link.issued ≤ 2 ^ 64)
    (hm : d.client.step m = ({ d.client with waiting := some (pause.wait h) }, none)) :
    (d.move m).2 = none ∧ (d.move m).1.At h { s with waiting := some pause } p := by
  obtain ⟨q, hq, hlane, rfl⟩ := hd.query
  have hsound := (hd.sound.step m (by rwa [hm])).sound
  rw [hm] at hsound
  unfold Dialogue.move
  rw [hm]
  refine ⟨rfl, hsound, ⟨q, hq, hlane, ?_⟩, ?_⟩
  · rw [Client.soloOf, Option.bind_some, Pause.on_wait]
    rfl
  · dsimp only
    rw [List.drop_length]
    exact hd.pager

theorem At.view (hd : d.At h s p) {q : Query α} (hq : d.client.queries[h]? = some q) :
    d.client.soloOf h q = s ∧ q.lane = d.lane := by
  obtain ⟨q', hq', hlane, hsolo⟩ := hd.query
  rw [hq] at hq'
  cases hq'
  exact ⟨hsolo, hlane⟩

/-- A query on whose lane no wave has failed, and that has a connection, has not failed. -/
theorem progress_of_unfailed (hs : s.Pages ps b p)
    (hw : ∀ w ∈ s.line.waves, ∀ e, w.ending ≠ some (.error e)) (hopen : s.line.isOpen = true)
    (e : Failure) : s.query.progress ≠ .failed e := by
  intro hp
  obtain ⟨done, w, d, hwaves, hend, hverdict⟩ := hs.accounts.failed e hp
  obtain ⟨done', w', chunk, hwaves', hat⟩ := hs.serves
  obtain ⟨rfl, hlast⟩ := List.append_inj' (hwaves'.symm.trans hwaves) rfl
  cases hlast
  obtain ⟨read, rest, hst⟩ := Solo.standsAt_of_waves hs.stands hwaves
  cases d with
  | error e => exact hw w (by simp [hwaves]) e hend
  | ok r =>
    obtain ⟨-, rfl, -⟩ := hat.delivered hend (hst.terminal r hend)
    have hcause : e = .connectionClosed := by
      unfold Pager.closing at hverdict
      split at hverdict
      · cases hverdict
      · have hmeaning : (Item.continuation (p.token p.served)).meaning =
            .continuation (p.token p.served) := by
          simp [Item.meaning, Item.continuation, p.token_ne]
        rw [Delivery.verdict_continuation hmeaning] at hverdict
        exact (Except.error.inj hverdict).symm
    rw [hcause] at hp
    rw [hst.blame hp] at hopen
    cases hopen

/-- A call that waits for all that is left of the query is given it. -/
theorem At.gathered (pause : Pause α) {rounds : List (List (Turn α))} {all : List Payload}
    (hd : d.At h s p) (hs : s.Pages ps b p) (hopen : s.line.isOpen = true)
    (hw : ∀ w ∈ s.line.waves, ∀ e, w.ending ≠ some (.error e)) (hall : s.query.handed ++ all = ps)
    (hfits : pause.Fits s.query) (hgathers : pause.Gathers s.query all as) {k : Call α}
    (hm : d.client.call k = ({ d.client with waiting := some (pause.wait h) }, none))
    (hfair : Fair rounds) (hlength : 4 * ps.length + 3 ≤ rounds.length)
    (hb : (d.run (.move (.call k) :: rounds.flatten)).1.client.link.issued ≤ 2 ^ 64) :
    d.Drained h as (.move (.call k) :: rounds.flatten) := by
  obtain ⟨hnone, hat⟩ := hd.waits (m := .call k) (Nat.le_trans (issued_run _ _) hb) hm
  obtain ⟨done, w, read, rest, hst⟩ := hs.stands
  have hdrains : Solo.Drains ps b as { s with waiting := some pause } p :=
    { stands := ⟨done, w, read, rest, hst.wait hfits⟩
      accounts := hs.accounts.level ⟨rfl, rfl, rfl, rfl, rfl⟩
      serves := hs.serves
      options := hs.options
      roomy := hs.roomy
      unfailed := hw
      isOpen := hopen
      gathers := ⟨pause, all, rfl, hall, hgathers⟩ }
  have hrest : (d.run [.move (.call k)]).1.Drained h as rounds.flatten :=
    hat.rounds hdrains hfair (Nat.le_trans hdrains.toGo_le hlength) hb
  have hsilent : (d.run [.move (.call k)]).2 = [] := by
    rw [run_cons, show d.turn (.move (.call k)) = d.move (.call k) from rfl, hnone]
    rfl
  exact Drained.after hrest hsilent

/-- Whatever has been read of a query before, the rest is gathered. -/
theorem drained {rounds : List (List (Turn α))} {q : Query α} {all : List Payload}
    (hd : d.Pages h ps b) (hq : d.client.query? h = some q) (hidle : d.client.waiting = none)
    (hopen : d.client.link.isOpen = true)
    (hw : ∀ w ∈ d.client.link.waves d.lane, ∀ e, w.ending ≠ some (.error e))
    (hall : q.handed ++ all = ps) (hread : q.reader.readAll q.handed all = .ok as)
    (bound : Option Nat) (hfair : Fair rounds) (hlength : 4 * ps.length + 3 ≤ rounds.length)
    (hb : (d.run (.move (.call (.collect h bound)) :: rounds.flatten)).1.client.link.issued ≤
      2 ^ 64) :
    d.Drained h as (.move (.call (.collect h bound)) :: rounds.flatten) := by
  obtain ⟨s, p, hat, hs⟩ := hd
  have hget : d.client.queries[h]? = some q := (Option.filter_eq_some_iff.1 hq).1
  obtain ⟨rfl, hlane⟩ := hat.view hget
  have hheld : q.held = true := (Option.filter_eq_some_iff.1 hq).2
  have hcall := Client.call_collect hidle hq bound
  have hunfailed : ∀ w ∈ d.client.link.waves q.lane, ∀ e, w.ending ≠ some (.error e) := by
    rwa [hlane]
  cases hp : q.progress with
  | pending =>
    rw [Client.beginStart_of_pending hp] at hcall
    exact hat.gathered (.start bound true) hs hopen hunfailed hall ⟨hheld, hp⟩ ⟨rfl, hread⟩
      hcall hfair hlength hb
  | streaming | continuing =>
    have hfits : (Pause.pull (.rest []) : Pause α).Fits q := ⟨hheld, by rw [hp]; rfl⟩
    rw [Client.beginStart_of_begun (by simp [hp]) (by simp [hp]), if_pos rfl,
      Client.beginPull_of_not_over hfits.2] at hcall
    exact hat.gathered (.pull (.rest [])) hs hopen hunfailed hall hfits ⟨as, hread, rfl⟩
      hcall hfair hlength hb
  | exhausted =>
    have hhanded : q.handed = ps := (hs.exhausted hp).1
    rw [hhanded, List.append_right_eq_self] at hall
    rw [hall] at hread
    cases hread
    rw [Client.beginStart_of_begun (by simp [hp]) (by simp [hp]), if_pos rfl,
      Client.beginPull_of_exhausted hp] at hcall
    have hstep : d.client.step (.call (.collect h bound)) = d.client.replying (.answers []) := hcall
    have hturn : d.turn (.move (.call (.collect h bound))) = d.move (.call (.collect h bound)) := rfl
    refine ⟨[_], ⟨rounds.flatten, rfl⟩, ?_, q, ?_, hp⟩
    · rw [run_cons, hturn, Dialogue.move, hstep]
      rfl
    · show (d.client.step (.call (.collect h bound))).1.queries[h]? = some q
      rw [hstep]
      exact hget
  | failed e => exact absurd hp (progress_of_unfailed hs hunfailed hopen e)

/-- **Paging, end to end.** A query is opened by the client `c`, its server has the payloads `ps` and
tokens that are not 0, and the two take any turns. Whenever the query is exhausted it has read all of
`ps`, its batch sizes are those of the batches that they make, and it has sent one request for each
of these: all are full but the last one, and there is one batch even without payloads. And if the
caller gathers the answers, the reader accepts all payloads and nothing cuts the call off, then
within `4 * ps.length + 3` rounds the caller is told the answers in order, and the query is exhausted.
The bound on lanes says that none was given out twice. -/
theorem paged {timeout : Option Nat} {before : List (Move α)} {c : Client α} {t : Handle}
    {text : Payload} {options : QueryOptions} {reader : Reader α} {token : Nat → UInt64}
    (hc : ((Client.new timeout).runAll before).1 = c) (htoken : ∀ n, token n ≠ 0)
    (hd : (ahead c { left := ps, token := token, token_ne := htoken }).move
      (.call (.query t text options reader)) = (d, some (.opened h)))
    (hb : (d.run us).1.client.link.issued ≤ 2 ^ 64) :
    (∀ q, (d.run us).1.client.queries[h]? = some q → q.progress = .exhausted → q.handed = ps ∧
      q.batchSizes = options.batchSize.chunks ps.length ∧
      ((d.run us).1.client.link.frames d.lane).length = options.batchSize.batches ps.length) ∧
    (∀ as bound rounds, reader.readAll [] ps = .ok as → Fair rounds →
      4 * ps.length + 3 ≤ rounds.length →
      us = .move (.call (.collect h bound)) :: rounds.flatten →
      ∃ us' q, us' <+: us ∧ (d.run us').2 = [.answers as] ∧
        (d.run us').1.client.queries[h]? = some q ∧ q.progress = .exhausted ∧
        q.batchSizes = options.batchSize.chunks ps.length ∧
        ((d.run us').1.client.link.frames d.lane).length =
          options.batchSize.batches ps.length) := by
  have hb₀ : d.client.link.issued ≤ 2 ^ 64 := Nat.le_trans (issued_run d us) hb
  have hissued : c.link.issued ≤ d.client.link.issued := by
    rw [← show ((ahead c _).move _).1 = d from congrArg Prod.fst hd]
    exact Client.issued_step c (.call (.query t text options reader))
  have hsound : c.Sound :=
    Client.Reachable.sound ⟨timeout, before, hc.symm⟩ (Nat.le_trans hissued hb₀)
  obtain ⟨x, hx, hidle, hat, hs⟩ := Pages.opening hsound rfl hd.symm rfl hb₀
  have hpages : d.Pages h ps options.batchSize := ⟨_, _, hat, hs⟩
  have hexhausted {us : List (Turn α)} (hb : (d.run us).1.client.link.issued ≤ 2 ^ 64)
      {q : Query α} (hq : (d.run us).1.client.queries[h]? = some q) (hp : q.progress = .exhausted) :
      q.handed = ps ∧ q.batchSizes = options.batchSize.chunks ps.length ∧
        ((d.run us).1.client.link.frames d.lane).length = options.batchSize.batches ps.length := by
    rw [← lane_run d us]
    exact (hpages.run hb).exhausted hq hp
  refine ⟨fun q hq hp => hexhausted hb hq hp, fun as bound rounds hread hfair hlength hus => ?_⟩
  subst hus
  have hdrained : d.Drained h as (.move (.call (.collect h bound)) :: rounds.flatten) := by
    obtain ⟨q, hq, hlane, hsolo⟩ := hat.query
    have hheld : q.held = true := congrArg (fun s : Solo α => s.query.held) hsolo
    have hhanded : q.handed = [] := congrArg (fun s : Solo α => s.query.handed) hsolo
    have hreader : q.reader = reader := congrArg (fun s : Solo α => s.query.reader) hsolo
    have hwaves : d.client.link.waves q.lane = _ := congrArg (fun s : Solo α => s.line.waves) hsolo
    refine drained hpages (Option.filter_eq_some_iff.2 ⟨hq, hheld⟩) hidle
      (congrArg (fun s : Solo α => s.line.isOpen) hsolo) (fun w hw => ?_) (by rw [hhanded]; rfl)
      (by rw [hhanded, hreader]; exact hread) bound hfair hlength hb
    rw [← hlane, hwaves] at hw
    rw [List.mem_singleton.1 hw]
    exact nofun
  obtain ⟨us', hprefix, hreply, q, hq, hp⟩ := hdrained
  have hb' : (d.run us').1.client.link.issued ≤ 2 ^ 64 := by
    obtain ⟨more, hmore⟩ := hprefix
    rw [← hmore, run_append] at hb
    exact Nat.le_trans (issued_run _ more) hb
  obtain ⟨-, hsizes, hframes⟩ := hexhausted hb' hq hp
  exact ⟨us', q, hprefix, hreply, hq, hp, hsizes, hframes⟩

/-- A session and a transaction are opened. -/
def readied : List (Move Payload) :=
  [.call (.openSession "db" .data), .arrive ⟨1, .sessionOpened 7⟩, .resume,
    .call (.openTransaction 0 .read), .arrive ⟨2, .transactionOpened 9⟩, .resume]

/-- All answers are gathered, and in each round a response arrives and the call looks. -/
def gathering : List (Turn Payload) :=
  .move (.call (.collect 0 none)) :: (List.replicate 15 [.serve, .move .resume]).flatten

theorem paged_threeAnswers : ∃ (d : Dialogue Payload) (us : List (Turn Payload)) (q : Query Payload),
    (ahead ((Client.new none).runAll readied).1
      { left := [[1], [2], [3]], token := fun _ => 5, token_ne := fun _ => by decide }).move
        (.call (.query 0 [113] { batchSize := .number 2 } Reader.raw)) = (d, some (.opened 0)) ∧
      (d.run gathering).1.client.link.issued ≤ 2 ^ 64 ∧ us <+: gathering ∧
      (d.run us).2 = [.answers [[1], [2], [3]]] ∧ (d.run us).1.client.queries[0]? = some q ∧
      q.progress = .exhausted ∧ q.batchSizes = [2, 1] ∧
      ((d.run us).1.client.link.frames d.lane).length = 2 := by
  obtain ⟨o, ho⟩ : ∃ o, (ahead ((Client.new none).runAll readied).1
    { left := [[1], [2], [3]], token := fun _ => 5, token_ne := fun _ => by decide }).move
      (.call (.query 0 [113] { batchSize := .number 2 } Reader.raw)) = o := ⟨_, rfl⟩
  have hreply : o.2 = some (.opened 0) := by
    rw [← ho]
    decide +kernel
  have hd := ho.trans (show o = (o.1, some (.opened 0)) by rw [← hreply])
  have hb : (o.1.run gathering).1.client.link.issued ≤ 2 ^ 64 := by
    rw [← ho]
    decide +kernel
  have hfair : Fair (List.replicate 15 [.serve, .move (.resume : Move Payload)]) := by
    intro us hus
    rw [List.eq_of_mem_replicate hus]
    simp [Turn.Calm]
  obtain ⟨-, hgather⟩ := paged rfl (fun _ => by decide) hd hb
  obtain ⟨us, q, hprefix, hreplies, hq, hp, hsizes, hframes⟩ :=
    hgather [[1], [2], [3]] none _ rfl hfair (by decide) rfl
  exact ⟨o.1, us, q, hd, hb, hprefix, hreplies, hq, hp, hsizes, hframes⟩

end Dialogue

end QueryLanes
