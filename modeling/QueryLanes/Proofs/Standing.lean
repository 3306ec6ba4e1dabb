import Mathlib.Data.List.Chain
import QueryLanes.Proofs.Steps

/-!
# Standing

Where a query stands in the waves of its lane. `Stands` is the invariant: the waves before the last
one were read to their ends, each ended in a token, and the token began the next; of the last one a
part of the answers was read, and the others, with what ended the wave, are ahead in the stash and
the inbox.

`Stands.act` says that every act keeps it, and `Client.Reachable.stands` that it holds of every query
of every run.
-/

namespace QueryLanes

variable {α : Type}

/-! ## Chains of waves -/

/-- The token that ended the wave, if one did. -/
def Wave.token? (w : Wave) : Option UInt64 :=
  match w.ending with
  | some (.ok (.item i)) => match i.meaning with
    | .continuation token => some token
    | _ => none
  | _ => none

theorem Wave.token?_eq_some {w : Wave} {token : UInt64} : w.token? = some token ↔
    ∃ i : Item, w.ending = some (.ok (.item i)) ∧ i.meaning = .continuation token := by
  unfold token?
  constructor
  · intro h
    split at h
    · rename_i i he
      split at h
      · rename_i token' hi
        cases h
        exact ⟨i, he, hi⟩
      · cases h
    · cases h
  · rintro ⟨i, he, hi⟩
    rw [he]
    dsimp only
    rw [hi]

/-- The second wave was begun with the token that ended the first. -/
def Wave.Continues (transaction : UInt64) (options : QueryOptions) (w v : Wave) : Prop :=
  ∃ token, w.token? = some token ∧ v.request = .fetch transaction (.continuation token options)

theorem Wave.isChain_amend {transaction : UInt64} {options : QueryOptions} {done : List Wave}
    {w w' : Wave} (h : (done ++ [w]).IsChain (Continues transaction options))
    (hw : w'.request = w.request) : (done ++ [w']).IsChain (Continues transaction options) := by
  rw [List.isChain_append] at h ⊢
  obtain ⟨hd, -, hlast⟩ := h
  refine ⟨hd, List.isChain_singleton _, fun x hx y hy => ?_⟩
  cases hy
  obtain ⟨token, ht, hr⟩ := hlast x hx w rfl
  exact ⟨token, ht, hw.trans hr⟩

theorem Wave.isChain_concat {transaction : UInt64} {options : QueryOptions} {done : List Wave}
    {w v : Wave} (h : (done ++ [w]).IsChain (Continues transaction options))
    (hv : Continues transaction options w v) :
    ((done ++ [w]) ++ [v]).IsChain (Continues transaction options) := by
  rw [List.isChain_append]
  refine ⟨h, List.isChain_singleton _, fun x hx y hy => ?_⟩
  cases hy
  rw [List.getLast?_concat] at hx
  cases hx
  exact hv

/-! ## What is ahead -/

/-- What is ahead for a query, in the order in which it is found: the stash, then the inbox. -/
def Query.ahead (q : Query α) (inbox : Option Inbox) : List Delivery :=
  (q.stash.map .ok).toList ++ (inbox.map (·.queue)).getD []

/-- The answer that a delivery carries. -/
def Delivery.payload? : Delivery → Option Payload
  | .ok r => r.answer?
  | .error _ => none

theorem filterMap_payload?_data (ps : List Payload) :
    (ps.map (.ok ∘ Response.data)).filterMap Delivery.payload? = ps := by
  rw [List.filterMap_map]
  exact List.filterMap_some

/-! ## The invariant -/

/-- What a query by itself waits for is still to come. -/
def Pause.Fits (q : Query α) : Pause α → Prop
  | .start _ _ => q.held = true ∧ q.progress = .pending
  | .pull _ => q.held = true ∧ q.progress.isOver = false

/-- The query has read all of the waves `done` and, of the last wave `w`, the answers `read` but not
the answers `rest`. The deliveries `hand` were taken and not consumed yet. -/
structure StandsAt (s : Solo α) (hand : List Delivery) (done : List Wave) (w : Wave)
    (read rest : List Payload) : Prop where
  waves : s.line.waves = done ++ [w]
  answers : w.answers = read ++ rest
  handed : s.query.handed = done.flatMap (·.answers) ++ read
  linked : (done ++ [w]).IsChain (Wave.Continues s.query.transaction s.query.options)
  terminal : ∀ r, w.ending = some (.ok r) → r.isTerminal = true
  timely : w.ending ≠ some (.error .timeout)
  candid : s.line.Candid
  lost : s.line.isOpen = false → w.isOver = true
  inbox : s.line.inbox.isSome = s.query.held
  ahead : s.query.held = true → hand ++ s.query.ahead s.line.inbox =
    rest.map (.ok ∘ .data) ++ if s.query.progress.isOver then [] else w.ending.toList
  finished : s.query.progress.isOver = true → rest = [] ∧ w.isOver = true
  exhausted : s.query.progress = .exhausted → w.ending = some (.ok (.item .completion))
  blame : s.query.progress = .failed .connectionClosed → s.line.isOpen = false
  pending : s.query.progress = .pending → done = [] ∧ read = [] ∧ s.query.stash = none
  waiting : ∀ p, s.waiting = some p → p.Fits s.query

def Stands (s : Solo α) : Prop := ∃ done w read rest, StandsAt s [] done w read rest

theorem Stands.opening (transaction : UInt64) (text : Payload) (options : QueryOptions)
    (reader : Reader α) : Stands (.opening transaction text options reader) :=
  ⟨[], { request := .fetch transaction (.first text options) }, [], [], {
    waves := rfl
    answers := rfl
    handed := rfl
    linked := List.isChain_singleton _
    terminal := nofun
    timely := nofun
    candid := by simp [Solo.opening, Line.Candid]
    lost := nofun
    inbox := rfl
    ahead := fun _ => rfl
    finished := nofun
    exhausted := nofun
    blame := nofun
    pending := fun _ => ⟨rfl, rfl, rfl⟩
    waiting := nofun }⟩

section

variable {s : Solo α} {hand : List Delivery} {done : List Wave} {w : Wave} {read rest : List Payload}

/-! ### Lines -/

theorem StandsAt.isLive (h : StandsAt s hand done w read rest) : s.line.isLive = !w.isOver := by
  rw [Line.isLive, h.waves, Wave.ongoing_concat]

theorem StandsAt.not_over (h : StandsAt s hand done w read rest) (ho : w.isOver = false) :
    s.query.progress.isOver = false := by
  rw [Bool.eq_false_iff] at ho ⊢
  exact fun hp => ho (h.finished hp).2

theorem StandsAt.closed_of_ending (h : StandsAt s hand done w read rest)
    (hend : w.ending = some (.error .connectionClosed)) : s.line.isOpen = false :=
  h.candid w (by simp [h.waves]) hend

theorem StandsAt.exists_inbox (h : StandsAt s hand done w read rest) (hheld : s.query.held = true) :
    ∃ b, s.line.inbox = some b :=
  Option.isSome_iff_exists.1 (h.inbox.trans hheld)

theorem StandsAt.hear (h : StandsAt s hand done w read rest) (r : Response) :
    ∃ w' rest', StandsAt { s with line := s.line.hear r } hand done w' read rest' := by
  cases ho : w.isOver with
  | true =>
    rw [Line.hear_of_not_live (by rw [h.isLive, ho]; rfl)]
    exact ⟨w, rest, h⟩
  | false =>
    have hend : w.ending = none := by simpa [Wave.isOver] using ho
    have hprog := h.not_over ho
    have hline := Line.hear_of_live h.waves ho r
    have hahead : s.query.held = true → hand ++ s.query.ahead (s.line.hear r).inbox =
        (hand ++ s.query.ahead s.line.inbox) ++ [.ok r] := by
      intro hheld
      obtain ⟨b, hb⟩ := h.exists_inbox hheld
      simp [hline, Query.ahead, hb]
    cases hr : r.isTerminal with
    | true =>
      refine ⟨w.hear r, rest, { h with
        waves := by rw [hline]
        answers := by rw [Wave.hear_terminal ho hr]; exact h.answers
        linked := Wave.isChain_amend h.linked (Wave.request_hear w r)
        terminal := ?_
        timely := by simp [Wave.hear_terminal ho hr]
        candid := h.candid.hear r
        lost := fun _ => by rw [Wave.isOver_hear ho, hr]
        inbox := by simpa [hline] using h.inbox
        ahead := fun hheld => ?_
        finished := fun hp => by rw [hprog] at hp; cases hp
        exhausted := fun hp => by rw [hp] at hprog; cases hprog
        blame := fun hp => by rw [hp] at hprog; cases hprog }⟩
      · intro r' hr'
        rw [Wave.hear_terminal ho hr] at hr'
        cases hr'
        exact hr
      · dsimp only
        rw [hahead hheld, h.ahead hheld, hprog, hend, Wave.hear_terminal ho hr]
        simp
    | false =>
      obtain ⟨p, rfl⟩ := Response.eq_data_of_not_isTerminal hr
      refine ⟨w.hear (.data p), rest ++ [p], { h with
        waves := by rw [hline]
        answers := by rw [Wave.hear_data ho]; simp [h.answers]
        linked := Wave.isChain_amend h.linked (Wave.request_hear w _)
        terminal := by rw [Wave.hear_data ho]; exact h.terminal
        timely := by rw [Wave.hear_data ho]; exact h.timely
        candid := h.candid.hear _
        lost := fun hl => by
          rw [Line.isOpen_hear] at hl
          rw [h.lost hl] at ho
          cases ho
        inbox := by simpa [hline] using h.inbox
        ahead := fun hheld => ?_
        finished := fun hp => by rw [hprog] at hp; cases hp
        exhausted := fun hp => by rw [hp] at hprog; cases hprog
        blame := fun hp => by rw [hp] at hprog; cases hprog }⟩
      dsimp only
      rw [hahead hheld, h.ahead hheld, hprog, hend, Wave.hear_data ho, hend]
      simp

/-- The line fails; that it fails as the connection is lost it is told when it is. -/
theorem StandsAt.strike (h : StandsAt s hand done w read rest) {e : Failure} (he : e ≠ .timeout)
    (isOpen : Bool)
    (hb : isOpen = false ∨ (isOpen = s.line.isOpen ∧ e ≠ .connectionClosed)) :
    ∃ w', StandsAt { s with line := { s.line.strike e with isOpen := isOpen } } hand done w' read
      rest := by
  have hblame : s.query.progress = .failed .connectionClosed → isOpen = false := by
    intro hp
    rcases hb with hb | ⟨hb, -⟩
    · exact hb
    · rw [hb, h.blame hp]
  have hcandid : Line.Candid { s.line.strike e with isOpen := isOpen } := by
    rcases hb with rfl | ⟨rfl, hne⟩
    · exact Line.candid_of_closed rfl
    · have hc := h.candid.strike (e := e) fun he => absurd he hne
      have heq : ({ s.line.strike e with isOpen := s.line.isOpen } : Line) = s.line.strike e := by
        rw [← Line.isOpen_strike s.line e]
      rwa [heq]
  cases ho : w.isOver with
  | true =>
    have hline : s.line.strike e = s.line :=
      Line.strike_of_not_live (by rw [h.isLive, ho]; rfl) e
    refine ⟨w, { h with
      waves := by rw [hline]; exact h.waves
      candid := hcandid
      lost := fun _ => ho
      inbox := by rw [hline]; exact h.inbox
      ahead := by rw [hline]; exact h.ahead
      blame := hblame }⟩
  | false =>
    have hend : w.ending = none := by simpa [Wave.isOver] using ho
    have hprog := h.not_over ho
    have hline := Line.strike_of_live h.waves ho e
    refine ⟨w.strike e, { h with
      waves := by rw [hline]
      answers := by rw [Wave.strike_eq ho]; exact h.answers
      linked := Wave.isChain_amend h.linked (Wave.request_strike w e)
      terminal := fun r hr => by rw [Wave.strike_eq ho] at hr; cases hr
      timely := fun ht => by rw [Wave.strike_eq ho] at ht; cases ht; exact he rfl
      candid := hcandid
      lost := fun _ => Wave.isOver_strike w e
      inbox := by simpa [hline] using h.inbox
      ahead := fun hheld => ?_
      finished := fun hp => by rw [hprog] at hp; cases hp
      exhausted := fun hp => by rw [hp] at hprog; cases hprog
      blame := hblame }⟩
    obtain ⟨b, hin⟩ := h.exists_inbox hheld
    have hahead := h.ahead hheld
    rw [hprog, hend, hin] at hahead
    rw [hprog, hline, hin, Wave.strike_eq ho]
    simp only [Query.ahead, Option.map_some, Option.getD_some, Inbox.queue_push, Option.toList_none,
      Bool.false_eq_true, if_false, List.append_nil, Option.toList_some] at hahead ⊢
    rw [← hahead]
    simp

/-! ### What changes the query alone -/

theorem StandsAt.idle (h : StandsAt s hand done w read rest) :
    StandsAt { s with waiting := none } hand done w read rest := { h with waiting := nofun }

theorem StandsAt.wait (h : StandsAt s hand done w read rest) {p : Pause α} (hp : p.Fits s.query) :
    StandsAt { s with waiting := some p } hand done w read rest :=
  { h with waiting := fun p' hp' => by cases hp'; exact hp }

theorem StandsAt.fuse (h : StandsAt s hand done w read rest) (demand : Demand α) :
    StandsAt { s with query := s.query.fuse demand, waiting := none } hand done w read rest := by
  obtain ⟨b, hb⟩ := s.query.exists_fuse demand
  rw [hb]
  exact { h with waiting := nofun }

/-! ### Deliveries -/

/-- A delivery that was taken is the next answer, or else what ended the wave. -/
theorem StandsAt.taken {d : Delivery} (h : StandsAt s [d] done w read rest)
    (hheld : s.query.held = true) (hprog : s.query.progress.isOver = false) :
    (∃ p rest', d = .ok (.data p) ∧ rest = p :: rest' ∧
      s.query.ahead s.line.inbox = rest'.map (.ok ∘ .data) ++ w.ending.toList) ∨
    (rest = [] ∧ w.ending = some d ∧ s.query.ahead s.line.inbox = []) := by
  have hahead := h.ahead hheld
  rw [hprog, List.singleton_append] at hahead
  cases rest with
  | nil =>
    cases he : w.ending with
    | none => simp [he] at hahead
    | some d' =>
      simp only [he, List.map_nil, List.nil_append, Bool.false_eq_true, if_false,
        Option.toList_some, List.cons.injEq] at hahead
      obtain ⟨rfl, hnil⟩ := hahead
      exact .inr ⟨rfl, rfl, hnil⟩
  | cons p rest' =>
    simp only [List.map_cons, List.cons_append, List.cons.injEq] at hahead
    exact .inl ⟨p, rest', hahead.1, rfl, hahead.2⟩

/-- A query as far as reading goes. -/
structure Query.Same (q q' : Query α) : Prop where
  handed : q'.handed = q.handed
  transaction : q'.transaction = q.transaction
  options : q'.options = q.options
  held : q'.held = q.held
  stash : q'.stash = q.stash

theorem StandsAt.finish {d : Delivery} (h : StandsAt s [d] done w read []) (hend : w.ending = some d)
    (hahead : s.query.ahead s.line.inbox = []) {x : Query α} (hq : s.query.Same x)
    (hover : x.progress.isOver = true)
    (hex : x.progress = .exhausted → d = .ok (.item .completion))
    (hblame : x.progress = .failed .connectionClosed → s.line.isOpen = false) :
    StandsAt { s with query := x, waiting := none } [] done w read [] where
  waves := h.waves
  answers := h.answers
  handed := hq.handed.trans h.handed
  linked := by rw [hq.transaction, hq.options]; exact h.linked
  terminal := h.terminal
  timely := h.timely
  candid := h.candid
  lost := h.lost
  inbox := h.inbox.trans hq.held.symm
  ahead _ := by
    have hsame : x.ahead s.line.inbox = s.query.ahead s.line.inbox := by
      rw [Query.ahead, hq.stash]
      rfl
    dsimp only
    rw [hsame, hahead, hover]
    rfl
  finished _ := ⟨rfl, by rw [Wave.isOver, hend]; rfl⟩
  exhausted hp := by rw [hend, hex hp]
  blame := hblame
  pending hp := by rw [hp] at hover; cases hover
  waiting := nofun

/-- What ended the last wave fails the query. -/
theorem StandsAt.fail {d : Delivery} (h : StandsAt s [d] done w read []) (hend : w.ending = some d)
    (hahead : s.query.ahead s.line.inbox = []) {x : Query α} (hq : s.query.Same x) {e : Failure}
    (he : e = .connectionClosed → s.line.isOpen = false) (demand : Demand α) :
    StandsAt { s with query := (x.fail e).fuse demand, waiting := none } [] done w read [] := by
  have hfailed := h.finish hend hahead (x := x.fail e)
    ⟨hq.handed, hq.transaction, hq.options, hq.held, hq.stash⟩ rfl nofun
    fun hp => he (Progress.failed.inj hp)
  exact hfailed.fuse demand

/-- The token that ended the last wave begins the next. -/
theorem StandsAt.renew {i : Item} {token : UInt64} (hi : i.meaning = .continuation token)
    (h : StandsAt s [.ok (.item i)] done w read []) (hend : w.ending = some (.ok (.item i)))
    (hahead : s.query.ahead s.line.inbox = []) (hheld : s.query.held = true)
    (ho : s.line.isOpen = true) (demand : Demand α) :
    StandsAt
      { s with
        query := { s.query.endBatch with progress := .continuing }
        line := s.line.renew (.fetch s.query.transaction (.continuation token s.query.options))
        waiting := some (.pull demand) } [] (done ++ [w])
      { request := .fetch s.query.transaction (.continuation token s.query.options) } [] [] where
  waves := by rw [Line.renew, h.waves]
  answers := rfl
  handed := by
    have hanswers : w.answers = read := by simpa using h.answers
    simp [Query.endBatch, h.handed, hanswers]
  linked := Wave.isChain_concat h.linked ⟨token, by simp [Wave.token?, hend, hi], rfl⟩
  terminal := nofun
  timely := nofun
  candid := by
    intro v hv he
    rcases List.mem_append.1 hv with hv | hv
    · exact h.candid v hv he
    · rw [List.mem_singleton.1 hv] at he
      cases he
  lost := fun hl => by
    have hl : s.line.isOpen = false := hl
    rw [ho] at hl
    cases hl
  inbox := hheld.symm
  ahead := fun _ => by
    have hst : s.query.stash = none := by
      simp only [Query.ahead, List.append_eq_nil_iff, Option.toList_eq_nil_iff,
        Option.map_eq_none_iff] at hahead
      exact hahead.1
    simp [Query.ahead, Query.endBatch, hst, Progress.isOver, Line.renew]
  finished := nofun
  exhausted := nofun
  blame := nofun
  pending := nofun
  waiting := fun p hp => by
    cases hp
    exact ⟨hheld, rfl⟩

/-- The next answer is handed to the reader. -/
theorem StandsAt.next {p : Payload} (h : StandsAt s [.ok (.data p)] done w read (p :: rest))
    (hahead : s.query.ahead s.line.inbox = rest.map (.ok ∘ .data) ++ w.ending.toList) :
    StandsAt { s with query := (s.query.consume (.data p)).1, waiting := none } [] done w
      (read ++ [p]) rest where
  waves := h.waves
  answers := by simp [h.answers]
  handed := by simp [Query.consume_data, h.handed]
  linked := h.linked
  terminal := h.terminal
  timely := h.timely
  candid := h.candid
  lost := h.lost
  inbox := h.inbox
  ahead _ := hahead
  finished := nofun
  exhausted := nofun
  blame := nofun
  pending := nofun
  waiting := nofun

theorem StandsAt.pulled {d : Delivery} (h : StandsAt s [d] done w read rest)
    (hheld : s.query.held = true) (hprog : s.query.progress.isOver = false) (demand : Demand α) :
    Stands (s.pulled demand d).1 := by
  rcases h.taken hheld hprog with ⟨p, rest', rfl, rfl, hahead⟩ | ⟨rfl, hend, hahead⟩
  · have hn := h.next hahead
    have hlive : (s.query.consume (.data p)).1.progress.isOver = false := rfl
    rw [Solo.pulled_data]
    cases s.query.reader s.query.handed p with
    | ok a =>
      cases demand with
      | rest got => exact ⟨_, _, _, _, hn.wait (p := .pull (.rest (got ++ [a]))) ⟨hheld, hlive⟩⟩
      | answer | item => exact ⟨_, _, _, _, hn⟩
    | error e => cases demand <;> exact ⟨_, _, _, _, hn⟩
  · have hpulls := s.pulls demand d
    generalize s.pulled demand d = o at hpulls ⊢
    cases hpulls with
    | answer | got | refused => cases h.terminal _ hend
    | sent hi ho => exact ⟨_, _, _, _, h.renew hi hend hahead hheld ho demand⟩
    | unsent hi ho =>
      exact ⟨_, _, _, _, h.fail hend hahead (x := s.query.endBatch) ⟨rfl, rfl, rfl, rfl, rfl⟩
        (fun _ => ho) demand⟩
    | ended =>
      exact ⟨_, _, _, _, h.finish hend hahead (x := { s.query.endBatch with progress := .exhausted })
        ⟨rfl, rfl, rfl, rfl, rfl⟩ rfl (fun _ => rfl) nofun⟩
    | failed he hc =>
      exact ⟨_, _, _, _, h.fail hend hahead ⟨rfl, rfl, rfl, rfl, rfl⟩ (absurd · he) demand⟩
    | broken =>
      refine ⟨_, _, _, _, h.fail hend hahead ⟨rfl, rfl, rfl, rfl, rfl⟩ ?_ demand⟩
      rintro rfl
      exact h.closed_of_ending hend

theorem StandsAt.ne_timeout {d : Delivery} (h : StandsAt s [d] done w read rest)
    (hheld : s.query.held = true) (hprog : s.query.progress.isOver = false) :
    d ≠ .error .timeout := by
  rintro rfl
  rcases h.taken hheld hprog with ⟨p, rest', hd, -, -⟩ | ⟨-, hend, -⟩
  · cases hd
  · exact h.timely hend

theorem StandsAt.started {d : Delivery} (h : StandsAt s [d] done w read rest)
    (hheld : s.query.held = true) (hprog : s.query.progress = .pending) (drain : Bool) :
    Stands (s.started drain d).1 := by
  have hover : s.query.progress.isOver = false := by rw [hprog]; rfl
  have hst := (h.pending hprog).2.2
  have hnot := h.ne_timeout hheld hover
  have hholds {r : Response} (hd : d = .ok r) :
      StandsAt { s with query := s.query.hold r, waiting := none } [] done w read rest := { h with
    ahead := fun _ => by
      have hahead := h.ahead hheld
      rw [hover, hd] at hahead
      simp only [Query.ahead, hst, Option.map_none, Option.toList_none, List.nil_append] at hahead
      exact hahead
    finished := nofun
    exhausted := nofun
    blame := nofun
    pending := nofun
    waiting := nofun }
  have hhears := s.hears drain d
  generalize s.started drain d = o at hhears ⊢
  cases hhears with
  | held => exact ⟨_, _, _, _, hholds rfl⟩
  | goesOn => exact ⟨_, _, _, _, (hholds rfl).wait (p := .pull (.rest [])) ⟨hheld, rfl⟩⟩
  | timedOut => exact absurd rfl hnot
  | @failed _ e =>
    rcases h.taken hheld hover with ⟨p, rest', hd, -, -⟩ | ⟨rfl, hend, hahead⟩
    · cases hd
    · refine ⟨_, _, _, _, h.finish hend hahead (x := s.query.fail e) ⟨rfl, rfl, rfl, rfl, rfl⟩ rfl
        nofun fun he => ?_⟩
      cases he
      exact h.closed_of_ending hend

/-- A poll of the line takes what is ahead, and never finds that nothing is to come. -/
theorem StandsAt.linePoll (h : StandsAt s [] done w read rest) (hheld : s.query.held = true)
    (hover : s.query.progress.isOver = false) (hst : s.query.stash = none) {d : Delivery}
    {line : Line} (hp : s.line.poll = some (d, line)) :
    StandsAt { s with line := line } [d] done w read rest := by
  obtain ⟨b, hin⟩ := h.exists_inbox hheld
  have hahead := h.ahead hheld
  simp only [Query.ahead, hst, hin, hover, Option.map_none, Option.toList_none, List.nil_append,
    Option.map_some, Option.getD_some, Bool.false_eq_true, if_false] at hahead
  unfold Line.poll at hp
  rw [hin] at hp
  dsimp only at hp
  cases hq : b.queue with
  | nil =>
    rw [hq] at hahead hp
    have hend : w.ending = none := by
      have := hahead.symm
      simp only [List.append_eq_nil_iff, Option.toList_eq_nil_iff] at this
      exact this.2
    have hlive : s.line.isLive = true := by
      rw [h.isLive, Wave.isOver, hend]
      rfl
    rw [hlive] at hp
    cases hp
  | cons d' queue =>
    rw [hq] at hahead hp
    cases hp
    exact { h with
      inbox := hheld.symm
      ahead := fun _ => by
        simp only [Query.ahead, hst, Option.map_none, Option.toList_none, List.nil_append,
          Option.map_some, Option.getD_some, hover, Bool.false_eq_true, if_false]
        exact hahead }

theorem StandsAt.poll (h : StandsAt s [] done w read rest) (hheld : s.query.held = true)
    (hover : s.query.progress.isOver = false) {d : Delivery} {s' : Solo α}
    (hp : s.poll = some (d, s')) :
    StandsAt s' [d] done w read rest ∧ s'.query.held = true ∧ s'.query.progress.isOver = false := by
  unfold Solo.poll at hp
  cases hst : s.query.stash with
  | some r =>
    rw [hst] at hp
    cases hp
    refine ⟨{ h with
      ahead := fun _ => ?_
      pending := fun hpend => ?_
      waiting := fun p hw => ?_ }, hheld, hover⟩
    · rw [← h.ahead hheld]
      simp [Query.ahead, hst]
    · have hpend : s.query.progress = .pending := hpend
      rw [(h.pending hpend).2.2] at hst
      cases hst
    · have hfit := h.waiting p hw
      cases p <;> exact hfit
  | none =>
    rw [hst] at hp
    obtain ⟨⟨d', line⟩, hl, he⟩ := Option.map_eq_some_iff.1 hp
    cases he
    exact ⟨h.linePoll hheld hover hst hl, hheld, hover⟩

end

/-! ### Acts -/

section

variable {s : Solo α} {done : List Wave} {w : Wave} {read rest : List Payload}

theorem Stands.ask (h : Stands s) (k : Ask) : Stands (s.ask k).1 := by
  obtain ⟨done, w, read, rest, h⟩ := h
  have hasks := s.asks k
  generalize s.ask k = o at hasks ⊢
  cases hasks with
  | drop =>
    exact ⟨done, w, read, rest, { h with
      inbox := rfl
      ahead := nofun
      waiting := nofun }⟩
  | @failed _ demand => exact ⟨_, _, _, _, h.fuse demand⟩
  | @waits _ bound drain hh _ hp =>
    exact ⟨_, _, _, _, h.wait (p := .start bound drain) ⟨hh, hp⟩⟩
  | @pulls _ demand hh _ hp => exact ⟨_, _, _, _, h.wait (p := .pull demand) ⟨hh, hp⟩⟩
  | _ => exact ⟨_, _, _, _, h.idle⟩

/-- A look finds nothing, or the delivery that is next. -/
theorem StandsAt.take_cases (h : StandsAt s [] done w read rest) :
    s.take = (s, none) ∨
    (∃ drain d line, s.take = Solo.started { s with line := line } drain d ∧
      s.line.poll = some (d, line) ∧ s.query.held = true ∧ s.query.progress = .pending ∧
      StandsAt { s with line := line } [d] done w read rest) ∨
    (∃ demand d s', s.take = s'.pulled demand d ∧ s.poll = some (d, s') ∧
      s.query.held = true ∧ s.query.progress.isOver = false ∧
      StandsAt s' [d] done w read rest ∧ s'.query.held = true ∧ s'.query.progress.isOver = false) := by
  rcases s.take_cases with hidle | ⟨bound, drain, d, line, hw, hp, htake⟩ |
    ⟨demand, d, s', hw, hp, htake⟩
  · exact .inl hidle
  · obtain ⟨hheld, hpend⟩ := h.waiting _ hw
    have hover : s.query.progress.isOver = false := by rw [hpend]; rfl
    have hpolled := h.linePoll hheld hover (h.pending hpend).2.2 hp
    exact .inr (.inl ⟨drain, d, line, htake, hp, hheld, hpend, hpolled⟩)
  · obtain ⟨hheld, hover⟩ := h.waiting _ hw
    exact .inr (.inr ⟨demand, d, s', htake, hp, hheld, hover, h.poll hheld hover hp⟩)

/-- With nothing ahead, a look finds nothing. -/
theorem StandsAt.take_of_ahead_nil (h : StandsAt s [] done w read rest)
    (hahead : rest.map (.ok ∘ .data) ++ w.ending.toList = []) : s.take = (s, none) := by
  rcases h.take_cases with htake | ⟨-, d, line, -, -, hheld, hpend, h'⟩ |
    ⟨-, d, s', -, -, -, -, h', hheld', hover'⟩
  · exact htake
  · have hfound := h'.ahead hheld
    rw [show s.query.progress.isOver = false by rw [hpend]; rfl] at hfound
    simp only [Bool.false_eq_true, if_false, hahead] at hfound
    cases hfound
  · have hfound := h'.ahead hheld'
    rw [hover'] at hfound
    simp only [Bool.false_eq_true, if_false, hahead] at hfound
    cases hfound

theorem Stands.take (h : Stands s) : Stands s.take.1 := by
  obtain ⟨done, w, read, rest, h⟩ := h
  rcases h.take_cases with htake | ⟨drain, d, line, htake, -, hheld, hpend, h'⟩ |
    ⟨demand, d, s', htake, -, -, -, h', hheld', hover'⟩ <;> rw [htake]
  · exact ⟨done, w, read, rest, h⟩
  · exact h'.started hheld hpend drain
  · exact h'.pulled hheld' hover' demand

theorem Stands.giveUp (h : Stands s) : Stands s.giveUp.1 := by
  obtain ⟨done, w, read, rest, h⟩ := h
  rcases s.giveUp_cases with hgive | ⟨-, -, -, hgive⟩ <;> rw [hgive]
  · exact ⟨_, _, _, _, h⟩
  · exact ⟨_, _, _, _, h.idle⟩

/-- Every act keeps the query's place in its waves. -/
theorem Stands.act (h : Stands s) (a : Act) : Stands (s.act a).1 := by
  obtain ⟨done, w, read, rest, hs⟩ := id h
  cases a with
  | ask k => exact h.ask k
  | take => exact h.take
  | giveUp => exact h.giveUp
  | heard r =>
    obtain ⟨w', rest', hs'⟩ := hs.hear r
    exact ⟨done, w', read, rest', hs'⟩
  | transactionEnded =>
    have hopen := Line.isOpen_strike s.line .transactionClosed
    obtain ⟨w', hs'⟩ := hs.strike (e := .transactionClosed) nofun s.line.isOpen (.inr ⟨rfl, nofun⟩)
    rw [← hopen] at hs'
    exact ⟨done, w', read, rest, hs'⟩
  | sessionEnded =>
    have hopen := Line.isOpen_strike s.line .sessionClosed
    obtain ⟨w', hs'⟩ := hs.strike (e := .sessionClosed) nofun s.line.isOpen (.inr ⟨rfl, nofun⟩)
    rw [← hopen] at hs'
    exact ⟨done, w', read, rest, hs'⟩
  | lost =>
    obtain ⟨w', hs'⟩ := hs.strike (e := .connectionClosed) nofun false (.inl rfl)
    exact ⟨done, w', read, rest, hs'⟩

end

theorem Client.Reachable.stands {c : Client α} (hc : c.Reachable) (hb : c.link.issued ≤ 2 ^ 64)
    {h : Handle} {q : Query α} (hq : c.queries[h]? = some q) : Stands (c.soloOf h q) :=
  hc.solo hb Stands.opening (fun _ a _ hs => hs.act a) hq

end QueryLanes
