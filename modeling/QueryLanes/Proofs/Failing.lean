import QueryLanes.Proofs.Progressing

/-!
# How a query fails

A query fails of what it is delivered, and of nothing else. `Delivery.Fault` says which deliveries
these are and what the failure is then, and `Client.Reachable.failed_iff` that a move fails a query
exactly if a waiting call finds one.
-/

namespace QueryLanes

variable {α : Type}

/-- What a query fails of when it is delivered: the connection or an owner is gone, the next batch
cannot be asked for any more, the server refuses the query, or answers with what makes no sense. -/
inductive Delivery.Fault (isOpen : Bool) : Delivery → Failure → Prop
  | connection : Fault isOpen (.error .connectionClosed) .connectionClosed
  | session : Fault isOpen (.error .sessionClosed) .sessionClosed
  | transaction : Fault isOpen (.error .transactionClosed) .transactionClosed
  | unsent {i : Item} {token : UInt64} (h : i.meaning = .continuation token)
      (hclosed : isOpen = false) : Fault isOpen (.ok (.item i)) .connectionClosed
  | refused (description : String) : Fault isOpen (.ok (.refused description)) (.server description)
  | noItem {r : Response} (h : ∀ i, r ≠ .item i) (hr : ∀ description, r ≠ .refused description) :
      Fault isOpen (.ok r) (.violation (.noItem r))
  | malformed {i : Item} (h : i.meaning = .malformed) :
      Fault isOpen (.ok (.item i)) (.violation .malformedItem)

/-- A failure that is delivered is that of the connection or of an owner. -/
def Delivery.Blames (d : Delivery) : Prop :=
  ∀ e, d = .error e → e = .connectionClosed ∨ e = .sessionClosed ∨ e = .transactionClosed

theorem Delivery.Blames.fault_iff {e e' : Failure} (h : Blames (.error e)) {isOpen : Bool} :
    Fault isOpen (.error e) e' ↔ e = e' := by
  constructor
  · intro hf
    cases hf <;> rfl
  · rintro rfl
    rcases h e rfl with rfl | rfl | rfl
    · exact .connection
    · exact .session
    · exact .transaction

/-- The faults that an item can be. -/
theorem Delivery.fault_item_iff {i : Item} {isOpen : Bool} {e : Failure} :
    Fault isOpen (.ok (.item i)) e ↔ match i.meaning with
      | .continuation _ => isOpen = false ∧ e = .connectionClosed
      | .malformed => e = .violation .malformedItem
      | .data _ | .completion => False := by
  constructor
  · intro h
    cases h with
    | unsent h hclosed =>
      rw [h]
      exact ⟨hclosed, rfl⟩
    | noItem h => exact absurd rfl (h i)
    | malformed h =>
      rw [h]
  · intro h
    cases hm : i.meaning with
    | continuation token =>
      rw [hm] at h
      obtain ⟨hclosed, rfl⟩ := h
      exact .unsent hm hclosed
    | malformed =>
      rw [hm] at h
      cases h
      exact .malformed hm
    | data | completion =>
      rw [hm] at h
      cases h

theorem Delivery.fault_refused_iff {description : String} {isOpen : Bool} {e : Failure} :
    Fault isOpen (.ok (.refused description)) e ↔ e = .server description := by
  constructor
  · intro h
    cases h with
    | refused => rfl
    | noItem h hr => exact absurd rfl (hr description)
  · rintro rfl
    exact .refused description

theorem Delivery.fault_other_iff {r : Response} {isOpen : Bool} {e : Failure}
    (h : ∀ i, r ≠ .item i) (hr : ∀ description, r ≠ .refused description) :
    Fault isOpen (.ok r) e ↔ e = .violation (.noItem r) := by
  constructor
  · intro hf
    cases hf with
    | unsent | malformed => exact absurd rfl (h _)
    | refused => exact absurd rfl (hr _)
    | noItem => rfl
  · rintro rfl
    exact .noItem h hr

/-- Only items that mean nothing fail the query that reads them. -/
theorem Query.malformed_of_failed {q q' : Query α} {i : Item} {e : Failure}
    (h : q.consume (.item i) = (q', .failed e)) :
    i.meaning = .malformed ∧ e = .violation .malformedItem := by
  unfold consume at h
  dsimp only at h
  cases hm : i.meaning with
  | malformed =>
    rw [hm] at h
    cases h
    exact ⟨rfl, rfl⟩
  | _ =>
    rw [hm] at h
    cases h

/-- A response that fails the query that reads it is a fault. -/
theorem Query.fault_iff_of_failed {q q' : Query α} {r : Response} {e e' : Failure} {isOpen : Bool}
    (h : q.consume r = (q', .failed e')) : Delivery.Fault isOpen (.ok r) e ↔ e = e' := by
  cases r with
  | item i =>
    obtain ⟨hm, rfl⟩ := Query.malformed_of_failed h
    rw [Delivery.fault_item_iff, hm]
  | refused description =>
    cases h
    exact Delivery.fault_refused_iff
  | _ =>
    cases h
    exact Delivery.fault_other_iff nofun nofun

namespace Solo

variable {s s' : Solo α} {hand : List Delivery} {done : List Wave} {w : Wave}
  {read rest : List Payload} {p : Progress} {e : Failure}

/-- Only the connection and the owners fail a line. -/
def Blamed (s : Solo α) : Prop := ∀ w ∈ s.line.waves, ∀ d, w.ending = some d → d.Blames

theorem blamed_strike (h : s.Blamed) {e : Failure} (he : Delivery.Blames (.error e)) :
    ∀ w ∈ (s.line.strike e).waves, ∀ d, w.ending = some d → d.Blames := by
  cases hl : s.line.isLive with
  | false => rwa [Line.strike_of_not_live hl]
  | true =>
    obtain ⟨done, w, hw, ho⟩ := Wave.exists_of_ongoing hl
    rw [Line.strike_of_live hw ho]
    intro v hv d hd
    rcases List.mem_append.1 hv with hv | hv
    · exact h v (by rw [hw]; exact List.mem_append_left _ hv) d hd
    · rw [List.mem_singleton.1 hv, Wave.strike_eq ho] at hd
      cases hd
      exact he

theorem Blamed.act (h : s.Blamed) (a : Act) : (s.act a).1.Blamed := by
  cases a with
  | ask k =>
    unfold Blamed
    rw [show (s.act (.ask k)).1.line.waves = s.line.waves from (mild_ask s k).line.1]
    exact h
  | take =>
    intro v hv d hd
    have hv : v ∈ s.take.1.line.waves := hv
    rw [waves_take, List.mem_append] at hv
    rcases hv with hv | hv
    · exact h v hv d hd
    · -- the wave that a token begins is not over
      obtain ⟨token, -, rfl⟩ := Option.map_eq_some_iff.1 (Option.mem_toList.1 hv)
      cases hd
  | giveUp =>
    unfold Blamed
    rw [show (s.act .giveUp).1.line.waves = s.line.waves from (mild_giveUp s).line.1]
    exact h
  | heard r =>
    cases hl : s.line.isLive with
    | false =>
      have hact : (s.act (.heard r)).1.line = s.line := Line.hear_of_not_live hl r
      unfold Blamed
      rw [hact]
      exact h
    | true =>
      obtain ⟨done, w, hw, ho⟩ := Wave.exists_of_ongoing hl
      have hact : (s.act (.heard r)).1.line.waves = done ++ [w.hear r] :=
        congrArg Line.waves (Line.hear_of_live hw ho r)
      intro v hv d hd
      rw [hact] at hv
      rcases List.mem_append.1 hv with hv | hv
      · exact h v (by rw [hw]; exact List.mem_append_left _ hv) d hd
      · have hw₀ : w ∈ s.line.waves := by simp [hw]
        rw [List.mem_singleton.1 hv, Wave.hear, ho] at hd
        split at hd
        · contradiction
        · split at hd
          · cases hd
            intro e he
            cases he
          · exact h w hw₀ d hd
  | transactionEnded => exact blamed_strike h fun e he => by cases he; exact .inr (.inr rfl)
  | sessionEnded => exact blamed_strike h fun e he => by cases he; exact .inr (.inl rfl)
  | lost => exact blamed_strike h fun e he => by cases he; exact .inl rfl

theorem blames_of_hand {d : Delivery} (h : StandsAt s [d] done w read rest) (hb : s.Blamed)
    (hheld : s.query.held = true) (hover : s.query.progress.isOver = false) : d.Blames := by
  rcases h.taken hheld hover with ⟨p, rest', rfl, -, -⟩ | ⟨-, hend, -⟩
  · exact nofun
  · exact hb w (by simp [h.waves]) d hend

/-- The waiting call finds a fault. While it waits for the start it looks no further than for a
failure. -/
def Fails (s : Solo α) (e : Failure) : Prop :=
  ∃ pause d, s.waiting = some pause ∧ s.poll.map (·.1) = some d ∧ d.Fault s.line.isOpen e ∧
    ∀ bound drain, pause = .start bound drain → d = .error e

/-- A pulling call fails the query exactly if it is handed a fault. -/
theorem failed_pulled_iff {d : Delivery} (hd : d.Blames) (demand : Demand α) :
    (s.pulled demand d).1.query.progress = .failed e ↔ d.Fault s.line.isOpen e := by
  have hfail {q : Query α} {e' : Failure} (hq : q.progress = .failed e') :
      (q.fuse demand).progress = .failed e ↔ e = e' := by
    rw [Query.progress_fuse, hq]
    exact ⟨fun h => (Progress.failed.inj h).symm, fun h => congrArg Progress.failed h.symm⟩
  have hpulls := s.pulls demand d
  generalize s.pulled demand d = o at hpulls ⊢
  cases hpulls with
  | answer | got | refused | ended =>
    exact iff_of_false nofun fun hf => absurd (Delivery.fault_item_iff.1 hf) id
  | sent hi ho =>
    refine iff_of_false nofun fun hf => ?_
    have hclosed := Delivery.fault_item_iff.1 hf
    rw [hi, ho] at hclosed
    cases hclosed.1
  | unsent hi ho =>
    rw [Delivery.fault_item_iff, hi]
    exact (hfail rfl).trans ⟨fun h => ⟨ho, h⟩, And.right⟩
  | failed _ hc => exact (hfail rfl).trans (Query.fault_iff_of_failed hc).symm
  | broken =>
    rw [hd.fault_iff]
    exact (hfail rfl).trans eq_comm

/-- A call that waits for the start fails the query exactly if it is handed a failure. -/
theorem failed_started_iff {d : Delivery} (hd : d.Blames) (drain : Bool) :
    (s.started drain d).1.query.progress = .failed e ↔ d = .error e := by
  have hhears := s.hears drain d
  generalize s.started drain d = o at hhears ⊢
  cases hhears with
  | held | goesOn => exact iff_of_false nofun nofun
  | timedOut => rcases hd _ rfl with h | h | h <;> cases h
  | failed =>
    constructor <;> intro h <;> cases h
    · rfl
    · rfl

/-- What a look fails the query for is what there is to find. -/
theorem fails_iff {pause : Pause α} {d : Delivery} (hw : s.waiting = some pause)
    (hd : s.poll.map (·.1) = some d) : s.Fails e ↔
      d.Fault s.line.isOpen e ∧ ∀ bound drain, pause = .start bound drain → d = .error e := by
  constructor
  · rintro ⟨pause', d', hw', hd', hf, hs⟩
    cases hw.symm.trans hw'
    cases hd.symm.trans hd'
    exact ⟨hf, hs⟩
  · rintro ⟨hf, hs⟩
    exact ⟨pause, d, hw, hd, hf, hs⟩

/-- There is nothing to find. -/
theorem take_of_poll_none (h : StandsAt s hand done w read rest) (hp : s.poll = none) :
    s.take = (s, none) := by
  cases hw : s.waiting with
  | none => exact take_of_waiting_none hw
  | some pause =>
    cases pause with
    | start bound drain =>
      have hline : s.line.poll = none := by
        unfold poll at hp
        rw [(h.pending (h.waiting _ hw).2).2.2] at hp
        exact Option.map_eq_none_iff.1 hp
      rw [take_start hw, hline]
    | pull demand => rw [take_pull hw, hp]

/-- A look fails a query exactly if it finds a fault. -/
theorem failed_take_iff (h : Stands s) (hb : s.Blamed) :
    s.take.1.query.progress = .failed e ↔ s.query.progress = .failed e ∨ s.Fails e := by
  obtain ⟨done, w, read, rest, h⟩ := h
  cases hw : s.waiting with
  | none =>
    rw [take_of_waiting_none hw]
    simp [Fails, hw]
  | some pause =>
    have hfits := h.waiting pause hw
    have hheld : s.query.held = true := by cases pause <;> exact hfits.1
    have hover : s.query.progress.isOver = false := by
      cases pause with
      | start bound drain => rw [hfits.2]; rfl
      | pull demand => exact hfits.2
    have hnot : s.query.progress ≠ .failed e := fun hp => by rw [hp] at hover; cases hover
    rw [or_iff_right hnot]
    cases hp : s.poll with
    | none =>
      rw [take_of_poll_none h hp]
      simp [hnot, Fails, hp]
    | some ds =>
      obtain ⟨d, s'⟩ := ds
      have hb' : s'.Blamed := by
        unfold Blamed
        rw [(same_poll hp).1]
        exact hb
      obtain ⟨h', hheld', hover'⟩ := h.poll hheld hover hp
      have hd := blames_of_hand h' hb' hheld' hover'
      rw [fails_iff hw (by rw [hp]; rfl)]
      cases pause with
      | pull demand =>
        rw [take_pull hw, hp, failed_pulled_iff hd, (same_poll hp).2]
        simp
      | start bound drain =>
        rcases poll_cases hp with ⟨r, hst, -, -⟩ | ⟨-, line, hl, rfl⟩
        · rw [(h.pending hfits.2).2.2] at hst
          cases hst
        · rw [take_start hw, hl]
          dsimp only
          rw [failed_started_iff hd]
          constructor
          · rintro rfl
            exact ⟨hd.fault_iff.2 rfl, fun _ _ _ => rfl⟩
          · rintro ⟨-, hs⟩
            exact hs bound drain rfl

theorem failed_act_iff (h : Stands s) (hb : s.Blamed) (a : Act) :
    (s.act a).1.query.progress = .failed e ↔
      s.query.progress = .failed e ∨ a = .take ∧ s.Fails e := by
  by_cases ha : a = .take
  · subst ha
    rw [show s.act .take = s.take from rfl, failed_take_iff h hb]
    simp
  · have hp : (s.act a).1.query.progress = s.query.progress := by
      cases a with
      | ask k => exact (mild_ask s k).progress
      | take => exact absurd rfl ha
      | giveUp => exact (mild_giveUp s).progress
      | _ => rfl
    rw [hp]
    simp [ha]

end Solo

namespace Client

variable {c : Client α} {h : Handle} {q q' : Query α} {m : Move α} {e : Failure}

/-- The line of a query is failed by the connection or an owner of it. -/
theorem Reachable.blamed (hc : c.Reachable) (hb : c.link.issued ≤ 2 ^ 64)
    (hq : c.queries[h]? = some q) : (c.soloOf h q).Blamed :=
  hc.solo (J := Solo.Blamed) hb (fun _ _ _ _ w hw d hd => by
    rw [List.mem_singleton.1 hw] at hd
    cases hd) (fun _ a _ hs => hs.act a) hq

/-- What the query at a place finds next. -/
def found? (c : Client α) (h : Handle) : Option Delivery :=
  c.queries[h]?.bind fun q => (q.poll c.link.router).map (·.1)

/-- With the move a waiting call on the query at a place looks and finds a fault. While it waits for
the start it looks no further than for a failure. -/
def Fails (c : Client α) (h : Handle) (m : Move α) (e : Failure) : Prop :=
  (m = .resume ∨ m = .expire) ∧ ∃ pause d, c.waiting = some (Pause.wait h pause) ∧
    c.found? h = some d ∧ d.Fault c.link.isOpen e ∧
    ∀ bound drain, pause = .start bound drain → d = .error e

theorem Reachable.fails_iff (hc : c.Reachable) (hb : c.link.issued ≤ 2 ^ 64)
    (hq : c.queries[h]? = some q) :
    c.Fails h m e ↔ c.ownActs h q m = [.take] ∧ (c.soloOf h q).Fails e := by
  have hs := hc.sound hb
  have hfound : c.found? h = (c.soloOf h q).poll.map (·.1) := by
    rw [hs.poll_soloOf hq, found?, hq]
    rfl
  have hopen : (c.soloOf h q).line.isOpen = c.link.isOpen := rfl
  constructor
  · rintro ⟨hm, pause, d, hw, hd, hf, hstart⟩
    have hwait : (c.soloOf h q).waiting = some pause := by
      rw [soloOf, hw, Option.bind_some, Pause.on_wait]
    have hwaits : c.waitsOn h = true := congrArg Option.isSome hwait
    have hfails : (c.soloOf h q).Fails e := ⟨pause, d, hwait, hfound ▸ hd, hf, hstart⟩
    refine ⟨?_, hfails⟩
    rcases hm with rfl | rfl
    · exact if_pos hwaits
    · refine (if_pos hwaits).trans (if_pos ?_)
      -- a call that is not ready would look in vain
      cases hr : c.isReady with
      | true => rfl
      | false =>
        have hst := hc.stands hb hq
        have hfailed := (Solo.failed_take_iff hst (hc.blamed hb hq)).2 (.inr hfails)
        rw [hs.take_idle hq hwaits hr] at hfailed
        have hidle := (Solo.over_of_isOver hst (by rw [hfailed]; rfl)).idle
        rw [hidle] at hwait
        cases hwait
  · rintro ⟨hown, pause, d, hw, hd, hf, hstart⟩
    obtain ⟨w, hw, hon⟩ := Option.bind_eq_some_iff.1 hw
    exact ⟨of_ownActs_take hown, pause, d, by rw [hw, Wait.on_eq_some.1 hon], hfound.trans hd, hf,
      hstart⟩

/-- A move fails a query exactly if a waiting call finds a fault with it. -/
theorem Reachable.failed_iff (hc : c.Reachable) (hb : (c.step m).1.link.issued ≤ 2 ^ 64)
    (hq : c.queries[h]? = some q) (hq' : (c.step m).1.queries[h]? = some q') :
    q'.progress = .failed e ↔ q.progress = .failed e ∨ c.Fails h m e := by
  have hb₀ := Nat.le_trans (issued_step c m) hb
  obtain ⟨q₁, hq₁, -, -, hacts⟩ := ((hc.sound hb₀).step m hb).solo h q hq
  rw [hq'] at hq₁
  cases hq₁
  rw [Solo.acts_append, acts_ends] at hacts
  have hprogress : q'.progress = ((c.soloOf h q).acts (c.ownActs h q m)).1.query.progress :=
    (congrArg (·.1.query.progress) hacts).symm
  rw [hprogress, hc.fails_iff hb₀ hq]
  rcases ownActs_cases c m h q with hown | ⟨a, hown, -⟩
  · rw [hown]
    constructor
    · exact fun hp => .inl hp
    · rintro (hp | ⟨hno, -⟩)
      · exact hp
      · cases hno
  · rw [hown]
    refine (Solo.failed_act_iff (hc.stands hb₀ hq) (hc.blamed hb₀ hq) a).trans ?_
    rw [List.cons.injEq]
    simp only [and_true]
    exact Iff.rfl

end Client

end QueryLanes
