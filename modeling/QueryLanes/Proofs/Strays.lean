import QueryLanes.Proofs.Tending

/-!
# Stray frames

A frame is `Stray` if its lane has no slot when it arrives, or a slot whose inbox nobody waits on:
the request timed out, or was posted without a wait, or its query was given up. What nobody waits on
is dropped, as `Client.Tended` says, so that a stray frame leaves a client which is alike to the one
before. The run goes on as if it had not come: `stray_frame_is_inert`.

A request with a single response that timed out is forsaken for good (`Client.Forsaken`): nothing
else is ever sent on its lane while lanes last, and its late response is stray whenever it comes.
-/

namespace QueryLanes

variable {α : Type}

/-! ## Stray frames -/

namespace Router

variable {r : Router}

/-- A frame that finds the inbox of its lane dropped leaves the router as it was, for all that anybody
can tell. -/
theorem Neat.alike_route (hn : r.Neat) {f : ServerFrame}
    (hdead : ∀ t ∈ r.plain, f.lane = t.lane → r.inbox? t.inbox = none) : r.Alike (r.route f) where
  neat := hn
  neat' := hn.step (.route f)
  closed := closed_route f
  inboxes := by
    refine inboxes_ext (length_route f) fun i => ?_
    rcases hn.inbox?_route f i with ⟨t, ht, rfl, hlane, he⟩ | ⟨-, he⟩
    · rw [he, hdead t ht hlane]
      rfl
    · exact he
  fed t ht := by
    have hmem := mem_plain_step hn.closed (r := r) (s := .route f) (t := t)
    refine hmem.trans ⟨fun h => (h.resolve_left nofun).1, fun h => .inr ⟨h, ?_⟩⟩
    rw [Step.ends, Bool.and_eq_false_iff]
    refine .inl (beq_eq_false_iff_ne.2 fun hlane => ?_)
    rw [hdead t h hlane] at ht
    cases ht

end Router

namespace Client

variable {c c' d : Client α} {h : Handle} {q : Query α} {i : Nat}

/-- Nobody waits for the frame: its lane has no slot, or a slot whose inbox nobody waits on. -/
def Stray (c : Client α) (f : ServerFrame) : Prop :=
  ∀ s, c.link.router.slot? f.lane = some s → ¬ c.Awaits s.inbox

/-- A stray frame tells nobody anything. -/
theorem Stray.alike {f : ServerFrame} (hf : c.Stray f) (ht : c.Tended) (hn : c.link.router.Neat) :
    c.Alike (c.step (.arrive f)).1 := by
  have hdead : ∀ t ∈ c.link.router.plain, f.lane = t.lane → c.link.router.inbox? t.inbox = none := by
    intro t ht' hlane
    obtain ⟨s, hs, rfl⟩ := Router.mem_plain.1 ht'
    cases hslot : c.link.router.slot? f.lane with
    | none => exact absurd ⟨s, hs, hlane.symm⟩ (Router.slot?_eq_none.1 hslot)
    | some s' =>
      obtain ⟨hs', hlane'⟩ := Router.slot?_eq_some hslot
      have hsame : s'.plain = s.plain :=
        hn.single _ (Router.plain_mem hs') _ ht' (.inl (hlane'.trans hlane))
      have hnone := hf s' hslot
      rw [show s'.inbox = s.plain.inbox from congrArg (·.inbox) hsame] at hnone
      by_contra hlive
      exact hnone (ht.inbox _ (Option.isSome_iff_ne_none.2 hlive))
  refine ⟨c.link.receive f, rfl, ?_⟩
  unfold Link.receive
  split
  · exact {
      isOpen := rfl
      issued := rfl
      sent := (Link.sent_record ..).trans (List.append_nil _)
      ran := (Link.ran_record ..).trans (List.append_nil _)
      router := hn.alike_route hdead }
  · exact .refl hn

/-! ## Requests that timed out -/

theorem beginPull_ne_errand (c : Client α) (h : Handle) (q : Query α) (demand : Demand α)
    (e : Errand) (i : Nat) : (c.beginPull h q demand).1.waiting ≠ some (.errand e i) := by
  have hb := c.beginsPull h q demand
  generalize c.beginPull h q demand = o at hb ⊢
  cases hb <;> nofun

theorem beginStart_ne_errand (c : Client α) (h : Handle) (q : Query α) (bound : Option Nat)
    (drain : Bool) (e : Errand) (i : Nat) :
    (c.beginStart h q bound drain).1.waiting ≠ some (.errand e i) := by
  have hb := c.beginsStart h q bound drain
  generalize c.beginStart h q bound drain = o at hb ⊢
  cases hb with
  | pulls => exact beginPull_ne_errand c h q _ e i
  | _ => nofun

theorem openQuery_ne_errand (c : Client α) (x : Transaction) (text : Payload)
    (options : QueryOptions) (reader : Reader α) (e : Errand) (i : Nat) :
    (c.openQuery x text options reader).1.waiting ≠ some (.errand e i) := by
  have h := c.enters x text options reader
  generalize c.openQuery x text options reader = o at h ⊢
  cases h <;> nofun

/-- What is closed and waited for is closed before an errand runs. -/
theorem closing_of_errand {ended : Client α} {isOpen reports : Bool} {e e' : Errand} {o : Owner}
    {request : Request}
    (he : (c.closing ended isOpen reports e' o request).1.waiting = some (.errand e i)) :
    c.closing ended isOpen reports e' o request = ended.run e' o request := by
  have h := shuts c ended isOpen reports e' o request
  generalize c.closing ended isOpen reports e' o request = out at h he ⊢
  cases h with
  | before | silent => cases he
  | told => rfl

/-- What a call does before it runs an errand: nothing, or it closes what the errand is about. -/
def Readies (c c' : Client α) : Prop :=
  c' = c ∨ (∃ s x, c' = c.endSession s x) ∨ ∃ t, c' = c.finishTransaction t

theorem Readies.issued (h : c.Readies c') : c'.link.issued = c.link.issued := by
  rcases h with rfl | ⟨s, x, rfl⟩ | ⟨t, rfl⟩
  · rfl
  · exact issued_endSession c s x
  · exact issued_finishTransaction c t

/-- A call that waits for an errand has run it. A commit is one of the transaction's own requests. -/
theorem exists_run_of_errand {k : Call α} {e : Errand} (hw : c.waiting = none)
    (he : (c.call k).1.waiting = some (.errand e i)) :
    ∃ c' e' o request, c.Readies c' ∧ c.call k = c'.run e' o request ∧
      ∀ t, e' = .commit t → ∃ x, c.transactions[t]? = some x ∧ c' = c ∧ o = x.owner := by
  have h := c.begins_call k
  generalize c.call k = o at h he ⊢
  cases h with
  | busy hbusy =>
    rw [hw] at hbusy
    cases hbusy
  | run _ ho o request hcommit =>
    refine ⟨c, _, o, request, .inl rfl, rfl, fun t ht => ?_⟩
    obtain ⟨x, hx, -, ho⟩ := hcommit t ht
    exact ⟨x, getElem?_of_transaction? hx, rfl, ho⟩
  | @closeSession s y =>
    rw [closeSession_eq] at he ⊢
    exact ⟨_, _, _, _, .inr (.inl ⟨s, y, rfl⟩), closing_of_errand he, nofun⟩
  | closeTransaction t x =>
    rw [closeTransaction_eq] at he ⊢
    exact ⟨_, _, _, _, .inr (.inr ⟨t, rfl⟩), closing_of_errand he, nofun⟩
  | query t text options reader x =>
    exact absurd he (openQuery_ne_errand c x text options reader e i)
  | start h q bound drain => exact absurd he (beginStart_ne_errand c h q bound drain e i)
  | pull h q demand => exact absurd he (beginPull_ne_errand c h q demand e i)
  | _ => cases he

/-- An errand begins with a request on a lane of its own. -/
theorem issued_lt_of_errand {k : Call α} {e : Errand} (hw : c.waiting = none)
    (he : (c.call k).1.waiting = some (.errand e i)) : c.link.issued < (c.call k).1.link.issued := by
  obtain ⟨c', e', o, request, hready, hrun, -⟩ := exists_run_of_errand hw he
  rw [hrun, issued_run, hready.issued]
  exact Nat.lt_succ_self _

/-- A query is opened with a request on a lane of its own. -/
theorem Opened.issued_lt (hs : c.link.Sound) {m : Move α} (ho : c.Opened m h q (c.step m)) :
    c.link.issued < (c.step m).1.link.issued := by
  obtain ⟨t, text, options, reader, x, rfl, hw, hx, -, -, -, -, -, -, hreply⟩ := ho
  have hcall : c.step (.call (.query t text options reader)) = c.openQuery x text options reader :=
    call_query hw hx text options reader
  rw [hcall] at hreply ⊢
  rcases openQuery_cases hs x text options reader with ⟨e, he, -⟩ | ⟨-, -, he⟩ <;> rw [he] at hreply ⊢
  · cases hreply
  · show _ < (c.link.request x.owner _).2.issued
    rw [Link.issued_request]
    exact Nat.lt_succ_self _

theorem pulled_ne_errand (c : Client α) (h : Handle) (q : Query α) (demand : Demand α)
    (d : Delivery) (e : Errand) (i : Nat) :
    (c.pulled h q demand d).1.waiting ≠ some (.errand e i) := by
  have hr := c.readsOn h q demand d
  generalize c.pulled h q demand d = o at hr ⊢
  cases hr with
  | @more _ r x token =>
    have hf := c.fetchesMore h x token demand
    generalize c.fetchMore h x token demand = o at hf ⊢
    cases hf <;> nofun
  | _ => nofun

theorem started_ne_errand (c : Client α) (h : Handle) (q : Query α) (drain : Bool) (d : Delivery)
    (e : Errand) (i : Nat) : (c.started h q drain d).1.waiting ≠ some (.errand e i) := by
  have hs := c.hearsStart h q drain d
  generalize c.started h q drain d = o at hs ⊢
  cases hs <;> nofun

/-- A waiting call that goes on begins no errand. -/
theorem Finds.errand_eq {o : Outcome α} (h : c.Finds o) {e : Errand}
    (he : o.1.waiting = some (.errand e i)) : c.waiting = some (.errand e i) := by
  cases h with
  | nothing => exact he
  | errand | gaveUp =>
    rw [waiting_conclude] at he
    cases he
  | start h drain => exact absurd he (started_ne_errand _ h _ drain _ e i)
  | pull h demand => exact absurd he (pulled_ne_errand _ h _ demand _ e i)
  | late => cases he

/-- A move leaves the errand in progress alone, or ends it; or it begins one on the next lane. -/
theorem errand_step {m : Move α} {e : Errand} (he : (c.step m).1.waiting = some (.errand e i)) :
    c.waiting = some (.errand e i) ∨ c.link.issued < (c.step m).1.link.issued := by
  cases m with
  | call k =>
    cases hw : c.waiting with
    | some w =>
      have he : (c.call k).1.waiting = some (.errand e i) := he
      rw [call_of_waiting hw, hw] at he
      exact .inl he
    | none => exact .inr (issued_lt_of_errand hw he)
  | arrive f => exact .inl he
  | lose => exact .inl he
  | resume => exact .inl (c.finds_resume.errand_eq he)
  | expire => exact .inl (c.finds_expire.errand_eq he)

/-- The lane with this number was given out to a request that nobody waits for any more. -/
structure Forsaken (c : Client α) (n : Nat) : Prop where
  issued : n < c.link.issued
  queries : ∀ (h : Handle) q, c.queries[h]? = some q → q.lane ≠ UInt64.ofNat (n + 1)
  errand : ∀ e i, c.waiting = some (.errand e i) → n + 1 < c.link.issued

theorem Forsaken.step {n : Nat} (hf : c.Forsaken n) (hs : c.Sound) {m : Move α}
    (hb : (c.step m).1.link.issued ≤ 2 ^ 64) : (c.step m).1.Forsaken n where
  issued := Nat.lt_of_lt_of_le hf.issued (issued_step c m)
  queries h q' hq' := by
    have hstep := hs.step m hb
    cases hq : c.queries[h]? with
    | some q =>
      obtain ⟨q₁, hq₁, hlane, -⟩ := hstep.solo h q hq
      rw [hq'] at hq₁
      cases hq₁
      rw [hlane]
      exact hf.queries h q hq
    | none =>
      have hopened := hstep.opened h q' hq' hq
      have hlt := hopened.issued_lt hs.link
      obtain ⟨-, -, -, -, -, -, -, -, -, -, -, hlane, -⟩ := hopened
      rw [hlane]
      exact fun he => Link.not_issued_of_le (Nat.le_refl _) (Nat.lt_of_lt_of_le hlt hb)
        ⟨n, hf.issued, he⟩
  errand e i he := by
    have hle := issued_step c m
    rcases errand_step he with he | hlt
    · exact Nat.lt_of_lt_of_le (hf.errand e i he) hle
    · have := hf.issued
      omega

theorem Forsaken.runAll {n : Nat} (hf : c.Forsaken n) (hs : c.Sound) {ms : List (Move α)}
    (hb : (c.runAll ms).1.link.issued ≤ 2 ^ 64) : (c.runAll ms).1.Forsaken n := by
  induction ms generalizing c with
  | nil => exact hf
  | cons m ms ih =>
    rw [runAll_cons] at hb ⊢
    have hb' := Nat.le_trans (issued_runAll _ ms) hb
    exact ih (hf.step hs hb') (hs.step m hb').sound hb

theorem Forsaken.stray {n : Nat} (hf : c.Forsaken n) (hs : c.Sound)
    (hb : c.link.issued ≤ 2 ^ 64) {f : ServerFrame} (hlane : f.lane = UInt64.ofNat (n + 1)) :
    c.Stray f := by
  intro s hslot
  obtain ⟨hmem, hl⟩ := Router.slot?_eq_some hslot
  rw [hlane] at hl
  rintro (⟨e, he⟩ | ⟨h, q, hq, hi⟩)
  · obtain ⟨o, hwired⟩ := (hs.errand e s.inbox he).wired
    have hlast : UInt64.ofNat c.link.issued = UInt64.ofNat (n + 1) :=
      ((hwired.slot s hmem).2 rfl).symm.trans hl
    have hlt := hf.errand e s.inbox he
    have := congrArg UInt64.toNat hlast
    simp only [UInt64.toNat_ofNat'] at this
    omega
  · have hq' := (Option.filter_eq_some_iff.1 hq).1
    exact hf.queries h q hq' (((((hs.wired h q hq').slot s hmem).2 hi.symm).symm).trans hl)

/-- The wait for the response of an errand ends before it came: its lane is given up. -/
theorem Sound.forsaken_expire (hs : c.Sound) {e : Errand} (hw : c.waiting = some (.errand e i))
    (hready : c.isReady = false) (hbound : c.bound?.isSome = true) :
    ∃ n, c.link.lastLane = UInt64.ofNat (n + 1) ∧ (c.step .expire).1.Forsaken n := by
  have he := hs.errand e i hw
  obtain ⟨o, hwired⟩ := he.wired
  obtain ⟨m, hm, -⟩ := hwired.issued
  have hexpire : c.step .expire =
      conclude { c with link := c.link.dropInbox i } e (.error .timeout) := by
    rw [Client.step, expire_of_not_isReady hready, if_pos hbound, giveUp_of_errand hw]
  have hlane : c.link.lastLane = UInt64.ofNat (c.link.issued - 1 + 1) := by
    rw [Nat.sub_add_cancel (Nat.lt_of_le_of_lt (Nat.zero_le m) hm)]
    rfl
  refine ⟨c.link.issued - 1, hlane, ?_⟩
  rw [hexpire]
  refine ⟨?_, fun h q hq => ?_, fun e' j he' => ?_⟩
  · rw [issued_conclude]
    exact Nat.sub_lt (Nat.lt_of_le_of_lt (Nat.zero_le m) hm) Nat.one_pos
  · rw [(acts_conclude _ (fun _ _ => trivial) _).lets.queries] at hq
    rw [← hlane]
    exact (he.apart h q hq).1
  · rw [waiting_conclude] at he'
    cases he'

/-! ## Two runs -/

/-- A router that a run has reached is neat. -/
theorem neat_runAll (timeout : Option Nat) (ms : List (Move α)) :
    (Client.runAll { requestTimeout := timeout } ms).1.link.router.Neat := by
  have hnew : ({ requestTimeout := timeout } : Client α).Alike { requestTimeout := timeout } :=
    alike_of_link (.refl .empty) { requestTimeout := timeout }
  exact (hnew.runAll ms).2.link.router.neat

theorem Alike.isStarted (h : c.Alike d) (q : Query α) :
    q.isStarted d.link.router = q.isStarted c.link.router := by
  unfold Query.isStarted Router.hasArrived
  rw [h.link.router.inbox?]

/-- **Stray frames are inert.** Compare a run with the run in which one more frame arrives, at any
point. If the frame is stray there, every call has the same reply in both runs; in the end sessions,
transactions and queries are the same, the connection is open or not as it is, the same calls are
ready and the same queries have started; the same frames were sent, and the same callbacks ran.

In particular, once a request with a single response has timed out, every frame on its lane is
stray in all that follows, as long as there are lanes to give out. -/
theorem stray_frame_is_inert (timeout : Option Nat) (before after : List (Move α))
    (f : ServerFrame) :
    let start : Client α := { requestTimeout := timeout }
    let c := (start.runAll before).1
    let o := start.runAll (before ++ after)
    let o' := start.runAll (before ++ .arrive f :: after)
    let late := (start.runAll (before ++ .expire :: after)).1
    (c.Stray f →
      o'.2 = o.2 ∧ o'.1 = { o.1 with link := o'.1.link } ∧
      o'.1.link.isOpen = o.1.link.isOpen ∧ o'.1.isReady = o.1.isReady ∧
      (∀ q : Query α, q.isStarted o'.1.link.router = q.isStarted o.1.link.router) ∧
      o'.1.link.sent = o.1.link.sent ∧ o'.1.link.ran = o.1.link.ran) ∧
    (∀ e i s, c.waiting = some (.errand e i) → c.isReady = false → c.bound?.isSome = true →
      s ∈ c.link.router.slots → s.inbox = i → f.lane = s.lane → late.link.issued ≤ 2 ^ 64 →
      late.Stray f) := by
  intro start c o o' late
  refine ⟨fun hf => ?_, fun e i s hw hready hbound hs hi hlane hb => ?_⟩
  · have halike : c.Alike (c.step (.arrive f)).1 :=
      hf.alike ((tended_empty timeout).runAll before) (neat_runAll timeout before)
    obtain ⟨hreplies, hlast⟩ := halike.runAll after
    have ho : o = ((c.runAll after).1, (start.runAll before).2 ++ (c.runAll after).2) :=
      runAll_append start before after
    have ho' : o' = (((c.step (.arrive f)).1.runAll after).1,
        (start.runAll before).2 ++ ((c.step (.arrive f)).1.runAll after).2) :=
      runAll_append start before (.arrive f :: after)
    rw [ho, ho', hreplies]
    obtain ⟨l, heq, -⟩ := id hlast
    exact ⟨rfl, by rw [heq], hlast.link.isOpen, hlast.isReady, hlast.isStarted, hlast.link.sent,
      hlast.link.ran⟩
  · have hlate : late = ((c.step .expire).1.runAll after).1 := by
      show (start.runAll (before ++ .expire :: after)).1 = _
      rw [runAll_append]
      rfl
    rw [hlate] at hb ⊢
    have hc : c.Reachable := ⟨timeout, before, rfl⟩
    have hb₁ := Nat.le_trans (issued_runAll _ after) hb
    have hsound := hc.sound (Nat.le_trans (issued_step c .expire) hb₁)
    obtain ⟨n, hn, hforsaken⟩ := hsound.forsaken_expire hw hready hbound
    obtain ⟨o, hwired⟩ := (hsound.errand e i hw).wired
    have hsound₁ := (hsound.step .expire hb₁).sound
    have hlater : ((c.step .expire).1.runAll after).1.Sound :=
      Reachable.sound ⟨timeout, before ++ .expire :: after, hlate.symm⟩ hb
    refine (hforsaken.runAll hsound₁ hb).stray hlater hb ?_
    rw [hlane, (hwired.slot s hs).2 hi, hn]

/-- A session is asked for. -/
def outwaited : List (Move String) := [.call (.openSession "db" .data)]

/-- Another one is asked for, and opened. -/
def again : List (Move String) :=
  [.call (.openSession "db" .data), .arrive ⟨2, .sessionOpened 9⟩, .resume]

/-- The late response does not answer the second request. -/
theorem late_response_answers_nothing :
    let o := Client.runAll { requestTimeout := some 5 }
      (outwaited ++ [Move.expire] ++ .arrive ⟨1, .sessionOpened 7⟩ :: again)
    o.2 = [.failed .timeout, .opened 0] ∧ o.1.sessions.map (·.id) = [9] := by
  have hstray : Stray (Client.runAll { requestTimeout := some 5 } (outwaited ++ [Move.expire])).1
      ⟨1, .sessionOpened 7⟩ :=
    (stray_frame_is_inert (some 5) outwaited [] ⟨1, .sessionOpened 7⟩).2
      (.openSession "db" .data) 0 { lane := 1, owner := {}, inbox := 0 } rfl rfl rfl
      (List.mem_singleton.2 rfl) rfl rfl (by decide)
  have hinert :=
    (stray_frame_is_inert (some 5) (outwaited ++ [Move.expire]) again ⟨1, .sessionOpened 7⟩).1 hstray
  refine ⟨hinert.1.trans (by decide +kernel), ?_⟩
  rw [hinert.2.1]
  decide +kernel

end Client

end QueryLanes
