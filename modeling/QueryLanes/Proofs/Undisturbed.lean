import QueryLanes.Proofs.Lagging

/-!
# Waits for the start do not disturb

`Client.undisturbed` says that nobody misses a wait for the start of a query that is left out of a
run: the same crosses the connection, all other calls have the same replies, and the queries have
the same batch sizes. A wait that ends with a timeout has not done anything at all
(`Client.Reachable.unmoved`).
-/

namespace QueryLanes

variable {α : Type}

namespace Client

variable {c : Client α} {h : Handle} {m : Move α} {k : Call α}

/-! ## Timeouts -/

theorem waiting_pulled (c : Client α) (h : Handle) (q : Query α) (demand : Demand α)
    (d : Delivery) : (c.pulled h q demand d).1.waiting = none ∨
      ∃ demand', (c.pulled h q demand d).1.waiting = some (.pull h demand') := by
  have hreads := c.readsOn h q demand d
  generalize c.pulled h q demand d = o at hreads ⊢
  cases hreads with
  | broken | answer | failed | ended => exact .inl rfl
  | got => exact .inr ⟨_, rfl⟩
  | @more _ r x token _ =>
    have hfetches := c.fetchesMore h x token demand
    generalize c.fetchMore h x token demand = o at hfetches ⊢
    cases hfetches with
    | sent => exact .inr ⟨_, rfl⟩
    | failed => exact .inl rfl

/-- A call that still waits for a start has not found anything. -/
theorem Finds.eq_of_start {o : Outcome α} (ho : c.Finds o) {bound : Option Nat} {drain : Bool}
    (hw : o.1.waiting = some (.start h bound drain)) : o = (c, none) := by
  cases ho with
  | nothing => rfl
  | errand | gaveUp =>
    rw [waiting_conclude] at hw
    cases hw
  | @start q d r h' drain' hp bound' hw' hq =>
    have hhears := hearsStart { c with link := { c.link with router := r } } h' q drain' d
    generalize started { c with link := { c.link with router := r } } h' q drain' d = o at hhears hw
    cases hhears <;> cases hw
  | pull h' demand =>
    rcases waiting_pulled _ h' _ demand _ with hnone | ⟨demand', hpull⟩
    · rw [hnone] at hw
      cases hw
    · rw [hpull] at hw
      cases hw
  | late => cases hw

/-- What happens while a call goes on waiting for the start of a query changes no query, and happens
as if nobody waited. -/
theorem step_of_start (hm : ∀ k, m ≠ .call k) {bound : Option Nat} {drain : Bool}
    (hw : (c.step m).1.waiting = some (.start h bound drain)) :
    c.waiting = some (.start h bound drain) ∧ (c.step m).1.queries = c.queries ∧
      (step { c with waiting := none } m).1 = { (c.step m).1 with waiting := none } := by
  obtain ⟨hresume, hexpire⟩ := step_of_idle (c := { c with waiting := none }) rfl
  have hidle (hstep : c.step m = (c, none))
      (hstep' : step { c with waiting := none } m = ({ c with waiting := none }, none)) :
      c.waiting = some (.start h bound drain) ∧ (c.step m).1.queries = c.queries ∧
        (step { c with waiting := none } m).1 = { (c.step m).1 with waiting := none } := by
    rw [hstep] at hw ⊢
    rw [hstep']
    exact ⟨hw, rfl, rfl⟩
  cases m with
  | call k => exact absurd rfl (hm k)
  | arrive | lose => exact ⟨hw, rfl, rfl⟩
  | resume => exact hidle (c.finds_resume.eq_of_start hw) hresume
  | expire => exact hidle (c.finds_expire.eq_of_start hw) hexpire

theorem runAll_of_start {ms : List (Move α)} (hms : ∀ k, Move.call k ∉ ms) {bound : Option Nat}
    {drain : Bool} (hw : (c.runAll ms).1.waiting = some (.start h bound drain)) :
    c.waiting = some (.start h bound drain) ∧ (c.runAll ms).1.queries = c.queries ∧
      (runAll { c with waiting := none } ms).1 = { (c.runAll ms).1 with waiting := none } := by
  induction ms generalizing c with
  | nil => exact ⟨hw, rfl, rfl⟩
  | cons m ms ih =>
    have hw' : ((c.step m).1.runAll ms).1.waiting = some (.start h bound drain) := hw
    obtain ⟨hwait, hqueries, hrun⟩ := ih (fun k hk => hms k (List.mem_cons_of_mem _ hk)) hw'
    have hm : ∀ k, m ≠ .call k := fun k hk => hms k (hk ▸ List.mem_cons_self)
    obtain ⟨hwait₀, hqueries₀, hstep⟩ := step_of_start hm hwait
    rw [runAll_cons, runAll_cons, hstep]
    exact ⟨hwait₀, hqueries.trans hqueries₀, hrun⟩

/-- A wait for the start that begins changes nothing. -/
theorem beginStart_of_waiting {q : Query α} {bound bound' : Option Nat} {drain drain' : Bool}
    (hw : (c.beginStart h q bound' drain').1.waiting = some (.start h bound drain)) :
    (c.beginStart h q bound' drain').1 = { c with waiting := some (.start h bound drain) } := by
  have hbegins := c.beginsStart h q bound' drain'
  generalize c.beginStart h q bound' drain' = o at hbegins hw ⊢
  cases hbegins with
  | waits =>
    cases hw
    rfl
  | failed | done => cases hw
  | pulls =>
    -- there is nothing to wait for any more, at most answers
    have hpulls := c.beginsPull h q (.rest [])
    generalize c.beginPull h q (.rest []) = o at hpulls hw
    cases hpulls <;> cases hw

theorem call_of_start {bound : Option Nat} {drain : Bool} (hw : c.waiting = none)
    (hk : k = .start h bound ∨ k = .collect h bound)
    (hwait : (c.call k).1.waiting = some (.start h bound drain)) :
    (c.call k).1 = { c with waiting := some (.start h bound drain) } := by
  have hcall : c.call k = c.replying .noSuchHandle ∨
      ∃ q drain', c.call k = c.beginStart h q bound drain' := by
    cases hq : c.query? h with
    | none => exact .inl (by rcases hk with rfl | rfl <;> exact call_of_gone hw rfl hq)
    | some q =>
      refine .inr ⟨q, ?_⟩
      rcases hk with rfl | rfl
      · exact ⟨false, call_start hw hq bound⟩
      · exact ⟨true, call_collect hw hq bound⟩
  rcases hcall with hcall | ⟨q, drain', hcall⟩ <;> rw [hcall] at hwait ⊢
  · cases hwait
  · exact beginStart_of_waiting hwait

/-- What happens while a call waits for the start of a query happens as well without the call. -/
theorem runAll_of_call_start {ms : List (Move α)} (hw : c.waiting = none) {bound : Option Nat}
    {drain : Bool} (hk : k = .start h bound ∨ k = .collect h bound)
    (hms : ∀ k', Move.call k' ∉ ms)
    (hwait : (c.runAll (.call k :: ms)).1.waiting = some (.start h bound drain)) :
    (c.runAll ms).1 = { (c.runAll (.call k :: ms)).1 with waiting := none } ∧
      (c.runAll ms).1.queries = c.queries := by
  have hbegun := (runAll_of_start (c := (c.call k).1) hms hwait).1
  have hruns : (c.runAll (.call k :: ms)).1 =
      (runAll { c with waiting := some (.start h bound drain) } ms).1 := by
    rw [← call_of_start hw hk hbegun]
    rfl
  rw [hruns] at hwait ⊢
  obtain ⟨-, hqueries, hrun⟩ := runAll_of_start hms hwait
  have hidle : ({ c with waiting := none } : Client α) = c := by rw [← hw]
  dsimp only at hrun hqueries
  rw [hidle] at hrun
  exact ⟨hrun, (congrArg Client.queries hrun).trans hqueries⟩

/-- A wait for the start that ends with a timeout changes nothing but that nobody waits any more. -/
theorem Reachable.step_of_timeout (hc : c.Reachable) (hb : c.link.issued ≤ 2 ^ 64)
    {bound : Option Nat} {drain : Bool} (hw : c.waiting = some (.start h bound drain))
    (hr : (c.step m).2 = some (.failed .timeout)) :
    (m = .resume ∨ m = .expire) ∧ (c.step m).1 = { c with waiting := none } := by
  have hfinds {o : Outcome α} (ho : c.Finds o) (hr : o.2 = some (.failed .timeout)) :
      o.1 = { c with waiting := none } := by
    cases ho with
    | nothing => cases hr
    | @start q d r h' drain' hp bound' hw' hq =>
      obtain ⟨hd, -⟩ := hc.first_of_poll hb hq hw' hp
      have hhears := hearsStart { c with link := { c.link with router := r } } h' q drain' d
      generalize started { c with link := { c.link with router := r } } h' q drain' d = o at hhears hr
      cases hhears with
      | held | goesOn => cases hr
      | timedOut => exact absurd rfl hd
      | failed =>
        cases hr
        exact absurd rfl hd
    | errand e hp hw' | pull h' demand hp hw' | gaveUp e i hw' =>
      rw [hw] at hw'
      cases hw'
    | late => rfl
  cases m with
  | call k =>
    rw [show c.step (.call k) = (c, none) from call_of_waiting hw k] at hr
    cases hr
  | arrive | lose => cases hr
  | resume => exact ⟨.inl rfl, hfinds c.finds_resume hr⟩
  | expire => exact ⟨.inr rfl, hfinds c.finds_expire hr⟩

/-- A call that waits for the start of a query and ends with a timeout leaves the client as it is
without the call, and all queries as they are. -/
theorem Reachable.unmoved (hc : c.Reachable) (hw : c.waiting = none) {ms : List (Move α)}
    (hb : (c.runAll (.call k :: ms)).1.link.issued ≤ 2 ^ 64) {bound : Option Nat} {drain : Bool}
    (hk : k = .start h bound ∨ k = .collect h bound) (hms : ∀ k', Move.call k' ∉ ms)
    (hwait : (c.runAll (.call k :: ms)).1.waiting = some (.start h bound drain))
    (hr : ((c.runAll (.call k :: ms)).1.step m).2 = some (.failed .timeout)) :
    (c.runAll (.call k :: ms ++ [m])).1 = (c.runAll (ms ++ [m])).1 ∧
      (c.runAll (ms ++ [m])).1.queries = c.queries := by
  obtain ⟨hmove, hstep⟩ := (hc.runAll _).step_of_timeout hb hwait hr
  obtain ⟨hrun, hqueries⟩ := runAll_of_call_start hw hk hms hwait
  have hidle : ((c.runAll ms).1.step m).1 = (c.runAll ms).1 := by
    obtain ⟨hresume, hexpire⟩ := step_of_idle (c := (c.runAll ms).1) (by rw [hrun])
    rcases hmove with rfl | rfl
    · rw [hresume]
    · rw [hexpire]
  rw [runAll_append, runAll_append]
  exact ⟨hstep.trans (hrun.symm.trans hidle.symm), (congrArg Client.queries hidle).trans hqueries⟩

/-! ## What waits leave alone -/

/-- Looking at a query and waiting for its start do not disturb anything. Whatever came of them, any
of the looks may be left out of a run, and any of the waits if the caller does not ask for all the
answers of the query at once: then the same crosses the connection, all calls but the waits have the
same replies, and the queries have the same batch sizes. The calls on the query that are left look
for what a wait has found before them. A call that ends with a timeout, still waiting for a start,
leaves the client as it is without the call, and every query as it was. -/
theorem undisturbed (hc : c.Reachable) :
    (∀ (h : Handle) (ds : List (Doing α × Bool)),
      (c.runAll (moves (ds.map (·.1)))).1.link.issued ≤ 2 ^ 64 →
      (∀ bound bound', (.move (.call (.start h bound)), true) ∈ ds →
        .move (.call (.collect h bound')) ∉ ds.map (·.1)) →
      c.others h (moves (c.without h ds)) = c.others h (moves (ds.map (·.1))) ∧
      (c.runAll (moves (c.without h ds))).1.link.transcript =
        (c.runAll (moves (ds.map (·.1)))).1.link.transcript ∧
      ∀ h' : Handle, (c.runAll (moves (c.without h ds))).1.queries[h']?.map (·.batchSizes) =
        (c.runAll (moves (ds.map (·.1)))).1.queries[h']?.map (·.batchSizes)) ∧
    ∀ (h : Handle) (bound : Option Nat) (drain : Bool) (k : Call α) (ms : List (Move α))
      (m : Move α), c.waiting = none → (c.runAll (.call k :: ms)).1.link.issued ≤ 2 ^ 64 →
      k = .start h bound ∨ k = .collect h bound → (∀ k', Move.call k' ∉ ms) →
      (c.runAll (.call k :: ms)).1.waiting = some (.start h bound drain) →
      ((c.runAll (.call k :: ms)).1.step m).2 = some (.failed .timeout) →
      (c.runAll (.call k :: ms ++ [m])).1 = (c.runAll (ms ++ [m])).1 ∧
        (c.runAll (ms ++ [m])).1.queries = c.queries := by
  refine ⟨fun h ds hb hcollect => ?_, fun h bound drain k ms m hw hb hk hms hwait hr =>
    hc.unmoved hw hb hk hms hwait hr⟩
  have hapart : Apart h c c ds := by
    by_cases hstart : ∃ bound, (.move (.call (.start h bound)), true) ∈ ds
    · obtain ⟨bound, hstart⟩ := hstart
      refine .inl fun d hd bound' he => hcollect bound bound' hstart ?_
      rw [← he]
      exact List.mem_map_of_mem hd
    · exact .inr ⟨rfl, not_exists.1 hstart⟩
  obtain ⟨hl, hothers⟩ := Lags.same.without hc ds hb hapart
  exact ⟨hothers, hl.transcript, hl.batchSizes⟩

/-- A query is opened. -/
def oneQuery : List (Move Payload) :=
  [.call (.openSession "db" .data), .arrive ⟨1, .sessionOpened 7⟩, .resume,
    .call (.openTransaction 0 .read), .arrive ⟨2, .transactionOpened 9⟩, .resume,
    .call (.query 0 [113] {} Reader.raw)]

/-- It is looked at, and its start is waited for: in vain, and then with an answer. It is pulled to
its end, and looked at once more. -/
def waited : List (Doing Payload × Bool) :=
  [(.look 0, true), (.move (.call (.start 0 (some 5))), true), (.move .expire, false),
    (.move (.arrive ⟨3, .data [1]⟩), false), (.move (.call (.start 0 none)), true),
    (.move .resume, false), (.look 0, false), (.move (.call (.next 0)), false),
    (.move .resume, false), (.move (.arrive ⟨3, .item .completion⟩), false),
    (.move (.call (.next 0)), false), (.move .resume, false), (.look 0, true)]

theorem undisturbed_waited : ∃ c : Client Payload, c = ((new none).runAll oneQuery).1 ∧
    c.others 0 (moves (c.without 0 waited)) = [.answer (some [1]), .answer none] ∧
    (c.runAll (moves (c.without 0 waited))).1.queries[0]?.map (·.batchSizes) = some [1] ∧
    (c.runAll (moves (c.without 0 waited))).1.link.transcript =
      (c.runAll (moves (waited.map (·.1)))).1.link.transcript ∧
    (c.runAll [.call (.start 0 (some 5)), .resume, .expire]).1 =
      (c.runAll [.resume, .expire]).1 := by
  obtain ⟨c, hc⟩ : ∃ c : Client Payload, c = ((new none).runAll oneQuery).1 := ⟨_, rfl⟩
  have hfull : c.others 0 (moves (waited.map (·.1))) = [.answer (some [1]), .answer none] ∧
      (c.runAll (moves (waited.map (·.1)))).1.queries[0]?.map (·.batchSizes) = some [1] ∧
      (c.runAll (moves (waited.map (·.1)))).1.link.issued ≤ 2 ^ 64 := by
    rw [hc]
    decide +kernel
  have hlate : c.waiting = none ∧
      (c.runAll [.call (.start 0 (some 5)), .resume]).1.link.issued ≤ 2 ^ 64 ∧
      (c.runAll [.call (.start 0 (some 5)), .resume]).1.waiting = some (.start 0 (some 5) false) ∧
      ((c.runAll [.call (.start 0 (some 5)), .resume]).1.step .expire).2 =
        some (.failed .timeout) := by
    rw [hc]
    exact ⟨rfl, by decide +kernel, rfl, rfl⟩
  obtain ⟨hothers, hsizes, hb⟩ := hfull
  obtain ⟨hw, hb', hwait, hr⟩ := hlate
  obtain ⟨hruns, htimeout⟩ := undisturbed (c := c) ⟨none, oneQuery, hc⟩
  obtain ⟨hothers', htranscript, hsizes'⟩ := hruns 0 waited hb (by simp [waited])
  obtain ⟨hsame, -⟩ := htimeout 0 (some 5) false (.start 0 (some 5)) [.resume] .expire hw hb'
    (.inl rfl) (by simp) hwait hr
  exact ⟨c, hc, hothers'.trans hothers, (hsizes' 0).trans hsizes, htranscript, hsame⟩

end Client

end QueryLanes
