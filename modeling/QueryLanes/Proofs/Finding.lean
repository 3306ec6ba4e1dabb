import QueryLanes.Proofs.Progressing
import QueryLanes.Proofs.Restoring

/-!
# What a wait finds

A wait for the start of a query may find the first delivery, and then the query has noted it
(`Query.Noted`). With the delivery put back it is as if there had been no wait, and the next call on
the query finds it: `Client.resume_start_putBack` says so of a wait, `Client.resume_pull_putBack` of
a pull. Moves that do not concern the query leave it as it is (`Client.getElem?_step`).
-/

namespace QueryLanes

variable {α : Type}

/-! ## What a wait notes -/

namespace Query

variable {q : Query α} {d : Delivery}

/-- The query has noted a delivery that was waited for, and nothing else. -/
def Noted (q : Query α) : Delivery → Prop
  | .ok r => q.stash = some r ∧ q.progress = .streaming
  | .error e => q.stash = none ∧ q.progress = .failed e ∧ e ≠ .timeout

theorem putBack_hold (hp : q.progress = .pending) (hst : q.stash = none) (r : Response) :
    (q.hold r).putBack = q := by
  unfold hold putBack
  rw [← hp, ← hst]

theorem putBack_fail (hp : q.progress = .pending) (hst : q.stash = none) (e : Failure) :
    (q.fail e).putBack = q := by
  unfold fail putBack
  rw [← hp, ← hst]

theorem Noted.hold_putBack {r : Response} (h : q.Noted (.ok r)) : q.putBack.hold r = q := by
  unfold hold putBack
  rw [← h.1, ← h.2]

theorem Noted.fail_putBack {e : Failure} (h : q.Noted (.error e)) : q.putBack.fail e = q := by
  unfold fail putBack
  rw [← h.1, ← h.2.1]

/-- Where a query stands does not matter to what it makes of a response. -/
theorem consume_progress (q : Query α) (p : Progress) (r : Response) :
    { q with progress := p }.consume r = q.consume r := by
  cases r with
  | item i => cases hm : i.meaning <;> simp only [consume, hm] <;> rfl
  | _ => rfl

end Query

namespace Client

variable {c c' : Client α} {h : Handle} {q : Query α} {d : Delivery} {m : Move α}

/-! ## Moves that are not about the query -/

/-- Nobody waits, so nothing is looked for. -/
theorem step_of_idle (hw : c.waiting = none) :
    c.step .resume = (c, none) ∧ c.step .expire = (c, none) :=
  ⟨resume_of_idle hw, expire_of_idle hw⟩

/-- A move that does not concern the query leaves it as it is. -/
theorem getElem?_step (hq : c.queries[h]? = some q) (hm : c.concerns m h = false) :
    (c.step m).1.queries[h]? = some q := by
  rcases acts_step c m with ⟨f, rfl⟩ | hacts
  · exact hq
  · refine hacts.getElem?_queries ?_ hq
    show ¬ c.concerns m h = true
    simp [hm]

/-- No call waits for the query, and none that waits looks into its inbox. -/
theorem Sound.aloof (hc : c.Sound) (hq : c.queries[h]? = some q) (hw : c.waitsOn h = false) :
    c.Aloof h q.inbox where
  query h' p hp := by
    have hne : h' ≠ h := by
      rw [waitsOn_pause hp] at hw
      exact of_decide_eq_false hw
    obtain ⟨q', hq'⟩ := hc.waiting h' p hp
    exact ⟨hne, q', hq', (hc.apart h' h q' q hq' hq hne).2⟩
  errand e j he := (hc.errand e j he).apart h q hq |>.2.symm

/-! ## What is found -/

theorem Reachable.isSome_inbox? (hc : c.Reachable) (hb : c.link.issued ≤ 2 ^ 64)
    (hq : c.queries[h]? = some q) (hheld : q.held = true) :
    (c.link.router.inbox? q.inbox).isSome = true := by
  obtain ⟨done, w, read, rest, hs⟩ := hc.stands hb hq
  exact hs.inbox.trans hheld

/-- A look for the start finds the first delivery of the inbox, which is no timeout. -/
theorem Reachable.first_of_poll (hc : c.Reachable) (hb : c.link.issued ≤ 2 ^ 64)
    (hq : c.queries[h]? = some q) {bound : Option Nat} {drain : Bool}
    (hw : c.waiting = some (.start h bound drain)) {r : Router}
    (hp : c.link.router.poll q.inbox = some (d, r)) :
    d ≠ .error .timeout ∧ q.progress = .pending ∧ q.stash = none ∧
      ∃ b rest, c.link.router.inbox? q.inbox = some b ∧ b.queue = d :: rest := by
  obtain ⟨done, w, read, rest, hs⟩ := hc.stands hb hq
  have hline := ((hc.sound hb).wired h q hq).line_poll (hc.sound hb).link
  rw [hp] at hline
  have hwait : (c.soloOf h q).waiting = some (.start bound drain) := by
    rw [soloOf, hw]
    simp [Wait.on]
  obtain ⟨hheld, hpend⟩ := hs.waiting _ hwait
  have hover : (c.soloOf h q).query.progress.isOver = false := by rw [hpend]; rfl
  have hst := (hs.pending hpend).2.2
  have hfound := hs.linePoll hheld hover hst hline
  refine ⟨hfound.ne_timeout hheld hover, hpend, hst, ?_⟩
  obtain ⟨b, hbox, ⟨queue, hqueue, -⟩ | ⟨hqueue, -, -, rfl⟩⟩ := Link.poll_cases hp
  · exact ⟨b, queue, hbox, hqueue⟩
  · -- with nothing in the inbox there was nothing ahead, and now there is
    have hahead : q.unnumbered.ahead (c.link.router.inbox? q.inbox) =
      d :: q.unnumbered.ahead (c.link.router.inbox? q.inbox) :=
      (hs.ahead hheld).trans (hfound.ahead hheld).symm
    simpa using congrArg List.length hahead

/-- A wait for the start finds nothing, or a delivery that the query notes; put back, it is as if
there had been no wait. -/
theorem Reachable.resume_of_start (hc : c.Reachable) (hb : c.link.issued ≤ 2 ^ 64)
    {bound : Option Nat} (hw : c.waiting = some (.start h bound false)) :
    c.resume = (c, none) ∨ ∃ q d, c.resume.1.queries[h]? = some q ∧ q.Noted d ∧
      c.resume.1.putBack h q.inbox d = { c with waiting := none } := by
  obtain ⟨q, hq⟩ := (hc.sound hb).waiting h (.start bound false) hw
  rw [resume_start hw hq]
  cases hp : c.link.router.poll q.inbox with
  | none => exact .inl rfl
  | some dr =>
    obtain ⟨d, r⟩ := dr
    right
    obtain ⟨hd, hpend, hst, b, rest, hbox, hqueue⟩ := hc.first_of_poll hb hq hw hp
    have hself (q' : Query α) : (c.queries.set h q')[h]? = some q' :=
      List.getElem?_set_self (List.getElem?_eq_some_iff.1 hq).1
    have hback {q' : Query α} (hq' : q'.putBack = q) :
        { c with
          link := { c.link with router := r.putBack q.inbox d }
          queries := (c.queries.set h q').modify h Query.putBack
          waiting := none } = { c with waiting := none } := by
      rw [Router.putBack_poll hbox hqueue hp, modify_set_self hq hq']
    cases d with
    | ok response =>
      exact ⟨q.hold response, .ok response, hself _, ⟨rfl, rfl⟩,
        hback (Query.putBack_hold hpend hst response)⟩
    | error e =>
      have hstart : started { c with link := { c.link with router := r } } h q false (.error e) =
          replying ({ c with link := { c.link with router := r } }.setQuery h (q.fail e))
            (.failed e) := by
        cases e <;> first | rfl | exact absurd rfl hd
      dsimp only
      rw [hstart]
      exact ⟨q.fail e, .error e, hself _, ⟨hst, rfl, fun he => hd (he ▸ rfl)⟩,
        hback (Query.putBack_fail hpend hst e)⟩

/-! ## Finding it later -/

section

variable (c : Client α) (h : Handle) (f : Query α → Query α)

/-- What is written over does not matter. -/
theorem setQuery_modify (q : Query α) :
    ({ c with queries := c.queries.modify h f } : Client α).setQuery h q = c.setQuery h q := by
  unfold setQuery
  dsimp only
  rw [set_modify]

theorem failing_modify (q : Query α) (demand : Demand α) (e : Failure) :
    failing { c with queries := c.queries.modify h f } h q demand e = c.failing h q demand e := by
  rw [failing_eq, failing_eq, setQuery_modify]

theorem fetchMore_modify (q : Query α) (token : UInt64) (demand : Demand α) :
    fetchMore { c with queries := c.queries.modify h f } h q token demand =
      c.fetchMore h q token demand := by
  unfold fetchMore
  dsimp only
  split
  · unfold setQuery
    dsimp only
    rw [set_modify]
  · rename_i e l _
    exact failing_modify { c with link := l } h f ..

theorem pulled_modify (q : Query α) (demand : Demand α) (d : Delivery) :
    pulled { c with queries := c.queries.modify h f } h q demand d = c.pulled h q demand d := by
  unfold pulled
  split
  · exact failing_modify ..
  · split
    · rw [setQuery_modify]
    · exact failing_modify ..
    · exact fetchMore_modify ..
    · rw [setQuery_modify]
    · exact failing_modify ..

theorem started_modify (q : Query α) {d : Delivery} (hd : d ≠ .error .timeout) :
    started { c with queries := c.queries.modify h f } h q false d = c.started h q false d := by
  unfold started
  split
  · rw [setQuery_modify]
  · exact absurd rfl hd
  · rw [setQuery_modify]

end

theorem getElem?_putBack (hq : c.queries[h]? = some q) (i : Nat) (d : Delivery) :
    (c.putBack h i d).queries[h]? = some q.putBack := by
  unfold putBack
  rw [List.getElem?_modify_eq, hq]
  rfl

theorem setQuery_self (hq : c.queries[h]? = some q) : c.setQuery h q = c := by
  unfold setQuery
  rw [set_of_getElem? hq]

section

variable (hq : c.queries[h]? = some q) (hd : q.Noted d)
  (hbox : (c.link.router.inbox? q.inbox).isSome = true)

include hq hd hbox

/-- The look of a wait for the start finds what an earlier wait has found, and so has the reply that
is had without a look after that wait. -/
theorem resume_start_putBack {bound : Option Nat} (hw : c.waiting = some (.start h bound false)) :
    (c.putBack h q.inbox d).resume = c.beginStart h q bound false := by
  have hresume : (c.putBack h q.inbox d).resume =
      started { c with queries := c.queries.modify h Query.putBack } h q.putBack false d := by
    rw [resume_start (c := c.putBack h q.inbox d) hw (getElem?_putBack hq q.inbox d)]
    rw [show (c.putBack h q.inbox d).link.router = c.link.router.putBack q.inbox d from rfl,
      show q.putBack.inbox = q.inbox from rfl, Router.poll_putBack_self hbox]
    rfl
  rw [hresume]
  cases d with
  | ok r =>
    rw [started_modify c h _ _ (d := .ok r) nofun]
    show (c.setQuery h (q.putBack.hold r)).replying .done = _
    rw [hd.hold_putBack, setQuery_self hq, beginStart_of_streaming hd.2]
  | error e =>
    obtain ⟨-, hp, he⟩ := id hd
    rw [started_modify _ _ _ _ fun h => he (Except.error.inj h)]
    have hstart : c.started h q.putBack false (.error e) =
        (c.setQuery h (q.putBack.fail e)).replying (.failed e) := by
      cases e <;> first | rfl | exact absurd rfl he
    rw [hstart, hd.fail_putBack, setQuery_self hq, beginStart_of_failed hp]

end

section

variable (hq : c.queries[h]? = some q) (hbox : (c.link.router.inbox? q.inbox).isSome = true)
  {demand : Demand α} (hw : c.waiting = some (.pull h demand))

include hq hbox hw

theorem resume_pull_putBack :
    (c.putBack h q.inbox d).resume = c.pulled h q.putBack demand d := by
  rw [resume_pull (c := c.putBack h q.inbox d) hw (getElem?_putBack hq q.inbox d)]
  have hpoll : q.putBack.poll (c.link.router.putBack q.inbox d) =
      some (d, q.putBack, c.link.router) := by
    show ((c.link.router.putBack q.inbox d).poll q.inbox).map _ = _
    rw [Router.poll_putBack_self hbox]
    rfl
  rw [show (c.putBack h q.inbox d).link.router = c.link.router.putBack q.inbox d from rfl, hpoll]
  exact pulled_modify c h Query.putBack ..

/-- A pull reports the failure that a wait has found, as the query does that has noted it. -/
theorem resume_pull_putBack_error {e : Failure} (hd : q.Noted (.error e)) :
    (c.putBack h q.inbox (.error e)).resume = c.failing h q demand e := by
  rw [resume_pull_putBack hq hbox hw]
  show c.failing h (q.putBack.fail e) demand e = _
  rw [hd.fail_putBack]

variable {r : Response} (hd : q.Noted (.ok r))

include hd

/-- A pull finds in the inbox the response that a wait has found, or else in the query. -/
theorem resume_pull_putBack_ok : (c.putBack h q.inbox (.ok r)).resume = c.resume := by
  have hpoll : q.poll c.link.router = some (.ok r, { q with stash := none }, c.link.router) := by
    unfold Query.poll
    rw [hd.1]
  rw [resume_pull_putBack hq hbox hw, resume_pull hw hq, hpoll]
  show c.pulled h q.putBack demand (.ok r) = c.pulled h { q with stash := none } demand (.ok r)
  unfold pulled
  dsimp only
  rw [show q.putBack.consume r = Query.consume { q with stash := none } r from
    Query.consume_progress { q with stash := none } .pending r]

/-- At the end of its time the pull has found it. -/
theorem expire_pull_putBack_ok : (c.putBack h q.inbox (.ok r)).expire = c.expire := by
  have hready : c.isReady = true := by
    unfold isReady Query.poll
    rw [hw]
    dsimp only
    rw [hq, Option.any_some, hd.1]
    rfl
  have hready' : (c.putBack h q.inbox (.ok r)).isReady = true := by
    unfold isReady
    rw [show (c.putBack h q.inbox (.ok r)).waiting = c.waiting from rfl, hw]
    dsimp only
    rw [getElem?_putBack hq, Option.any_some]
    show (((c.link.router.putBack q.inbox (.ok r)).poll q.inbox).map _).isSome = true
    rw [Router.poll_putBack_self hbox]
    rfl
  rw [expire_of_isReady hready, expire_of_isReady hready']
  exact resume_pull_putBack_ok hq hbox hw hd

end

end Client

end QueryLanes
