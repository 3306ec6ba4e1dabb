import QueryLanes.Proofs.Paging

/-!
# Dialogues

A client and the pager of one of its queries take turns, in any order and with anything else that
the client does in between: what the client sends on the lane of the query the pager answers, and
what the pager has ready arrives one response at a time.

`Dialogue.Pages` holds from the call that opens the query, `Dialogue.Pages.opening`, and through
every run of turns, `Dialogue.Pages.run`.
-/

namespace QueryLanes

variable {α : Type}

/-- A client, and the server of the query on one lane. -/
structure Dialogue (α : Type) where
  client : Client α
  lane : Lane
  pager : Pager

namespace Dialogue

/-- What happens next in a dialogue. -/
inductive Turn (α : Type) where
  /-- The next response that is on the way arrives. -/
  | serve
  | move (m : Move α)

/-- The client moves, and the pager answers what it has sent on the lane. -/
def move (d : Dialogue α) (m : Move α) : Dialogue α × Option (Reply α) :=
  let (c, reply) := d.client.step m
  let asked := (c.link.frames d.lane).drop (d.client.link.frames d.lane).length
  ({ d with client := c, pager := d.pager.answerAll asked }, reply)

/-- The pager alone is heard on its lane. -/
def turn (d : Dialogue α) : Turn α → Dialogue α × Option (Reply α)
  | .serve => match d.pager.outbox with
    | [] => (d, none)
    | r :: out => move { d with pager := { d.pager with outbox := out } } (.arrive ⟨d.lane, r⟩)
  | .move (.arrive f) => if f.lane = d.lane then (d, none) else d.move (.arrive f)
  | .move m => d.move m

/-- Turns one after the other, and the replies that the caller gets. -/
def run (d : Dialogue α) : List (Turn α) → Dialogue α × List (Reply α)
  | [] => (d, [])
  | u :: us =>
    let (d, reply) := d.turn u
    let (d, replies) := d.run us
    (d, reply.toList ++ replies)

/-- Before its query is opened, the pager has the lane that is given out next. -/
def ahead (c : Client α) (p : Pager) : Dialogue α := ⟨c, c.link.nextLane, p⟩

variable {d : Dialogue α} {h : Handle} {s : Solo α} {p : Pager} {m : Move α} {u : Turn α}
  {us us' : List (Turn α)} {ps : List Payload} {b : BatchSize}

theorem run_cons (d : Dialogue α) (u : Turn α) (us : List (Turn α)) :
    d.run (u :: us) =
      (((d.turn u).1.run us).1, (d.turn u).2.toList ++ ((d.turn u).1.run us).2) := rfl

theorem run_append (d : Dialogue α) (us us' : List (Turn α)) :
    d.run (us ++ us') = (((d.run us).1.run us').1, (d.run us).2 ++ ((d.run us).1.run us').2) := by
  induction us generalizing d with
  | nil => rfl
  | cons u us ih =>
    rw [List.cons_append, run_cons, run_cons, ih]
    simp

theorem issued_turn (d : Dialogue α) (u : Turn α) :
    d.client.link.issued ≤ (d.turn u).1.client.link.issued := by
  have hmove (m : Move α) (p : Pager) : d.client.link.issued ≤
      (move { d with pager := p } m).1.client.link.issued := Client.issued_step d.client m
  unfold turn
  split
  · split
    · exact Nat.le_refl _
    · exact hmove ..
  · split
    · exact Nat.le_refl _
    · exact hmove _ d.pager
  · exact hmove _ d.pager

theorem issued_run (d : Dialogue α) (us : List (Turn α)) :
    d.client.link.issued ≤ (d.run us).1.client.link.issued := by
  induction us generalizing d with
  | nil => exact Nat.le_refl _
  | cons u us ih => exact Nat.le_trans (d.issued_turn u) (ih _)

theorem lane_turn (d : Dialogue α) (u : Turn α) : (d.turn u).1.lane = d.lane := by
  unfold turn
  split
  · split <;> rfl
  · split <;> rfl
  · rfl

theorem lane_run (d : Dialogue α) (us : List (Turn α)) : (d.run us).1.lane = d.lane := by
  induction us generalizing d with
  | nil => rfl
  | cons u us ih => exact (ih _).trans (d.lane_turn u)

/-! ## One query of the client -/

/-- The pager and the query at a place, which has the lane, by themselves. -/
structure At (d : Dialogue α) (h : Handle) (s : Solo α) (p : Pager) : Prop where
  sound : d.client.Sound
  query : ∃ q, d.client.queries[h]? = some q ∧ q.lane = d.lane ∧ d.client.soloOf h q = s
  pager : d.pager = p

theorem asked_eq {c c' : Client α} {q q' : Query α} {lane : Lane} (hq : q.lane = lane)
    (hq' : q'.lane = lane) : (c'.link.frames lane).drop (c.link.frames lane).length =
      (c.soloOf h q).news (c'.soloOf h q') := by
  subst hq
  rw [Link.frames_eq, Link.frames_eq, List.length_map, Solo.news]
  show _ = ((c'.link.waves q'.lane).map _).drop (c.link.waves q.lane).length
  rw [hq']

/-- A move is for the query and the pager what the acts are that it means. -/
theorem At.move (hd : d.At h s p) (hb : (d.move m).1.client.link.issued ≤ 2 ^ 64) :
    ∃ q, d.client.queries[h]? = some q ∧ q.lane = d.lane ∧
      (d.move m).1.At h (s.acts (d.client.acts m h q)).1
        (p.answerAll (s.news (s.acts (d.client.acts m h q)).1)) := by
  obtain ⟨q, hq, hlane, rfl⟩ := hd.query
  have hstep := hd.sound.step m hb
  obtain ⟨q', hq', hlane', -, hacts⟩ := hstep.solo h q hq
  have hsolo : (d.client.step m).1.soloOf h q' =
      ((d.client.soloOf h q).acts (d.client.acts m h q)).1 := (congrArg Prod.fst hacts).symm
  refine ⟨q, hq, hlane, hstep.sound, ⟨q', hq', hlane'.trans hlane, hsolo⟩, ?_⟩
  rw [← hsolo, ← asked_eq hlane (hlane'.trans hlane), ← hd.pager]
  rfl

/-- The query has its batches of the payloads from the pager. -/
def Pages (d : Dialogue α) (h : Handle) (ps : List Payload) (b : BatchSize) : Prop :=
  ∃ s p, d.At h s p ∧ s.Pages ps b p

theorem heard_of_mem_acts {c : Client α} {q : Query α} {a : Act} (ha : a ∈ c.acts m h q)
    (hm : ∀ f, m = .arrive f → f.lane ≠ q.lane) (r : Response) : a ≠ .heard r := by
  rintro rfl
  rcases List.mem_append.1 ha with ha | ha
  · cases m with
    | call k =>
      simp only [Client.ownActs] at ha
      split at ha
      · split at ha <;> simp at ha
      · cases ha
    | arrive f =>
      rw [Client.ownActs, if_neg (hm f rfl)] at ha
      cases ha
    | lose => cases ha
    | resume =>
      simp only [Client.ownActs] at ha
      split at ha <;> simp at ha
    | expire =>
      simp only [Client.ownActs] at ha
      split at ha
      · split at ha
        · simp at ha
        · split at ha <;> simp at ha
      · cases ha
  · rcases Client.mem_ends ha with h | h | h <;> cases h

theorem Pages.move (hd : d.Pages h ps b) (hm : ∀ f, m = .arrive f → f.lane ≠ d.lane)
    (hb : (d.move m).1.client.link.issued ≤ 2 ^ 64) : (d.move m).1.Pages h ps b := by
  obtain ⟨s, p, hat, hs⟩ := hd
  obtain ⟨q, -, hlane, hat'⟩ := hat.move hb
  exact ⟨_, _, hat', hs.acts fun a ha => heard_of_mem_acts ha (hlane ▸ hm)⟩

/-- The next response is heard by the query, and whatever else it comes to ends no batch. -/
theorem At.serve {r : Response} {out : List Response} (hd : d.At h s p) (hout : p.outbox = r :: out)
    (hb : (d.turn .serve).1.client.link.issued ≤ 2 ^ 64) :
    (d.turn .serve).2 = none ∧
      (d.turn .serve).1.At h (s.act (.heard r)).1 { p with outbox := out } := by
  obtain rfl := hd.pager
  have hturn : d.turn .serve =
      Dialogue.move { d with pager := { d.pager with outbox := out } } (.arrive ⟨d.lane, r⟩) := by
    unfold turn
    dsimp only
    rw [hout]
  have hserved : At { d with pager := { d.pager with outbox := out } } h s
      { d.pager with outbox := out } := ⟨hd.sound, hd.query, rfl⟩
  rw [hturn] at hb ⊢
  obtain ⟨q, hq, hlane, hat⟩ := hserved.move hb
  have hacts : d.client.acts (.arrive ⟨d.lane, r⟩) h q = [.heard r] := by
    rw [Client.acts, Client.ownActs, if_pos (show d.lane = q.lane from hlane.symm)]
    refine congrArg _ (Client.ends_of_same ?_ ?_ ?_ _)
    · rfl
    · rfl
    · exact Client.isOpen_receive ..
  have hnews : s.news (s.act (.heard r)).1 = [] := by
    refine Solo.news_eq ?_
    rw [List.append_nil]
    exact s.line.map_request_hear r
  rw [hacts, show (s.acts [.heard r]).1 = (s.act (.heard r)).1 from rfl, hnews] at hat
  exact ⟨rfl, hat⟩

/-- Nothing is on the way. -/
theorem At.idle (hd : d.At h s p) (hout : p.outbox = []) : d.turn .serve = (d, none) := by
  unfold turn
  dsimp only
  rw [hd.pager, hout]

theorem Pages.turn (hd : d.Pages h ps b) (hb : (d.turn u).1.client.link.issued ≤ 2 ^ 64) :
    (d.turn u).1.Pages h ps b := by
  cases u with
  | serve =>
    obtain ⟨s, p, hat, hs⟩ := hd
    cases hout : p.outbox with
    | nil =>
      rw [hat.idle hout]
      exact ⟨s, p, hat, hs⟩
    | cons r out => exact ⟨_, _, (hat.serve hout hb).2, hs.heard hout⟩
  | move m =>
    cases m with
    | arrive f =>
      unfold Dialogue.turn at hb ⊢
      dsimp only at hb ⊢
      split at hb
      · rename_i hl
        rwa [if_pos hl]
      · rename_i hl
        rw [if_neg hl]
        exact hd.move (fun f' hf => by cases hf; exact hl) hb
    | _ => exact hd.move nofun hb

theorem Pages.run (hd : d.Pages h ps b) (hb : (d.run us).1.client.link.issued ≤ 2 ^ 64) :
    (d.run us).1.Pages h ps b := by
  induction us generalizing d with
  | nil => exact hd
  | cons u us ih => exact ih (hd.turn (Nat.le_trans (issued_run _ us) hb)) hb

/-- A query that is exhausted has read all payloads, in the batches that they make, and has sent one
request for each of them. -/
theorem Pages.exhausted (hd : d.Pages h ps b) {q : Query α} (hq : d.client.queries[h]? = some q)
    (hp : q.progress = .exhausted) : q.handed = ps ∧ q.batchSizes = b.chunks ps.length ∧
      (d.client.link.frames d.lane).length = b.batches ps.length := by
  obtain ⟨s, p, hat, hs⟩ := hd
  obtain ⟨q', hq', hlane, rfl⟩ := hat.query
  rw [hq] at hq'
  cases hq'
  obtain ⟨hhanded, hsizes, hwaves⟩ := hs.exhausted hp
  refine ⟨hhanded, hsizes, ?_⟩
  rw [← hlane, Link.frames_eq, List.length_map]
  exact hwaves

/-! ## Opening -/

/-- A query that is opened has sent its first request on the lane that was given out for it. -/
theorem opened_eq {c : Client α} (hc : c.Sound) {t : Handle} {text : Payload}
    {options : QueryOptions} {reader : Reader α}
    (hr : (c.call (.query t text options reader)).2 = some (.opened h)) :
    ∃ x, c.transaction? t = some x ∧ options.validate = .ok () ∧ c.ensureOpen x = .ok () ∧
      h = c.queries.length ∧ c.call (.query t text options reader) =
        (c.withQuery x.owner x.id text options reader, some (.opened h)) := by
  cases hw : c.waiting with
  | some w =>
    rw [Client.call_of_waiting hw] at hr
    cases hr
  | none =>
    cases hx : c.transaction? t with
    | none =>
      rw [Client.call_of_no_transaction hw rfl hx] at hr
      cases hr
    | some x =>
      rw [Client.call_query hw hx] at hr ⊢
      rcases Client.openQuery_cases hc.link x text options reader with ⟨e, ho, -⟩ | ⟨hv, he, ho⟩
      · rw [ho] at hr
        cases hr
      · rw [ho] at hr ⊢
        cases hr
        exact ⟨x, rfl, hv, he, rfl, rfl⟩

/-- The call that opens a query begins its dialogue: the first request is answered. -/
theorem Pages.opening {c : Client α} (hc : c.Sound) {t : Handle} {text : Payload}
    {options : QueryOptions} {reader : Reader α} (hout : p.outbox = [])
    {o : Dialogue α × Option (Reply α)}
    (ho : o = (ahead c p).move (.call (.query t text options reader)))
    (hr : o.2 = some (.opened h)) (hb : o.1.client.link.issued ≤ 2 ^ 64) :
    ∃ x, c.transaction? t = some x ∧ o.1.client.waiting = none ∧
      o.1.At h (.opening x.id text options reader) (p.answer (.fetch x.id (.first text options))) ∧
      (Solo.opening x.id text options reader).Pages p.left options.batchSize
        (p.answer (.fetch x.id (.first text options))) := by
  subst ho
  obtain ⟨x, hx, hv, he, rfl, hcall⟩ := opened_eq hc hr
  have hopen := (Client.ensureOpen_eq_ok.1 he).1
  have hclient : ((ahead c p).move (.call (.query t text options reader))).1.client =
      c.withQuery x.owner x.id text options reader := congrArg Prod.fst hcall
  rw [hclient] at hb
  obtain ⟨hsound, hnew⟩ := hc.withQuery hopen x.owner x.id text options reader hb
  obtain ⟨q, hq⟩ : ∃ q, (c.withQuery x.owner x.id text options reader).queries[c.queries.length]? =
      some q := ⟨_, List.getElem?_concat_length⟩
  obtain ⟨hlane, -, hsolo⟩ := hnew q hq
  have hissued : (c.withQuery x.owner x.id text options reader).link.issued =
      c.link.issued + 1 := Link.issued_request ..
  have hunissued : ¬ c.link.Issued c.link.nextLane :=
    Link.not_issued_of_le (Nat.le_refl _) (by omega)
  -- nothing was sent on the lane before, so the pager is asked for the first batch alone
  have hsilent : c.link.frames c.link.nextLane = [] := by
    rw [Link.frames_eq, hc.link.unissued _ hunissued]
    rfl
  have hfirst : (c.withQuery x.owner x.id text options reader).link.frames c.link.nextLane =
      [.fetch x.id (.first text options)] := by
    rw [Link.frames_eq, ← hlane]
    exact congrArg (fun s : Solo α => s.line.waves.map (·.request)) hsolo
  have hquery : ∃ q, ((ahead c p).move (.call (.query t text options reader))).1.client.queries[
      c.queries.length]? = some q ∧ q.lane = c.link.nextLane ∧
        ((ahead c p).move (.call (.query t text options reader))).1.client.soloOf c.queries.length q =
          .opening x.id text options reader := by
    rw [hclient]
    exact ⟨q, hq, hlane, hsolo⟩
  refine ⟨x, hx, by rw [hclient]; rfl, ⟨hclient ▸ hsound, hquery, ?_⟩,
    .opening x.id text options reader, Solo.accounts_opening x.id text options reader, ?_, rfl,
    QueryOptions.validate_eq_ok.1 hv⟩
  · unfold Dialogue.move ahead
    dsimp only
    rw [show c.step (.call (.query t text options reader)) = _ from hcall, hsilent, hfirst]
    rfl
  · have hroomy := QueryOptions.validate_eq_ok.1 hv
    exact ⟨[], _, _, rfl, .answer hout (List.nil_append _) (fun _ hv => absurd hv List.not_mem_nil)
      (absurd rfl) hroomy x.id rfl⟩

end Dialogue

end QueryLanes
