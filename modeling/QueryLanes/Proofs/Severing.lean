import QueryLanes.Proofs.Lasting
import QueryLanes.Proofs.Parting
import QueryLanes.Proofs.Remaining

/-!
# Severing

What the end of a transaction or a session does to queries. The requests that are going on in it
fail, all at once, and nothing else is touched: a query opened in it that has nothing going on stays
as it is, and so does every query opened elsewhere.

The server's numbers decide whose requests fail, so it is assumed that no two sessions and no two
transactions have the same one. `Client.parents` says where each query was opened by what was called,
and `Filed` that the numbers agree with it. `Client.severed` is the main theorem.
-/

namespace QueryLanes

variable {α : Type}

/-- What is reported by the requests that fail with the end. -/
def Parent.failure : Parent → Failure
  | .session _ => .sessionClosed
  | .transaction _ => .transactionClosed

/-- What a call ends at once: it closes or drops it. -/
def Call.severs? : Call α → Option Parent
  | .closeSession s | .dropSession s => some (.session s)
  | .closeTransaction t | .dropTransaction t => some (.transaction t)
  | _ => none

namespace Client

variable {c c' : Client α} {m : Move α} {p : Parent} {h t : Handle} {q : Query α} {ts : List Handle}

/-- Whether the caller has the session or the transaction. -/
def hasParent (c : Client α) : Parent → Bool
  | .session s => (c.session? s).isSome
  | .transaction t => (c.transaction? t).isSome

/-- Whether the transaction at the place `t` is `p`, or was opened in it. -/
def covers (c : Client α) (p : Parent) (t : Handle) : Bool :=
  match p with
  | .session s => c.transactions[t]?.any (·.session == s)
  | .transaction t' => t' == t

/-- The transaction through which a move opens a query. -/
def opensThrough? (c : Client α) (m : Move α) : Option Handle :=
  match m with
  | .call (.query t _ _ _) =>
    if c.queries.length < (c.step m).1.queries.length then some t else none
  | _ => none

/-- The transactions through which the queries of a run were opened, in the order of the queries. -/
def parents (c : Client α) (ms : List (Move α)) : List Handle :=
  (c.trace ms).filterMap fun p => p.1.opensThrough? p.2

/-! ## Where queries were opened -/

/-- The query at each place was opened through the transaction at that place of `ts`. -/
structure Filed (c : Client α) (ts : List Handle) : Prop where
  length : ts.length = c.queries.length
  owner : ∀ (h : Handle) q t, c.queries[h]? = some q → ts[h]? = some t →
    ∃ x, c.transactions[t]? = some x ∧ q.owner = x.owner

theorem Stepped.length_le {o : Outcome α} (ho : c.Stepped m o) :
    c.queries.length ≤ o.1.queries.length := by
  by_contra hlt
  have hq := List.getElem?_eq_getElem (Nat.lt_of_not_le hlt)
  obtain ⟨q', hq', -⟩ := ho.solo _ _ hq
  exact Nat.lt_irrefl _ (List.getElem?_eq_some_iff.1 hq').1

/-- What a move opens is one query, in the place after all others. -/
theorem Stepped.opensThrough? (ho : c.Stepped m (c.step m)) :
    (c.opensThrough? m = none ∧ (c.step m).1.queries.length = c.queries.length) ∨
    ∃ t q x, c.opensThrough? m = some t ∧
      (c.step m).1.queries.length = c.queries.length + 1 ∧
      (c.step m).1.queries[c.queries.length]? = some q ∧ c.transaction? t = some x ∧
      q.owner = x.owner := by
  rcases Nat.lt_or_eq_of_le ho.length_le with hlt | heq
  · have hq := List.getElem?_eq_getElem hlt
    have hn : c.queries[c.queries.length]? = none := List.getElem?_eq_none (Nat.le_refl _)
    obtain ⟨t, text, options, reader, x, rfl, -, hx, -, -, -, -, howner, -⟩ := ho.opened _ _ hq hn
    refine .inr ⟨t, _, x, if_pos hlt, Nat.le_antisymm (Nat.not_lt.1 fun hmore => ?_) hlt, hq, hx,
      howner⟩
    -- a second new query would have the place of the first
    have hn' : c.queries[c.queries.length + 1]? = none := List.getElem?_eq_none (Nat.le_succ _)
    obtain ⟨-, -, -, -, -, -, -, -, -, -, hplace, -⟩ :=
      ho.opened _ _ (List.getElem?_eq_getElem hmore) hn'
    exact Nat.succ_ne_self _ hplace
  · refine .inl ⟨?_, heq.symm⟩
    unfold Client.opensThrough?
    split
    · exact if_neg (by rw [heq]; exact Nat.lt_irrefl _)
    · rfl

theorem Filed.step (hf : c.Filed ts) (ho : c.Stepped m (c.step m)) :
    (c.step m).1.Filed (ts ++ (c.opensThrough? m).toList) := by
  have hages := ages_step c m
  have hold : ∀ (h : Handle) q' t, h < ts.length → (c.step m).1.queries[h]? = some q' →
      ts[h]? = some t → ∃ x, (c.step m).1.transactions[t]? = some x ∧ q'.owner = x.owner := by
    intro h q' t hlt hq' ht
    have hq := List.getElem?_eq_getElem (hf.length ▸ hlt)
    obtain ⟨x, hx, hown⟩ := hf.owner _ _ _ hq ht
    obtain ⟨x', hx', -, hown', -⟩ := hages.transactions t x hx
    obtain ⟨q₁, hq₁, -, hkeep, -⟩ := ho.solo _ _ hq
    rw [hq'] at hq₁
    cases hq₁
    exact ⟨x', hx', hkeep.trans (hown.trans hown'.symm)⟩
  rcases ho.opensThrough? with ⟨hnone, hlen⟩ | ⟨t₁, q₁, x, hsome, hlen, hq₁, hx, howner⟩
  · rw [hnone, Option.toList_none, List.append_nil]
    refine ⟨hf.length.trans hlen.symm, fun h q' t hq' ht => ?_⟩
    exact hold h q' t (List.getElem?_eq_some_iff.1 ht).1 hq' ht
  · rw [hsome, Option.toList_some]
    refine ⟨by rw [List.length_append, hf.length, hlen]; rfl, fun h q' t hq' ht => ?_⟩
    by_cases hlt : h < ts.length
    · rw [List.getElem?_append_left hlt] at ht
      exact hold h q' t hlt hq' ht
    · obtain ⟨hh, htt⟩ : h = ts.length ∧ t = t₁ := by
        have hbound := (List.getElem?_eq_some_iff.1 ht).1
        have hh : h = ts.length := by
          rw [List.length_append, List.length_singleton] at hbound
          exact Nat.le_antisymm (Nat.le_of_lt_succ hbound) (Nat.not_lt.1 hlt)
        rw [hh, List.getElem?_concat_length] at ht
        exact ⟨hh, (Option.some.inj ht).symm⟩
      rw [hh, hf.length, hq₁] at hq'
      cases hq'
      obtain ⟨x', hx', -, hown', -⟩ := hages.transactions t₁ x (getElem?_of_transaction? hx)
      exact ⟨x', htt ▸ hx', howner.trans hown'.symm⟩

theorem Filed.runAll (hf : c.Filed ts) (hc : c.Sound) {ms : List (Move α)}
    (hb : (c.runAll ms).1.link.issued ≤ 2 ^ 64) : (c.runAll ms).1.Filed (ts ++ c.parents ms) := by
  induction ms generalizing c ts with
  | nil => rwa [show c.parents [] = [] from rfl, List.append_nil]
  | cons m ms ih =>
    rw [runAll_cons] at hb ⊢
    have hstep := hc.step m (Nat.le_trans (issued_runAll _ ms) hb)
    have hlast := ih (hf.step hstep) hstep.sound hb
    have hparents : c.parents (m :: ms) =
        (c.opensThrough? m).toList ++ (c.step m).1.parents ms := by
      unfold parents
      rw [trace, List.filterMap_cons]
      cases c.opensThrough? m <;> rfl
    rwa [hparents, ← List.append_assoc]

/-! ## One end -/

/-- Something is open before a move and closed after it. -/
structure Severs (c : Client α) (m : Move α) (p : Parent) : Prop where
  before : c.records.isOpen? p = some true
  after : (c.step m).1.records.isOpen? p = some false

theorem Severs.ends (h : c.Severs m p) : c.Ends m p := ends_of_closed h.before h.after

/-- The owners whose requests the end of `p` strikes. -/
def strikes (c : Client α) (p : Parent) (o : Owner) : Bool :=
  match p with
  | .session s => c.sessions[s]?.any fun y => o.session == some y.id
  | .transaction t => c.transactions[t]?.any fun x => o.transaction == some x.id

theorem ended_eq {β : Type} {isOpen own : β → Bool} {xs ys : List β} {k : Nat}
    (hk : xs[k]?.map isOpen = some true) (hk' : ys[k]?.map isOpen = some false)
    (honly : ∀ j : Nat, xs[j]?.map isOpen = some true → ys[j]?.map isOpen = some false → j = k) :
    ended isOpen own xs ys = xs[k]?.any own := by
  obtain ⟨x, hx, hxo⟩ := Option.map_eq_some_iff.1 hk
  obtain ⟨y, hy, hyo⟩ := Option.map_eq_some_iff.1 hk'
  rw [Bool.eq_iff_iff, ended_iff, hx, Option.any_some]
  constructor
  · rintro ⟨j, x', y', hx', hy', hxo', hyo', hown⟩
    have hj := honly j (Option.map_eq_some_iff.2 ⟨x', hx', hxo'⟩)
      (Option.map_eq_some_iff.2 ⟨y', hy', hyo'⟩)
    rw [hj, hx] at hx'
    cases hx'
    exact hown
  · exact fun hown => ⟨k, x, y, hx, hy, hxo, hyo, hown⟩

/-- Nothing else ends with it. -/
theorem Severs.only (h : c.Severs m p) {p' : Parent} (ho : c.records.isOpen? p' = some true)
    (hc : (c.step m).1.records.isOpen? p' = some false) : p' = p :=
  (ends_of_closed ho hc).eq h.ends

theorem Severs.endsTransaction (h : c.Severs m p) (o : Owner) :
    c.endsTransaction (c.step m).1 o =
      match p with
      | .session _ => false
      | .transaction t => c.strikes (.transaction t) o := by
  cases p with
  | session s =>
    refine Bool.eq_false_iff.2 fun hended => ?_
    obtain ⟨k, x, y, hx, hy, hxo, hyo, -⟩ := ended_iff.1 hended
    have hbefore : c.records.isOpen? (.transaction k) = some true :=
      Option.map_eq_some_iff.2 ⟨x, hx, hxo⟩
    exact Parent.noConfusion (h.only hbefore (Option.map_eq_some_iff.2 ⟨y, hy, hyo⟩))
  | transaction t =>
    exact ended_eq h.before h.after fun j hj hj' => Parent.transaction.inj (h.only hj hj')

theorem Severs.endsSession (h : c.Severs m p) (o : Owner) :
    c.endsSession (c.step m).1 o =
      match p with
      | .session s => c.strikes (.session s) o
      | .transaction _ => false := by
  cases p with
  | session s => exact ended_eq h.before h.after fun j hj hj' => Parent.session.inj (h.only hj hj')
  | transaction t =>
    refine Bool.eq_false_iff.2 fun hended => ?_
    obtain ⟨k, x, y, hx, hy, hxo, hyo, -⟩ := ended_iff.1 hended
    have hbefore : c.records.isOpen? (.session k) = some true :=
      Option.map_eq_some_iff.2 ⟨x, hx, hxo⟩
    exact Parent.noConfusion (h.only hbefore (Option.map_eq_some_iff.2 ⟨y, hy, hyo⟩))

/-- What the end does to the lines of others. -/
theorem Severs.toll (h : c.Severs m p) (o : Owner) (x : Line) : c.toll (c.step m).1 o x =
    let x := if c.strikes p o then x.strike p.failure else x
    if c.link.isOpen && !(c.step m).1.link.isOpen then x.lose else x := by
  unfold Client.toll
  rw [h.endsTransaction, h.endsSession]
  cases p <;> simp only [Bool.false_eq_true, if_false] <;> rfl

/-! ### Numbers -/

/-- With numbers given once, an end strikes those that were opened in what ends. -/
theorem strikes_eq_covers (hr : c.records.Rooted) (hsessions : (c.sessions.map (·.id)).Nodup)
    (htransactions : (c.transactions.map (·.id)).Nodup) (hp : c.records.isOpen? p = some true)
    {x : Transaction} (hx : c.transactions[t]? = some x) :
    c.strikes p x.owner = c.covers p t := by
  obtain ⟨y, hy, hid⟩ := hr x (List.mem_of_getElem? hx)
  have hy : c.sessions[x.session]? = some y := hy
  cases p with
  | session s =>
    obtain ⟨y', hy', -⟩ := Option.map_eq_some_iff.1 hp
    have hy' : c.sessions[s]? = some y' := hy'
    simp only [strikes, covers, hy', hx, Option.any_some, Transaction.owner]
    rw [Bool.eq_iff_iff, beq_iff_eq, beq_iff_eq, Option.some.injEq, ← hid]
    constructor
    · exact fun h => Records.eq_of_nodup hsessions hy hy' h
    · intro h
      rw [h, hy'] at hy
      rw [Option.some.inj hy]
  | transaction t' =>
    obtain ⟨x', hx', -⟩ := Option.map_eq_some_iff.1 hp
    have hx' : c.transactions[t']? = some x' := hx'
    simp only [strikes, covers, hx', Option.any_some, Transaction.owner]
    rw [Bool.eq_iff_iff, beq_iff_eq, beq_iff_eq, Option.some.injEq]
    constructor
    · exact fun h => Records.eq_of_nodup htransactions hx' hx h.symm
    · intro h
      rw [h, hx] at hx'
      rw [Option.some.inj hx']

/-! ### The connection -/

/-- What ending something takes: neither the connection nor a query. -/
def Sparing : Power → Prop
  | .close | .openQuery | .turn _ => False
  | _ => True

section

variable (hheld : c.queries.any (·.held) = true)
include hheld

/-- Who still has a query keeps the connection. -/
theorem Acts.isOpen_release (h : c.Acts Sparing c') : c'.release.link.isOpen = c.link.isOpen := by
  have hany : c'.queries.any (·.held) = true := by rwa [h.queries_eq id fun _ => id]
  rw [release_of_isHeld (by rw [isHeld, hany, Bool.or_true])]
  exact h.works.isOpen_eq id

/-- As long as the caller has a query, no end takes the connection away. -/
theorem Ends.isOpen (he : c.Ends m p) : (c.step m).1.link.isOpen = c.link.isOpen := by
  have hcall {k : Call α} (hk : k.endsSession?.isSome = true ∨ k.endsTransaction?.isSome = true) :
      (c.call k).1.link.isOpen = c.link.isOpen := by
    have h := c.begins_call k
    generalize c.call k = o at h ⊢
    cases h with
    | busy | told | clone | onClose => rfl
    | dropClient | close | dropQuery | query => rcases hk with hk | hk <;> cases hk
    | run he ho o request =>
      exact (acts_run (P := Sparing) trivial trivial c ho (fun _ _ => trivial) o
        request).works.isOpen_eq id
    | closeSession =>
      exact (acts_closeSession (P := Sparing) trivial trivial c trivial
        fun _ _ => trivial).works.isOpen_eq id
    | closeTransaction t x =>
      exact (acts_closeTransaction (P := Sparing) trivial trivial c trivial x).works.isOpen_eq id
    | @dropSession s y =>
      have hgiven : c.Acts Sparing (c.modifySession s ({ · with held := false })) :=
        (Deed.dropSession c s).acts
      have hended := hgiven.trans (acts_endSession (s := s) (y := y) _ trivial fun _ _ => trivial)
      rw [dropSession_eq]
      exact (acts_quitting trivial trivial hgiven hended id _ _).isOpen_release hheld
    | dropTransaction t x =>
      have hgiven : c.Acts Sparing (c.modifyTransaction t ({ · with held := false })) :=
        (Deed.dropTransaction c t).acts
      have hended := hgiven.trans (acts_finishTransaction _ (t := t) trivial)
      rw [dropTransaction_eq]
      exact (acts_quitting trivial trivial hgiven hended isOpen_of_reportsClose _ _).isOpen_release
        hheld
    | start h q bound drain => exact congrArg (·.isOpen) (link_beginStart ..)
    | pull => exact congrArg (·.isOpen) (link_beginPull ..)
  cases p with
  | session s =>
    obtain ⟨k, rfl, hk, -⟩ := he
    exact hcall (.inl (by rw [hk]; rfl))
  | transaction t =>
    rcases he with ⟨k, rfl, hk⟩ | ⟨⟨i, hi⟩, hm⟩
    · exact hcall (.inr (by rw [hk]; rfl))
    · have hfinds {o : Outcome α} (h : c.Finds o) : o.1.link.isOpen = c.link.isOpen := by
        cases h with
        | nothing | late => rfl
        | errand | gaveUp => exact isOpen_conclude ..
        | start h drain hp hw | pull h demand hp hw =>
          rw [hi] at hw
          cases hw
      rcases hm with rfl | rfl
      · exact hfinds c.finds_resume
      · exact hfinds c.finds_expire

end

/-! ## What an end leaves -/

/-- No query takes part in an end. -/
theorem Ends.ownActs (he : c.Ends m p) (h : Handle) (q : Query α) : c.ownActs h q m = [] := by
  have hcall {k : Call α} (hk : k.ask? = none) : c.ownActs h q (.call k) = [] := by
    unfold Client.ownActs
    dsimp only
    rw [hk]
    cases c.waiting <;> rfl
  cases p with
  | session s =>
    obtain ⟨k, rfl, hk, -⟩ := he
    exact hcall (by cases k <;> first | rfl | cases hk)
  | transaction t =>
    rcases he with ⟨k, rfl, hk⟩ | ⟨⟨i, hi⟩, hm⟩
    · exact hcall (by cases k <;> first | rfl | cases hk)
    · have hw : c.waitsOn h = false := by
        unfold waitsOn
        rw [hi]
        rfl
      rcases hm with rfl | rfl
      · exact if_neg (by rw [hw]; exact Bool.false_ne_true)
      · exact if_neg (by rw [hw]; exact Bool.false_ne_true)

theorem Severs.soloOf (hs : c.Severs m p) (ho : c.Stepped m (c.step m))
    (hq : c.queries[h]? = some q) : ∃ q', (c.step m).1.queries[h]? = some q' ∧ q'.lane = q.lane ∧
      (c.step m).1.soloOf h q' = { c.soloOf h q with
        line := c.toll (c.step m).1 q.owner (c.soloOf h q).line } := by
  obtain ⟨q', hq', hl, -, hacts⟩ := ho.solo h q hq
  rw [hs.ends.ownActs, List.nil_append, acts_ends] at hacts
  exact ⟨q', hq', hl, (Prod.mk.inj hacts).1.symm⟩

/-- A move that ends something leaves no call on a query waiting. -/
theorem Severs.not_waitsOn (hs : c.Severs m p) (ho : c.Stepped m (c.step m)) (h : Handle) :
    (c.step m).1.waitsOn h = false := by
  refine Bool.eq_false_iff.2 fun hw => ?_
  obtain ⟨p', hp'⟩ := exists_pause hw
  obtain ⟨ht, hss⟩ := ho.calm h p' hp'
  have hafter := hs.after
  rw [records, ht, hss, ← records, hs.before] at hafter
  cases hafter

theorem isLive_iff_holds (hc : c.Sound) : (c.soloOf h q).line.isLive = true ↔
    c.link.router.Holds q.lane := (hc.link.live q.lane).symm

/-- A query that was not opened in what ends, or has nothing going on, is as it was. -/
theorem Severs.spares (hs : c.Severs m p) (ho : c.Stepped m (c.step m))
    (hq : c.queries[h]? = some q) (hheld : q.held = true)
    (hno : c.strikes p q.owner = false ∨ (c.soloOf h q).line.isLive = false) :
    ∃ q', (c.step m).1.queries[h]? = some q' ∧ q'.lane = q.lane ∧
      (c.step m).1.soloOf h q' = c.soloOf h q := by
  obtain ⟨q', hq', hl, hsolo⟩ := hs.soloOf ho hq
  have hany : c.queries.any (·.held) = true :=
    List.any_eq_true.2 ⟨q, List.mem_of_getElem? hq, hheld⟩
  have hopen := hs.ends.isOpen hany
  have hkept : (c.link.isOpen && !(c.step m).1.link.isOpen) = false := by
    rw [hopen, Bool.and_not_self]
  have hstill : (if c.strikes p q.owner then (c.soloOf h q).line.strike p.failure
      else (c.soloOf h q).line) = (c.soloOf h q).line := by
    rcases hno with hno | hno
    · rw [hno, if_neg Bool.false_ne_true]
    · rw [Line.strike_of_not_live hno, ite_self]
  refine ⟨q', hq', hl, ?_⟩
  rw [hsolo, hs.toll, hstill, hkept]
  rfl

/-- A query opened in what ends that has something going on is struck. -/
theorem Severs.strikes_live (hs : c.Severs m p) (ho : c.Stepped m (c.step m))
    (hq : c.queries[h]? = some q) (hstrikes : c.strikes p q.owner = true)
    (hlive : (c.soloOf h q).line.isLive = true) :
    ∃ q' done w, (c.step m).1.queries[h]? = some q' ∧ q'.lane = q.lane ∧
      q'.unnumbered = q.unnumbered ∧ c.link.waves q.lane = done ++ [w] ∧
      (c.step m).1.link.waves q.lane = done ++ [{ w with ending := some (.error p.failure) }] := by
  obtain ⟨q', hq', hl, hsolo⟩ := hs.soloOf ho hq
  obtain ⟨done, w, hw, hnot⟩ := Wave.exists_of_ongoing hlive
  have hstruck := Line.strike_of_live hw hnot p.failure
  rw [Wave.strike_eq hnot] at hstruck
  have hover : ((c.soloOf h q).line.strike p.failure).isLive = false := Line.isLive_strike _ _
  have hwaves : (c.toll (c.step m).1 q.owner (c.soloOf h q).line).waves =
      done ++ [{ w with ending := some (.error p.failure) }] := by
    rw [hs.toll, hstrikes, if_pos rfl]
    dsimp only
    split
    · rw [Line.lose, Line.strike_of_not_live hover, hstruck]
    · rw [hstruck]
  refine ⟨q', done, w, hq', hl, congrArg (·.query) hsolo, hw, ?_⟩
  rw [← hl]
  exact (congrArg (·.line.waves) hsolo).trans hwaves

/-- From here on the query at a place is told nothing more. Whatever happens, nothing is sent on its
lane, and what its callers are told is what `Remains.tellAll` gives for what they ask, but for one
that a call in progress is owed; that call waits for nothing. -/
def LivesOn (c : Client α) (h : Handle) (lane : Lane) (left : Remains α) : Prop :=
  ∀ ms c', (c.runAll ms).1 = c' → c'.link.issued ≤ 2 ^ 64 →
    c'.link.frames lane = c.link.frames lane ∧ (c'.waitsOn h = true → c'.isReady = true) ∧
    ∃ q', c'.queries[h]? = some q' ∧ q'.lane = lane ∧
      (c'.soloOf h q').owes.1 = (left.tellAll (c.asked h ms)).1 ∧
      c.repliesTo h ms ++ (c'.soloOf h q').owes.2.toList = (left.tellAll (c.asked h ms)).2

theorem Reachable.livesOn (hc : c.Reachable) {done : List Wave} {w : Wave}
    (hq : c.queries[h]? = some q) (he : (c.soloOf h q).Ended done w) (hw : c.waitsOn h = false) :
    c.LivesOn h q.lane (c.soloOf h q).remains := by
  intro ms c' hms hb
  subst hms
  obtain ⟨q', hq', hl, he', howes, hreplies⟩ := hc.owes_runAll hb hq he
  have hidle := Solo.owes_of_idle (waiting_of_not_waitsOn (q := q) hw)
  rw [hidle] at howes hreplies
  refine ⟨?_, (hc.runAll ms).isReady_of_ended hb hq' he', q', hq', hl, howes, hreplies⟩
  rw [Link.frames_eq, Link.frames_eq, show c.link.waves q.lane = done ++ [w] from he.waves, ← hl]
  exact congrArg _ he'.waves

/-! ## Which moves end something -/

/-- What a call closes or drops is closed by it, whatever the server says to that. -/
theorem closed_of_severs {k : Call α} (hk : k.severs? = some p) (hw : c.waiting = none)
    (hp : c.hasParent p = true) : (c.step (.call k)).1.records.isOpen? p = some false := by
  cases p with
  | session s =>
    have hends : k.endsSession? = some s := by
      cases k with
      | closeSession | dropSession => exact congrArg some (Parent.session.inj (Option.some.inj hk))
      | _ => cases hk
    exact Closes.closed ⟨k, rfl, hends, hw, hp⟩
  | transaction t =>
    obtain ⟨x, hx⟩ := Option.isSome_iff_exists.1 hp
    have hget := getElem?_of_transaction? hx
    cases k with
    | closeTransaction t' =>
      cases hk
      rw [step, call_closeTransaction hw hx]
      exact closed_closeTransaction hget
    | dropTransaction t' =>
      cases hk
      rw [step, call_dropTransaction hw hx]
      exact closed_dropTransaction hget
    | _ => cases hk

/-- A commit of an open transaction waits for its outcome first. -/
theorem Sound.commit_waits (hc : c.Sound) (hw : c.waiting = none) {x : Transaction}
    (hx : c.transaction? t = some x) (ho : c.ensureOpen x = .ok ())
    (hb : (c.step (.call (.commit t))).1.link.issued ≤ 2 ^ 64) :
    (c.step (.call (.commit t))).1.records = c.records ∧
      ∃ i, (c.step (.call (.commit t))).1.waiting = some (.errand (.commit t) i) := by
  have hrun : c.step (.call (.commit t)) = c.run (.commit t) x.owner (.commit x.id) :=
    call_commit hw hx ho
  rw [hrun] at hb ⊢
  rw [issued_run] at hb
  rw [run_of_open hc.link (ensureOpen_eq_ok.1 ho).1 (.commit t) hb]
  exact ⟨rfl, _, rfl⟩

/-- Whatever a commit comes to, its transaction is closed with it, and not before. -/
theorem Sound.commit_ends (hc : c.Sound) {i : Nat} (hw : c.waiting = some (.errand (.commit t) i))
    (m : Move α) : c.records.isOpen? (.transaction t) = some true ∧
      (c.step m).1.records.isOpen? (.transaction t) = some !(c.step m).2.isSome := by
  obtain ⟨x, hx, ho⟩ := (hc.errand _ i hw).commit t rfl
  have hopen : c.records.isOpen? (.transaction t) = some true :=
    Option.map_eq_some_iff.2 ⟨x, hx, ho⟩
  have hreply (c : Client α) (d : Except Failure Response) :
      (c.conclude (.commit t) d).2.isSome = true := rfl
  have hfinds {o : Outcome α} (h : c.Finds o) :
      o.1.records.isOpen? (.transaction t) = some !o.2.isSome := by
    cases h with
    | nothing => exact hopen
    | @errand i' d r e hp hw' =>
      rw [hw] at hw'
      cases hw'
      rw [hreply]
      exact closed_commit (c := { c with link := { c.link with router := r.drop i } }) hx d
    | gaveUp e i' hw' =>
      rw [hw] at hw'
      cases hw'
      rw [hreply]
      exact closed_commit (c := { c with link := c.link.dropInbox i }) hx _
    | start h drain hp hw' | pull h demand hp hw' | late hw' =>
      rw [hw] at hw'
      cases hw'
  refine ⟨hopen, ?_⟩
  cases m with
  | call k =>
    have hbusy : c.step (.call k) = (c, none) := call_of_waiting hw k
    rw [hbusy]
    exact hopen
  | arrive f => exact hopen
  | lose => exact hopen
  | resume => exact hfinds c.finds_resume
  | expire => exact hfinds c.finds_expire

/-- What is left to a query whose request fails: the answers that it was given, and then the
failure. -/
theorem Severs.left_of_struck (hs : c.Severs m p) (hreach : c.Reachable)
    (hb : (c.step m).1.link.issued ≤ 2 ^ 64) {h : Handle} {q q' : Query α}
    (hq : c.queries[h]? = some q) (hstrikes : c.strikes p q.owner = true)
    (hlive : (c.soloOf h q).line.isLive = true) (hq' : (c.step m).1.queries[h]? = some q')
    (hl : q'.lane = q.lane) :
    let left := ((c.step m).1.soloOf h q').remains
    left.reader = q.reader ∧ left.handed = q.handed ∧
      q.handed ++ left.rest = (c.link.waves q.lane).flatMap (·.answers) ∧
      (q.held = true → ∀ n,
        (left.tellAll (List.replicate n .nextAnswer)).2 = (List.range n).map left.outcome) ∧
      (∀ n, left.rest.length ≤ n → left.outcome n = .failed p.failure) ∧
      (c.step m).1.LivesOn h q.lane left := by
  have hstep := (hreach.sound (Nat.le_trans (issued_step c m) hb)).step m hb
  obtain ⟨q₁, done, w, hq₁, -, hsame, hw, hw'⟩ := hs.strikes_live hstep hq
    hstrikes hlive
  rw [hq'] at hq₁
  cases hq₁
  have hstands := (hreach.step m).stands hb hq'
  have hlast : ((c.step m).1.soloOf h q').line.waves =
      done ++ [{ w with ending := some (.error p.failure) }] := (congrArg _ hl).trans hw'
  have hended : ((c.step m).1.soloOf h q').Ended done
      { w with ending := some (.error p.failure) } := ⟨hstands, hlast, rfl, .inr rfl⟩
  obtain ⟨read, rest, hst⟩ := Solo.standsAt_of_waves hstands hlast
  have hleft := Solo.remains_eq hst rfl
  have hreader : q'.reader = q.reader := congrArg (·.reader) hsame
  have hhanded : q'.handed = q.handed := congrArg (·.handed) hsame
  have hheld : q'.held = q.held := congrArg (·.held) hsame
  refine ⟨hreader, hhanded, ?_, fun hq₀ n => Remains.tellAll_nextAnswer _ (hheld.trans hq₀) n,
    fun n hn => Remains.outcome_of_le (by rw [hleft]) hn, ?_⟩
  · have hread : q'.handed = done.flatMap (·.answers) ++ read := hst.handed
    have hanswers : w.answers = read ++ rest := hst.answers
    rw [← hhanded, hleft, hw, hread]
    simp [hanswers]
  · rw [← hl]
    exact (hreach.step m).livesOn hq' hended (hs.not_waitsOn hstep h)

/-- Nothing changes for a query that is not concerned, nor later. -/
theorem Severs.kept_of_spared (hs : c.Severs m p) (hreach : c.Reachable)
    (hb : (c.step m).1.link.issued ≤ 2 ^ 64) {h : Handle} {q q' : Query α}
    (hq : c.queries[h]? = some q) (hheld : q.held = true)
    (hidle : c.strikes p q.owner = false ∨ (c.soloOf h q).line.isLive = false)
    (hq' : (c.step m).1.queries[h]? = some q') (hl : q'.lane = q.lane) :
    (c.step m).1.soloOf h q' = c.soloOf h q ∧
      ((c.step m).1.link.router.Holds q.lane ↔ c.link.router.Holds q.lane) ∧
      ∀ ms' c'', ((c.step m).1.runAll ms').1 = c'' → c''.link.issued ≤ 2 ^ 64 →
        ∃ q'', c''.queries[h]? = some q'' ∧ q''.lane = q.lane ∧
          (q''.held = true → q''.handed ++ (c''.ahead q'').filterMap Delivery.payload? =
            (c''.link.waves q.lane).flatMap (·.answers)) := by
  have hsound := hreach.sound (Nat.le_trans (issued_step c m) hb)
  have hstep := hsound.step m hb
  obtain ⟨q₁, hq₁, -, hsolo⟩ := hs.spares hstep hq hheld hidle
  rw [hq'] at hq₁
  cases hq₁
  refine ⟨hsolo, ?_, fun ms' c'' hrun hb'' => ?_⟩
  · rw [← hl, ← isLive_iff_holds hstep.sound (h := h), hsolo, hl, isLive_iff_holds hsound]
  · subst hrun
    obtain ⟨q'', hq'', hl'', -⟩ := hstep.sound.solo_runAll (J := fun _ => True)
      (fun _ _ _ _ => trivial) hb'' hq' trivial
    have hlane := hl''.trans hl
    refine ⟨q'', hq'', hlane, fun hheld'' => ?_⟩
    rw [← hlane]
    exact conserved_of_stands (((hreach.step m).runAll ms').stands hb'' hq'') hheld''

/-! ## The main theorem -/

/-- **An end fails exactly what is going on.** Closing and dropping end what is open at once, a
commit when it is over, whatever came of it. Of the queries opened in what ends, those that have
something going on live on the answers that were routed to them and not read, and then report the end
again and again; nothing more is sent for them, and nothing more reaches them. All other queries that
the caller has, whether they were opened elsewhere or have nothing going on, are as they were, and of
what is routed to them later nothing is lost either. -/
theorem severed {timeout : Option Nat} {ms : List (Move α)}
    (hc : ((new timeout).runAll ms).1 = c) (hm : (c.step m).1 = c')
    (hb : c'.link.issued ≤ 2 ^ 64) (hsessions : (c.sessions.map (·.id)).Nodup)
    (htransactions : (c.transactions.map (·.id)).Nodup) :
    (∀ k p, m = .call k → k.severs? = some p → c.waiting = none → c.hasParent p = true →
      c'.records.isOpen? p = some false) ∧
    (∀ t x, m = .call (.commit t) → c.waiting = none → c.transaction? t = some x →
      c.ensureOpen x = .ok () →
      c'.records = c.records ∧ ∃ i, c'.waiting = some (.errand (.commit t) i)) ∧
    (∀ t i, c.waiting = some (.errand (.commit t) i) →
      c.records.isOpen? (.transaction t) = some true ∧
      c'.records.isOpen? (.transaction t) = some !(c.step m).2.isSome) ∧
    ∀ p, c.records.isOpen? p = some true → c'.records.isOpen? p = some false →
      ∀ (h : Handle) q, c.queries[h]? = some q →
      ∃ t q', ((new timeout).parents ms)[h]? = some t ∧ c'.queries[h]? = some q' ∧
        q'.lane = q.lane ∧
        (c.covers p t = true ∧ c.link.router.Holds q.lane →
          let left := (c'.soloOf h q').remains
          left.reader = q.reader ∧ left.handed = q.handed ∧
            q.handed ++ left.rest = (c.link.waves q.lane).flatMap (·.answers) ∧
            (q.held = true → ∀ n,
              (left.tellAll (List.replicate n .nextAnswer)).2 = (List.range n).map left.outcome) ∧
            (∀ n, left.rest.length ≤ n → left.outcome n = .failed p.failure) ∧
            c'.LivesOn h q.lane left) ∧
        (¬ (c.covers p t = true ∧ c.link.router.Holds q.lane) → q.held = true →
          c'.soloOf h q' = c.soloOf h q ∧
            (c'.link.router.Holds q.lane ↔ c.link.router.Holds q.lane) ∧
            ∀ ms' c'', (c'.runAll ms').1 = c'' → c''.link.issued ≤ 2 ^ 64 →
              ∃ q'', c''.queries[h]? = some q'' ∧ q''.lane = q.lane ∧
                (q''.held = true → q''.handed ++ (c''.ahead q'').filterMap Delivery.payload? =
                  (c''.link.waves q.lane).flatMap (·.answers))) := by
  have hreach : c.Reachable := ⟨timeout, ms, hc.symm⟩
  have hb₀ : c.link.issued ≤ 2 ^ 64 := Nat.le_trans (issued_step c m) (hm ▸ hb)
  have hsound := hreach.sound hb₀
  have hstep := hsound.step m (hm ▸ hb)
  have hfiled : c.Filed ((new timeout).parents ms) := by
    have hnew : (new timeout : Client α).Filed [] := ⟨rfl, fun _ _ _ hq => by cases hq⟩
    rw [← hc]
    exact hnew.runAll (Sound.empty timeout) (hc ▸ hb₀)
  subst hm
  refine ⟨fun k p hk hp hw hhas => ?_, fun t x hk hw hx ho => ?_,
    fun t i hw => hsound.commit_ends hw m, fun p hbefore hafter h q hq => ?_⟩
  · subst hk
    exact closed_of_severs hp hw hhas
  · subst hk
    exact hsound.commit_waits hw hx ho hb
  have hs : c.Severs m p := ⟨hbefore, hafter⟩
  obtain ⟨t, ht⟩ : ∃ t, ((new timeout).parents ms)[h]? = some t :=
    ⟨_, List.getElem?_eq_getElem (hfiled.length ▸ (List.getElem?_eq_some_iff.1 hq).1)⟩
  obtain ⟨x, hx, howner⟩ := hfiled.owner h q t hq ht
  have hstrikes : c.strikes p q.owner = c.covers p t := by
    rw [howner]
    exact strikes_eq_covers (hc ▸ ((fit_new timeout).runAll ms).rooted) hsessions htransactions
      hbefore hx
  obtain ⟨q', hq', hl, -⟩ := hs.soloOf hstep hq
  refine ⟨t, q', ht, hq', hl, fun ⟨hcovers, hholds⟩ => ?_, fun hno hheld => ?_⟩
  · exact hs.left_of_struck hreach hb hq (hstrikes.trans hcovers)
      ((isLive_iff_holds hsound).2 hholds) hq' hl
  · refine hs.kept_of_spared hreach hb hq hheld ?_ hq' hl
    rw [hstrikes, ← Bool.not_eq_true, ← Bool.not_eq_true, isLive_iff_holds hsound]
    exact not_and_or.1 hno

/-- Two transactions with a query each, which both have an answer to read; the commit of the first is
refused. -/
def twoOwners : List (Move Payload) :=
  [.call (.openSession "db" .data), .arrive ⟨1, .sessionOpened 7⟩, .resume,
    .call (.openTransaction 0 .write), .arrive ⟨2, .transactionOpened 9⟩, .resume,
    .call (.openTransaction 0 .read), .arrive ⟨3, .transactionOpened 11⟩, .resume,
    .call (.query 0 [113] {} Reader.raw), .call (.query 1 [114] {} Reader.raw),
    .arrive ⟨4, .data [1]⟩, .arrive ⟨5, .data [2]⟩, .call (.commit 0),
    .arrive ⟨6, .refused "conflict"⟩]

theorem severed_twoOwners : ∃ c c' : Client Payload, ((new none).runAll twoOwners).1 = c ∧
    (c.step .resume).1 = c' ∧ c'.link.issued ≤ 2 ^ 64 ∧ (c.sessions.map (·.id)).Nodup ∧
    (c.transactions.map (·.id)).Nodup ∧ (c.step .resume).2 = some (.failed (.server "conflict")) ∧
    ∃ q₀ q₁, c'.queries[0]? = some q₀ ∧ c'.queries[1]? = some q₁ ∧
      (c'.soloOf 0 q₀).remains.rest = [[1]] ∧
      (∀ n, 1 ≤ n → (c'.soloOf 0 q₀).remains.outcome n = .failed .transactionClosed) ∧
      c'.LivesOn 0 4 (c'.soloOf 0 q₀).remains ∧
      ∃ q, c.queries[1]? = some q ∧ c'.soloOf 1 q₁ = c.soloOf 1 q ∧ c'.link.router.Holds 5 := by
  obtain ⟨c, hc⟩ : ∃ c : Client Payload, ((new none).runAll twoOwners).1 = c := ⟨_, rfl⟩
  obtain ⟨c', hc'⟩ : ∃ c', (c.step .resume).1 = c' := ⟨_, rfl⟩
  have hstate : c'.link.issued ≤ 2 ^ 64 ∧ (c.sessions.map (·.id)).Nodup ∧
      (c.transactions.map (·.id)).Nodup ∧
      (c.step .resume).2 = some (.failed (.server "conflict")) ∧
      c.records.isOpen? (.transaction 0) = some true ∧
      c'.records.isOpen? (.transaction 0) = some false ∧ c.covers (.transaction 0) 1 = false ∧
      c.link.router.slots.map (·.lane) = [5, 4] ∧
      (c.link.waves 4).flatMap (·.answers) = [[1]] ∧
      c.queries.map (fun q => (q.lane, q.handed, q.held)) = [(4, [], true), (5, [], true)] ∧
      (new none).parents twoOwners = [0, 1] := by
    rw [← hc', ← hc]
    decide +kernel
  obtain ⟨hb, hsessions, htransactions, hreply, hbefore, hafter, hcovers, hslots, hwaves, hqueries,
    hparents⟩ := hstate
  have hquery {k : Nat} {l} (h : [(4, [], true), (5, [], true)][k]? = some l) :
      ∃ q, c.queries[k]? = some q ∧ (q.lane, q.handed, q.held) = l := by
    rw [← hqueries, List.getElem?_map] at h
    exact Option.map_eq_some_iff.1 h
  have hholds {lane : Lane} (h : lane ∈ [5, 4]) : c.link.router.Holds lane := by
    rw [← hslots] at h
    obtain ⟨s, hs, hl⟩ := List.mem_map.1 h
    exact ⟨s, hs, hl⟩
  obtain ⟨q, hq, hfields⟩ := hquery (k := 0) rfl
  obtain ⟨r, hr, hfields'⟩ := hquery (k := 1) rfl
  simp only [Prod.mk.injEq] at hfields hfields'
  obtain ⟨hlane, hhanded, -⟩ := hfields
  obtain ⟨hlane', -, hheld⟩ := hfields'
  obtain ⟨-, -, -, hends⟩ := severed hc hc' hb hsessions htransactions
  obtain ⟨t, q₀, ht, hq₀, -, hfails, -⟩ := hends _ hbefore hafter 0 q hq
  obtain ⟨t', q₁, ht', hq₁, -, -, hspares⟩ := hends _ hbefore hafter 1 r hr
  rw [hparents] at ht ht'
  cases ht
  cases ht'
  obtain ⟨-, -, hrest, -, hlast, hlives⟩ := hfails ⟨rfl, by rw [hlane]; exact hholds (by decide)⟩
  obtain ⟨hsolo, hslot, -⟩ := hspares (by rw [hcovers]; exact fun h => by cases h.1) hheld
  rw [hhanded, hlane, hwaves, List.nil_append] at hrest
  rw [hlane] at hlives
  refine ⟨c, c', hc, hc', hb, hsessions, htransactions, hreply, q₀, q₁, hq₀, hq₁, hrest,
    fun n hn => hlast n (by rw [hrest]; exact hn), hlives, r, hr, hsolo, ?_⟩
  rw [← hlane', hslot, hlane']
  exact hholds (by decide)

end Client

end QueryLanes
