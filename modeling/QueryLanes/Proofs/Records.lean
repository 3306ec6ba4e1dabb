import Mathlib.Logic.Relation
import QueryLanes.Proofs.Outcomes

/-!
# Records

How the lists of sessions and transactions change. A session is added open, and so is a transaction,
in a session that is there; a record keeps its place, and its flag unless it is ended. These are the
edits of `Records.Edit`. `Client.Ends` names what a move may end: one record at most.
-/

namespace QueryLanes

variable {α : Type}

/-- The session that a call closes or drops. -/
def Call.endsSession? : Call α → Option Handle
  | .closeSession s | .dropSession s => some s
  | _ => none

/-- The transaction that a call commits, closes or drops. -/
def Call.endsTransaction? : Call α → Option Handle
  | .commit t | .closeTransaction t | .dropTransaction t => some t
  | _ => none

/-- What queries are opened in: a transaction, and with it the session of the transaction. -/
inductive Parent where
  | session (s : Handle)
  | transaction (t : Handle)
deriving DecidableEq, Repr

abbrev Records := List Session × List Transaction

namespace Records

variable {ends : Parent → Prop} {r r' r'' : Records}

/-- One change of the records; those that `ends` selects may be closed by it. -/
inductive Edit (ends : Parent → Prop) : Records → Records → Prop where
  | addSession (r : Records) (y : Session) (h : y.isOpen = true) : Edit ends r (r.1 ++ [y], r.2)
  | addTransaction (r : Records) (x : Transaction)
    (hs : ∃ y, r.1[x.session]? = some y ∧ y.id = x.sessionId) (h : x.isOpen = true) :
    Edit ends r (r.1, r.2 ++ [x])
  | session (r : Records) (s : Handle) (f : Session → Session) (hf : ∀ y, (f y).id = y.id)
    (h : ends (.session s) ∨ ∀ y, (f y).isOpen = y.isOpen) : Edit ends r (r.1.modify s f, r.2)
  | transaction (r : Records) (t : Handle) (f : Transaction → Transaction)
    (hf : ∀ x, (f x).session = x.session ∧ (f x).sessionId = x.sessionId)
    (h : ends (.transaction t) ∨ ∀ x, (f x).isOpen = x.isOpen) : Edit ends r (r.1, r.2.modify t f)

/-- Some changes one after the other. -/
def Edits (ends : Parent → Prop) : Records → Records → Prop := Relation.ReflTransGen (Edit ends)

theorem Edits.refl (r : Records) : Edits ends r r := Relation.ReflTransGen.refl

theorem Edits.trans (h : Edits ends r r') (h' : Edits ends r' r'') : Edits ends r r'' :=
  Relation.ReflTransGen.trans h h'

theorem Edit.edits (h : Edit ends r r') : Edits ends r r' := .single h

/-- What every change keeps is kept. -/
theorem Edits.keeps {P : Records → Prop} (hedit : ∀ r r' : Records, Edit ends r r' → P r → P r')
    (h : Edits ends r r') (hp : P r) : P r' := by
  induction h with
  | refl => exact hp
  | tail _ he ih => exact hedit _ _ he ih

/-- Every transaction was opened in a session that is there, and knows its number. -/
def Rooted (r : Records) : Prop := ∀ x ∈ r.2, ∃ y, r.1[x.session]? = some y ∧ y.id = x.sessionId

theorem Rooted.edit (hr : r.Rooted) (h : Edit ends r r') : r'.Rooted := by
  cases h with
  | addSession y _ =>
    intro x hx
    obtain ⟨y', hy', hid⟩ := hr x hx
    exact ⟨y', by rw [List.getElem?_append_left (List.getElem?_eq_some_iff.1 hy').1, hy'], hid⟩
  | addTransaction x hs _ =>
    intro x' hx'
    rcases List.mem_append.1 hx' with hx' | hx'
    · exact hr x' hx'
    · rwa [List.mem_singleton.1 hx']
  | session s f hf _ =>
    intro x hx
    obtain ⟨y, hy, hid⟩ := hr x hx
    refine ⟨if s = x.session then f y else y, ?_, ?_⟩
    · rw [List.getElem?_modify, hy]
      rfl
    · split
      · rw [hf, hid]
      · exact hid
  | transaction t f hf _ =>
    intro x hx
    obtain ⟨k, hk⟩ := List.mem_iff_getElem?.1 hx
    rw [List.getElem?_modify] at hk
    obtain ⟨x₀, hx₀, rfl⟩ := Option.map_eq_some_iff.1 hk
    have hroot := hr x₀ (List.mem_of_getElem? hx₀)
    split
    · rwa [(hf x₀).1, (hf x₀).2]
    · exact hroot

/-- With numbers given once, a number tells the place. -/
theorem eq_of_nodup {β γ : Type} {xs : List β} {f : β → γ} (hn : (xs.map f).Nodup) {i j : Nat}
    {x y : β} (hx : xs[i]? = some x) (hy : xs[j]? = some y) (hf : f x = f y) : i = j := by
  have hi : (xs.map f)[i]? = some (f x) := by rw [List.getElem?_map, hx]; rfl
  have hj : (xs.map f)[j]? = some (f y) := by rw [List.getElem?_map, hy]; rfl
  exact (List.getElem?_inj (List.getElem?_eq_some_iff.1 hi).1 hn).1 (by rw [hi, hj, hf])

/-- Whether the record at a place is open, if there is one. -/
def isOpen? (r : Records) : Parent → Option Bool
  | .session s => r.1[s]?.map (·.isOpen)
  | .transaction t => r.2[t]?.map (·.isOpen)

/-- The record at a place is open, if there is one. -/
def Untouched (p : Parent) (r : Records) : Prop := r.isOpen? p ≠ some false

theorem untouched_concat {β : Type} {xs : List β} {isOpen : β → Bool} {k : Nat} {x : β}
    (h : xs[k]?.map isOpen ≠ some false) (hx : isOpen x = true) :
    (xs ++ [x])[k]?.map isOpen ≠ some false := by
  rw [List.getElem?_append]
  split
  · exact h
  · intro hclosed
    obtain ⟨x', hx', ho⟩ := Option.map_eq_some_iff.1 hclosed
    rw [List.mem_singleton.1 (List.mem_of_getElem? hx'), hx] at ho
    cases ho

theorem untouched_modify {β : Type} {xs : List β} {isOpen : β → Bool} {k j : Nat} {f : β → β}
    (h : xs[k]?.map isOpen ≠ some false) (hf : j = k → ∀ x, isOpen (f x) = isOpen x) :
    (xs.modify j f)[k]?.map isOpen ≠ some false := by
  have hsame : (xs.modify j f)[k]?.map isOpen = xs[k]?.map isOpen := by
    rw [List.getElem?_modify]
    cases xs[k]? with
    | none => rfl
    | some x =>
      refine congrArg some ?_
      split
      · exact hf ‹_› x
      · rfl
  rwa [hsame]

theorem Untouched.edit {p : Parent} (hr : r.Untouched p) (hp : ¬ ends p) (h : Edit ends r r') :
    r'.Untouched p := by
  cases p with
  | session s =>
    cases h with
    | addSession y hy => exact untouched_concat hr hy
    | addTransaction | transaction => exact hr
    | session s' f _ h =>
      refine untouched_modify hr fun hs => ?_
      subst hs
      exact h.resolve_left hp
  | transaction t =>
    cases h with
    | addTransaction x _ hx => exact untouched_concat hr hx
    | addSession | session => exact hr
    | transaction t' f _ h =>
      refine untouched_modify hr fun ht => ?_
      subst ht
      exact h.resolve_left hp

end Records

namespace Client

variable {c : Client α}

def records (c : Client α) : Records := (c.sessions, c.transactions)

theorem sessions_of_records {ss : List Session} {ts : List Transaction}
    (hr : c.records = (ss, ts)) : c.sessions = ss := congrArg Prod.fst hr

theorem transactions_of_records {ss : List Session} {ts : List Transaction}
    (hr : c.records = (ss, ts)) : c.transactions = ts := congrArg Prod.snd hr

/-! ### What leaves the records alone -/

@[simp] theorem records_release (c : Client α) : c.release.records = c.records := by
  rcases release_cases c with h | h <;> rw [h]
  rfl

/-- Giving up leaves the records as they are, or as they are once all has ended. -/
theorem records_quitting {given ended : Client α} {isOpen reports : Bool} {o : Owner}
    {request : Request} :
    (given.quitting ended isOpen reports o request).records = given.records ∨
      (given.quitting ended isOpen reports o request).records = ended.records := by
  have h := quits given ended isOpen reports o request
  generalize given.quitting ended isOpen reports o request = out at h ⊢
  cases h with
  | before => exact .inl rfl
  | told | silent => exact .inr rfl

theorem records_beginPull (c : Client α) (h : Handle) (q : Query α) (demand : Demand α) :
    (c.beginPull h q demand).1.records = c.records := by
  have hb := c.beginsPull h q demand
  generalize c.beginPull h q demand = o at hb ⊢
  cases hb <;> rfl

theorem records_beginStart (c : Client α) (h : Handle) (q : Query α) (bound : Option Nat)
    (drain : Bool) : (c.beginStart h q bound drain).1.records = c.records := by
  have hb := c.beginsStart h q bound drain
  generalize c.beginStart h q bound drain = o at hb ⊢
  cases hb with
  | pulls => exact records_beginPull ..
  | _ => rfl

theorem records_pulled (c : Client α) (h : Handle) (q : Query α) (demand : Demand α)
    (d : Delivery) : (c.pulled h q demand d).1.records = c.records := by
  have hb := c.readsOn h q demand d
  generalize c.pulled h q demand d = o at hb ⊢
  cases hb with
  | @more _ _ x token =>
    have hf := c.fetchesMore h x token demand
    generalize c.fetchMore h x token demand = o at hf ⊢
    cases hf <;> rfl
  | _ => rfl

theorem records_started (c : Client α) (h : Handle) (q : Query α) (drain : Bool) (d : Delivery) :
    (c.started h q drain d).1.records = c.records := by
  have hb := c.hearsStart h q drain d
  generalize c.started h q drain d = o at hb ⊢
  cases hb <;> rfl

/-! ## What a move ends -/

/-- The move is a call that closes or drops a session which the caller has. -/
def Closes (c : Client α) (s : Handle) (m : Move α) : Prop :=
  ∃ k, m = .call k ∧ k.endsSession? = some s ∧ c.waiting = none ∧ (c.session? s).isSome = true

/-- The one record that a move may close: the session that a call closes or drops, the transaction
that it commits, closes or drops, or the one whose commit waits. -/
def Ends (c : Client α) (m : Move α) : Parent → Prop
  | .session s => c.Closes s m
  | .transaction t => (∃ k, m = .call k ∧ k.endsTransaction? = some t) ∨
      (∃ i, c.waiting = some (.errand (.commit t) i)) ∧ (m = .resume ∨ m = .expire)

theorem Ends.eq {m : Move α} {p p' : Parent} (h : c.Ends m p) (h' : c.Ends m p') : p = p' := by
  have hexclusive {k : Call α} {s t : Handle} (hs : k.endsSession? = some s)
      (ht : k.endsTransaction? = some t) : False := by
    cases k <;> first | cases hs; done | cases ht
  have hno {k : Call α} (h : Move.call k = .resume ∨ Move.call k = .expire) : False := by
    rcases h with h | h <;> cases h
  cases p with
  | session s =>
    obtain ⟨k, rfl, hk, -⟩ := h
    cases p' with
    | session s' =>
      obtain ⟨k', hk', hs', -⟩ := h'
      cases hk'
      rw [hk] at hs'
      cases hs'
      rfl
    | transaction t =>
      rcases h' with ⟨k', hk', ht⟩ | ⟨-, hm⟩
      · cases hk'
        exact (hexclusive hk ht).elim
      · exact (hno hm).elim
  | transaction t =>
    rcases h with ⟨k, rfl, hk⟩ | ⟨⟨i, hi⟩, hm⟩
    · cases p' with
      | session s =>
        obtain ⟨k', hk', hs, -⟩ := h'
        cases hk'
        exact (hexclusive hs hk).elim
      | transaction t' =>
        rcases h' with ⟨k', hk', ht'⟩ | ⟨-, hm⟩
        · cases hk'
          rw [hk] at ht'
          cases ht'
          rfl
        · exact (hno hm).elim
    · cases p' with
      | session s =>
        obtain ⟨k, rfl, -⟩ := h'
        exact (hno hm).elim
      | transaction t' =>
        rcases h' with ⟨k, rfl, -⟩ | ⟨⟨i', hi'⟩, -⟩
        · exact (hno hm).elim
        · rw [hi] at hi'
          cases hi'
          rfl

end Client

end QueryLanes
