import QueryLanes.Proofs.Deeds

/-!
# Ageing

What becomes of the records of sessions and transactions: they keep their places and their numbers,
and one that was closed stays closed. `Client.ages_step` says it of a move, `Client.ages_runAll` of
a run; `Client.edits_step` says that a move ends nothing but what `Client.Ends` names. All of it
follows from what the deeds of a client do to its records.
-/

namespace QueryLanes

variable {α : Type}

namespace Client

variable {P : Power → Prop} {c c₁ c' : Client α}

/-- Every session and transaction is still in its place, and open only if it was. -/
structure Ages (c c' : Client α) : Prop where
  sessions : ∀ (s : Handle) y, c.sessions[s]? = some y →
    ∃ y', c'.sessions[s]? = some y' ∧ y'.id = y.id ∧ (y'.isOpen = true → y.isOpen = true)
  transactions : ∀ (t : Handle) x, c.transactions[t]? = some x →
    ∃ x', c'.transactions[t]? = some x' ∧ x'.session = x.session ∧ x'.owner = x.owner ∧
      (x'.isOpen = true → x.isOpen = true)

theorem ages_of_same (hs : c'.sessions = c.sessions) (ht : c'.transactions = c.transactions) :
    c.Ages c' := by
  refine ⟨fun s y hy => ⟨y, ?_, rfl, id⟩, fun t x hx => ⟨x, ?_, rfl, rfl, id⟩⟩
  · rwa [hs]
  · rwa [ht]

theorem Ages.refl (c : Client α) : c.Ages c := ages_of_same rfl rfl

theorem Ages.trans (h : c.Ages c₁) (h' : c₁.Ages c') : c.Ages c' := by
  refine ⟨fun s y hy => ?_, fun t x hx => ?_⟩
  · obtain ⟨y₁, hy₁, hi₁, ho₁⟩ := h.sessions s y hy
    obtain ⟨y', hy', hi', ho'⟩ := h'.sessions s y₁ hy₁
    exact ⟨y', hy', hi'.trans hi₁, fun h => ho₁ (ho' h)⟩
  · obtain ⟨x₁, hx₁, hs₁, hw₁, ho₁⟩ := h.transactions t x hx
    obtain ⟨x', hx', hs', hw', ho'⟩ := h'.transactions t x₁ hx₁
    exact ⟨x', hx', hs'.trans hs₁, hw'.trans hw₁, fun h => ho₁ (ho' h)⟩

theorem Ages.replying (h : c.Ages c') (r : Reply α) : c.Ages (c'.replying r).1 :=
  ⟨h.sessions, h.transactions⟩

/-- A session that is closed stays closed. -/
theorem Ages.sessionFlag (h : c.Ages c') {s : Handle} {y : Session} (hy : c.sessions[s]? = some y)
    (ho : y.isOpen = false) : c'.sessionFlag s = false := by
  obtain ⟨y', hy', -, hopen⟩ := h.sessions s y hy
  rw [Client.sessionFlag, hy', Option.any_some, Bool.eq_false_iff]
  intro h'
  rw [hopen h'] at ho
  cases ho

/-- A transaction that is closed stays closed. -/
theorem Ages.transaction? (h : c.Ages c') {t : Handle} {x x' : Transaction}
    (hx : c.transactions[t]? = some x) (hx' : c'.transaction? t = some x') :
    x'.session = x.session ∧ (x'.isOpen = true → x.isOpen = true) := by
  obtain ⟨x₁, hx₁, hs, -, ho⟩ := h.transactions t x hx
  obtain ⟨hx', -⟩ := Option.filter_eq_some_iff.1 hx'
  rw [hx₁] at hx'
  cases hx'
  exact ⟨hs, ho⟩

/-- The transactions there were come first. -/
theorem Ages.map_id (h : c.Ages c') : c'.transactions.map (·.id) =
    c.transactions.map (·.id) ++ (c'.transactions.drop c.transactions.length).map (·.id) := by
  have htake : (c'.transactions.take c.transactions.length).map (·.id) =
      c.transactions.map (·.id) := by
    refine List.ext_getElem? fun t => ?_
    rw [List.getElem?_map, List.getElem?_map, List.getElem?_take]
    split
    · rename_i hlt
      obtain ⟨x', hx', -, howner, -⟩ := h.transactions t _ (List.getElem?_eq_getElem hlt)
      rw [hx', List.getElem?_eq_getElem hlt]
      exact congrArg Owner.transaction howner
    · rename_i hlt
      rw [List.getElem?_eq_none (Nat.le_of_not_lt hlt)]
  conv_lhs => rw [← List.take_append_drop c.transactions.length c'.transactions, List.map_append]
  rw [htake]

/-! ## Deeds -/

theorem ages_modifySession (s : Handle) {f : Session → Session}
    (hf : ∀ y, (f y).id = y.id ∧ ((f y).isOpen = true → y.isOpen = true)) :
    c.Ages (c.modifySession s f) := by
  refine ⟨fun s' y hy => ?_, fun t x hx => ⟨x, hx, rfl, rfl, id⟩⟩
  have hy' : (c.modifySession s f).sessions[s']? = some (if s = s' then f y else y) := by
    simp only [modifySession, List.getElem?_modify, hy]
    rfl
  refine ⟨_, hy', ?_⟩
  split
  · exact hf y
  · exact ⟨rfl, id⟩

theorem ages_modifyTransaction (t : Handle) {f : Transaction → Transaction}
    (hf : ∀ x, (f x).session = x.session ∧ (f x).owner = x.owner ∧
      ((f x).isOpen = true → x.isOpen = true)) : c.Ages (c.modifyTransaction t f) := by
  refine ⟨fun s y hy => ⟨y, hy, rfl, id⟩, fun t' x hx => ?_⟩
  have hx' : (c.modifyTransaction t f).transactions[t']? = some (if t = t' then f x else x) := by
    simp only [modifyTransaction, List.getElem?_modify, hx]
    rfl
  refine ⟨_, hx', ?_⟩
  split
  · exact hf x
  · exact ⟨rfl, rfl, id⟩

theorem ages_append {ss : List Session} {ts : List Transaction}
    (hs : c'.sessions = c.sessions ++ ss) (ht : c'.transactions = c.transactions ++ ts) :
    c.Ages c' := by
  refine ⟨fun s y hy => ⟨y, ?_, rfl, id⟩, fun t x hx => ⟨x, ?_, rfl, rfl, id⟩⟩
  · rw [hs, List.getElem?_append_left (List.getElem?_eq_some_iff.1 hy).1, hy]
  · rw [ht, List.getElem?_append_left (List.getElem?_eq_some_iff.1 hx).1, hx]

theorem Deed.ages (h : c.Deed P c') : c.Ages c' := by
  cases h with
  | link | wait | openQuery | turn => exact ages_of_same rfl rfl
  | addSession => exact ages_append rfl (List.append_nil _).symm
  | addTransaction => exact ages_append (List.append_nil _).symm rfl
  | register s | dropSession s => exact ages_modifySession s fun _ => ⟨rfl, id⟩
  | endSession s => exact ages_modifySession s fun _ => ⟨rfl, nofun⟩
  | endTransaction t => exact ages_modifyTransaction t fun _ => ⟨rfl, rfl, nofun⟩
  | dropTransaction t => exact ages_modifyTransaction t fun _ => ⟨rfl, rfl, id⟩

theorem Acts.ages (h : c.Acts P c') : c.Ages c' :=
  h.keeps (K := c.Ages) (fun _ _ hd ha => ha.trans hd.ages) (.refl c)

/-! ## Moves -/

theorem ages_step (c : Client α) (m : Move α) : c.Ages (c.step m).1 := by
  rcases c.acts_step m with ⟨f, rfl⟩ | h
  · exact ages_of_same rfl rfl
  · exact h.ages

theorem ages_runAll (c : Client α) (ms : List (Move α)) : c.Ages (c.runAll ms).1 := by
  induction ms generalizing c with
  | nil => exact .refl c
  | cons m ms ih => exact (ages_step c m).trans (ih _)

/-! ## Records -/

theorem edits_step (c : Client α) (m : Move α) :
    Records.Edits (c.Ends m) c.records (c.step m).1.records := by
  rcases c.acts_step m with ⟨f, rfl⟩ | h
  · exact .refl _
  · exact h.edits

theorem rooted_step (hc : c.records.Rooted) (m : Move α) : (c.step m).1.records.Rooted :=
  (edits_step c m).keeps (fun _ _ he hr => hr.edit he) hc

/-- A record that nothing ends stays open. -/
theorem untouched_step {p : Parent} (hc : c.records.Untouched p) {m : Move α}
    (hm : ¬ c.Ends m p) : (c.step m).1.records.Untouched p :=
  (edits_step c m).keeps (fun _ _ he hr => hr.edit hm he) hc

/-- What was open before a move and is not open after it is what the move ends. -/
theorem ends_of_closed {p : Parent} {m : Move α} (ho : c.records.isOpen? p = some true)
    (hclosed : (c.step m).1.records.isOpen? p = some false) : c.Ends m p := by
  by_contra hno
  have hc : c.records.Untouched p := by
    rw [Records.Untouched, ho]
    exact nofun
  exact untouched_step hc hno hclosed

end Client

end QueryLanes
