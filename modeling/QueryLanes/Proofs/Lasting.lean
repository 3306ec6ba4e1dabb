import QueryLanes.Proofs.Deeds

/-!
# Queries last

A query stays in its place, and what it asks for is settled when it is opened: whatever happens to
the client, the query there keeps its lane, its transaction and its options
(`Client.retains_step`), and these options leave room for answers (`Client.Roomy.step`). This needs
no more than the deeds of a client; in particular no bound on how many lanes were given out.
-/

namespace QueryLanes

variable {α : Type}

namespace Client

variable {P : Power → Prop} {c c₁ c' : Client α} {h : Handle} {q x : Query α}

/-- Every query is still in its place. -/
def Retains (c c' : Client α) : Prop :=
  ∀ (h : Handle) q, c.queries[h]? = some q → ∃ q', c'.queries[h]? = some q' ∧ q.Lasts q'

theorem retains_of_same (hq : c'.queries = c.queries) : c.Retains c' :=
  fun _ q h => ⟨q, by rw [hq, h], .refl q⟩

theorem Retains.refl (c : Client α) : c.Retains c := retains_of_same rfl

theorem Retains.trans (h : c.Retains c₁) (h' : c₁.Retains c') : c.Retains c' := by
  intro i q hq
  obtain ⟨q₁, hq₁, hl₁⟩ := h i q hq
  obtain ⟨q', hq', hl'⟩ := h' i q₁ hq₁
  exact ⟨q', hq', hl₁.trans hl'⟩

theorem retains_set (hx : c.queries[h]? = some x) (hl : x.Lasts q)
    (hc : c'.queries = c.queries.set h q) : c.Retains c' := by
  intro i y hy
  by_cases hi : h = i
  · subst hi
    rw [hx] at hy
    cases hy
    exact ⟨q, by rw [hc, List.getElem?_set_self (List.getElem?_eq_some_iff.1 hx).1], hl⟩
  · exact ⟨y, by rw [hc, List.getElem?_set_ne hi, hy], .refl y⟩

theorem Deed.retains (h : c.Deed P c') : c.Retains c' := by
  cases h with
  | openQuery => exact fun i q hq =>
      ⟨q, (List.getElem?_append_left (List.getElem?_eq_some_iff.1 hq).1).trans hq, .refl q⟩
  | turn hq hlasts => exact retains_set hq hlasts rfl
  | _ => exact retains_of_same rfl

theorem Acts.retains (h : c.Acts P c') : c.Retains c' :=
  h.keeps (K := c.Retains) (fun _ _ hd hr => hr.trans hd.retains) (.refl c)

/-- A query stays in its place, and keeps its lane, its transaction and its options. -/
theorem retains_step (c : Client α) (m : Move α) : c.Retains (c.step m).1 := by
  rcases c.acts_step m with ⟨f, rfl⟩ | h
  · exact retains_of_same rfl
  · exact h.retains

/-! ## Batches have room -/

/-- Every query asks for batches that have room. -/
def Roomy (c : Client α) : Prop :=
  ∀ (h : Handle) q, c.queries[h]? = some q → q.options.validate = .ok ()

theorem Roomy.deed (hc : c.Roomy) (h : c.Deed P c') : c'.Roomy := by
  cases h with
  | openQuery hv =>
    intro i q hq
    rcases List.mem_append.1 (List.mem_of_getElem? hq) with hold | hnew
    · obtain ⟨j, hj⟩ := List.getElem?_of_mem hold
      exact hc j q hj
    · rwa [List.mem_singleton.1 hnew]
  | @turn j _ _ hx hlasts =>
    intro i q hq
    have hlt := (List.getElem?_eq_some_iff.1 hx).1
    by_cases hi : j = i
    · subst hi
      cases (List.getElem?_set_self hlt).symm.trans hq
      rw [hlasts.options]
      exact hc j _ hx
    · exact hc i q ((List.getElem?_set_ne hi).symm.trans hq)
  | _ => exact hc

theorem Roomy.step (hc : c.Roomy) (m : Move α) : (c.step m).1.Roomy := by
  rcases c.acts_step m with ⟨f, rfl⟩ | h
  · exact hc
  · exact h.keeps (fun _ _ hd hr => hr.deed hd) hc

end Client

end QueryLanes
