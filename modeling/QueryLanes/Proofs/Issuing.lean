import QueryLanes.Proofs.Following

/-!
# Lanes given out

No move takes back a lane: `Client.issued_step`. Only requests for something new take one; a query
fetches all its batches on the lane that it was given.
-/

namespace QueryLanes

variable {α : Type}

namespace Client

/-! ## What leaves the link alone -/

theorem link_beginPull (c : Client α) (h : Handle) (q : Query α) (demand : Demand α) :
    (c.beginPull h q demand).1.link = c.link := by
  have hb := c.beginsPull h q demand
  generalize c.beginPull h q demand = o at hb ⊢
  cases hb <;> rfl

theorem link_beginStart (c : Client α) (h : Handle) (q : Query α) (bound : Option Nat)
    (drain : Bool) : (c.beginStart h q bound drain).1.link = c.link := by
  have hb := c.beginsStart h q bound drain
  generalize c.beginStart h q bound drain = o at hb ⊢
  cases hb with
  | pulls => exact link_beginPull ..
  | _ => rfl

theorem link_started (c : Client α) (h : Handle) (q : Query α) (drain : Bool) (d : Delivery) :
    (c.started h q drain d).1.link = c.link := by
  have hb := c.hearsStart h q drain d
  generalize c.started h q drain d = o at hb ⊢
  cases hb <;> rfl

/-! ## Moves -/

theorem issued_step (c : Client α) (m : Move α) : c.link.issued ≤ (c.step m).1.link.issued := by
  rcases c.acts_step m with ⟨f, rfl⟩ | h
  · show _ ≤ (c.link.receive f).issued
    unfold Link.receive
    split <;> exact Nat.le_refl _
  · exact h.works.issued_le

theorem issued_call (c : Client α) (k : Call α) : c.link.issued ≤ (c.call k).1.link.issued :=
  c.issued_step (.call k)

/-- A call made on a query opens no lane. -/
theorem issued_call_of_ask (c : Client α) {k : Call α} {ha : Handle × Ask} (hk : k.ask? = some ha) :
    (c.call k).1.link.issued = c.link.issued := by
  have hno : ¬ c.May (.call k) .openLane := fun h : k.ask? = none => by
    rw [hk] at h
    cases h
  exact (c.works_step (m := .call k) nofun).issued_eq hno

/-- Nor does a call that waits. -/
theorem issued_resume (c : Client α) : c.resume.1.link.issued = c.link.issued :=
  (c.works_step (m := .resume) nofun).issued_eq id

theorem issued_expire (c : Client α) : c.expire.1.link.issued = c.link.issued :=
  (c.works_step (m := .expire) nofun).issued_eq id

end Client

end QueryLanes
