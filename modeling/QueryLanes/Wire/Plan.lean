/-!
# Reading plans

A `Plan` says how a value is read: take so many bytes, look at them, go on. Running a plan over a
`Cursor` counts every taking against the allowance of the frame before a byte of it is touched, so
a length that claims too much is refused however the stream goes on, and a stream that runs out
leaves the cursor at the field it could not fill.

- `Plan.run_rest_le`: reading never adds bytes;
- `Plan.run_rest_lt`: a plan that starts by taking bytes and yields a value has consumed some.
-/

namespace QueryLanes

/-- The types of the wire whose values are told apart by a number in front. -/
inductive Tagged where
  | request
  | response
  | sessionKind
  | transactionKind
  | batchSize
  | option
deriving DecidableEq, Repr

/-- Bytes that no message is written with. -/
inductive Fault where
  | variant (type : Tagged) (found : Nat)
  | boolean (found : Nat)
  | text (validUpTo : Nat)
deriving DecidableEq, Repr

/-- Why reading stopped without a value. -/
inductive Stop where
  /-- The stream ran out. -/
  | ended
  /-- The stream failed where it would have run out. -/
  | broken
  /-- A field claims more than is left of the allowance. -/
  | tooLarge
  | fault (f : Fault)
deriving DecidableEq, Repr

/-- Whether the stop is reported as the end of the stream. -/
def Stop.isEnd : Stop → Bool
  | .ended => true
  | _ => false

/-- A plan for reading a value. -/
inductive Plan (α : Type) where
  | done (a : α)
  | fault (f : Fault)
  | take (n : Nat) (next : List UInt8 → Plan α)

namespace Plan

variable {α β : Type}

def bind : Plan α → (α → Plan β) → Plan β
  | .done a, f => f a
  | .fault e, _ => .fault e
  | .take n next, f => .take n fun bs => (next bs).bind f

instance : Monad Plan where
  pure := .done
  bind := bind

end Plan

/-- Where reading stands: the bytes ahead, and how many of them the frame may still take. -/
structure Cursor where
  rest : List UInt8
  allowance : Nat
deriving DecidableEq, Repr

/-- Follow a plan, and say where it left the stream. -/
def Plan.run {α : Type} : Plan α → Cursor → Except Stop α × Cursor
  | .done a, c => (.ok a, c)
  | .fault f, c => (.error (.fault f), c)
  | .take n next, c =>
    if c.allowance < n then (.error .tooLarge, c)
    else if c.rest.length < n then (.error .ended, c)
    else (next (c.rest.take n)).run ⟨c.rest.drop n, c.allowance - n⟩

namespace Plan

variable {α : Type}

theorem run_rest_le (p : Plan α) (c : Cursor) : (p.run c).2.rest.length ≤ c.rest.length := by
  induction p generalizing c with
  | done a => simp [run]
  | fault f => simp [run]
  | take n next ih =>
    simp only [run]
    split
    · simp
    · split
      · simp
      · exact Nat.le_trans (ih _ _) (by simp)

theorem run_rest_lt {n : Nat} {next : List UInt8 → Plan α} {c : Cursor} {a : α} (hn : 0 < n)
    (h : ((Plan.take n next).run c).1 = .ok a) :
    ((Plan.take n next).run c).2.rest.length < c.rest.length := by
  simp only [run] at h ⊢
  split at h
  · simp at h
  · split at h
    · simp at h
    · rename_i h1 h2
      simp only [h1, h2, if_false]
      refine Nat.lt_of_le_of_lt (run_rest_le _ _) ?_
      simp only [List.length_drop]
      omega

end Plan

end QueryLanes
