import Mathlib.Logic.Function.Iterate
import QueryLanes.Proofs.Following

/-!
# Looks

When a waiting call looks for its next delivery, nobody but the caller sees it, unless it sends a
request. When such a look happens, before or after something else that befalls the query, does not
matter. `Solo.history` leaves such looks out of the acts on a query, and `Meets.acts` says that two
queries which are the same up to such looks, with the same history, stay so, with all replies that
they give.
-/

namespace QueryLanes

variable {α : Type}

namespace Line

/-- What befalls a line from outside leaves what it delivers next as it is, and opens nothing. -/
structure Keeps (f : Line → Line) : Prop where
  poll : ∀ (l l' : Line) d, l.poll = some (d, l') → (f l).poll = some (d, f l')
  closed : ∀ l : Line, l.isOpen = false → (f l).isOpen = false

theorem poll_push {l l' : Line} {d : Delivery} (h : l.poll = some (d, l')) (g : List Wave → List Wave)
    (d' : Delivery) (hlive : l.isLive = true) :
    Line.poll { l with waves := g l.waves, inbox := l.inbox.map (·.push d') } =
      some (d, { l' with waves := g l'.waves, inbox := l'.inbox.map (·.push d') }) := by
  unfold poll at h ⊢
  cases hb : l.inbox with
  | none =>
    rw [hb] at h
    cases h
  | some b =>
    rw [hb] at h
    dsimp only at h
    cases hq : b.queue with
    | nil =>
      rw [hq, hlive] at h
      cases h
    | cons d₀ rest =>
      rw [hq] at h
      cases h
      simp [Inbox.push, Inbox.announce, Inbox.put, hq]

theorem isLive_poll {l l' : Line} {d : Delivery} (h : l.poll = some (d, l')) :
    l'.isLive = l.isLive := by
  rw [isLive, isLive, (same_poll h).1]

theorem keeps_hear (r : Response) : Keeps (·.hear r) where
  poll l l' d h := by
    cases hlive : l.isLive with
    | false =>
      rw [hear_of_not_live hlive, hear_of_not_live ((isLive_poll h).trans hlive)]
      exact h
    | true =>
      unfold hear
      rw [if_pos hlive, if_pos ((isLive_poll h).trans hlive)]
      exact poll_push h _ _ hlive
  closed l h := (isOpen_hear l r).trans h

theorem keeps_strike (e : Failure) : Keeps (·.strike e) where
  poll l l' d h := by
    cases hlive : l.isLive with
    | false =>
      rw [strike_of_not_live hlive, strike_of_not_live ((isLive_poll h).trans hlive)]
      exact h
    | true =>
      unfold strike
      rw [if_pos hlive, if_pos ((isLive_poll h).trans hlive)]
      exact poll_push h _ _ hlive
  closed l h := (isOpen_strike l e).trans h

theorem poll_close {l l' : Line} {d : Delivery} (h : l.poll = some (d, l')) :
    Line.poll { l with isOpen := false } = some (d, { l' with isOpen := false }) := by
  unfold poll at h ⊢
  cases hb : l.inbox with
  | none =>
    rw [hb] at h
    cases h
  | some b =>
    rw [hb] at h
    dsimp only at h
    cases hq : b.queue with
    | nil =>
      rw [hq] at h
      dsimp only at h
      split at h
      · cases h
      · rename_i hlive
        cases h
        simp only [hb, hq]
        exact if_neg hlive
    | cons d₀ rest =>
      rw [hq] at h
      cases h
      simp only [hq]

theorem keeps_lose : Keeps lose where
  poll l l' d h := poll_close ((keeps_strike .connectionClosed).poll l l' d h)
  closed _ _ := rfl

end Line

namespace Solo

variable {s t : Solo α}

/-! ## Looks -/

/-- Whether a look of the waiting call sends a request. -/
def sends (s : Solo α) : Bool := s.take.1.line.waves.length != s.line.waves.length

/-- The query after something has befallen its line from outside. -/
def outside (f : Line → Line) (s : Solo α) : Solo α := { s with line := f s.line }

/-- Deliveries are read without a look at the line. -/
theorem started_outside (f : Line → Line) (s : Solo α) (drain : Bool) (d : Delivery) :
    (s.outside f).started drain d = ((s.started drain d).1.outside f, (s.started drain d).2) := by
  have hhears := s.hears drain d
  generalize s.started drain d = o at hhears ⊢
  cases hhears with
  | failed he => exact started_error he (s.outside f) drain
  | _ => rfl

/-- A delivery sends the next request, or it is read without a look at the line, but for whether
that is open. -/
theorem pulled_outside {f : Line → Line} (hf : ∀ l : Line, l.isOpen = false → (f l).isOpen = false)
    (s : Solo α) (demand : Demand α) (d : Delivery) :
    (s.pulled demand d).1.line.waves.length = s.line.waves.length + 1 ∨
    (s.pulled demand d).1.line = s.line ∧ (s.outside f).pulled demand d =
      ((s.pulled demand d).1.outside f, (s.pulled demand d).2) := by
  have hpulls := s.pulls demand d
  generalize s.pulled demand d = o at hpulls ⊢
  cases hpulls with
  | sent => exact .inl (by simp [Line.renew])
  | answer ha hd => exact .inr ⟨rfl, Pulls.eq (.answer ha hd)⟩
  | got ha => exact .inr ⟨rfl, Pulls.eq (.got ha)⟩
  | refused ha => exact .inr ⟨rfl, Pulls.eq (.refused ha)⟩
  | unsent hi ho => exact .inr ⟨rfl, Pulls.eq (.unsent hi (hf s.line ho))⟩
  | ended => exact .inr ⟨rfl, Pulls.eq .ended⟩
  | failed he hc => exact .inr ⟨rfl, Pulls.eq (.failed he hc)⟩
  | broken => exact .inr ⟨rfl, Pulls.eq .broken⟩

theorem poll_outside {f : Line → Line} (hf : Line.Keeps f) {s' : Solo α} {d : Delivery}
    (h : s.poll = some (d, s')) : (s.outside f).poll = some (d, s'.outside f) := by
  rcases poll_cases h with ⟨r, hst, rfl, rfl⟩ | ⟨hst, line, hl, rfl⟩
  · unfold poll outside
    dsimp only
    rw [hst]
  · unfold poll outside
    dsimp only
    rw [hst]
    dsimp only
    rw [hf.poll _ _ _ hl]
    rfl

/-- A look finds nothing, or sends a request, or it may as well come after what befalls the line
from outside. -/
theorem take_outside {f : Line → Line} (hf : Line.Keeps f) (h : s.sends = false) :
    s.take = (s, none) ∨
    (s.outside f).take = (s.take.1.outside f, s.take.2) ∧ (s.outside f).sends = false ∧
      s.take.1.line.waves = s.line.waves := by
  unfold sends at h ⊢
  rw [bne_eq_false_iff_eq] at h ⊢
  rcases take_cases s with hidle | ⟨bound, drain, d, line, hw, hp, htake⟩ |
    ⟨demand, d, s', hw, hp, htake⟩
  · exact .inl hidle
  · have htake' := take_start (s := s.outside f) hw
    have hp' : (s.outside f).line.poll = some (d, f line) := hf.poll _ _ _ hp
    have hline := line_started { s with line := line } drain d
    rw [hp'] at htake'
    rw [htake, htake'.trans (started_outside f { s with line := line } drain d)]
    refine .inr ⟨rfl, ?_, (congrArg Line.waves hline).trans (Line.same_poll hp).1⟩
    exact congrArg List.length ((congrArg (Line.waves ∘ f) hline).trans (Line.same_poll hp').1)
  · have htake' := take_pull (s := s.outside f) hw
    have hp' := poll_outside hf hp
    rw [hp'] at htake'
    rw [htake, ← (same_poll hp).1] at h
    rcases pulled_outside hf.closed s' demand d with hgrown | ⟨hline, heq⟩
    · omega
    · rw [htake, htake'.trans heq]
      refine .inr ⟨rfl, ?_, (congrArg Line.waves hline).trans (same_poll hp).1⟩
      exact congrArg List.length ((congrArg (Line.waves ∘ f) hline).trans (same_poll hp').1)

/-! ## Queries with their replies -/

/-- A query, and the replies it has given. -/
abbrev Told (α : Type) := Solo α × List (Reply α)

namespace Told

variable {p p' p'' : Told α}

def act (p : Told α) (a : Act) : Told α := ((p.1.act a).1, p.2 ++ (p.1.act a).2.toList)

/-- A look of the waiting call, unless it sends a request. -/
def look (p : Told α) : Told α := if p.1.sends then p else act p .take

/-- The two are the same up to looks. -/
def Meets (p p' : Told α) : Prop := ∃ m n, look^[m] p = look^[n] p'

theorem look_of_sends (h : p.1.sends = true) : look p = p := by
  unfold look
  rw [if_pos h]

theorem look_of_idle (h : p.1.take = (p.1, none)) : look p = p := by
  unfold look
  split
  · rfl
  · show (p.1.take.1, p.2 ++ p.1.take.2.toList) = p
    rw [h]
    exact Prod.ext rfl (List.append_nil p.2)

theorem look_of_not_sends (h : p.1.sends = false) : look p = act p .take := by
  unfold look
  rw [if_neg (by rw [h]; nofun)]

theorem Meets.refl (p : Told α) : Meets p p := ⟨0, 0, rfl⟩

theorem Meets.symm (h : Meets p p') : Meets p' p := by
  obtain ⟨m, n, h⟩ := h
  exact ⟨n, m, h.symm⟩

theorem Meets.trans (h : Meets p p') (h' : Meets p' p'') : Meets p p'' := by
  obtain ⟨m, n, h⟩ := h
  obtain ⟨k, l, h'⟩ := h'
  refine ⟨k + m, n + l, ?_⟩
  rw [Function.iterate_add_apply, h, ← Function.iterate_add_apply, Nat.add_comm,
    Function.iterate_add_apply, h', ← Function.iterate_add_apply]

theorem meets_look (p : Told α) : Meets p (look p) := ⟨1, 0, rfl⟩

/-- Where neither has a look to make, they are the same. -/
theorem Meets.eq (h : Meets p p') (hp : look p = p) (hp' : look p' = p') : p = p' := by
  obtain ⟨m, n, h⟩ := h
  rwa [Function.iterate_fixed hp, Function.iterate_fixed hp'] at h

/-! ### What looks leave alone -/

theorem waves_look (p : Told α) : (look p).1.line.waves = p.1.line.waves := by
  cases hs : p.1.sends with
  | true => rw [look_of_sends hs]
  | false =>
    rcases take_outside (f := id) ⟨fun _ _ _ h => h, fun _ h => h⟩ hs with hidle | ⟨-, -, hw⟩
    · rw [look_of_idle hidle]
    · rw [look_of_not_sends hs]
      exact hw

theorem replies_look (p : Told α) : p.2 <+: (look p).2 := by
  unfold look
  split
  · exact List.prefix_refl _
  · exact List.prefix_append _ _

theorem waves_iterate (p : Told α) (n : Nat) : (look^[n] p).1.line.waves = p.1.line.waves := by
  induction n with
  | zero => rfl
  | succ n ih => rw [Function.iterate_succ_apply', waves_look, ih]

theorem replies_iterate (p : Told α) (n : Nat) : p.2 <+: (look^[n] p).2 := by
  induction n with
  | zero => exact List.prefix_refl _
  | succ n ih =>
    rw [Function.iterate_succ_apply']
    exact ih.trans (replies_look _)

theorem Meets.waves (h : Meets p p') : p.1.line.waves = p'.1.line.waves := by
  obtain ⟨m, n, h⟩ := h
  rw [← waves_iterate p m, h, waves_iterate]

/-- One of the two may be ahead by some replies. -/
theorem Meets.replies (h : Meets p p') : p.2 <+: p'.2 ∨ p'.2 <+: p.2 := by
  obtain ⟨m, n, h⟩ := h
  have hm := replies_iterate p m
  rw [h] at hm
  exact List.prefix_or_prefix_of_prefix hm (replies_iterate p' n)

/-- By induction on the looks: what befalls the line from outside may as well come first. -/
theorem iterate_outside {f : Line → Line} (hf : Line.Keeps f) (m : Nat) (p : Told α) :
    ∃ k, ((look^[m] p).1.outside f, (look^[m] p).2) = look^[k] (p.1.outside f, p.2) := by
  induction m with
  | zero => exact ⟨0, rfl⟩
  | succ m ih =>
    obtain ⟨k, hk⟩ := ih
    rw [Function.iterate_succ_apply']
    generalize look^[m] p = p₁ at hk
    cases hs : p₁.1.sends with
    | true =>
      rw [look_of_sends hs]
      exact ⟨k, hk⟩
    | false =>
      rcases take_outside hf hs with hidle | ⟨htake, hsends, -⟩
      · rw [look_of_idle hidle]
        exact ⟨k, hk⟩
      · refine ⟨k + 1, ?_⟩
        rw [Function.iterate_succ_apply', ← hk, look_of_not_sends hs, look_of_not_sends hsends]
        unfold act Solo.act
        dsimp only
        rw [htake]

theorem Meets.outside {f : Line → Line} (hf : Line.Keeps f) (h : Meets p p') :
    Meets (p.1.outside f, p.2) (p'.1.outside f, p'.2) := by
  obtain ⟨m, n, h⟩ := h
  obtain ⟨k, hk⟩ := iterate_outside hf m p
  obtain ⟨l, hl⟩ := iterate_outside hf n p'
  exact ⟨k, l, by rw [← hk, ← hl, h]⟩

end Told

/-! ## Histories -/

/-- Whether an act is seen: everything but a look that sends nothing. -/
def shows (s : Solo α) : Act → Bool
  | .take => s.sends
  | _ => true

/-- The acts on a query that are seen. -/
def history (s : Solo α) : List Act → List Act
  | [] => []
  | a :: as => (if s.shows a then [a] else []) ++ (s.act a).1.history as

/-- No call is begun while another one waits, and none is given up while it finds something. -/
def Allows (s : Solo α) : Act → Prop
  | .ask _ => s.waiting = none
  | .giveUp => s.take = (s, none)
  | _ => True

def Orderly (s : Solo α) : List Act → Prop
  | [] => True
  | a :: as => s.Allows a ∧ (s.act a).1.Orderly as

theorem orderly_append {as bs : List Act} :
    s.Orderly (as ++ bs) ↔ s.Orderly as ∧ (s.acts as).1.Orderly bs := by
  induction as generalizing s with
  | nil => simp [Orderly, acts]
  | cons a as ih => rw [List.cons_append, acts_cons, Orderly, Orderly, ih, and_assoc]

theorem history_append (s : Solo α) (as bs : List Act) :
    s.history (as ++ bs) = s.history as ++ (s.acts as).1.history bs := by
  induction as generalizing s with
  | nil => rfl
  | cons a as ih => rw [List.cons_append, acts_cons, history, history, ih, List.append_assoc]

namespace Told

variable {p p' : Told α}

/-- Acts one after the other. -/
def acts (p : Told α) (as : List Act) : Told α := ((p.1.acts as).1, p.2 ++ (p.1.acts as).2)

theorem acts_nil (p : Told α) : acts p [] = p := Prod.ext rfl (List.append_nil p.2)

theorem acts_cons (p : Told α) (a : Act) (as : List Act) : acts p (a :: as) = acts (act p a) as := by
  unfold acts act
  rw [Solo.acts_cons]
  dsimp only
  rw [List.append_assoc]

theorem act_of_not_shows {a : Act} (h : p.1.shows a = false) : act p a = look p := by
  cases a with
  | take => exact (look_of_not_sends h).symm
  | _ => cases h

theorem look_of_waiting_none (h : p.1.waiting = none) : look p = p :=
  look_of_idle (take_of_waiting_none h)

theorem Meets.act {a : Act} (h : Meets p p') (hp : p.1.Allows a) (hp' : p'.1.Allows a)
    (hs : p.1.shows a = true) (hs' : p'.1.shows a = true) : Meets (p.act a) (p'.act a) := by
  have hsame (heq : p = p') : Meets (p.act a) (p'.act a) := by
    rw [heq]
    exact .refl _
  have houtside (f : Line → Line) (hf : Line.Keeps f)
      (ha : ∀ s : Solo α, s.act a = (s.outside f, none)) : Meets (p.act a) (p'.act a) := by
    have hact (p : Told α) : p.act a = (p.1.outside f, p.2) := by
      unfold Told.act
      rw [ha]
      exact Prod.ext rfl (List.append_nil p.2)
    rw [hact, hact]
    exact h.outside hf
  cases a with
  | ask k => exact hsame (h.eq (look_of_waiting_none hp) (look_of_waiting_none hp'))
  | take => exact hsame (h.eq (look_of_sends hs) (look_of_sends hs'))
  | giveUp => exact hsame (h.eq (look_of_idle hp) (look_of_idle hp'))
  | heard r => exact houtside _ (Line.keeps_hear r) fun _ => rfl
  | transactionEnded => exact houtside _ (Line.keeps_strike .transactionClosed) fun _ => rfl
  | sessionEnded => exact houtside _ (Line.keeps_strike .sessionClosed) fun _ => rfl
  | lost => exact houtside _ Line.keeps_lose fun _ => rfl

theorem meets_acts_of_history_nil {as : List Act} (h : p.1.history as = []) :
    Meets p (p.acts as) := by
  induction as generalizing p with
  | nil =>
    rw [acts_nil]
    exact .refl p
  | cons a as ih =>
    rw [history, List.append_eq_nil_iff] at h
    obtain ⟨ha, has⟩ := h
    have hs : p.1.shows a = false := by
      rw [Bool.eq_false_iff]
      intro hs
      rw [if_pos hs] at ha
      cases ha
    rw [acts_cons]
    have hnext := ih (p := p.act a) has
    rw [act_of_not_shows hs] at hnext ⊢
    exact (meets_look p).trans hnext

/-- Before the first act that is seen there are only looks. -/
theorem acts_of_history_cons {as rest : List Act} {a : Act} (h : p.1.history as = a :: rest)
    (ho : p.1.Orderly as) : ∃ p' as', Meets p p' ∧ p'.1.shows a = true ∧ p'.1.Allows a ∧
      (p'.1.act a).1.history as' = rest ∧ (p'.1.act a).1.Orderly as' ∧
      p.acts as = (p'.act a).acts as' := by
  induction as generalizing p with
  | nil => cases h
  | cons b as ih =>
    rw [history] at h
    cases hs : p.1.shows b with
    | true =>
      rw [hs, if_pos rfl, List.singleton_append, List.cons.injEq] at h
      obtain ⟨rfl, hrest⟩ := h
      exact ⟨p, as, .refl p, hs, ho.1, hrest, ho.2, acts_cons p b as⟩
    | false =>
      rw [hs, if_neg nofun, List.nil_append] at h
      obtain ⟨p', as', hm, hshow, hallow, hrest, ho', heq⟩ := ih (p := p.act b) h ho.2
      refine ⟨p', as', ?_, hshow, hallow, hrest, ho', ?_⟩
      · rw [act_of_not_shows hs] at hm
        exact (meets_look p).trans hm
      · rw [acts_cons, heq]

/-- By induction on the history that the two have in common. -/
theorem Meets.acts {as bs : List Act} (h : Meets p p') (hp : p.1.Orderly as) (hp' : p'.1.Orderly bs)
    (heq : p.1.history as = p'.1.history bs) : Meets (p.acts as) (p'.acts bs) := by
  generalize hh : p'.1.history bs = seen at heq
  induction seen generalizing p p' as bs with
  | nil =>
    exact (meets_acts_of_history_nil heq).symm.trans (h.trans (meets_acts_of_history_nil hh))
  | cons a seen ih =>
    obtain ⟨p₁, as', hm, hshow, hallow, hrest, ho, hacts⟩ := acts_of_history_cons heq hp
    obtain ⟨p₁', bs', hm', hshow', hallow', hrest', ho', hacts'⟩ := acts_of_history_cons hh hp'
    rw [hacts, hacts']
    have hnext := (hm.symm.trans (h.trans hm')).act hallow hallow' hshow hshow'
    exact ih hnext ho ho' hrest' hrest

end Told

end Solo

end QueryLanes
