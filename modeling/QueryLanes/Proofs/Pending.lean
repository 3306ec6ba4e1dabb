import Mathlib.Data.Set.Card
import QueryLanes.Proofs.Collecting

/-!
# Pending requests

What `Router.pending` counts, whatever the consumers do. A `Ledger` of who waits on which lane is kept
from the steps alone and reads neither drops nor polls; a router has a slot for each of its lines
(`Ledger.Fits`). Two runs that differ in drops and polls only keep `Unmoved` routers, so that these
change no number, and nothing for the collectors they are not about. The result is
`Router.pending_replayed`.
-/

namespace QueryLanes.Router

/-! ## The ledger -/

/-- Who waits on which lane. -/
structure Ledger where
  owner? : Lane → Option Owner := fun _ => none
  closed : Bool := false

namespace Ledger

/-- The lanes somebody waits on. -/
def lanes (l : Ledger) : Set Lane := {lane | (l.owner? lane).isSome}

/-- Strike the line of a lane. -/
def strike (l : Ledger) (lane : Lane) : Ledger :=
  { l with owner? := Function.update l.owner? lane none }

/-- Strike the lines of the owners that `doomed` selects. -/
def strikeWhere (l : Ledger) (doomed : Owner → Bool) : Ledger :=
  { l with owner? := fun lane => (l.owner? lane).filter (!doomed ·) }

/-- Enter a step. What consumers do is none of the ledger's business. -/
def enter (l : Ledger) : Step → Ledger
  | .register lane o =>
    if l.closed then l else { l with owner? := Function.update l.owner? lane (some o) }
  | .withdraw lane => l.strike lane
  | .route f => if f.body.isTerminal then l.strike f.lane else l
  | .failTransaction t _ => l.strikeWhere (·.transaction == some t)
  | .failSession s _ => l.strikeWhere (·.session == some s)
  | .close _ => { owner? := fun _ => none, closed := true }
  | .drop _ => l
  | .poll _ => l

/-- The ledger after the steps. -/
def replay (ss : List Step) : Ledger := ss.foldl enter {}

variable {l : Ledger} {r : Router} {s : Step} {ss : List Step}

theorem replay_concat : replay (ss ++ [s]) = (replay ss).enter s := by
  rw [replay, List.foldl_append]
  rfl

theorem owner?_strike {lane x : Lane} {o : Owner} :
    (l.strike x).owner? lane = some o ↔ l.owner? lane = some o ∧ x ≠ lane := by
  by_cases h : lane = x
  · subst h
    simp [strike]
  · simp [strike, h, Ne.symm h]

/-- A line that is there after a step was entered by it or was there before, and not ended. -/
theorem owner?_enter {lane : Lane} {o : Owner} (h : l.closed = true → l.owner? lane = none) :
    (l.enter s).owner? lane = some o ↔
      l.closed = false ∧ s = .register lane o ∨
        l.owner? lane = some o ∧ s.ends lane o = false := by
  cases s with
  | register x o' =>
    cases hc : l.closed with
    | true => simp [enter, hc, h hc]
    | false =>
      by_cases hx : lane = x
      · subst hx
        simp [enter, hc, Step.ends]
      · simp [enter, hc, Step.ends, hx, Ne.symm hx]
  | withdraw x => simp [enter, owner?_strike, Step.ends]
  | route f =>
    cases ht : f.body.isTerminal <;> simp [enter, ht, owner?_strike, Step.ends]
  | failTransaction t e => simp [enter, strikeWhere, Option.filter_eq_some_iff, Step.ends]
  | failSession t e => simp [enter, strikeWhere, Option.filter_eq_some_iff, Step.ends]
  | close e => simp [enter, Step.ends]
  | drop i => simp [enter, Step.ends]
  | poll i => simp [enter, Step.ends]

theorem closed_enter : (l.enter s).closed = true ↔ l.closed = true ∨ ∃ e, s = .close e := by
  cases s with
  | register lane o => cases hc : l.closed <;> simp [enter, hc]
  | route f => cases ht : f.body.isTerminal <;> simp [enter, ht, strike]
  | _ => simp [enter, strike, strikeWhere]

/-- The ledger has a line for each slot of the router, and the router a slot for each line. -/
structure Fits (l : Ledger) (r : Router) : Prop where
  closed : l.closed = r.closed
  owner? : ∀ lane o, l.owner? lane = some o ↔ ∃ t ∈ r.plain, t.lane = lane ∧ t.owner = o

theorem Fits.step (h : l.Fits r) (hr : r.Neat) (s : Step) : (l.enter s).Fits (r.step s) where
  closed := by rw [Bool.eq_iff_iff, closed_enter, closed_step, h.closed]
  owner? lane o := by
    have hnone : l.closed = true → l.owner? lane = none := by
      intro hc
      have hp : r.plain = [] := by rw [plain, hr.closed (h.closed ▸ hc), List.map_nil]
      refine Option.eq_none_iff_forall_not_mem.2 fun o ho => ?_
      obtain ⟨t, ht, -⟩ := (h.owner? lane o).1 ho
      rw [hp] at ht
      cases ht
    simp only [owner?_enter hnone, mem_plain_step hr.closed, h.owner?, h.closed]
    constructor
    · rintro (⟨hc, rfl⟩ | ⟨⟨t, ht, rfl, rfl⟩, he⟩)
      · exact ⟨{ lane := lane, owner := o, inbox := r.inboxes.length },
          .inl (by simp [Step.opens, hc]), rfl, rfl⟩
      · exact ⟨t, .inr ⟨ht, he⟩, rfl, rfl⟩
    · rintro ⟨t, ho | ⟨ht, he⟩, rfl, rfl⟩
      · obtain ⟨hs, hc, -⟩ := Step.opens_eq_some ho
        exact .inl ⟨hc, hs⟩
      · exact .inr ⟨⟨t, ht, rfl, rfl⟩, he⟩

theorem fits_replay (ss : List Step) : (replay ss).Fits (run {} ss) := by
  induction ss using List.reverseRecOn with
  | nil => exact ⟨rfl, fun lane o => by simp [replay, run, plain]⟩
  | append_singleton ss s ih =>
    rw [replay_concat, run_concat]
    exact ih.step (Neat.empty.run ss) s

theorem Fits.lanes (h : l.Fits r) : l.lanes = {lane | lane ∈ r.plain.map (·.lane)} := by
  ext lane
  simp only [Ledger.lanes, Set.mem_ofPred_eq, Option.isSome_iff_exists, h.owner?, List.mem_map]
  constructor
  · rintro ⟨o, t, ht, hl, -⟩
    exact ⟨t, ht, hl⟩
  · rintro ⟨t, ht, hl⟩
    exact ⟨t.owner, t, ht, hl, rfl⟩

end Ledger

/-! ## Slots and lanes -/

section

variable {r r' : Router} {s : Step} {ss : List Step}

/-- No lane has two slots. -/
theorem Neat.nodup_step (h : r.Neat) (hl : (r.plain.map (·.lane)).Nodup) (s : Step) :
    ((r.step s).plain.map (·.lane)).Nodup := by
  have hkept : ((r.plain.filter fun t => !s.ends t.lane t.owner).map (·.lane)).Nodup :=
    hl.sublist (List.filter_sublist.map _)
  rw [plain_step h.closed]
  cases ho : s.opens r with
  | none => exact hkept
  | some t =>
    obtain ⟨rfl, -⟩ := Step.opens_eq_some ho
    rw [Option.toList_some, List.singleton_append, List.map_cons, List.nodup_cons]
    refine ⟨fun ht => ?_, hkept⟩
    obtain ⟨u, hu, hut⟩ := List.mem_map.1 ht
    simp [Step.ends, hut] at hu

theorem nodup_run (ss : List Step) : ((run {} ss).plain.map (·.lane)).Nodup := by
  induction ss using List.reverseRecOn with
  | nil => exact List.nodup_nil
  | append_singleton ss s ih =>
    rw [run_concat]
    exact (Neat.empty.run ss).nodup_step ih s

theorem pending_eq (r : Router) : r.pending = r.plain.length := by rw [pending, plain, List.length_map]

theorem ncard_mem {lanes : List Lane} (h : lanes.Nodup) : {lane | lane ∈ lanes}.ncard = lanes.length := by
  rw [← List.coe_toFinset, Set.ncard_coe_finset, List.toFinset_card_of_nodup h]

theorem pending_eq_ncard (ss : List Step) : (run {} ss).pending = (Ledger.replay ss).lanes.ncard := by
  rw [(Ledger.fits_replay ss).lanes, ncard_mem (nodup_run ss), List.length_map, pending_eq]

/-- A slot is there until something ends it, whatever becomes of its inbox. -/
theorem Neat.mem_plain_run (h : r.Neat) {t : Slot} (hi : t.inbox < r.inboxes.length) :
    t ∈ (r.run ss).plain ↔ t ∈ r.plain ∧ lives t.lane t.owner ss = true := by
  induction ss generalizing r with
  | nil => exact (and_iff_left rfl).symm
  | cons s ss ih =>
    have hi' : t.inbox < (r.step s).inboxes.length := by
      rw [length_step]
      omega
    have hstep : t ∈ (r.step s).plain ↔ t ∈ r.plain ∧ s.ends t.lane t.owner = false := by
      simpa using h.mem_plain_step_of_lt (i := t.inbox) (t := t) (s := s) hi
    have hrun : r.run (s :: ss) = (r.step s).run ss := rfl
    rw [hrun, ih (h.step s) hi', hstep, lives, lives, List.all_cons, Bool.and_eq_true,
      Bool.not_eq_true', and_assoc]

/-! ## What is failed -/

/-- The lanes of the requests that the step fails, as it returns them; `none` for a step that is not
about failing any. -/
def failed? (r : Router) : Step → Option (List Lane)
  | .failTransaction t e => some (r.failTransaction t e).2
  | .failSession x e => some (r.failSession x e).2
  | .close e => some (r.close e).2
  | _ => none

theorem failWhere_snd (r : Router) (doomed : Owner → Bool) (e : Failure) :
    (r.failWhere doomed e).2 = (r.plain.filter (doomed ·.owner)).map (·.lane) := by
  rw [failWhere_eq, plain, List.filter_map, List.map_map]
  rfl

theorem failed?_eq_some {lanes : List Lane} (h : r.failed? s = some lanes) :
    s.opens r = none ∧ lanes = (r.plain.filter fun t => s.ends t.lane t.owner).map (·.lane) := by
  cases s with
  | failTransaction x e => exact ⟨rfl, (Option.some.inj h).symm.trans (failWhere_snd r _ e)⟩
  | failSession x e => exact ⟨rfl, (Option.some.inj h).symm.trans (failWhere_snd r _ e)⟩
  | close e =>
    exact ⟨rfl, (Option.some.inj h).symm.trans (failWhere_snd { r with closed := true } _ e)⟩
  | _ => cases h

/-- What a step fails is what the ledger loses by it. -/
theorem failed_eq_struck {lanes : List Lane} (h : (run {} ss).failed? s = some lanes) :
    {lane | lane ∈ lanes} = (Ledger.replay ss).lanes \ (Ledger.replay (ss ++ [s])).lanes ∧
      lanes.Nodup := by
  have hn := Neat.empty.run ss
  obtain ⟨ho, rfl⟩ := failed?_eq_some h
  refine ⟨?_, (nodup_run ss).sublist (List.filter_sublist.map _)⟩
  rw [(Ledger.fits_replay ss).lanes, (Ledger.fits_replay (ss ++ [s])).lanes, run_concat]
  ext lane
  simp only [Set.mem_sdiff, Set.mem_ofPred_eq, List.mem_map, List.mem_filter, mem_plain_step hn.closed,
    ho, reduceCtorEq, false_or, not_exists, not_and]
  constructor
  · rintro ⟨t, ⟨ht, he⟩, rfl⟩
    refine ⟨⟨t, ht, rfl⟩, fun u hu hl => ?_⟩
    rw [hn.single u hu.1 t ht (.inl hl), he] at hu
    exact Bool.noConfusion hu.2
  · rintro ⟨⟨t, ht, rfl⟩, hgone⟩
    refine ⟨t, ⟨ht, ?_⟩, rfl⟩
    by_contra he
    exact hgone t ⟨ht, by simpa using he⟩ rfl

/-! ## Consumers -/

/-- The second run is the first without some of its drops and polls; those of the inboxes that `kept`
selects are all there. -/
inductive Spares (kept : Nat → Prop) : List Step → List Step → Prop where
  | nil : Spares kept [] []
  | both {ss ss' : List Step} (s : Step) (h : Spares kept ss ss') : Spares kept (s :: ss) (s :: ss')
  | drop {ss ss' : List Step} {i : Nat} (hi : ¬ kept i) (h : Spares kept ss ss') :
      Spares kept (.drop i :: ss) ss'
  | poll {ss ss' : List Step} {i : Nat} (hi : ¬ kept i) (h : Spares kept ss ss') :
      Spares kept (.poll i :: ss) ss'

/-- The routers are the same but for marks and for the inboxes that `kept` leaves out. -/
structure Unmoved (kept : Nat → Prop) (r r' : Router) : Prop where
  neat : r.Neat
  neat' : r'.Neat
  plain : r'.plain = r.plain
  closed : r'.closed = r.closed
  length : r'.inboxes.length = r.inboxes.length
  inbox? : ∀ i, kept i → r'.inbox? i = r.inbox? i

variable {kept : Nat → Prop}

theorem Unmoved.refl (h : r.Neat) : Unmoved kept r r := ⟨h, h, rfl, rfl, rfl, fun _ _ => rfl⟩

theorem Unmoved.opens (h : Unmoved kept r r') (s : Step) : s.opens r' = s.opens r := by
  cases s with
  | register lane o => simp only [Step.opens, h.closed, h.length]
  | _ => rfl

theorem Unmoved.feeds (h : Unmoved kept r r') (i : Nat) : r'.feeds i = r.feeds i := by
  rw [Bool.eq_iff_iff, feeds_iff_plain, feeds_iff_plain, h.plain]

theorem Unmoved.poll (h : Unmoved kept r r') {i : Nat} (hi : kept i) :
    (r'.poll i).map (·.1) = (r.poll i).map (·.1) ∧
      (r'.step (.poll i)).inbox? i = (r.step (.poll i)).inbox? i := by
  have hb := h.inbox? i hi
  cases hi : r.inbox? i with
  | none =>
    rw [hi] at hb
    simp [step, Router.poll, hi, hb]
  | some b =>
    have hlt (r : Router) (hb : r.inbox? i = some b) : i < r.inboxes.length := by
      by_contra hlt
      simp [Router.inbox?, hlt] at hb
    rw [hi] at hb
    cases hq : b.queue with
    | nil =>
      simp only [step, poll_eq hi, poll_eq hb, hq, h.feeds]
      cases r.feeds i <;> exact ⟨rfl, hb.trans hi.symm⟩
    | cons d rest =>
      simp [step, poll_eq hi, poll_eq hb, hq, inbox?_set, hlt r hi, hlt r' hb]

theorem inbox?_step_of_le {i : Nat} (hi : r.inboxes.length ≤ i) :
    (r.step s).inbox? i = if i = r.inboxes.length ∧ (s.opens r).isSome then some {} else none := by
  cases ho : s.opens r with
  | none =>
    have hlen := length_step (r := r) s
    rw [ho] at hlen
    have hnone : (r.step s).inboxes[i]? = none := List.getElem?_eq_none (by rw [hlen]; exact hi)
    simp [Router.inbox?, hnone]
  | some t =>
    obtain ⟨rfl, hc, -⟩ := Step.opens_eq_some ho
    rw [step_register, hc, Router.inbox?]
    by_cases hlt : i = r.inboxes.length
    · simp [hlt]
    · simp [hlt, List.getElem?_append_right hi, show i - r.inboxes.length ≠ 0 by omega]

theorem Unmoved.step (h : Unmoved kept r r') (s : Step) : Unmoved kept (r.step s) (r'.step s) where
  neat := h.neat.step s
  neat' := h.neat'.step s
  plain := by rw [plain_step h.neat.closed, plain_step h.neat'.closed, h.opens, h.plain]
  closed := by rw [Bool.eq_iff_iff, closed_step, closed_step, h.closed]
  length := by rw [length_step, length_step, h.length, h.opens]
  inbox? i hi := by
    by_cases hd : s = .drop i
    · subst hd
      simp [Router.step, inbox?_drop]
    by_cases hp : s = .poll i
    · subst hp
      exact (h.poll hi).2
    by_cases hlt : i < r.inboxes.length
    · rcases h.neat.inbox?_step hlt hd hp with ⟨t, ht, hti, d, hbr, he⟩ | ⟨hn, he⟩ <;>
        rcases h.neat'.inbox?_step (h.length ▸ hlt) hd hp with ⟨u, hu, hui, d', hbr', he'⟩ | ⟨hn', he'⟩
      · rw [h.plain] at hu
        rw [h.neat.single t ht u hu (.inr (hti.trans hui.symm)), hbr'] at hbr
        rw [he, he', h.inbox? i hi, Option.some.inj hbr]
      · rw [hn' t (h.plain ▸ ht) hti] at hbr
        cases hbr
      · rw [hn u (h.plain ▸ hu) hui] at hbr'
        cases hbr'
      · rw [he, he', h.inbox? i hi]
    · have hge := Nat.le_of_not_lt hlt
      rw [inbox?_step_of_le hge, inbox?_step_of_le (h.length ▸ hge), h.length, h.opens]

/-- A drop or a poll moves nothing but its own inbox. -/
theorem Unmoved.left (h : Unmoved kept r r') {i : Nat} (hi : ¬ kept i)
    (hs : s = .drop i ∨ s = .poll i) : Unmoved kept (r.step s) r' where
  neat := h.neat.step s
  neat' := h.neat'
  plain := by
    rw [h.plain, plain_step h.neat.closed]
    rcases hs with rfl | rfl <;> simp [Step.opens, Step.ends]
  closed := by
    rw [h.closed, Bool.eq_iff_iff, closed_step]
    rcases hs with rfl | rfl <;> simp
  length := by
    rw [h.length, length_step]
    rcases hs with rfl | rfl <;> rfl
  inbox? j hj := by
    have hne : i ≠ j := fun hij => hi (hij ▸ hj)
    rw [h.inbox? j hj]
    rcases hs with rfl | rfl
    · rw [Router.step, inbox?_drop, if_neg hne]
    · obtain ⟨-, -, -, hother, -⟩ := step_poll r i
      exact (hother j hne.symm).symm

theorem Unmoved.answers (h : Unmoved kept r r') {i : Nat} (hi : kept i) (s : Step) :
    r'.answers i s = r.answers i s := by
  cases s with
  | poll j =>
    simp only [Router.answers]
    split
    · rw [(h.poll hi).1]
    · rfl
  | _ => rfl

theorem Unmoved.run (h : Unmoved kept r r') {ss' : List Step} (hs : Spares kept ss ss') :
    Unmoved kept (r.run ss) (r'.run ss') ∧ ∀ i, kept i → r'.yields i ss' = r.yields i ss := by
  induction hs generalizing r r' with
  | nil => exact ⟨h, fun _ _ => rfl⟩
  | both s _ ih =>
    obtain ⟨hu, hy⟩ := ih (h.step s)
    refine ⟨hu, fun i hi => ?_⟩
    rw [yields, yields, h.answers hi, hy i hi]
  | drop hi _ ih =>
    obtain ⟨hu, hy⟩ := ih (h.left hi (.inl rfl))
    refine ⟨hu, fun j hj => ?_⟩
    rw [hy j hj, yields, answers_of_ne (by simp), List.nil_append]
  | poll hi _ ih =>
    obtain ⟨hu, hy⟩ := ih (h.left hi (.inr rfl))
    refine ⟨hu, fun j hj => ?_⟩
    rw [hy j hj, yields, answers_of_ne fun hp => ?_, List.nil_append]
    cases hp
    exact hi hj

theorem Unmoved.failed? (h : Unmoved kept r r') (s : Step) : r'.failed? s = r.failed? s := by
  have hfail (doomed : Owner → Bool) (e : Failure) :
      (r'.failWhere doomed e).2 = (r.failWhere doomed e).2 := by
    rw [failWhere_snd, failWhere_snd, h.plain]
  cases s with
  | failTransaction x e => exact congrArg some (hfail _ e)
  | failSession x e => exact congrArg some (hfail _ e)
  | close e => exact congrArg some (hfail (fun _ => true) e)
  | _ => rfl

/-! ## The theorem -/

/-- **Pending requests are counted without their consumers.** After any steps, `pending` is the number
of lanes in the ledger of the steps. Failing the requests of a transaction, of a session or of everybody
returns the lanes that the ledger loses by it, each once, and after a close nothing is pending. Without
some of the drops and polls, the steps leave the same number pending, give the same inboxes and fail the
same lanes, and a collector none of whose own are left out is handed out the same and keeps the same. A
slot, abandoned or not, counts until a step ends its request. -/
theorem pending_replayed (ss : List Step) :
    (run {} ss).pending = (Ledger.replay ss).lanes.ncard ∧
    (∀ s lanes, (run {} ss).failed? s = some lanes →
      {lane | lane ∈ lanes} = (Ledger.replay ss).lanes \ (Ledger.replay (ss ++ [s])).lanes ∧
      lanes.length = ((Ledger.replay ss).lanes \ (Ledger.replay (ss ++ [s])).lanes).ncard) ∧
    ((∃ e, .close e ∈ ss) → (run {} ss).pending = 0) ∧
    (∀ (kept : Nat → Prop) (ss' : List Step), Spares kept ss ss' →
      (run {} ss').pending = (run {} ss).pending ∧
      (∀ lane o, ((run {} ss').register lane o).map (·.2) = ((run {} ss).register lane o).map (·.2)) ∧
      (∀ s, (run {} ss').failed? s = (run {} ss).failed? s) ∧
      ∀ i, kept i → yields {} i ss' = yields {} i ss ∧ (run {} ss').inbox? i = (run {} ss).inbox? i ∧
        ((run {} ss').poll i).map (·.1) = ((run {} ss).poll i).map (·.1)) ∧
    ∀ t ∈ (run {} ss).slots, ∀ more,
      (∃ u ∈ (run {} (ss ++ more)).slots, u.plain = t.plain) ↔ lives t.lane t.owner more = true := by
  have hn := Neat.empty.run ss
  refine ⟨pending_eq_ncard ss, fun s lanes h => ?_, fun hc => ?_, fun kept ss' h => ?_,
    fun t ht more => ?_⟩
  · obtain ⟨hs, hnodup⟩ := failed_eq_struck h
    exact ⟨hs, by rw [← hs, ncard_mem hnodup]⟩
  · rw [pending, hn.closed (closed_run.2 hc), List.length_nil]
  · obtain ⟨hu, hy⟩ := (show Unmoved kept {} {} from .refl Neat.empty).run h
    refine ⟨?_, fun lane o => ?_, hu.failed?, fun i hi => ⟨hy i hi, hu.inbox? i hi, (hu.poll hi).1⟩⟩
    · rw [pending_eq, pending_eq, hu.plain]
    · rw [register, register, hu.closed, hu.length]
      split <;> rfl
  · have hrun : run {} (ss ++ more) = (run {} ss).run more := by simp [run]
    rw [hrun, ← mem_plain]
    refine (hn.mem_plain_run (hn.inbox_lt _ (plain_mem ht))).trans ?_
    exact and_iff_right (plain_mem ht)

/-- Two requests, of which the first is dropped and marked: it counts until its transaction fails, and
the second collector gets its answer as if the first had not been dropped. -/
theorem pending_replayed_abandoned :
    let ss : List Step := [.register 7 { transaction := some 2 }, .register 8 {}, .drop 0,
      .route ⟨7, .item (.data [97])⟩, .route ⟨8, .item (.data [98])⟩, .poll 1]
    (Ledger.replay ss).lanes.ncard = 2 ∧
      ((Ledger.replay ss).lanes \
        (Ledger.replay (ss ++ [.failTransaction 2 .transactionClosed])).lanes).ncard = 1 ∧
      yields {} 1 (ss.erase (.drop 0)) = [.ok (.item (.data [98]))] ∧
      ∃ u ∈ (run {} (ss ++ [.poll 1])).slots, u.lane = 7 := by
  intro ss
  have h := pending_replayed ss
  have hspares : Spares (· = 1) ss (ss.erase (.drop 0)) :=
    .both _ (.both _ (.drop (by decide) (.both _ (.both _ (.both _ .nil)))))
  obtain ⟨t, ht, hlane⟩ : ∃ t ∈ (run {} ss).slots, t.lane = 7 := by decide
  refine ⟨h.1.symm.trans (by decide), ?_, ?_, ?_⟩
  · exact ((h.2.1 (.failTransaction 2 .transactionClosed) [7] (by decide)).2).symm
  · rw [((h.2.2.2.1 _ _ hspares).2.2.2 1 rfl).1]
    decide
  · obtain ⟨u, hu, hp⟩ := (h.2.2.2.2 t ht [.poll 1]).2 rfl
    exact ⟨u, hu, (congrArg Slot.lane hp).trans hlane⟩

end

end QueryLanes.Router
