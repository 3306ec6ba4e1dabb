import Mathlib.Data.List.Basic
import Mathlib.Data.List.Induction
import Mathlib.Data.List.ModifyLast
import QueryLanes.Lane.Link

/-!
# Waves

What a lane has been told is a list of waves. A request that is sent on the lane begins a wave; the
responses routed to the lane belong to it, up to the first terminal one, and a failure that strikes
the lane before that ends it as well. What comes for a lane between two waves belongs to none.

`Link.waves` reads the waves of a lane off the transcript, so it knows nothing of slots and inboxes.
A `Line` is what there is for the one who waits on a lane: the waves, and the inbox that is fed.
-/

namespace QueryLanes

/-! ## Responses -/

/-- The answer that a response carries, if its request goes on after it. -/
def Response.answer? : Response → Option Payload
  | .item i => match i.meaning with
    | .data p => some p
    | _ => none
  | _ => none

/-- The response that carries one answer. -/
def Response.data (p : Payload) : Response := .item (.data p)

@[simp] theorem Response.answer?_data (p : Payload) : (data p).answer? = some p := rfl

@[simp] theorem Response.isTerminal_data (p : Payload) : (data p).isTerminal = false := rfl

theorem Item.meaning_eq_data_iff {i : Item} {p : Payload} : i.meaning = .data p ↔ i = .data p := by
  obtain ⟨token, done, answer⟩ := i
  by_cases h : token = 0 <;> cases done <;> cases answer <;> simp [meaning, Item.data, h]

theorem Response.isTerminal_eq (r : Response) : r.isTerminal = r.answer?.isNone := by
  cases r with
  | item i =>
    have h := i.isLast_iff
    cases hm : i.meaning <;> simp_all [isTerminal, answer?]
  | _ => rfl

theorem Response.eq_data_of_answer? {r : Response} {p : Payload} (h : r.answer? = some p) :
    r = data p := by
  cases r with
  | item i =>
    have hm : i.meaning = .data p := by
      revert h
      cases hm : i.meaning <;> simp [answer?, hm]
    rw [data, Item.meaning_eq_data_iff.1 hm]
  | _ => simp [answer?] at h

theorem Response.eq_data_of_not_isTerminal {r : Response} (h : r.isTerminal = false) :
    ∃ p, r = data p := by
  rw [isTerminal_eq, Option.isNone_eq_false_iff] at h
  obtain ⟨p, hp⟩ := Option.isSome_iff_exists.1 h
  exact ⟨p, eq_data_of_answer? hp⟩

/-! ## Waves -/

structure Wave where
  /-- What began it. -/
  request : Request
  /-- The answers of it that were routed, in order. -/
  answers : List Payload := []
  /-- The terminal response that ended it, or the failure. -/
  ending : Option Delivery := none

namespace Wave

def isOver (w : Wave) : Bool := w.ending.isSome

/-- A response is routed to the lane. After the terminal one nothing belongs to the wave. -/
def hear (w : Wave) (r : Response) : Wave :=
  if w.isOver then w
  else if r.isTerminal then { w with ending := some (.ok r) }
  else { w with answers := w.answers ++ r.answer?.toList }

/-- The lane fails. -/
def strike (w : Wave) (e : Failure) : Wave :=
  if w.isOver then w else { w with ending := some (.error e) }

/-- What the wave delivers, in order. -/
def deliveries (w : Wave) : List Delivery := w.answers.map (.ok ∘ .data) ++ w.ending.toList

/-- The waves of a lane after one more entry of the transcript. -/
def follow (lane : Lane) (ws : List Wave) : Entry → List Wave
  | .sent f => if f.lane = lane then ws ++ [{ request := f.body }] else ws
  | .received f => if f.lane = lane then ws.modifyLast (·.hear f.body) else ws
  | .failed lanes e => if lane ∈ lanes then ws.modifyLast (·.strike e) else ws
  | .ran _ => ws

/-- Whether the last of some waves is not over. -/
def ongoing (ws : List Wave) : Bool := ws.getLast?.any (!·.isOver)

@[simp] theorem ongoing_nil : ongoing [] = false := rfl

@[simp] theorem ongoing_concat (ws : List Wave) (w : Wave) : ongoing (ws ++ [w]) = !w.isOver := by
  simp [ongoing]

theorem hear_of_isOver {w : Wave} (h : w.isOver = true) (r : Response) : w.hear r = w := by
  simp [hear, h]

@[simp] theorem isOver_strike (w : Wave) (e : Failure) : (w.strike e).isOver = true := by
  cases h : w.isOver <;> simp_all [strike, isOver]

theorem isOver_hear {w : Wave} (h : w.isOver = false) (r : Response) :
    (w.hear r).isOver = r.isTerminal := by
  cases hr : r.isTerminal <;> simp_all [hear, isOver]

theorem hear_data {w : Wave} (h : w.isOver = false) (p : Payload) :
    w.hear (.data p) = { w with answers := w.answers ++ [p] } := by
  simp [hear, h]

@[simp] theorem deliveries_hear {w : Wave} (h : w.isOver = false) (r : Response) :
    (w.hear r).deliveries = w.deliveries ++ [.ok r] := by
  have he : w.ending = none := by simpa [isOver] using h
  cases hr : r.isTerminal with
  | true => simp [hear, deliveries, h, hr, he]
  | false =>
    obtain ⟨p, rfl⟩ := Response.eq_data_of_not_isTerminal hr
    simp [hear_data h, deliveries, he]

@[simp] theorem deliveries_strike {w : Wave} (h : w.isOver = false) (e : Failure) :
    (w.strike e).deliveries = w.deliveries ++ [.error e] := by
  have he : w.ending = none := by simpa [isOver] using h
  simp [strike, deliveries, h, he]

theorem hear_terminal {w : Wave} (h : w.isOver = false) {r : Response} (hr : r.isTerminal = true) :
    w.hear r = { w with ending := some (.ok r) } := by
  simp [hear, h, hr]

theorem strike_eq {w : Wave} (h : w.isOver = false) (e : Failure) :
    w.strike e = { w with ending := some (.error e) } := by
  simp [strike, h]

@[simp] theorem request_hear (w : Wave) (r : Response) : (w.hear r).request = w.request := by
  unfold hear; split
  · rfl
  · split <;> rfl

@[simp] theorem request_strike (w : Wave) (e : Failure) : (w.strike e).request = w.request := by
  unfold strike; split <;> rfl

/-- What is no longer going on stays as it is. -/
theorem modifyLast_of_not_ongoing {ws : List Wave} (h : ongoing ws = false) {f : Wave → Wave}
    (hf : ∀ w : Wave, w.isOver = true → f w = w) : ws.modifyLast f = ws := by
  rcases List.eq_nil_or_concat' ws with rfl | ⟨ws, w, rfl⟩
  · rfl
  · rw [ongoing_concat, Bool.not_eq_eq_eq_not, Bool.not_false] at h
    rw [List.modifyLast_concat, hf w h]

theorem exists_of_ongoing {ws : List Wave} (h : ongoing ws = true) :
    ∃ done w, ws = done ++ [w] ∧ w.isOver = false := by
  rcases List.eq_nil_or_concat' ws with rfl | ⟨done, w, rfl⟩
  · simp at h
  · exact ⟨done, w, rfl, by simpa using h⟩

end Wave

/-- The waves of a lane so far. -/
def Link.waves (l : Link) (lane : Lane) : List Wave := l.transcript.foldl (Wave.follow lane) []

@[simp] theorem Link.waves_record (l : Link) (e : Entry) (lane : Lane) :
    (l.record e).waves lane = Wave.follow lane (l.waves lane) e := by
  simp [waves, record]

theorem Wave.map_request_modifyLast (ws : List Wave) {f : Wave → Wave}
    (hf : ∀ w, (f w).request = w.request) :
    (ws.modifyLast f).map (·.request) = ws.map (·.request) := by
  rcases List.eq_nil_or_concat' ws with rfl | ⟨ws, w, rfl⟩
  · rfl
  · simp [List.modifyLast_concat, hf]

/-- Every frame sent on a lane begins a wave. -/
theorem Link.map_request_waves (l : Link) (lane : Lane) :
    (l.waves lane).map (·.request) = (l.sent.filter (·.lane == lane)).map (·.body) := by
  unfold waves sent
  generalize l.transcript = t
  induction t using List.reverseRecOn with
  | nil => rfl
  | append_singleton t e ih =>
    rw [List.foldl_append, List.filterMap_append, List.filter_append, List.map_append, ← ih]
    cases e with
    | sent f => by_cases h : f.lane = lane <;> simp [Wave.follow, h]
    | received f => by_cases h : f.lane = lane <;> simp [Wave.follow, h, Wave.map_request_modifyLast]
    | failed lanes e =>
      by_cases h : lane ∈ lanes <;> simp [Wave.follow, h, Wave.map_request_modifyLast]
    | ran label => simp [Wave.follow]

/-- A response ends a wave only if it is terminal. -/
def Wave.Proper (w : Wave) : Prop := ∀ r, w.ending = some (.ok r) → r.isTerminal = true

theorem Wave.proper_modifyLast {ws : List Wave} (h : ∀ w ∈ ws, w.Proper) {f : Wave → Wave}
    (hf : ∀ w : Wave, w.Proper → (f w).Proper) : ∀ w ∈ ws.modifyLast f, w.Proper := by
  rcases List.eq_nil_or_concat' ws with rfl | ⟨ws, w, rfl⟩
  · simp [List.modifyLast, List.modifyLast.go]
  · intro v hv
    rw [List.modifyLast_concat, List.mem_append, List.mem_singleton] at hv
    rcases hv with hv | rfl
    · exact h v (List.mem_append_left _ hv)
    · exact hf w (h w (by simp))

theorem Wave.Proper.hear {w : Wave} (h : w.Proper) (r : Response) : (w.hear r).Proper := by
  unfold Wave.hear
  split
  · exact h
  · split
    · rename_i ht
      intro r' hr'
      cases hr'
      exact ht
    · exact h

theorem Wave.Proper.strike {w : Wave} (h : w.Proper) (e : Failure) : (w.strike e).Proper := by
  unfold Wave.strike
  split
  · exact h
  · exact nofun

theorem Wave.proper_follow {lane : Lane} {ws : List Wave} (h : ∀ w ∈ ws, w.Proper) (e : Entry) :
    ∀ w ∈ follow lane ws e, w.Proper := by
  cases e with
  | sent f =>
    simp only [follow]
    split
    · intro v hv
      rcases List.mem_append.1 hv with hv | hv
      · exact h v hv
      · rw [List.mem_singleton.1 hv]
        exact nofun
    · exact h
  | received f =>
    simp only [follow]
    split
    · exact proper_modifyLast h fun w hw => hw.hear f.body
    · exact h
  | failed lanes e =>
    simp only [follow]
    split
    · exact proper_modifyLast h fun w hw => hw.strike e
    · exact h
  | ran label => exact h

theorem Link.proper_waves (l : Link) (lane : Lane) : ∀ w ∈ l.waves lane, w.Proper := by
  unfold waves
  generalize l.transcript = t
  induction t using List.reverseRecOn with
  | nil => simp
  | append_singleton t e ih =>
    rw [List.foldl_append]
    exact Wave.proper_follow ih e

/-! ## Lines -/

/-- What there is for the one who waits on a lane. -/
structure Line where
  isOpen : Bool
  waves : List Wave
  /-- `none` once it was dropped. -/
  inbox : Option Inbox

namespace Line

def isLive (l : Line) : Bool := Wave.ongoing l.waves

/-- A response comes for the lane. -/
def hear (l : Line) (r : Response) : Line :=
  if l.isLive then
    { l with waves := l.waves.modifyLast (·.hear r), inbox := l.inbox.map (·.push (.ok r)) }
  else l

/-- The requests of the lane's owner fail. -/
def strike (l : Line) (e : Failure) : Line :=
  if l.isLive then
    { l with waves := l.waves.modifyLast (·.strike e), inbox := l.inbox.map (·.push (.error e)) }
  else l

/-- The connection closes. -/
def lose (l : Line) : Line := { l.strike .connectionClosed with isOpen := false }

/-- A request is sent on the lane, and a new inbox is fed. -/
def renew (l : Line) (request : Request) : Line :=
  { l with waves := l.waves ++ [{ request := request }], inbox := some {} }

/-- The next delivery. With nothing to come any more it is a failure; `none` means that it is still
to come. -/
def poll (l : Line) : Option (Delivery × Line) :=
  match l.inbox with
  | none => none
  | some b => match b.queue with
    | d :: rest => some (d, { l with inbox := some { b with queue := rest } })
    | [] => if l.isLive then none else some (.error .connectionClosed, l)

@[simp] theorem isOpen_strike (l : Line) (e : Failure) : (l.strike e).isOpen = l.isOpen := by
  unfold strike; split <;> rfl

@[simp] theorem isOpen_hear (l : Line) (r : Response) : (l.hear r).isOpen = l.isOpen := by
  unfold hear; split <;> rfl

@[simp] theorem isLive_strike (l : Line) (e : Failure) : (l.strike e).isLive = false := by
  unfold strike
  cases h : l.isLive with
  | false => simp [h]
  | true =>
    obtain ⟨done, w, hw, -⟩ := Wave.exists_of_ongoing h
    simp [isLive, hw, List.modifyLast_concat]

/-- The last response, if none came before. -/
@[simp] theorem isLive_hear_terminal (l : Line) {r : Response} (hr : r.isTerminal = true) :
    (l.hear r).isLive = false := by
  unfold hear
  cases h : l.isLive with
  | false => simp [h]
  | true =>
    obtain ⟨done, w, hw, ho⟩ := Wave.exists_of_ongoing h
    simp [isLive, hw, List.modifyLast_concat, Wave.isOver_hear ho, hr]

/-- What the operations do to a line that is live. -/
theorem hear_of_live {l : Line} {done : List Wave} {w : Wave} (hw : l.waves = done ++ [w])
    (ho : w.isOver = false) (r : Response) :
    l.hear r = { l with waves := done ++ [w.hear r], inbox := l.inbox.map (·.push (.ok r)) } := by
  simp [hear, isLive, hw, ho, List.modifyLast_concat]

theorem strike_of_live {l : Line} {done : List Wave} {w : Wave} (hw : l.waves = done ++ [w])
    (ho : w.isOver = false) (e : Failure) :
    l.strike e =
      { l with waves := done ++ [w.strike e], inbox := l.inbox.map (·.push (.error e)) } := by
  simp [strike, isLive, hw, ho, List.modifyLast_concat]

theorem hear_of_not_live {l : Line} (h : l.isLive = false) (r : Response) : l.hear r = l := by
  simp [hear, h]

theorem strike_of_not_live {l : Line} (h : l.isLive = false) (e : Failure) : l.strike e = l := by
  simp [strike, h]

/-- A poll changes nothing but the inbox. -/
theorem same_poll {l l' : Line} {d : Delivery} (h : l.poll = some (d, l')) :
    l'.waves = l.waves ∧ l'.isOpen = l.isOpen := by
  unfold poll at h
  cases hb : l.inbox with
  | none =>
    rw [hb] at h
    cases h
  | some b =>
    rw [hb] at h
    dsimp only at h
    split at h
    · cases h
      exact ⟨rfl, rfl⟩
    · split at h
      · cases h
      · cases h
        exact ⟨rfl, rfl⟩

/-- That the connection is lost was told only when it was. -/
def Candid (l : Line) : Prop :=
  ∀ w ∈ l.waves, w.ending = some (.error .connectionClosed) → l.isOpen = false

theorem Candid.hear {l : Line} (h : l.Candid) (r : Response) : (l.hear r).Candid := by
  cases hl : l.isLive with
  | false => rwa [hear_of_not_live hl]
  | true =>
    obtain ⟨done, w, hw, ho⟩ := Wave.exists_of_ongoing hl
    rw [hear_of_live hw ho]
    intro v hv he
    rcases List.mem_append.1 hv with hv | hv
    · exact h v (by rw [hw]; exact List.mem_append_left _ hv) he
    · rw [List.mem_singleton.1 hv, Wave.hear, ho] at he
      split at he
      · contradiction
      · split at he
        · cases he
        · exact h w (by simp [hw]) he

theorem Candid.strike {l : Line} (h : l.Candid) {e : Failure}
    (hne : e = .connectionClosed → l.isOpen = false) : (l.strike e).Candid := by
  cases hl : l.isLive with
  | false => rwa [strike_of_not_live hl]
  | true =>
    obtain ⟨done, w, hw, ho⟩ := Wave.exists_of_ongoing hl
    rw [strike_of_live hw ho]
    intro v hv he
    rcases List.mem_append.1 hv with hv | hv
    · exact h v (by rw [hw]; exact List.mem_append_left _ hv) he
    · rw [List.mem_singleton.1 hv, Wave.strike_eq ho] at he
      cases he
      exact hne rfl

theorem candid_of_closed {l : Line} (h : l.isOpen = false) : l.Candid := fun _ _ _ => h

end Line

/-- What the link has for a lane whose inbox has the number `i`. -/
def Link.line (l : Link) (lane : Lane) (i : Nat) : Line :=
  ⟨l.isOpen, l.waves lane, l.router.inbox? i⟩

end QueryLanes
