import Mathlib.Data.List.Basic
import QueryLanes.Proofs.Canonical
import QueryLanes.Proofs.Steps

/-!
# Bytes as they arrive

The peer's bytes reach the client in chunks that know nothing of frames. A plan that has come to an
outcome other than the end of the stream keeps it when more bytes follow, `Plan.run_append`, so
frames once read stay as they are and a fault once found stays where it is, `readFrames_append`.
Reading the chunks one by one is therefore reading all that arrived at once.

`Whole` says without a reader which frames stand complete at the front of some bytes. An
`Endpoint.Event` is what can happen at the end of a stream, and `Endpoint.arrived` that whatever
happens there, the frames routed are those that stand complete in what was heard.
-/

namespace QueryLanes

/-! ## More bytes -/

namespace Plan

variable {α : Type}

/-- More bytes change nothing where the bytes had not run out. -/
theorem run_append (p : Plan α) (c : Cursor) (h : (p.run c).1 ≠ .error .ended)
    (more : List UInt8) : p.run ⟨c.rest ++ more, c.allowance⟩ =
      ((p.run c).1, ⟨(p.run c).2.rest ++ more, (p.run c).2.allowance⟩) := by
  induction p generalizing c with
  | done a => rfl
  | fault f => rfl
  | take n next ih =>
    simp only [run] at h ⊢
    split
    · rfl
    · rename_i ha
      rw [if_neg ha] at h
      by_cases hl : c.rest.length < n
      · rw [if_pos hl] at h
        exact absurd rfl h
      · rw [if_neg hl] at h ⊢
        have hle : n ≤ c.rest.length := Nat.le_of_not_lt hl
        have hm : ¬ (c.rest ++ more).length < n := by
          rw [List.length_append]
          omega
        rw [if_neg hm, List.take_append_of_le_length hle, List.drop_append_of_le_length hle]
        exact ih _ ⟨c.rest.drop n, c.allowance - n⟩ h

theorem run_ne_broken (p : Plan α) (c : Cursor) : (p.run c).1 ≠ .error .broken := by
  induction p generalizing c with
  | done a => nofun
  | fault f => nofun
  | take n next ih =>
    simp only [run]
    split
    · intro h
      cases h
    · split
      · intro h
        cases h
      · exact ih _ _

end Plan

section

variable {β : Type} {f : Format β} {bs more : List UInt8}

theorem readFrame_append (h : (readFrame f bs).1 ≠ .error .ended) (more : List UInt8) :
    readFrame f (bs ++ more) = ((readFrame f bs).1, (readFrame f bs).2 ++ more) := by
  unfold readFrame at h ⊢
  dsimp only at h ⊢
  rw [Plan.run_append _ ⟨bs, frameLimit⟩ h more]

theorem readFramesFrom_ok {x : Frame β} {rest : List UInt8} (h : readFrame f bs = (.ok x, rest))
    (position : Nat) : readFramesFrom f position bs =
      let after := position + (bs.length - rest.length)
      { readFramesFrom f after rest with
        frames := (x, after) :: (readFramesFrom f after rest).frames } := by
  rw [readFramesFrom]
  split <;> rename_i heq <;> rw [h] at heq <;> cases heq
  rfl

theorem readFramesFrom_error {e : Stop} (h : (readFrame f bs).1 = .error e) (position : Nat) :
    readFramesFrom f position bs = ⟨[], e, bs⟩ := by
  rw [readFramesFrom]
  split <;> rename_i heq <;> rw [heq] at h <;> cases h
  rfl

/-- What comes after the last frame is what reading stops at. -/
theorem readFrame_rest (f : Format β) (position : Nat) (bs : List UInt8) :
    (readFrame f (readFramesFrom f position bs).rest).1 =
      .error (readFramesFrom f position bs).stop := by
  fun_induction readFramesFrom f position bs with
  | case1 position bs x rest h _ after r ih => exact ih
  | case2 position bs e _ h => exact congrArg Prod.fst h

theorem length_rest_le (f : Format β) (position : Nat) (bs : List UInt8) :
    (readFramesFrom f position bs).rest.length ≤ bs.length := by
  fun_induction readFramesFrom f position bs with
  | case1 position bs x rest h _ after r ih =>
    exact Nat.le_trans ih (Nat.le_of_lt (readFrame_length_lt h))
  | case2 position bs e _ h => exact Nat.le_refl _

/-- Reading some bytes and more of them: the frames of the first stay as they are, with their
positions. If the first had run out, reading goes on behind them; a fault stays where it was. -/
theorem readFramesFrom_append (f : Format β) (position : Nat) (bs more : List UInt8) :
    readFramesFrom f position (bs ++ more) =
      let r := readFramesFrom f position bs
      if r.stop = .ended then
        let r' := readFramesFrom f (position + (bs.length - r.rest.length)) (r.rest ++ more)
        { r' with frames := r.frames ++ r'.frames }
      else { r with rest := r.rest ++ more } := by
  fun_induction readFramesFrom f position bs with
  | case1 position bs x rest h hlt after r ih =>
    have hne : (readFrame f bs).1 ≠ .error .ended := by
      rw [h]
      nofun
    have hmore := readFrame_append hne more
    rw [h] at hmore
    have hrest : r.rest.length ≤ rest.length := length_rest_le f after rest
    have hafter : position + ((bs ++ more).length - (rest ++ more).length) = after := by
      simp only [List.length_append, after]
      omega
    have hsum : after + (rest.length - r.rest.length) =
        position + (bs.length - r.rest.length) := by
      simp only [after]
      omega
    rw [readFramesFrom_ok hmore]
    dsimp only at ih ⊢
    rw [hafter, ih, hsum]
    split <;> rfl
  | case2 position bs e rest h =>
    dsimp only
    split
    · simp
    · rename_i hne
      have hne : (readFrame f bs).1 ≠ .error .ended := by
        rw [h]
        simpa using hne
      have hmore := readFrame_append hne more
      rw [h] at hmore
      exact readFramesFrom_error (congrArg Prod.fst hmore) position

/-- Where reading begins on the stream matters for the positions alone. -/
theorem readFramesFrom_position (f : Format β) (position p : Nat) (bs : List UInt8) :
    (readFramesFrom f position bs).frames.map (·.1) = (readFramesFrom f p bs).frames.map (·.1) ∧
      (readFramesFrom f position bs).stop = (readFramesFrom f p bs).stop ∧
      (readFramesFrom f position bs).rest = (readFramesFrom f p bs).rest := by
  fun_induction readFramesFrom f position bs generalizing p with
  | case1 position bs x rest h _ after r ih =>
    obtain ⟨hframes, hstop, hrest⟩ := ih (p + (bs.length - rest.length))
    rw [readFramesFrom_ok h]
    exact ⟨congrArg (x :: ·) hframes, hstop, hrest⟩
  | case2 position bs e _ h =>
    rw [readFramesFrom_error (congrArg Prod.fst h)]
    exact ⟨rfl, rfl, rfl⟩

/-- Bytes that were read up to a frame not whole yet, and more of them. -/
theorem readFrames_append (h : (readFrames f bs).stop = .ended) (more : List UInt8) :
    (readFrames f (bs ++ more)).frames.map (·.1) =
        (readFrames f bs).frames.map (·.1) ++
          (readFrames f ((readFrames f bs).rest ++ more)).frames.map (·.1) ∧
      (readFrames f (bs ++ more)).stop = (readFrames f ((readFrames f bs).rest ++ more)).stop ∧
      (readFrames f (bs ++ more)).rest = (readFrames f ((readFrames f bs).rest ++ more)).rest := by
  have happ := readFramesFrom_append f 0 bs more
  unfold readFrames at h
  dsimp only at happ
  rw [if_pos h] at happ
  obtain ⟨hframes, hstop, hrest⟩ := readFramesFrom_position f
    (0 + (bs.length - (readFramesFrom f 0 bs).rest.length)) 0 ((readFramesFrom f 0 bs).rest ++ more)
  unfold readFrames
  rw [happ]
  dsimp only
  rw [List.map_append, hframes]
  exact ⟨rfl, hstop, hrest⟩

/-- **More bytes never change a frame already read, nor a fault already found.** -/
theorem readFrames_stable (f : Format β) (bs more : List UInt8) :
    (readFrames f bs).frames <+: (readFrames f (bs ++ more)).frames ∧
      ((readFrames f bs).stop ≠ .ended → readFrames f (bs ++ more) =
        { readFrames f bs with rest := (readFrames f bs).rest ++ more }) := by
  have happ := readFramesFrom_append f 0 bs more
  dsimp only at happ
  unfold readFrames
  rw [happ]
  constructor
  · split
    · exact List.prefix_append _ _
    · exact List.prefix_refl _
  · intro hne
    rw [if_neg hne]

/-! ## Whole frames -/

/-- The frames `xs` stand whole at the front of some bytes, and no other one stands whole at the
front of the rest: what would be one exceeds the limit. -/
structure Whole (f : Format β) (bs : List UInt8) (xs : List (Frame β)) (rest : List UInt8) :
    Prop where
  bytes : bs = xs.flatMap (Format.frame f).encode ++ rest
  sized : ∀ x ∈ xs, ((Format.frame f).encode x).length ≤ frameLimit
  last : ∀ x more, rest = (Format.frame f).encode x ++ more →
    frameLimit < ((Format.frame f).encode x).length

theorem Whole.cons {x : Frame β} {xs : List (Frame β)} {rest rest' : List UInt8}
    (h : Whole f rest xs rest') (hx : ((Format.frame f).encode x).length ≤ frameLimit) :
    Whole f ((Format.frame f).encode x ++ rest) (x :: xs) rest' where
  bytes := by rw [List.flatMap_cons, List.append_assoc, ← h.bytes]
  sized := List.forall_mem_cons.2 ⟨hx, h.sized⟩
  last := h.last

/-- Reading finds the whole frames. -/
theorem Format.Lawful.whole_readFramesFrom (hf : f.Lawful) (position : Nat) (bs : List UInt8) :
    Whole f bs ((readFramesFrom f position bs).frames.map (·.1))
      (readFramesFrom f position bs).rest := by
  fun_induction readFramesFrom f position bs with
  | case1 position bs x rest h _ after r ih =>
    obtain ⟨hbs, hx⟩ := hf.readFrame_eq_ok.1 h
    rw [hbs]
    exact ih.cons hx
  | case2 position bs e _ h =>
    refine ⟨rfl, nofun, fun x more hbs => Nat.lt_of_not_le fun hx => ?_⟩
    rw [hf.readFrame_eq_ok.2 ⟨hbs, hx⟩] at h
    cases h

/-- There is one way to see some bytes as whole frames and a rest. -/
theorem Format.Lawful.whole_iff (hf : f.Lawful) {xs : List (Frame β)} {rest : List UInt8} :
    Whole f bs xs rest ↔
      xs = (readFrames f bs).frames.map (·.1) ∧ rest = (readFrames f bs).rest := by
  constructor
  · intro h
    unfold readFrames
    generalize 0 = position
    induction xs generalizing bs position with
    | nil =>
      have hbs : bs = rest := h.bytes
      subst hbs
      rcases hr : readFrame f bs with ⟨e | x, more⟩
      · rw [readFramesFrom_error (congrArg Prod.fst hr)]
        exact ⟨rfl, rfl⟩
      · obtain ⟨hbs, hx⟩ := hf.readFrame_eq_ok.1 hr
        exact absurd (h.last x more hbs) (Nat.not_lt.2 hx)
    | cons x xs ih =>
      have hbs := h.bytes
      rw [List.flatMap_cons, List.append_assoc] at hbs
      have hr := hf.readFrame_eq_ok.2 ⟨hbs, h.sized x List.mem_cons_self⟩
      have htail : Whole f (xs.flatMap (Format.frame f).encode ++ rest) xs rest :=
        ⟨rfl, fun y hy => h.sized y (List.mem_cons_of_mem _ hy), h.last⟩
      obtain ⟨hxs, hrest⟩ := ih htail
        (position + (bs.length - (xs.flatMap (Format.frame f).encode ++ rest).length))
      rw [readFramesFrom_ok hr]
      dsimp only
      rw [List.map_cons, ← hxs]
      exact ⟨rfl, hrest⟩
  · rintro ⟨rfl, rfl⟩
    exact hf.whole_readFramesFrom 0 bs

end

/-! ## A link that hears frames -/

namespace Link

/-- The frames received so far. -/
def received (l : Link) : List ServerFrame :=
  l.transcript.filterMap fun | .received f => some f | _ => none

@[simp] theorem received_record (l : Link) (e : Entry) : (l.record e).received =
    l.received ++ (match e with | .received f => [f] | _ => []) := by
  unfold received record
  rw [List.filterMap_append]
  cases e <;> rfl

theorem received_dispatch (l : Link) (lane : Lane) (o : Owner) (request : Request) :
    (l.dispatch lane o request).2.received = l.received := by
  unfold dispatch send
  split
  · rfl
  · split <;> rename_i hs
    · split at hs
      · cases hs
        exact (received_record ..).trans (List.append_nil _)
      · cases hs
    · rfl

theorem received_fail (l : Link) (doomed : Owner → Bool) (e : Failure) :
    (l.fail doomed e).received = l.received :=
  (received_record ..).trans (List.append_nil _)

theorem received_close (l : Link) : l.close.received = l.received := by
  rw [close_eq]
  split
  · exact received_fail l _ _
  · rfl

/-- A client receives nothing by its own doing. -/
theorem Works.received {P : Power → Prop} {l l' : Link} (h : l.Works P l') : l'.received = l.received := by
  refine h.keeps (K := fun l' => l'.received = l.received) (fun l₁ l₂ hd heq => ?_) rfl
  rw [← heq]
  cases hd with
  | dispatch => exact received_dispatch ..
  | fail => exact received_fail ..
  | ran => exact (received_record ..).trans (List.append_nil _)
  | close => exact received_close l₁
  | _ => rfl

theorem isOpen_receive_all (l : Link) (fs : List ServerFrame) :
    (fs.foldl receive l).isOpen = l.isOpen := by
  induction fs generalizing l with
  | nil => rfl
  | cons f fs ih => exact (ih _).trans (Client.isOpen_receive l f)

theorem received_receive {l : Link} (hopen : l.isOpen = true) (f : ServerFrame) :
    (l.receive f).received = l.received ++ [f] := by
  unfold receive
  rw [if_pos hopen]
  exact received_record ..

theorem received_receive_all {l : Link} (hopen : l.isOpen = true) (fs : List ServerFrame) :
    (fs.foldl receive l).received = l.received ++ fs := by
  induction fs generalizing l with
  | nil => exact (List.append_nil _).symm
  | cons f fs ih =>
    rw [List.foldl_cons, ih ((Client.isOpen_receive l f).trans hopen), received_receive hopen,
      List.append_assoc]
    rfl

/-- All frames that are whole at the front of some bytes are heard, and if what follows them can
become none, the connection ends. -/
def read (l : Link) (bs : List UInt8) : Link :=
  let heard := ((readFrames .response bs).frames.map (·.1)).foldl receive l
  if (readFrames .response bs).stop = .ended then heard else heard.close

theorem isOpen_read {l : Link} (hopen : l.isOpen = true) (bs : List UInt8) :
    (l.read bs).isOpen = true ↔ (readFrames .response bs).stop = .ended := by
  unfold read
  dsimp only
  split
  · rename_i hs
    rw [isOpen_receive_all]
    exact iff_of_true hopen hs
  · rename_i hs
    rw [isOpen_close]
    exact iff_of_false nofun hs

theorem received_read {l : Link} (hopen : l.isOpen = true) (bs : List UInt8) :
    (l.read bs).received = l.received ++ (readFrames .response bs).frames.map (·.1) := by
  rw [← received_receive_all hopen]
  unfold read
  dsimp only
  split
  · rfl
  · exact received_close _

/-- Bytes in the middle of a frame are waited for, and the others count with those that come. -/
theorem read_append {l : Link} {bs : List UInt8} (h : (readFrames .response bs).stop = .ended)
    (more : List UInt8) :
    l.read (bs ++ more) = (l.read bs).read ((readFrames .response bs).rest ++ more) := by
  obtain ⟨hframes, hstop, -⟩ := readFrames_append h more
  unfold read
  dsimp only
  rw [hframes, hstop, if_pos h, List.foldl_append]

/-- After a fault nothing is read any more. -/
theorem read_of_fault {l : Link} {bs : List UInt8} (h : (readFrames .response bs).stop ≠ .ended)
    (more : List UInt8) : l.read (bs ++ more) = l.read bs := by
  unfold read
  rw [(readFrames_stable .response bs more).2 h]

end Link

/-! ## Events -/

variable {α : Type}

namespace Endpoint

/-- What can happen at a client's end of the stream. -/
inductive Event (α : Type) where
  /-- Some of the peer's bytes. -/
  | bytes (chunk : List UInt8)
  | hangUp
  | call (k : Call α)
  | resume
  | expire

/-- A move of the client. -/
def move (e : Endpoint α) (m : Move α) : Endpoint α := { e with client := (e.client.step m).1 }

def step (e : Endpoint α) : Event α → Endpoint α
  | .bytes chunk => e.receive chunk
  | .hangUp => e.move .lose
  | .call k => e.move (.call k)
  | .resume => e.move .resume
  | .expire => e.move .expire

def run (e : Endpoint α) (es : List (Event α)) : Endpoint α := es.foldl step e

def isOpen (e : Endpoint α) : Bool := e.client.link.isOpen

/-- The frames routed so far. -/
def received (e : Endpoint α) : List ServerFrame := e.client.link.received

/-- The bytes of an event that are heard: a closed connection is deaf. -/
def hears (e : Endpoint α) : Event α → List UInt8
  | .bytes chunk => if e.isOpen then chunk else []
  | _ => []

/-- All that is heard while some events happen. -/
def heard (e : Endpoint α) : List (Event α) → List UInt8
  | [] => []
  | ev :: es => e.hears ev ++ (e.step ev).heard es

/-- The end of the stream before anything has happened. -/
def new (timeout : Option Nat) : Endpoint α := { client := { requestTimeout := timeout } }

/-- The frames routed are those read from the bytes `bs`, and as long as the connection is open it
waits in the middle of a frame for what is left of it. -/
structure Reads (e : Endpoint α) (bs : List UInt8) : Prop where
  received : e.received = (readFrames .response bs).frames.map (·.1)
  ended : e.isOpen = true → (readFrames .response bs).stop = .ended
  pending : e.isOpen = true → e.arrivals.pending = (readFrames .response bs).rest

variable {e : Endpoint α} {bs : List UInt8}

theorem receive_of_closed (h : e.isOpen = false) (chunk : List UInt8) : e.receive chunk = e := by
  unfold receive
  exact if_neg (by rw [show e.client.link.isOpen = false from h]; decide)

theorem receive_all_of_closed (h : e.isOpen = false) (cs : List (List UInt8)) :
    cs.foldl receive e = e := by
  induction cs with
  | nil => rfl
  | cons chunk cs ih => rw [List.foldl_cons, receive_of_closed h, ih]

theorem isEnd_eq (s : Stop) : s.isEnd = decide (s = .ended) := by
  cases s <;> simp [Stop.isEnd]

theorem receive_of_open (h : e.isOpen = true) (chunk : List UInt8) : e.receive chunk =
    { client := { e.client with link := e.client.link.read (e.arrivals.pending ++ chunk) }
      arrivals := ⟨(readFrames .response (e.arrivals.pending ++ chunk)).rest⟩ } := by
  unfold receive
  rw [if_pos (show e.client.link.isOpen = true from h)]
  unfold Arrivals.feed Link.read
  dsimp only
  rw [isEnd_eq]
  by_cases hs : (readFrames .response (e.arrivals.pending ++ chunk)).stop = .ended <;> simp [hs]

theorem Reads.receive (h : e.Reads bs) (hopen : e.isOpen = true) (chunk : List UInt8) :
    (e.receive chunk).Reads (bs ++ chunk) := by
  obtain ⟨hframes, hstop, hrest⟩ := readFrames_append (h.ended hopen) chunk
  rw [← h.pending hopen] at hframes hstop hrest
  rw [receive_of_open hopen]
  refine ⟨?_, ?_, fun _ => hrest.symm⟩
  · rw [hframes, ← h.received]
    exact Link.received_read hopen _
  · rw [hstop]
    exact (Link.isOpen_read hopen _).1

/-- A client learns of no frame by its own doing, and opens no connection again. -/
theorem Reads.move (h : e.Reads bs) {m : Move α} (hm : ∀ f, m ≠ .arrive f) :
    (e.move m).Reads bs := by
  have hworks := Client.works_step e.client hm
  have hopen : (e.move m).isOpen = true → e.isOpen = true := by
    intro ho
    by_contra hc
    rw [Bool.not_eq_true] at hc
    rw [show (e.move m).isOpen = false from hworks.isOpen hc] at ho
    cases ho
  exact ⟨hworks.received.trans h.received, fun ho => h.ended (hopen ho),
    fun ho => h.pending (hopen ho)⟩

theorem Reads.deaf (h : e.Reads bs) : e.Reads (bs ++ []) := by
  rwa [List.append_nil]

theorem Reads.step (h : e.Reads bs) (ev : Event α) : (e.step ev).Reads (bs ++ e.hears ev) := by
  cases ev with
  | bytes chunk =>
    change (e.receive chunk).Reads (bs ++ if e.isOpen then chunk else [])
    cases hopen : e.isOpen with
    | true => exact h.receive hopen chunk
    | false =>
      rw [receive_of_closed hopen]
      exact h.deaf
  | hangUp => exact (h.move (m := .lose) nofun).deaf
  | call k => exact (h.move (m := .call k) nofun).deaf
  | resume => exact (h.move (m := .resume) nofun).deaf
  | expire => exact (h.move (m := .expire) nofun).deaf

theorem Reads.run (h : e.Reads bs) (es : List (Event α)) : (e.run es).Reads (bs ++ e.heard es) := by
  induction es generalizing e bs with
  | nil => exact h.deaf
  | cons ev es ih =>
    have hrun := ih (h.step ev)
    rwa [List.append_assoc] at hrun

theorem reads_new (timeout : Option Nat) : (new timeout : Endpoint α).Reads [] := by
  have hnil : readFrames Format.response [] = ⟨[], .ended, []⟩ :=
    readFramesFrom_error (by decide) 0
  exact ⟨by rw [hnil]; rfl, fun _ => by rw [hnil], fun _ => by rw [hnil]; rfl⟩

theorem reads_run_new (timeout : Option Nat) (es : List (Event α)) :
    ((new timeout : Endpoint α).run es).Reads ((new timeout : Endpoint α).heard es) :=
  (reads_new timeout).run es

/-! ## Chunks -/

/-- Chunks come to the same as all their bytes at once. -/
theorem Reads.receive_all (h : e.Reads bs) (hopen : e.isOpen = true) (cs : List (List UInt8)) :
    (cs.foldl Endpoint.receive e).client =
      { e.client with link := e.client.link.read (e.arrivals.pending ++ cs.flatten) } := by
  induction cs generalizing e bs with
  | nil =>
    have hlast := readFrame_rest Format.response 0 bs
    rw [show (readFramesFrom .response 0 bs).stop = .ended from h.ended hopen] at hlast
    have hnone := readFramesFrom_error hlast 0
    rw [List.foldl_nil, List.flatten_nil, List.append_nil, h.pending hopen]
    unfold Link.read readFrames
    rw [hnone]
    rfl
  | cons chunk cs ih =>
    have hread := Link.isOpen_read hopen (e.arrivals.pending ++ chunk)
    have hchunk := receive_of_open hopen chunk
    rw [List.foldl_cons, List.flatten_cons, ← List.append_assoc]
    cases hopen' : (e.receive chunk).isOpen with
    | true =>
      rw [ih (h.receive hopen chunk) hopen']
      rw [hchunk] at hopen' ⊢
      rw [Link.read_append (hread.1 hopen')]
    | false =>
      rw [receive_all_of_closed hopen']
      rw [hchunk] at hopen' ⊢
      have hfault : (readFrames .response (e.arrivals.pending ++ chunk)).stop ≠ .ended := by
        intro hs
        exact Bool.false_ne_true (hopen'.symm.trans (hread.2 hs))
      rw [Link.read_of_fault hfault]

/-- Whatever the chunks, the frames routed are the whole ones of all bytes so far, and the
connection is closed if what follows them faults. -/
theorem Reads.chunks (h : e.Reads bs) (hopen : e.isOpen = true) (cs : List (List UInt8)) :
    ∃ rest, Whole .response (bs ++ cs.flatten) (cs.foldl Endpoint.receive e).received rest ∧
      ((cs.foldl Endpoint.receive e).isOpen = false ↔
        (readFrame .response rest).1 = .error .tooLarge ∨
          ∃ f, (readFrame .response rest).1 = .error (.fault f)) := by
  obtain ⟨hframes, hstop, -⟩ := readFrames_append (h.ended hopen) cs.flatten
  rw [← h.pending hopen] at hframes hstop
  have hclient := h.receive_all hopen cs
  have hreceived : (cs.foldl Endpoint.receive e).received =
      (readFrames .response (bs ++ cs.flatten)).frames.map (·.1) := by
    rw [hframes, ← h.received]
    unfold Endpoint.received
    rw [hclient]
    exact Link.received_read hopen _
  have hisOpen : (cs.foldl Endpoint.receive e).isOpen = true ↔
      (readFrames .response (bs ++ cs.flatten)).stop = .ended := by
    rw [hstop]
    unfold isOpen
    rw [hclient]
    exact Link.isOpen_read hopen _
  have hrest := readFrame_rest Format.response 0 (bs ++ cs.flatten)
  refine ⟨_, Format.lawful_response.whole_iff.2 ⟨hreceived, rfl⟩, ?_⟩
  unfold readFrames at hisOpen ⊢
  rw [hrest, ← Bool.not_eq_true, hisOpen]
  have hne : (readFramesFrom .response 0 (bs ++ cs.flatten)).stop ≠ .broken := by
    rintro hs
    rw [hs] at hrest
    exact Plan.run_ne_broken _ _ hrest
  cases hs : (readFramesFrom .response 0 (bs ++ cs.flatten)).stop with
  | ended => simp
  | broken => exact absurd hs hne
  | tooLarge => simp
  | fault f => simp

theorem isOpen_hangUp (e : Endpoint α) : (e.step .hangUp).isOpen = false :=
  Link.isOpen_close e.client.link

/-- A closed connection stays closed, and no more frames are routed. -/
theorem run_of_closed (h : e.isOpen = false) (es : List (Event α)) :
    (e.run es).isOpen = false ∧ (e.run es).received = e.received := by
  induction es generalizing e with
  | nil => exact ⟨h, rfl⟩
  | cons ev es ih =>
    have hstep : (e.step ev).isOpen = false ∧ (e.step ev).received = e.received := by
      have hmove {m : Move α} (hm : ∀ f, m ≠ .arrive f) :
          (e.move m).isOpen = false ∧ (e.move m).received = e.received :=
        ⟨(Client.works_step e.client hm).isOpen h, (Client.works_step e.client hm).received⟩
      cases ev with
      | bytes chunk => exact ⟨by rwa [step, receive_of_closed h], by rw [step, receive_of_closed h]⟩
      | hangUp => exact hmove nofun
      | call k => exact hmove nofun
      | resume => exact hmove nofun
      | expire => exact hmove nofun
    obtain ⟨hclosed, hreceived⟩ := ih hstep.1
    exact ⟨hclosed, hreceived.trans hstep.2⟩

/-- **The frames do not depend on how the bytes arrive.** Whatever happens at the end of a stream,
the frames routed are those that stand whole at the front of all that was heard, and while the
connection is open the bytes behind them have just run out. Chunks that arrive then, cut anywhere,
leave the client as all their bytes at once would: the whole frames of everything heard so far are
routed, and the connection is closed exactly if what follows those exceeds the limit or holds a
fault. A peer that hangs up closes it, and what is closed hears nothing more. Frames once read, and
faults once found, stand whatever bytes follow. -/
theorem read_as_heard (timeout : Option Nat) (es : List (Event α)) :
    let e := (new timeout : Endpoint α).run es
    let bs := (new timeout : Endpoint α).heard es
    (∃ rest, Whole .response bs e.received rest ∧
      (e.isOpen = true → (readFrame .response rest).1 = .error .ended)) ∧
    (e.isOpen = true → ∀ cs : List (List UInt8),
      (cs.foldl receive e).client = (e.receive cs.flatten).client ∧
      ∃ rest, Whole .response (bs ++ cs.flatten) (cs.foldl receive e).received rest ∧
        ((cs.foldl receive e).isOpen = false ↔
          (readFrame .response rest).1 = .error .tooLarge ∨
            ∃ f, (readFrame .response rest).1 = .error (.fault f))) ∧
    (e.step .hangUp).isOpen = false ∧
    (e.isOpen = false → ∀ es', (e.run es').isOpen = false ∧ (e.run es').received = e.received) ∧
    ∀ heard more : List UInt8,
      (readFrames Format.response heard).frames <+: (readFrames .response (heard ++ more)).frames ∧
        ((readFrames Format.response heard).stop ≠ .ended →
          (readFrames Format.response (heard ++ more)).frames =
              (readFrames .response heard).frames ∧
            (readFrames Format.response (heard ++ more)).stop =
              (readFrames .response heard).stop) := by
  intro e bs
  have h : e.Reads bs := reads_run_new timeout es
  refine ⟨⟨_, Format.lawful_response.whole_iff.2 ⟨h.received, rfl⟩, fun hopen => ?_⟩,
    fun hopen cs => ⟨?_, h.chunks hopen cs⟩, isOpen_hangUp e, run_of_closed, fun heard more => ?_⟩
  · have hrest := readFrame_rest Format.response 0 bs
    rwa [show (readFramesFrom .response 0 bs).stop = .ended from h.ended hopen] at hrest
  · rw [h.receive_all hopen cs, receive_of_open hopen]
  · obtain ⟨hstays, hfault⟩ := readFrames_stable .response heard more
    refine ⟨hstays, fun hne => ?_⟩
    rw [hfault hne]
    exact ⟨rfl, rfl⟩

end Endpoint

end QueryLanes
