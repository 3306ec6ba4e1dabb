import QueryLanes.Proofs.Discipline
import QueryLanes.Proofs.Reckoning

/-!
# Paging

A server that keeps to the rules answers each request of a query with as many of the payloads that
are left as the batch may hold, and then with a token if there are more and with the mark of
completion if not: the `Pager`.

`Solo.Pages` ties a query to its pager. What the last wave of the query has delivered and what is on
the way make one batch, and the waves before are full batches. So a query that is exhausted has read
all payloads, in the batches that they make, `Solo.Pages.exhausted`.
-/

namespace QueryLanes

variable {α : Type}

/-! ## The pager -/

/-- How many payloads a batch holds at most. -/
def BatchSize.limit? : BatchSize → Option Nat
  | .number n => some n.toNat
  | .all => none

/-- How many of `k` payloads that are left go into the next batch. -/
def BatchSize.share (b : BatchSize) (k : Nat) : Nat :=
  match b with
  | .number n => min n.toNat k
  | .all => k

/-- The server of one query. Its tokens are any numbers but 0. -/
structure Pager where
  /-- The payloads that are in no batch yet. -/
  left : List Payload
  /-- What is on the way to the client. -/
  outbox : List Response := []
  /-- How many batches were begun. -/
  served : Nat := 0
  token : Nat → UInt64
  token_ne : ∀ n, token n ≠ 0

namespace Pager

/-- What ends the latest batch. -/
def closing (p : Pager) : Response :=
  if p.left.isEmpty then .item .completion else .item (.continuation (p.token p.served))

/-- A batch of the next payloads, without its end. -/
def cut (p : Pager) (n : Nat) : Pager :=
  { p with
    left := p.left.drop n
    outbox := p.outbox ++ (p.left.take n).map .data
    served := p.served + 1 }

/-- A request is answered by the next batch. -/
def answer (p : Pager) : Request → Pager
  | .fetch _ f =>
    let q := p.cut (f.options.batchSize.share p.left.length)
    { q with outbox := q.outbox ++ [q.closing] }
  | _ => p

def answerAll (p : Pager) (rs : List Request) : Pager := rs.foldl answer p

theorem isTerminal_closing (p : Pager) : p.closing.isTerminal = true := by
  unfold closing
  split
  · rfl
  · simp [Response.isTerminal, Item.isLast, Item.continuation]

theorem token?_closing (p : Pager) : Delivery.token? (.ok p.closing) =
    if p.left.isEmpty then none else some (p.token p.served) := by
  unfold closing
  split
  · rfl
  · simp [Delivery.token?, Item.meaning, Item.continuation, p.token_ne]

end Pager

/-! ## One batch -/

/-- Where a batch of payloads and its end is cut in two, the first part holds payloads, or all. -/
theorem batch_cut {xs ys : List Payload} {out : List Response} {last : Response}
    (h : xs.map .data ++ out = ys.map .data ++ [last]) (hlast : last.isTerminal = true) :
    ∃ zs : List Payload, ys = xs ++ zs ∧ out = zs.map .data ++ [last] := by
  induction xs generalizing ys with
  | nil => exact ⟨ys, rfl, h⟩
  | cons x xs ih =>
    cases ys with
    | nil =>
      obtain ⟨hx, -⟩ := List.cons.inj h
      rw [← hx] at hlast
      cases hlast
    | cons y ys =>
      obtain ⟨hx, hrest⟩ := List.cons.inj h
      cases hx
      obtain ⟨zs, rfl, hout⟩ := ih hrest
      exact ⟨zs, rfl, hout⟩

/-- The responses that belong to a wave. -/
def Wave.responses (w : Wave) : List Response :=
  w.answers.map .data ++ (w.ending.bind (·.toOption)).toList

theorem Wave.responses_hear {w : Wave} (ho : w.isOver = false) (r : Response) :
    (w.hear r).responses = w.responses ++ [r] := by
  have he : w.ending = none := by simpa [isOver] using ho
  cases hr : r.isTerminal with
  | true => simp [responses, hear_terminal ho hr, he, Except.toOption]
  | false =>
    obtain ⟨p, rfl⟩ := Response.eq_data_of_not_isTerminal hr
    simp [responses, hear_data ho, he]

namespace BatchSize

variable {b : BatchSize} {k : Nat}

theorem share_le (b : BatchSize) (k : Nat) : b.share k ≤ k := by
  cases b with
  | number n => exact Nat.min_le_right ..
  | all => exact Nat.le_refl k

theorem limit_pos {n : UInt32} (hb : BatchSize.number n ≠ .number 0) : 0 < n.toNat := by
  refine Nat.pos_of_ne_zero fun h => hb ?_
  rw [UInt32.toNat_inj.1 (h.trans (UInt32.toNat_zero).symm)]

theorem share_pos (hb : b ≠ .number 0) (hk : 0 < k) : 0 < b.share k := by
  cases b with
  | number n =>
    exact Nat.lt_min.2 ⟨limit_pos hb, hk⟩
  | all => exact hk

/-- A batch after which something is left is full. -/
theorem limit?_of_share {n : Nat} (h : n = b.share (n + k)) (hk : 0 < k) : b.limit? = some n := by
  cases b with
  | number m =>
    simp only [share, limit?] at h ⊢
    congr
    omega
  | all =>
    simp only [share] at h
    omega

/-- The sizes of the batches that `k` payloads make: all are full but the last one. -/
def chunks (b : BatchSize) (k : Nat) : List Nat :=
  match b with
  | .number n => List.replicate ((k - 1) / n.toNat) n.toNat ++ [k - (k - 1) / n.toNat * n.toNat]
  | .all => [k]

/-- How many batches `k` payloads make: without any there is still one. -/
def batches (b : BatchSize) (k : Nat) : Nat :=
  match b with
  | .number n => max 1 ((k + n.toNat - 1) / n.toNat)
  | .all => 1

theorem length_chunks (hb : b ≠ .number 0) (k : Nat) : (b.chunks k).length = b.batches k := by
  cases b with
  | all => rfl
  | number n =>
    have hn := limit_pos hb
    rw [chunks, batches, List.length_append, List.length_replicate, List.length_singleton]
    cases k with
    | zero =>
      rw [Nat.zero_sub, Nat.zero_div, Nat.zero_add, Nat.zero_add, Nat.div_eq_of_lt (by omega)]
      rfl
    | succ k =>
      rw [Nat.add_sub_cancel, show k + 1 + n.toNat - 1 = k + n.toNat by omega,
        Nat.add_div_right k hn]
      exact (Nat.max_eq_right (Nat.le_add_left 1 _)).symm

/-- Full batches and a last one that is not empty after them are the batches of their sum. -/
theorem eq_chunks {full : List Nat} {last : Nat} (hb : b ≠ .number 0)
    (hfull : ∀ n ∈ full, b.limit? = some n) (hlast : last = b.share last)
    (hnonempty : full ≠ [] → last ≠ 0) (hsum : (full ++ [last]).sum = k) :
    full ++ [last] = b.chunks k := by
  cases b with
  | all =>
    have hnil : full = [] := List.eq_nil_iff_forall_not_mem.2 fun n hn => nomatch hfull n hn
    subst hnil
    rw [← hsum, chunks, List.nil_append, List.sum_singleton]
  | number n =>
    have hn := limit_pos hb
    have hreplicate : full = List.replicate full.length n.toNat :=
      List.eq_replicate_iff.2 ⟨rfl, fun m hm => (Option.some.inj (hfull m hm)).symm⟩
    rw [List.sum_append, List.sum_singleton, hreplicate, List.sum_replicate_nat] at hsum
    have hle : last ≤ n.toNat := by
      rw [hlast]
      exact Nat.min_le_left ..
    have hquotient : (k - 1) / n.toNat = full.length := by
      cases hlen : full.length with
      | zero =>
        rw [hlen] at hsum
        exact Nat.div_eq_of_lt (by omega)
      | succ m =>
        have hpos := hnonempty (List.ne_nil_of_length_eq_add_one hlen)
        rw [hlen] at hsum
        rw [show k - 1 = last - 1 + n.toNat * (m + 1) by rw [Nat.mul_comm]; omega,
          Nat.add_mul_div_left _ _ hn, Nat.div_eq_of_lt (by omega), Nat.zero_add]
    rw [chunks, hquotient, ← hreplicate, ← hsum, Nat.add_sub_cancel_left]

end BatchSize

/-- The waves `done` are whole batches, and the batch of `chunk` and its end is what the last wave
has delivered and what is on the way, unless the wave has failed. What is left begins after it. -/
structure ServesAt (ps : List Payload) (b : BatchSize) (p : Pager) (done : List Wave) (w : Wave)
    (chunk : List Payload) : Prop where
  payloads : done.flatMap (·.answers) ++ chunk ++ p.left = ps
  whole : ∀ v ∈ done, b.limit? = some v.answers.length
  share : chunk.length = b.share (chunk.length + p.left.length)
  nonempty : done ≠ [] → chunk ≠ []
  delivers : (∃ e, w.ending = some (.error e)) ∨
    w.responses ++ p.outbox = chunk.map .data ++ [p.closing]

namespace ServesAt

variable {ps chunk : List Payload} {b : BatchSize} {p : Pager} {done : List Wave} {w : Wave}
  {r : Response}

/-- With nothing on the way, a request is answered by the next batch. -/
theorem answer (hout : p.outbox = []) (hps : done.flatMap (·.answers) ++ p.left = ps)
    (hwhole : ∀ v ∈ done, b.limit? = some v.answers.length) (hleft : done ≠ [] → p.left ≠ [])
    (hb : b ≠ .number 0) (t : UInt64) {f : Fetch} (hf : f.options.batchSize = b) :
    ServesAt ps b (p.answer (.fetch t f)) done { request := .fetch t f }
      (p.left.take (b.share p.left.length)) := by
  subst hf
  have hle := f.options.batchSize.share_le p.left.length
  have hlength : (p.left.take (f.options.batchSize.share p.left.length)).length =
      f.options.batchSize.share p.left.length := List.length_take_of_le hle
  refine ⟨?_, hwhole, ?_, fun hdone hnil => ?_, .inr ?_⟩
  · rw [List.append_assoc]
    show _ ++ (_ ++ p.left.drop _) = ps
    rw [List.take_append_drop, hps]
  · have hrest : (p.answer (.fetch t f)).left.length =
        p.left.length - f.options.batchSize.share p.left.length := List.length_drop
    rw [hlength, hrest, Nat.add_sub_cancel' hle]
  · have hpos := BatchSize.share_pos hb (List.length_pos_iff.2 (hleft hdone))
    rw [hnil] at hlength
    exact Nat.ne_of_gt hpos hlength.symm
  · show [] ++ (p.outbox ++ _ ++ [_]) = _
    rw [hout]
    rfl

/-- A wave that has ended as it should has delivered its batch. -/
theorem delivered (h : ServesAt ps b p done w chunk) (hend : w.ending = some (.ok r))
    (hr : r.isTerminal = true) : w.answers = chunk ∧ r = p.closing ∧ p.outbox = [] := by
  rcases h.delivers with ⟨e, he⟩ | hall
  · rw [hend] at he
    cases he
  · rw [Wave.responses, hend, List.append_assoc] at hall
    obtain ⟨zs, hchunk, hrest⟩ := batch_cut hall p.isTerminal_closing
    cases zs with
    | nil =>
      obtain ⟨hclosing, hout⟩ := List.cons.inj hrest
      exact ⟨by rw [hchunk, List.append_nil], hclosing, hout⟩
    | cons z zs =>
      obtain ⟨hdata, -⟩ := List.cons.inj hrest
      rw [show r = .data z from hdata] at hr
      cases hr

/-- What a wave that goes on has not delivered is on the way. -/
theorem ongoing (h : ServesAt ps b p done w chunk) (hend : w.ending = none) :
    ∃ zs, chunk = w.answers ++ zs ∧ p.outbox = zs.map .data ++ [p.closing] := by
  rcases h.delivers with ⟨e, he⟩ | hall
  · rw [hend] at he
    cases he
  · rw [Wave.responses, hend, Option.bind_none, Option.toList_none, List.append_nil] at hall
    exact batch_cut hall p.isTerminal_closing

theorem hear (h : ServesAt ps b p done w chunk) (hw : w.Proper) {out : List Response}
    (hout : p.outbox = r :: out) :
    ServesAt ps b { p with outbox := out } done (w.hear r) chunk := by
  refine { h with delivers := ?_ }
  cases hend : w.ending with
  | none =>
    have ho : w.isOver = false := by rw [Wave.isOver, hend]; rfl
    rcases h.delivers with ⟨e, he⟩ | hall
    · rw [hend] at he
      cases he
    · refine .inr ?_
      rw [Wave.responses_hear ho, List.append_assoc, List.singleton_append, ← hout]
      exact hall
  | some d =>
    have ho : w.isOver = true := by rw [Wave.isOver, hend]; rfl
    rw [Wave.hear_of_isOver ho]
    cases d with
    | error e => exact .inl ⟨e, hend⟩
    | ok r' =>
      obtain ⟨-, -, hnone⟩ := h.delivered hend (hw r' hend)
      rw [hout] at hnone
      cases hnone

theorem strike (h : ServesAt ps b p done w chunk) (e : Failure) :
    ServesAt ps b p done (w.strike e) chunk := by
  cases ho : w.isOver with
  | true => rwa [Wave.strike, ho, if_pos rfl]
  | false => exact { h with delivers := .inl ⟨e, by rw [Wave.strike_eq ho]⟩ }

/-- A wave that has ended with a token is whole, and the next request is answered by the next
batch. -/
theorem renew (h : ServesAt ps b p done w chunk) {token : UInt64} (htoken : w.token? = some token)
    (hb : b ≠ .number 0) (t : UInt64) {f : Fetch} (hf : f.options.batchSize = b) :
    ServesAt ps b (p.answer (.fetch t f)) (done ++ [w]) { request := .fetch t f }
      (p.left.take (b.share p.left.length)) ∧ p.outbox = [] ∧ p.left ≠ [] := by
  obtain ⟨i, hend, hi⟩ := Wave.token?_eq_some.1 htoken
  have hlast : (Response.item i).isTerminal = true := by
    refine i.isLast_iff.2 fun p => ?_
    rw [hi]
    exact nofun
  obtain ⟨hanswers, hclosing, hout⟩ := h.delivered hend hlast
  have hleft : p.left ≠ [] := by
    intro hnil
    have ht := p.token?_closing
    rw [← hclosing, hnil, Delivery.token?_eq_some.2 ⟨i, rfl, hi⟩] at ht
    cases ht
  refine ⟨answer hout ?_ (fun v hv => ?_) (fun _ => hleft) hb t hf, hout, hleft⟩
  · rw [List.flatMap_append, List.flatMap_singleton, hanswers]
    exact h.payloads
  · rcases List.mem_append.1 hv with hv | hv
    · exact h.whole v hv
    · rw [List.mem_singleton.1 hv, hanswers]
      exact BatchSize.limit?_of_share h.share (List.length_pos_iff.2 hleft)

end ServesAt

/-! ## A query and its pager -/

namespace Solo

variable {s s' s'' : Solo α} {ps : List Payload} {b : BatchSize} {p : Pager}

/-- The requests that were added between two states. -/
def news (s s' : Solo α) : List Request :=
  (s'.line.waves.map (·.request)).drop s.line.waves.length

theorem news_eq {rs : List Request}
    (h : s'.line.waves.map (·.request) = s.line.waves.map (·.request) ++ rs) : s.news s' = rs := by
  rw [news, h, ← List.length_map, List.drop_left]

theorem news_trans (h : s.Grows s') (h' : s'.Grows s'') :
    s.news s'' = s.news s' ++ s'.news s'' := by
  obtain ⟨rs, hrs⟩ := h.requests
  obtain ⟨rs', hrs'⟩ := h'.requests
  have hboth : s''.line.waves.map (·.request) = s.line.waves.map (·.request) ++ (rs ++ rs') := by
    rw [← hrs', ← hrs, List.append_assoc]
  rw [news_eq hboth, news_eq hrs.symm, news_eq hrs'.symm]

/-- The waves of a query and its pager make up the payloads. -/
def Serves (ps : List Payload) (s : Solo α) (p : Pager) : Prop :=
  ∃ done w chunk, s.line.waves = done ++ [w] ∧
    ServesAt ps s.query.options.batchSize p done w chunk

theorem Serves.of_same (h : s.Serves ps p) (hw : s'.line.waves = s.line.waves)
    (ho : s'.query.options = s.query.options) : s'.Serves ps (p.answerAll (s.news s')) := by
  have hnews : s.news s' = [] := news_eq (by rw [hw, List.append_nil])
  obtain ⟨done, w, chunk, hwaves, hat⟩ := h
  rw [hnews]
  exact ⟨done, w, chunk, hw.trans hwaves, by rw [ho]; exact hat⟩

theorem Serves.strike (h : s.Serves ps p) (e : Failure) (isOpen : Bool) :
    Serves ps { s with line := { s.line.strike e with isOpen := isOpen } } p := by
  obtain ⟨done, w, chunk, hwaves, hat⟩ := h
  cases ho : w.isOver with
  | true =>
    have hlive : s.line.isLive = false := by rw [Line.isLive, hwaves, Wave.ongoing_concat, ho]; rfl
    rw [Line.strike_of_not_live hlive]
    exact ⟨done, w, chunk, hwaves, hat⟩
  | false =>
    rw [Line.strike_of_live hwaves ho]
    exact ⟨done, w.strike e, chunk, rfl, hat.strike e⟩

/-- Whatever happens to a query but a response, its new requests are answered by the pager. -/
theorem Serves.act (h : s.Serves ps p) (hst : Stands s)
    (hb : s.query.options.batchSize ≠ .number 0) {a : Act} (ha : ∀ r, a ≠ .heard r) :
    (s.act a).1.Serves ps (p.answerAll (s.news (s.act a).1)) := by
  have hoptions := (adds_act s a).query.options
  -- what strikes the line asks the pager for nothing
  have hstruck (e : Failure) (isOpen : Bool) {s' : Solo α}
      (hs' : s' = { s with line := { s.line.strike e with isOpen := isOpen } }) :
      s'.Serves ps (p.answerAll (s.news s')) := by
    have hnews : s.news s' = [] := by
      refine news_eq ?_
      rw [hs', List.append_nil]
      exact s.line.map_request_strike e
    rw [hnews, hs']
    exact h.strike e isOpen
  cases a with
  | ask k => exact h.of_same (mild_ask s k).line.1 hoptions
  | giveUp => exact h.of_same (mild_giveUp s).line.1 hoptions
  | heard r => exact absurd rfl (ha r)
  | transactionEnded =>
    refine hstruck .transactionClosed s.line.isOpen ?_
    rw [← Line.isOpen_strike s.line .transactionClosed]
    rfl
  | sessionEnded =>
    refine hstruck .sessionClosed s.line.isOpen ?_
    rw [← Line.isOpen_strike s.line .sessionClosed]
    rfl
  | lost => exact hstruck .connectionClosed false rfl
  | take =>
    have hwaves := waves_take s
    cases ht : s.token? with
    | none =>
      rw [ht] at hwaves
      exact h.of_same (hwaves.trans (List.append_nil _)) hoptions
    | some token =>
      rw [ht] at hwaves
      obtain ⟨done, w, chunk, hdone, hat⟩ := h
      obtain ⟨read, rest, hst⟩ := standsAt_of_waves hst hdone
      -- the token ended the last wave, so the pager has sent all of that batch
      obtain ⟨-, i, hi, hend, -⟩ := hst.of_token? ht
      have hnews : s.news s.take.1 = [(s.nextWave token).request] := by
        refine news_eq ?_
        rw [hwaves, List.map_append]
        rfl
      have hnext := (hat.renew (Wave.token?_eq_some.2 ⟨i, hend, hi⟩) hb s.query.transaction
        (f := .continuation token s.query.options) rfl).1
      have hserves : ServesAt ps s.take.1.query.options.batchSize
          (p.answerAll [(s.nextWave token).request]) (done ++ [w]) (s.nextWave token)
          (p.left.take (s.query.options.batchSize.share p.left.length)) := by
        rw [show s.take.1.query.options = s.query.options from hoptions]
        exact hnext
      rw [show (s.act .take).1 = s.take.1 from rfl, hnews]
      exact ⟨done ++ [w], s.nextWave token, _, by rw [hwaves, hdone]; rfl, hserves⟩

/-- A response of the pager arrives. -/
theorem Serves.heard (h : s.Serves ps p) (hst : Stands s) {r : Response} {out : List Response}
    (hout : p.outbox = r :: out) : (s.act (.heard r)).1.Serves ps { p with outbox := out } := by
  obtain ⟨done, w, chunk, hdone, hat⟩ := h
  obtain ⟨read, rest, hst⟩ := standsAt_of_waves hst hdone
  have hheard := hat.hear hst.terminal hout
  cases ho : w.isOver with
  | true =>
    have hlive : s.line.isLive = false := by rw [hst.isLive, ho]; rfl
    rw [Solo.act, Line.hear_of_not_live hlive]
    rw [Wave.hear_of_isOver ho] at hheard
    exact ⟨done, w, chunk, hdone, hheard⟩
  | false =>
    rw [Solo.act, Line.hear_of_live hdone ho]
    exact ⟨done, w.hear r, chunk, rfl, hheard⟩

/-- The query has its batches from the pager, which began with the payloads `ps`. -/
structure Pages (ps : List Payload) (b : BatchSize) (s : Solo α) (p : Pager) : Prop where
  stands : Stands s
  accounts : s.Accounts
  serves : s.Serves ps p
  options : s.query.options.batchSize = b
  roomy : b ≠ .number 0

theorem Pages.act (h : s.Pages ps b p) {a : Act} (ha : ∀ r, a ≠ .heard r) :
    (s.act a).1.Pages ps b (p.answerAll (s.news (s.act a).1)) where
  stands := h.stands.act a
  accounts := h.accounts.act h.stands a
  serves := h.serves.act h.stands (h.options ▸ h.roomy) ha
  options := by rw [(adds_act s a).query.options, h.options]
  roomy := h.roomy

theorem Pages.acts (h : s.Pages ps b p) {as : List Act} (has : ∀ a ∈ as, ∀ r, a ≠ .heard r) :
    (s.acts as).1.Pages ps b (p.answerAll (s.news (s.acts as).1)) := by
  induction as generalizing s p with
  | nil => exact { h with serves := h.serves.of_same rfl rfl }
  | cons a as ih =>
    have hfirst := h.act (has a List.mem_cons_self)
    have hrest := ih hfirst fun b hb => has b (List.mem_cons_of_mem _ hb)
    rw [acts_cons, news_trans (adds_act s a).grows (grows_acts _ as), Pager.answerAll,
      List.foldl_append]
    exact hrest

theorem Pages.heard (h : s.Pages ps b p) {r : Response} {out : List Response}
    (hout : p.outbox = r :: out) : (s.act (.heard r)).1.Pages ps b { p with outbox := out } where
  stands := h.stands.act (.heard r)
  accounts := h.accounts.act h.stands (.heard r)
  serves := h.serves.heard h.stands hout
  options := h.options
  roomy := h.roomy

/-- A query that is exhausted has read all payloads, and they came in the batches that they make. -/
theorem Pages.exhausted (h : s.Pages ps b p) (hp : s.query.progress = .exhausted) :
    s.query.handed = ps ∧ s.query.batchSizes = b.chunks ps.length ∧
      s.line.waves.length = b.batches ps.length := by
  obtain ⟨done, w, chunk, hdone, hat⟩ := h.serves
  obtain ⟨read, rest, hst⟩ := standsAt_of_waves h.stands hdone
  obtain ⟨hanswers, hclosing, -⟩ := hat.delivered (hst.exhausted hp) rfl
  have hleft : p.left = [] := by
    have ht := p.token?_closing
    rw [← hclosing] at ht
    refine List.isEmpty_iff.1 (Decidable.byContradiction fun hmore => ?_)
    rw [if_neg hmore] at ht
    cases ht
  obtain ⟨rfl, -⟩ := hst.finished (by rw [hp]; rfl)
  have hread := hst.answers
  rw [List.append_nil] at hread
  have hpayloads := hat.payloads
  have hshare := hat.share
  rw [hleft, List.append_nil] at hpayloads
  rw [hleft, List.length_nil, Nat.add_zero] at hshare
  have hsizes := h.accounts.exhausted hp
  have hchunks : s.query.batchSizes = b.chunks ps.length := by
    rw [hsizes, hdone, List.map_append, List.map_singleton, hanswers]
    refine BatchSize.eq_chunks h.roomy (fun n hn => ?_) (h.options ▸ hshare)
      (fun hfull hzero => ?_) ?_
    · obtain ⟨v, hv, rfl⟩ := List.mem_map.1 hn
      exact h.options ▸ hat.whole v hv
    · refine hat.nonempty (fun hnil => hfull ?_) (List.length_eq_zero_iff.1 hzero)
      rw [hnil, List.map_nil]
    · rw [← hpayloads, List.sum_append, List.length_append, List.length_flatMap,
        List.sum_singleton]
  refine ⟨?_, hchunks, ?_⟩
  · rw [hst.handed, ← hread, hanswers, hpayloads]
  · rw [← BatchSize.length_chunks h.roomy, ← hchunks, hsizes, List.length_map]

end Solo

end QueryLanes
