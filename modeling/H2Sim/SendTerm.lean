import H2Sim.Session
import H2Sim.SendOrder

/-! `h2_sess_send` ends: a round that returns a positive count has handed the transport
bytes the session held, and the pull loops run out of streams. -/
namespace H2Sim

variable {b : Build} {bufSize cap : Nat} {net : Net} {s t : Sess} {l : Link} {L : List Strm}
  {st : Strm} {μ : Strm → Nat}

/-- The unsent body bytes of a stream, `data_size - data_used`. -/
def Strm.untaken (st : Strm) : Nat := st.sendBodyRb.data.length - st.sendBodyRb.dataUsed

/-- `μ` summed over a list of streams. -/
def strmSum (μ : Strm → Nat) : List Strm → Nat
  | [] => 0
  | st :: L => μ st + strmSum μ L

/-- The bytes the codec has still to hand out: the spans `mem_send` is going to return. -/
def pendingBytes : List MemSend → Nat
  | [] => 0
  | .span sp :: q => sp.data.length + pendingBytes q
  | .error :: q => pendingBytes q

/-- What the session has still to pull: the codec's backlog (HTTP/2) or its streams'
unsent body bytes (HTTP/1.1). -/
def Sess.sourceBytes (s : Sess) : Nat :=
  if s.httpVer = .v2 then pendingBytes s.ngSess.pending else strmSum Strm.untaken s.strms

/-- `merge_size + mem_send_size`. -/
def Sess.heldBytes (s : Sess) : Nat := s.wrBuf.mergeSize + s.wrBuf.memSendSize

/-- The bytes not yet accepted by the transport. -/
def Sess.sendBacklog (s : Sess) : Nat := s.sourceBytes + s.heldBytes

/-- The streams with body bytes left to send. -/
def undrained (L : List Strm) : Nat := strmSum (fun st => if st.Drained then 0 else 1) L

theorem strmSum_append (μ : Strm → Nat) (A B : List Strm) :
    strmSum μ (A ++ B) = strmSum μ A + strmSum μ B := by
  induction A with
  | nil => simp [strmSum]
  | cons x A ih => rw [List.cons_append, strmSum, strmSum, ih, Nat.add_assoc]

/-- What a send routine returns once it has flushed: the early `return`, or `total_sent`. -/
def Flushed.ret (f : Flushed) : Int := f.early.getD f.total

theorem SendFrame.sourceBytes (h : SendFrame s t) : t.sourceBytes = s.sourceBytes := by
  rw [h]; rfl

@[simp] theorem Sess.sendBacklog_closeReason (s : Sess) (c : CloseReason) :
    ({ s with closeReason := c }).sendBacklog = s.sendBacklog := rfl

@[simp] theorem Sess.clearSendPending_sendBacklog (b : Build) (s : Sess) :
    (s.clearSendPending b).sendBacklog = s.sendBacklog := by
  unfold Sess.clearSendPending; split <;> rfl

theorem flushMerge_progress (b : Build) (net : Net) (s : Sess) (l : Link) :
    ∃ acc, (flushMerge b net s l).link.wire = l.wire ++ acc ∧
      (0 < (flushMerge b net s l).ret → acc ≠ []) := by
  unfold flushMerge
  dsimp only
  split_ifs with h0
  · exact ⟨[], (List.append_nil _).symm, fun hr => absurd hr (lt_irrefl 0)⟩
  split
  next => exact ⟨[], (List.append_nil _).symm, fun hr => absurd hr (lt_irrefl 0)⟩
  next r c hc =>
    refine ⟨[], (List.append_nil _).symm, fun hr => ?_⟩
    have hr' : 0 < r := hr
    rcases classify_failed hc with rfl | rfl <;> omega
  next n _ =>
    have hm : s.wrBuf.mergeData ≠ [] := by simpa using h0
    have hacc : 0 < (n : Int) → s.wrBuf.mergeData.take n ≠ [] := fun hn => by
      simp only [ne_eq, List.take_eq_nil_iff, hm, or_false]; omega
    split_ifs <;> exact ⟨_, rfl, hacc⟩

theorem flushTail_progress (b : Build) (net : Net) (t : Nat) (s : Sess) (l : Link) :
    ∃ acc, (flushTail b net t s l).link.wire = l.wire ++ acc ∧
      (0 < (flushTail b net t s l).ret → 0 < t ∨ acc ≠ []) := by
  unfold flushTail
  dsimp only
  split_ifs with h0
  · exact ⟨[], (List.append_nil _).symm, fun hr => .inl (Int.ofNat_pos.mp hr)⟩
  split
  next => exact ⟨[], (List.append_nil _).symm, fun hr => .inl (Int.ofNat_pos.mp hr)⟩
  next r c hc =>
    refine ⟨[], (List.append_nil _).symm, fun hr => ?_⟩
    have hr' : 0 < r := hr
    rcases classify_failed hc with rfl | rfl <;> omega
  next n _ =>
    have hm : s.wrBuf.memSendBytes ≠ [] := by simpa using h0
    have hacc : 0 < ((t + n : Nat) : Int) → 0 < t ∨ s.wrBuf.memSendBytes.take n ≠ [] := fun hn => by
      simp only [ne_eq, List.take_eq_nil_iff, hm, or_false]; omega
    split_ifs <;> exact ⟨_, rfl, hacc⟩

/-- A flush that returns a positive count has written bytes to the transport. -/
theorem flush_progress (b : Build) (net : Net) (s : Sess) (l : Link) (hr : 0 < (flush b net s l).ret) :
    ∃ acc, acc ≠ [] ∧ (flush b net s l).link.wire = l.wire ++ acc := by
  obtain ⟨a₁, h₁, e₁⟩ := flushMerge_progress b net s l
  rcases hm : (flushMerge b net s l).early with _ | r
  · rw [flush_of_none hm] at hr ⊢
    obtain ⟨a₂, h₂, e₂⟩ := flushTail_progress b net (flushMerge b net s l).total
      (flushMerge b net s l).sess (flushMerge b net s l).link
    refine ⟨a₁ ++ a₂, ?_, by rw [h₂, h₁, List.append_assoc]⟩
    rcases e₂ hr with ht | ha
    · exact List.append_ne_nil_of_left_ne_nil (e₁ (by simpa [Flushed.ret, hm] using ht)) _
    · exact List.append_ne_nil_of_right_ne_nil _ ha
  · rw [flush_of_some hm] at hr ⊢
    exact ⟨a₁, e₁ hr, h₁⟩

/-- A flush that returns a positive count leaves fewer bytes held. -/
theorem flush_held_lt (b : Build) (net : Net) (s : Sess) (l : Link) (hr : 0 < (flush b net s l).ret) :
    (flush b net s l).sess.heldBytes < s.heldBytes := by
  obtain ⟨acc, hne, hw⟩ := flush_progress b net s l hr
  have h := congrArg List.length (flush_conserves b net s l)
  rw [hw] at h
  have := List.length_pos.mpr hne
  simp only [List.length_append] at h
  simp only [Sess.heldBytes, WrBuf.mergeSize, WrBuf.memSendSize]
  omega

theorem flush_backlog_lt (b : Build) (net : Net) (s : Sess) (l : Link) (hr : 0 < (flush b net s l).ret) :
    (flush b net s l).sess.sendBacklog < s.sendBacklog := by
  have := flush_held_lt b net s l hr
  simp only [Sess.sendBacklog, (flush_frame b net s l).sourceBytes]
  omega

/-- Pulling moves the codec's spans into the write buffer and drops nothing else. -/
theorem pullV2_backlog (bufSize cap : Nat) (q : List MemSend) :
    ∀ (wb : WrBuf) (out : List UInt8), pendingBytes (pullV2 bufSize cap wb q out).pending +
      (pullV2 bufSize cap wb q out).wb.mergeSize + (pullV2 bufSize cap wb q out).wb.memSendSize =
        pendingBytes q + wb.mergeSize + wb.memSendSize := by
  induction q with
  | nil => intro wb out; unfold pullV2; split_ifs <;> rfl
  | cons m q ih =>
    intro wb out
    unfold pullV2
    split_ifs with hg
    · cases m with
      | error => rfl
      | span sp =>
        dsimp only
        split_ifs
        · rw [ih]; simp only [pendingBytes, WrBuf.mergeSize, WrBuf.memSendSize, List.length_append]; omega
        · simp only [pendingBytes, WrBuf.mergeSize, WrBuf.memSendSize] at hg ⊢; omega
    · rfl

theorem Strm.takeAll_drained (st : Strm) : st.takeAll.Drained := Nat.le_refl _

theorem Strm.untaken_of_drained (h : st.Drained) : st.untaken = 0 := Nat.sub_eq_zero_of_le h

@[simp] theorem Strm.length_slice (st : Strm) : st.slice.2.length = st.untaken := List.length_drop _ _

section Measure

variable (hμ : ∀ st : Strm, st.Drained → μ st = 0)
include hμ

theorem strmSum_drained (h : ∀ a ∈ L, a.Drained) : strmSum μ L = 0 := by
  induction L with
  | nil => rfl
  | cons x L ih =>
    simp only [List.forall_mem_cons] at h
    simp [strmSum, hμ x h.1, ih h.2]

theorem strmSum_updStrm_le (r : Nat) : strmSum μ (updStrm r Strm.takeAll L) ≤ strmSum μ L := by
  induction L with
  | nil => exact le_rfl
  | cons x L ih =>
    have : μ (if x.ref = r then x.takeAll else x) ≤ μ x := by
      split_ifs <;> simp [hμ _ (Strm.takeAll_drained x)]
    simp only [updStrm, List.map_cons, strmSum] at ih ⊢
    omega

/-- Taking all of a stream's bytes by its `ref` removes at least its own count. -/
theorem strmSum_updStrm_takeAll (h : st ∈ L) :
    strmSum μ (updStrm st.ref Strm.takeAll L) + μ st ≤ strmSum μ L := by
  induction L with
  | nil => cases h
  | cons x L ih =>
    have hle := strmSum_updStrm_le hμ (L := L) st.ref
    simp only [updStrm, List.map_cons, strmSum] at hle ih ⊢
    rcases List.mem_cons.mp h with rfl | h
    · simp only [if_true, hμ _ (Strm.takeAll_drained _)]; omega
    · have : μ (if x.ref = st.ref then x.takeAll else x) ≤ μ x := by
        split_ifs <;> simp [hμ _ (Strm.takeAll_drained x)]
      have := ih h
      omega

/-- One walk offers nothing, or all bytes of one stream with data, removing their count. -/
theorem walkOnce_measure (s : Sess) :
    ((walkOnce s).2.2.2 = [] ∧ strmSum μ (walkOnce s).1.strms ≤ strmSum μ s.strms) ∨
    ∃ st, ¬ st.Drained ∧ (walkOnce s).2.2.2 = st.slice.2 ∧
      strmSum μ (walkOnce s).1.strms + μ st ≤ strmSum μ s.strms := by
  unfold walkOnce
  split
  · obtain ⟨hF, hw⟩ := serverWalk_cases s.strms
    have h0 := strmSum_drained hμ fun a ha => (hF a ha).1
    rcases hw with ⟨R, e, h₁, h₂⟩ | ⟨st, R, e, h₁, h₂, -, hd⟩
    · refine .inl ⟨h₂, ?_⟩
      dsimp only
      rw [h₁, e, strmSum_append, h0]
      omega
    · refine .inr ⟨st, hd, by rw [h₂], ?_⟩
      dsimp only
      rw [h₁, e, strmSum_append, h0]
      simp [strmSum, hμ _ (Strm.takeAll_drained st)]
      omega
  · split
    · exact .inl ⟨rfl, le_rfl⟩
    · next sending st hc =>
      rcases clientWalk_cases s.sendingFrom with ⟨h, -⟩ | ⟨A, st', B, e, -, hd, h⟩
      · rw [h] at hc; cases hc
      · rw [h] at hc
        obtain rfl : st' = st := Option.some.inj (Prod.mk.inj_iff.mp hc).2
        have hmem : st' ∈ s.strms := by
          unfold Sess.sendingFrom at e
          split at e
          · rw [e]; simp
          · exact List.dropWhile_subset _ (by rw [e]; simp)
        exact .inr ⟨st', hd, rfl, strmSum_updStrm_takeAll hμ hmem⟩

end Measure

theorem walkOnce_untaken (s : Sess) :
    strmSum Strm.untaken (walkOnce s).1.strms + (walkOnce s).2.2.2.length ≤
      strmSum Strm.untaken s.strms := by
  rcases walkOnce_measure (fun _ => Strm.untaken_of_drained) s with ⟨hd, h⟩ | ⟨st, -, hd, h⟩
  · rw [hd]; simpa using h
  · rw [hd, Strm.length_slice]; exact h

theorem walkOnce_undrained (s : Sess) (hd : (walkOnce s).2.2.2 ≠ []) :
    undrained (walkOnce s).1.strms + 1 ≤ undrained s.strms := by
  have hμ : ∀ st : Strm, st.Drained → (if st.Drained then 0 else 1) = 0 := fun st h => if_pos h
  rcases walkOnce_measure hμ s with ⟨h, -⟩ | ⟨st, hst, -, h⟩
  · exact absurd h hd
  · simpa [undrained, hst] using h

@[simp] theorem walkOnce_httpVer (s : Sess) : (walkOnce s).1.httpVer = s.httpVer := by
  unfold walkOnce; split <;> (try split) <;> rfl

theorem pullV11_httpVer (bufSize cap : Nat) :
    ∀ (fuel : Nat) (s : Sess), (pullV11 bufSize cap fuel s).1.httpVer = s.httpVer
  | 0, _ => rfl
  | fuel + 1, s => by
    unfold pullV11
    dsimp only
    split_ifs
    · exact walkOnce_httpVer s
    · exact (pullV11_httpVer bufSize cap fuel _).trans (walkOnce_httpVer s)
    · exact walkOnce_httpVer s
    · rfl

/-- The HTTP/1.1 pull loop moves stream bytes into the write buffer and creates none. -/
theorem pullV11_backlog (bufSize cap : Nat) :
    ∀ (fuel : Nat) (s : Sess), strmSum Strm.untaken (pullV11 bufSize cap fuel s).1.strms +
      (pullV11 bufSize cap fuel s).1.heldBytes ≤ strmSum Strm.untaken s.strms + s.heldBytes
  | 0, _ => le_rfl
  | fuel + 1, s => by
    have hw := walkOnce_untaken s
    unfold pullV11
    dsimp only
    split_ifs with hc
    · simp only [Sess.heldBytes, walkOnce_wrBuf]; omega
    · have := pullV11_backlog bufSize cap fuel { (walkOnce s).1 with wrBuf := { (walkOnce s).1.wrBuf with
        mergeData := (walkOnce s).1.wrBuf.mergeData ++ (walkOnce s).2.2.2 } }
      simp only [Sess.heldBytes, WrBuf.mergeSize, WrBuf.memSendSize, walkOnce_wrBuf, List.length_append]
        at this ⊢
      omega
    · simp only [Sess.heldBytes, WrBuf.mergeSize, WrBuf.memSendSize, walkOnce_wrBuf] at hc ⊢; omega
    · exact le_rfl

theorem h2SessSendOnceV2_backlog_lt (hv : s.httpVer = .v2)
    (hr : 0 < (h2SessSendOnceV2 b bufSize cap net s l).1) :
    (h2SessSendOnceV2 b bufSize cap net s l).2.1.sendBacklog < s.sendBacklog := by
  have hp : (s.withPulled (pullV2 bufSize cap s.wrBuf s.ngSess.pending s.ngSess.handedOut)).sendBacklog =
      s.sendBacklog := by
    have := pullV2_backlog bufSize cap s.ngSess.pending s.wrBuf s.ngSess.handedOut
    simp only [Sess.sendBacklog, Sess.sourceBytes, Sess.heldBytes, Sess.withPulled, hv, if_true] at this ⊢
    omega
  have hf := flush_backlog_lt b net (s.withPulled (pullV2 bufSize cap s.wrBuf s.ngSess.pending
    s.ngSess.handedOut)) l
  rcases h2SessSendOnceV2_cases b bufSize net rfl rfl with ⟨-, e⟩ | ⟨r, he, e⟩ | ⟨hn, r, c, hr', e⟩ <;>
    rw [e] at hr ⊢
  · simp at hr
  · exact (hf (by simpa [Flushed.ret, he] using hr)).trans_eq hp
  · rcases hr' with ⟨rfl, -⟩ | rfl
    · simp at hr
    · simp only [Sess.sendBacklog_closeReason, apply_ite Sess.sendBacklog, Sess.clearSendPending_sendBacklog,
        ite_self]
      exact (hf (by simpa [Flushed.ret, hn] using hr)).trans_eq hp

theorem h2SessSendOnceV11_backlog_lt (hv : s.httpVer ≠ .v2)
    (hr : 0 < (h2SessSendOnceV11 b bufSize cap net s l).1) :
    (h2SessSendOnceV11 b bufSize cap net s l).2.1.sendBacklog < s.sendBacklog := by
  have hp : (pullV11 bufSize cap (s.strms.length + 1) s).1.sendBacklog ≤ s.sendBacklog := by
    have := pullV11_backlog bufSize cap (s.strms.length + 1) s
    simp only [Sess.sendBacklog, Sess.sourceBytes, pullV11_httpVer, hv, if_false]
    omega
  unfold h2SessSendOnceV11 at hr ⊢
  generalize pullV11 bufSize cap (s.strms.length + 1) s = p at hp hr ⊢
  have hf := flush_backlog_lt b net p.1 l
  dsimp only at hr ⊢
  generalize flush b net p.1 l = F at hf hr ⊢
  rcases hfe : F.early with _ | r <;> simp only [hfe] at hr ⊢
  · split_ifs at hr ⊢ with h0
    · simp [h0] at hr
    · exact lt_of_lt_of_le (hf (by simpa [Flushed.ret, hfe] using hr)) hp
  · exact lt_of_lt_of_le (hf (by simpa [Flushed.ret, hfe] using hr)) hp

/-- A round returning a positive count hands over bytes not yet accepted. -/
theorem sendOnce_backlog_lt (hr : 0 < (sendOnce b bufSize cap net s l).1) :
    (sendOnce b bufSize cap net s l).2.1.sendBacklog < s.sendBacklog := by
  unfold sendOnce at hr ⊢
  split_ifs at hr ⊢ with hv
  · exact h2SessSendOnceV2_backlog_lt hv hr
  · exact h2SessSendOnceV11_backlog_lt hv hr

/-- The pull loop of `h2_sess_send_once_v1_1` (lines 687-753) as it runs in C, with no bound
on its rounds: the session it leaves and the streams it frees, once it stops. -/
inductive PullLoop (bufSize cap : Nat) : Sess → Sess × List Strm → Prop
  | full {s : Sess} : ¬ (s.wrBuf.memSendSize = 0 ∧ s.wrBuf.mergeSize < bufSize) →
      PullLoop bufSize cap s (s, [])
  | none {s : Sess} : s.wrBuf.memSendSize = 0 ∧ s.wrBuf.mergeSize < bufSize →
      (walkOnce s).2.2.2.length = 0 → PullLoop bufSize cap s ((walkOnce s).1, (walkOnce s).2.1)
  | merge {s : Sess} {v : Sess × List Strm} : s.wrBuf.memSendSize = 0 ∧ s.wrBuf.mergeSize < bufSize →
      ¬ (walkOnce s).2.2.2.length = 0 →
      (walkOnce s).1.wrBuf.mergeSize + (walkOnce s).2.2.2.length ≤ cap →
      PullLoop bufSize cap { (walkOnce s).1 with wrBuf := { (walkOnce s).1.wrBuf with
        mergeData := (walkOnce s).1.wrBuf.mergeData ++ (walkOnce s).2.2.2 } } v →
      PullLoop bufSize cap s (v.1, (walkOnce s).2.1 ++ v.2)
  | tail {s : Sess} : s.wrBuf.memSendSize = 0 ∧ s.wrBuf.mergeSize < bufSize →
      ¬ (walkOnce s).2.2.2.length = 0 →
      ¬ (walkOnce s).1.wrBuf.mergeSize + (walkOnce s).2.2.2.length ≤ cap →
      PullLoop bufSize cap s ({ (walkOnce s).1 with wrBuf := { (walkOnce s).1.wrBuf with
        memSendData := (walkOnce s).2.2.1, memSendBytes := (walkOnce s).2.2.2 } }, (walkOnce s).2.1)

/-- The do-while of `h2_sess_send` (lines 308-322) without a bound on its rounds; round `k` meets
`nets k`. -/
inductive SendLoop (b : Build) (bufSize cap : Nat) (nets : Nat → Net) :
    Nat → Sess → Link → Int × Sess × Link → Prop
  | exit {k : Nat} {s : Sess} {l : Link} : ¬ 0 < (sendOnce b bufSize cap (nets k) s l).1 →
      SendLoop b bufSize cap nets k s l (sendOnce b bufSize cap (nets k) s l)
  | next {k : Nat} {s : Sess} {l : Link} {res : Int × Sess × Link} :
      0 < (sendOnce b bufSize cap (nets k) s l).1 →
      SendLoop b bufSize cap nets (k + 1) (sendOnce b bufSize cap (nets k) s l).2.1
        (sendOnce b bufSize cap (nets k) s l).2.2 res →
      SendLoop b bufSize cap nets k s l res

/-- With more rounds than streams with data the bounded pull loop is a finished run. -/
theorem pullV11_loop (bufSize cap : Nat) :
    ∀ (fuel : Nat) (s : Sess), undrained s.strms < fuel → PullLoop bufSize cap s (pullV11 bufSize cap fuel s)
  | 0, _, h => absurd h (Nat.not_lt_zero _)
  | fuel + 1, s, h => by
    unfold pullV11
    dsimp only
    split_ifs with hc hd hfit
    · exact .none hc hd
    · have := walkOnce_undrained s (fun he => hd (by rw [he]; rfl))
      exact .merge hc hd hfit (pullV11_loop bufSize cap fuel _ (by simp only; omega))
    · exact .tail hc hd hfit
    · exact .full hc

/-- With more rounds than bytes not yet accepted the bounded `h2_sess_send` is a finished run. -/
theorem h2SessSend_loop (b : Build) (bufSize cap : Nat) (nets : Nat → Net) :
    ∀ (fuel k : Nat) (s : Sess) (l : Link), s.sendBacklog < fuel →
      SendLoop b bufSize cap nets k s l (h2SessSend b bufSize cap nets fuel k s l)
  | 0, _, _, _, h => absurd h (Nat.not_lt_zero _)
  | fuel + 1, k, s, l, h => by
    rw [h2SessSend]
    split_ifs with hr
    · exact .next hr (h2SessSend_loop b bufSize cap nets fuel _ _ _ (by
        have := sendOnce_backlog_lt hr; omega))
    · exact .exit hr

theorem undrained_le_length (L : List Strm) : undrained L ≤ L.length := by
  induction L with
  | nil => exact le_rfl
  | cons x L ih => simp only [undrained, strmSum, List.length_cons] at ih ⊢; split_ifs <;> omega

/-- `h2_sess_send` ends whatever the transport answers: each round returning a positive count lowers
the bytes not yet accepted. -/
theorem h2SessSend_terminates (b : Build) (bufSize cap : Nat) (nets : Nat → Net) :
    (∀ (net : Net) (s : Sess) (l : Link), 0 < (sendOnce b bufSize cap net s l).1 →
      (sendOnce b bufSize cap net s l).2.1.sendBacklog < s.sendBacklog) ∧
    (∀ (k : Nat) (s : Sess) (l : Link),
      SendLoop b bufSize cap nets k s l (h2SessSend b bufSize cap nets (s.sendBacklog + 1) k s l)) ∧
    ∀ s : Sess, PullLoop bufSize cap s (pullV11 bufSize cap (s.strms.length + 1) s) :=
  ⟨fun _ _ _ hr => sendOnce_backlog_lt hr,
    fun k s l => h2SessSend_loop b bufSize cap nets _ k s l (Nat.lt_succ_self _),
    fun s => pullV11_loop bufSize cap _ s (Nat.lt_succ_of_le (undrained_le_length s.strms))⟩

theorem h2SessSend_terminates_oneStream :
    let s : Sess := { Sess.init false false .v1_1 with strms := [⟨1, 1, .empty, false, ⟨[1, 2, 3], 0⟩⟩] }
    let net : Net := ⟨fun n => ⟨n, .other, .other⟩, fun n => ⟨n, .other, .other⟩⟩
    0 < (sendOnce .poll 16 16 net s ⟨[], []⟩).1 ∧
      (sendOnce .poll 16 16 net s ⟨[], []⟩).2.1.sendBacklog < s.sendBacklog :=
  have hr : 0 < (sendOnce .poll 16 16 ⟨fun n => ⟨n, .other, .other⟩, fun n => ⟨n, .other, .other⟩⟩
      { Sess.init false false .v1_1 with strms := [⟨1, 1, .empty, false, ⟨[1, 2, 3], 0⟩⟩] } ⟨[], []⟩).1 := by
    decide
  ⟨hr, (h2SessSend_terminates .poll 16 16 fun _ => ⟨fun n => ⟨n, .other, .other⟩, fun n => ⟨n, .other, .other⟩⟩).1
    _ _ _ hr⟩

end H2Sim
