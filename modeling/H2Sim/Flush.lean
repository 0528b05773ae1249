import H2Sim.Basic

/-! The flush half shared by `h2_sess_send_once_v2` and `h2_sess_send_once_v1_1`: one write
of the merge buffer, then one write of the tail span. -/
namespace H2Sim

variable {b : Build} {net : Net} {s : Sess} {l : Link} {tls intrOk : Bool} {len n : Nat}
  {err r : Int} {w : WrRet} {c : CloseReason}

/-- How the code reads one write answer. -/
inductive WriteStep where
  | sent (n : Nat)
  | blocked
  | failed (r : Int) (c : CloseReason)
  deriving DecidableEq, Repr

/-- The four write sites in one: `SSL_write` (a positive return is all `len` bytes) or `send`;
`intrOk` says whether `EINTR` is a would-block, `err` is the TCP error return. -/
def classify (tls : Bool) (len : Nat) (intrOk : Bool) (err : Int) (w : WrRet) : WriteStep :=
  if tls then
    if 0 < w.ret then .sent len
    else if w.sslErr = .wantWrite then .blocked else .failed (-2) .sslErr
  else if 0 < w.ret then .sent w.ret.toNat
  else if w.errno = .eagain ∨ w.errno = .ewouldblock ∨ (intrOk ∧ w.errno = .eintr) then .blocked
  else .failed err .sockErr

/-- Where a flush stopped: `early = some r` is a `return r` inside it; `total` is
`total_sent` at that point. -/
structure Flushed where
  early : Option Int
  total : Nat
  sess : Sess
  link : Link

/-- Lines 179-229 (and 758-805): write `merge_data[0, merge_size)` once. -/
def flushMerge (b : Build) (net : Net) (s : Sess) (l : Link) : Flushed :=
  let wb := s.wrBuf
  if wb.mergeSize = 0 then ⟨none, 0, s, l⟩ else
  let w := net.merge wb.mergeSize
  let l := { l with calls := l.calls ++ [⟨⟨.mergeData, 0⟩, wb.mergeSize, w⟩] }
  match classify s.ssl wb.mergeSize true (-3) w with
  | .blocked => ⟨some 0, 0, s.markSendPending b, l⟩
  | .failed r c => ⟨some r, 0, { s with closeReason := c }, l⟩
  | .sent n =>
    let l := { l with wire := l.wire ++ wb.mergeData.take n }
    if n < wb.mergeSize then
      ⟨some n, n, ({ s with wrBuf := { wb with mergeData := wb.mergeData.drop n } }).markSendPending b, l⟩
    else ⟨none, n, { s with wrBuf := { wb with mergeData := [] } }, l⟩

/-- Lines 232-286 (and 808-869): write the tail span once, `total` bytes already sent.
Unlike the merge write, the TCP branch here does not take `EINTR` as a would-block. -/
def flushTail (b : Build) (net : Net) (total : Nat) (s : Sess) (l : Link) : Flushed :=
  let wb := s.wrBuf
  if wb.memSendSize = 0 then ⟨none, total, s, l⟩ else
  let w := net.tail wb.memSendSize
  let l := { l with calls := l.calls ++ [⟨wb.memSendData, wb.memSendSize, w⟩] }
  match classify s.ssl wb.memSendSize false (-5) w with
  | .blocked => ⟨some total, total, s.markSendPending b, l⟩
  | .failed r c => ⟨some r, total, { s with closeReason := c }, l⟩
  | .sent n =>
    let l := { l with wire := l.wire ++ wb.memSendBytes.take n }
    if n < wb.memSendSize then
      ⟨some (total + n), total + n, ({ s with wrBuf := { wb with
        memSendData := wb.memSendData.add n, memSendBytes := wb.memSendBytes.drop n } }).markSendPending b, l⟩
    else ⟨none, total + n, { s with wrBuf := { wb with memSendData := .null, memSendBytes := [] } }, l⟩

def flush (b : Build) (net : Net) (s : Sess) (l : Link) : Flushed :=
  match (flushMerge b net s l).early with
  | some _ => flushMerge b net s l
  | none =>
    flushTail b net (flushMerge b net s l).total (flushMerge b net s l).sess (flushMerge b net s l).link

theorem classify_failed (h : classify tls len intrOk err w = .failed r c) :
    r = -2 ∨ r = err := by
  unfold classify at h
  split_ifs at h <;> cases h <;> simp

theorem classify_sent_le (h : classify tls len intrOk err w = .sent n) (hv : w.Valid tls len) :
    n ≤ len := by
  unfold classify at h
  split_ifs at h with h1 h2 <;> cases h
  · exact le_rfl
  · have := hv (by simpa using h1) ‹_›; omega

@[simp] theorem take_append_drop_append (n : Nat) (m t : List UInt8) :
    m.take n ++ (m.drop n ++ t) = m ++ t := by
  rw [← List.append_assoc, List.take_append_drop]

/-- Only the send-side fields of the session change. -/
def SendFrame (s s' : Sess) : Prop :=
  s' = { s with
    wrBuf := s'.wrBuf, sendPending := s'.sendPending, epollCtls := s'.epollCtls,
    closeReason := s'.closeReason }

theorem SendFrame.ngSess {s s' : Sess} (h : SendFrame s s') : s'.ngSess = s.ngSess := by
  rw [h]

theorem SendFrame.ssl {s s' : Sess} (h : SendFrame s s') : s'.ssl = s.ssl := by
  rw [h]

theorem SendFrame.strms {s s' : Sess} (h : SendFrame s s') : s'.strms = s.strms := by
  rw [h]

theorem SendFrame.strmSending {s s' : Sess} (h : SendFrame s s') :
    s'.strmSending = s.strmSending := by
  rw [h]

theorem sendFrame_trans {s₁ s₂ s₃ : Sess} (h₁ : SendFrame s₁ s₂) (h₂ : SendFrame s₂ s₃) :
    SendFrame s₁ s₃ := by
  unfold SendFrame at *; rw [h₂, h₁]

theorem sendFrame_mark (b : Build) (s : Sess) (wb : WrBuf) :
    SendFrame s ({ s with wrBuf := wb }.markSendPending b) := by
  unfold SendFrame Sess.markSendPending; split <;> rfl

theorem flushMerge_frame (b : Build) (net : Net) (s : Sess) (l : Link) :
    SendFrame s (flushMerge b net s l).sess := by
  unfold flushMerge
  dsimp only
  split_ifs
  · rfl
  split
  · exact sendFrame_mark b s s.wrBuf
  · rfl
  · split_ifs
    · exact sendFrame_mark b s _
    · rfl

theorem flushMerge_conserves (b : Build) (net : Net) (s : Sess) (l : Link) :
    (flushMerge b net s l).link.wire ++ ((flushMerge b net s l).sess.wrBuf.mergeData ++
      (flushMerge b net s l).sess.wrBuf.memSendBytes) =
      l.wire ++ (s.wrBuf.mergeData ++ s.wrBuf.memSendBytes) := by
  unfold flushMerge
  dsimp only
  split_ifs with h0
  · rfl
  split
  next => simp
  next => simp
  next n _ =>
    split_ifs with hn
    · simp
    · simp at hn; simp [List.take_of_length_le (show s.wrBuf.mergeData.length ≤ n by omega)]

theorem flushMerge_accepted (b : Build) (net : Net) (s : Sess) (l : Link)
    (hv : net.Valid s.ssl) :
    ∃ acc, (flushMerge b net s l).link.wire = l.wire ++ acc ∧
      acc.length = (flushMerge b net s l).total := by
  unfold flushMerge
  dsimp only
  split_ifs with h0
  · exact ⟨[], by simp⟩
  split
  next => exact ⟨[], by simp⟩
  next => exact ⟨[], by simp⟩
  next n hc =>
    have := classify_sent_le hc (hv _ (Nat.pos_of_ne_zero h0)).1
    split_ifs <;> exact ⟨_, rfl, by simp at this ⊢; omega⟩

theorem flushMerge_early (b : Build) (net : Net) (s : Sess) (l : Link) {r : Int}
    (h : (flushMerge b net s l).early = some r) (hr : 0 ≤ r) :
    (flushMerge b net s l).sess.sendPending = true ∧ r = (flushMerge b net s l).total := by
  generalize hf : flushMerge b net s l = f at h ⊢
  unfold flushMerge at hf
  dsimp only at hf
  split_ifs at hf
  · subst hf; cases h
  split at hf
  next => subst hf; cases h; simp
  next r' c hc => subst hf; cases h; rcases classify_failed hc with rfl | rfl <;> omega
  next => split_ifs at hf <;> subst hf <;> cases h; simp

theorem flushMerge_through (b : Build) (net : Net) (s : Sess) (l : Link)
    (h : (flushMerge b net s l).early = none) :
    (flushMerge b net s l).sess.wrBuf.mergeData = [] ∧
      (flushMerge b net s l).sess.wrBuf.memSendBytes = s.wrBuf.memSendBytes ∧
      (flushMerge b net s l).sess.wrBuf.memSendData = s.wrBuf.memSendData := by
  generalize hf : flushMerge b net s l = f at h ⊢
  unfold flushMerge at hf
  dsimp only at hf
  split_ifs at hf with h0
  · subst hf; simpa using h0
  split at hf
  all_goals (try split_ifs at hf) <;> subst hf <;> simp_all

theorem flushTail_frame (b : Build) (net : Net) (t : Nat) (s : Sess) (l : Link) :
    SendFrame s (flushTail b net t s l).sess := by
  unfold flushTail
  dsimp only
  split_ifs
  · rfl
  split
  · exact sendFrame_mark b s s.wrBuf
  · rfl
  · split_ifs
    · exact sendFrame_mark b s _
    · rfl

theorem flushTail_conserves (b : Build) (net : Net) (t : Nat) (s : Sess) (l : Link)
    (hm : s.wrBuf.mergeData = []) :
    (flushTail b net t s l).link.wire ++ ((flushTail b net t s l).sess.wrBuf.mergeData ++
      (flushTail b net t s l).sess.wrBuf.memSendBytes) = l.wire ++ s.wrBuf.memSendBytes := by
  unfold flushTail
  dsimp only
  split_ifs with h0
  · simp_all
  split
  next => simp [hm]
  next => simp [hm]
  next n _ =>
    split_ifs with hn
    · simp [hm]
    · simp at hn; simp [hm, List.take_of_length_le (show s.wrBuf.memSendBytes.length ≤ n by omega)]

theorem flushTail_accepted (b : Build) (net : Net) (t : Nat) (s : Sess) (l : Link)
    (hv : net.Valid s.ssl) :
    ∃ acc, (flushTail b net t s l).link.wire = l.wire ++ acc ∧
      t + acc.length = (flushTail b net t s l).total := by
  unfold flushTail
  dsimp only
  split_ifs with h0
  · exact ⟨[], by simp⟩
  split
  next => exact ⟨[], by simp⟩
  next => exact ⟨[], by simp⟩
  next n hc =>
    have := classify_sent_le hc (hv _ (Nat.pos_of_ne_zero h0)).2
    split_ifs <;> exact ⟨_, rfl, by simp at this ⊢; omega⟩

theorem flushTail_early (b : Build) (net : Net) (t : Nat) (s : Sess) (l : Link) {r : Int}
    (h : (flushTail b net t s l).early = some r) (hr : 0 ≤ r) :
    (flushTail b net t s l).sess.sendPending = true ∧ r = (flushTail b net t s l).total := by
  generalize hf : flushTail b net t s l = f at h ⊢
  unfold flushTail at hf
  dsimp only at hf
  split_ifs at hf
  · subst hf; cases h
  split at hf
  next => subst hf; cases h; simp
  next r' c hc => subst hf; cases h; rcases classify_failed hc with rfl | rfl <;> omega
  next => split_ifs at hf <;> subst hf <;> cases h; simp

theorem flushTail_through (b : Build) (net : Net) (t : Nat) (s : Sess) (l : Link)
    (h : (flushTail b net t s l).early = none) :
    (flushTail b net t s l).sess.wrBuf.mergeData = s.wrBuf.mergeData ∧
      (flushTail b net t s l).sess.wrBuf.memSendBytes = [] := by
  generalize hf : flushTail b net t s l = f at h ⊢
  unfold flushTail at hf
  dsimp only at hf
  split_ifs at hf with h0
  · subst hf; simpa using h0
  split at hf
  all_goals (try split_ifs at hf) <;> subst hf <;> simp_all

theorem flushMerge_merge_le (b : Build) (net : Net) (s : Sess) (l : Link) :
    (flushMerge b net s l).sess.wrBuf.mergeData.length ≤ s.wrBuf.mergeData.length := by
  unfold flushMerge
  dsimp only
  split_ifs
  · exact le_rfl
  split
  all_goals (try split_ifs) <;> simp

theorem flushTail_merge (b : Build) (net : Net) (t : Nat) (s : Sess) (l : Link) :
    (flushTail b net t s l).sess.wrBuf.mergeData = s.wrBuf.mergeData := by
  unfold flushTail
  dsimp only
  split_ifs
  · rfl
  split
  all_goals (try split_ifs) <;> simp

theorem flush_of_some {b : Build} {net : Net} {s : Sess} {l : Link} {r : Int}
    (h : (flushMerge b net s l).early = some r) : flush b net s l = flushMerge b net s l := by
  simp [flush, h]

theorem flush_of_none {b : Build} {net : Net} {s : Sess} {l : Link}
    (h : (flushMerge b net s l).early = none) :
    flush b net s l = flushTail b net (flushMerge b net s l).total (flushMerge b net s l).sess
      (flushMerge b net s l).link := by
  simp [flush, h]

theorem flush_frame (b : Build) (net : Net) (s : Sess) (l : Link) :
    SendFrame s (flush b net s l).sess := by
  rcases hm : (flushMerge b net s l).early with _ | r
  · rw [flush_of_none hm]; exact sendFrame_trans (flushMerge_frame ..) (flushTail_frame ..)
  · rw [flush_of_some hm]; exact flushMerge_frame ..

/-- No byte is lost, duplicated or reordered by the flush. -/
theorem flush_conserves (b : Build) (net : Net) (s : Sess) (l : Link) :
    (flush b net s l).link.wire ++ ((flush b net s l).sess.wrBuf.mergeData ++
      (flush b net s l).sess.wrBuf.memSendBytes) =
      l.wire ++ (s.wrBuf.mergeData ++ s.wrBuf.memSendBytes) := by
  rcases hm : (flushMerge b net s l).early with _ | r
  · obtain ⟨h₁, h₂, -⟩ := flushMerge_through b net s l hm
    have h := flushMerge_conserves b net s l
    rw [h₁, h₂, List.nil_append] at h
    rw [flush_of_none hm, flushTail_conserves _ _ _ _ _ h₁, h₂, h]
  · rw [flush_of_some hm]; exact flushMerge_conserves b net s l

/-- With valid answers, `total_sent` is the number of bytes the transport took. -/
theorem flush_accepted (b : Build) (net : Net) (s : Sess) (l : Link) (hv : net.Valid s.ssl) :
    ∃ acc, (flush b net s l).link.wire = l.wire ++ acc ∧ acc.length = (flush b net s l).total := by
  obtain ⟨a₁, h₁, e₁⟩ := flushMerge_accepted b net s l hv
  rcases hm : (flushMerge b net s l).early with _ | r
  · have hv' : net.Valid (flushMerge b net s l).sess.ssl := by rwa [flushMerge_frame b net s l]
    obtain ⟨a₂, h₂, e₂⟩ := flushTail_accepted b net (flushMerge b net s l).total _ _ hv'
    rw [flush_of_none hm]
    exact ⟨a₁ ++ a₂, by rw [h₂, h₁, List.append_assoc], by simp; omega⟩
  · rw [flush_of_some hm]; exact ⟨a₁, h₁, e₁⟩

/-- A non-negative `return` inside the flush leaves writable interest registered. -/
theorem flush_early (b : Build) (net : Net) (s : Sess) (l : Link) {r : Int}
    (h : (flush b net s l).early = some r) (hr : 0 ≤ r) :
    (flush b net s l).sess.sendPending = true ∧ r = (flush b net s l).total := by
  rcases hm : (flushMerge b net s l).early with _ | r'
  · rw [flush_of_none hm] at h ⊢; exact flushTail_early b net _ _ _ h hr
  · rw [flush_of_some hm] at h ⊢; exact flushMerge_early b net s l h hr

/-- Running through the flush leaves both buffers empty. -/
theorem flush_through (b : Build) (net : Net) (s : Sess) (l : Link)
    (h : (flush b net s l).early = none) :
    (flush b net s l).sess.wrBuf.mergeData = [] ∧ (flush b net s l).sess.wrBuf.memSendBytes = [] := by
  rcases hm : (flushMerge b net s l).early with _ | r'
  · rw [flush_of_none hm] at h ⊢
    obtain ⟨h₁, h₂⟩ := flushTail_through b net _ _ _ h
    exact ⟨h₁.trans (flushMerge_through b net s l hm).1, h₂⟩
  · rw [flush_of_some hm] at h; simp [hm] at h

theorem flush_merge_le (b : Build) (net : Net) (s : Sess) (l : Link) :
    (flush b net s l).sess.wrBuf.mergeData.length ≤ s.wrBuf.mergeData.length := by
  rcases hm : (flushMerge b net s l).early with _ | r'
  · rw [flush_of_none hm, flushTail_merge]; exact flushMerge_merge_le b net s l
  · rw [flush_of_some hm]; exact flushMerge_merge_le b net s l

end H2Sim
