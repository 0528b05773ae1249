import H2Sim.SendV11
import H2Sim.RecvV11

/-! `h2_sess_send` and `h2_sess_recv`: the per-session steps the event loop calls, and when
they return a negative value. -/
namespace H2Sim

variable {b : Build} {bufSize cap : Nat} {net : Net} {s : Sess} {l : Link} {r : Int}
  {tls intrOk : Bool} {len : Nat} {err : Int} {w : WrRet} {c : CloseReason}

/-- One round of `h2_sess_send`: the HTTP/2 or the HTTP/1.1 `send_once`. -/
def sendOnce (b : Build) (bufSize cap : Nat) (net : Net) (s : Sess) (l : Link) : Int × Sess × Link :=
  if s.httpVer = .v2 then h2SessSendOnceV2 b bufSize cap net s l
  else
    let o := h2SessSendOnceV11 b bufSize cap net s l
    (o.1, o.2.1, o.2.2.1)

/-- `h2_sess_send` (lines 308-322): `send_once` while it returns a positive count, round `k` with
`nets k`; `fuel` past the held bytes is never used up. -/
def h2SessSend (b : Build) (bufSize cap : Nat) (nets : Nat → Net) :
    Nat → Nat → Sess → Link → Int × Sess × Link
  | 0, _, s, l => (0, s, l)
  | fuel + 1, k, s, l =>
    let o := sendOnce b bufSize cap (nets k) s l
    if 0 < o.1 then h2SessSend b bufSize cap nets fuel (k + 1) o.2.1 o.2.2 else o

/-- What the code reads after one `recv()` or `SSL_read()`: the return value, the bytes read
when it is positive, `errno` and `SSL_get_error()`. -/
structure RdRet where
  ret : Int
  bytes : List UInt8
  errno : Errno
  sslErr : SslErr

/-- `h2_sess_recv` (lines 324-379). `memRecv` is `nghttp2_session_mem_recv`: the codec's
return and its next state. -/
def h2SessRecv (hooks : Hooks) (junk : Nat → UInt8) (memRecv : Codec → List UInt8 → Int × Codec)
    (rd : RdRet) (s : Sess) : Int × Sess × List Strm :=
  if s.ssl ∧ rd.ret < 0 ∧ rd.sslErr = .wantRead then (0, s, [])
  else if rd.ret < 0 then
    if rd.errno = .eagain ∨ rd.errno = .ewouldblock ∨ rd.errno = .eintr then (0, s, [])
    else (-1, { s with closeReason := .sockErr }, [])
  else if rd.ret = 0 then (-2, { s with closeReason := .sockEof }, [])
  else if s.httpVer = .v2 then
    let m := memRecv s.ngSess rd.bytes
    if m.1 < 0 then (-3, { s with ngSess := m.2, closeReason := .nghttp2Err }, [])
    else (m.1, { s with ngSess := m.2 }, [])
  else
    let o := h2SessRecvV11 hooks junk s rd.bytes
    if o.1 < 0 then (-3, { o.2.1 with closeReason := .httpErr }, o.2.2) else o

/-- A write answer read as progress or a retry: a positive return, `SSL_ERROR_WANT_WRITE`,
`EAGAIN` or `EWOULDBLOCK`, and `EINTR` where `intrOk`. -/
def WrRet.NoFail (tls intrOk : Bool) (w : WrRet) : Prop :=
  0 < w.ret ∨ if tls then w.sslErr = .wantWrite
    else w.errno = .eagain ∨ w.errno = .ewouldblock ∨ (intrOk = true ∧ w.errno = .eintr)

theorem classify_ne_failed (h : w.NoFail tls intrOk) : classify tls len intrOk err w ≠ .failed r c := by
  unfold classify
  unfold WrRet.NoFail at h
  cases tls <;> simp only [if_true, Bool.false_eq_true, if_false] at h ⊢ <;> split_ifs <;>
    simp_all

/-- The transport's answers at both sites meet `NoFail`, `EINTR` counting at the merge-buffer
site only. -/
def Net.NoFail (tls : Bool) (net : Net) : Prop :=
  ∀ n, (net.merge n).NoFail tls true ∧ (net.tail n).NoFail tls false

theorem flushMerge_early_nonneg (h : net.NoFail s.ssl) (he : (flushMerge b net s l).early = some r) :
    0 ≤ r := by
  unfold flushMerge at he
  dsimp only at he
  split_ifs at he
  split at he
  · cases he; exact Int.le_refl 0
  · exact absurd ‹_› (classify_ne_failed (h _).1)
  · split_ifs at he; cases he; exact Int.ofNat_nonneg _

theorem flushTail_early_nonneg (h : net.NoFail s.ssl) (he : (flushTail b net len s l).early = some r) :
    0 ≤ r := by
  unfold flushTail at he
  dsimp only at he
  split_ifs at he
  split at he
  · cases he; exact Int.ofNat_nonneg _
  · exact absurd ‹_› (classify_ne_failed (h _).2)
  · split_ifs at he; cases he; exact Int.ofNat_nonneg _

/-- With answers that meet `NoFail`, a flush that returns early returns a count. -/
theorem flush_early_nonneg (h : net.NoFail s.ssl) (he : (flush b net s l).early = some r) : 0 ≤ r := by
  rcases hm : (flushMerge b net s l).early with _ | r'
  · rw [flush_of_none hm] at he
    exact flushTail_early_nonneg (by rwa [(flushMerge_frame b net s l).ssl]) he
  · rw [flush_of_some hm] at he
    exact flushMerge_early_nonneg h he

/-- The codec holds no failing `mem_send` and still wants to read. -/
def CodecOk (cd : Codec) : Prop := MemSend.error ∉ cd.pending ∧ cd.wantRead = true

theorem pullV2_how_ne_error (bufSize cap : Nat) (q : List MemSend) :
    ∀ (wb : WrBuf) (out : List UInt8), MemSend.error ∉ q → (pullV2 bufSize cap wb q out).how ≠ .error := by
  induction q with
  | nil => intro wb out _; unfold pullV2; split_ifs <;> simp
  | cons m q ih =>
    intro wb out h
    have hq : MemSend.error ∉ q := fun hm => h (List.mem_cons_of_mem _ hm)
    unfold pullV2
    split_ifs
    · cases m with
      | error => exact absurd (List.mem_cons_self _ _) h
      | span sp => simp only; split_ifs <;> simp [ih _ _ hq]
    · simp

theorem pullV2_pending_mem (bufSize cap : Nat) (q : List MemSend) :
    ∀ (wb : WrBuf) (out : List UInt8), ∀ x ∈ (pullV2 bufSize cap wb q out).pending, x ∈ q := by
  induction q with
  | nil => intro wb out x hx; unfold pullV2 at hx; split_ifs at hx <;> simp at hx
  | cons m q ih =>
    intro wb out x hx
    unfold pullV2 at hx
    split_ifs at hx
    · cases m with
      | error => exact List.mem_cons_of_mem _ hx
      | span sp =>
        simp only at hx
        split_ifs at hx
        exacts [List.mem_cons_of_mem _ (ih _ _ x hx), List.mem_cons_of_mem _ hx]
    · exact hx

theorem codecOk_withPulled (h : CodecOk s.ngSess) :
    CodecOk (s.withPulled (pullV2 bufSize cap s.wrBuf s.ngSess.pending s.ngSess.handedOut)).ngSess :=
  ⟨fun hm => h.1 (pullV2_pending_mem bufSize cap _ _ _ _ hm), h.2⟩

@[simp] theorem walkOnce_ssl (s : Sess) : (walkOnce s).1.ssl = s.ssl := by
  unfold walkOnce; split <;> (try split) <;> rfl

@[simp] theorem walkOnce_ngSess (s : Sess) : (walkOnce s).1.ngSess = s.ngSess := by
  unfold walkOnce; split <;> (try split) <;> rfl

theorem pullV11_frame (bufSize cap fuel : Nat) :
    ∀ s : Sess, (pullV11 bufSize cap fuel s).1.ssl = s.ssl ∧
      (pullV11 bufSize cap fuel s).1.ngSess = s.ngSess := by
  induction fuel with
  | zero => intro s; exact ⟨rfl, rfl⟩
  | succ fuel ih =>
    intro s
    unfold pullV11
    dsimp only
    split_ifs
    · simp
    · rw [(ih _).1, (ih _).2]; simp
    · simp
    · exact ⟨rfl, rfl⟩

/-- With answers that do not fail, `h2_sess_send_once_v2` returns a count and keeps the codec sound. -/
theorem h2SessSendOnceV2_nonneg (hn : net.NoFail s.ssl) (hc : CodecOk s.ngSess) :
    0 ≤ (h2SessSendOnceV2 b bufSize cap net s l).1 ∧
      (h2SessSendOnceV2 b bufSize cap net s l).2.1.ssl = s.ssl ∧
      CodecOk (h2SessSendOnceV2 b bufSize cap net s l).2.1.ngSess := by
  set p := pullV2 bufSize cap s.wrBuf s.ngSess.pending s.ngSess.handedOut
  have hc₁ : CodecOk (s.withPulled p).ngSess := codecOk_withPulled hc
  have hf := flush_frame b net (s.withPulled p) l
  rcases h2SessSendOnceV2_cases b bufSize net rfl rfl with ⟨he, -⟩ | ⟨r, he, e⟩ | ⟨-, r, c, hr, e⟩
  · exact absurd he (pullV2_how_ne_error bufSize cap _ _ _ hc.1)
  · have hn₁ : net.NoFail (s.withPulled p).ssl := hn
    rw [e]; exact ⟨flush_early_nonneg hn₁ he, hf.ssl, hf.ngSess ▸ hc₁⟩
  · have hs : (if (flush b net (s.withPulled p) l).total = 0 then
        (flush b net (s.withPulled p) l).sess.clearSendPending b else (flush b net (s.withPulled p) l).sess).ngSess =
        (s.withPulled p).ngSess := by split <;> simp [hf.ngSess]
    rcases hr with ⟨-, hw⟩ | rfl
    · rw [hf.ngSess, hc₁.2] at hw; cases hw
    · rw [e]
      refine ⟨Int.ofNat_nonneg _, by split <;> simp only [Sess.clearSendPending_ssl, hf.ssl] <;> rfl, hs ▸ hc₁⟩

theorem h2SessSendOnceV11_nonneg (hn : net.NoFail s.ssl) :
    0 ≤ (h2SessSendOnceV11 b bufSize cap net s l).1 ∧
      (h2SessSendOnceV11 b bufSize cap net s l).2.1.ssl = s.ssl ∧
      (h2SessSendOnceV11 b bufSize cap net s l).2.1.ngSess = s.ngSess := by
  have hp := pullV11_frame bufSize cap (s.strms.length + 1) s
  unfold h2SessSendOnceV11
  generalize pullV11 bufSize cap (s.strms.length + 1) s = p at hp ⊢
  have hf := flush_frame b net p.1 l
  dsimp only
  split
  · exact ⟨flush_early_nonneg (hp.1 ▸ hn) ‹_›, hf.ssl.trans hp.1, hf.ngSess.trans hp.2⟩
  · refine ⟨Int.ofNat_nonneg _, ?_, ?_⟩ <;> split_ifs <;> simp [hf.ssl, hf.ngSess, hp.1, hp.2]

theorem sendOnce_nonneg (hn : net.NoFail s.ssl) (hc : CodecOk s.ngSess) :
    0 ≤ (sendOnce b bufSize cap net s l).1 ∧ (sendOnce b bufSize cap net s l).2.1.ssl = s.ssl ∧
      CodecOk (sendOnce b bufSize cap net s l).2.1.ngSess := by
  unfold sendOnce
  split_ifs
  · exact h2SessSendOnceV2_nonneg hn hc
  · obtain ⟨h₁, h₂, h₃⟩ := @h2SessSendOnceV11_nonneg b bufSize cap net s l hn
    exact ⟨h₁, h₂, h₃ ▸ hc⟩

/-- Every round of `h2_sess_send` returns a count, so the loop does. -/
theorem h2SessSend_nonneg (nets : Nat → Net) (fuel : Nat) :
    ∀ (k : Nat) (s : Sess) (l : Link), (∀ j, (nets j).NoFail s.ssl) → CodecOk s.ngSess →
      0 ≤ (h2SessSend b bufSize cap nets fuel k s l).1 := by
  induction fuel with
  | zero => intro k s l _ _; exact Int.le_refl 0
  | succ fuel ih =>
    intro k s l hn hc
    obtain ⟨h₁, h₂, h₃⟩ := @sendOnce_nonneg b bufSize cap (nets k) s l (hn k) hc
    rw [h2SessSend]
    split_ifs
    · exact ih _ _ _ (fun j => h₂ ▸ hn j) h₃
    · exact h₁

/-- A read answer that `h2_sess_recv` takes as bytes or as a retry, and not end-of-file:
bytes, TLS `SSL_ERROR_WANT_READ`, TCP `EAGAIN`, `EWOULDBLOCK` or `EINTR`. -/
def RdRet.NoFail (tls : Bool) (rd : RdRet) : Prop :=
  0 < rd.ret ∨ rd.ret < 0 ∧ if tls then rd.sslErr = .wantRead
    else rd.errno = .eagain ∨ rd.errno = .ewouldblock ∨ rd.errno = .eintr

theorem h2SessRecv_nonneg {hooks : Hooks} {junk : Nat → UInt8} {memRecv : Codec → List UInt8 → Int × Codec}
    {rd : RdRet} (hr : rd.NoFail s.ssl) (h2 : s.httpVer = .v2 → 0 ≤ (memRecv s.ngSess rd.bytes).1)
    (h1 : s.httpVer ≠ .v2 → 0 ≤ (h2SessRecvV11 hooks junk s rd.bytes).1) :
    0 ≤ (h2SessRecv hooks junk memRecv rd s).1 := by
  unfold h2SessRecv RdRet.NoFail at *
  by_cases h0 : s.ssl = true ∧ rd.ret < 0 ∧ rd.sslErr = .wantRead
  · simp only [if_pos h0, Int.le_refl]
  rw [if_neg h0]
  by_cases hneg : rd.ret < 0
  · have he : rd.errno = .eagain ∨ rd.errno = .ewouldblock ∨ rd.errno = .eintr := by
      cases hs : s.ssl <;> simp only [hs, if_true, Bool.false_eq_true, if_false] at hr
      · exact (hr.resolve_left (by omega)).2
      · exact absurd ⟨hs, hneg, (hr.resolve_left (by omega)).2⟩ h0
    simp only [if_pos hneg, if_pos he, Int.le_refl]
  rw [if_neg hneg, if_neg (by omega)]
  dsimp only
  split_ifs with hv hm ho
  · exact absurd (h2 hv) (by omega)
  · exact h2 hv
  · exact absurd (h1 hv) (by omega)
  · exact h1 hv

/-- With transient failures only (retryable write and read answers, a codec without errors that
still wants to read), neither `h2_sess_send` nor `h2_sess_recv` returns a negative value. -/
theorem h2Sess_nonneg_of_transient :
    (∀ (b : Build) (bufSize cap : Nat) (nets : Nat → Net) (fuel k : Nat) (s : Sess) (l : Link),
      (∀ j, (nets j).NoFail s.ssl) → CodecOk s.ngSess → 0 ≤ (h2SessSend b bufSize cap nets fuel k s l).1) ∧
    (∀ (hooks : Hooks) (junk : Nat → UInt8) (memRecv : Codec → List UInt8 → Int × Codec) (rd : RdRet)
      (s : Sess), rd.NoFail s.ssl → (s.httpVer = .v2 → 0 ≤ (memRecv s.ngSess rd.bytes).1) →
      (s.httpVer ≠ .v2 → 0 ≤ (h2SessRecvV11 hooks junk s rd.bytes).1) →
      0 ≤ (h2SessRecv hooks junk memRecv rd s).1) :=
  ⟨fun _ _ _ nets fuel k s l hn hc => h2SessSend_nonneg nets fuel k s l hn hc,
    fun _ _ _ _ _ hr h2 h1 => h2SessRecv_nonneg hr h2 h1⟩

/-- A TCP client meeting `EINTR` on write and `EAGAIN` on read: both calls return 0. -/
theorem h2Sess_nonneg_of_transient_eintr :
    let s : Sess := { Sess.init false false .v1_1 with
      strms := [⟨0, 1, .empty, false, ⟨[1, 2, 3], 0⟩⟩], strmNext := 1 }
    let nets : Nat → Net := fun _ => ⟨fun _ => ⟨-1, .eintr, .other⟩, fun _ => ⟨-1, .eagain, .other⟩⟩
    0 ≤ (h2SessSend .poll 16384 16384 nets 4 0 s ⟨[], []⟩).1 ∧
      0 ≤ (h2SessRecv ⟨fun _ => 0, fun _ => 0⟩ (fun _ => 0) (fun cd _ => (0, cd)) ⟨-1, [], .eagain, .other⟩ s).1 :=
  ⟨h2Sess_nonneg_of_transient.1 _ _ _ _ _ _ _ _
      (fun _ _ => ⟨.inr (.inr (.inr ⟨rfl, rfl⟩)), .inr (.inl rfl)⟩) ⟨by simp [Sess.init, Codec.idle], rfl⟩,
    h2Sess_nonneg_of_transient.2 _ _ _ _ _ (.inr ⟨by decide, .inl rfl⟩) (fun h => absurd h (by decide))
      (fun _ => by decide)⟩

/-- A TLS client whose write of the merge buffer meets `SSL_ERROR_WANT_READ`: every
`h2_sess_send` returns -2. -/
theorem h2SessSend_ssl_want_read :
    let s : Sess := { Sess.init false true .v1_1 with
      strms := [⟨0, 1, .empty, false, ⟨[1, 2, 3], 0⟩⟩], strmNext := 1 }
    let nets : Nat → Net := fun _ => ⟨fun _ => ⟨-1, .other, .wantRead⟩, fun _ => ⟨-1, .other, .wantRead⟩⟩
    CodecOk s.ngSess ∧ ∀ fuel k, (h2SessSend .poll 16384 16384 nets (fuel + 1) k s ⟨[], []⟩).1 = -2 := by
  intro s nets
  have h : (sendOnce .poll 16384 16384 (nets 0) s ⟨[], []⟩).1 = -2 := by decide
  refine ⟨⟨by simp [s, Sess.init, Codec.idle], rfl⟩, fun fuel k => ?_⟩
  rw [h2SessSend, show nets k = nets 0 from rfl]
  simp only [h]
  rfl

end H2Sim
