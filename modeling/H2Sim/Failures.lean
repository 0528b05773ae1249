import H2Sim.Session

/-! The failures of the session routines. Every negative return of `h2_sess_recv` and of
`h2_sess_send` comes with the `close_reason` that says why (lines 156-300, 351-373 and
774-846), the tag `h2_sess_free` then reports; a return value of the send path names its
failure uniquely, except that the socket errors of the two write sites share one tag. -/
namespace H2Sim

variable {b : Build} {bufSize cap : Nat} {net : Net} {s : Sess} {l : Link} {r : Int}
  {tls intrOk : Bool} {len : Nat} {err : Int} {w : WrRet} {c : CloseReason}

/-- The tag `h2_sess_send` records with a negative return: -1 codec (line 156), -2 TLS (195, 249),
-3 and -5 socket (212, 266), and in the EPOLL build -6 at the codec's end (300). -/
def sendFailure (b : Build) (r : Int) : Option CloseReason :=
  if r = -1 then some .nghttp2Err
  else if r = -2 then some .sslErr
  else if r = -3 ∨ r = -5 then some .sockErr
  else if r = -6 ∧ b = .epoll then some .nghttp2End
  else none

/-- The tag `h2_sess_recv` records with a negative return (lines 351-373): a socket error
(-1), end of file (-2), or a read error of the codec or of the HTTP/1.1 parser (-3). -/
def recvFailure (v : HttpVer) (r : Int) : Option CloseReason :=
  if r = -1 then some .sockErr
  else if r = -2 then some .sockEof
  else if r = -3 then some (if v = .v2 then .nghttp2Err else .httpErr)
  else none

theorem classify_failed_reason (h : classify tls len intrOk err w = .failed r c) :
    r = -2 ∧ c = .sslErr ∨ r = err ∧ c = .sockErr := by
  unfold classify at h
  split_ifs at h <;> cases h <;> simp

theorem flushMerge_failed (h : (flushMerge b net s l).early = some r) (hr : r < 0) :
    sendFailure b r = some (flushMerge b net s l).sess.closeReason := by
  generalize hf : flushMerge b net s l = f at h ⊢
  unfold flushMerge at hf
  dsimp only at hf
  split_ifs at hf
  · subst hf; cases h
  split at hf
  next => subst hf; cases h; omega
  next r' c hc => subst hf; cases h; rcases classify_failed_reason hc with ⟨rfl, rfl⟩ | ⟨rfl, rfl⟩ <;> rfl
  next => split_ifs at hf <;> subst hf <;> cases h; omega

theorem flushTail_failed {t : Nat} (h : (flushTail b net t s l).early = some r) (hr : r < 0) :
    sendFailure b r = some (flushTail b net t s l).sess.closeReason := by
  generalize hf : flushTail b net t s l = f at h ⊢
  unfold flushTail at hf
  dsimp only at hf
  split_ifs at hf
  · subst hf; cases h
  split at hf
  next => subst hf; cases h; omega
  next r' c hc => subst hf; cases h; rcases classify_failed_reason hc with ⟨rfl, rfl⟩ | ⟨rfl, rfl⟩ <;> rfl
  next => split_ifs at hf <;> subst hf <;> cases h; omega

theorem flush_failed (h : (flush b net s l).early = some r) (hr : r < 0) :
    sendFailure b r = some (flush b net s l).sess.closeReason := by
  rcases hm : (flushMerge b net s l).early with _ | r'
  · rw [flush_of_none hm] at h ⊢; exact flushTail_failed h hr
  · rw [flush_of_some hm] at h ⊢; exact flushMerge_failed h hr

theorem h2SessSendOnceV2_failed (h : (h2SessSendOnceV2 b bufSize cap net s l).1 < 0) :
    sendFailure b (h2SessSendOnceV2 b bufSize cap net s l).1 =
      some (h2SessSendOnceV2 b bufSize cap net s l).2.1.closeReason := by
  revert h
  unfold h2SessSendOnceV2
  dsimp only
  split_ifs
  · intro _; rfl
  -- the tests of `total_sent == 0` and of line 298 are split with the `if`s above
  all_goals
    split
    · next r hr => exact flush_failed hr
    · intro h
      first | omega | (obtain ⟨rfl, -⟩ := ‹b = .epoll ∧ _›; rfl)

theorem h2SessSendOnceV11_failed (h : (h2SessSendOnceV11 b bufSize cap net s l).1 < 0) :
    sendFailure b (h2SessSendOnceV11 b bufSize cap net s l).1 =
      some (h2SessSendOnceV11 b bufSize cap net s l).2.1.closeReason := by
  revert h
  unfold h2SessSendOnceV11
  dsimp only
  split
  · next r hr => exact flush_failed hr
  · intro h; omega

theorem sendOnce_failed (h : (sendOnce b bufSize cap net s l).1 < 0) :
    sendFailure b (sendOnce b bufSize cap net s l).1 = some (sendOnce b bufSize cap net s l).2.1.closeReason := by
  revert h
  unfold sendOnce
  split_ifs
  · exact h2SessSendOnceV2_failed
  · exact h2SessSendOnceV11_failed

/-- A negative return of `h2_sess_send` is a round's failure with its tag. -/
theorem h2SessSend_failed (nets : Nat → Net) (fuel : Nat) :
    ∀ k s l, (h2SessSend b bufSize cap nets fuel k s l).1 < 0 →
      sendFailure b (h2SessSend b bufSize cap nets fuel k s l).1 =
        some (h2SessSend b bufSize cap nets fuel k s l).2.1.closeReason := by
  induction fuel with
  | zero => intro k s l h; exact absurd h (Int.lt_irrefl 0)
  | succ fuel ih =>
    intro k s l
    rw [h2SessSend]
    split_ifs
    · exact ih _ _ _
    · exact sendOnce_failed

theorem h2SessRecv_failed {hooks : Hooks} {junk : Nat → UInt8} {memRecv : Codec → List UInt8 → Int × Codec}
    {rd : RdRet} (h : (h2SessRecv hooks junk memRecv rd s).1 < 0) :
    recvFailure s.httpVer (h2SessRecv hooks junk memRecv rd s).1 =
      some (h2SessRecv hooks junk memRecv rd s).2.1.closeReason := by
  revert h
  unfold h2SessRecv
  by_cases h₁ : s.ssl = true ∧ rd.ret < 0 ∧ rd.sslErr = .wantRead
  · rw [if_pos h₁]; intro h; exact absurd h (Int.lt_irrefl 0)
  rw [if_neg h₁]
  by_cases h₂ : rd.ret < 0
  · rw [if_pos h₂]
    split_ifs
    · intro h; exact absurd h (Int.lt_irrefl 0)
    · intro _; rfl
  rw [if_neg h₂]
  by_cases h₃ : rd.ret = 0
  · rw [if_pos h₃]; intro _; rfl
  rw [if_neg h₃]
  dsimp only
  split_ifs with hv hm ho
  · intro _; simp only [recvFailure, hv, if_true]; rfl
  · intro h; omega
  · intro _; simp only [recvFailure, hv, if_false]; rfl
  · intro h; omega

/-- Every negative return of `h2_sess_recv` and `h2_sess_send`, for every answer of the socket, the
transport and the codec, comes with the tag the code records for it. -/
theorem h2Sess_failures_tagged (hooks : Hooks) (junk : Nat → UInt8)
    (memRecv : Codec → List UInt8 → Int × Codec) (rd : RdRet) (nets : Nat → Net) (fuel k : Nat) :
    ((h2SessRecv hooks junk memRecv rd s).1 < 0 →
      recvFailure s.httpVer (h2SessRecv hooks junk memRecv rd s).1 =
        some (h2SessRecv hooks junk memRecv rd s).2.1.closeReason) ∧
    ((h2SessSend b bufSize cap nets fuel k s l).1 < 0 →
      sendFailure b (h2SessSend b bufSize cap nets fuel k s l).1 =
        some (h2SessSend b bufSize cap nets fuel k s l).2.1.closeReason) :=
  ⟨h2SessRecv_failed, h2SessSend_failed nets fuel k s l⟩

/-- A TLS session whose peer closed: read -2 with `CLOSE_BY_SOCK_EOF`, write -2 `CLOSE_BY_SSL_ERR`. -/
theorem h2Sess_failures_tagged_closed :
    let s : Sess := { Sess.init false true .v2 with
      ngSess := { Codec.idle with pending := [.span ⟨⟨.codecSpan 0, 0⟩, [1, 2], by simp⟩] } }
    let rd : RdRet := ⟨0, [], .other, .other⟩
    let nets : Nat → Net := fun _ => ⟨fun _ => ⟨-1, .other, .other⟩, fun _ => ⟨-1, .other, .other⟩⟩
    (h2SessRecv ⟨fun _ => 0, fun _ => 0⟩ (fun _ => 0) (fun cd _ => (0, cd)) rd s).1 = -2 ∧
      (h2SessSend .poll 16 16 nets 2 0 s ⟨[], []⟩).1 = -2 ∧
      ((h2SessRecv ⟨fun _ => 0, fun _ => 0⟩ (fun _ => 0) (fun cd _ => (0, cd)) rd s).1 < 0 →
        recvFailure s.httpVer (h2SessRecv ⟨fun _ => 0, fun _ => 0⟩ (fun _ => 0) (fun cd _ => (0, cd)) rd s).1 =
          some (h2SessRecv ⟨fun _ => 0, fun _ => 0⟩ (fun _ => 0) (fun cd _ => (0, cd)) rd s).2.1.closeReason) ∧
      ((h2SessSend .poll 16 16 nets 2 0 s ⟨[], []⟩).1 < 0 →
        sendFailure .poll (h2SessSend .poll 16 16 nets 2 0 s ⟨[], []⟩).1 =
          some (h2SessSend .poll 16 16 nets 2 0 s ⟨[], []⟩).2.1.closeReason) := by
  intro s rd nets
  exact ⟨rfl, rfl, h2Sess_failures_tagged _ _ _ rd nets 2 0⟩

end H2Sim
