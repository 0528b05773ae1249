import H2Sim.FreeTags
import H2Sim.RecvBuf

/-! The run model of the poll build (`PollStep`) takes a round of the service loop whose
session routines leave `sess_free_cb` alone. `h2_sess_recv` and `h2_sess_send` do: neither
the receive path (the buffer, the header scan, the body copy, the callbacks and
`h2_strm_free`) nor the send path (the pull loops, the writes, `h2_sess_clear_send_pending`)
writes the field. So every round the code runs is a step of the model, and what holds in every
run of the model holds along the code's own loop. -/
namespace H2Sim

variable {s : Sess} {b : Build} {bufSize cap : Nat}

@[simp] theorem Sess.setRmsg_freeCb (r : Nat) (m : Msg) : (s.setRmsg r m).freeCb = s.freeCb := rfl

theorem Sess.recvStart_freeCb {t : Sess} {r : Nat} (h : s.recvStart = some (t, r)) : t.freeCb = s.freeCb := by
  unfold Sess.recvStart at h
  split at h
  · cases h; rfl
  · split_ifs at h
    · cases h; rfl
    · split at h
      · cases h
      · cases h; rfl

theorem BufFrame.freeCb {t : Sess} (h : BufFrame s t) : t.freeCb = s.freeCb := by
  rw [h]

theorem Sess.recvCopy_freeCb (r : Nat) : (s.recvCopy r).freeCb = s.freeCb := by
  unfold Sess.recvCopy
  dsimp only
  split_ifs <;> rfl

theorem Sess.recvComplete_freeCb (hooks : Hooks) (r : Nat) : (s.recvComplete hooks r).2.1.freeCb = s.freeCb := by
  unfold Sess.recvComplete
  split_ifs <;> rfl

theorem h2SessRecvHdlOnceV11_freeCb (hooks : Hooks) : (h2SessRecvHdlOnceV11 hooks s).2.1.freeCb = s.freeCb := by
  unfold h2SessRecvHdlOnceV11
  split
  · rfl
  · next t r hst =>
    rw [← Sess.recvStart_freeCb hst]
    dsimp only
    split
    · exact (Sess.recvComplete_freeCb ..).trans (Sess.recvCopy_freeCb _)
    · split
      · rfl
      · exact (Sess.recvComplete_freeCb ..).trans (Sess.recvCopy_freeCb _)
      · rfl

theorem recvLoop_freeCb (hooks : Hooks) (fuel : Nat) : ∀ s : Sess, (recvLoop hooks fuel s).2.1.freeCb = s.freeCb := by
  induction fuel with
  | zero => exact fun _ => rfl
  | succ fuel ih =>
    intro s
    rw [recvLoop]
    dsimp only
    split_ifs
    · exact (ih _).trans (h2SessRecvHdlOnceV11_freeCb hooks)
    · exact h2SessRecvHdlOnceV11_freeCb hooks

theorem h2SessRecvV11_freeCb (hooks : Hooks) (junk : Nat → UInt8) (d : List UInt8) :
    (h2SessRecvV11 hooks junk s d).2.1.freeCb = s.freeCb := by
  have ha := (appendRdata_frame s junk d).freeCb
  unfold h2SessRecvV11
  dsimp only
  split_ifs
  · exact (recvLoop_freeCb hooks _ _).trans ha
  · exact (releaseRdata_frame _).freeCb.trans ((recvLoop_freeCb hooks _ _).trans ha)

/-- `h2_sess_recv` never writes `sess_free_cb`. -/
theorem h2SessRecv_freeCb (hooks : Hooks) (junk : Nat → UInt8) (memRecv : Codec → List UInt8 → Int × Codec)
    (rd : RdRet) : (h2SessRecv hooks junk memRecv rd s).2.1.freeCb = s.freeCb := by
  unfold h2SessRecv
  by_cases h₁ : s.ssl = true ∧ rd.ret < 0 ∧ rd.sslErr = .wantRead
  · rw [if_pos h₁]
  rw [if_neg h₁]
  by_cases h₂ : rd.ret < 0
  · rw [if_pos h₂]
    split_ifs <;> rfl
  rw [if_neg h₂]
  by_cases h₃ : rd.ret = 0
  · rw [if_pos h₃]
  rw [if_neg h₃]
  dsimp only
  split_ifs
  · rfl
  · rfl
  · exact h2SessRecvV11_freeCb hooks junk rd.bytes
  · exact h2SessRecvV11_freeCb hooks junk rd.bytes

@[simp] theorem walkOnce_freeCb : (walkOnce s).1.freeCb = s.freeCb := by
  unfold walkOnce; split <;> (try split) <;> rfl

theorem pullV11_freeCb (bufSize cap fuel : Nat) :
    ∀ s : Sess, (pullV11 bufSize cap fuel s).1.freeCb = s.freeCb := by
  induction fuel with
  | zero => exact fun _ => rfl
  | succ fuel ih =>
    intro s
    unfold pullV11
    dsimp only
    split_ifs
    · exact walkOnce_freeCb
    · exact (ih _).trans walkOnce_freeCb
    · exact walkOnce_freeCb
    · rfl

@[simp] theorem Sess.clearSendPending_freeCb : (s.clearSendPending b).freeCb = s.freeCb := by
  unfold Sess.clearSendPending; split <;> rfl

theorem SendFrame.freeCb {t : Sess} (h : SendFrame s t) : t.freeCb = s.freeCb := by
  rw [h]

theorem flush_freeCb (net : Net) (l : Link) : (flush b net s l).sess.freeCb = s.freeCb :=
  (flush_frame b net s l).freeCb

theorem h2SessSendOnceV2_freeCb (net : Net) (l : Link) :
    (h2SessSendOnceV2 b bufSize cap net s l).2.1.freeCb = s.freeCb := by
  unfold h2SessSendOnceV2
  dsimp only
  split_ifs
  · rfl
  -- the tests of `total_sent == 0` and of line 298 are split with the `if`s above
  all_goals
    split <;> dsimp only
    · exact flush_freeCb net l
    · first
      | exact (Sess.clearSendPending_freeCb).trans (flush_freeCb net l)
      | exact flush_freeCb net l

theorem h2SessSendOnceV11_freeCb (net : Net) (l : Link) :
    (h2SessSendOnceV11 b bufSize cap net s l).2.1.freeCb = s.freeCb := by
  have hp := pullV11_freeCb bufSize cap (s.strms.length + 1) s
  unfold h2SessSendOnceV11
  dsimp only
  split
  · exact (flush_freeCb net l).trans hp
  · split_ifs <;> dsimp only
    · exact (Sess.clearSendPending_freeCb).trans ((flush_freeCb net l).trans hp)
    · exact (flush_freeCb net l).trans hp

/-- `h2_sess_send` never writes `sess_free_cb`. -/
theorem h2SessSend_freeCb (nets : Nat → Net) (fuel : Nat) :
    ∀ k s l, (h2SessSend b bufSize cap nets fuel k s l).2.1.freeCb = s.freeCb := by
  induction fuel with
  | zero => exact fun _ _ _ => rfl
  | succ fuel ih =>
    intro k s l
    have h₁ : (sendOnce b bufSize cap (nets k) s l).2.1.freeCb = s.freeCb := by
      unfold sendOnce
      split_ifs
      · exact h2SessSendOnceV2_freeCb _ l
      · exact h2SessSendOnceV11_freeCb _ l
    rw [h2SessSend]
    split_ifs
    · exact (ih _ _ _).trans h₁
    · exact h₁

namespace Ctx

theorem h2Env_keepsCb (b : Build) (hooks : Hooks) (junk : Nat → UInt8)
    (memRecv : Codec → List UInt8 → Int × Codec) (rd : Sess → RdRet) (bufSize cap : Nat) (nets : Sess → Nat → Net)
    (accept : Nat → Option (Nat × AcceptTry)) :
    KeepsCb (h2Env b hooks junk memRecv rd bufSize cap nets accept).recv ∧
      KeepsCb (h2Env b hooks junk memRecv rd bufSize cap nets accept).send :=
  ⟨fun s => h2SessRecv_freeCb hooks junk memRecv (rd s), fun s => h2SessSend_freeCb (nets s) _ 0 s _⟩

variable {c : Ctx} {ver : HttpVer} {fd : Nat} {conns : Nat → List ConnTry}

/-- A poll-build round running `h2_sess_recv` and `h2_sess_send` is a step of the run model. -/
theorem pollReach_h2Round (hr : PollReach ver fd conns c) (bits : EvBits) (hooks : Hooks) (junk : Nat → UInt8)
    (memRecv : Codec → List UInt8 → Int × Codec) (rd : Sess → RdRet) (bufSize cap : Nat)
    (nets : Sess → Nat → Net) (accept : Nat → Option (Nat × AcceptTry)) (pr : PollRes) (alloced : Int) :
    PollReach ver fd conns
      (c.pollRound .poll bits (h2Env .poll hooks junk memRecv rd bufSize cap nets accept) pr alloced).ctx :=
  let hk := h2Env_keepsCb .poll hooks junk memRecv rd bufSize cap nets accept
  .tail hr (.round c bits _ hk.1 hk.2 pr alloced)

/-- A client's round after its peer has closed is a round of a run, and frees the session. -/
theorem pollReach_h2Round_eof :
    let c : Ctx := ((Ctx.init .v1_1 3 fun _ => [⟨some 5, true, none, true, true⟩]).connectCall .poll .app).1
    let env : TickEnv := h2Env .poll ⟨fun _ => 0, fun _ => 0⟩ (fun _ => 0) (fun cd _ => (0, cd))
      (fun _ => ⟨0, [], .other, .other⟩) 16 16 (fun _ _ => ⟨fun n => ⟨n, .other, .other⟩, fun n => ⟨n, .other, .other⟩⟩)
      (fun _ => none)
    (c.pollRound .poll linuxPoll env (.ready [linuxPoll.inp]) 1024).ctx.freed = [1] ∧
      PollReach .v1_1 3 (fun _ => [⟨some 5, true, none, true, true⟩])
        (c.pollRound .poll linuxPoll env (.ready [linuxPoll.inp]) 1024).ctx :=
  ⟨rfl, pollReach_h2Round (.single (.connect _ .app)) linuxPoll _ _ _ _ 16 16 _ _ _ _⟩

end Ctx

/-- A poll-build client that has sent its one request, terminated with `wait_rsp`: it drains, and
the next fill frees it with `CLOSE_BY_HTTP_END` before the response arrives. -/
theorem h2SessTerminate_draining_freed :
    let conns : Nat → List ConnTry := fun _ => [⟨some 5, true, none, true, true⟩]
    let net : Net := ⟨fun n => ⟨n, .other, .other⟩, fun n => ⟨n, .other, .other⟩⟩
    let send : Sess → Int × Sess := fun s =>
      let r := h2SessSendOnceV11 .poll 16384 16384 net s ⟨[], []⟩
      (r.1, r.2.1)
    let c := ((((Ctx.init .v1_1 3 conns).connectCall .poll .app).1.sessCall 1 fun s =>
      (0, { s.h2StrmInit 1 (bytes "GET / HTTP/1.1\r\n\r\n") with reqCnt := 1 }.markSendPending .poll)).2.sessCall
        1 send).2.sessCall 1 send
    let t := c.2.sessCall 1 fun s => h2SessTerminate .poll (fun _ => none) s true
    PollReach .v1_1 3 conns t.2 ∧ c.1 = 0 ∧ (c.2.sessOf 1).sendPending = false ∧
      t.1 = 0 ∧ (t.2.sessOf 1).isTerminated = 2 ∧ (t.2.sessOf 1).rspCnt < (t.2.sessOf 1).reqCnt ∧
      (t.2.fill .poll linuxPoll).2 = [] ∧ (t.2.fill .poll linuxPoll).1.freed = [1] ∧
      ((t.2.fill .poll linuxPoll).1.sessOf 1).closeReason = .httpEnd := by
  intro conns net send c t
  have hs : Ctx.KeepsCb send := fun _ => h2SessSendOnceV11_freeCb net _
  refine ⟨.tail (.tail (.tail (.tail (.single (.connect _ .app))
    (.sessCall _ 1 _ fun _ => Ctx.markSendPending_freeCb _)) (.sessCall _ 1 _ hs)) (.sessCall _ 1 _ hs))
    (.sessCall _ 1 _ fun s => Ctx.h2SessTerminate_freeCb _ s true),
    by decide, by decide, by decide, by decide, by decide, by decide, by decide, by decide⟩

end H2Sim
