import H2Sim.Bytes

/-! `h2_sess_terminate`, and the interest the poll build's `h2_ctx_run` computes for a
session (the fill itself is `Ctx.fill`). -/
namespace H2Sim

/-- `h2_sess_terminate` (lines 977-1040): a client waiting on outstanding responses drains (state
2); otherwise state 1, the codec told to end (`ngTerm`), writable interest set. -/
def h2SessTerminate (b : Build) (ngTerm : Codec → Option Codec) (s : Sess) (waitRsp : Bool) :
    Int × Sess :=
  if s.isTerminated = 1 then (1, s)
  else if waitRsp = true ∧ s.isServer = false ∧ s.rspCnt < s.reqCnt then
    (0, { s with isTerminated := 2 })
  else
    let s := { s with isTerminated := 1 }
    if s.httpVer = .v2 then
      match ngTerm s.ngSess with
      | none => (-1, s)
      | some cd => (0, { s with ngSess := cd }.markSendPending b)
    else (0, s.markSendPending b)

/-- The `events` the poll build asks for on a session's descriptor. -/
structure PollEvents where
  pollIn : Bool
  pollOut : Bool
  deriving DecidableEq, Repr

/-- Lines 1775-1789: an HTTP/2 session follows its codec; an HTTP/1.1 session reads only
while not terminated and writes while a send is pending. -/
def pollEvents (s : Sess) : PollEvents :=
  if s.httpVer = .v2 then ⟨s.ngSess.wantRead, s.sendPending || s.ngSess.wantWrite⟩
  else ⟨decide (s.isTerminated = 0), s.sendPending⟩

end H2Sim
