import H2Sim.Session
import H2Sim.SendOrder
import H2Sim.RecvBuf
import H2Sim.Loop

/-! An HTTP/1.1 server session as the event loop drives it: `h2_sess_recv` parses requests
into new streams, the application sets responses in any order, `h2_sess_send_once_v1_1`
writes them out and frees the streams it has finished, and `h2_sess_terminate` may end the
session. Along every such run the transport receives the whole responses of the first
requests, in the order the requests arrived. -/
namespace H2Sim

variable {s t u : Sess} {l : Link} {fr : List Strm} {H L : List Strm} {sv : Bool} {n : Nat}

/-- A stream without its received message, which the send path never reads. -/
def Strm.noMsg (st : Strm) : Strm := { st with rmsg := .empty }

/-- A stream's ref and stream id. -/
def Strm.idPart (st : Strm) : Nat × Int := (st.ref, st.streamId)

/-- What a server's send side and request numbering read. -/
def Sess.srvView (s : Sess) : Bool × List Strm × Option Nat × Nat × WrBuf × Nat × Option Nat × Nat :=
  (s.isServer, s.strms.map Strm.noMsg, s.strmSending, s.strmNext, s.wrBuf, s.reqCnt, s.strmRecving,
    s.strmCloseCnt)

theorem updStrm_map {α : Type} {r : Nat} (f : Strm → Strm) (p : Strm → α) (hp : ∀ st, p (f st) = p st) :
    (updStrm r f L).map p = L.map p := by
  simp only [updStrm, List.map_map]
  exact List.map_congr_left fun st _ => by dsimp only [Function.comp]; split <;> simp [hp]

theorem map_idPart_noMsg (L : List Strm) : (L.map Strm.noMsg).map Strm.idPart = L.map Strm.idPart := by
  rw [List.map_map]; rfl

theorem takenBytes_noMsg (H : List Strm) : takenBytes (H.map Strm.noMsg) = takenBytes H := by
  simp only [takenBytes, List.map_map]; rfl

theorem HistOk.noMsg_iff : HistOk sv n (H.map Strm.noMsg) ↔ HistOk sv n H := by
  have e : (H.map Strm.noMsg).map Strm.ref = H.map Strm.ref := by rw [List.map_map]; rfl
  constructor
  · intro h
    exact ⟨fun st hst => h.whole st.noMsg (List.mem_map_of_mem _ hst),
      (List.pairwise_map (f := Strm.noMsg)).mp h.ordered, e ▸ h.nodup, e ▸ h.fresh⟩
  · intro h
    refine ⟨?_, (List.pairwise_map (f := Strm.noMsg)).mpr h.ordered, e.symm ▸ h.nodup, e.symm ▸ h.fresh⟩
    simp only [List.mem_map]
    rintro _ ⟨st, hst, rfl⟩
    exact h.whole st hst

/-- On a server, the send-order invariant reads the session only through its view. -/
theorem V11Inv.of_srvView (hi : V11Inv s l fr) (hsv : s.isServer = true) (e : t.srvView = s.srvView) :
    V11Inv t l fr := by
  simp only [Sess.srvView, Prod.mk.injEq] at e
  obtain ⟨e₁, e₂, -, e₄, e₅, -, -, -⟩ := e
  have hH : (fr ++ t.strms).map Strm.noMsg = (fr ++ s.strms).map Strm.noMsg := by
    rw [List.map_append, List.map_append, e₂]
  refine ⟨?_, ⟨?_, hi.shape.freed, fun h => by simp [e₁, hsv] at h, fun _ st hst hr => ?_⟩⟩
  · rw [e₅, ← takenBytes_noMsg, hH, takenBytes_noMsg]
    exact hi.conserved
  · rw [e₁, e₄, ← HistOk.noMsg_iff, hH, HistOk.noMsg_iff]
    exact hi.shape.hist
  · have hm := List.mem_map_of_mem Strm.noMsg hst
    rw [e₂, List.mem_map] at hm
    obtain ⟨st₀, hst₀, e₀⟩ := hm
    have hb := congrArg Strm.sendBodyRb e₀
    have hr₀ := congrArg Strm.responseSet e₀
    change st₀.sendBodyRb = st.sendBodyRb at hb
    change st₀.responseSet = st.responseSet at hr₀
    rw [← hb]
    exact hi.shape.unset hsv st₀ hst₀ (hr₀.trans hr)

/-- The server invariant: the send-order invariant, history stream `i` with ref `i` and id
`cInt (2i+1)`, and `strm_next` and `strm_close_cnt` counting requests and frees. -/
structure SrvInv (s : Sess) (l : Link) (fr : List Strm) : Prop where
  send : V11Inv s l fr
  server : s.isServer = true
  ids : (fr ++ s.strms).map Strm.idPart = (List.range s.strmNext).map fun i : Nat => (i, cInt (i * 2 + 1))
  idle : s.strmRecving = none → s.strmNext = s.reqCnt
  busy : s.strmRecving ≠ none → s.strmNext = s.reqCnt + 1
  closed : s.strmCloseCnt = fr.length

theorem SrvInv.of_srvView (hi : SrvInv s l fr) (e : t.srvView = s.srvView) : SrvInv t l fr := by
  have hv := hi.send.of_srvView hi.server e
  simp only [Sess.srvView, Prod.mk.injEq] at e
  obtain ⟨e₁, e₂, -, e₄, -, e₆, e₇, e₈⟩ := e
  have hI : (fr ++ t.strms).map Strm.idPart = (fr ++ s.strms).map Strm.idPart := by
    rw [List.map_append, List.map_append, ← map_idPart_noMsg t.strms, e₂, map_idPart_noMsg]
  exact ⟨hv, e₁ ▸ hi.server, by rw [hI, e₄]; exact hi.ids,
    fun h => by rw [e₄, e₆]; exact hi.idle (e₇ ▸ h), fun h => by rw [e₄, e₆]; exact hi.busy (e₇ ▸ h),
    e₈ ▸ hi.closed⟩

/-- A receive step seen from the send side: open the next request's stream (lines 462-466), complete
it (lines 598-602), or change only what the view does not hold. -/
inductive RecvStep : Sess → Sess → Prop
  | frame {s t : Sess} : t.srvView = s.srvView → RecvStep s t
  | start {s : Sess} : s.strmRecving = none →
      RecvStep s ((s.h2StrmInit (cInt (s.reqCnt * 2 + 1)) []).startRmsg s.strmNext)
  | complete {s : Sess} : s.strmRecving ≠ none →
      RecvStep s { s with reqCnt := s.reqCnt + 1, strmRecving := none }

/-- Runs of the receive path's steps. -/
def RecvSteps : Sess → Sess → Prop := Relation.ReflTransGen RecvStep

theorem SrvInv.start (hi : SrvInv s l fr) (h : s.strmRecving = none) :
    SrvInv ((s.h2StrmInit (cInt (s.reqCnt * 2 + 1)) []).startRmsg s.strmNext) l fr := by
  refine ⟨(v11Inv_strmInit hi.send _ []).congr rfl rfl, hi.server, ?_, fun h' => Option.noConfusion h',
    fun _ => by simp [Sess.startRmsg, Sess.h2StrmInit, hi.idle h], hi.closed⟩
  simp only [Sess.startRmsg, Sess.h2StrmInit, ← List.append_assoc, List.map_append, hi.ids,
    List.range_succ, List.map_cons, List.map_nil, hi.idle h, Strm.idPart]

theorem SrvInv.complete (hi : SrvInv s l fr) (h : s.strmRecving ≠ none) :
    SrvInv { s with reqCnt := s.reqCnt + 1, strmRecving := none } l fr :=
  ⟨hi.send.congr rfl rfl, hi.server, hi.ids, fun _ => hi.busy h, fun h' => absurd rfl h', hi.closed⟩

theorem SrvInv.recvStep (hi : SrvInv s l fr) (h : RecvStep s t) : SrvInv t l fr := by
  cases h with
  | frame e => exact hi.of_srvView e
  | start h => exact hi.start h
  | complete h => exact hi.complete h

theorem SrvInv.recvSteps (hi : SrvInv s l fr) (h : RecvSteps s t) : SrvInv t l fr := by
  induction h with
  | refl => exact hi
  | tail _ h ih => exact ih.recvStep h

theorem RecvSteps.frame (e : t.srvView = s.srvView) : RecvSteps s t := .single (.frame e)

theorem RecvSteps.trans (h₁ : RecvSteps s t) (h₂ : RecvSteps t u) : RecvSteps s u :=
  Relation.ReflTransGen.trans h₁ h₂

theorem RecvStep.srvView_isServer (h : RecvStep s t) : t.isServer = s.isServer := by
  cases h with
  | frame e => exact congrArg Prod.fst e
  | start => rfl
  | complete => rfl

theorem RecvSteps.isServer (h : RecvSteps s t) : t.isServer = s.isServer := by
  induction h with
  | refl => rfl
  | tail _ h ih => exact h.srvView_isServer.trans ih

@[simp] theorem Sess.setRmsg_srvView (r : Nat) (m : Msg) : (s.setRmsg r m).srvView = s.srvView := by
  unfold Sess.srvView Sess.setRmsg
  rw [updStrm_map (fun st => { st with rmsg := m }) Strm.noMsg (fun _ => rfl)]

theorem BufFrame.srvView (h : BufFrame s t) : t.srvView = s.srvView := by rw [h]; rfl

theorem recvCopy_srvView (r : Nat) : (s.recvCopy r).srvView = s.srvView := by
  unfold Sess.recvCopy; dsimp only; split_ifs
  · rw [Sess.setRmsg_srvView]; rfl
  · rfl

theorem afterScan_srvView (r : Nat) (w : HdrEnd × Hdr × Nat) : (s.afterScan r w).srvView = s.srvView := by
  rw [Sess.afterScan, Sess.setRmsg_srvView]; rfl

/-- A server's stream selection keeps the stream being received or opens the next one. -/
theorem recvStart_steps (hsv : s.isServer = true) {r : Nat} (h : s.recvStart = some (t, r)) :
    RecvSteps s t ∧ t.strmRecving = some r := by
  unfold Sess.recvStart at h
  split at h
  · cases h; exact ⟨.refl, ‹_›⟩
  · rw [if_pos hsv] at h
    cases h
    exact ⟨.single (.start ‹_›), rfl⟩

/-- A server's completion counts the request and goes back to idle, or waits. -/
theorem recvComplete_steps (hooks : Hooks) (hsv : s.isServer = true) (h : s.strmRecving ≠ none) (r : Nat) :
    RecvSteps s (s.recvComplete hooks r).2.1 := by
  unfold Sess.recvComplete
  split_ifs
  · exact .single (.complete h)
  · exact .refl

theorem h2SessRecvHdlOnceV11_steps (hooks : Hooks) (hsv : s.isServer = true) :
    RecvSteps s (h2SessRecvHdlOnceV11 hooks s).2.1 := by
  unfold h2SessRecvHdlOnceV11
  split
  · exact .refl
  · next t r hst =>
    obtain ⟨h₁, hr⟩ := recvStart_steps hsv hst
    have hsv' : t.isServer = true := h₁.isServer.trans hsv
    have hdone : ∀ t' : Sess, t'.srvView = t.srvView →
        RecvSteps s ((t'.recvCopy r).recvComplete hooks r).2.1 := fun t' e =>
      have e' : (t'.recvCopy r).srvView = t.srvView := (recvCopy_srvView r).trans e
      h₁.trans ((RecvSteps.frame e').trans (recvComplete_steps hooks
        (congrArg Prod.fst e' |>.trans hsv') (by rw [show (t'.recvCopy r).strmRecving = t.strmRecving from
          congrArg (fun v => v.2.2.2.2.2.2.1) e', hr]; exact Option.some_ne_none r) r))
    split
    · exact hdone t rfl
    · dsimp only
      split
      · exact h₁.trans (.frame (afterScan_srvView r _))
      · exact hdone _ (afterScan_srvView r _)
      · exact h₁.trans (.frame (afterScan_srvView r _))

theorem recvLoop_steps (hooks : Hooks) :
    ∀ (fuel : Nat) (s : Sess), s.isServer = true → RecvSteps s (recvLoop hooks fuel s).2.1
  | 0, _, _ => .refl
  | fuel + 1, s, hsv => by
    have h₁ := h2SessRecvHdlOnceV11_steps hooks hsv
    unfold recvLoop
    dsimp only
    split_ifs
    · exact h₁.trans (recvLoop_steps hooks fuel _ (h₁.isServer.trans hsv))
    · exact h₁

/-- A server's `h2_sess_recv` is a run of receive steps, whatever it meets. -/
theorem h2SessRecv_steps (hooks : Hooks) (junk : Nat → UInt8) (memRecv : Codec → List UInt8 → Int × Codec)
    (rd : RdRet) (hsv : s.isServer = true) : RecvSteps s (h2SessRecv hooks junk memRecv rd s).2.1 := by
  have hv11 : RecvSteps s (h2SessRecvV11 hooks junk s rd.bytes).2.1 := by
    have ha := appendRdata_frame s junk rd.bytes
    have h₁ := recvLoop_steps hooks ((s.appendRdata junk rd.bytes).rdataSize -
      (s.appendRdata junk rd.bytes).rdataUsed + 1) _ ((congrArg Prod.fst ha.srvView).trans hsv)
    unfold h2SessRecvV11
    dsimp only
    split_ifs
    · exact (RecvSteps.frame ha.srvView).trans h₁
    · exact ((RecvSteps.frame ha.srvView).trans h₁).trans (.frame (releaseRdata_frame _).srvView)
  -- the read-error, EOF and HTTP/2 branches change only fields outside the view
  unfold h2SessRecv
  by_cases h₁ : s.ssl = true ∧ rd.ret < 0 ∧ rd.sslErr = .wantRead
  · rw [if_pos h₁]; exact .refl
  rw [if_neg h₁]
  by_cases h₂ : rd.ret < 0
  · rw [if_pos h₂]; split <;> exact .frame rfl
  rw [if_neg h₂]
  by_cases h₃ : rd.ret = 0
  · rw [if_pos h₃]; exact .frame rfl
  rw [if_neg h₃]
  split
  · dsimp only; split <;> exact .frame rfl
  · dsimp only; split
    exacts [hv11.trans (.frame rfl), hv11]

/-- The role and the request numbering, which the send path leaves alone. -/
def Sess.numbering (s : Sess) : Bool × Nat × Nat × Option Nat := (s.isServer, s.strmNext, s.reqCnt, s.strmRecving)

theorem SendFrame.numbering (h : SendFrame s t) : t.numbering = s.numbering := by rw [h]; rfl

@[simp] theorem Sess.clearSendPending_numbering (b : Build) : (s.clearSendPending b).numbering = s.numbering := by
  unfold Sess.clearSendPending; split <;> rfl

@[simp] theorem Sess.clearSendPending_strms (b : Build) : (s.clearSendPending b).strms = s.strms := by
  unfold Sess.clearSendPending; split <;> rfl

/-- One walk keeps, in order, any view of the history that taking all of a stream keeps. -/
theorem walkOnce_history {α : Type} (p : Strm → α) (hp : ∀ st, p st.takeAll = p st) (s : Sess) :
    ((walkOnce s).2.1 ++ (walkOnce s).1.strms).map p = s.strms.map p ∧
      (walkOnce s).1.numbering = s.numbering := by
  unfold walkOnce
  split
  · refine ⟨?_, rfl⟩
    dsimp only
    rcases (serverWalk_cases s.strms).2 with ⟨R, e, h₁, -⟩ | ⟨st, R, e, h₁, -⟩ <;>
      generalize serverWalk s.strms = w at * <;> rw [h₁, e]
    simp [hp]
  · split
    · exact ⟨by rw [List.nil_append], rfl⟩
    · exact ⟨by rw [List.nil_append]; exact updStrm_map _ _ hp, rfl⟩

theorem pullV11_history {α : Type} (p : Strm → α) (hp : ∀ st, p st.takeAll = p st) (bufSize cap : Nat) :
    ∀ (fuel : Nat) (s : Sess),
      ((pullV11 bufSize cap fuel s).2 ++ (pullV11 bufSize cap fuel s).1.strms).map p = s.strms.map p ∧
        (pullV11 bufSize cap fuel s).1.numbering = s.numbering
  | 0, s => ⟨by rw [pullV11, List.nil_append], rfl⟩
  | fuel + 1, s => by
    obtain ⟨hw, hn⟩ := walkOnce_history p hp s
    unfold pullV11
    dsimp only
    split_ifs
    · exact ⟨hw, hn⟩
    · obtain ⟨ih₁, ih₂⟩ := pullV11_history p hp bufSize cap fuel { (walkOnce s).1 with
        wrBuf := { (walkOnce s).1.wrBuf with mergeData := (walkOnce s).1.wrBuf.mergeData ++ (walkOnce s).2.2.2 } }
      exact ⟨by rw [List.append_assoc, List.map_append, ih₁, ← List.map_append]; exact hw, ih₂.trans hn⟩
    · exact ⟨hw, hn⟩
    · exact ⟨by rw [List.nil_append], rfl⟩

/-- A send call keeps any view of the history that taking all of a stream keeps. -/
theorem h2SessSendOnceV11_history {α : Type} {b : Build} {bufSize cap : Nat} {net : Net} {l' : Link}
    {r : Int} {s' : Sess} {fr' : List Strm} (p : Strm → α) (hp : ∀ st, p st.takeAll = p st)
    (h : h2SessSendOnceV11 b bufSize cap net s l = (r, s', l', fr')) :
    (fr' ++ s'.strms).map p = s.strms.map p ∧ s'.numbering = s.numbering := by
  obtain ⟨hp₁, hp₂⟩ := pullV11_history p hp bufSize cap (s.strms.length + 1) s
  unfold h2SessSendOnceV11 at h
  dsimp only at h
  generalize pullV11 bufSize cap (s.strms.length + 1) s = q at hp₁ hp₂ h
  have hf := flush_frame b net q.1 l
  split at h <;> (try split_ifs at h) <;> simp only [Prod.mk.injEq] at h <;> obtain ⟨-, rfl, -, rfl⟩ := h <;>
    simp only [Sess.clearSendPending_strms, Sess.clearSendPending_numbering]
  all_goals exact ⟨by rw [show (flush b net q.1 l).sess.strms = q.1.strms from hf.strms]; exact hp₁,
    (show _ = _ from hf.numbering).trans hp₂⟩

/-- A walk adds the streams it frees to `strm_close_cnt`; a client's walk frees none. -/
theorem walkOnce_freed (s : Sess) :
    (walkOnce s).1.strmCloseCnt = s.strmCloseCnt + (walkOnce s).2.1.length ∧
      (s.isServer = false → (walkOnce s).2.1 = []) := by
  unfold walkOnce
  split
  · exact ⟨rfl, fun h => by simp_all⟩
  · split <;> exact ⟨rfl, fun _ => rfl⟩

theorem pullV11_freed (bufSize cap : Nat) : ∀ (fuel : Nat) (s : Sess),
    (pullV11 bufSize cap fuel s).1.strmCloseCnt = s.strmCloseCnt + (pullV11 bufSize cap fuel s).2.length ∧
      (s.isServer = false → (pullV11 bufSize cap fuel s).2 = [])
  | 0, s => ⟨rfl, fun _ => rfl⟩
  | fuel + 1, s => by
    obtain ⟨hw₁, hw₂⟩ := walkOnce_freed s
    unfold pullV11
    dsimp only
    split_ifs
    · exact ⟨hw₁, hw₂⟩
    · obtain ⟨ih₁, ih₂⟩ := pullV11_freed bufSize cap fuel { (walkOnce s).1 with
        wrBuf := { (walkOnce s).1.wrBuf with mergeData := (walkOnce s).1.wrBuf.mergeData ++ (walkOnce s).2.2.2 } }
      refine ⟨by rw [ih₁, List.length_append, ← Nat.add_assoc]; exact congrArg (· + _) hw₁, fun hc => ?_⟩
      rw [hw₂ hc, ih₂ (by rwa [← walkOnce_isServer s] at hc)]
      rfl
    · exact ⟨hw₁, hw₂⟩
    · exact ⟨rfl, fun _ => rfl⟩

theorem SendFrame.strmCloseCnt (h : SendFrame s t) : t.strmCloseCnt = s.strmCloseCnt := by rw [h]

/-- A send call adds the streams it frees to `strm_close_cnt`; on a client it frees none. -/
theorem h2SessSendOnceV11_freed {b : Build} {bufSize cap : Nat} {net : Net} {l' : Link}
    {r : Int} {s' : Sess} {fr' : List Strm} (h : h2SessSendOnceV11 b bufSize cap net s l = (r, s', l', fr')) :
    s'.strmCloseCnt = s.strmCloseCnt + fr'.length ∧ (s.isServer = false → fr' = []) := by
  obtain ⟨hp₁, hp₂⟩ := pullV11_freed bufSize cap (s.strms.length + 1) s
  unfold h2SessSendOnceV11 at h
  dsimp only at h
  generalize pullV11 bufSize cap (s.strms.length + 1) s = q at hp₁ hp₂ h
  have hf := (flush_frame b net q.1 l).strmCloseCnt
  split at h <;> (try split_ifs at h) <;> simp only [Prod.mk.injEq] at h <;> obtain ⟨-, rfl, -, rfl⟩ := h
  all_goals refine ⟨?_, hp₂⟩
  · exact hf.trans hp₁
  · unfold Sess.clearSendPending; split <;> exact hf.trans hp₁
  · exact hf.trans hp₁

variable {b : Build} {bufSize cap : Nat} {net : Net} {l' : Link} {r : Int} {s' : Sess} {fr' : List Strm}
  {st : Strm}

theorem SrvInv.sendOnce (hi : SrvInv s l fr) (h : h2SessSendOnceV11 b bufSize cap net s l = (r, s', l', fr')) :
    SrvInv s' l' (fr ++ fr') := by
  obtain ⟨h₁, h₂⟩ := h2SessSendOnceV11_history Strm.idPart (fun _ => rfl) h
  simp only [Sess.numbering, Prod.mk.injEq] at h₂
  obtain ⟨e₁, e₂, e₃, e₄⟩ := h₂
  refine ⟨h2SessSendOnceV11_inv hi.send h, e₁ ▸ hi.server, ?_, fun h => ?_, fun h => ?_, ?_⟩
  · rw [List.append_assoc, List.map_append, h₁, ← List.map_append, e₂]
    exact hi.ids
  · rw [e₂, e₃]; exact hi.idle (e₄ ▸ h)
  · rw [e₂, e₃]; exact hi.busy (e₄ ▸ h)
  · rw [(h2SessSendOnceV11_freed h).1, hi.closed, List.length_append]

theorem SrvInv.respond (hi : SrvInv s l fr) (hm : st ∈ s.strms) (hr : st.responseSet = false)
    (body : List UInt8) : SrvInv (s.setResponse st.ref body) l fr := by
  refine ⟨v11Inv_setResponse hi.send hi.server hm hr body, hi.server, ?_, hi.idle, hi.busy, hi.closed⟩
  simp only [Sess.setResponse, List.map_append,
    updStrm_map (fun st => { st with responseSet := true, sendBodyRb := ⟨body, 0⟩ }) Strm.idPart (fun _ => rfl)]
  rw [← List.map_append]
  exact hi.ids

@[simp] theorem Sess.markSendPending_srvView : (s.markSendPending b).srvView = s.srvView := by
  unfold Sess.markSendPending; split <;> rfl

theorem h2SessTerminate_srvView (ngTerm : Codec → Option Codec) (waitRsp : Bool) :
    (h2SessTerminate b ngTerm s waitRsp).2.srvView = s.srvView := by
  unfold h2SessTerminate
  dsimp only
  split_ifs <;> (try split) <;> simp only [Sess.markSendPending_srvView] <;> rfl

/-- The runs of an HTTP/1.1 server from `h2_sess_init`: receives while under `2^31` bytes have
arrived, responses set, sends and terminate; `fr` collects the freed streams. -/
inductive SrvReach (b : Build) (bufSize cap : Nat) : Sess → Link → List Strm → Prop
  | init (ssl : Bool) : SrvReach b bufSize cap (Sess.init true ssl .v1_1) ⟨[], []⟩ []
  | recv {s : Sess} {l : Link} {fr : List Strm} (hooks : Hooks) (junk : Nat → UInt8)
      (memRecv : Codec → List UInt8 → Int × Codec) (rd : RdRet) :
      SrvReach b bufSize cap s l fr → s.received + rd.bytes.length < 2 ^ 31 →
      SrvReach b bufSize cap (h2SessRecv hooks junk memRecv rd s).2.1 l fr
  | respond {s : Sess} {l : Link} {fr : List Strm} (st : Strm) (body : List UInt8) :
      SrvReach b bufSize cap s l fr → st ∈ s.strms → st.responseSet = false →
      SrvReach b bufSize cap (s.setResponse st.ref body) l fr
  | send {s s' : Sess} {l l' : Link} {fr fr' : List Strm} {r : Int} (net : Net) :
      SrvReach b bufSize cap s l fr → h2SessSendOnceV11 b bufSize cap net s l = (r, s', l', fr') →
      SrvReach b bufSize cap s' l' (fr ++ fr')
  | terminate {s : Sess} {l : Link} {fr : List Strm} (ngTerm : Codec → Option Codec) (waitRsp : Bool) :
      SrvReach b bufSize cap s l fr → SrvReach b bufSize cap (h2SessTerminate b ngTerm s waitRsp).2 l fr

theorem srvInv_init (ssl : Bool) : SrvInv (Sess.init true ssl .v1_1) ⟨[], []⟩ [] :=
  ⟨v11Inv_reachable (@V11Reach.init .poll 0 0 _ _ rfl rfl rfl rfl), rfl, rfl,
    fun _ => rfl, fun h => absurd rfl h, rfl⟩

theorem SrvReach.inv (h : SrvReach b bufSize cap s l fr) : SrvInv s l fr := by
  induction h with
  | init ssl => exact srvInv_init ssl
  | recv hooks junk memRecv rd _ _ ih => exact ih.recvSteps (h2SessRecv_steps hooks junk memRecv rd ih.server)
  | respond st body _ hm hr ih => exact ih.respond hm hr body
  | send net _ h ih => exact ih.sendOnce h
  | terminate ngTerm waitRsp _ ih => exact ih.of_srvView (h2SessTerminate_srvView ngTerm waitRsp)

theorem SrvInv.length_history (hi : SrvInv s l fr) : (fr ++ s.strms).length = s.strmNext := by
  simpa using congrArg List.length hi.ids

theorem SrvInv.strmNext_eq (hi : SrvInv s l fr) :
    s.strmNext = s.reqCnt + if s.strmRecving = none then 0 else 1 := by
  by_cases hr : s.strmRecving = none
  · simp [hr, hi.idle hr]
  · simp [hr, hi.busy hr]

theorem Strm.taken_of_drained {st : Strm} (hd : st.Drained) : st.taken = st.sendBodyRb.data :=
  List.take_of_length_le hd

/-- A history taken in order and only once answered handed out its first `k` bodies whole. -/
theorem takenBytes_eq_prefix (hw : ∀ st ∈ H, st.Whole) (ho : H.Pairwise (TakenAfter true))
    (hu : ∀ st ∈ H, st.responseSet = false → st.taken = []) :
    ∃ k, takenBytes H = ((H.take k).map fun st => st.sendBodyRb.data).flatten ∧
      ∀ st ∈ H.take k, st.responseSet = true := by
  induction H with
  | nil => exact ⟨0, rfl, by simp⟩
  | cons a H ih =>
    obtain ⟨k, hk, hs⟩ := ih (fun st h => hw st (.tail _ h)) ho.of_cons (fun st h => hu st (.tail _ h))
    by_cases h0 : takenBytes (a :: H) = []
    · exact ⟨0, h0, by simp⟩
    have ha : a.taken = a.sendBodyRb.data ∧ a.responseSet = true := by
      by_cases hta : a.taken = []
      · have hH : takenBytes H ≠ [] := by simpa [hta] using h0
        obtain ⟨c, hc, hne⟩ : ∃ c ∈ H, c.taken ≠ [] := by
          by_contra hall
          push_neg at hall
          exact hH (List.flatten_eq_nil_iff.mpr fun x hx => by
            obtain ⟨c, hc, rfl⟩ := List.mem_map.mp hx
            exact hall c hc)
        obtain ⟨hd, hr⟩ := (List.pairwise_cons.mp ho).1 c hc hne
        exact ⟨Strm.taken_of_drained hd, hr rfl⟩
      · have hr : a.responseSet = true := by
          by_contra h
          exact hta (hu a (.head _) (by simpa using h))
        rcases hw a (.head _) with h | h
        · exact absurd (taken_of_unused h) hta
        · exact ⟨by rw [Strm.taken, h, List.take_length], hr⟩
    refine ⟨k + 1, ?_, ?_⟩
    · rw [takenBytes_cons, hk, ha.1]
      rfl
    · simp only [List.take_succ_cons, List.mem_cons]
      rintro st (rfl | h)
      exacts [ha.2, hs st h]

/-- The send order along every server run, receives included. -/
theorem srvReach_stream_order (h : SrvReach b bufSize cap s l fr) :
    l.wire ++ (s.wrBuf.mergeData ++ s.wrBuf.memSendBytes) = takenBytes (fr ++ s.strms) ∧
      (∀ st ∈ fr ++ s.strms, st.Whole) ∧ ((fr ++ s.strms).map Strm.ref).Nodup ∧
      (fr ++ s.strms).Pairwise (TakenAfter true) ∧ (∀ st ∈ fr, st.Drained ∧ st.responseSet = true) := by
  have hi := h.inv
  have hh := hi.send.shape.hist
  rw [hi.server] at hh
  exact ⟨hi.send.conserved, hh.whole, hh.nodup, hh.ordered, hi.send.shape.freed⟩

/-- HTTP/1.1 pipelining, server side, under `2^30` requests: the transport gets the whole responses
of the first `k` requests in arrival order, on stream ids `1, 3, 5, ...`. -/
theorem srvReach_responses_in_order (h : SrvReach b bufSize cap s l fr) (hq : s.reqCnt < 2 ^ 30) :
    ∃ k, l.wire ++ (s.wrBuf.mergeData ++ s.wrBuf.memSendBytes) =
        (((fr ++ s.strms).take k).map fun st => st.sendBodyRb.data).flatten ∧
      (∀ st ∈ (fr ++ s.strms).take k, st.responseSet = true) ∧
      (fr ++ s.strms).map Strm.streamId =
        (List.range (fr ++ s.strms).length).map (fun i : Nat => (i : Int) * 2 + 1) ∧
      (fr ++ s.strms).length = s.reqCnt + if s.strmRecving = none then 0 else 1 := by
  have hi := h.inv
  have hu : ∀ st ∈ fr ++ s.strms, st.responseSet = false → st.taken = [] := by
    intro st hst hr
    rcases List.mem_append.mp hst with h | h
    · simp [(hi.send.shape.freed st h).2] at hr
    · exact taken_of_unused (hi.send.shape.unset hi.server st h hr)
  obtain ⟨k, hk, hs⟩ := takenBytes_eq_prefix hi.send.shape.hist.whole
    (hi.server ▸ hi.send.shape.hist.ordered) hu
  have hn := hi.length_history.trans hi.strmNext_eq
  refine ⟨k, hi.send.conserved.trans hk, hs, ?_, hn⟩
  have hids := congrArg (List.map Prod.snd) hi.ids
  simp only [List.map_map, Function.comp_def, Strm.idPart] at hids
  rw [hids, ← hi.length_history]
  refine List.map_congr_left fun i hi' => cInt_of_lt (by omega) ?_
  have := List.mem_range.mp hi'
  split at hn <;> omega

/-- Two pipelined requests answered second-first: the transport gets the first's response first. -/
theorem srvReach_responses_in_order_pipelined :
    let hooks : Hooks := ⟨fun _ => 0, fun _ => 0⟩
    let rd : RdRet := ⟨36, bytes "GET /a HTTP/1.1\r\n\r\nGET /b HTTP/1.1\r\n\r\n", .other, .other⟩
    let s₁ := (h2SessRecv hooks (fun _ => 0) (fun c _ => (0, c)) rd (Sess.init true false .v1_1)).2.1
    let st₁ := s₁.strms.getD 1 ⟨0, 0, .empty, false, ⟨[], 0⟩⟩
    let st₀ := (s₁.setResponse st₁.ref (bytes "B")).strms.getD 0 ⟨0, 0, .empty, false, ⟨[], 0⟩⟩
    let s₂ := (s₁.setResponse st₁.ref (bytes "B")).setResponse st₀.ref (bytes "A")
    let net : Net := ⟨fun n => ⟨n, .other, .other⟩, fun n => ⟨n, .other, .other⟩⟩
    let res := h2SessSendOnceV11 .poll 16 16 net s₂ ⟨[], []⟩
    res.2.2.1.wire = bytes "AB" ∧ SrvReach .poll 16 16 res.2.1 res.2.2.1 ([] ++ res.2.2.2) ∧
      res.2.1.reqCnt < 2 ^ 30 ∧
      ∃ k, res.2.2.1.wire ++ (res.2.1.wrBuf.mergeData ++ res.2.1.wrBuf.memSendBytes) =
          ((([] ++ res.2.2.2 ++ res.2.1.strms).take k).map fun st : Strm => st.sendBodyRb.data).flatten ∧
        (∀ st ∈ ([] ++ res.2.2.2 ++ res.2.1.strms).take k, st.responseSet = true) ∧
        ([] ++ res.2.2.2 ++ res.2.1.strms).map Strm.streamId =
          (List.range ([] ++ res.2.2.2 ++ res.2.1.strms).length).map (fun i : Nat => (i : Int) * 2 + 1) ∧
        ([] ++ res.2.2.2 ++ res.2.1.strms).length =
          res.2.1.reqCnt + if res.2.1.strmRecving = none then 0 else 1 := by
  intro hooks rd s₁ st₁ st₀ s₂ net res
  have h₁ : SrvReach .poll 16 16 s₁ ⟨[], []⟩ [] := .recv hooks _ _ rd (.init false) (by decide)
  have h₂ : SrvReach .poll 16 16 s₂ ⟨[], []⟩ [] :=
    .respond st₀ _ (.respond st₁ _ h₁ (by decide) (by decide)) (by decide) (by decide)
  have hw : res.2.2.1.wire = bytes "AB" := by decide
  have hq : res.2.1.reqCnt < 2 ^ 30 := by decide
  have hres : h2SessSendOnceV11 .poll 16 16 net s₂ ⟨[], []⟩ = res := rfl
  clear_value res
  obtain ⟨r, s', l', fr'⟩ := res
  have hR : SrvReach .poll 16 16 s' l' ([] ++ fr') := .send net h₂ hres
  exact ⟨hw, hR, hq, srvReach_responses_in_order hR hq⟩

/-- Along every server run under `2^30` requests the `int` `strm_close_cnt` counts the freed streams
and, with the listed ones, makes up `req_cnt` (plus one mid-request). -/
theorem srvReach_close_count (h : SrvReach b bufSize cap s l fr) (hq : s.reqCnt < 2 ^ 30) :
    cInt s.strmCloseCnt = fr.length ∧
      cInt s.strmCloseCnt + s.strms.length = cInt s.reqCnt + if s.strmRecving = none then 0 else 1 := by
  have hi := h.inv
  have hn : s.strmCloseCnt + s.strms.length = s.reqCnt + if s.strmRecving = none then 0 else 1 := by
    rw [hi.closed, ← List.length_append, hi.length_history, hi.strmNext_eq]
  have hc : cInt s.strmCloseCnt = s.strmCloseCnt := cInt_of_lt (by omega) (by split at hn <;> omega)
  have hr : cInt s.reqCnt = s.reqCnt := cInt_of_lt (by omega) (by omega)
  refine ⟨by rw [hc, hi.closed], ?_⟩
  rw [hc, hr]
  split_ifs at hn ⊢ <;> omega

/-- One request answered and sent: the send call frees its stream and `strm_close_cnt` is 1. -/
theorem srvReach_close_count_one :
    let s₁ := (h2SessRecv ⟨fun _ => 0, fun _ => 0⟩ (fun _ => 0) (fun c _ => (0, c))
      ⟨17, bytes "GET /a HTTP/1.1\r\n\r\n", .other, .other⟩ (Sess.init true false .v1_1)).2.1
    let st := s₁.strms.getD 0 ⟨0, 0, .empty, false, ⟨[], 0⟩⟩
    let net : Net := ⟨fun n => ⟨n, .other, .other⟩, fun n => ⟨n, .other, .other⟩⟩
    let res := h2SessSendOnceV11 .poll 16 16 net (s₁.setResponse st.ref (bytes "A")) ⟨[], []⟩
    res.2.1.strmCloseCnt = 1 ∧ SrvReach .poll 16 16 res.2.1 res.2.2.1 ([] ++ res.2.2.2) ∧
      res.2.1.reqCnt < 2 ^ 30 ∧
      cInt res.2.1.strmCloseCnt = ([] ++ res.2.2.2).length ∧
      cInt res.2.1.strmCloseCnt + res.2.1.strms.length =
        cInt res.2.1.reqCnt + if res.2.1.strmRecving = none then 0 else 1 := by
  intro s₁ st net res
  have h₁ : SrvReach .poll 16 16 s₁ ⟨[], []⟩ [] := .recv ⟨fun _ => 0, fun _ => 0⟩ _ _ _ (.init false) (by decide)
  have h₂ := SrvReach.respond st (bytes "A") h₁ (by decide) (by decide)
  have hc : res.2.1.strmCloseCnt = 1 := by decide
  have hq : res.2.1.reqCnt < 2 ^ 30 := by decide
  have hres : h2SessSendOnceV11 .poll 16 16 net (s₁.setResponse st.ref (bytes "A")) ⟨[], []⟩ = res := rfl
  clear_value res
  obtain ⟨r, s', l', fr'⟩ := res
  have hR : SrvReach .poll 16 16 s' l' ([] ++ fr') := .send net h₂ hres
  exact ⟨hc, hR, hq, srvReach_close_count hR hq⟩

end H2Sim
