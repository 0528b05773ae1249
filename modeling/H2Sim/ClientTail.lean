import H2Sim.SendV11
import H2Sim.RecvV11

/-! An HTTP/1.1 client's tail span against its receive path. `h2_sess_send_once_v1_1` holds
the unsent rest of a request that does not fit the merge buffer as the tail span, pointing
into the stream's `send_body_rb`, and sets `strm_sending` to that stream. `h2_sess_recv_v1_1`
never looks at the write buffer or `strm_sending`, and frees every stream whose response it
completes. -/
namespace H2Sim

variable {s t u : Sess} {r : Nat} {fr fr' : List Strm}
  {st : Strm} {rest : List Strm} {b : Build} {bufSize cap n : Nat} {net : Net} {l : Link}

/-- The send side of a session: the write buffer, `strm_sending` and writable interest. -/
def Sess.sendSide (s : Sess) : WrBuf × Option Nat × Bool := (s.wrBuf, s.strmSending, s.sendPending)

/-- The refs of the streams in the session's list. -/
def Sess.refs (s : Sess) : List Nat := s.strms.map (·.ref)

theorem walkOnce_client_head (hc : s.isServer = false) (hσ : s.strmSending = none)
    (hs : s.strms = st :: rest) (hd : ¬ st.Drained) :
    walkOnce s =
      ({ s with strmSending := some st.ref, strms := updStrm st.ref Strm.takeAll s.strms }, [], st.slice) := by
  simp [walkOnce, hc, Sess.sendingFrom, hσ, hs, clientWalk, hd]

/-- A stream whose unsent bytes exceed the merge buffer becomes the tail span, `strm_sending` on it. -/
theorem pullV11_client_tail (hc : s.isServer = false) (hσ : s.strmSending = none)
    (hwb : s.wrBuf = .empty) (hs : s.strms = st :: rest) (hd : ¬ st.Drained)
    (hcap : cap < st.slice.2.length) (hb : 0 < bufSize) (fuel : Nat) :
    pullV11 bufSize cap (fuel + 1) s =
      ({ s with
          strmSending := some st.ref, strms := updStrm st.ref Strm.takeAll s.strms,
          wrBuf := ⟨[], st.slice.1, st.slice.2⟩ }, []) := by
  have hm : s.wrBuf.mergeData = [] := by rw [hwb]; rfl
  rw [pullV11, if_pos (by simp [hwb, WrBuf.empty, hb]), walkOnce_client_head hc hσ hs hd]
  simp only [hm, WrBuf.mergeSize, List.length_nil, Nat.zero_add]
  rw [if_neg (by omega), if_neg (by omega)]

/-- A partial TCP write of the tail span advances it and registers writable interest. -/
theorem flush_tail_partial (hm : s.wrBuf.mergeData = []) (hssl : s.ssl = false)
    (hw : (net.tail s.wrBuf.memSendSize).ret = n) (hn : 0 < n) (hlt : n < s.wrBuf.memSendSize) :
    (flush b net s l).early = some (n : Int) ∧ (flush b net s l).total = n ∧
      (flush b net s l).sess = ({ s with wrBuf := { s.wrBuf with
        memSendData := s.wrBuf.memSendData.add n, memSendBytes := s.wrBuf.memSendBytes.drop n } }).markSendPending b := by
  have h0 : (flushMerge b net s l) = ⟨none, 0, s, l⟩ := by simp [flushMerge, hm]
  have hcl : classify s.ssl s.wrBuf.memSendSize false (-5) (net.tail s.wrBuf.memSendSize) = .sent n := by
    simp only [classify, hssl, hw, Bool.false_eq_true, if_false]
    rw [if_pos (by omega)]; rfl
  rw [flush_of_none (by rw [h0]), h0]
  simp only [flushTail, if_neg (show s.wrBuf.memSendSize ≠ 0 by omega), hcl, if_pos hlt]
  simp

/-- A TCP client's oldest request larger than the merge buffer goes out as the tail span. -/
theorem h2SessSendOnceV11_client_tail (b : Build) (bufSize cap : Nat) (net : Net) (l : Link)
    (hc : s.isServer = false) (hσ : s.strmSending = none)
    (hwb : s.wrBuf = .empty) (hs : s.strms = st :: rest) (hd : ¬ st.Drained)
    (hcap : cap < st.slice.2.length) (hb : 0 < bufSize) (hssl : s.ssl = false)
    (hw : (net.tail st.slice.2.length).ret = n) (hn : 0 < n) (hlt : n < st.slice.2.length) :
    (h2SessSendOnceV11 b bufSize cap net s l).1 = n ∧
      (h2SessSendOnceV11 b bufSize cap net s l).2.1 =
        { ({ s with
            strmSending := some st.ref, strms := updStrm st.ref Strm.takeAll s.strms,
            wrBuf := ⟨[], st.slice.1.add n, st.slice.2.drop n⟩ }.markSendPending b) with
          sendDataRemain := s.sendDataRemain - n } := by
  obtain ⟨he, ht, hf⟩ := flush_tail_partial (b := b) (l := l) (s := { s with
      strmSending := some st.ref, strms := updStrm st.ref Strm.takeAll s.strms,
      wrBuf := ⟨[], st.slice.1, st.slice.2⟩ }) rfl hssl hw hn hlt
  rw [h2SessSendOnceV11, pullV11_client_tail hc hσ hwb hs hd hcap hb]
  simp only [he, ht, hf]
  exact ⟨trivial, by unfold Sess.markSendPending; split <;> rfl⟩

/-- A run of the client receive path from `s` to `t` handing over `fr`: the send side and the role
are untouched, no stream is added, and every stream handed over is unlisted. -/
structure ClientRecv (s t : Sess) (fr : List Strm) : Prop where
  side : t.sendSide = s.sendSide
  role : t.isServer = s.isServer
  refs : ∀ x ∈ t.refs, x ∈ s.refs
  freed : ∀ st ∈ fr, st.ref ∉ t.refs

theorem ClientRecv.of_eq (hs : t.sendSide = s.sendSide) (hr : t.isServer = s.isServer)
    (he : t.refs = s.refs) : ClientRecv s t [] :=
  ⟨hs, hr, fun _ hx => he ▸ hx, by simp⟩

theorem ClientRecv.refl (s : Sess) : ClientRecv s s [] := .of_eq rfl rfl rfl

theorem ClientRecv.trans (h₁ : ClientRecv s t fr) (h₂ : ClientRecv t u fr') :
    ClientRecv s u (fr ++ fr') where
  side := h₂.side.trans h₁.side
  role := h₂.role.trans h₁.role
  refs x hx := h₁.refs x (h₂.refs x hx)
  freed := by
    intro st hst
    rcases List.mem_append.mp hst with hst | hst
    exacts [fun hx => h₁.freed st hst (h₂.refs _ hx), h₂.freed st hst]

/-- A step that hands nothing to the callback, then a run. -/
theorem ClientRecv.pre (h₁ : ClientRecv s t []) (h₂ : ClientRecv t u fr) : ClientRecv s u fr := by
  simpa using h₁.trans h₂

@[simp] theorem refs_setRmsg (m : Msg) : (s.setRmsg r m).refs = s.refs := by
  simp only [Sess.refs, Sess.setRmsg, updStrm, List.map_map]
  congr 1; funext st; simp only [Function.comp]; split <;> rfl

theorem clientRecv_appendRdata (junk : Nat → UInt8) (d : List UInt8) : ClientRecv s (s.appendRdata junk d) [] := by
  unfold Sess.appendRdata
  split
  · exact .of_eq rfl rfl rfl
  · split_ifs <;> exact .of_eq rfl rfl rfl

theorem clientRecv_recvStart (hc : s.isServer = false) (h : s.recvStart = some (t, r)) :
    ClientRecv s t [] := by
  unfold Sess.recvStart at h
  split at h
  · cases h; exact .refl s
  · rw [if_neg (by simp [hc])] at h
    split at h
    · cases h
    · cases h; exact .of_eq rfl rfl rfl

theorem clientRecv_afterScan (w : HdrEnd × Hdr × Nat) : ClientRecv s (s.afterScan r w) [] :=
  .of_eq rfl rfl (refs_setRmsg _)

theorem clientRecv_recvCopy : ClientRecv s (s.recvCopy r) [] := by
  unfold Sess.recvCopy
  dsimp only
  split_ifs
  · exact .of_eq rfl rfl (refs_setRmsg _)
  · exact .refl s

theorem strmOf_ref : (s.strmOf r).ref = r := by
  unfold Sess.strmOf
  cases h : s.strms.find? (·.ref = r) with
  | none => rfl
  | some st => simpa using List.find?_some h

/-- The client completion frees the stream it hands to `h2_on_response_recv`. -/
theorem clientRecv_recvComplete (hc : s.isServer = false) :
    ClientRecv s (s.recvComplete hooks r).2.1 (s.recvComplete hooks r).2.2 := by
  unfold Sess.recvComplete
  simp only [hc, Bool.false_eq_true, if_false]
  split
  · exact ⟨rfl, rfl, fun _ hx => List.map_subset _ (List.filter_sublist _).subset hx,
      by simp [Sess.refs, Sess.h2StrmFree, strmOf_ref]⟩
  · exact .refl s

/-- One call of `h2_sess_recv_hdl_once_v1_1` on a client session. -/
theorem clientRecv_once (hooks : Hooks) (hc : s.isServer = false) :
    ClientRecv s (h2SessRecvHdlOnceV11 hooks s).2.1 (h2SessRecvHdlOnceV11 hooks s).2.2 := by
  unfold h2SessRecvHdlOnceV11
  split
  · exact .refl s
  next t r h =>
    have h₀ := clientRecv_recvStart hc h
    have hc' : t.isServer = false := h₀.role.trans hc
    split_ifs
    · exact (h₀.pre clientRecv_recvCopy).pre (clientRecv_recvComplete (by rwa [clientRecv_recvCopy.role]))
    · dsimp only
      split
      · exact h₀.pre (clientRecv_afterScan _)
      · refine ((h₀.pre (clientRecv_afterScan _)).pre clientRecv_recvCopy).pre (clientRecv_recvComplete ?_)
        exact clientRecv_recvCopy.role.trans ((clientRecv_afterScan _).role.trans hc')
      · exact h₀.pre (clientRecv_afterScan _)

/-- The parse loop of a client session, by induction on the fuel. -/
theorem clientRecv_recvLoop (hooks : Hooks) (fuel : Nat) (hc : s.isServer = false) :
    ClientRecv s (recvLoop hooks fuel s).2.1 (recvLoop hooks fuel s).2.2 := by
  induction fuel generalizing s with
  | zero => exact .refl s
  | succ fuel ih =>
    have h₁ := clientRecv_once hooks hc
    rw [recvLoop]
    split_ifs
    · exact h₁.trans (ih (h₁.role.trans hc))
    · exact h₁

theorem clientRecv_releaseRdata : ClientRecv s s.releaseRdata [] := by
  unfold Sess.releaseRdata
  split_ifs
  exacts [.of_eq rfl rfl rfl, .refl s]

/-- `h2_sess_recv_v1_1` on a client keeps the send side and unlists every answered stream. -/
theorem clientRecv_h2SessRecvV11 (hooks : Hooks) (junk : Nat → UInt8) (hc : s.isServer = false) (d : List UInt8) :
    ClientRecv s (h2SessRecvV11 hooks junk s d).2.1 (h2SessRecvV11 hooks junk s d).2.2 := by
  have h₀ := clientRecv_appendRdata (s := s) junk d
  have h₁ := h₀.pre (clientRecv_recvLoop hooks
    ((s.appendRdata junk d).rdataSize - (s.appendRdata junk d).rdataUsed + 1) (h₀.role.trans hc))
  unfold h2SessRecvV11
  dsimp only
  split_ifs
  · exact h₁
  · simpa using h₁.trans clientRecv_releaseRdata

/-- A client's upload whose body alone fills a 16 KiB merge buffer. -/
def uploadReq : List UInt8 :=
  bytes "POST /upload HTTP/1.1\r\nContent-Length: 16384\r\n\r\n" ++ List.replicate 16384 120

theorem length_uploadReq : uploadReq.length = 16432 := by
  rw [uploadReq, List.length_append, List.length_replicate]; rfl

/-- A TCP upload larger than the merge buffer, answered early with `413`: the receive path frees
stream 0 while the tail span points into it and `strm_sending` names it. -/
theorem h2SessRecvV11_frees_sending_stream :
    let s : Sess := (Sess.init false false .v1_1).h2StrmInit 1 uploadReq
    let net : Net := ⟨fun _ => ⟨1, .other, .other⟩, fun _ => ⟨1, .other, .other⟩⟩
    let o : Int × Sess × Link × List Strm := h2SessSendOnceV11 .poll 16384 16384 net s ⟨[], []⟩
    let t : Sess := (h2SessRecvV11 ⟨fun _ => 0, fun _ => 0⟩ (fun _ => 0) o.2.1
      (bytes "413 Payload Too Large\r\n\r\n")).2.1
    o.1 = 1 ∧ o.2.1.refs = [0] ∧ o.2.1.strmSending = some 0 ∧
      t.wrBuf.memSendData = ⟨.strmBody 0, 1⟩ ∧ t.wrBuf.memSendSize = 16431 ∧ t.strmSending = some 0 ∧
      0 ∉ t.refs := by
  dsimp only
  generalize hS : h2SessSendOnceV11 .poll 16384 16384 _ _ ⟨[], []⟩ = o
  obtain ⟨h1, h2⟩ := hS ▸ h2SessSendOnceV11_client_tail .poll 16384 16384
    ⟨fun _ => ⟨1, .other, .other⟩, fun _ => ⟨1, .other, .other⟩⟩ ⟨[], []⟩
    (s := (Sess.init false false .v1_1).h2StrmInit 1 uploadReq)
    rfl rfl rfl rfl (show ¬ uploadReq.length ≤ 0 by simp [length_uploadReq])
    (show 16384 < (uploadReq.drop 0).length by simp [length_uploadReq])
    (by decide) rfl (n := 1) rfl (by decide) (show 1 < (uploadReq.drop 0).length by simp [length_uploadReq])
  have hr := clientRecv_h2SessRecvV11 ⟨fun _ => 0, fun _ => 0⟩ (fun _ => 0) (s := o.2.1) (by rw [h2]; rfl)
    (bytes "413 Payload Too Large\r\n\r\n")
  have hd : ((h2SessRecvV11 ⟨fun _ => 0, fun _ => 0⟩ (fun _ => 0) o.2.1
      (bytes "413 Payload Too Large\r\n\r\n")).2.2.map (·.ref)) = [0] := by
    rw [h2]; decide
  have hside := hr.side
  simp only [Sess.sendSide, Prod.mk.injEq] at hside
  obtain ⟨st, hst, h0⟩ := List.mem_map.mp (show 0 ∈ _ from hd ▸ List.mem_singleton_self 0)
  refine ⟨h1, by rw [h2]; rfl, by rw [h2]; rfl, ?_, ?_, by rw [hside.2.1, h2]; rfl, h0 ▸ hr.freed st hst⟩
  · rw [hside.1, h2]; rfl
  · rw [hside.1, h2]; simp [Strm.slice, length_uploadReq]

end H2Sim
