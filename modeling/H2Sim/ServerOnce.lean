import H2Sim.Request

/-! One call of `h2_sess_recv_hdl_once_v1_1` on an HTTP/1.1 server reading a stream of
well-formed requests. The parse position (between requests, after `j` lines of a header
section, or before a body) determines what the session's parse state must be and which bytes
are still to come; from any position with unread bytes, one call either completes the
current request or stops in another position waiting for more. -/
namespace H2Sim

variable {s t : Sess} {r : Req} {rs : List Req} {ssl : Bool} {ref j : Nat} {m : Msg}
  {P V U F T : List UInt8} {hooks : Hooks}

theorem find?_updStrm (f : Strm → Strm) (hf : ∀ st, (f st).ref = st.ref) (L : List Strm) :
    (updStrm ref f L).find? (·.ref = ref) = (L.find? (·.ref = ref)).map f := by
  induction L with
  | nil => rfl
  | cons st L ih =>
    by_cases h : st.ref = ref
    · simp [updStrm, h, hf]
    · simpa [updStrm, h] using ih

theorem find?_h2StrmInit (hf : ∀ st ∈ s.strms, st.ref < s.strmNext) (id : Int) (body : List UInt8) :
    (s.h2StrmInit id body).strms.find? (·.ref = s.strmNext) = some ⟨s.strmNext, id, .empty, false, ⟨body, 0⟩⟩ := by
  rw [Sess.h2StrmInit, List.find?_append, List.find?_eq_none.mpr fun st hst => by
    simpa using (hf st hst).ne]
  simp

/-- A server's parse position: between requests, in the header section after `j` lines, or
waiting for the body. -/
inductive Ph where
  | idle
  | lines (j : Nat)
  | body

/-- The bytes still to be parsed from a position, the current request being the head of
`rs`. -/
def Ph.rem : Ph → List Req → List UInt8
  | .idle, rs => (rs.map Req.ser).flatten
  | .lines j, r :: rs => serLines (r.lines.drop j) ++ eol r.endCrlf ++ r.body ++ (rs.map Req.ser).flatten
  | .body, r :: rs => r.body ++ (rs.map Req.ser).flatten
  | .lines _, [] | .body, [] => []

variable {ph : Ph}

/-- The stream `ref` is the one the server opened for its next request, holding `m`. -/
def RecvStrm (s : Sess) (ref : Nat) (m : Msg) : Prop :=
  s.strms.find? (·.ref = ref) = some ⟨ref, cInt (s.reqCnt * 2 + 1), m, false, ⟨[], 0⟩⟩

/-- A live HTTP/1.1 server session with a sound receive buffer and fresh stream refs. -/
structure SrvOk (ssl : Bool) (s : Sess) : Prop where
  server : s.isServer = true
  ssl : s.ssl = ssl
  live : s.isTerminated = 0
  buf : s.BufOk
  fresh : ∀ st ∈ s.strms, st.ref < s.strmNext

/-- The session's per-message parse state is the one the position names. -/
def AtPh (ssl : Bool) (s : Sess) : Ph → List Req → Prop
  | .idle, _ => s.strmRecving = none
  | .lines j, r :: _ => j ≤ r.lines.length ∧ ∃ ref, s.strmRecving = some ref ∧ s.rmsgHeaderDone = false ∧
      s.rmsgHeaderLine = j ∧ s.rmsgContentLength = (r.hdrAt ssl j).contentLength ∧
      RecvStrm s ref (r.hdrAt ssl j).msg
  | .body, r :: _ => 0 < r.body.length ∧ ∃ ref, s.strmRecving = some ref ∧ s.rmsgHeaderDone = true ∧
      s.rmsgContentLength = r.body.length ∧ RecvStrm s ref { r.msg ssl with body := [] }
  | .lines _, [] | .body, [] => False

theorem RecvStrm.rmsgOf (h : RecvStrm s ref m) : s.rmsgOf ref = m := by
  unfold RecvStrm at h; simp [Sess.rmsgOf, h]

theorem RecvStrm.strmOf (h : RecvStrm s ref m) : s.strmOf ref = ⟨ref, cInt (s.reqCnt * 2 + 1), m, false, ⟨[], 0⟩⟩ := by
  unfold RecvStrm at h; simp only [Sess.strmOf, h, Option.getD_some]

theorem RecvStrm.setRmsg (h : RecvStrm s ref m) (m' : Msg) : RecvStrm (s.setRmsg ref m') ref m' := by
  unfold RecvStrm at h ⊢
  rw [Sess.setRmsg, find?_updStrm (fun st => { st with rmsg := m' }) (fun _ => rfl), h, Option.map_some']

theorem fresh_setRmsg (h : ∀ st ∈ s.strms, st.ref < s.strmNext) (m : Msg) :
    ∀ st ∈ (s.setRmsg ref m).strms, st.ref < (s.setRmsg ref m).strmNext := by
  simp only [Sess.setRmsg, updStrm, List.mem_map]
  rintro _ ⟨st, hst, rfl⟩
  split_ifs <;> exact h st hst

theorem RecvStrm.afterScan (h : RecvStrm s ref m) (w : HdrEnd × Hdr × Nat) :
    RecvStrm (s.afterScan ref w) ref w.2.1.msg :=
  (show RecvStrm { s with rdataUsed := w.2.2 } ref m from h).setRmsg _

theorem afterScan_ok (hok : SrvOk ssl s) (hU : s.unread = P ++ V) (ref : Nat) (w : HdrEnd × Hdr × Nat)
    (hw : w.2.2 = s.rdataUsed + P.length) :
    SrvOk ssl (s.afterScan ref w) ∧ (s.afterScan ref w).unread = V := by
  obtain ⟨hb, hu⟩ := unread_advance hok.buf hU (t := s.afterScan ref w) rfl rfl hw
  exact ⟨⟨hok.server, hok.ssl, hok.live, hb, fresh_setRmsg hok.fresh _⟩, hu⟩

theorem SrvOk.frame (h : BufFrame s t) (hok : SrvOk ssl s) (hb : t.BufOk) : SrvOk ssl t := by
  rw [h] at hb ⊢; exact ⟨hok.server, hok.ssl, hok.live, hb, hok.fresh⟩

theorem AtPh.frame (h : BufFrame s t) (hat : AtPh ssl s ph rs) : AtPh ssl t ph rs := by
  rw [h]; exact hat

/-- A complete message runs the callback, counts it in `req_cnt` and idles the parser. -/
theorem recvComplete_msg (hsv : s.isServer = true) (hcl : s.rmsgContentLength = m.body.length)
    (hst : RecvStrm s ref m) (hk : ∀ st, 0 ≤ hooks.onRequest st) :
    s.recvComplete hooks ref =
      (1, { s with reqCnt := s.reqCnt + 1, strmRecving := none }, [⟨ref, cInt (s.reqCnt * 2 + 1), m, false, ⟨[], 0⟩⟩]) := by
  rw [Sess.recvComplete, if_pos (by rw [hst.rmsgOf, hcl]), hst.strmOf, if_pos hsv]
  simp only [if_pos (hk _)]

theorem recvComplete_wait (hcl : s.rmsgContentLength ≠ (s.rmsgOf ref).body.length) :
    s.recvComplete hooks ref = (0, s, []) := by
  rw [Sess.recvComplete, if_neg hcl]

/-- The unread bytes hold the whole body, and what follows it. -/
theorem split_body (hU : s.unread ++ F = r.body ++ T) (hn : r.body.length ≤ s.unread.length) :
    s.unread = r.body ++ s.unread.drop r.body.length ∧ s.unread.drop r.body.length ++ F = T := by
  have h₁ := congrArg (List.take r.body.length) hU
  have h₂ := congrArg (List.drop r.body.length) hU
  rw [List.take_append_of_le_length hn, List.take_left' rfl] at h₁
  rw [List.drop_append_of_le_length hn, List.drop_left' rfl] at h₂
  refine ⟨?_, h₂⟩
  conv_lhs => rw [← List.take_append_drop r.body.length s.unread]
  rw [h₁]

/-- The body copy of a message whose body has arrived completes its stream. -/
theorem recvCopy_body (hok : SrvOk ssl s) (hcl : s.rmsgContentLength = r.body.length)
    (hst : RecvStrm s ref { r.msg ssl with body := [] }) (hU : s.unread = r.body ++ U) :
    SrvOk ssl (s.recvCopy ref) ∧ RecvStrm (s.recvCopy ref) ref (r.msg ssl) ∧ (s.recvCopy ref).unread = U ∧
      (s.recvCopy ref).rmsgContentLength = s.rmsgContentLength ∧ (s.recvCopy ref).reqCnt = s.reqCnt := by
  by_cases h0 : r.body.length = 0
  · have hb : r.body = [] := List.eq_nil_of_length_eq_zero h0
    rw [Sess.recvCopy, if_neg (by rw [hcl, h0]; simp)]
    exact ⟨hok, by simpa [Req.msg, hb] using hst, by simpa [hb] using hU, rfl, rfl⟩
  · have hlen : r.body.length ≤ s.rdataSize - s.rdataUsed := by
      have := congrArg List.length hU; simp only [Sess.unread, RBuf.length_read, List.length_append] at this; omega
    have hcopy : s.recvCopy ref = ({ s with rdataUsed := s.rdataUsed + r.body.length }).setRmsg ref (r.msg ssl) := by
      have h₁ : ((s.rdataUsed : Int) + r.body.length).toNat = s.rdataUsed + r.body.length := by omega
      have h₂ : (r.body.length : Int).toNat = r.body.length := by omega
      rw [Sess.recvCopy, if_pos ⟨by rw [hcl]; exact_mod_cast h0, by rw [hst.rmsgOf]; rfl, by rw [hcl]; omega⟩, hcl,
        hst.rmsgOf, Msg.h2CpyBody, h₁, h₂, read_prefix hU]
      rfl
    obtain ⟨hb, hu⟩ := unread_advance hok.buf hU (t := { s with rdataUsed := s.rdataUsed + r.body.length }) rfl rfl rfl
    rw [hcopy]
    exact ⟨⟨hok.server, hok.ssl, hok.live, hb, fresh_setRmsg hok.fresh _⟩,
      (show RecvStrm { s with rdataUsed := s.rdataUsed + r.body.length } ref _ from hst).setRmsg _, hu, rfl, rfl⟩

/-- The body step (lines 581-611): the request completes once its body is unread, else waits. -/
theorem finish_body (hok : SrvOk ssl s) (hcl : s.rmsgContentLength = r.body.length)
    (hst : RecvStrm s ref { r.msg ssl with body := [] }) (hU : s.unread ++ F = r.body ++ T)
    (hk : ∀ st, 0 ≤ hooks.onRequest st) :
    let o := (s.recvCopy ref).recvComplete hooks ref
    (o.1 = 1 ∧ o.2.2.map (fun st => (st.streamId, st.rmsg)) = [(cInt (s.reqCnt * 2 + 1), r.msg ssl)] ∧
      SrvOk ssl o.2.1 ∧ o.2.1.strmRecving = none ∧ o.2.1.reqCnt = s.reqCnt + 1 ∧ o.2.1.unread ++ F = T ∧
      o.2.1.unread.length + r.body.length = s.unread.length) ∨
    (s.unread.length < r.body.length ∧ o = (0, s, []) ∧ F ≠ []) := by
  by_cases hn : r.body.length ≤ s.unread.length
  · obtain ⟨hsplit, hT⟩ := split_body hU hn
    obtain ⟨hok', hst', hu, hcl', hcnt⟩ := recvCopy_body hok hcl hst hsplit
    refine .inl ?_
    rw [recvComplete_msg hok'.server (by rw [hcl', hcl]; rfl) hst' hk]
    refine ⟨rfl, by simp [hcnt], ⟨hok'.server, hok'.ssl, hok'.live, hok'.buf, hok'.fresh⟩, rfl, by simp [hcnt],
      hu ▸ hT, ?_⟩
    show (s.recvCopy ref).unread.length + _ = _
    rw [hu, List.length_drop]; omega
  · have hF : F ≠ [] := by rintro rfl; have := congrArg List.length hU; simp at this; omega
    have hlen := length_unread s
    refine .inr ⟨by omega, ?_, hF⟩
    show (s.recvCopy ref).recvComplete hooks ref = _
    rw [Sess.recvCopy, if_neg (fun h => by have := h.2.2; rw [hcl] at this; omega),
      recvComplete_wait (by rw [hst.rmsgOf, hcl]; show (r.body.length : Int) ≠ (0 : Nat); omega)]

/-- What one call of `h2_sess_recv_hdl_once_v1_1` does from a position over `rs`: complete the
current request, consuming bytes, or wait in some position. -/
def OnceOut (ssl : Bool) (F : List UInt8) (s : Sess) (rs : List Req) (o : Int × Sess × List Strm) : Prop :=
  (o.1 = 1 ∧ ∃ r rs', rs = r :: rs' ∧
    o.2.2.map (fun st => (st.streamId, st.rmsg)) = [(cInt (s.reqCnt * 2 + 1), r.msg ssl)] ∧
    SrvOk ssl o.2.1 ∧ AtPh ssl o.2.1 .idle rs' ∧ o.2.1.reqCnt = s.reqCnt + 1 ∧
    o.2.1.unread ++ F = Ph.rem .idle rs' ∧ o.2.1.unread.length < s.unread.length) ∨
  (o.1 = 0 ∧ o.2.2 = [] ∧ SrvOk ssl o.2.1 ∧ o.2.1.reqCnt = s.reqCnt ∧ F ≠ [] ∧
    ∃ ph, AtPh ssl o.2.1 ph rs ∧ o.2.1.unread ++ F = ph.rem rs)

theorem OnceOut.congr {o : Int × Sess × List Strm} (h₁ : t.reqCnt = s.reqCnt) (h₂ : t.unread = s.unread) :
    OnceOut ssl F t rs o → OnceOut ssl F s rs o := by
  unfold OnceOut; rw [h₁, h₂]; exact id

/-- A call in the body position completes the request once its body has arrived. -/
theorem onceOut_body (hok : SrvOk ssl s) (hat : AtPh ssl s .body (r :: rs))
    (hU : s.unread ++ F = Ph.rem .body (r :: rs)) (hk : ∀ st, 0 ≤ hooks.onRequest st) :
    OnceOut ssl F s (r :: rs) (h2SessRecvHdlOnceV11 hooks s) := by
  obtain ⟨hpos, ref, hrecv, hdone, hcl, hst⟩ := hat
  have hrun : h2SessRecvHdlOnceV11 hooks s = (s.recvCopy ref).recvComplete hooks ref := by
    simp only [h2SessRecvHdlOnceV11, Sess.recvStart, hrecv, hdone, if_true]
  rw [hrun]
  rcases finish_body hok hcl hst hU hk with ⟨h1, hout, hok', hidle, hcnt, hrest, hlen⟩ | ⟨-, ho, hF⟩
  · exact .inl ⟨h1, r, rs, rfl, hout, hok', hidle, hcnt, hrest, by omega⟩
  · rw [ho]; exact .inr ⟨rfl, rfl, hok, rfl, hF, .body, ⟨hpos, ref, hrecv, hdone, hcl, hst⟩, hU⟩

/-- A call in the header section reaches the empty line or waits short of a line end. -/
theorem onceOut_lines (hok : SrvOk ssl s) (hw : r.Wf) (hn : r.body.length < 2 ^ 31)
    (hat : AtPh ssl s (.lines j) (r :: rs)) (hU : s.unread ++ F = Ph.rem (.lines j) (r :: rs))
    (hk : ∀ st, 0 ≤ hooks.onRequest st) :
    OnceOut ssl F s (r :: rs) (h2SessRecvHdlOnceV11 hooks s) := by
  obtain ⟨hj, ref, hrecv, hdone, hline, hcl, hst⟩ := hat
  have hH : (⟨s.rmsgHeaderLine, s.rmsgContentLength, s.rmsgOf ref⟩ : Hdr) = r.hdrAt ssl j := by
    rw [hline, hcl, hst.rmsgOf]; cases j <;> rfl
  have hU' : s.unread ++ F = serLines (r.lines.drop j) ++ eol r.endCrlf ++ (r.body ++ (rs.map Req.ser).flatten) := by
    rw [hU, Ph.rem, List.append_assoc]
  simp only [h2SessRecvHdlOnceV11, Sess.recvStart, hrecv, hdone, hok.server, hok.ssl, hH, Bool.false_eq_true,
    if_false]
  rw [show (s.rdata.getD RBuf.none).read s.rdataUsed (s.rdataSize - s.rdataUsed) = s.unread from rfl]
  rcases hdrScan_req hw hn hj hU' ssl ((s.rdata.getD RBuf.none).read s.rdataSize
      ((s.rdata.getD RBuf.none).alloced - s.rdataSize)) s.rdataUsed with
    ⟨U', hsplit, hrest, hs⟩ | ⟨j', P, V, hj₁, hj₂, hsplit, hF, hrest, hs⟩
  · rw [hs, r.hdrAt_end hw ssl]
    dsimp only
    let w : HdrEnd × Hdr × Nat := (.done, ⟨r.lines.length, r.body.length, { r.msg ssl with body := [] }⟩,
      s.rdataUsed + (serLines (r.lines.drop j) ++ eol r.endCrlf).length)
    change OnceOut ssl F s (r :: rs) (((s.afterScan ref w).recvCopy ref).recvComplete hooks ref)
    obtain ⟨hok₂, hu₂⟩ := afterScan_ok hok hsplit ref w rfl
    have hst₂ : RecvStrm (s.afterScan ref w) ref { r.msg ssl with body := [] } := hst.afterScan w
    rcases finish_body hok₂ (r := r) rfl hst₂ (hu₂ ▸ hrest) hk with
      ⟨h1, hout, hok', hidle, hcnt, hrest', hlen⟩ | ⟨hlt, ho, hF⟩
    · have hS : 0 < (serLines (r.lines.drop j) ++ eol r.endCrlf).length := by
        cases r.endCrlf <;> simp
      refine .inl ⟨h1, r, rs, rfl, hout, hok', hidle, hcnt, hrest', ?_⟩
      have := congrArg List.length hsplit
      simp only [List.length_append] at this hS
      rw [hu₂] at hlen
      omega
    · rw [ho]
      exact .inr ⟨rfl, rfl, hok₂, rfl, hF, .body, ⟨by omega, ref, hrecv, rfl, rfl, hst₂⟩, hu₂ ▸ hrest⟩
  · rw [hs]
    obtain ⟨hok₂, hu₂⟩ := afterScan_ok hok hsplit ref (.more, r.hdrAt ssl j', s.rdataUsed + P.length) rfl
    refine .inr ⟨rfl, rfl, hok₂, rfl, hF, .lines j', ⟨hj₂, ref, hrecv, rfl, Req.hdrAt_line ssl r j', rfl,
      hst.afterScan _⟩, ?_⟩
    rw [hu₂, hrest, Ph.rem]; simp only [List.append_assoc]

/-- A server opens the stream for its next request: id `req_cnt * 2 + 1`, at the tail. -/
theorem start_lines (hok : SrvOk ssl s) (r : Req) (rs : List Req) :
    let t := (s.h2StrmInit (cInt (s.reqCnt * 2 + 1)) []).startRmsg s.strmNext
    SrvOk ssl t ∧ AtPh ssl t (.lines 0) (r :: rs) ∧ t.reqCnt = s.reqCnt ∧ t.unread = s.unread := by
  refine ⟨⟨hok.server, hok.ssl, hok.live, hok.buf, ?_⟩, ⟨Nat.zero_le _, s.strmNext, rfl, rfl, rfl, rfl, ?_⟩, rfl, rfl⟩
  · simp only [Sess.startRmsg, Sess.h2StrmInit, List.mem_append, List.mem_singleton]
    rintro st (hst | rfl)
    · exact Nat.lt_succ_of_lt (hok.fresh st hst)
    · exact Nat.lt_succ_self _
  · exact find?_h2StrmInit hok.fresh _ _

theorem once_start (hok : SrvOk ssl s) (hidle : s.strmRecving = none) :
    h2SessRecvHdlOnceV11 hooks s =
      h2SessRecvHdlOnceV11 hooks ((s.h2StrmInit (cInt (s.reqCnt * 2 + 1)) []).startRmsg s.strmNext) := by
  conv_lhs => simp only [h2SessRecvHdlOnceV11, Sess.recvStart, hidle, hok.server, if_true]
  rfl

theorem rem_lines_zero (r : Req) (rs : List Req) : Ph.rem (.lines 0) (r :: rs) = Ph.rem .idle (r :: rs) := by
  simp [Ph.rem, Req.ser, Req.head]

/-- One call of `h2_sess_recv_hdl_once_v1_1` on a server with unread bytes, from any position. -/
theorem onceOut (hok : SrvOk ssl s) (hwf : ∀ r ∈ rs, r.Wf ∧ r.body.length < 2 ^ 31)
    (hat : AtPh ssl s ph rs) (hne : s.unread ≠ []) (hU : s.unread ++ F = ph.rem rs)
    (hk : ∀ st, 0 ≤ hooks.onRequest st) :
    OnceOut ssl F s rs (h2SessRecvHdlOnceV11 hooks s) := by
  match ph, rs, hat with
  | .idle, [], _ => exact absurd (List.append_eq_nil.mp hU).1 hne
  | .idle, r :: rs, hat =>
    obtain ⟨hok', hat', hcnt, hu⟩ := start_lines hok r rs
    rw [once_start hok hat]
    exact (onceOut_lines hok' (hwf r (by simp)).1 (hwf r (by simp)).2 hat'
      (by rw [hu, hU, rem_lines_zero]) hk).congr hcnt hu
  | .lines j, r :: rs, hat => exact onceOut_lines hok (hwf r (by simp)).1 (hwf r (by simp)).2 hat hU hk
  | .body, r :: rs, hat => exact onceOut_body hok hat hU hk

end H2Sim
