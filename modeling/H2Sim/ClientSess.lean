import H2Sim.ClientTail
import H2Sim.ServerSess

/-! An HTTP/1.1 client session as the event loop drives it: the application opens request
streams, `h2_sess_send_once_v1_1` writes them, `h2_sess_recv` parses responses, and
`h2_sess_terminate` may end the session. A client matches a response to the oldest stream
(lines 459-468) and frees that stream when the response completes (lines 598-603), so along
every run the streams handed to `h2_on_response_recv` are the requests in the order they were
made, whatever bytes arrive and wherever they are cut; and the transport receives the requests'
bytes in that order, the freeing of a stream by the receive path notwithstanding. -/
namespace H2Sim

variable {s t : Sess} {l : Link} {done : List Strm} {st : Strm} {rest : List Strm} {r : Nat}

/-- What response matching and the send side of a client read. -/
def Sess.cliView (s : Sess) : Bool × List Strm × Option Nat × Nat × Nat × WrBuf × Option Nat :=
  (s.isServer, s.strms.map Strm.noMsg, s.strmRecving, s.strmNext, s.strmCloseCnt, s.wrBuf, s.strmSending)

/-- A client after handing `done` to `h2_on_response_recv`, `l` accepted: the requests in opening
order, the close count, the oldest one parsed, and the send order over `done ++ strms`. -/
structure CliInv (s : Sess) (l : Link) (done : List Strm) : Prop where
  client : s.isServer = false
  order : done.map Strm.ref ++ s.refs = List.range s.strmNext
  closed : s.strmCloseCnt = done.length
  oldest : ∀ r, s.strmRecving = some r → s.refs.head? = some r
  conserved : l.wire ++ (s.wrBuf.mergeData ++ s.wrBuf.memSendBytes) = takenBytes (done ++ s.strms)
  whole : ∀ st ∈ done, st.Whole
  live : HistOk false s.strmNext s.strms
  sending : ∀ r, s.strmSending = some r → r < s.strmNext ∧
    (r ∈ s.refs → ∃ pre st post, s.strms = pre ++ st :: post ∧ st.ref = r ∧ ∀ a ∈ pre, a.Drained)

theorem Sess.refs_eq_noMsg (s : Sess) : s.refs = (s.strms.map Strm.noMsg).map Strm.ref := by
  rw [List.map_map]; rfl

/-- The drained streams before a listed one, seen through the streams without messages. -/
theorem sending_of_noMsg (e : t.strms.map Strm.noMsg = s.strms.map Strm.noMsg)
    (h : ∃ pre st post, s.strms = pre ++ st :: post ∧ st.ref = r ∧ ∀ a ∈ pre, a.Drained) :
    ∃ pre st post, t.strms = pre ++ st :: post ∧ st.ref = r ∧ ∀ a ∈ pre, a.Drained := by
  obtain ⟨pre, st, post, hs, rfl, hd⟩ := h
  rw [hs, List.map_append, List.map_cons] at e
  obtain ⟨A, B, hAB, hA, hB⟩ := List.map_eq_append_iff.mp e
  obtain ⟨x, B', rfl, hx, -⟩ := List.map_eq_cons_iff.mp hB
  refine ⟨A, x, B', hAB, (congrArg Strm.ref hx : x.noMsg.ref = st.noMsg.ref), fun a ha => ?_⟩
  obtain ⟨a', ha', e'⟩ := List.mem_map.mp (hA ▸ List.mem_map_of_mem Strm.noMsg ha)
  have hb : a'.sendBodyRb = a.sendBodyRb := (congrArg Strm.sendBodyRb e' : a'.noMsg.sendBodyRb = _)
  exact (show a.sendBodyRb.data.length ≤ a.sendBodyRb.dataUsed from hb ▸ hd a' ha')

theorem CliInv.of_cliView (hi : CliInv s l done) (e : t.cliView = s.cliView) : CliInv t l done := by
  simp only [Sess.cliView, Prod.mk.injEq] at e
  obtain ⟨e₁, e₂, e₃, e₄, e₅, e₆, e₇⟩ := e
  have hr : t.refs = s.refs := by rw [Sess.refs_eq_noMsg, e₂, ← Sess.refs_eq_noMsg]
  have hH : (done ++ t.strms).map Strm.noMsg = (done ++ s.strms).map Strm.noMsg := by
    rw [List.map_append, List.map_append, e₂]
  refine ⟨e₁ ▸ hi.client, by rw [hr, e₄]; exact hi.order, e₅ ▸ hi.closed,
    fun r h => by rw [hr]; exact hi.oldest r (e₃ ▸ h), ?_, hi.whole, ?_, fun r h => ?_⟩
  · rw [e₆, ← takenBytes_noMsg, hH, takenBytes_noMsg]
    exact hi.conserved
  · rw [e₄, ← HistOk.noMsg_iff, e₂, HistOk.noMsg_iff]
    exact hi.live
  · obtain ⟨h₁, h₂⟩ := hi.sending r (e₇ ▸ h)
    exact ⟨e₄ ▸ h₁, fun hm => sending_of_noMsg e₂ (h₂ (hr ▸ hm))⟩

/-- A step that hands nothing to the callback and keeps the view. -/
theorem CliInv.frame (hi : CliInv s l done) (e : t.cliView = s.cliView) : CliInv t l (done ++ []) := by
  rw [List.append_nil]; exact hi.of_cliView e

theorem CliInv.refs_nodup (hi : CliInv s l done) : s.refs.Nodup :=
  (hi.order ▸ List.nodup_range s.strmNext).of_append_right

theorem HistOk.of_cons {sv : Bool} {n : Nat} (h : HistOk sv n (st :: rest)) : HistOk sv n rest :=
  ⟨fun a ha => h.whole a (List.mem_cons_of_mem _ ha), h.ordered.of_cons, (List.nodup_cons.mp h.nodup).2,
    fun r hr => h.fresh r (List.mem_cons_of_mem _ hr)⟩

/-- The stream `strm_sending` names, listed after the head, is still listed once the head goes. -/
theorem sending_of_tail (hn : st.ref ∉ rest.map Strm.ref) (hm : r ∈ rest.map Strm.ref)
    (h : ∃ pre st' post, st :: rest = pre ++ st' :: post ∧ st'.ref = r ∧ ∀ a ∈ pre, a.Drained) :
    ∃ pre st' post, rest = pre ++ st' :: post ∧ st'.ref = r ∧ ∀ a ∈ pre, a.Drained := by
  obtain ⟨pre, st', post, e, rfl, hd⟩ := h
  cases pre with
  | nil => exact absurd (List.cons.inj e).1 fun h => hn (h ▸ hm)
  | cons a pre => exact ⟨pre, st', post, (List.cons.inj e).2, rfl, fun a ha => hd a (List.mem_cons_of_mem _ ha)⟩

@[simp] theorem Sess.setRmsg_cliView (m : Msg) : (s.setRmsg r m).cliView = s.cliView := by
  have h : (s.setRmsg r m).strms.map Strm.noMsg = s.strms.map Strm.noMsg := updStrm_map _ _ fun _ => rfl
  unfold Sess.cliView; rw [h]; rfl

theorem BufFrame.cliView (h : BufFrame s t) : t.cliView = s.cliView := by rw [h]; rfl

theorem recvCopy_cliView (r : Nat) : (s.recvCopy r).cliView = s.cliView := by
  unfold Sess.recvCopy; dsimp only; split_ifs
  · rw [Sess.setRmsg_cliView]; rfl
  · rfl

theorem afterScan_cliView (r : Nat) (w : HdrEnd × Hdr × Nat) : (s.afterScan r w).cliView = s.cliView := by
  rw [Sess.afterScan, Sess.setRmsg_cliView]; rfl

/-- A client's stream selection keeps the stream being received or takes the oldest. -/
theorem CliInv.recvStart (hi : CliInv s l done) (h : s.recvStart = some (t, r)) :
    CliInv t l done ∧ t.refs.head? = some r := by
  unfold Sess.recvStart at h
  split at h
  · next hr => cases h; exact ⟨hi, hi.oldest r hr⟩
  · rw [if_neg (by simp [hi.client])] at h
    split at h
    · cases h
    · next st _ hs =>
      cases h
      have hh : (s.startRmsg st.ref).refs.head? = some st.ref := by
        simp [Sess.refs, Sess.startRmsg, hs]
      exact ⟨⟨hi.client, hi.order, hi.closed, fun _ h => (Option.some.inj h) ▸ hh, hi.conserved, hi.whole,
        hi.live, hi.sending⟩, hh⟩

/-- Freeing the oldest stream of a list without repeated refs unlinks exactly it. -/
theorem Sess.h2StrmFree_head (hs : s.strms = st :: rest) (hn : s.refs.Nodup) :
    (s.h2StrmFree st.ref).strms = rest ∧ s.strmOf st.ref = st := by
  have hr : st.ref ∉ rest.map Strm.ref := by
    rw [Sess.refs, hs, List.map_cons] at hn
    exact (List.nodup_cons.mp hn).1
  refine ⟨?_, by simp [Sess.strmOf, hs]⟩
  simp only [Sess.h2StrmFree, hs, List.filter_cons, ne_eq, not_true_eq_false, decide_False,
    Bool.false_eq_true, if_false]
  exact List.filter_eq_self.mpr fun x hx => by
    simpa using fun h => hr (List.mem_map.mpr ⟨x, hx, h⟩)

/-- A client's completion unlinks the oldest stream; handed-over then listed streams stay one list. -/
theorem CliInv.recvComplete (hooks : Hooks) (hi : CliInv s l done) (hr : s.refs.head? = some r) :
    CliInv (s.recvComplete hooks r).2.1 l (done ++ (s.recvComplete hooks r).2.2) := by
  obtain ⟨st, rest, hs, rfl⟩ : ∃ st rest, s.strms = st :: rest ∧ st.ref = r := by
    cases hs : s.strms with
    | nil => simp [Sess.refs, hs] at hr
    | cons st rest => exact ⟨st, rest, rfl, by simpa [Sess.refs, hs] using hr⟩
  have hn := hi.refs_nodup
  obtain ⟨hf, ho⟩ := Sess.h2StrmFree_head hs hn
  rw [Sess.refs, hs, List.map_cons] at hn
  have hst := hi.live
  rw [hs] at hst
  have hH : done ++ [st] ++ rest = done ++ s.strms := by rw [hs, List.append_assoc, List.singleton_append]
  unfold Sess.recvComplete
  simp only [hi.client, Bool.false_eq_true, if_false]
  split
  · refine ⟨hi.client, ?_, by simp [hi.closed], fun _ h => Option.noConfusion h, ?_, ?_, ?_, fun x hx => ?_⟩
    · simp only [Sess.refs, hf, ho, List.map_append, List.map_singleton, List.append_assoc,
        List.singleton_append]
      rw [← List.map_cons, ← hs]
      exact hi.order
    · show _ = takenBytes (done ++ [s.strmOf st.ref] ++ (s.h2StrmFree st.ref).strms)
      rw [ho, hf, hH]
      exact hi.conserved
    · rw [ho]
      simp only [List.mem_append, List.mem_singleton]
      rintro x (hx | rfl)
      exacts [hi.whole x hx, hst.whole x (List.mem_cons_self x rest)]
    · show HistOk false s.strmNext (s.h2StrmFree st.ref).strms
      exact hf ▸ hst.of_cons
    · obtain ⟨h₁, h₂⟩ := hi.sending x hx
      refine ⟨h₁, fun hm => ?_⟩
      have hm' : x ∈ rest.map Strm.ref := by rwa [Sess.refs, show (s.h2StrmFree st.ref).strms = rest from hf] at hm
      show ∃ pre st' post, (s.h2StrmFree st.ref).strms = _ ∧ _
      rw [hf]
      exact sending_of_tail (List.nodup_cons.mp hn).1 hm' (hs ▸ h₂ (by rw [Sess.refs, hs]; exact List.mem_cons_of_mem _ hm'))
  · simpa using hi

theorem CliInv.complete_after (hooks : Hooks) (hi : CliInv t l done) (hr : t.refs.head? = some r)
    {t' : Sess} (e : t'.cliView = t.cliView) :
    CliInv ((t'.recvCopy r).recvComplete hooks r).2.1 l (done ++ ((t'.recvCopy r).recvComplete hooks r).2.2) :=
  have e' := (recvCopy_cliView r).trans e
  (hi.of_cliView e').recvComplete hooks (by
    rw [Sess.refs_eq_noMsg, show (t'.recvCopy r).strms.map Strm.noMsg = t.strms.map Strm.noMsg from
      congrArg (·.2.1) e', ← Sess.refs_eq_noMsg]
    exact hr)

theorem CliInv.once (hooks : Hooks) (hi : CliInv s l done) :
    CliInv (h2SessRecvHdlOnceV11 hooks s).2.1 l (done ++ (h2SessRecvHdlOnceV11 hooks s).2.2) := by
  unfold h2SessRecvHdlOnceV11
  split
  · exact hi.frame rfl
  · next t r hst =>
    obtain ⟨h₁, hr⟩ := hi.recvStart hst
    split
    · exact h₁.complete_after hooks hr rfl
    · dsimp only
      split
      · exact h₁.frame (afterScan_cliView r _)
      · exact h₁.complete_after hooks hr (afterScan_cliView r _)
      · exact h₁.frame (afterScan_cliView r _)

theorem CliInv.recvLoop (hooks : Hooks) : ∀ (fuel : Nat) {s : Sess} {done : List Strm}, CliInv s l done →
    CliInv (recvLoop hooks fuel s).2.1 l (done ++ (recvLoop hooks fuel s).2.2)
  | 0, _, _, hi => by simpa [H2Sim.recvLoop] using hi
  | fuel + 1, s, _, hi => by
    have h₁ := hi.once hooks
    rw [H2Sim.recvLoop]
    split_ifs
    · simpa [List.append_assoc] using CliInv.recvLoop hooks fuel h₁
    · exact h₁

theorem CliInv.h2SessRecvV11 (hooks : Hooks) (junk : Nat → UInt8) (d : List UInt8) (hi : CliInv s l done) :
    CliInv (h2SessRecvV11 hooks junk s d).2.1 l (done ++ (h2SessRecvV11 hooks junk s d).2.2) := by
  have h₁ := CliInv.recvLoop hooks ((s.appendRdata junk d).rdataSize - (s.appendRdata junk d).rdataUsed + 1)
    (hi.of_cliView (appendRdata_frame s junk d).cliView)
  unfold H2Sim.h2SessRecvV11
  dsimp only
  split_ifs
  · exact h₁
  · exact h₁.of_cliView (releaseRdata_frame _).cliView

/-- `h2_sess_recv` on a client: whatever the read returns. -/
theorem CliInv.h2SessRecv (hooks : Hooks) (junk : Nat → UInt8) (memRecv : Codec → List UInt8 → Int × Codec)
    (rd : RdRet) (hi : CliInv s l done) :
    CliInv (h2SessRecv hooks junk memRecv rd s).2.1 l (done ++ (h2SessRecv hooks junk memRecv rd s).2.2) := by
  have hv11 := hi.h2SessRecvV11 hooks junk rd.bytes
  -- the read-error, EOF and HTTP/2 branches change only fields outside the view
  unfold H2Sim.h2SessRecv
  by_cases h₁ : s.ssl = true ∧ rd.ret < 0 ∧ rd.sslErr = .wantRead
  · rw [if_pos h₁]; exact hi.frame rfl
  rw [if_neg h₁]
  by_cases h₂ : rd.ret < 0
  · rw [if_pos h₂]; split <;> exact hi.frame rfl
  rw [if_neg h₂]
  by_cases h₃ : rd.ret = 0
  · rw [if_pos h₃]; exact hi.frame rfl
  rw [if_neg h₃]
  split
  · dsimp only; split <;> exact hi.frame rfl
  · dsimp only; split
    exacts [hv11.of_cliView rfl, hv11]

/-- Opening a request stream appends it with the next ref and nothing taken. -/
theorem CliInv.strmInit (hi : CliInv s l done) (streamId : Int) (body : List UInt8) :
    CliInv (s.h2StrmInit streamId body) l done := by
  refine ⟨hi.client, ?_, hi.closed, fun r h => ?_, ?_, hi.whole, ?_, fun r h => ?_⟩
  · simp only [Sess.refs, Sess.h2StrmInit, List.map_append, List.map_singleton, List.range_succ,
      ← List.append_assoc]
    exact congrArg (· ++ [s.strmNext]) hi.order
  · have hh := hi.oldest r h
    cases hs : s.strms with
    | nil => simp [Sess.refs, hs] at hh
    | cons st rest => simpa [Sess.refs, Sess.h2StrmInit, hs] using hh
  · simp [Sess.h2StrmInit, hi.conserved, Strm.taken]
  · simpa [Sess.h2StrmInit] using HistOk.snoc ⟨s.strmNext, streamId, .empty, false, ⟨body, 0⟩⟩ hi.live rfl rfl
  · obtain ⟨h₁, h₂⟩ := hi.sending r h
    refine ⟨Nat.lt_succ_of_lt h₁, fun hm => ?_⟩
    simp only [Sess.refs, Sess.h2StrmInit, List.map_append, List.map_singleton, List.mem_append,
      List.mem_singleton] at hm
    obtain ⟨pre, st, post, e, hr, hd⟩ := h₂ (hm.resolve_right (Nat.ne_of_lt h₁))
    exact ⟨pre, st, post ++ [⟨s.strmNext, streamId, .empty, false, ⟨body, 0⟩⟩], by simp [Sess.h2StrmInit, e], hr, hd⟩

variable {b : Build} {bufSize cap : Nat} {net : Net} {l' : Link} {r : Int} {s' : Sess} {fr' : List Strm}

/-- A client's send call frees nothing and appends exactly the bytes it takes from the list. -/
theorem CliInv.sendOnce (hi : CliInv s l done) (hg : ∀ x, s.strmSending = some x → x ∈ s.refs)
    (h : h2SessSendOnceV11 b bufSize cap net s l = (r, s', l', fr')) : CliInv s' l' done := by
  obtain ⟨h₁, h₂⟩ := h2SessSendOnceV11_history Strm.ref (fun _ => rfl) h
  obtain ⟨hc, hf⟩ := h2SessSendOnceV11_freed h
  have hsh : Shape s [] := ⟨by rw [hi.client, List.nil_append]; exact hi.live, by simp,
    fun _ x hx => (hi.sending x hx).2 (hg x hx), fun h => absurd (hi.client ▸ h) (by decide)⟩
  obtain ⟨hs', Δ, hC, hT⟩ := h2SessSendOnceV11_shape hsh h
  rw [hf hi.client] at h₁ hs' hT
  rw [List.nil_append] at h₁
  simp only [List.nil_append, List.append_nil] at hs' hT
  simp only [Sess.numbering, Prod.mk.injEq] at h₂
  obtain ⟨e₁, e₂, -, e₄⟩ := h₂
  have hH := hs'.hist
  rw [e₁, hi.client] at hH
  refine ⟨e₁ ▸ hi.client, by rw [Sess.refs, h₁, e₂]; exact hi.order, by rw [hc, hf hi.client]; exact hi.closed,
    fun x hx => by rw [Sess.refs, h₁]; exact hi.oldest x (e₄ ▸ hx), ?_, hi.whole, hH, fun x hx => ?_⟩
  · rw [hC, hi.conserved, takenBytes_append, takenBytes_append, hT, List.append_assoc]
  · obtain ⟨pre, st, post, e, rfl, hd⟩ := hs'.sending (e₁.trans hi.client) x hx
    exact ⟨hH.fresh _ (List.mem_map_of_mem _ (by simp [e])), fun _ => ⟨pre, st, post, e, rfl, hd⟩⟩

@[simp] theorem Sess.markSendPending_cliView : (s.markSendPending b).cliView = s.cliView := by
  unfold Sess.markSendPending; split <;> rfl

theorem h2SessTerminate_cliView (ngTerm : Codec → Option Codec) (waitRsp : Bool) :
    (h2SessTerminate b ngTerm s waitRsp).2.cliView = s.cliView := by
  unfold h2SessTerminate
  dsimp only
  split_ifs <;> (try split) <;> simp only [Sess.markSendPending_cliView] <;> rfl

/-- The runs of an HTTP/1.1 client from `h2_sess_init`; a send call only while `strm_sending` is NULL
or listed (see `h2SessRecvV11_frees_sending_stream`); `done` collects the answered streams. -/
inductive CliReach (b : Build) (bufSize cap : Nat) : Sess → Link → List Strm → Prop
  | init (ssl : Bool) : CliReach b bufSize cap (Sess.init false ssl .v1_1) ⟨[], []⟩ []
  | request {s : Sess} {l : Link} {done : List Strm} (streamId : Int) (body : List UInt8) :
      CliReach b bufSize cap s l done → CliReach b bufSize cap (s.h2StrmInit streamId body) l done
  | recv {s : Sess} {l : Link} {done : List Strm} (hooks : Hooks) (junk : Nat → UInt8)
      (memRecv : Codec → List UInt8 → Int × Codec) (rd : RdRet) :
      CliReach b bufSize cap s l done →
      CliReach b bufSize cap (h2SessRecv hooks junk memRecv rd s).2.1 l
        (done ++ (h2SessRecv hooks junk memRecv rd s).2.2)
  | send {s s' : Sess} {l l' : Link} {done fr' : List Strm} {r : Int} (net : Net) :
      CliReach b bufSize cap s l done → (∀ x, s.strmSending = some x → x ∈ s.refs) →
      h2SessSendOnceV11 b bufSize cap net s l = (r, s', l', fr') → CliReach b bufSize cap s' l' done
  | terminate {s : Sess} {l : Link} {done : List Strm} (ngTerm : Codec → Option Codec) (waitRsp : Bool) :
      CliReach b bufSize cap s l done →
      CliReach b bufSize cap (h2SessTerminate b ngTerm s waitRsp).2 l done

theorem CliReach.inv (h : CliReach b bufSize cap s l done) : CliInv s l done := by
  induction h with
  | init ssl =>
    exact ⟨rfl, rfl, rfl, fun _ h => Option.noConfusion h, rfl, (fun _ h => nomatch h),
      ⟨(fun _ h => nomatch h), .nil, .nil, (fun _ h => nomatch h)⟩, fun _ h => Option.noConfusion h⟩
  | request streamId body _ ih => exact ih.strmInit streamId body
  | recv hooks junk memRecv rd _ ih => exact ih.h2SessRecv hooks junk memRecv rd
  | send net _ hg h ih => exact ih.sendOnce hg h
  | terminate ngTerm waitRsp _ ih => exact ih.of_cliView (h2SessTerminate_cliView ngTerm waitRsp)

/-- The send order along every client run, receives included. -/
theorem cliReach_stream_order (h : CliReach b bufSize cap s l done) :
    l.wire ++ (s.wrBuf.mergeData ++ s.wrBuf.memSendBytes) = takenBytes (done ++ s.strms) ∧
      (∀ st ∈ done ++ s.strms, st.Whole) ∧ ((done ++ s.strms).map Strm.ref).Nodup ∧
      s.strms.Pairwise (TakenAfter false) := by
  have hi := h.inv
  refine ⟨hi.conserved, fun st hst => ?_, ?_, hi.live.ordered⟩
  · rcases List.mem_append.mp hst with h | h
    exacts [hi.whole st h, hi.live.whole st h]
  · rw [List.map_append, ← Sess.refs, hi.order]
    exact List.nodup_range _

end H2Sim
