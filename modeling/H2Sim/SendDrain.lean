import H2Sim.ServerSess
import H2Sim.SendTerm

/-! `h2_sess_send` through a transport that takes every write whole. The do-while (lines
308-322) stops only at a round that writes nothing (or, on HTTP/2, at a codec error or the
EPOLL build's end of the codec), and with such a transport a round writes nothing only when
its pull loop found nothing to pull: on an HTTP/1.1 server the walk stopped at a stream
without a response, on HTTP/2 the codec had no more output. So the call leaves nothing behind
that it could have sent. -/
namespace H2Sim

variable {b : Build} {bufSize cap : Nat} {net : Net} {s : Sess} {l : Link}

/-- A transport that takes every write whole. -/
def Net.TakesAll (net : Net) : Prop := ∀ n, (net.merge n).ret = n ∧ (net.tail n).ret = n

theorem classify_takesAll (tls : Bool) (intrOk : Bool) (err : Int) {w : WrRet} {n : Nat} (hn : 0 < n)
    (hw : w.ret = n) : classify tls n intrOk err w = .sent n := by
  have h : (0 : Int) < n := Int.ofNat_pos.mpr hn
  unfold classify
  cases tls <;> simp [hw, h]

theorem flushMerge_takesAll (b : Build) (s : Sess) (l : Link) (hn : net.TakesAll) :
    (flushMerge b net s l).early = none ∧ (flushMerge b net s l).total = s.wrBuf.mergeSize := by
  unfold flushMerge
  dsimp only
  split_ifs with h0
  · exact ⟨rfl, h0.symm⟩
  · rw [classify_takesAll _ _ _ (Nat.pos_of_ne_zero h0) (hn _).1]
    dsimp only
    rw [if_neg (lt_irrefl _)]
    exact ⟨rfl, rfl⟩

theorem flushTail_takesAll (b : Build) (t : Nat) (s : Sess) (l : Link) (hn : net.TakesAll) :
    (flushTail b net t s l).early = none ∧ (flushTail b net t s l).total = t + s.wrBuf.memSendSize := by
  unfold flushTail
  dsimp only
  split_ifs with h0
  · exact ⟨rfl, by rw [h0]; rfl⟩
  · rw [classify_takesAll _ _ _ (Nat.pos_of_ne_zero h0) (hn _).2]
    dsimp only
    rw [if_neg (lt_irrefl _)]
    exact ⟨rfl, rfl⟩

/-- Through a transport taking every write whole, a flush writes both buffers in full. -/
theorem flush_takesAll (b : Build) (s : Sess) (l : Link) (hn : net.TakesAll) :
    (flush b net s l).early = none ∧
      (flush b net s l).total = s.wrBuf.mergeSize + s.wrBuf.memSendSize ∧
      (flush b net s l).sess.wrBuf.mergeData = [] ∧ (flush b net s l).sess.wrBuf.memSendBytes = [] := by
  obtain ⟨h₁, h₂⟩ := flushMerge_takesAll b s l hn
  obtain ⟨m₁, -, -⟩ := flushMerge_through b net s l h₁
  obtain ⟨t₁, t₂⟩ := flushTail_takesAll b (flushMerge b net s l).total
    (flushMerge b net s l).sess (flushMerge b net s l).link hn
  obtain ⟨u₁, u₂⟩ := flushTail_through b net _ _ _ t₁
  rw [flush_of_none h₁]
  refine ⟨t₁, ?_, u₁.trans m₁, u₂⟩
  rw [t₂, h₂, WrBuf.memSendSize, WrBuf.memSendSize, (flushMerge_through b net s l h₁).2.1]

/-- A server walk offering no bytes stops at an unanswered stream or the list's end. -/
theorem serverWalk_head_unset : ∀ L : List Strm, (serverWalk L).2.2.2 = [] →
    ∀ st ∈ (serverWalk L).2.1.head?, st.responseSet = false
  | [], _ => by simp [serverWalk]
  | st :: rest, h => by
    unfold serverWalk at h ⊢
    split_ifs at h ⊢ with hr hd
    · exact serverWalk_head_unset rest h
    · exact absurd (List.drop_eq_nil_iff.mp h) hd
    · simpa using hr

theorem walkOnce_of_server (hsv : s.isServer = true) :
    (walkOnce s).1.strms = (serverWalk s.strms).2.1 ∧ (walkOnce s).2.2 = (serverWalk s.strms).2.2 := by
  simp [walkOnce, hsv]

/-- The pull loop only appends to the merge buffer. -/
theorem pullV11_merge_extends (bufSize cap : Nat) :
    ∀ (fuel : Nat) (s : Sess), s.wrBuf.mergeData <+: (pullV11 bufSize cap fuel s).1.wrBuf.mergeData
  | 0, _ => List.prefix_refl _
  | fuel + 1, s => by
    unfold pullV11
    dsimp only
    split_ifs
    · simp only [walkOnce_wrBuf, List.prefix_refl]
    · refine List.IsPrefix.trans ?_ (pullV11_merge_extends bufSize cap fuel _)
      simp only [walkOnce_wrBuf, List.prefix_append]
    · simp only [walkOnce_wrBuf, List.prefix_refl]
    · exact List.prefix_refl _

/-- A pull that leaves the write buffer empty is one walk that found no bytes. -/
theorem pullV11_empty (cap : Nat) (hb : 0 < bufSize) (fuel : Nat)
    (hm : (pullV11 bufSize cap (fuel + 1) s).1.wrBuf.mergeData = [])
    (ht : (pullV11 bufSize cap (fuel + 1) s).1.wrBuf.memSendBytes = []) :
    pullV11 bufSize cap (fuel + 1) s = ((walkOnce s).1, (walkOnce s).2.1) ∧ (walkOnce s).2.2.2 = [] := by
  unfold pullV11 at hm ht ⊢
  dsimp only at hm ht ⊢
  split_ifs at hm ht ⊢ with hg hz hfit
  · exact ⟨rfl, List.length_eq_zero.mp hz⟩
  · have hq := pullV11_merge_extends bufSize cap fuel { (walkOnce s).1 with wrBuf := { (walkOnce s).1.wrBuf with
      mergeData := (walkOnce s).1.wrBuf.mergeData ++ (walkOnce s).2.2.2 } }
    rw [hm] at hq
    have he : (walkOnce s).1.wrBuf.mergeData ++ (walkOnce s).2.2.2 = [] := List.prefix_nil.mp hq
    exact absurd (List.length_eq_zero.mpr (List.append_eq_nil.mp he).2) hz
  · exact absurd (List.length_eq_zero.mpr ht) hz
  · dsimp only at hm ht
    exact absurd ⟨by simp [ht], by simp [hm, hb]⟩ hg

/-- A server pull leaving the buffer empty stops at an unanswered stream or the list's end. -/
theorem pullV11_empty_head (cap : Nat) (hb : 0 < bufSize) (fuel : Nat) (hsv : s.isServer = true)
    (hm : (pullV11 bufSize cap (fuel + 1) s).1.wrBuf.mergeData = [])
    (ht : (pullV11 bufSize cap (fuel + 1) s).1.wrBuf.memSendBytes = []) :
    ∀ st ∈ (pullV11 bufSize cap (fuel + 1) s).1.strms.head?, st.responseSet = false := by
  obtain ⟨hw₁, hw₂⟩ := walkOnce_of_server hsv
  obtain ⟨e, hd⟩ := pullV11_empty cap hb fuel hm ht
  rw [e, hw₁]
  exact serverWalk_head_unset _ (by rw [← hw₂]; exact hd)

/-- An HTTP/1.1 round writing nothing returns 0 with an empty buffer and interest cleared. -/
theorem sendOnce_v11_stop (hv : s.httpVer ≠ .v2) (hn : net.TakesAll) (h0 : ¬ 0 < (sendOnce b bufSize cap net s l).1) :
    (pullV11 bufSize cap (s.strms.length + 1) s).1.wrBuf.mergeData = [] ∧
      (pullV11 bufSize cap (s.strms.length + 1) s).1.wrBuf.memSendBytes = [] ∧
      (sendOnce b bufSize cap net s l).1 = 0 ∧
      (sendOnce b bufSize cap net s l).2.1.wrBuf.mergeData = [] ∧
      (sendOnce b bufSize cap net s l).2.1.wrBuf.memSendBytes = [] ∧
      (sendOnce b bufSize cap net s l).2.1.sendPending = false ∧
      (sendOnce b bufSize cap net s l).2.1.strms = (pullV11 bufSize cap (s.strms.length + 1) s).1.strms ∧
      (sendOnce b bufSize cap net s l).2.1.strmSending =
        (pullV11 bufSize cap (s.strms.length + 1) s).1.strmSending := by
  unfold sendOnce at h0 ⊢
  rw [if_neg hv] at h0 ⊢
  unfold h2SessSendOnceV11 at h0 ⊢
  dsimp only at h0 ⊢
  generalize pullV11 bufSize cap (s.strms.length + 1) s = p at h0 ⊢
  obtain ⟨hE, hT, hM, hS⟩ := flush_takesAll b p.1 l hn
  have hf := flush_frame b net p.1 l
  rw [hE] at h0 ⊢
  dsimp only at h0 ⊢
  have hz : (flush b net p.1 l).total = 0 := by omega
  rw [if_pos hz]
  have hp : p.1.wrBuf.mergeData = [] ∧ p.1.wrBuf.memSendBytes = [] := by
    rw [hT] at hz
    simpa only [WrBuf.mergeSize, WrBuf.memSendSize, Nat.add_eq_zero, List.length_eq_zero] using hz
  refine ⟨hp.1, hp.2, by rw [hz]; rfl, by simpa using hM, by simpa using hS, Sess.clearSendPending_sendPending _ _,
    (Sess.clearSendPending_strms ..).trans hf.strms, ?_⟩
  unfold Sess.clearSendPending
  split <;> exact hf.strmSending

/-- A server round writing nothing through a transport taking all leaves nothing behind. -/
theorem sendOnce_server_stop (hsv : s.isServer = true) (hv : s.httpVer ≠ .v2) (hb : 0 < bufSize)
    (hn : net.TakesAll) (h0 : ¬ 0 < (sendOnce b bufSize cap net s l).1) :
    (sendOnce b bufSize cap net s l).1 = 0 ∧
      (sendOnce b bufSize cap net s l).2.1.wrBuf.mergeData = [] ∧
      (sendOnce b bufSize cap net s l).2.1.wrBuf.memSendBytes = [] ∧
      (sendOnce b bufSize cap net s l).2.1.sendPending = false ∧
      ∀ st ∈ (sendOnce b bufSize cap net s l).2.1.strms.head?, st.responseSet = false := by
  obtain ⟨hm, ht, h₁, h₂, h₃, h₄, h₅, -⟩ := sendOnce_v11_stop hv hn h0
  refine ⟨h₁, h₂, h₃, h₄, ?_⟩
  rw [h₅]
  exact pullV11_empty_head cap hb _ hsv hm ht

theorem Sess.clearSendPending_role (b : Build) (s : Sess) :
    (s.clearSendPending b).isServer = s.isServer ∧ (s.clearSendPending b).httpVer = s.httpVer := by
  unfold Sess.clearSendPending; split <;> exact ⟨rfl, rfl⟩

/-- An HTTP/1.1 round keeps the role and the protocol version. -/
theorem sendOnce_v11_role (hv : s.httpVer ≠ .v2) :
    (sendOnce b bufSize cap net s l).2.1.isServer = s.isServer ∧
      (sendOnce b bufSize cap net s l).2.1.httpVer = s.httpVer := by
  have h₁ := congrArg Prod.fst (pullV11_history Strm.ref (fun _ => rfl) bufSize cap (s.strms.length + 1) s).2
  have h₂ := pullV11_httpVer bufSize cap (s.strms.length + 1) s
  unfold sendOnce h2SessSendOnceV11
  rw [if_neg hv]
  dsimp only
  generalize pullV11 bufSize cap (s.strms.length + 1) s = p at h₁ h₂
  have hf := flush_frame b net p.1 l
  have e : (flush b net p.1 l).sess.isServer = p.1.isServer ∧ (flush b net p.1 l).sess.httpVer = p.1.httpVer := by
    rw [hf]; exact ⟨rfl, rfl⟩
  split
  · exact ⟨e.1.trans h₁, e.2.trans h₂⟩
  · split_ifs
    · exact ⟨(Sess.clearSendPending_role b _).1.trans (e.1.trans h₁),
        (Sess.clearSendPending_role b _).2.trans (e.2.trans h₂)⟩
    · exact ⟨e.1.trans h₁, e.2.trans h₂⟩

/-- A finished send loop on a server through a transport taking all leaves nothing behind. -/
theorem SendLoop.server_drained {nets : Nat → Net} {k : Nat} {res : Int × Sess × Link}
    (h : SendLoop b bufSize cap nets k s l res) (hsv : s.isServer = true) (hv : s.httpVer ≠ .v2)
    (hb : 0 < bufSize) (hn : ∀ k, (nets k).TakesAll) :
    res.1 = 0 ∧ res.2.1.wrBuf.mergeData = [] ∧ res.2.1.wrBuf.memSendBytes = [] ∧
      res.2.1.sendPending = false ∧ ∀ st ∈ res.2.1.strms.head?, st.responseSet = false := by
  induction h with
  | exit h0 => exact sendOnce_server_stop hsv hv hb (hn _) h0
  | next _ _ ih =>
    obtain ⟨e₁, e₂⟩ := sendOnce_v11_role hv
    exact ih (e₁.trans hsv) (e₂ ▸ hv)

/-- `h2_sess_send` on an HTTP/1.1 server through a transport that takes all returns 0 with nothing
left it could send: every answered prefix of the requests is sent and freed. -/
theorem h2SessSend_server_drains (nets : Nat → Net) (k : Nat) (hsv : s.isServer = true)
    (hv : s.httpVer ≠ .v2) (hb : 0 < bufSize) (hn : ∀ k, (nets k).TakesAll) :
    (h2SessSend b bufSize cap nets (s.sendBacklog + 1) k s l).1 = 0 ∧
      (h2SessSend b bufSize cap nets (s.sendBacklog + 1) k s l).2.1.wrBuf.mergeData = [] ∧
      (h2SessSend b bufSize cap nets (s.sendBacklog + 1) k s l).2.1.wrBuf.memSendBytes = [] ∧
      (h2SessSend b bufSize cap nets (s.sendBacklog + 1) k s l).2.1.sendPending = false ∧
      ∀ st ∈ (h2SessSend b bufSize cap nets (s.sendBacklog + 1) k s l).2.1.strms.head?,
        st.responseSet = false :=
  (h2SessSend_loop b bufSize cap nets _ k s l (Nat.lt_succ_self _)).server_drained hsv hv hb hn

/-- A server with one answered request sends it, frees the stream and returns 0. -/
theorem h2SessSend_server_drains_one :
    let s : Sess := { Sess.init true false .v1_1 with
      strms := [⟨0, 1, .empty, true, ⟨bytes "A", 0⟩⟩], strmNext := 1, reqCnt := 1 }
    let nets : Nat → Net := fun _ => ⟨fun n => ⟨n, .other, .other⟩, fun n => ⟨n, .other, .other⟩⟩
    (h2SessSend .poll 16 16 nets (s.sendBacklog + 1) 0 s ⟨[], []⟩).2.2.wire = bytes "A" ∧
      (s.isServer = true ∧ s.httpVer ≠ .v2 ∧ 0 < 16 ∧ ∀ k, (nets k).TakesAll) ∧
      (h2SessSend .poll 16 16 nets (s.sendBacklog + 1) 0 s ⟨[], []⟩).1 = 0 ∧
      (h2SessSend .poll 16 16 nets (s.sendBacklog + 1) 0 s ⟨[], []⟩).2.1.wrBuf.mergeData = [] ∧
      (h2SessSend .poll 16 16 nets (s.sendBacklog + 1) 0 s ⟨[], []⟩).2.1.wrBuf.memSendBytes = [] ∧
      (h2SessSend .poll 16 16 nets (s.sendBacklog + 1) 0 s ⟨[], []⟩).2.1.sendPending = false ∧
      ∀ st ∈ (h2SessSend .poll 16 16 nets (s.sendBacklog + 1) 0 s ⟨[], []⟩).2.1.strms.head?,
        st.responseSet = false := by
  intro s nets
  have hn : ∀ k, (nets k).TakesAll := fun _ _ => ⟨rfl, rfl⟩
  exact ⟨by decide, ⟨rfl, by decide, by decide, hn⟩,
    h2SessSend_server_drains nets 0 rfl (by decide) (by decide) hn⟩

/-- A client pull leaving the buffer empty has taken every request whole. -/
theorem pullV11_empty_client (cap : Nat) (hb : 0 < bufSize) (fuel : Nat) {fr : List Strm}
    (hc : s.isServer = false) (hs : Shape s fr)
    (hm : (pullV11 bufSize cap (fuel + 1) s).1.wrBuf.mergeData = [])
    (ht : (pullV11 bufSize cap (fuel + 1) s).1.wrBuf.memSendBytes = []) :
    (pullV11 bufSize cap (fuel + 1) s).1.strmSending = none ∧
      ∀ st ∈ (pullV11 bufSize cap (fuel + 1) s).1.strms, st.Drained := by
  obtain ⟨P, eP, hP⟩ := sendingFrom_split hs hc
  obtain ⟨e, hd⟩ := pullV11_empty cap hb fuel hm ht
  rw [e]
  rcases clientWalk_cases s.sendingFrom with ⟨hw, hA⟩ | ⟨A, st, B, -, -, hd', hw⟩
  · have e : walkOnce s = ({ s with strmSending := none }, [], (.null, [])) := by
      simp [walkOnce, hc, hw]
    rw [e]
    refine ⟨rfl, fun x hx => ?_⟩
    rw [show ({ s with strmSending := none } : Sess).strms = P ++ s.sendingFrom from eP,
      List.mem_append] at hx
    exact hx.elim (hP x) (hA x)
  · have e : (walkOnce s).2.2.2 = st.slice.2 := by simp [walkOnce, hc, hw]
    rw [e] at hd
    exact absurd (List.drop_eq_nil_iff.mp hd) hd'

/-- The last round on a client through a transport taking all leaves every request handed over. -/
theorem sendOnce_client_stop {fr : List Strm} (hi : V11Inv s l fr) (hc : s.isServer = false)
    (hv : s.httpVer ≠ .v2) (hb : 0 < bufSize) (hn : net.TakesAll)
    (h0 : ¬ 0 < (sendOnce b bufSize cap net s l).1) :
    (sendOnce b bufSize cap net s l).1 = 0 ∧
      (sendOnce b bufSize cap net s l).2.1.wrBuf.mergeData = [] ∧
      (sendOnce b bufSize cap net s l).2.1.wrBuf.memSendBytes = [] ∧
      (sendOnce b bufSize cap net s l).2.1.sendPending = false ∧
      (sendOnce b bufSize cap net s l).2.1.strmSending = none ∧
      ∀ st ∈ (sendOnce b bufSize cap net s l).2.1.strms, st.Drained := by
  obtain ⟨hm, ht, h₁, h₂, h₃, h₄, h₅, h₆⟩ := sendOnce_v11_stop hv hn h0
  obtain ⟨e₁, e₂⟩ := pullV11_empty_client cap hb _ hc hi.shape hm ht
  exact ⟨h₁, h₂, h₃, h₄, h₆.trans e₁, h₅ ▸ e₂⟩

/-- `h2_sess_send` on a reachable HTTP/1.1 client through a transport that takes all returns 0 with
every request handed over whole and `strm_sending` NULL. -/
theorem h2SessSend_client_drains {fr : List Strm} (nets : Nat → Net) (k : Nat)
    (hr : V11Reach b bufSize cap s l fr) (hc : s.isServer = false) (hv : s.httpVer ≠ .v2)
    (hb : 0 < bufSize) (hn : ∀ k, (nets k).TakesAll) :
    (h2SessSend b bufSize cap nets (s.sendBacklog + 1) k s l).1 = 0 ∧
      (h2SessSend b bufSize cap nets (s.sendBacklog + 1) k s l).2.1.wrBuf.mergeData = [] ∧
      (h2SessSend b bufSize cap nets (s.sendBacklog + 1) k s l).2.1.wrBuf.memSendBytes = [] ∧
      (h2SessSend b bufSize cap nets (s.sendBacklog + 1) k s l).2.1.sendPending = false ∧
      (h2SessSend b bufSize cap nets (s.sendBacklog + 1) k s l).2.1.strmSending = none ∧
      ∀ st ∈ (h2SessSend b bufSize cap nets (s.sendBacklog + 1) k s l).2.1.strms, st.Drained := by
  have h := h2SessSend_loop b bufSize cap nets (s.sendBacklog + 1) k s l (Nat.lt_succ_self _)
  have hi := v11Inv_reachable hr
  clear hr
  generalize h2SessSend b bufSize cap nets (s.sendBacklog + 1) k s l = res at h ⊢
  induction h generalizing fr with
  | exit h0 => exact sendOnce_client_stop hi hc hv hb (hn _) h0
  | @next k s l res _ _ ih =>
    obtain ⟨e₁, e₂⟩ := @sendOnce_v11_role b bufSize cap (nets k) s l hv
    have hs : (sendOnce b bufSize cap (nets k) s l).2 = ((h2SessSendOnceV11 b bufSize cap (nets k) s l).2.1,
        (h2SessSendOnceV11 b bufSize cap (nets k) s l).2.2.1) := by
      unfold sendOnce; rw [if_neg hv]
    generalize ho : h2SessSendOnceV11 b bufSize cap (nets k) s l = o at hs
    obtain ⟨r, s', l', fr'⟩ := o
    refine @ih (fr ++ fr') (e₁.trans hc) (by rwa [e₂]) ?_
    rw [congrArg Prod.fst hs, congrArg Prod.snd hs]
    exact h2SessSendOnceV11_inv hi ho

/-- A 6-byte request through a 4-byte merge buffer goes out as the tail span. -/
theorem h2SessSend_client_drains_tail :
    let s : Sess := (Sess.init false false .v1_1).h2StrmInit 1 [1, 2, 3, 4, 5, 6]
    let nets : Nat → Net := fun _ => ⟨fun n => ⟨n, .other, .other⟩, fun n => ⟨n, .other, .other⟩⟩
    (h2SessSend .poll 4 4 nets (s.sendBacklog + 1) 0 s ⟨[], []⟩).2.2.wire = [1, 2, 3, 4, 5, 6] ∧
      (V11Reach .poll 4 4 s ⟨[], []⟩ [] ∧ s.isServer = false ∧ s.httpVer ≠ .v2 ∧ 0 < 4 ∧
        ∀ k, (nets k).TakesAll) ∧
      (h2SessSend .poll 4 4 nets (s.sendBacklog + 1) 0 s ⟨[], []⟩).1 = 0 ∧
      (h2SessSend .poll 4 4 nets (s.sendBacklog + 1) 0 s ⟨[], []⟩).2.1.wrBuf.mergeData = [] ∧
      (h2SessSend .poll 4 4 nets (s.sendBacklog + 1) 0 s ⟨[], []⟩).2.1.wrBuf.memSendBytes = [] ∧
      (h2SessSend .poll 4 4 nets (s.sendBacklog + 1) 0 s ⟨[], []⟩).2.1.sendPending = false ∧
      (h2SessSend .poll 4 4 nets (s.sendBacklog + 1) 0 s ⟨[], []⟩).2.1.strmSending = none ∧
      ∀ st ∈ (h2SessSend .poll 4 4 nets (s.sendBacklog + 1) 0 s ⟨[], []⟩).2.1.strms, st.Drained := by
  intro s nets
  have hn : ∀ k, (nets k).TakesAll := fun _ _ => ⟨rfl, rfl⟩
  have hr : V11Reach .poll 4 4 s ⟨[], []⟩ [] := .strmInit 1 _ (.init rfl rfl rfl rfl)
  exact ⟨by decide, ⟨hr, rfl, by decide, by decide, hn⟩,
    h2SessSend_client_drains nets 0 hr rfl (by decide) (by decide) hn⟩

/-- The HTTP/2 pull loop only appends to the merge buffer. -/
theorem pullV2_merge_extends (bufSize cap : Nat) (q : List MemSend) :
    ∀ (wb : WrBuf) (out : List UInt8), wb.mergeData <+: (pullV2 bufSize cap wb q out).wb.mergeData := by
  induction q with
  | nil => intro wb out; unfold pullV2; split_ifs <;> exact List.prefix_refl _
  | cons m q ih =>
    intro wb out
    unfold pullV2
    split_ifs
    · cases m with
      | error => exact List.prefix_refl _
      | span sp =>
        dsimp only
        split_ifs
        · exact (List.prefix_append wb.mergeData sp.data).trans
            (ih { wb with mergeData := wb.mergeData ++ sp.data } (out ++ sp.data))
        · exact List.prefix_refl _
    · exact List.prefix_refl _

/-- A pull that stopped because the codec had nothing more leaves no pending output. -/
theorem pullV2_zero_pending (bufSize cap : Nat) (q : List MemSend) :
    ∀ (wb : WrBuf) (out : List UInt8), (pullV2 bufSize cap wb q out).how = .zero →
      (pullV2 bufSize cap wb q out).pending = [] := by
  induction q with
  | nil => intro wb out _; unfold pullV2; split_ifs <;> rfl
  | cons m q ih =>
    intro wb out h
    unfold pullV2 at h ⊢
    split_ifs at h ⊢
    cases m with
    | error => cases h
    | span sp =>
      dsimp only at h ⊢
      split_ifs at h ⊢
      exact ih _ _ h

/-- An HTTP/2 pull leaving the buffer empty without error found the codec's output empty. -/
theorem pullV2_empty_pending (cap : Nat) (hb : 0 < bufSize) (wb : WrBuf) (q : List MemSend) (out : List UInt8)
    (he : (pullV2 bufSize cap wb q out).how ≠ .error)
    (hm : (pullV2 bufSize cap wb q out).wb.mergeData = [])
    (ht : (pullV2 bufSize cap wb q out).wb.memSendBytes = []) :
    (pullV2 bufSize cap wb q out).pending = [] := by
  have hz : (pullV2 bufSize cap wb q out).how = .zero := by
    have hp := pullV2_merge_extends bufSize cap q wb out
    unfold pullV2 at he hm ht hp ⊢
    split_ifs at he hm ht hp ⊢ with hg
    · cases q with
      | nil => rfl
      | cons m q =>
        cases m with
        | error => exact absurd rfl he
        | span sp =>
          dsimp only at hm ht hp ⊢
          split_ifs at hm ht hp ⊢
          · have hq := pullV2_merge_extends bufSize cap q { wb with mergeData := wb.mergeData ++ sp.data }
              (out ++ sp.data)
            rw [hm] at hq
            exact absurd (List.append_eq_nil.mp (List.prefix_nil.mp hq)).2 sp.ne
          · exact absurd ht sp.ne
    · dsimp only at hm ht
      exact absurd ⟨by simp [ht], by simp [hm, hb]⟩ hg
  exact pullV2_zero_pending bufSize cap q wb out hz

theorem Sess.clearSendPending_httpVer (b : Build) (s : Sess) : (s.clearSendPending b).httpVer = s.httpVer :=
  (Sess.clearSendPending_role b s).2

/-- The last round on an HTTP/2 session through a transport taking all leaves nothing to send. -/
theorem sendOnce_v2_stop (hv : s.httpVer = .v2) (hb : 0 < bufSize) (hn : net.TakesAll)
    (h0 : ¬ 0 < (sendOnce b bufSize cap net s l).1) :
    ((sendOnce b bufSize cap net s l).1 = -1 ∧ (sendOnce b bufSize cap net s l).2.1.closeReason = .nghttp2Err) ∨
      ((sendOnce b bufSize cap net s l).2.1.ngSess.pending = [] ∧
        (sendOnce b bufSize cap net s l).2.1.wrBuf.mergeData = [] ∧
        (sendOnce b bufSize cap net s l).2.1.wrBuf.memSendBytes = [] ∧
        ((sendOnce b bufSize cap net s l).1 = 0 ∧ (sendOnce b bufSize cap net s l).2.1.sendPending = false ∨
          (sendOnce b bufSize cap net s l).1 = -6 ∧ b = .epoll ∧
            (sendOnce b bufSize cap net s l).2.1.closeReason = .nghttp2End)) := by
  have hpe := pullV2_empty_pending cap hb s.wrBuf s.ngSess.pending s.ngSess.handedOut
  have hpz := pullV2_zero_pending bufSize cap s.ngSess.pending s.wrBuf s.ngSess.handedOut
  unfold sendOnce at h0 ⊢
  rw [if_pos hv] at h0 ⊢
  unfold h2SessSendOnceV2 at h0 ⊢
  dsimp only at h0 ⊢
  generalize pullV2 bufSize cap s.wrBuf s.ngSess.pending s.ngSess.handedOut = p at hpe hpz h0 ⊢
  by_cases he : p.how = .error
  · rw [if_pos he]; exact .inl ⟨rfl, rfl⟩
  rw [if_neg he] at h0 ⊢
  obtain ⟨hE, hT, hM, hS⟩ := flush_takesAll b (s.withPulled p) l hn
  have hng : (flush b net (s.withPulled p) l).sess.ngSess.pending = p.pending :=
    congrArg Codec.pending (flush_frame b net (s.withPulled p) l).ngSess
  rw [hE] at h0 ⊢
  dsimp only at h0 ⊢
  by_cases hz : (flush b net (s.withPulled p) l).total = 0
  · have hw : p.wb.mergeData = [] ∧ p.wb.memSendBytes = [] := by
      rw [hT] at hz
      simpa only [WrBuf.mergeSize, WrBuf.memSendSize, Nat.add_eq_zero, List.length_eq_zero] using hz
    have hq : p.pending = [] := hpe he hw.1 hw.2
    rw [if_pos hz]
    split_ifs with h6
    · exact .inr ⟨by simpa [hng] using hq, by simpa using hM, by simpa using hS, .inr ⟨rfl, h6.1, rfl⟩⟩
    · exact .inr ⟨by simpa [hng] using hq, by simpa using hM, by simpa using hS,
        .inl ⟨by rw [hz]; rfl, Sess.clearSendPending_sendPending _ _⟩⟩
  · rw [if_neg hz] at h0 ⊢
    split_ifs at h0 ⊢ with h6
    · exact .inr ⟨by rw [hng]; exact hpz h6.2.1, hM, hS, .inr ⟨rfl, h6.1, rfl⟩⟩
    · exact absurd (by omega) h0

theorem h2SessSendOnceV2_httpVer : (h2SessSendOnceV2 b bufSize cap net s l).2.1.httpVer = s.httpVer := by
  generalize hp : pullV2 bufSize cap s.wrBuf s.ngSess.pending s.ngSess.handedOut = p
  have hf := flush_frame b net (s.withPulled p) l
  have e : (flush b net (s.withPulled p) l).sess.httpVer = s.httpVer := by rw [hf]; rfl
  rcases h2SessSendOnceV2_cases b bufSize net hp rfl with ⟨-, h⟩ | ⟨r, -, h⟩ | ⟨-, r, c, -, h⟩ <;> rw [h]
  · rfl
  · exact e
  · split_ifs
    · exact (Sess.clearSendPending_httpVer b _).trans e
    · exact e

/-- A finished send loop on an HTTP/2 session ends with a codec error or all output handed over. -/
theorem SendLoop.v2_drained {nets : Nat → Net} {k : Nat} {res : Int × Sess × Link}
    (h : SendLoop b bufSize cap nets k s l res) (hv : s.httpVer = .v2) (hb : 0 < bufSize)
    (hn : ∀ k, (nets k).TakesAll) :
    (res.1 = -1 ∧ res.2.1.closeReason = .nghttp2Err) ∨
      (res.2.1.ngSess.pending = [] ∧ res.2.1.wrBuf.mergeData = [] ∧ res.2.1.wrBuf.memSendBytes = [] ∧
        (res.1 = 0 ∧ res.2.1.sendPending = false ∨ res.1 = -6 ∧ b = .epoll ∧ res.2.1.closeReason = .nghttp2End)) := by
  induction h with
  | exit h0 => exact sendOnce_v2_stop hv hb (hn _) h0
  | next _ _ ih =>
    refine ih ?_
    unfold sendOnce
    rw [if_pos hv, h2SessSendOnceV2_httpVer, hv]

/-- `h2_sess_send` on an HTTP/2 session through a transport that takes all ends with a codec error
or all the codec's output handed over (or -6 at the codec's end, EPOLL build). -/
theorem h2SessSend_v2_drains (nets : Nat → Net) (k : Nat) (hv : s.httpVer = .v2) (hb : 0 < bufSize)
    (hn : ∀ k, (nets k).TakesAll) :
    ((h2SessSend b bufSize cap nets (s.sendBacklog + 1) k s l).1 = -1 ∧
        (h2SessSend b bufSize cap nets (s.sendBacklog + 1) k s l).2.1.closeReason = .nghttp2Err) ∨
      ((h2SessSend b bufSize cap nets (s.sendBacklog + 1) k s l).2.1.ngSess.pending = [] ∧
        (h2SessSend b bufSize cap nets (s.sendBacklog + 1) k s l).2.1.wrBuf.mergeData = [] ∧
        (h2SessSend b bufSize cap nets (s.sendBacklog + 1) k s l).2.1.wrBuf.memSendBytes = [] ∧
        ((h2SessSend b bufSize cap nets (s.sendBacklog + 1) k s l).1 = 0 ∧
            (h2SessSend b bufSize cap nets (s.sendBacklog + 1) k s l).2.1.sendPending = false ∨
          (h2SessSend b bufSize cap nets (s.sendBacklog + 1) k s l).1 = -6 ∧ b = .epoll ∧
            (h2SessSend b bufSize cap nets (s.sendBacklog + 1) k s l).2.1.closeReason = .nghttp2End)) :=
  (h2SessSend_loop b bufSize cap nets _ k s l (Nat.lt_succ_self _)).v2_drained hv hb hn

/-- A codec holding one 3-byte span: `h2_sess_send` hands it over and returns 0, nothing pending. -/
theorem h2SessSend_v2_drains_span :
    let s : Sess := { Sess.init false false .v2 with
      ngSess := ⟨[.span ⟨⟨.codecSpan 0, 0⟩, [1, 2, 3], by simp⟩], [], true, false⟩ }
    let nets : Nat → Net := fun _ => ⟨fun n => ⟨n, .other, .other⟩, fun n => ⟨n, .other, .other⟩⟩
    (h2SessSend .poll 16 16 nets (s.sendBacklog + 1) 0 s ⟨[], []⟩).2.2.wire = [1, 2, 3] ∧
      (s.httpVer = .v2 ∧ 0 < 16 ∧ ∀ k, (nets k).TakesAll) ∧
      (((h2SessSend .poll 16 16 nets (s.sendBacklog + 1) 0 s ⟨[], []⟩).1 = -1 ∧
          (h2SessSend .poll 16 16 nets (s.sendBacklog + 1) 0 s ⟨[], []⟩).2.1.closeReason = .nghttp2Err) ∨
        ((h2SessSend .poll 16 16 nets (s.sendBacklog + 1) 0 s ⟨[], []⟩).2.1.ngSess.pending = [] ∧
          (h2SessSend .poll 16 16 nets (s.sendBacklog + 1) 0 s ⟨[], []⟩).2.1.wrBuf.mergeData = [] ∧
          (h2SessSend .poll 16 16 nets (s.sendBacklog + 1) 0 s ⟨[], []⟩).2.1.wrBuf.memSendBytes = [] ∧
          ((h2SessSend .poll 16 16 nets (s.sendBacklog + 1) 0 s ⟨[], []⟩).1 = 0 ∧
              (h2SessSend .poll 16 16 nets (s.sendBacklog + 1) 0 s ⟨[], []⟩).2.1.sendPending = false ∨
            (h2SessSend .poll 16 16 nets (s.sendBacklog + 1) 0 s ⟨[], []⟩).1 = -6 ∧ Build.poll = .epoll ∧
              (h2SessSend .poll 16 16 nets (s.sendBacklog + 1) 0 s ⟨[], []⟩).2.1.closeReason = .nghttp2End))) := by
  intro s nets
  have hn : ∀ k, (nets k).TakesAll := fun _ _ => ⟨rfl, rfl⟩
  exact ⟨by decide, ⟨rfl, by decide, hn⟩, h2SessSend_v2_drains nets 0 rfl (by decide) hn⟩

end H2Sim
