import H2Sim.ServerOnce

/-! `h2_sess_recv_v1_1` on an HTTP/1.1 server, call after call: its parse loop runs the one-call
step until a call waits or every byte is read, and a run over any chunking of pipelined
well-formed requests hands each of them to the request callback, in order. -/
namespace H2Sim

variable {s : Sess} {rs : List Req} {ssl : Bool} {F d : List UInt8} {hooks : Hooks} {ph : Ph}

/-- The stream ids and messages a server should hand to its request callback for the
requests `D`, the first of them being its `i`-th (from 0). -/
def expected (ssl : Bool) (i : Nat) (D : List Req) : List (Int × Msg) :=
  (D.enumFrom i).map fun p => (cInt (p.1 * 2 + 1), p.2.msg ssl)

@[simp] theorem expected_nil (ssl : Bool) (i : Nat) : expected ssl i [] = [] := rfl

theorem expected_cons (ssl : Bool) (i : Nat) (r : Req) (D : List Req) :
    expected ssl i (r :: D) = (cInt (i * 2 + 1), r.msg ssl) :: expected ssl (i + 1) D := rfl

theorem expected_append (ssl : Bool) (i : Nat) (D D' : List Req) :
    expected ssl i (D ++ D') = expected ssl i D ++ expected ssl (i + D.length) D' := by
  simp [expected, List.enumFrom_append]

/-- The parse loop hands the callback the completed requests `D` in order. -/
theorem recvLoop_srv (hk : ∀ st, 0 ≤ hooks.onRequest st) (fuel : Nat) (hok : SrvOk ssl s)
    (hwf : ∀ r ∈ rs, r.Wf ∧ r.body.length < 2 ^ 31) (hat : AtPh ssl s ph rs) (hne : s.unread ≠ [])
    (hU : s.unread ++ F = ph.rem rs) (hfuel : s.unread.length < fuel) :
    let o := recvLoop hooks fuel s
    0 ≤ o.1 ∧ ∃ D rs' ph', rs = D ++ rs' ∧
      o.2.2.map (fun st => (st.streamId, st.rmsg)) = expected ssl s.reqCnt D ∧ SrvOk ssl o.2.1 ∧
      AtPh ssl o.2.1 ph' rs' ∧ o.2.1.reqCnt = s.reqCnt + D.length ∧ o.2.1.unread ++ F = ph'.rem rs' ∧
      ((o.2.1.unread = [] ∧ ph' = .idle) ∨ F ≠ []) := by
  induction fuel generalizing s ph rs with
  | zero => exact absurd hfuel (Nat.not_lt_zero _)
  | succ fuel ih =>
    simp only [recvLoop]
    rcases onceOut hok hwf hat hne hU hk with
      ⟨h1, r, rs', rfl, hout, hok₁, hat₁, hcnt, hU₁, hlen⟩ | ⟨h0, hnil, hok₁, hcnt, hF, ph', hat₁, hU₁⟩
    · by_cases hu : (h2SessRecvHdlOnceV11 hooks s).2.1.unread = []
      · rw [if_neg fun h => h.2 (.inl ((unread_eq_nil hok₁.buf).mp hu))]
        exact ⟨by omega, [r], rs', .idle, rfl, by rw [hout]; rfl, hok₁, hat₁, hcnt, hU₁, .inl ⟨hu, rfl⟩⟩
      · rw [if_pos ⟨h1, by rw [hok₁.live, ← unread_eq_nil hok₁.buf]; simpa using hu⟩]
        obtain ⟨h1', D, rs'', ph'', rfl, hout', hok', hat', hcnt', hU', hend⟩ :=
          ih hok₁ (fun r' hr' => hwf r' (List.mem_cons_of_mem _ hr')) hat₁ hu hU₁ (by omega)
        refine ⟨h1', r :: D, rs'', ph'', rfl, ?_, hok', hat', by rw [hcnt', hcnt, List.length_cons]; omega, hU', hend⟩
        rw [List.map_append, hout, hout', hcnt, expected_cons]; rfl
    · rw [if_neg fun h => by rw [h0] at h; exact absurd h.1 (by decide)]
      exact ⟨by omega, [], rs, ph', rfl, by rw [hnil]; rfl, hok₁, hat₁, by simp [hcnt], hU₁, .inr hF⟩

/-- One call of `h2_sess_recv_v1_1` with a nonempty chunk returns its length and parses it. -/
theorem h2SessRecvV11_srv (hk : ∀ st, 0 ≤ hooks.onRequest st) (junk : Nat → UInt8) (hok : SrvOk ssl s)
    (hwf : ∀ r ∈ rs, r.Wf ∧ r.body.length < 2 ^ 31) (hat : AtPh ssl s ph rs) (hd : d ≠ [])
    (hb : s.received + d.length < 2 ^ 31) (hU : s.unread ++ d ++ F = ph.rem rs) :
    let o := h2SessRecvV11 hooks junk s d
    o.1 = d.length ∧ ∃ D rs' ph', rs = D ++ rs' ∧
      o.2.2.map (fun st => (st.streamId, st.rmsg)) = expected ssl s.reqCnt D ∧ SrvOk ssl o.2.1 ∧
      AtPh ssl o.2.1 ph' rs' ∧ o.2.1.reqCnt = s.reqCnt + D.length ∧ o.2.1.unread ++ F = ph'.rem rs' ∧
      ((o.2.1.unread = [] ∧ ph' = .idle) ∨ F ≠ []) := by
  obtain ⟨hb₁, hu₁⟩ := appendRdata_unread (d := d) hok.buf junk (by unfold Sess.received at hb; omega)
  have hf₁ := appendRdata_frame s junk d
  obtain ⟨hge, D, rs', ph', hrs, hout, hok₂, hat₂, hcnt, hU₂, hend⟩ :=
    recvLoop_srv hk ((s.appendRdata junk d).unread.length + 1) (hok.frame hf₁ hb₁) hwf (hat.frame hf₁)
      (by rw [hu₁]; simp [hd]) (by rw [hu₁, hU]) (Nat.lt_succ_self _)
  have hf₂ := releaseRdata_frame (recvLoop hooks ((s.appendRdata junk d).unread.length + 1) (s.appendRdata junk d)).2.1
  obtain ⟨hb₃, hu₃⟩ := releaseRdata_unread hok₂.buf
  simp only [h2SessRecvV11, ← length_unread]
  rw [if_neg (Int.not_lt.mpr hge)]
  refine ⟨rfl, D, rs', ph', hrs, by rw [hout, hf₁.reqCnt], hok₂.frame hf₂ hb₃, hat₂.frame hf₂,
    by rw [hf₂.reqCnt, hcnt, hf₁.reqCnt], by rw [hu₃, hU₂], by rw [hu₃]; exact hend⟩

/-- Chunks fed in order hand every complete request to the callback, and no call fails. -/
theorem recvChunks_srv (hk : ∀ st, 0 ≤ hooks.onRequest st) (junk : Nat → Nat → UInt8)
    (cs : List (List UInt8)) (hc : ∀ d ∈ cs, d ≠ []) (k : Nat) (hok : SrvOk ssl s)
    (hwf : ∀ r ∈ rs, r.Wf ∧ r.body.length < 2 ^ 31) (hat : AtPh ssl s ph rs)
    (hb : s.received + cs.flatten.length < 2 ^ 31)
    (hU : s.unread ++ cs.flatten = ph.rem rs) (hend : (s.unread = [] ∧ ph = .idle) ∨ cs.flatten ≠ []) :
    let o := recvChunks hooks junk k s cs
    o.1 = false ∧ o.2.2.map (fun st => (st.streamId, st.rmsg)) = expected ssl s.reqCnt rs ∧
      o.2.1.reqCnt = s.reqCnt + rs.length := by
  induction cs generalizing k s ph rs with
  | nil =>
    obtain ⟨hu, rfl⟩ : s.unread = [] ∧ ph = .idle := hend.resolve_right (by simp)
    have hrs : rs = [] := by
      rw [hu, List.nil_append] at hU
      cases rs with
      | nil => rfl
      | cons r rs =>
        have := congrArg List.length (List.flatten_eq_nil_iff.mp hU.symm r.ser (by simp))
        have := r.two_le_length_ser
        simp only [List.length_nil] at *; omega
    subst hrs
    exact ⟨rfl, rfl, rfl⟩
  | cons d cs ih =>
    rw [List.flatten_cons, List.length_append] at hb
    obtain ⟨h1, D, rs', ph', rfl, hout, hok₁, hat₁, hcnt, hU₁, hend₁⟩ :=
      h2SessRecvV11_srv hk (junk k) hok hwf hat (hc d (by simp)) (F := cs.flatten) (by omega)
        (by rw [List.append_assoc, ← List.flatten_cons, hU])
    obtain ⟨h1', hout', hcnt'⟩ := ih (fun d' hd' => hc d' (List.mem_cons_of_mem _ hd')) (k + 1) hok₁
      (fun r hr => hwf r (List.mem_append_right _ hr)) hat₁
      (by rw [h2SessRecvV11_received hok.buf]; omega) hU₁ hend₁
    simp only [recvChunks]
    rw [if_neg (by rw [h1]; omega)]
    refine ⟨h1', by rw [List.map_append, hout, hout', hcnt, expected_append], by rw [hcnt', hcnt]; simp; omega⟩

/-- Each request is part of the bytes of the run, and each is at least two bytes long. -/
theorem length_ser_le {r : Req} (h : r ∈ rs) : r.ser.length ≤ ((rs.map Req.ser).flatten).length := by
  induction rs with
  | nil => cases h
  | cons x xs ih =>
    simp only [List.map_cons, List.flatten_cons, List.length_append]
    rcases List.mem_cons.mp h with rfl | h
    · omega
    · have := ih h; omega

theorem two_mul_length_le (rs : List Req) : 2 * rs.length ≤ ((rs.map Req.ser).flatten).length := by
  induction rs with
  | nil => rfl
  | cons x xs ih =>
    simp only [List.map_cons, List.flatten_cons, List.length_append, List.length_cons]
    have := x.two_le_length_ser; omega

/-- A call that does not fail hands its streams over before the rest of the run. -/
theorem recvChunks_cons_ok {hooks : Hooks} {junk : Nat → Nat → UInt8} {k : Nat} {s : Sess} {d : List UInt8}
    {ds : List (List UInt8)} (h : 0 ≤ (h2SessRecvV11 hooks (junk k) s d).1) :
    (recvChunks hooks junk k s (d :: ds)).2.2 =
      (h2SessRecvV11 hooks (junk k) s d).2.2 ++ (recvChunks hooks junk (k + 1) (h2SessRecvV11 hooks (junk k) s d).2.1 ds).2.2 := by
  rw [recvChunks, if_neg (Int.not_lt.mpr h)]

/-- A request announcing `Content-Length: 4294967296` with that many body bytes. -/
def wrapReq : Req :=
  ⟨bytes "GET", bytes "/", true, [(bytes "Content-Length", bytes "4294967296", true)], true, List.replicate (2 ^ 32) 120⟩

end H2Sim
