import H2Sim.CtxInv

/-! A peer along runs of events. The statistics: `peer_sess_free_cb` (lines 1932-1936) adds
a freed session's `req_cnt`, `rsp_cnt`, `rsp_rst_cnt` and `strm_close_cnt` to the peer's and
counts one closed session; nothing else touches these counters, and a session the peer does
not hold (the "unknown session" warning) adds nothing. So along every run the peer's counters
are the sums over the sessions freed from its slots, each counted once. The wind-down: once
`h2_peer_terminate` has run, the peer refuses requests and skips the reconnect of line 1946,
so its slots only empty. -/
namespace H2Sim

variable {p : Peer} {i : Nat}

/-- The counters `h2_peer_free` reports (lines 2071-2078), as the sums the code's `+=` make;
the `int` the code holds for one is `cInt` of it. -/
structure PeerStats where
  reqCnt : Nat
  rspCnt : Nat
  rspRstCnt : Nat
  strmCloseCnt : Nat
  sessCloseCnt : Nat
  deriving DecidableEq, Repr

def PeerStats.add : PeerStats → PeerStats → PeerStats
  | ⟨a₁, a₂, a₃, a₄, a₅⟩, ⟨b₁, b₂, b₃, b₄, b₅⟩ => ⟨a₁ + b₁, a₂ + b₂, a₃ + b₃, a₄ + b₄, a₅ + b₅⟩

instance : Add PeerStats := ⟨PeerStats.add⟩

def PeerStats.zero : PeerStats := ⟨0, 0, 0, 0, 0⟩

/-- The counters in the order `h2_peer_free` prints them. -/
def PeerStats.toList (a : PeerStats) : List Nat := [a.reqCnt, a.rspCnt, a.rspRstCnt, a.strmCloseCnt, a.sessCloseCnt]

def Peer.stats (p : Peer) : PeerStats := ⟨p.reqCnt, p.rspCnt, p.rspRstCnt, p.strmCloseCnt, p.sessCloseCnt⟩

/-- What `peer_sess_free_cb` adds for a freed session: its counters and one closed session. -/
def Sess.peerStats (st : Sess) : PeerStats := ⟨st.reqCnt, st.rspCnt, st.rspRstCnt, st.strmCloseCnt, 1⟩

/-- The sum of what a list of freed sessions adds. -/
def sumStats : List Sess → PeerStats
  | [] => .zero
  | st :: L => st.peerStats + sumStats L

theorem PeerStats.add_zero (a : PeerStats) : a + .zero = a := rfl

theorem PeerStats.zero_add (a : PeerStats) : .zero + a = a := by
  obtain ⟨⟩ := a
  show PeerStats.add ⟨0, 0, 0, 0, 0⟩ _ = _
  simp only [PeerStats.add, Nat.zero_add]

theorem PeerStats.add_assoc (a b c : PeerStats) : a + b + c = a + (b + c) := by
  obtain ⟨⟩ := a; obtain ⟨⟩ := b; obtain ⟨⟩ := c
  show PeerStats.add (PeerStats.add _ _) _ = PeerStats.add _ (PeerStats.add _ _)
  simp only [PeerStats.add, Nat.add_assoc]

theorem sumStats_append (L M : List Sess) : sumStats (L ++ M) = sumStats L + sumStats M := by
  induction L with
  | nil => exact (PeerStats.zero_add _).symm
  | cons st L ih => rw [List.cons_append, sumStats, sumStats, ih, PeerStats.add_assoc]

@[simp] theorem Peer.stats_deactivate : (p.deactivate i).stats = p.stats := by
  unfold Peer.deactivate; split <;> rfl

@[simp] theorem Peer.stats_foldl_deactivate (l : List Nat) : (l.foldl Peer.deactivate p).stats = p.stats := by
  induction l generalizing p with
  | nil => rfl
  | cons i l ih => rw [List.foldl_cons, ih, Peer.stats_deactivate]

@[simp] theorem Peer.stats_connectSess (res : Option Nat) : (p.connectSess i res).stats = p.stats := by
  unfold Peer.connectSess; split
  · rfl
  · dsimp only; split <;> rfl

theorem Peer.stats_foldl_connectSess (f : Nat → Option Nat) (l : List Nat) :
    (l.foldl (fun p i => p.connectSess i (f i)) p).stats = p.stats := by
  induction l generalizing p with
  | nil => rfl
  | cons i l ih => rw [List.foldl_cons, ih, Peer.stats_connectSess]

/-- `h2_peer_connect` starts every counter at zero (the `calloc` and lines 2010-2011). -/
theorem Peer.stats_connect {sessNum : Nat} {reqThrForReconn : Int} {res : List (Option Nat)} {q : Peer}
    (h : Peer.connect sessNum reqThrForReconn res = some q) : q.stats = .zero := by
  unfold Peer.connect at h
  dsimp only at h
  split_ifs at h
  rw [← Option.some.inj h, Peer.stats_foldl_connectSess]
  rfl

theorem Peer.stats_sendRequest (reqCnt : Nat → Nat) :
    (((p.sendRequest reqCnt).map PeerSend.peer).getD p).stats = p.stats := by
  unfold Peer.sendRequest
  split_ifs
  · rfl
  · obtain ⟨l, hl⟩ := Peer.scan_peer reqCnt p.nextSessIdx p.sessNum 0 p none []
    show ({ (Peer.scan reqCnt p.nextSessIdx p.sessNum 0 p none []).peer with nextSessIdx := _ } : Peer).stats = _
    rw [show ∀ q : Peer, ∀ n, ({ q with nextSessIdx := n } : Peer).stats = q.stats from fun _ _ => rfl, hl,
      Peer.stats_foldl_deactivate]

theorem Peer.stats_terminate (waitRsp : Bool) : (p.terminate waitRsp).2.1.stats = p.stats := by
  unfold Peer.terminate; split
  · rfl
  · exact Peer.stats_foldl_deactivate _

/-- The sessions an event frees from the peer's slots: the session of a free the callback
finds in a slot. -/
def PeerEv.gathers (p : Peer) : PeerEv → List Sess
  | .sessFree a st _ _ => if (p.slotOf a).isSome then [st] else []
  | _ => []

/-- The peer after a run of events. -/
def Peer.run (p : Peer) (es : List PeerEv) : Peer := es.foldl Peer.step p

/-- The sessions a run of events frees from the peer's slots, in order. -/
def Peer.gathered : Peer → List PeerEv → List Sess
  | _, [] => []
  | p, e :: es => e.gathers p ++ (p.step e).gathered es

/-- One event adds what it frees from the slots. -/
theorem Peer.stats_step (e : PeerEv) : (p.step e).stats = p.stats + sumStats (e.gathers p) := by
  cases e with
  | sendRequest reqCnt => exact Peer.stats_sendRequest reqCnt
  | terminate waitRsp => exact Peer.stats_terminate waitRsp
  | sessFree a st serviceFlag res =>
    show (p.sessFreeCb a st serviceFlag res).stats = _
    unfold Peer.sessFreeCb Peer.sessFreed PeerEv.gathers
    dsimp only
    cases p.slotOf a with
    | none => rfl
    | some j =>
      simp only [Option.isSome_some, ↓reduceIte]
      split_ifs <;> simp only [Peer.stats_connectSess, Peer.stats_deactivate] <;> rfl

/-- Along every run the peer's counters grow by the sums over the sessions freed from its slots. -/
theorem Peer.stats_run (es : List PeerEv) : (p.run es).stats = p.stats + sumStats (p.gathered es) := by
  induction es generalizing p with
  | nil => rfl
  | cons e es ih =>
    calc (p.run (e :: es)).stats
        = (p.step e).stats + sumStats ((p.step e).gathered es) := ih
      _ = p.stats + sumStats (p.gathered (e :: es)) := by
        rw [Peer.stats_step, PeerStats.add_assoc, ← sumStats_append]; rfl

/-- From `h2_peer_connect`, along every run the counters `h2_peer_free` reports sum the sessions
freed from the slots, each once; below `2^31` the printed `int`s are those sums. -/
theorem peer_run_stats {sessNum : Nat} {reqThrForReconn : Int} {res : List (Option Nat)} {p : Peer}
    (h : Peer.connect sessNum reqThrForReconn res = some p) (es : List PeerEv)
    (hb : ∀ n ∈ (sumStats (p.gathered es)).toList, n < 2 ^ 31) :
    (p.run es).stats = sumStats (p.gathered es) ∧
      (p.run es).stats.toList.map (fun n : Nat => cInt n) = (sumStats (p.gathered es)).toList.map (fun n : Nat => (n : Int)) := by
  have hs : (p.run es).stats = sumStats (p.gathered es) := by
    rw [Peer.stats_run, Peer.stats_connect h, PeerStats.zero_add]
  refine ⟨hs, ?_⟩
  rw [hs]
  exact List.map_congr_left fun n hn => cInt_of_lt (by omega) (by have := hb n hn; omega)

/-- A one-session peer whose session is freed twice counts it once. -/
theorem peer_run_stats_freed_once :
    let st : Sess := { Sess.init false false .v2 with reqCnt := 2, rspCnt := 2, strmCloseCnt := 2 }
    let es : List PeerEv := [.sessFree 5 st false none, .sessFree 5 st false none]
    ∃ p, Peer.connect 1 0 [some 5] = some p ∧ sumStats (p.gathered es) = ⟨2, 2, 0, 2, 1⟩ ∧
      (∀ n ∈ (sumStats (p.gathered es)).toList, n < 2 ^ 31) ∧
      ((p.run es).stats = sumStats (p.gathered es) ∧
        (p.run es).stats.toList.map (fun n : Nat => cInt n) =
          (sumStats (p.gathered es)).toList.map (fun n : Nat => (n : Int))) :=
  ⟨_, rfl, rfl, by decide, @peer_run_stats 1 0 [some 5] _ rfl _ (by decide)⟩

/-- Slot by slot, `q` holds only sessions `p` held in the same slot: no slot was refilled. -/
def Peer.SlotsWithin (q p : Peer) : Prop :=
  ∀ i a, q.sess.getD i none = some a → p.sess.getD i none = some a

theorem Peer.SlotsWithin.refl : p.SlotsWithin p := fun _ _ => id

theorem Peer.SlotsWithin.trans {q r : Peer} (h₁ : q.SlotsWithin r) (h₂ : r.SlotsWithin p) :
    q.SlotsWithin p :=
  fun i a h => h₂ i a (h₁ i a h)

theorem Peer.isTerminated_terminate (waitRsp : Bool) : (p.terminate waitRsp).2.1.isTerminated ≠ 0 := by
  unfold Peer.terminate
  split
  · next h => show p.isTerminated ≠ 0; omega
  · rw [(Peer.foldl_deactivate_frame _).2.2.2.2]
    split <;> simp

/-- The reconnect of `peer_sess_free_cb` needs `!peer->is_terminated`. -/
theorem Peer.sessFreed_of_terminated (h : p.isTerminated ≠ 0) (a : Nat) (st : Sess) (serviceFlag : Bool) :
    (p.sessFreed a st serviceFlag).2 = none := by
  unfold Peer.sessFreed
  split
  · rfl
  · simp only [Peer.isTerminated_deactivate, h, false_and, if_false]

/-- One event on a terminated peer keeps it terminated and refills no slot. -/
theorem Peer.step_of_terminated (h : p.isTerminated ≠ 0) (e : PeerEv) :
    (p.step e).isTerminated ≠ 0 ∧ (p.step e).SlotsWithin p := by
  cases e with
  | sendRequest reqCnt =>
    have hs : p.step (.sendRequest reqCnt) = p := by
      simp only [Peer.step, Peer.sendRequest, if_pos h, Option.map_none', Option.getD_none]
    rw [hs]
    exact ⟨h, .refl⟩
  | terminate waitRsp =>
    refine ⟨Peer.isTerminated_terminate waitRsp, fun i a ha => ?_⟩
    rw [← (Ctx.Peer.terminate_frame p waitRsp).1]
    exact ha
  | sessFree a st serviceFlag res =>
    have hs : p.step (.sessFree a st serviceFlag res) = (p.sessFreed a st serviceFlag).1 := by
      show p.sessFreeCb a st serviceFlag res = _
      unfold Peer.sessFreeCb
      rw [show p.sessFreed a st serviceFlag = ((p.sessFreed a st serviceFlag).1, none) from
        Prod.ext rfl (Peer.sessFreed_of_terminated h a st serviceFlag)]
    rw [hs]
    refine ⟨by rw [(Peer.sessFreed_frame a st serviceFlag).2.2]; exact h, fun i b hb => ?_⟩
    cases hj : p.slotOf a with
    | none => rwa [Ctx.Peer.sessFreed_of_none hj] at hb
    | some j =>
      rw [(Ctx.Peer.sessFreed_of_some hj st serviceFlag).1, getD_set_default] at hb
      split_ifs at hb
      exact hb

theorem Peer.run_of_terminated (h : p.isTerminated ≠ 0) (es : List PeerEv) :
    (p.run es).isTerminated ≠ 0 ∧ (p.run es).SlotsWithin p := by
  induction es generalizing p with
  | nil => exact ⟨h, .refl⟩
  | cons e es ih =>
    obtain ⟨h₁, h₂⟩ := Peer.step_of_terminated h e
    obtain ⟨h₃, h₄⟩ := ih h₁
    exact ⟨h₃, h₄.trans h₂⟩

theorem Peer.Ok.run (h : p.Ok) (es : List PeerEv) : (p.run es).Ok := by
  induction es generalizing p with
  | nil => exact h
  | cons e es ih => exact ih (h.step e)

theorem Peer.Ok.actSessNum_of_terminated (h : p.Ok) (ht : p.isTerminated ≠ 0) : p.actSessNum = 0 := by
  rw [h.count, List.count_eq_zero.mpr fun hm => ?_]
  · rfl
  obtain ⟨i, hi, he⟩ := List.mem_iff_getElem.mp hm
  have := h.inactive_of_terminated ht i
  rw [List.getD_eq_getElem?_getD, List.getElem?_eq_getElem hi, Option.getD_some, he] at this
  cases this

/-- A peer marked by `h2_peer_terminate` stays terminated: no active slot, every request refused, no
slot refilled, and only sessions it held when terminated. -/
theorem peerReach_terminated_winds_down (hr : PeerReach p) (h : p.isTerminated ≠ 0) (es : List PeerEv) :
    (p.run es).isTerminated ≠ 0 ∧ (p.run es).actSessNum = 0 ∧
      (∀ reqCnt, (p.run es).sendRequest reqCnt = none) ∧ (p.run es).SlotsWithin p := by
  obtain ⟨ht, hw⟩ := Peer.run_of_terminated h es
  exact ⟨ht, (hr.ok.run es).actSessNum_of_terminated ht, fun _ => if_pos ht, hw⟩

/-- A two-slot peer terminated at once: a free leaves its slot empty and a request is refused. -/
theorem peerReach_terminated_winds_down_freed :
    let q := (List.range 2).foldl (fun p i => p.connectSess i ([some 5, some 6].getD i none)) (Peer.init 2 0)
    let p := q.step (.terminate false)
    let es : List PeerEv := [.sessFree 5 (Sess.init false false .v1_1) true (some 7), .sendRequest fun _ => 0]
    PeerReach p ∧ p.isTerminated ≠ 0 ∧ (p.run es).sess = [none, some 6] ∧
      ((p.run es).isTerminated ≠ 0 ∧ (p.run es).actSessNum = 0 ∧
        (∀ reqCnt, (p.run es).sendRequest reqCnt = none) ∧ (p.run es).SlotsWithin p) := by
  intro q p es
  have hr : PeerReach p := .step _ (@PeerReach.connect 2 0 [some 5, some 6] q rfl)
  have ht : p.isTerminated ≠ 0 := (by decide : (1 : Nat) ≠ 0)
  exact ⟨hr, ht, rfl, peerReach_terminated_winds_down hr ht es⟩

end H2Sim
