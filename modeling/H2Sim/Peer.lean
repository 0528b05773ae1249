import H2Sim.Basic
import Mathlib.Data.Int.CardIntervalMod

/-! The peer: a pool of `sess_num` session slots to one authority. `h2_peer_send_request`
picks an active slot round-robin and retires a session past its request threshold;
`peer_sess_free_cb` clears the slot of a freed session and reconnects it. Sessions are
their addresses; what `h2_connect` returns is an argument, supplied by the context. -/
namespace H2Sim

/-- `h2_peer`: the slots `sess[i]` (`none` for NULL) and `act_sess[i]`, `act_sess_num`, the
round-robin cursor, the rotation threshold and the counters gathered from freed sessions. -/
structure Peer where
  sessNum : Nat
  reqThrForReconn : Int
  sess : List (Option Nat)
  actSess : List Bool
  actSessNum : Int
  nextSessIdx : Nat
  isTerminated : Nat
  reqCnt : Nat
  rspCnt : Nat
  rspRstCnt : Nat
  strmCloseCnt : Nat
  sessCloseCnt : Nat
  deriving DecidableEq, Repr

/-- The inner `if (peer->act_sess[i]) { peer->act_sess[i] = 0; peer->act_sess_num--; }`. -/
def Peer.deactivate (p : Peer) (i : Nat) : Peer :=
  if p.actSess.getD i false then { p with actSess := p.actSess.set i false, actSessNum := p.actSessNum - 1 }
  else p

/-- `peer_connect_sess` (lines 1951-1966) once `h2_connect` has returned `res`. -/
def Peer.connectSess (p : Peer) (i : Nat) (res : Option Nat) : Peer :=
  match res with
  | none => p
  | some a =>
    let p := { p with sess := p.sess.set i (some a) }
    if p.actSess.getD i false then p
    else { p with actSess := p.actSess.set i true, actSessNum := p.actSessNum + 1 }

/-- The slot of session `a`: the first `i < sess_num` with `sess[i] == a`. -/
def Peer.slotOf (p : Peer) (a : Nat) : Option Nat := (p.sess.take p.sessNum).findIdx? (· = some a)

/-- `peer_sess_free_cb` (lines 1916-1949) up to the reconnect: add the session's counters, clear its
slot, and return the slot to reconnect while the peer and the context run. -/
def Peer.sessFreed (p : Peer) (a : Nat) (st : Sess) (serviceFlag : Bool) : Peer × Option Nat :=
  match p.slotOf a with
  | none => (p, none)
  | some i =>
    let p := ({ p with
      reqCnt := p.reqCnt + st.reqCnt, rspCnt := p.rspCnt + st.rspCnt,
      rspRstCnt := p.rspRstCnt + st.rspRstCnt, strmCloseCnt := p.strmCloseCnt + st.strmCloseCnt,
      sessCloseCnt := p.sessCloseCnt + 1, sess := p.sess.set i none }).deactivate i
    (p, if p.isTerminated = 0 ∧ serviceFlag = true then some i else none)

/-- `peer_sess_free_cb` with the reconnect answered by `res`. -/
def Peer.sessFreeCb (p : Peer) (a : Nat) (st : Sess) (serviceFlag : Bool) (res : Option Nat) : Peer :=
  match p.sessFreed a st serviceFlag with
  | (p, none) => p
  | (p, some i) => p.connectSess i res

/-- The rotation test of `h2_peer_send_request` on the session `a`. -/
def Peer.Rotates (p : Peer) (reqCnt : Nat → Nat) (a : Nat) : Prop :=
  0 < p.reqThrForReconn ∧ p.reqThrForReconn ≤ reqCnt a ∧ (p.sessNum : Int) ≤ p.actSessNum

instance (p : Peer) (reqCnt : Nat → Nat) (a : Nat) : Decidable (p.Rotates reqCnt a) :=
  inferInstanceAs (Decidable (_ ∧ _ ∧ _))

/-- What the loop of `h2_peer_send_request` leaves: the peer, `sess`, `i`, the slot
`si = (nsi + i) % n` read last, and the sessions it terminated, in order. -/
structure PeerSend where
  peer : Peer
  sess : Option Nat
  i : Nat
  si : Nat
  terminated : List Nat

/-- The round-robin loop of `h2_peer_send_request` (lines 2099-2118) from `i`, with `rem`
rounds left: `sess` is the C variable, assigned `peer->sess[si]` at every slot looked at. -/
def Peer.scan (reqCnt : Nat → Nat) (nsi : Nat) :
    Nat → Nat → Peer → Option Nat → List Nat → PeerSend
  | 0, i, p, sess, ts => ⟨p, sess, i, (nsi + i) % p.sessNum, ts⟩
  | rem + 1, i, p, _, ts =>
    let si := (nsi + i) % p.sessNum
    match p.sess.getD si none with
    | none => Peer.scan reqCnt nsi rem (i + 1) p none ts
    | some a =>
      if p.actSess.getD si false then
        if p.Rotates reqCnt a then Peer.scan reqCnt nsi rem (i + 1) (p.deactivate si) none (ts ++ [a])
        else ⟨p, some a, i, si, ts⟩
      else Peer.scan reqCnt nsi rem (i + 1) p (some a) ts

/-- `h2_peer_send_request` (lines 2088-2138) up to `h2_send_request`; `none` when the peer is
terminated. `reqCnt` is each session's `req_cnt`. -/
def Peer.sendRequest (reqCnt : Nat → Nat) (p : Peer) : Option PeerSend :=
  if p.isTerminated ≠ 0 then none
  else
    let o := Peer.scan reqCnt p.nextSessIdx p.sessNum 0 p none []
    some { o with peer := { o.peer with nextSessIdx := (p.nextSessIdx + o.i + 1) % p.sessNum } }

/-- `K` successive calls of `h2_peer_send_request`, call `k` seeing the counts `reqCnts k`. -/
def Peer.sendRequests (reqCnts : Nat → Nat → Nat) : Nat → Peer → List (Option PeerSend)
  | 0, _ => []
  | K + 1, p =>
    let o := p.sendRequest (reqCnts 0)
    o :: Peer.sendRequests (fun k => reqCnts (k + 1)) K ((o.map PeerSend.peer).getD p)

/-- `h2_peer_terminate` (lines 2141-2158): the return value, the peer, and the slot
contents passed to `h2_sess_terminate(sess[i], wait_rsp)`. -/
def Peer.terminate (p : Peer) (waitRsp : Bool) : Int × Peer × List (Option Nat) :=
  if p.isTerminated = 1 then (1, p, [])
  else
    let p := { p with isTerminated := if waitRsp then 2 else 1 }
    (0, (List.range p.sessNum).foldl Peer.deactivate p, (List.range p.sessNum).map (p.sess.getD · none))

/-- The peer `h2_peer_connect` (lines 1969-2037) allocates, before its slots connect. -/
def Peer.init (sessNum : Nat) (reqThrForReconn : Int) : Peer where
  sessNum := sessNum
  reqThrForReconn := if reqThrForReconn ≠ 0 ∧ sessNum = 1 then 0 else reqThrForReconn
  sess := List.replicate sessNum none
  actSess := List.replicate sessNum false
  actSessNum := 0
  nextSessIdx := 0
  isTerminated := 0
  reqCnt := 0
  rspCnt := 0
  rspRstCnt := 0
  strmCloseCnt := 0
  sessCloseCnt := 0

/-- `h2_peer_connect`, slot `i` answered by `res[i]`: `none` when no slot connected, and the
peer is freed. -/
def Peer.connect (sessNum : Nat) (reqThrForReconn : Int) (res : List (Option Nat)) : Option Peer :=
  let p := (List.range sessNum).foldl (fun p i => p.connectSess i (res.getD i none))
    (Peer.init sessNum reqThrForReconn)
  if p.actSessNum ≤ 0 then none else some p

/-- What can happen to a peer once connected: a request, the free of a session of the
context (with what the reconnect's `h2_connect` returns), or `h2_peer_terminate`. -/
inductive PeerEv where
  | sendRequest (reqCnt : Nat → Nat)
  | sessFree (a : Nat) (st : Sess) (serviceFlag : Bool) (res : Option Nat)
  | terminate (waitRsp : Bool)

def Peer.step (p : Peer) : PeerEv → Peer
  | .sendRequest reqCnt => ((p.sendRequest reqCnt).map PeerSend.peer).getD p
  | .sessFree a st serviceFlag res => p.sessFreeCb a st serviceFlag res
  | .terminate waitRsp => (p.terminate waitRsp).2.1

/-- The peers `h2_peer_connect` returns, and every peer a run of events leads them to. -/
inductive PeerReach : Peer → Prop
  | connect {sessNum : Nat} {reqThrForReconn : Int} {res : List (Option Nat)} {p : Peer} :
      Peer.connect sessNum reqThrForReconn res = some p → PeerReach p
  | step {p : Peer} (e : PeerEv) : PeerReach p → PeerReach (p.step e)

/-- The active slots below `c`, in increasing order. -/
def Peer.activeSlots (p : Peer) (c : Nat) : List Nat := (List.range c).filter (p.actSess.getD · false)

section Lists
variable {α : Type} {i j : Nat}

theorem getD_set_of_lt {l : List α} {a d : α} (hi : i < l.length) :
    (l.set i a).getD j d = if i = j then a else l.getD j d := by
  simp only [List.getD_eq_getElem?_getD, List.getElem?_set, hi, if_true]
  split <;> rfl

theorem getD_set_default {l : List α} {d : α} :
    (l.set i d).getD j d = if i = j then d else l.getD j d := by
  simp only [List.getD_eq_getElem?_getD, List.getElem?_set]
  split_ifs <;> rfl

theorem lt_length_of_getD {l : List Bool} (h : l.getD i false = true) : i < l.length := by
  by_contra hn
  simp [List.getD_eq_getElem?_getD, List.getElem?_eq_none (Nat.le_of_not_lt hn)] at h

theorem count_set_false {l : List Bool} (h : l.getD i false = true) :
    (l.set i false).count true + 1 = l.count true := by
  have hi := lt_length_of_getD h
  simp only [List.getD_eq_getElem?_getD, List.getElem?_eq_getElem hi, Option.getD_some] at h
  have hpos : 0 < l.count true := List.count_pos_iff.mpr (h ▸ List.getElem_mem hi)
  rw [List.count_set _ _ _ _ hi, h]
  simp only [beq_self_eq_true, if_true, Bool.false_beq, Bool.not_true, Bool.false_eq_true, if_false]
  omega

theorem count_set_true {l : List Bool} (hi : i < l.length) (h : l.getD i false = false) :
    (l.set i true).count true = l.count true + 1 := by
  rw [List.count_set _ _ _ _ hi]
  simp only [List.getD_eq_getElem?_getD, List.getElem?_eq_getElem hi, Option.getD_some] at h
  simp [h]

end Lists

/-- The slot arrays have `sess_num` entries, `act_sess_num` counts the active ones, and an
active slot holds a session. -/
structure Peer.SlotsOk (p : Peer) : Prop where
  length_sess : p.sess.length = p.sessNum
  length_actSess : p.actSess.length = p.sessNum
  count : p.actSessNum = p.actSess.count true
  sess_of_act : ∀ i, p.actSess.getD i false = true → p.sess.getD i none ≠ none

/-- A connected peer's invariant: its slots, at least one, the threshold zero with one slot (the
`sess_num == 1` override of `h2_peer_connect`), and no active slot once terminated. -/
structure Peer.Ok (p : Peer) extends Peer.SlotsOk p : Prop where
  pos : 0 < p.sessNum
  thr : 0 < p.reqThrForReconn → 2 ≤ p.sessNum
  inactive_of_terminated : p.isTerminated ≠ 0 → ∀ i, p.actSess.getD i false = false

section Invariant
variable {p q : Peer} {i j : Nat}

/-- The parts of `Ok` beyond the slots carry over to a peer of equal slot count and threshold. -/
theorem Peer.Ok.of_slotsOk (h : p.Ok) (hq : q.SlotsOk) (hn : q.sessNum = p.sessNum)
    (ht : q.reqThrForReconn = p.reqThrForReconn)
    (hterm : q.isTerminated ≠ 0 → ∀ i, q.actSess.getD i false = false) : q.Ok :=
  ⟨hq, hn ▸ h.pos, fun hq => hn ▸ h.thr (ht ▸ hq), hterm⟩

@[simp] theorem Peer.sessNum_deactivate : (p.deactivate i).sessNum = p.sessNum := by
  unfold Peer.deactivate; split <;> rfl

@[simp] theorem Peer.reqThrForReconn_deactivate :
    (p.deactivate i).reqThrForReconn = p.reqThrForReconn := by
  unfold Peer.deactivate; split <;> rfl

@[simp] theorem Peer.sess_deactivate : (p.deactivate i).sess = p.sess := by
  unfold Peer.deactivate; split <;> rfl

@[simp] theorem Peer.nextSessIdx_deactivate : (p.deactivate i).nextSessIdx = p.nextSessIdx := by
  unfold Peer.deactivate; split <;> rfl

@[simp] theorem Peer.isTerminated_deactivate : (p.deactivate i).isTerminated = p.isTerminated := by
  unfold Peer.deactivate; split <;> rfl

theorem Peer.getD_actSess_deactivate :
    (p.deactivate i).actSess.getD j false = (p.actSess.getD j false && i ≠ j) := by
  unfold Peer.deactivate
  split
  · rw [getD_set_default]; by_cases hij : i = j <;> simp [hij]
  · by_cases hij : i = j <;> simp_all

theorem Peer.actSessNum_deactivate :
    (p.deactivate i).actSessNum = p.actSessNum - if p.actSess.getD i false then 1 else 0 := by
  unfold Peer.deactivate; split <;> simp_all

/-- Deactivating slot `i` restores the slot invariant, as after `sess[i] = NULL`. -/
theorem Peer.slotsOk_deactivate (hl : p.sess.length = p.sessNum)
    (ha : p.actSess.length = p.sessNum) (hc : p.actSessNum = p.actSess.count true)
    (hs : ∀ j, i ≠ j → p.actSess.getD j false = true → p.sess.getD j none ≠ none) :
    (p.deactivate i).SlotsOk where
  length_sess := by simp [hl]
  length_actSess := by unfold Peer.deactivate; split <;> simp [ha]
  count := by
    unfold Peer.deactivate
    split
    · next hi => have := count_set_false hi; simp only [hc]; omega
    · exact hc
  sess_of_act j hj := by
    rw [Peer.getD_actSess_deactivate, Bool.and_eq_true, decide_eq_true_eq] at hj
    simpa using hs j hj.2 hj.1

theorem Peer.SlotsOk.deactivate (h : p.SlotsOk) : (p.deactivate i).SlotsOk :=
  Peer.slotsOk_deactivate h.1 h.2 h.3 fun j _ => h.4 j

theorem Peer.getD_actSess_foldl_deactivate (l : List Nat) :
    (l.foldl Peer.deactivate p).actSess.getD j false = (p.actSess.getD j false && j ∉ l) := by
  induction l generalizing p with
  | nil => simp
  | cons k l ih =>
    rw [List.foldl_cons, ih, Peer.getD_actSess_deactivate]
    by_cases hk : k = j <;> simp [hk, Ne.symm]

/-- What a run of deactivations keeps: everything but the active flags. -/
theorem Peer.foldl_deactivate_frame (l : List Nat) :
    (l.foldl Peer.deactivate p).sessNum = p.sessNum ∧
    (l.foldl Peer.deactivate p).reqThrForReconn = p.reqThrForReconn ∧
    (l.foldl Peer.deactivate p).sess = p.sess ∧
    (l.foldl Peer.deactivate p).nextSessIdx = p.nextSessIdx ∧
    (l.foldl Peer.deactivate p).isTerminated = p.isTerminated := by
  induction l generalizing p with
  | nil => exact ⟨rfl, rfl, rfl, rfl, rfl⟩
  | cons k l ih =>
    simpa only [List.foldl_cons, Peer.sessNum_deactivate, Peer.reqThrForReconn_deactivate,
      Peer.sess_deactivate, Peer.nextSessIdx_deactivate, Peer.isTerminated_deactivate]
      using @ih (p.deactivate k)

theorem Peer.Ok.deactivate (h : p.Ok) : (p.deactivate i).Ok :=
  h.of_slotsOk h.toSlotsOk.deactivate (by simp) (by simp) fun hq j => by
    rw [Peer.getD_actSess_deactivate, h.inactive_of_terminated (by simpa using hq)]
    rfl

theorem Peer.Ok.foldl_deactivate (h : p.Ok) (l : List Nat) : (l.foldl Peer.deactivate p).Ok := by
  induction l generalizing p with
  | nil => exact h
  | cons k l ih => exact ih h.deactivate

theorem Peer.connectSess_frame (res : Option Nat) :
    (p.connectSess i res).sessNum = p.sessNum ∧
    (p.connectSess i res).reqThrForReconn = p.reqThrForReconn ∧
    (p.connectSess i res).isTerminated = p.isTerminated := by
  unfold Peer.connectSess
  split
  · exact ⟨rfl, rfl, rfl⟩
  · dsimp only; split <;> exact ⟨rfl, rfl, rfl⟩

/-- `peer_connect_sess` into a slot of the peer keeps the slot invariant. -/
theorem Peer.SlotsOk.connectSess (h : p.SlotsOk) (hi : i < p.sessNum) (res : Option Nat) :
    (p.connectSess i res).SlotsOk := by
  unfold Peer.connectSess
  split
  · exact h
  · have hs : i < p.sess.length := h.length_sess ▸ hi
    have ha : i < p.actSess.length := h.length_actSess ▸ hi
    dsimp only
    split
    · refine ⟨by simp [h.length_sess], h.length_actSess, h.count, fun j hj => ?_⟩
      rw [getD_set_of_lt hs]
      split
      · simp
      · exact h.sess_of_act j hj
    · next hact =>
      refine ⟨by simp [h.length_sess], by simp [h.length_actSess], ?_, fun j hj => ?_⟩
      · simp only [count_set_true ha (Bool.eq_false_iff.mpr hact), h.count]
        push_cast; rfl
      · rw [getD_set_of_lt hs]
        split
        · simp
        · next hij => exact h.sess_of_act j (by simpa [getD_set_of_lt ha, hij] using hj)

theorem Peer.slotOf_lt (h : p.slotOf a = some i) : i < p.sessNum := by
  unfold Peer.slotOf at h
  have := (List.findIdx?_eq_some_iff_findIdx_eq.mp h).1
  simp only [List.length_take] at this
  omega

theorem Peer.sessFreed_frame (a : Nat) (st : Sess) (serviceFlag : Bool) :
    (p.sessFreed a st serviceFlag).1.sessNum = p.sessNum ∧
    (p.sessFreed a st serviceFlag).1.reqThrForReconn = p.reqThrForReconn ∧
    (p.sessFreed a st serviceFlag).1.isTerminated = p.isTerminated := by
  unfold Peer.sessFreed
  split
  · exact ⟨rfl, rfl, rfl⟩
  · simp

/-- `peer_sess_free_cb` keeps the invariant and reconnects only a slot of a running peer. -/
theorem Peer.Ok.sessFreed (h : p.Ok) (a : Nat) (st : Sess) (serviceFlag : Bool) :
    (p.sessFreed a st serviceFlag).1.Ok ∧
    ∀ k, (p.sessFreed a st serviceFlag).2 = some k → k < p.sessNum ∧ p.isTerminated = 0 := by
  unfold Peer.sessFreed
  split
  · exact ⟨h, by simp⟩
  · next i hi =>
    dsimp only
    refine ⟨h.of_slotsOk (Peer.slotsOk_deactivate (by simp [h.length_sess]) h.length_actSess
      h.count fun j hij hj => ?_) (by simp) (by simp) fun ht j => ?_, fun k hk => ?_⟩
    · simpa [getD_set_default, hij] using h.sess_of_act j hj
    · rw [Peer.getD_actSess_deactivate, h.inactive_of_terminated (by simpa using ht)]
      rfl
    · simp only [Peer.isTerminated_deactivate] at hk
      split_ifs at hk with hc
      cases hk
      exact ⟨Peer.slotOf_lt hi, hc.1⟩

theorem Peer.Ok.sessFreeCb (h : p.Ok) (a : Nat) (st : Sess) (serviceFlag : Bool)
    (res : Option Nat) : (p.sessFreeCb a st serviceFlag res).Ok := by
  obtain ⟨h1, h2⟩ := h.sessFreed a st serviceFlag
  have hf := Peer.sessFreed_frame (p := p) a st serviceFlag
  unfold Peer.sessFreeCb
  rcases hq : p.sessFreed a st serviceFlag with ⟨q, _ | k⟩
  · rw [hq] at h1; exact h1
  · rw [hq] at h1 h2 hf
    obtain ⟨hk, hterm⟩ := h2 k rfl
    obtain ⟨hn, ht, hterm'⟩ := Peer.connectSess_frame (p := q) (i := k) res
    exact h1.of_slotsOk (h1.toSlotsOk.connectSess (hf.1 ▸ hk) res) hn ht
      fun hx => absurd (hterm'.trans (hf.2.2.trans hterm)) hx

theorem Peer.SlotsOk.foldl_deactivate (h : p.SlotsOk) (l : List Nat) :
    (l.foldl Peer.deactivate p).SlotsOk := by
  induction l generalizing p with
  | nil => exact h
  | cons k l ih => exact ih h.deactivate

/-- The loop of `h2_peer_send_request` only deactivates slots. -/
theorem Peer.scan_peer (reqCnt : Nat → Nat) (nsi rem : Nat) :
    ∀ i p sess ts, ∃ l : List Nat,
      (Peer.scan reqCnt nsi rem i p sess ts).peer = l.foldl Peer.deactivate p := by
  induction rem with
  | zero => exact fun _ _ _ _ => ⟨[], rfl⟩
  | succ rem ih =>
    intro i p _ ts
    unfold Peer.scan
    dsimp only
    split
    · exact ih _ _ _ _
    · split
      · split
        · obtain ⟨l, hl⟩ := ih (i + 1) (p.deactivate ((nsi + i) % p.sessNum)) none (ts ++ [_])
          exact ⟨_ :: l, hl⟩
        · exact ⟨[], rfl⟩
      · exact ih _ _ _ _

theorem Peer.Ok.with_nextSessIdx (h : p.Ok) (x : Nat) : ({ p with nextSessIdx := x }).Ok :=
  ⟨⟨h.length_sess, h.length_actSess, h.count, h.sess_of_act⟩, h.pos, h.thr, h.inactive_of_terminated⟩

theorem Peer.Ok.sendRequest (h : p.Ok) (reqCnt : Nat → Nat) {o : PeerSend}
    (ho : p.sendRequest reqCnt = some o) : o.peer.Ok := by
  unfold Peer.sendRequest at ho
  split_ifs at ho
  cases ho
  obtain ⟨l, hl⟩ := Peer.scan_peer reqCnt p.nextSessIdx p.sessNum 0 p none []
  rw [hl]
  exact (h.foldl_deactivate l).with_nextSessIdx _

theorem Peer.Ok.terminate (h : p.Ok) (waitRsp : Bool) : (p.terminate waitRsp).2.1.Ok := by
  unfold Peer.terminate
  split
  · exact h
  · dsimp only
    let q : Peer := { p with isTerminated := if waitRsp then 2 else 1 }
    have hq : q.SlotsOk := ⟨h.length_sess, h.length_actSess, h.count, h.sess_of_act⟩
    obtain ⟨hn, ht, -, -, -⟩ := Peer.foldl_deactivate_frame (p := q) (List.range p.sessNum)
    refine h.of_slotsOk (hq.foldl_deactivate _) hn ht fun _ j => ?_
    rw [Peer.getD_actSess_foldl_deactivate, Bool.and_eq_false_iff]
    by_cases hj : p.actSess.getD j false = true
    · have := lt_length_of_getD hj
      exact Or.inr (by simpa [h.length_actSess] using this)
    · exact Or.inl (by simpa using hj)

theorem Peer.Ok.step (h : p.Ok) : ∀ e, (p.step e).Ok
  | .sendRequest reqCnt => by
    dsimp only [Peer.step]
    cases ho : p.sendRequest reqCnt with
    | none => exact h
    | some o => exact h.sendRequest reqCnt ho
  | .sessFree a st serviceFlag res => h.sessFreeCb a st serviceFlag res
  | .terminate waitRsp => h.terminate waitRsp

theorem Peer.SlotsOk.foldl_connectSess (f : Nat → Option Nat) (l : List Nat) (h : p.SlotsOk)
    (hl : ∀ i ∈ l, i < p.sessNum) :
    (l.foldl (fun p i => p.connectSess i (f i)) p).SlotsOk ∧
    (l.foldl (fun p i => p.connectSess i (f i)) p).sessNum = p.sessNum ∧
    (l.foldl (fun p i => p.connectSess i (f i)) p).reqThrForReconn = p.reqThrForReconn ∧
    (l.foldl (fun p i => p.connectSess i (f i)) p).isTerminated = p.isTerminated := by
  induction l generalizing p with
  | nil => exact ⟨h, rfl, rfl, rfl⟩
  | cons k l ih =>
    obtain ⟨hn, ht, hterm⟩ := Peer.connectSess_frame (p := p) (i := k) (f k)
    obtain ⟨h1, h2, h3, h4⟩ := ih (h.connectSess (hl k (List.mem_cons_self _ _)) (f k))
      fun i hi => hn ▸ hl i (List.mem_cons_of_mem _ hi)
    exact ⟨h1, h2.trans hn, h3.trans ht, h4.trans hterm⟩

theorem Peer.slotsOk_init (n : Nat) (thr : Int) : (Peer.init n thr).SlotsOk where
  length_sess := List.length_replicate _ _
  length_actSess := List.length_replicate _ _
  count := by simp [Peer.init, List.count_replicate]
  sess_of_act i hi := by
    simp only [Peer.init, List.getD_eq_getElem?_getD, List.getElem?_replicate] at hi
    split_ifs at hi <;> simp at hi

/-- `h2_peer_connect` returns only peers that satisfy the invariant. -/
theorem Peer.connect_ok {n : Nat} {thr : Int} {res : List (Option Nat)}
    (h : Peer.connect n thr res = some p) : p.Ok := by
  unfold Peer.connect at h
  dsimp only at h
  split_ifs at h with hact
  cases h
  obtain ⟨hs, hn, ht, hterm⟩ := (Peer.slotsOk_init n thr).foldl_connectSess (res.getD · none)
    (List.range n) fun i hi => List.mem_range.mp hi
  generalize List.foldl _ (Peer.init n thr) (List.range n) = q at *
  simp only [Peer.init] at hn ht hterm
  have hpos : 0 < q.sessNum := by
    have := List.count_le_length true q.actSess
    rw [hs.length_actSess] at this
    have := hs.count
    omega
  refine ⟨hs, hpos, fun hthr => ?_, fun h0 => absurd hterm h0⟩
  rw [ht] at hthr
  split_ifs at hthr with h1
  · omega
  · push_neg at h1
    have := h1 (by omega)
    omega

theorem PeerReach.ok (h : PeerReach p) : p.Ok := by
  induction h with
  | connect h => exact Peer.connect_ok h
  | step e _ ih => exact ih.step e

theorem count_true_eq_length_filter (l : List Bool) :
    l.count true = ((List.range l.length).filter (l.getD · false)).length := by
  induction l with
  | nil => rfl
  | cons b l ih =>
    rw [List.length_cons, List.range_succ_eq_map, List.filter_cons, List.filter_map,
      List.count_cons, ih]
    have hg : ((fun i => (b :: l).getD i false) ∘ Nat.succ) = (l.getD · false) := rfl
    cases b
    · simp only [hg, List.getD_cons_zero, Bool.false_eq_true, if_false, List.length_map]; rfl
    · simp only [hg, List.getD_cons_zero, if_true, List.length_map, List.length_cons]; rfl

end Invariant

/-- The slot invariant of every peer: `act_sess_num` counts the active slots, lies between
0 and `sess_num`, and an active slot holds a session. -/
theorem PeerReach.actSessNum_eq_active {p : Peer} (h : PeerReach p) :
    p.actSessNum = (p.activeSlots p.sessNum).length ∧ 0 ≤ p.actSessNum ∧
    p.actSessNum ≤ p.sessNum ∧
    ∀ i < p.sessNum, p.actSess.getD i false = true → p.sess.getD i none ≠ none := by
  have hp := h.ok
  have hle := List.count_le_length true p.actSess
  refine ⟨?_, by rw [hp.count]; omega, by rw [hp.count, ← hp.length_actSess]; exact_mod_cast hle,
    fun i _ => hp.sess_of_act i⟩
  rw [hp.count, count_true_eq_length_filter, hp.length_actSess]
  rfl

theorem PeerReach.actSessNum_eq_active_after_free :
    let p : Peer := ((Peer.connect 2 10 [some 7, some 8]).getD (Peer.init 0 0)).step
      (.sessFree 7 (Sess.init false false .v2) true none)
    PeerReach p ∧ (p.actSessNum = (p.activeSlots p.sessNum).length ∧ 0 ≤ p.actSessNum ∧
      p.actSessNum ≤ p.sessNum ∧
      ∀ i < p.sessNum, p.actSess.getD i false = true → p.sess.getD i none ≠ none) :=
  have hc : Peer.connect 2 10 [some 7, some 8] =
      some ((Peer.connect 2 10 [some 7, some 8]).getD (Peer.init 0 0)) := rfl
  have h := PeerReach.step _ (PeerReach.connect hc)
  ⟨h, PeerReach.actSessNum_eq_active h⟩

section Pick
variable {p : Peer} {reqCnt : Nat → Nat} {nsi rem i j a : Nat} {sess : Option Nat} {ts : List Nat}

/-- Without rotation at the first active slot from round `i` on, the loop breaks there. -/
theorem Peer.scan_eq_of_first (hrem : i + rem = p.sessNum) (hij : i ≤ j) (hjn : j < p.sessNum)
    (hmin : ∀ k, i ≤ k → k < j → p.actSess.getD ((nsi + k) % p.sessNum) false = false)
    (hact : p.actSess.getD ((nsi + j) % p.sessNum) false = true)
    (hsess : p.sess.getD ((nsi + j) % p.sessNum) none = some a) (hrot : ¬ p.Rotates reqCnt a) :
    Peer.scan reqCnt nsi rem i p sess ts = ⟨p, some a, j, (nsi + j) % p.sessNum, ts⟩ := by
  induction rem generalizing i sess with
  | zero => omega
  | succ rem ih =>
    unfold Peer.scan
    dsimp only
    rcases Nat.eq_or_lt_of_le hij with rfl | hlt
    · simp only [hsess, hact, if_true, hrot, if_false]
    · have hi := hmin i le_rfl hlt
      have ih' := fun sess => @ih (i + 1) sess (by omega) hlt fun k hk hkj => hmin k (by omega) hkj
      split
      · exact ih' _
      · simp only [hi, Bool.false_eq_true, if_false]
        exact ih' _

/-- Round `0` and round `1` look at different slots once there are two. -/
theorem succ_mod_ne {n x : Nat} (hn : 2 ≤ n) : (x + 1) % n ≠ x % n := fun h => by
  have := Nat.ModEq.add_left_cancel' x (n := n) (a := 1) (b := 0) h
  rw [Nat.ModEq, Nat.zero_mod, Nat.one_mod_eq_zero_iff] at this
  omega

theorem Peer.Ok.act_of_full (hp : p.Ok) (hf : (p.sessNum : Int) ≤ p.actSessNum) (hi : i < p.sessNum) :
    p.actSess.getD i false = true := by
  have hle := List.count_le_length true p.actSess
  have hall := (List.count_eq_length (a := true)).mp
    (by have := hp.count; rw [hp.length_actSess] at hle ⊢; omega)
  have hi' : i < p.actSess.length := hp.length_actSess ▸ hi
  simpa [List.getD_eq_getElem?_getD, List.getElem?_eq_getElem hi'] using
    (hall _ (List.getElem_mem hi')).symm

/-- A peer with an active slot has a first one in the loop's order from any cursor. -/
theorem Peer.Ok.exists_first_active (hp : p.Ok) (nsi : Nat) (ha : 1 ≤ p.actSessNum) :
    ∃ j < p.sessNum, p.actSess.getD ((nsi + j) % p.sessNum) false = true ∧
      ∀ k < j, p.actSess.getD ((nsi + k) % p.sessNum) false = false := by
  obtain ⟨s, hs, hst⟩ : ∃ s < p.sessNum, p.actSess.getD s false = true := by
    have : true ∈ p.actSess := List.count_pos_iff.mp (by have := hp.count; omega)
    obtain ⟨s, hs, he⟩ := List.getElem_of_mem this
    exact ⟨s, hp.length_actSess ▸ hs, by simp [List.getD_eq_getElem?_getD, hs, he]⟩
  have hex : ∃ j, j < p.sessNum ∧ p.actSess.getD ((nsi + j) % p.sessNum) false = true := by
    refine ⟨(s + p.sessNum - nsi % p.sessNum) % p.sessNum, Nat.mod_lt _ hp.pos, ?_⟩
    have hdiv := Nat.mod_add_div nsi p.sessNum
    have hlt := Nat.mod_lt nsi hp.pos
    rw [Nat.add_mod_mod, show nsi + (s + p.sessNum - nsi % p.sessNum) =
      s + p.sessNum * (nsi / p.sessNum + 1) by rw [Nat.mul_add]; omega, Nat.add_mul_mod_self_left,
      Nat.mod_eq_of_lt hs, hst]
  classical
  refine ⟨Nat.find hex, (Nat.find_spec hex).1, (Nat.find_spec hex).2, fun k hk => ?_⟩
  have := Nat.find_min hex hk
  simp only [not_and, Bool.not_eq_true] at this
  exact this (hk.trans (Nat.find_spec hex).1)

/-- With every slot active and the first one rotating, the loop retires it and breaks at the next. -/
theorem Peer.scan_eq_of_rotate (hp : p.Ok) (hrem : rem = p.sessNum)
    (hfull : (p.sessNum : Int) ≤ p.actSessNum) (hsess : p.sess.getD (nsi % p.sessNum) none = some a)
    (hrot : p.Rotates reqCnt a) {b : Nat} (hsess1 : p.sess.getD ((nsi + 1) % p.sessNum) none = some b) :
    Peer.scan reqCnt nsi rem 0 p none [] =
      ⟨p.deactivate (nsi % p.sessNum), some b, 1, (nsi + 1) % p.sessNum, [a]⟩ := by
  have h2 := hp.thr hrot.1
  cases rem with
  | zero => exact absurd hrem (by have := hp.pos; omega)
  | succ rem =>
    have hact := hp.act_of_full hfull (Nat.mod_lt nsi hp.pos)
    simp only [Peer.scan, Nat.add_zero, hsess, hact, if_true, hrot, List.nil_append]
    have hle := List.count_le_length true p.actSess
    have := @Peer.scan_eq_of_first (p.deactivate (nsi % p.sessNum)) reqCnt nsi rem 1 1 b none [a]
      (by simp; omega) le_rfl (by simp; omega) (fun k hk hk' => by omega)
      (by
        rw [Peer.sessNum_deactivate, Peer.getD_actSess_deactivate,
          hp.act_of_full hfull (Nat.mod_lt _ hp.pos)]
        simpa using (succ_mod_ne h2).symm)
      (by simpa using hsess1)
      (fun h => by
        have h3 := h.2.2
        simp only [Peer.sessNum_deactivate, Peer.actSessNum_deactivate, hact, if_true] at h3
        have := hp.count
        rw [hp.length_actSess] at hle
        omega)
    simpa using this

theorem Peer.sendRequest_of_live (reqCnt : Nat → Nat) (ht : p.isTerminated = 0) :
    p.sendRequest reqCnt = some { Peer.scan reqCnt p.nextSessIdx p.sessNum 0 p none [] with
      peer := { (Peer.scan reqCnt p.nextSessIdx p.sessNum 0 p none []).peer with
        nextSessIdx :=
          (p.nextSessIdx + (Peer.scan reqCnt p.nextSessIdx p.sessNum 0 p none []).i + 1) %
            p.sessNum } } := by
  simp [Peer.sendRequest, ht]

theorem Peer.Ok.actSessNum_le (hp : p.Ok) : p.actSessNum ≤ p.sessNum := by
  have := List.count_le_length true p.actSess
  rw [hp.length_actSess] at this
  rw [hp.count]
  exact_mod_cast this

/-- On a live peer with an active slot the request goes to an active slot's session; at most one
session retires, and only while all of at least two slots are active. -/
theorem Peer.sendRequest_active (reqCnt : Nat → Nat) (hp : p.Ok) (ht : p.isTerminated = 0)
    (ha : 1 ≤ p.actSessNum) :
    ∃ o a, p.sendRequest reqCnt = some o ∧ o.sess = some a ∧ o.si < p.sessNum ∧
      o.peer.sess.getD o.si none = some a ∧ o.peer.actSess.getD o.si false = true ∧
      o.terminated.length ≤ 1 ∧ o.peer.actSessNum = p.actSessNum - o.terminated.length ∧
      ∀ b ∈ o.terminated, p.actSessNum = p.sessNum ∧ 2 ≤ p.sessNum ∧
        0 < p.reqThrForReconn ∧ p.reqThrForReconn ≤ reqCnt b := by
  obtain ⟨j, hjn, hact, hmin⟩ := hp.exists_first_active p.nextSessIdx ha
  obtain ⟨a, hsess⟩ := Option.ne_none_iff_exists'.mp (hp.sess_of_act _ hact)
  rw [Peer.sendRequest_of_live reqCnt ht]
  by_cases hrot : p.Rotates reqCnt a
  · -- every slot is active: the first one is retired and the next one taken
    have hfull := hrot.2.2
    have h2 := hp.thr hrot.1
    have hj : j = 0 := by
      by_contra hj
      have := hmin 0 (by omega)
      rw [hp.act_of_full hfull (Nat.mod_lt _ hp.pos)] at this
      exact absurd this (by decide)
    subst hj
    have hact1 := hp.act_of_full hfull (Nat.mod_lt (p.nextSessIdx + 1) hp.pos)
    obtain ⟨b, hsess1⟩ := Option.ne_none_iff_exists'.mp (hp.sess_of_act _ hact1)
    rw [Nat.add_zero] at hsess hact
    rw [Peer.scan_eq_of_rotate hp rfl hfull hsess hrot hsess1]
    refine ⟨_, b, rfl, rfl, Nat.mod_lt _ hp.pos, by simpa using hsess1, ?_, by simp, ?_, ?_⟩
    · dsimp only
      rw [Peer.getD_actSess_deactivate, hact1]
      simpa using (succ_mod_ne h2).symm
    · dsimp only
      rw [Peer.actSessNum_deactivate, hact]
      rfl
    · simpa using ⟨le_antisymm hp.actSessNum_le hfull, h2, hrot.1, hrot.2.1⟩
  · -- the first active slot is taken
    rw [Peer.scan_eq_of_first (by omega) (Nat.zero_le j) hjn (fun k _ hk => hmin k hk) hact hsess hrot]
    exact ⟨_, a, rfl, rfl, Nat.mod_lt _ hp.pos, hsess, hact, by simp, by simp, by simp⟩

theorem Peer.sendRequest_active_rotating :
    let p : Peer := (Peer.connect 2 1 [some 7, some 8]).getD (Peer.init 0 0)
    (p.Ok ∧ p.isTerminated = 0 ∧ 1 ≤ p.actSessNum) ∧
    ∃ o a, p.sendRequest (fun _ => 5) = some o ∧ o.sess = some a ∧ o.si < p.sessNum ∧
      o.peer.sess.getD o.si none = some a ∧ o.peer.actSess.getD o.si false = true ∧
      o.terminated.length ≤ 1 ∧ o.peer.actSessNum = p.actSessNum - o.terminated.length ∧
      ∀ b ∈ o.terminated, p.actSessNum = p.sessNum ∧ 2 ≤ p.sessNum ∧
        0 < p.reqThrForReconn ∧ p.reqThrForReconn ≤ 5 :=
  have hc : Peer.connect 2 1 [some 7, some 8] =
      some ((Peer.connect 2 1 [some 7, some 8]).getD (Peer.init 0 0)) := rfl
  have hp := Peer.connect_ok hc
  ⟨⟨hp, rfl, by decide⟩, Peer.sendRequest_active (fun _ => 5) hp rfl (by decide)⟩

end Pick

section Rank
variable {p : Peer} {c d s : Nat}

theorem Peer.activeSlots_succ :
    p.activeSlots (c + 1) = p.activeSlots c ++ if p.actSess.getD c false then [c] else [] := by
  simp only [Peer.activeSlots, List.range_succ, List.filter_append, List.filter_cons,
    List.filter_nil]

theorem Peer.length_activeSlots_succ :
    (p.activeSlots (c + 1)).length =
      (p.activeSlots c).length + if p.actSess.getD c false then 1 else 0 := by
  rw [Peer.activeSlots_succ, List.length_append]
  split <;> rfl

theorem Peer.length_activeSlots_of_inactive (hcd : c ≤ d)
    (h : ∀ x, c ≤ x → x < d → p.actSess.getD x false = false) :
    (p.activeSlots d).length = (p.activeSlots c).length := by
  induction d, hcd using Nat.le_induction with
  | base => rfl
  | succ d hcd ih =>
    rw [Peer.length_activeSlots_succ, h d hcd (by omega), ih fun x h1 h2 => h x h1 (by omega)]
    rfl

theorem Peer.length_activeSlots_mono (hcd : c ≤ d) :
    (p.activeSlots c).length ≤ (p.activeSlots d).length := by
  induction d, hcd using Nat.le_induction with
  | base => exact le_rfl
  | succ d _ ih => rw [Peer.length_activeSlots_succ]; omega

/-- An active slot is the entry of the active slots at its rank. -/
theorem Peer.getD_activeSlots (hs : p.actSess.getD s false = true) (hsn : s < d) :
    (p.activeSlots d).getD (p.activeSlots s).length 0 = s := by
  induction d, hsn using Nat.le_induction with
  | base =>
    rw [Peer.activeSlots_succ, hs, if_pos rfl, List.getD_append_right _ _ _ _ le_rfl, Nat.sub_self]
    rfl
  | succ d hd ih =>
    rw [Peer.activeSlots_succ, List.getD_append _ _ _ _, ih]
    exact (Peer.length_activeSlots_mono hd).trans_lt' (by rw [Peer.length_activeSlots_succ, hs]; simp)

/-- The first active slot from the cursor has rank that of the cursor, modulo the active count. -/
theorem Peer.Ok.rank_first_active (hp : p.Ok) {nsi j : Nat} (hjn : j < p.sessNum)
    (hact : p.actSess.getD ((nsi + j) % p.sessNum) false = true)
    (hmin : ∀ k < j, p.actSess.getD ((nsi + k) % p.sessNum) false = false) :
    (p.activeSlots ((nsi + j) % p.sessNum)).length =
      (p.activeSlots (nsi % p.sessNum)).length % (p.activeSlots p.sessNum).length := by
  have hc : nsi % p.sessNum < p.sessNum := Nat.mod_lt _ hp.pos
  simp only [← Nat.mod_add_mod nsi p.sessNum] at hact hmin ⊢
  generalize nsi % p.sessNum = c at hc hact hmin ⊢
  by_cases hwrap : c + j < p.sessNum
  · -- the slot is at or after the cursor
    rw [Nat.mod_eq_of_lt hwrap] at hact ⊢
    have heq := Peer.length_activeSlots_of_inactive (Nat.le_add_right c j) fun x h1 h2 => by
      have := hmin (x - c) (by omega)
      rwa [Nat.add_sub_cancel' h1, Nat.mod_eq_of_lt (by omega)] at this
    have hlt : (p.activeSlots (c + j)).length < (p.activeSlots p.sessNum).length :=
      (Peer.length_activeSlots_mono hwrap).trans_lt'
        (by rw [Peer.length_activeSlots_succ, hact]; simp)
    rw [heq, Nat.mod_eq_of_lt (heq ▸ hlt)]
  · -- the loop wrapped past the last slot
    have hmod : (c + j) % p.sessNum = c + j - p.sessNum := by
      rw [Nat.mod_eq_sub_mod (by omega), Nat.mod_eq_of_lt (by omega)]
    rw [hmod] at hact ⊢
    have hbelow := Peer.length_activeSlots_of_inactive (p := p) (Nat.zero_le (c + j - p.sessNum))
      fun x _ h2 => by
        have := hmin (x + p.sessNum - c) (by omega)
        rwa [show c + (x + p.sessNum - c) = x + p.sessNum by omega, Nat.add_mod_right,
          Nat.mod_eq_of_lt (by omega)] at this
    have habove := Peer.length_activeSlots_of_inactive (p := p) (d := p.sessNum) hc.le
      fun x h1 h2 => by
        have := hmin (x - c) (by omega)
        rwa [Nat.add_sub_cancel' h1, Nat.mod_eq_of_lt h2] at this
    rw [hbelow, habove, Nat.mod_self]
    rfl

/-- The cursor left after taking slot `s` has for rank the next one, cyclically. -/
theorem Peer.rank_succ (hs : p.actSess.getD s false = true) (hsn : s < p.sessNum) :
    (p.activeSlots ((s + 1) % p.sessNum)).length % (p.activeSlots p.sessNum).length =
      ((p.activeSlots s).length + 1) % (p.activeSlots p.sessNum).length := by
  have hsucc : (p.activeSlots (s + 1)).length = (p.activeSlots s).length + 1 := by
    rw [Peer.length_activeSlots_succ, hs]; rfl
  rcases Nat.lt_or_ge (s + 1) p.sessNum with h | h
  · rw [Nat.mod_eq_of_lt h, hsucc]
  · have hn : s + 1 = p.sessNum := by omega
    rw [hn, Nat.mod_self, ← hsucc, hn, Nat.mod_self]
    rfl

@[simp] theorem Peer.activeSlots_with_nextSessIdx (x : Nat) :
    ({ p with nextSessIdx := x }).activeSlots c = p.activeSlots c := rfl

theorem Peer.Ok.actSessNum_eq_length (hp : p.Ok) :
    p.actSessNum = (p.activeSlots p.sessNum).length := by
  rw [hp.count, count_true_eq_length_filter, hp.length_actSess]
  rfl

/-- Without rotation, `h2_peer_send_request` takes the active slot of the cursor's rank. -/
theorem Peer.Ok.sendRequest_of_noRotate (hp : p.Ok) {reqCnt : Nat → Nat}
    (hA : p.activeSlots p.sessNum ≠ [])
    (hno : ∀ a, p.sess.getD ((p.activeSlots p.sessNum).getD
      ((p.activeSlots (p.nextSessIdx % p.sessNum)).length % (p.activeSlots p.sessNum).length) 0) none = some a →
      ¬ p.Rotates reqCnt a) :
    ∃ o, p.sendRequest reqCnt = some o ∧
      o.peer = { p with nextSessIdx := (o.si + 1) % p.sessNum } ∧ o.si < p.sessNum ∧
      p.actSess.getD o.si false = true ∧
      (p.activeSlots o.si).length =
        (p.activeSlots (p.nextSessIdx % p.sessNum)).length % (p.activeSlots p.sessNum).length := by
  have ha : 1 ≤ p.actSessNum := by
    rw [hp.actSessNum_eq_length]
    exact_mod_cast List.length_pos.mpr hA
  have ht : p.isTerminated = 0 := by
    by_contra h
    obtain ⟨x, hx⟩ := List.exists_mem_of_ne_nil _ hA
    have := (List.mem_filter.mp hx).2
    rw [hp.inactive_of_terminated h] at this
    exact Bool.false_ne_true this
  obtain ⟨j, hjn, hact, hmin⟩ := hp.exists_first_active p.nextSessIdx ha
  obtain ⟨a, hsess⟩ := Option.ne_none_iff_exists'.mp (hp.sess_of_act _ hact)
  have hrank := hp.rank_first_active hjn hact hmin
  have hslot : (p.activeSlots p.sessNum).getD
      ((p.activeSlots (p.nextSessIdx % p.sessNum)).length % (p.activeSlots p.sessNum).length) 0 =
        (p.nextSessIdx + j) % p.sessNum := by
    rw [← hrank, Peer.getD_activeSlots hact (Nat.mod_lt _ hp.pos)]
  rw [Peer.sendRequest_of_live reqCnt ht, Peer.scan_eq_of_first (by omega) (Nat.zero_le j) hjn
    (fun k _ hk => hmin k hk) hact hsess (hno a (hslot ▸ hsess))]
  refine ⟨_, rfl, ?_, Nat.mod_lt _ hp.pos, hact, hrank⟩
  simp only [Nat.mod_add_mod]

/-- Without rotation, `K` calls take the active slots cyclically from the cursor's rank. -/
theorem Peer.Ok.sendRequests_si (reqCnts : Nat → Nat → Nat) (K : Nat) (hp : p.Ok)
    (hA : p.activeSlots p.sessNum ≠ [])
    (hno : ∀ k < K, ∀ a, p.sess.getD ((p.activeSlots p.sessNum).getD
      (((p.activeSlots (p.nextSessIdx % p.sessNum)).length + k) % (p.activeSlots p.sessNum).length) 0) none =
        some a → ¬ p.Rotates (reqCnts k) a) :
    (p.sendRequests reqCnts K).map (Option.map PeerSend.si) =
      (List.range K).map fun k => some ((p.activeSlots p.sessNum).getD
        (((p.activeSlots (p.nextSessIdx % p.sessNum)).length + k) %
          (p.activeSlots p.sessNum).length) 0) := by
  induction K generalizing reqCnts p with
  | zero => rfl
  | succ K ih =>
    obtain ⟨o, ho, hpeer, hsn, hact, hrank⟩ := hp.sendRequest_of_noRotate hA (hno 0 K.succ_pos)
    -- the cursor past the slot taken has the next rank
    have hcur : ∀ k, ((p.activeSlots ((o.si + 1) % p.sessNum % p.sessNum)).length + k) %
        (p.activeSlots p.sessNum).length =
          ((p.activeSlots (p.nextSessIdx % p.sessNum)).length + (k + 1)) % (p.activeSlots p.sessNum).length :=
      fun k => by
        rw [Nat.mod_mod, ← Nat.mod_add_mod, Peer.rank_succ hact hsn, Nat.mod_add_mod, hrank, Nat.add_assoc,
          Nat.mod_add_mod, Nat.add_comm 1 k]
    have htail := ih (fun k => reqCnts (k + 1)) (hp.with_nextSessIdx ((o.si + 1) % p.sessNum)) hA
      fun k hk a => by
        simp only [Peer.activeSlots_with_nextSessIdx, hcur]
        exact hno (k + 1) (by omega) a
    simp only [Peer.sendRequests, ho, Option.map_some', Option.getD_some, hpeer, List.map_cons,
      List.range_succ_eq_map, List.map_map, Peer.activeSlots_with_nextSessIdx] at htail ⊢
    refine congrArg₂ List.cons ?_ (htail.trans (List.map_congr_left fun k _ => ?_))
    · rw [Nat.add_zero, ← hrank, Peer.getD_activeSlots hact hsn]
    · simp only [Function.comp_apply, hcur]

end Rank

section Count
variable {m r t v K : Nat}

theorem count_map_range {α : Type} [BEq α] [LawfulBEq α] (f : Nat → α) (b : α) (P : Nat → Prop)
    [DecidablePred P] (hP : ∀ k, f k = b ↔ P k) (K : Nat) :
    ((List.range K).map f).count b = Nat.count P K := by
  induction K with
  | zero => rfl
  | succ K ih =>
    rw [List.range_succ, List.map_append, List.count_append, ih, Nat.count_succ]
    by_cases h : P K <;> simp [h, hP, List.count_singleton]

/-- Round `k` from rank `r` lands on rank `t` exactly when `k` has the residue `t - r`. -/
theorem add_mod_eq_iff_modEq (hm : 0 < m) (ht : t < m) :
    (r + k) % m = t ↔ k ≡ t + m - r % m [MOD m] := by
  have hr : r + (t + m - r % m) ≡ t [MOD m] := by
    have := Nat.mod_add_div r m
    have := Nat.mod_lt r hm
    show _ % m = t % m
    rw [show r + (t + m - r % m) = t + m * (r / m + 1) by rw [Nat.mul_add]; omega,
      Nat.add_mul_mod_self_left]
  constructor
  · intro h
    exact Nat.ModEq.add_left_cancel' r
      ((show r + k ≡ t [MOD m] from h.trans (Nat.mod_eq_of_lt ht).symm).trans hr.symm)
  · intro h
    exact Eq.trans ((Nat.ModEq.add_left r h).trans hr) (Nat.mod_eq_of_lt ht)

/-- Among `K` consecutive rounds, a residue modulo `m` comes `⌊K/m⌋` or `⌈K/m⌉` times. -/
theorem count_modEq_bounds (hm : 0 < m) :
    K / m ≤ Nat.count (· ≡ v [MOD m]) K ∧ Nat.count (· ≡ v [MOD m]) K ≤ (K + m - 1) / m := by
  rw [Nat.count_modEq_card K hm v]
  refine ⟨Nat.le_add_right _ _, ?_⟩
  split_ifs with h
  · rw [Nat.le_div_iff_mul_le hm, Nat.add_mul, Nat.one_mul, Nat.mul_comm]
    have := Nat.mod_add_div K m
    omega
  · exact Nat.div_le_div_right (by omega)

theorem getD_inj_of_nodup {l : List Nat} (hl : l.Nodup) {x y : Nat} (hx : x < l.length)
    (hy : y < l.length) : l.getD x 0 = l.getD y 0 ↔ x = y := by
  rw [List.getD_eq_getElem _ _ hx, List.getD_eq_getElem _ _ hy]
  exact hl.getElem_inj_iff

end Count

/-- With the active slots fixed and no rotation, `K` calls take the active slots cyclically from the
first at or after the cursor, each `⌊K/|A|⌋` or `⌈K/|A|⌉` times. -/
theorem Peer.sendRequests_round_robin {p : Peer} (reqCnts : Nat → Nat → Nat) (K : Nat)
    (hp : p.Ok) (hA : p.activeSlots p.sessNum ≠ [])
    (hno : ∀ k < K, ∀ a, p.sess.getD ((p.activeSlots p.sessNum).getD
      (((p.activeSlots (p.nextSessIdx % p.sessNum)).length + k) % (p.activeSlots p.sessNum).length) 0) none =
        some a → ¬ p.Rotates (reqCnts k) a) :
    let A : List Nat := p.activeSlots p.sessNum
    let r0 : Nat := (p.activeSlots (p.nextSessIdx % p.sessNum)).length
    let picks : List (Option Nat) := (p.sendRequests reqCnts K).map (Option.map PeerSend.si)
    picks = (List.range K).map (fun k => some (A.getD ((r0 + k) % A.length) 0)) ∧
    ∀ s ∈ A, K / A.length ≤ picks.count (some s) ∧
      picks.count (some s) ≤ (K + A.length - 1) / A.length := by
  dsimp only
  have hpicks := hp.sendRequests_si reqCnts K hA hno
  refine ⟨hpicks, fun s hs => ?_⟩
  have hm : 0 < (p.activeSlots p.sessNum).length := List.length_pos.mpr hA
  have hsn : s < p.sessNum := List.mem_range.mp (List.mem_filter.mp hs).1
  have hact : p.actSess.getD s false = true := (List.mem_filter.mp hs).2
  have hrank : (p.activeSlots s).length < (p.activeSlots p.sessNum).length :=
    (Peer.length_activeSlots_mono hsn).trans_lt' (by rw [Peer.length_activeSlots_succ, hact]; simp)
  have hnd : (p.activeSlots p.sessNum).Nodup := (List.nodup_range _).filter _
  rw [hpicks, count_map_range _ _ (· ≡ (p.activeSlots s).length + (p.activeSlots p.sessNum).length -
    (p.activeSlots (p.nextSessIdx % p.sessNum)).length % (p.activeSlots p.sessNum).length
      [MOD (p.activeSlots p.sessNum).length]) fun k => by
    dsimp only
    rw [Option.some.injEq, ← add_mod_eq_iff_modEq hm hrank,
      ← getD_inj_of_nodup hnd (Nat.mod_lt _ hm) hrank, Peer.getD_activeSlots hact hsn]]
  exact count_modEq_bounds hm

theorem Peer.sendRequests_round_robin_gap :
    let p : Peer := (Peer.connect 3 0 [some 7, none, some 9]).getD (Peer.init 0 0)
    (p.Ok ∧ p.activeSlots p.sessNum ≠ [] ∧
      ∀ k < 5, ∀ a, p.sess.getD ((p.activeSlots p.sessNum).getD
        (((p.activeSlots (p.nextSessIdx % p.sessNum)).length + k) % (p.activeSlots p.sessNum).length) 0) none =
          some a → ¬ p.Rotates (fun _ => 0) a) ∧
    let A : List Nat := p.activeSlots p.sessNum
    let r0 : Nat := (p.activeSlots (p.nextSessIdx % p.sessNum)).length
    let picks : List (Option Nat) :=
      (p.sendRequests (fun _ _ => 0) 5).map (Option.map PeerSend.si)
    picks = (List.range 5).map (fun k => some (A.getD ((r0 + k) % A.length) 0)) ∧
    ∀ s ∈ A, 5 / A.length ≤ picks.count (some s) ∧
      picks.count (some s) ≤ (5 + A.length - 1) / A.length :=
  have hc : Peer.connect 3 0 [some 7, none, some 9] =
      some ((Peer.connect 3 0 [some 7, none, some 9]).getD (Peer.init 0 0)) := rfl
  have hp := Peer.connect_ok hc
  have hno : ∀ k < 5, ∀ a, _ → ¬ Peer.Rotates _ (fun _ => 0) a :=
    fun _ _ _ _ h => absurd h.1 (by decide)
  ⟨⟨hp, by decide, hno⟩, Peer.sendRequests_round_robin (fun _ _ => 0) 5 hp (by decide) hno⟩

end H2Sim
