import H2Sim.PollRun

/-! `h2_ctx_free` on a context keeping the invariant. The service flag is cleared first, so
no free callback reconnects a peer's slot: each loop empties its list, every session listed
before is freed, and none twice. -/
namespace H2Sim

namespace Ctx

variable {b : Build} {c : Ctx} {xs vs ps : List Nat} {a fuel : Nat}

theorem Peer.sessFreed_quiet (p : Peer) (st : Sess) : (p.sessFreed a st false).2 = none := by
  unfold Peer.sessFreed
  split
  · rfl
  · simp

/-- With the service flag cleared a free callback connects nothing. -/
theorem freeCbCall_quiet (hq : c.serviceFlag = false) (st : Sess) :
    (c.freeCbCall b a st).fresh = c.fresh ∧ (c.freeCbCall b a st).serviceFlag = false := by
  unfold freeCbCall
  split
  · exact ⟨rfl, hq⟩
  · exact ⟨rfl, hq⟩
  · next p _ =>
    unfold peerSessFreeCb
    rw [hq]
    rcases hr : (c.peerOf p).sessFreed a st false with ⟨pr, _ | i⟩
    · exact ⟨rfl, hq⟩
    · have := Peer.sessFreed_quiet (a := a) (c.peerOf p) st
      rw [hr] at this
      cases this

theorem sessFree_quiet (hq : c.serviceFlag = false) :
    (c.sessFree b a).fresh = c.fresh ∧ (c.sessFree b a).serviceFlag = false :=
  freeCbCall_quiet (c := { c with
    sessL := c.sessL.unlink a, sessNum := c.sessNum - 1, freed := c.freed ++ [a] }) hq _

/-- With the service flag cleared `h2_sess_free` of a listed session unlists it and adds none. -/
theorem sessFree_quiet_inv (hq : c.serviceFlag = false) (h : c.Lists xs vs ps)
    (hs : c.Slots (· ∈ xs) ps) (ha : a ∈ xs) :
    (c.sessFree b a).Lists (xs.erase a) vs ps ∧
      (c.sessFree b a).Slots (· ∈ xs.erase a) ps := by
  obtain ⟨new, hG⟩ := sessFree_grows (b := b) h hs ha
  obtain rfl : new = [] := List.eq_nil_iff_forall_not_mem.mpr fun y hy =>
    (hG.new_fresh y hy).not_lt
      ((sessFree_quiet hq).1 ▸ hG.lists.lt_fresh_sess (List.mem_append_left _ hy))
  exact ⟨hG.lists, hG.slots⟩

theorem h2PeerFree_quiet (hq : c.serviceFlag = false) (p : Nat) :
    (c.h2PeerFree b p).serviceFlag = false := by
  unfold h2PeerFree
  refine foldl_range_induct (R := fun _ c' => c'.serviceFlag = false) _ _ hq fun k c' _ hk => ?_
  dsimp only
  split
  · exact hk
  · exact (sessFree_quiet hk).2

theorem h2SvrFree_frame (v : Nat) :
    (c.h2SvrFree b v).freed = c.freed ∧ (c.h2SvrFree b v).serviceFlag = c.serviceFlag := by
  unfold h2SvrFree
  dsimp only
  split_ifs
  · obtain ⟨ep, he⟩ := epollCtl_eq (c := { c with
      svrL := c.svrL.unlink v, svrNum := c.svrNum - 1, svrFreed := c.svrFreed ++ [v] })
      ⟨c.epollFd, .del, ((c.svr v).getD ⟨-1, false, false⟩).acceptFd.toNat, false⟩ true
    rw [he]
    exact ⟨rfl, rfl⟩
  · exact ⟨rfl, rfl⟩
  · exact ⟨rfl, rfl⟩

/-- The listener loop empties the listener list and leaves the rest of the invariant. -/
theorem freeSvrs_inv (h : c.Lists xs vs ps) (hs : c.Slots (· ∈ xs) ps)
    (hf : vs.length ≤ fuel) :
    (freeSvrs b fuel c).Lists xs [] ps ∧ (freeSvrs b fuel c).Slots (· ∈ xs) ps ∧
      (freeSvrs b fuel c).freed = c.freed ∧ (freeSvrs b fuel c).serviceFlag = c.serviceFlag := by
  induction fuel generalizing c vs with
  | zero =>
    obtain rfl : vs = [] := List.length_eq_zero.mp (Nat.le_zero.mp hf)
    exact ⟨h, hs, rfl, rfl⟩
  | succ fuel ih =>
    rw [freeSvrs, h.svr.seg.next_head]
    cases vs with
    | nil => exact ⟨h, hs, rfl, rfl⟩
    | cons v vs =>
      obtain ⟨h1, hp, hse⟩ := h2SvrFree_lists (b := b) h (List.mem_cons_self v vs)
      obtain ⟨hfr, hfl⟩ := h2SvrFree_frame (b := b) (c := c) v
      rw [List.erase_cons_head] at h1
      obtain ⟨h2, hs2, hfr2, hfl2⟩ := ih h1 (hs.congr hp fun y _ => by simp only [sessOf, hse])
        (Nat.le_of_succ_le_succ hf)
      exact ⟨h2, hs2, hfr2.trans hfr, hfl2.trans hfl⟩

/-- The peer loop empties the peer list; each session listed before stays listed or is freed. -/
theorem freePeers_inv (hq : c.serviceFlag = false) (h : c.Lists xs vs ps)
    (hs : c.Slots (· ∈ xs) ps) (hf : ps.length ≤ fuel) :
    ∃ xs', (freePeers b fuel c).Lists xs' vs [] ∧ (freePeers b fuel c).Slots (· ∈ xs') [] ∧
      (∀ y ∈ xs, y ∈ xs' ∨ y ∈ (freePeers b fuel c).freed) ∧
      c.freed <+: (freePeers b fuel c).freed ∧ (freePeers b fuel c).serviceFlag = false := by
  induction fuel generalizing c xs ps with
  | zero =>
    obtain rfl : ps = [] := List.length_eq_zero.mp (Nat.le_zero.mp hf)
    exact ⟨xs, h, hs, (fun _ hy => .inl hy), List.prefix_refl _, hq⟩
  | succ fuel ih =>
    rw [freePeers, h.peer.seg.next_head]
    cases ps with
    | nil => exact ⟨xs, h, hs, (fun _ hy => .inl hy), List.prefix_refl _, hq⟩
    | cons p ps =>
      obtain ⟨xs1, h1, hs1, hy1, hf1⟩ := h2PeerFree_inv (b := b) h hs (List.mem_cons_self p ps)
      rw [List.erase_cons_head] at h1 hs1
      obtain ⟨xs2, h2, hs2, hy2, hf2, hq2⟩ := ih (h2PeerFree_quiet hq p) h1 hs1
        (Nat.le_of_succ_le_succ hf)
      refine ⟨xs2, h2, hs2, fun y hy => ?_, hf1.trans hf2, hq2⟩
      rcases hy1 y hy with hy | hy
      · exact hy2 y hy
      · exact .inr (hf2.subset hy)

/-- The session loop, the service flag cleared and no peer left, frees every listed session. -/
theorem freeSessions_inv (hq : c.serviceFlag = false) (h : c.Lists xs vs [])
    (hs : c.Slots (· ∈ xs) []) (hf : xs.length ≤ fuel) :
    (freeSessions b fuel c).Lists [] vs [] ∧
      (∀ y ∈ xs, y ∈ (freeSessions b fuel c).freed) ∧
      c.freed <+: (freeSessions b fuel c).freed := by
  induction fuel generalizing c xs with
  | zero =>
    obtain rfl : xs = [] := List.length_eq_zero.mp (Nat.le_zero.mp hf)
    exact ⟨h, (fun _ hy => by cases hy), List.prefix_refl _⟩
  | succ fuel ih =>
    rw [freeSessions, h.sess.seg.next_head]
    cases xs with
    | nil => exact ⟨h, (fun _ hy => by cases hy), List.prefix_refl _⟩
    | cons a xs =>
      have ha := List.mem_cons_self a xs
      obtain ⟨h1, hs1⟩ := sessFree_quiet_inv (b := b) hq h hs ha
      rw [List.erase_cons_head] at h1 hs1
      obtain ⟨h2, hy2, hf2⟩ := ih (sessFree_quiet hq).2 h1 hs1 (Nat.le_of_succ_le_succ hf)
      obtain ⟨_, hG⟩ := sessFree_grows (b := b) h hs ha
      refine ⟨h2, fun y hy => ?_, hG.freed.trans hf2⟩
      rcases List.mem_cons.mp hy with rfl | hy
      · exact hf2.subset (mem_freed_sessFree (b := b) h hs ha)
      · exact hy2 y hy

/-- `h2_ctx_free` empties and zeroes the three lists and frees each listed session once. -/
theorem h2CtxFree_inv (h : c.Lists xs vs ps) (hs : c.Slots (· ∈ xs) ps) :
    (c.h2CtxFree b).Lists [] [] [] ∧ ∀ y ∈ xs, y ∈ (c.h2CtxFree b).freed := by
  have h0 : ({ c with serviceFlag := false } : Ctx).Lists xs vs ps := h.of_shape rfl
  obtain ⟨h1, hs1, -, hq1⟩ := freeSvrs_inv (b := b) h0 (hs.congr rfl fun _ _ => rfl)
    (length_le_fresh h.svr.nodup fun x hx => h.lt_fresh x (by simp [hx]))
  obtain ⟨xs2, h2, hs2, hy2, -, hq2⟩ := freePeers_inv (b := b) hq1 h1 hs1
    (length_le_fresh h1.peer.nodup fun x hx => h1.lt_fresh x (by simp [hx]))
  obtain ⟨h3, hy3, hf3⟩ := freeSessions_inv (b := b) hq2 h2 hs2
    (length_le_fresh h2.sess.nodup fun _ hx => h2.lt_fresh_sess hx)
  have hy := fun y hy => (hy2 y hy).elim (hy3 y) (hf3.subset ·)
  unfold h2CtxFree
  dsimp only
  split_ifs
  · exact ⟨h3.of_shape rfl, hy⟩
  · exact ⟨h3, hy⟩

variable {ver : HttpVer} {fd : Nat} {conns : Nat → List ConnTry}

/-- In every run of the poll build, `h2_ctx_free` then empties the listener, peer and session
lists, their counts zero, and frees every session listed, none twice. -/
theorem pollReach_ctxFree (hr : PollReach ver fd conns c) :
    let c' := c.h2CtxFree .poll
    c'.sessL.DList 0 [] ∧ c'.svrL.DList 0 [] ∧ c'.peerL.DList 0 [] ∧
      c'.sessNum = 0 ∧ c'.svrNum = 0 ∧ c'.peerNum = 0 ∧ c'.freed.Nodup ∧
      ∀ a ∈ c.sessL.walk c.fresh (c.sessL.next 0), a ∈ c'.freed := by
  obtain ⟨xs, vs, ps, h, hs⟩ := Inv.reach hr
  obtain ⟨h', hy⟩ := h2CtxFree_inv (b := .poll) h hs
  rw [h.sess_walk]
  exact ⟨h'.sess, h'.svr, h'.peer, h'.sessNum, h'.svrNum, h'.peerNum, h'.freed_nodup, hy⟩

/-- After `h2_peer_free` leaves its reconnected session listed, `h2_ctx_free` frees it. -/
theorem pollReach_ctxFree_orphan :
    let c : Ctx := ({ Ctx.init .v1_1 3 (fun k => [⟨some (5 + k), true, none, true, true⟩]) with
      serviceFlag := true }.h2PeerConnect .poll 1 0).1.h2PeerFree .poll 1
    let c' := c.h2CtxFree .poll
    c'.sessL.DList 0 [] ∧ c'.svrL.DList 0 [] ∧ c'.peerL.DList 0 [] ∧
      c'.sessNum = 0 ∧ c'.svrNum = 0 ∧ c'.peerNum = 0 ∧ c'.freed.Nodup ∧
      ∀ a ∈ c.sessL.walk c.fresh (c.sessL.next 0), a ∈ c'.freed :=
  pollReach_ctxFree (.tail (.tail (.single (.flag _ true)) (.peerConnect _ 1 0))
    (.peerFree _ 1 (by decide)))

end Ctx

end H2Sim
