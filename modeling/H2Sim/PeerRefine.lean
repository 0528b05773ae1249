import H2Sim.CtxInv
import H2Sim.Tick
import Mathlib.Logic.Relation

/-! The context refines the peer model. Each routine of the context changes a peer's record
only as a run of `Peer.step` events would: `h2_peer_send_request` and `h2_peer_terminate` by
their own event, a session free by `peer_sess_free_cb` with what its reconnect's `h2_connect`
returned. The two exceptions are the record `h2_peer_connect` builds, which is what
`Peer.connect` returns for the answers its connects got, and the record `h2_peer_free` clears,
which leaves the live peers. -/
namespace H2Sim

/-- A run of peer events. -/
def PeerRun : Peer → Peer → Prop := Relation.ReflTransGen fun p p' => ∃ e, p' = p.step e

theorem PeerRun.single {p : Peer} (e : PeerEv) : PeerRun p (p.step e) := .single ⟨e, rfl⟩

theorem PeerReach.run {p p' : Peer} (h : PeerReach p) (hr : PeerRun p p') : PeerReach p' := by
  induction hr with
  | refl => exact h
  | tail _ he ih => obtain ⟨e, rfl⟩ := he; exact ih.step e

namespace Ctx

variable {b : Build} {bits : EvBits} {env : TickEnv} {c c' c'' : Ctx} {xs vs ps : List Nat}
  {a p i : Nat} {f g : Peer → Peer}

/-- From `c` to `c'` every peer's record moved by a run of peer events. -/
def PeersRun (c c' : Ctx) : Prop := ∀ q, PeerRun (c.peerOf q) (c'.peerOf q)

theorem PeersRun.of_peer (e : c'.peer = c.peer) : PeersRun c c' := fun q => by
  unfold peerOf; rw [e]; exact .refl

theorem PeersRun.trans (h1 : PeersRun c c') (h2 : PeersRun c' c'') : PeersRun c c'' :=
  fun q => (h1 q).trans (h2 q)

/-- A run from a context with the same peers. -/
theorem PeersRun.of_left (h : PeersRun c' c'') (e : c'.peer = c.peer) : PeersRun c c'' :=
  (of_peer e).trans h

/-- Both branches of a routine's `if` run the peers. -/
theorem PeersRun.ite {q : Prop} [Decidable q] {x y : Ctx × Option Nat} (h₁ : PeersRun c x.1)
    (h₂ : PeersRun c y.1) : PeersRun c (if q then x else y).1 := by
  split <;> assumption

theorem PeersRun.updPeer (hf : PeerRun (c.peerOf p) (f (c.peerOf p))) :
    PeersRun c (c.updPeer p f) := fun q => by
  by_cases e : q = p
  · subst e
    cases hp : c.peer q with
    | none => simp only [peerOf, Ctx.updPeer, hp, Option.map_none', Function.update_same]; exact .refl
    | some r => rw [peerOf_updPeer_self (by simp [hp])]; exact hf
  · rw [peerOf_updPeer_ne e]; exact .refl

theorem updPeer_updPeer_peer : ((c.updPeer p f).updPeer p g).peer = (c.updPeer p (g ∘ f)).peer := by
  simp only [Ctx.updPeer, Function.update_same, Function.update_idem, Option.map_map]

theorem h2SessInitClient_peer (ssl : Bool) (fd : Nat) (ok : Bool) :
    (c.h2SessInitClient b ssl fd ok).1.peer = c.peer := by
  unfold h2SessInitClient
  dsimp only
  split_ifs
  · exact (epollCtl_frame _ _).2.1
  · exact (epollCtl_frame _ _).2.1
  · rfl

theorem h2SessClientStart_peer (t : ConnTry) (sock : Nat) :
    (c.h2SessClientStart b t sock).1.peer = c.peer := by
  have hi := h2SessInitClient_peer (b := b) (c := c) t.tls.isSome sock t.epollOk
  unfold h2SessClientStart
  split
  · rfl
  · next ver _ =>
    split
    · next heq => rw [heq] at hi; exact hi
    · next heq =>
      rw [heq] at hi
      rcases ver with _ | v <;> dsimp only <;> split_ifs <;> exact hi

theorem h2Connect_peer (cb : FreeCb) (ts : List ConnTry) : (c.h2Connect b cb ts).1.peer = c.peer := by
  induction ts generalizing c with
  | nil => rfl
  | cons t ts ih =>
    unfold h2Connect
    split
    · exact ih
    · next sock _ =>
      have hs : (if t.connected then c.h2SessClientStart b t sock else (c, none)).1.peer = c.peer := by
        split
        · exact h2SessClientStart_peer t sock
        · rfl
      split
      · next heq => rw [heq] at hs; exact hs
      · next heq => rw [heq] at hs; exact ih.trans hs

theorem connectCall_peer (cb : FreeCb) : (c.connectCall b cb).1.peer = c.peer :=
  h2Connect_peer (c := { c with connCalls := c.connCalls + 1 }) cb _

/-- `peer_connect_sess` changes only the peer's record, by the slot's connect. -/
theorem peerConnectSess_peer : (c.peerConnectSess b p i).peer =
    (c.updPeer p fun pr => pr.connectSess i (c.connectCall b (.peer p)).2).peer := by
  simp only [peerConnectSess, Ctx.updPeer, connectCall_peer]

/-- `peer_connect_sess` once the peer's record was set to `pr`. -/
theorem peerConnectSess_updPeer (pr : Peer) : ((c.updPeer p fun _ => pr).peerConnectSess b p i).peer =
    (c.updPeer p fun _ => pr.connectSess i ((c.updPeer p fun _ => pr).connectCall b (.peer p)).2).peer := by
  rw [peerConnectSess_peer, updPeer_updPeer_peer]; rfl

/-- `peer_sess_free_cb` is the peer's session-free event. -/
theorem peerSessFreeCb_run (s : Sess) : PeersRun c (c.peerSessFreeCb b p a s) := by
  unfold peerSessFreeCb
  rcases hr : (c.peerOf p).sessFreed a s c.serviceFlag with ⟨pr, _ | i⟩
  · refine PeersRun.updPeer ?_
    have he : (c.peerOf p).step (.sessFree a s c.serviceFlag none) = pr := by
      simp only [Peer.step, Peer.sessFreeCb, hr]
    exact he ▸ PeerRun.single _
  · obtain ⟨res, hres⟩ : ∃ res, ((c.updPeer p fun _ => pr).connectCall b (.peer p)).2 = res :=
      ⟨_, rfl⟩
    have hc := peerConnectSess_updPeer (b := b) (c := c) (p := p) (i := i) pr
    rw [hres] at hc
    have he : (c.peerOf p).step (.sessFree a s c.serviceFlag res) = pr.connectSess i res := by
      simp only [Peer.step, Peer.sessFreeCb, hr]
    have h1 : PeersRun c (c.updPeer p fun _ => pr.connectSess i res) := .updPeer (he ▸ .single _)
    exact h1.trans (.of_peer hc)

theorem freeCbCall_run (s : Sess) : PeersRun c (c.freeCbCall b a s) := by
  unfold freeCbCall
  split
  · exact .of_peer rfl
  · exact .of_peer rfl
  · exact peerSessFreeCb_run s

theorem sessFree_run : PeersRun c (c.sessFree b a) :=
  .of_left (freeCbCall_run (c := { c with
    sessL := c.sessL.unlink a, sessNum := c.sessNum - 1, freed := c.freed ++ [a] }) (c.sessOf a)) rfl

theorem sessCall_run (f : Sess → Int × Sess) : PeersRun c (c.sessCall a f).2 := by
  obtain ⟨s, ep, he, -⟩ := sessCall_eq (c := c) (a := a) f
  exact .of_peer (by rw [he])

theorem freeWith_run (r : CloseReason) : PeersRun c (c.freeWith b r a) := .of_left sessFree_run rfl

theorem h2SvrFree_peer (v : Nat) : (c.h2SvrFree b v).peer = c.peer := by
  unfold h2SvrFree
  dsimp only
  split_ifs
  · exact (close_svr_frame _ _ _).2.1.trans (epollCtl_frame _ _).2.1
  · rfl
  · rfl

theorem serverStart_run (svr : Svr) (t : AcceptTry) : PeersRun c (c.serverStart b svr t a).1 := by
  unfold serverStart
  exact .ite (.ite (.of_left sessFree_run rfl) (.ite (.of_left sessFree_run rfl)
    (.ite (.ite (.of_peer rfl) (.of_left sessFree_run rfl)) (.ite (.of_left sessFree_run rfl) (.of_peer rfl)))))
    (.ite (.of_left sessFree_run rfl) (.of_peer rfl))

theorem epollCtl_ite_peer {q : Prop} [Decidable q] (e : EpollCtl) (ok : Bool) :
    (if q then c.epollCtl e ok else (0, c)).2.peer = c.peer := by
  split
  exacts [(epollCtl_frame e ok).2.1, rfl]

theorem h2SessInitServer_run (v fd : Nat) (t : AcceptTry) :
    PeersRun c (c.h2SessInitServer b v fd t).1 := by
  unfold h2SessInitServer
  exact .ite (.of_peer ((h2SvrFree_peer v).trans (epollCtl_ite_peer _ _)))
    (.ite (.of_left sessFree_run (epollCtl_ite_peer _ _))
      (.of_left (serverStart_run _ t) (by split <;> exact epollCtl_ite_peer _ _)))

theorem fillSess_run (fuel : Nat) (cur : Option Nat) (o : Ctx × List PollEntry) :
    PeersRun o.1 (fillSess b bits fuel cur o).1 := by
  induction fuel generalizing cur o with
  | zero => exact .of_peer rfl
  | succ fuel ih =>
    obtain ⟨c, es⟩ := o
    cases cur with
    | none => exact .of_peer rfl
    | some a =>
      rw [fillSess]
      split_ifs
      · exact (freeWith_run .httpEnd).trans (ih _ (c.freeWith b .httpEnd a, es))
      · exact ih _ (c, es ++ [_])

theorem pollHupOn_run (rev : Nat) (acts : List Act) :
    PeersRun c (pollSess.pollHupOn b bits rev a c acts).1 := by
  unfold pollSess.pollHupOn
  split_ifs
  · exact freeWith_run _
  · exact freeWith_run _
  · exact .of_peer rfl

theorem pollSendOn_run (rev : Nat) (acts : List Act) :
    PeersRun c (pollSess.pollSendOn b bits env rev a c acts).1 := by
  have h1 := sessCall_run (c := c) (a := a) env.send
  unfold pollSess.pollSendOn
  rcases hr : c.sessCall a env.send with ⟨n, c'⟩
  rw [hr] at h1
  by_cases hb : rev &&& cOr bits.out bits.inp ≠ 0
  · rw [if_pos hb]
    dsimp only
    split_ifs
    · exact h1.trans sessFree_run
    · exact h1.trans (pollHupOn_run rev _)
  · rw [if_neg hb]
    exact pollHupOn_run rev acts

theorem pollSess_run (rev : Nat) : PeersRun c (pollSess b bits env rev a c).1 := by
  have h1 := sessCall_run (c := c) (a := a) env.recv
  unfold pollSess
  rcases hr : c.sessCall a env.recv with ⟨n, c'⟩
  rw [hr] at h1
  by_cases hb : rev &&& bits.inp ≠ 0
  · rw [if_pos hb]
    dsimp only
    split_ifs
    · exact h1.trans sessFree_run
    · exact h1.trans (pollSendOn_run rev _)
  · rw [if_neg hb]
    exact pollSendOn_run rev []

theorem acceptOn_run (v : Nat) : PeersRun c (c.acceptOn b env v).1 := by
  unfold acceptOn
  split
  · exact .of_peer rfl
  · exact h2SessInitServer_run _ _ _

theorem pollDispatch_run (es : List (PollEntry × Nat)) (k : Nat) (c : Ctx) :
    PeersRun c (pollDispatch b bits env es k c).1 := by
  induction es generalizing c k with
  | nil => exact .of_peer rfl
  | cons er es ih =>
    obtain ⟨e, rev⟩ := er
    rw [pollDispatch]
    by_cases hk : k = 0
    · rw [if_pos hk]; exact .of_peer rfl
    rw [if_neg hk]
    cases e.obj with
    | svr v =>
      dsimp only
      split_ifs
      · exact ih k c
      · exact (acceptOn_run v).trans (ih _ _)
      · exact ih _ c
    | sess a =>
      dsimp only
      split_ifs
      · exact ih k c
      · exact (pollSess_run rev).trans (ih _ _)

theorem pollRound_run (pr : PollRes) (alloced : Int) :
    PeersRun c (c.pollRound b bits env pr alloced).ctx := by
  have hf : PeersRun c (c.fill b bits).1 := fillSess_run _ _ (c, _)
  unfold pollRound
  dsimp only
  split_ifs
  · exact hf
  · cases pr with
    | ready revs => exact hf.trans (pollDispatch_run _ _ _)
    | _ => exact hf

/-- `h2_peer_send_request` is the peer's request event. -/
theorem h2PeerSendRequest_run (ng : Codec → Option Codec) (send : Sess → Int × Sess) (p : Nat) :
    PeersRun c (c.h2PeerSendRequest b ng send p).1 := by
  unfold h2PeerSendRequest
  split
  · exact .of_peer rfl
  · next o ho =>
    have he : (c.peerOf p).step (.sendRequest fun a => (c.sessOf a).reqCnt) = o.peer := by
      simp only [Peer.step, ho, Option.map_some', Option.getD_some]
    have h2 := foldl_induct (P := PeersRun c)
      (fun (c : Ctx) a => (c.sessCall a fun s => h2SessTerminate b ng s true).2)
      (fun _ _ h => h.trans (sessCall_run _))
      o.terminated (c.updPeer p fun _ => o.peer) (.updPeer (he ▸ PeerRun.single _))
    dsimp only
    split
    · exact h2
    · exact h2.trans (sessCall_run _)

/-- `h2_peer_terminate` is the peer's terminate event. -/
theorem h2PeerTerminate_run (ng : Codec → Option Codec) (p : Nat) (w : Bool) :
    PeersRun c (c.h2PeerTerminate b ng p w).1 :=
  foldl_induct (P := PeersRun c) _ (fun _ s h => by
      split
      · exact h
      · exact h.trans (sessCall_run _))
    _ _ (.updPeer (PeerRun.single (.terminate w)))

/-- `h2_peer_free` moves every other peer's record by peer events. -/
theorem h2PeerFree_run (p : Nat) :
    ∀ q ≠ p, PeerRun (c.peerOf q) ((c.h2PeerFree b p).peerOf q) := by
  unfold h2PeerFree
  refine foldl_induct (P := fun c' => ∀ q ≠ p, PeerRun (c.peerOf q) (c'.peerOf q)) _
    (fun c' i h q hq => ?_) _ c fun q _ => .refl
  dsimp only
  split
  · exact h q hq
  · rw [peerOf_updPeer_ne hq]; exact (h q hq).trans (sessFree_run q)

/-- The slot loop of `h2_peer_connect` is `Peer.connect`'s fold and changes no other record. -/
theorem foldl_peerConnectSess (hp : (c.peer p).isSome) (n : Nat) :
    ∃ f : Nat → Option Nat,
      ((List.range n).foldl (fun (c : Ctx) i => c.peerConnectSess b p i) c).peer =
        Function.update c.peer p
          (some ((List.range n).foldl (fun pr i => pr.connectSess i (f i)) (c.peerOf p))) := by
  refine foldl_range_induct (R := fun k c' => ∃ f : Nat → Option Nat, c'.peer =
      Function.update c.peer p
        (some ((List.range k).foldl (fun pr i => pr.connectSess i (f i)) (c.peerOf p))))
    _ n ⟨fun _ => none, ?_⟩ fun k c' _ ⟨f, hf⟩ => ⟨Function.update f k (c'.connectCall b (.peer p)).2, ?_⟩
  · obtain ⟨r, hr⟩ := Option.isSome_iff_exists.mp hp
    rw [List.range_zero, List.foldl_nil, peerOf, hr, Option.getD_some, ← hr, Function.update_eq_self]
  · have he : (List.range k).foldl (fun pr i => pr.connectSess i
        (Function.update f k (c'.connectCall b (.peer p)).2 i)) (c.peerOf p) =
        (List.range k).foldl (fun pr i => pr.connectSess i (f i)) (c.peerOf p) :=
      List.foldl_ext _ _ _ fun _ i hi => by rw [Function.update_noteq (List.mem_range.mp hi).ne]
    rw [peerConnectSess_peer]
    simp only [Ctx.updPeer, hf, Function.update_same, Option.map_some', Function.update_idem,
      List.range_succ, List.foldl_append, List.foldl_cons, List.foldl_nil, he]

/-- `h2_peer_connect` returns a new peer with a record `Peer.connect` returns. -/
theorem h2PeerConnect_run (n : Nat) (thr : Int) :
    (∀ q ≠ c.fresh, PeerRun (c.peerOf q) ((c.h2PeerConnect b n thr).1.peerOf q)) ∧
      ∀ p, (c.h2PeerConnect b n thr).2 = some p →
        p = c.fresh ∧ ∃ res, Peer.connect n thr res = some ((c.h2PeerConnect b n thr).1.peerOf p) := by
  obtain ⟨f, hf⟩ := foldl_peerConnectSess (b := b) (p := c.fresh) (c := { c with
    fresh := c.fresh + 1, peerL := c.peerL.insertHead 0 c.fresh, peerNum := c.peerNum + 1,
    peer := Function.update c.peer c.fresh (some (Peer.init n thr)) }) (by simp) n
  have hold : ∀ (c' : Ctx) x, c'.peer = Function.update (Function.update c.peer c.fresh
      (some (Peer.init n thr))) c.fresh x → ∀ q ≠ c.fresh, c'.peerOf q = c.peerOf q :=
    fun c' x e q hq => by simp only [peerOf, e, Function.update_noteq hq]
  unfold h2PeerConnect
  dsimp only at hf ⊢
  generalize List.foldl _ _ (List.range n) = c' at hf ⊢
  have hnew : c'.peerOf c.fresh = (List.range n).foldl (fun pr i => pr.connectSess i (f i))
      (Peer.init n thr) := by
    simp only [peerOf, hf, Function.update_same, Option.getD_some]
  split_ifs with hact
  · exact ⟨fun q hq => hold c' _ hf q hq ▸ h2PeerFree_run c.fresh q hq, fun _ h => by cases h⟩
  · refine ⟨fun q hq => hold c' _ hf q hq ▸ .refl, fun p h => ?_⟩
    cases h
    refine ⟨rfl, (List.range n).map f, ?_⟩
    have hg : (List.range n).foldl (fun pr i => pr.connectSess i (((List.range n).map f).getD i none))
        (Peer.init n thr) = c'.peerOf c.fresh := by
      rw [hnew]
      exact List.foldl_ext _ _ _ fun _ i hi => by
        rw [List.getD_eq_getElem?_getD, List.getElem?_map, List.getElem?_range (List.mem_range.mp hi)]
        rfl
    unfold Peer.connect
    dsimp only
    rw [hg, if_neg hact]

/-- From `c` with live peers `ps` to `c'` with live peers `ps'`: each peer live after was live
before and its record moved by peer events, or is one `Peer.connect` returns. -/
def PeersRefine (c c' : Ctx) (ps ps' : List Nat) : Prop :=
  ∀ q ∈ ps', (q ∈ ps ∧ PeerRun (c.peerOf q) (c'.peerOf q)) ∨
    ∃ n thr res, Peer.connect n thr res = some (c'.peerOf q)

theorem PeersRun.refine (h : PeersRun c c') : PeersRefine c c' ps ps :=
  fun q hq => .inl ⟨hq, h q⟩

/-- The live peers stay ones the peer model reaches. -/
theorem PeersRefine.reach {ps' : List Nat} (h : PeersRefine c c' ps ps')
    (hp : ∀ q ∈ ps, PeerReach (c.peerOf q)) : ∀ q ∈ ps', PeerReach (c'.peerOf q) := fun q hq =>
  (h q hq).elim (fun ⟨hq, hr⟩ => (hp q hq).run hr) fun ⟨_, _, _, hc⟩ => .connect hc

theorem h2PeerFree_refine (h : c.Lists xs vs ps) (p : Nat) :
    PeersRefine c (c.h2PeerFree b p) ps (ps.erase p) := fun q hq => by
  obtain ⟨hne, hq⟩ := ((List.nodup_cons.mp h.peer.nodup).2.mem_erase_iff).mp hq
  exact .inl ⟨hq, h2PeerFree_run p q hne⟩

theorem h2PeerConnect_refine (h : c.Lists xs vs ps) (n : Nat) (thr : Int) :
    PeersRefine c (c.h2PeerConnect b n thr).1 ps ((c.h2PeerConnect b n thr).2.toList ++ ps) :=
  fun q hq => by
    obtain ⟨hold, hnew⟩ := h2PeerConnect_run (b := b) (c := c) n thr
    rcases List.mem_append.mp hq with hq | hq
    · obtain ⟨-, res, hres⟩ := hnew q (Option.mem_toList.mp hq)
      exact .inr ⟨n, thr, res, hres⟩
    · exact .inl ⟨hq, hold q (h.ne_fresh (by simp [hq]))⟩

end Ctx

end H2Sim
