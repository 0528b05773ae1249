import H2Sim.PollRun
import H2Sim.Failures
import H2Sim.SendTerm

/-! Why the poll build frees a session. The dispatch of a round frees a session after its
`h2_sess_recv` or `h2_sess_send` failed, or after a hang-up or an error event (lines
1837-1860); the failing routines record their tag in `close_reason` (the `Failures` module)
and the event branches set theirs, so the record of every session the dispatch frees says
why. Nothing else a round does writes the record of a session older than the round: the free
callbacks, the reconnects of a peer and the accepts only write the sessions they create. -/
namespace H2Sim

namespace Ctx

variable {b : Build} {c c' c'' : Ctx} {P : Nat → Prop} {a : Nat}

/-- `c'` has handed out no fewer addresses than `c`, and holds the record `c` holds for
every address `c` had handed out, but those `P` names. -/
def OldKept (c c' : Ctx) (P : Nat → Prop) : Prop :=
  c.fresh ≤ c'.fresh ∧ ∀ y < c.fresh, ¬ P y → c'.sess y = c.sess y

theorem OldKept.refl : c.OldKept c P := ⟨le_rfl, fun _ _ _ => rfl⟩

theorem OldKept.trans (h₁ : c.OldKept c' P) (h₂ : c'.OldKept c'' P) : c.OldKept c'' P :=
  ⟨h₁.1.trans h₂.1, fun y hy hP => (h₂.2 y (hy.trans_le h₁.1) hP).trans (h₁.2 y hy hP)⟩

theorem OldKept.mono (h : c.OldKept c' P) {Q : Nat → Prop} (hQ : ∀ y, P y → Q y) : c.OldKept c' Q :=
  ⟨h.1, fun y hy hq => h.2 y hy (mt (hQ y) hq)⟩

/-- A record written at an address `c` had not handed out. -/
theorem OldKept.update_ge (h : c.OldKept c' P) (ha : c.fresh ≤ a) (v : Option Sess) :
    c.OldKept { c' with sess := Function.update c'.sess a v } P :=
  ⟨h.1, fun y hy hP => (Function.update_noteq (hy.trans_le ha).ne _ _).trans (h.2 y hy hP)⟩

theorem OldKept.updSess_ge (h : c.OldKept c' P) (ha : c.fresh ≤ a) (f : Sess → Sess) :
    c.OldKept (c'.updSess a f) P :=
  h.update_ge ha _

theorem OldKept.close (h : c.OldKept c' P) (fd : Nat) : c.OldKept (c'.close fd) P := ⟨h.1, h.2⟩

theorem OldKept.updPeer (h : c.OldKept c' P) (p : Nat) (f : Peer → Peer) : c.OldKept (c'.updPeer p f) P :=
  ⟨h.1, h.2⟩

theorem OldKept.epollCtl (h : c.OldKept c' P) (e : EpollCtl) (ok : Bool) : c.OldKept (c'.epollCtl e ok).2 P := by
  obtain ⟨ep, he⟩ := @epollCtl_eq c' e ok
  rw [he]
  exact ⟨h.1, h.2⟩

theorem OldKept.sessFreeWith (h : c.OldKept c' P) {cb : Sess → Ctx → Ctx}
    (hcb : ∀ s (c₁ : Ctx), c₁.OldKept (cb s c₁) P) (a : Nat) : c.OldKept (c'.sessFreeWith cb a) P := by
  have h₁ : c.OldKept { c' with
      sessL := c'.sessL.unlink a, sessNum := c'.sessNum - 1, freed := c'.freed ++ [a] } P := ⟨h.1, h.2⟩
  exact (h₁.trans (hcb _ _)).close _

theorem OldKept.sessFreeBare (h : c.OldKept c' P) (a : Nat) : c.OldKept (c'.sessFreeBare a) P :=
  h.sessFreeWith (fun _ _ => .refl) a

/-- A routine of the connect path keeps the records older than `c`, and the session it
returns, if any, is one it created. -/
def NewOnly (c : Ctx) (r : Ctx × Option Nat) : Prop :=
  c.OldKept r.1 (fun _ => False) ∧ ∀ a, r.2 = some a → c.fresh ≤ a

theorem h2SessInitClient_newOnly (b : Build) (c : Ctx) (ssl : Bool) (fd : Nat) (ok : Bool) :
    c.NewOnly (c.h2SessInitClient b ssl fd ok) := by
  have h1 : c.OldKept { c with
      fresh := c.fresh + 1, sessL := c.sessL.insertHead 0 c.fresh, sessNum := c.sessNum + 1,
      sess := Function.update c.sess c.fresh (some { Sess.init false ssl c.httpVer with fd := fd }) }
      (fun _ => False) :=
    ⟨Nat.le_succ _, fun _ hy _ => Function.update_noteq hy.ne _ _⟩
  unfold h2SessInitClient
  dsimp only
  split_ifs
  · exact ⟨(h1.epollCtl _ _).sessFreeBare _, fun _ h => by cases h⟩
  · exact ⟨h1.epollCtl _ _, fun _ h => by cases h; exact le_rfl⟩
  · exact ⟨h1, fun _ h => by cases h; exact le_rfl⟩

theorem newOnly_ite (h : c.OldKept c' (fun _ => False)) (ha : c.fresh ≤ a) (Q : Prop) [Decidable Q] :
    c.NewOnly (if Q then (c'.sessFreeBare a, none) else (c', some a)) := by
  split
  · exact ⟨h.sessFreeBare a, fun _ h => by cases h⟩
  · exact ⟨h, fun _ h => by cases h; exact ha⟩

theorem h2SessClientStart_newOnly (b : Build) (c : Ctx) (t : ConnTry) (sock : Nat) :
    c.NewOnly (c.h2SessClientStart b t sock) := by
  unfold h2SessClientStart
  split
  · exact ⟨.refl, fun _ h => by cases h⟩
  · next ver _ =>
    obtain ⟨hK, hr⟩ := h2SessInitClient_newOnly b c t.tls.isSome sock t.epollOk
    split
    · next c1 heq => rw [heq] at hK; exact ⟨hK, fun _ h => by cases h⟩
    · next c1 a heq =>
      rw [heq] at hK hr
      rcases ver with _ | v
      · exact newOnly_ite hK (hr a rfl) _
      · exact newOnly_ite (hK.updSess_ge (hr a rfl) _) (hr a rfl) _

theorem h2Connect_newOnly (b : Build) (cb : FreeCb) (ts : List ConnTry) :
    ∀ c : Ctx, c.NewOnly (c.h2Connect b cb ts) := by
  induction ts with
  | nil => exact fun _ => ⟨.refl, fun _ h => by cases h⟩
  | cons t ts ih =>
    intro c
    unfold h2Connect
    split
    · exact ih c
    · next sock _ =>
      have hs : c.NewOnly (if t.connected then c.h2SessClientStart b t sock else (c, none)) := by
        split
        · exact h2SessClientStart_newOnly b c t sock
        · exact ⟨.refl, fun _ h => by cases h⟩
      obtain ⟨hK, hr⟩ := hs
      split
      · next c1 a heq =>
        rw [heq] at hK hr
        exact ⟨hK.updSess_ge (hr a rfl) _, fun _ h => by cases h; exact hr a rfl⟩
      · next c1 heq =>
        rw [heq] at hK
        obtain ⟨hK', hr'⟩ := ih (c1.close sock)
        exact ⟨(hK.close sock).trans hK', fun a h => (hK.close sock).1.trans (hr' a h)⟩

theorem connectCall_newOnly (b : Build) (c : Ctx) (cb : FreeCb) : c.NewOnly (c.connectCall b cb) :=
  let ⟨hK, hr⟩ := h2Connect_newOnly b cb (c.conns c.connCalls) { c with connCalls := c.connCalls + 1 }
  ⟨OldKept.trans (⟨le_rfl, fun _ _ _ => rfl⟩ : c.OldKept { c with connCalls := c.connCalls + 1 } _) hK, hr⟩

theorem OldKept.freeCbCall (h : c.OldKept c' P) (b : Build) (a : Nat) (s : Sess) :
    c.OldKept (c'.freeCbCall b a s) P := by
  unfold Ctx.freeCbCall peerSessFreeCb peerConnectSess
  split
  · exact h
  · exact h
  · split
    · exact h.updPeer _ _
    · exact (h.updPeer _ _).trans (((connectCall_newOnly b _ _).1.mono fun _ => False.elim).updPeer _ _)

/-- `h2_sess_free` writes no record: its callback only reconnects. -/
theorem OldKept.sessFree (h : c.OldKept c' P) (b : Build) (a : Nat) : c.OldKept (c'.sessFree b a) P :=
  h.sessFreeWith (fun s _ => OldKept.refl.freeCbCall b a s) a

theorem OldKept.h2SvrFree (h : c.OldKept c' P) (b : Build) (v : Nat) : c.OldKept (c'.h2SvrFree b v) P := by
  have h₁ : c.OldKept { c' with
      svrL := c'.svrL.unlink v, svrNum := c'.svrNum - 1, svrFreed := c'.svrFreed ++ [v] } P := ⟨h.1, h.2⟩
  unfold Ctx.h2SvrFree
  dsimp only
  split_ifs
  · have h₂ := (h₁.epollCtl ⟨c'.epollFd, .del, ((c'.svr v).getD ⟨-1, false, false⟩).acceptFd.toNat, false⟩
      true).close ((c'.svr v).getD ⟨-1, false, false⟩).acceptFd.toNat
    exact ⟨h₂.1, h₂.2⟩
  · exact ⟨h₁.1, h₁.2⟩
  · exact h₁

theorem OldKept.ite {Q : Prop} [Decidable Q] {x y : Ctx} (hx : c.OldKept x P) (hy : c.OldKept y P) :
    c.OldKept (if Q then x else y) P := by
  split
  exacts [hx, hy]

theorem OldKept.epollAdd (h : c.OldKept c' P) (e : EpollCtl) (ok : Bool) :
    c.OldKept (if b = .epoll then c'.epollCtl e ok else (0, c')).2 P := by
  split
  exacts [h.epollCtl e ok, h]

theorem OldKept.fst_ite {Q : Prop} [Decidable Q] {x y : Ctx × Option Nat} (hx : c.OldKept x.1 P)
    (hy : c.OldKept y.1 P) : c.OldKept (if Q then x else y).1 P := by
  split
  exacts [hx, hy]

/-- The end of `h2_sess_init_server` on the session `a` it created. -/
theorem OldKept.serverStart (h : c.OldKept c' P) (ha : c.fresh ≤ a) (b : Build) (svr : Svr) (t : AcceptTry) :
    c.OldKept (c'.serverStart b svr t a).1 P := by
  have hu := h.updSess_ge ha
  unfold Ctx.serverStart
  -- the tests of lines 1416-1440 and of the TLS and TCP starts (lines 1291-1338), in order
  exact .fst_ite
    (.fst_ite (h.sessFree b a)
      (.fst_ite ((hu _).sessFree b a)
        (.fst_ite (.fst_ite ((hu _).updSess_ge ha _) (((hu _).updSess_ge ha _).sessFree b a))
          (.fst_ite ((hu _).sessFree b a) ((hu _).updSess_ge ha _)))))
    (.fst_ite (h.sessFree b a) h)

theorem OldKept.h2SessInitServer (h : c.OldKept c' P) (b : Build) (v fd : Nat) (t : AcceptTry) :
    c.OldKept (c'.h2SessInitServer b v fd t).1 P := by
  have h1 : c.OldKept { c' with
      fresh := c'.fresh + 1, sessL := c'.sessL.insertHead 0 c'.fresh, sessNum := c'.sessNum + 1,
      sess := Function.update c'.sess c'.fresh (some { Sess.init true false c'.httpVer with fd := fd }) } P :=
    ⟨h.1.trans (Nat.le_succ _), fun y hy hP => (Function.update_noteq (hy.trans_le h.1).ne _ _).trans (h.2 y hy hP)⟩
  have ha : c.fresh ≤ c'.fresh := h.1
  have hr := h1.epollAdd (b := b) ⟨c'.epollFd, .add, fd, false⟩ t.epollOk
  unfold Ctx.h2SessInitServer
  -- the EPOLL build's registration (line 1392), the accept callback (lines 1401-1413), the start
  exact .fst_ite (hr.h2SvrFree b v)
    (.fst_ite (hr.sessFree b _) ((OldKept.ite (hr.updSess_ge ha _) hr).serverStart ha b _ t))

theorem OldKept.acceptOn (h : c.OldKept c' P) (b : Build) (env : TickEnv) (v : Nat) :
    c.OldKept (c'.acceptOn b env v).1 P := by
  unfold Ctx.acceptOn
  split
  · exact h
  · exact h.h2SessInitServer b v _ _

theorem applyEpoll_sess (l : List EpollCtl) : (c.applyEpoll l).sess = c.sess := by
  obtain ⟨ep, he⟩ := applyEpoll_eq (c := c) l
  rw [he]

theorem applyEpoll_fresh (l : List EpollCtl) : (c.applyEpoll l).fresh = c.fresh := by
  obtain ⟨ep, he⟩ := applyEpoll_eq (c := c) l
  rw [he]

theorem sessCall_fresh (f : Sess → Int × Sess) : (c.sessCall a f).2.fresh = c.fresh :=
  applyEpoll_fresh _

theorem sessCall_sess (f : Sess → Int × Sess) : (c.sessCall a f).2.sess =
    Function.update c.sess a (some { (f { c.sessOf a with epollCtls := [] }).2 with epollCtls := [] }) :=
  applyEpoll_sess _

/-- A session routine writes the record of its own session only. -/
theorem OldKept.sessCall (h : c.OldKept c' (· = a)) (f : Sess → Int × Sess) :
    c.OldKept (c'.sessCall a f).2 (· = a) :=
  ⟨h.1.trans (sessCall_fresh f).ge, fun y hy hne => by
    rw [sessCall_sess, Function.update_noteq hne]
    exact h.2 y hy hne⟩

theorem OldKept.updSelf (h : c.OldKept c' (· = a)) (f : Sess → Sess) : c.OldKept (c'.updSess a f) (· = a) :=
  ⟨h.1, fun y hy hne => (Function.update_noteq hne _ _).trans (h.2 y hy hne)⟩

/-- The record at `a`, if there is one, has a close reason `T` admits. -/
def TaggedBy (T : CloseReason → Prop) (c : Ctx) (a : Nat) : Prop := ∀ s, c.sess a = some s → T s.closeReason

/-- The record at `a`, if there is one, says why the session was closed. -/
def Tagged (c : Ctx) (a : Nat) : Prop := c.TaggedBy (· ≠ .none) a

/-- A session routine that records a reason `T` admits whenever it fails. -/
def TagsFailureBy (T : CloseReason → Prop) (f : Sess → Int × Sess) : Prop :=
  ∀ s, (f s).1 < 0 → T (f s).2.closeReason

/-- A session routine that records a reason whenever it fails, as `h2_sess_recv` and
`h2_sess_send` do. -/
def TagsFailure (f : Sess → Int × Sess) : Prop := TagsFailureBy (· ≠ .none) f

section Tags

variable {T : CloseReason → Prop}

theorem TagsFailureBy.mono {T' : CloseReason → Prop} {f : Sess → Int × Sess} (h : TagsFailureBy T f)
    (hT : ∀ t, T t → T' t) : TagsFailureBy T' f :=
  fun s hn => hT _ (h s hn)

theorem OldKept.tagged (h : c.OldKept c' P) (ha : a < c.fresh) (hP : ¬ P a) (ht : c.TaggedBy T a) :
    c'.TaggedBy T a :=
  fun s hs => ht s ((h.2 a ha hP).symm.trans hs)

theorem sessCall_tagged {f : Sess → Int × Sess} (hf : TagsFailureBy T f) (hn : (c.sessCall a f).1 < 0) :
    (c.sessCall a f).2.TaggedBy T a := by
  intro s hs
  rw [sessCall_sess, Function.update_same, Option.some_inj] at hs
  rw [← hs]
  exact hf _ hn

/-- `h2_sess_free` keeps the tag its session's record holds. -/
theorem sessFree_tagged (ha : a < c.fresh) (ht : c.TaggedBy T a) : (c.sessFree b a).TaggedBy T a :=
  (OldKept.refl.sessFree b a).tagged (P := fun _ => False) ha id ht

theorem freeWith_tagged {r : CloseReason} (ha : a < c.fresh) (hr : T r) : (c.freeWith b r a).TaggedBy T a :=
  sessFree_tagged ha fun s hs => by
    simp only [updSess, Function.update_same, Option.map_eq_some'] at hs
    obtain ⟨s₀, -, rfl⟩ := hs
    exact hr

/-- What a session's events leave behind: the records older than `c` but `a`'s as they
were, and `a`'s tagged if the session was freed. -/
def SessOut (T : CloseReason → Prop) (c : Ctx) (a : Nat) (r : Ctx × List Act) : Prop :=
  c.OldKept r.1 (· = a) ∧ (a ∈ r.2.filterMap Act.free? → r.1.TaggedBy T a)

variable {bits : EvBits} {env : TickEnv} {acts : List Act}

theorem pollHupOn_out (hT : T .sockEof ∧ T .sockErr) (h : c.OldKept c' (· = a)) (ha : a < c.fresh)
    (hacts : acts.filterMap Act.free? = []) (rev : Nat) : c.SessOut T a (pollSess.pollHupOn b bits rev a c' acts) := by
  have ha' := ha.trans_le h.1
  unfold pollSess.pollHupOn
  split_ifs
  · exact ⟨(h.updSelf _).sessFree b a, fun _ => freeWith_tagged ha' hT.1⟩
  · exact ⟨(h.updSelf _).sessFree b a, fun _ => freeWith_tagged ha' hT.2⟩
  · exact ⟨h, fun hm => by rw [hacts] at hm; cases hm⟩

theorem pollSendOn_out (hT : T .sockEof ∧ T .sockErr) (hs : TagsFailureBy T env.send) (h : c.OldKept c' (· = a))
    (ha : a < c.fresh) (hacts : acts.filterMap Act.free? = []) (rev : Nat) :
    c.SessOut T a (pollSess.pollSendOn b bits env rev a c' acts) := by
  have hk := h.sessCall env.send
  have ht := sessCall_tagged (c := c') (a := a) hs
  unfold pollSess.pollSendOn
  rcases hr : c'.sessCall a env.send with ⟨n, c''⟩
  rw [hr] at hk ht
  by_cases hb : rev &&& cOr bits.out bits.inp ≠ 0
  · rw [if_pos hb]
    dsimp only
    split_ifs with hn
    · exact ⟨hk.sessFree b a, fun _ => sessFree_tagged (ha.trans_le hk.1) (ht hn)⟩
    · exact pollHupOn_out hT hk ha (by rw [List.filterMap_append, hacts]; rfl) rev
  · rw [if_neg hb]
    exact pollHupOn_out hT h ha hacts rev

/-- A session's events write only its own record, and leave it tagged if they free it. -/
theorem pollSess_out (hT : T .sockEof ∧ T .sockErr) (hr : TagsFailureBy T env.recv) (hs : TagsFailureBy T env.send)
    (ha : a < c.fresh) (rev : Nat) : c.SessOut T a (pollSess b bits env rev a c) := by
  have hk := OldKept.refl.sessCall (c := c) (a := a) env.recv
  have ht := sessCall_tagged (c := c) (a := a) hr
  unfold pollSess
  rcases hc : c.sessCall a env.recv with ⟨n, c'⟩
  rw [hc] at hk ht
  by_cases hb : rev &&& bits.inp ≠ 0
  · rw [if_pos hb]
    dsimp only
    split_ifs with hn
    · exact ⟨hk.sessFree b a, fun _ => sessFree_tagged (ha.trans_le hk.1) (ht hn)⟩
    · exact pollSendOn_out hT hs hk ha (rfl : [Act.recv a].filterMap Act.free? = []) rev
  · rw [if_neg hb]
    exact pollSendOn_out hT hs .refl ha (rfl : ([] : List Act).filterMap Act.free? = []) rev

/-- The sessions the entries stand for. -/
def entrySess (es : List (PollEntry × Nat)) : List Nat := (es.map Prod.fst).filterMap PollEntry.sess?

theorem entrySess_cons_svr {e : PollEntry} {v : Nat} (ho : e.obj = .svr v) (rev : Nat) (es : List (PollEntry × Nat)) :
    entrySess ((e, rev) :: es) = entrySess es :=
  List.filterMap_cons_none (by simp only [PollEntry.sess?, ho])

theorem entrySess_cons_sess {e : PollEntry} (ho : e.obj = .sess a) (rev : Nat) (es : List (PollEntry × Nat)) :
    entrySess ((e, rev) :: es) = a :: entrySess es :=
  List.filterMap_cons_some (by simp only [PollEntry.sess?, ho])

theorem acceptOn_frees (v : Nat) : (c.acceptOn b env v).2.filterMap Act.free? = [] := by
  unfold Ctx.acceptOn
  split <;> rfl

/-- What the dispatch leaves behind: the records older than `c` but those of the sessions
`xs` as they were, and every session it freed tagged. -/
def DispatchOut (T : CloseReason → Prop) (c : Ctx) (xs : List Nat) (r : Ctx × List Act) : Prop :=
  c.OldKept r.1 (· ∈ xs) ∧ ∀ x ∈ r.2.filterMap Act.free?, r.1.TaggedBy T x

/-- The dispatch over distinct, older sessions keeps the tag of each session it frees. -/
theorem pollDispatch_out (hT : T .sockEof ∧ T .sockErr) (hr : TagsFailureBy T env.recv)
    (hs : TagsFailureBy T env.send) (es : List (PollEntry × Nat)) :
    ∀ k (c : Ctx), (∀ y ∈ entrySess es, y < c.fresh) → (entrySess es).Nodup →
      c.DispatchOut T (entrySess es) (pollDispatch b bits env es k c) := by
  induction es with
  | nil => exact fun _ _ _ _ => ⟨.refl, fun _ hx => by simp [pollDispatch] at hx⟩
  | cons er es ih =>
    obtain ⟨e, rev⟩ := er
    intro k c hE hN
    rw [pollDispatch]
    cases ho : e.obj with
    | svr v =>
      rw [entrySess_cons_svr ho] at hE hN ⊢
      dsimp only
      split_ifs
      · exact ⟨.refl, fun _ hx => by simp at hx⟩
      · exact ih k c hE hN
      · have hk : c.OldKept (c.acceptOn b env v).1 (· ∈ entrySess es) := OldKept.refl.acceptOn b env v
        obtain ⟨hK, hT⟩ := ih (k - 1) _ (fun y hy => (hE y hy).trans_le hk.1) hN
        refine ⟨hk.trans hK, fun x hx => hT x ?_⟩
        rwa [List.filterMap_append, acceptOn_frees, List.nil_append] at hx
      · exact ih (k - 1) c hE hN
    | sess a =>
      rw [entrySess_cons_sess ho] at hE hN ⊢
      obtain ⟨ha, hN⟩ := List.nodup_cons.mp hN
      have hE' := fun y hy => hE y (List.mem_cons_of_mem a hy)
      dsimp only
      split_ifs
      · exact ⟨.refl, fun _ hx => by simp at hx⟩
      · obtain ⟨hK, hT⟩ := ih k c hE' hN
        exact ⟨hK.mono fun _ => List.mem_cons_of_mem a, hT⟩
      · have hso : c.SessOut T a (pollSess b bits env rev a c) :=
          pollSess_out hT hr hs (hE a (List.mem_cons_self a _)) rev
        obtain ⟨hk, ht⟩ := hso
        obtain ⟨hK, hT⟩ := ih (k - 1) _ (fun y hy => (hE' y hy).trans_le hk.1) hN
        refine ⟨(hk.mono fun _ hy => hy ▸ List.mem_cons_self a _).trans (hK.mono fun _ => List.mem_cons_of_mem a),
          fun x hx => ?_⟩
        rcases List.mem_append.mp (by rwa [List.filterMap_append] at hx) with hx | hx
        · obtain rfl : x = a := List.mem_singleton.mp ((pollSess_frees rev).subset hx)
          exact hK.tagged ((hE x (List.mem_cons_self x _)).trans_le hk.1) ha (ht hx)
        · exact hT x hx

/-- A round whose routines tag their failures frees only tagged sessions. -/
theorem pollRound_frees_tagged (hT : T .sockEof ∧ T .sockErr) (hr : TagsFailureBy T env.recv)
    (hs : TagsFailureBy T env.send) {xs vs ps : List Nat} (h : c.Lists xs vs ps) (hsl : c.Slots (· ∈ xs) ps)
    (pr : PollRes) (alloced : Int) :
    ∀ x ∈ (c.pollRound .poll bits env pr alloced).acts.filterMap Act.free?,
      (c.pollRound .poll bits env pr alloced).ctx.TaggedBy T x := by
  obtain ⟨xs', h1, -, -, h4, h5⟩ := fill_inv (b := .poll) bits h hsl
  unfold pollRound
  dsimp only
  split_ifs
  · exact fun _ hx => by simp at hx
  · cases pr with
    | ready revs =>
      have hz : entrySess ((c.fill .poll bits).2.zip (revs ++ List.replicate (c.fill .poll bits).2.length 0)) =
          (c.fill .poll bits).2.filterMap PollEntry.sess? := by
        rw [entrySess, List.map_fst_zip _ _ (by simp)]
      exact (pollDispatch_out (b := .poll) hT hr hs _ (revs.countP (· ≠ 0)) _
        (fun y hy => h1.lt_fresh_sess (h4 y (hz ▸ hy))) (hz ▸ h5)).2
    | _ => exact fun _ hx => by simp at hx

end Tags

end Ctx

/-- The session routines a poll-build round calls (lines 1837, 1843): `h2_sess_recv` with the read
answer `rd s`, `h2_sess_send` with the answers `nets s`, and `accept()`. -/
def h2Env (b : Build) (hooks : Hooks) (junk : Nat → UInt8) (memRecv : Codec → List UInt8 → Int × Codec)
    (rd : Sess → RdRet) (bufSize cap : Nat) (nets : Sess → Nat → Net)
    (accept : Nat → Option (Nat × AcceptTry)) : TickEnv :=
  ⟨fun s => let o := h2SessRecv hooks junk memRecv (rd s) s; (o.1, o.2.1),
    fun s => let o := h2SessSend b bufSize cap (nets s) (s.sendBacklog + 1) 0 s ⟨[], []⟩; (o.1, o.2.1),
    accept⟩

/-- The reasons a round of the poll build frees a session with: the tags of `recvFailure`,
those of `sendFailure` in the poll build, and those of the hang-up and error branches. -/
def pollFreeTags : List CloseReason := [.sockErr, .sockEof, .sslErr, .nghttp2Err, .httpErr]

theorem ne_none_of_mem_pollFreeTags {t : CloseReason} (h : t ∈ pollFreeTags) : t ≠ .none := by
  rintro rfl
  exact absurd h (by decide)

theorem recvFailure_mem {v : HttpVer} {r : Int} {t : CloseReason} (h : recvFailure v r = some t) :
    t ∈ pollFreeTags := by
  unfold recvFailure at h
  split_ifs at h <;> cases h <;> decide

theorem sendFailure_poll_mem {r : Int} {t : CloseReason} (h : sendFailure .poll r = some t) :
    t ∈ pollFreeTags := by
  unfold sendFailure at h
  split_ifs at h with _ _ _ h₄ <;> first | cases h; decide | exact absurd h₄.2 (by decide)

section Env

variable (b : Build) (hooks : Hooks) (junk : Nat → UInt8) (memRecv : Codec → List UInt8 → Int × Codec)
  (rd : Sess → RdRet) (bufSize cap : Nat) (nets : Sess → Nat → Net) (accept : Nat → Option (Nat × AcceptTry))

theorem h2Env_recv_tags : Ctx.TagsFailureBy (· ∈ pollFreeTags) (h2Env b hooks junk memRecv rd bufSize cap nets accept).recv :=
  fun _ hn => recvFailure_mem (h2SessRecv_failed hn)

theorem h2Env_poll_send_tags :
    Ctx.TagsFailureBy (· ∈ pollFreeTags) (h2Env .poll hooks junk memRecv rd bufSize cap nets accept).send :=
  fun s hn => sendFailure_poll_mem (h2SessSend_failed (nets s) _ 0 s _ hn)

end Env

namespace Ctx

variable {c : Ctx} {ver : HttpVer} {fd : Nat} {conns : Nat → List ConnTry}

end Ctx

end H2Sim
