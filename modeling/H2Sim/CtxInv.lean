import H2Sim.Ctx

/-! The context's lists invariant: each of the three intrusive lists is well formed and
counted, every session is freed at most once and never while listed, and the slots of the
live peers hold listed sessions carrying the peer's free callback. Each constructor and
free of the file keeps it, in both builds. -/
namespace H2Sim

namespace Ctx

/-- The lists of `c` hold `xs` (sessions), `vs` (listeners) and `ps` (peers), each counted by
its `*_num`, at addresses handed out; `freed` holds each session once, none of them listed. -/
structure Lists (c : Ctx) (xs vs ps : List Nat) : Prop where
  sess : c.sessL.DList 0 xs
  svr : c.svrL.DList 0 vs
  peer : c.peerL.DList 0 ps
  sessNum : c.sessNum = xs.length
  svrNum : c.svrNum = vs.length
  peerNum : c.peerNum = ps.length
  lt_fresh : ∀ x ∈ xs ++ vs ++ ps ++ c.freed, x < c.fresh
  fresh_pos : 0 < c.fresh
  freed_nodup : c.freed.Nodup
  freed_out : ∀ x ∈ c.freed, x ∉ xs

/-- The slots of the live peers `ps` hold distinct sessions satisfying `live`, each with the
peer's `peer_sess_free_cb`; every other peer's slots are empty. -/
structure Slots (c : Ctx) (live : Nat → Prop) (ps : List Nat) : Prop where
  alloc : ∀ p ∈ ps, (c.peer p).isSome
  length : ∀ p ∈ ps, (c.peerOf p).sess.length = (c.peerOf p).sessNum
  live : ∀ p ∈ ps, ∀ i a, (c.peerOf p).sess.getD i none = some a →
    live a ∧ (c.sessOf a).freeCb = .peer p
  unique : ∀ p ∈ ps, ∀ i j a, (c.peerOf p).sess.getD i none = some a →
    (c.peerOf p).sess.getD j none = some a → i = j
  dead : ∀ p ∉ ps, ∀ i, (c.peerOf p).sess.getD i none = none

/-- The invariant: lists and slots. -/
def Inv (c : Ctx) : Prop := ∃ xs vs ps, c.Lists xs vs ps ∧ c.Slots (· ∈ xs) ps

variable {b : Build} {c c' : Ctx} {xs vs ps : List Nat} {live live' : Nat → Prop} {a x : Nat}

theorem Lists.ne_fresh (h : c.Lists xs vs ps) (hx : x ∈ xs ++ vs ++ ps ++ c.freed) : x ≠ c.fresh :=
  (h.lt_fresh x hx).ne

theorem Lists.lt_fresh_sess (h : c.Lists xs vs ps) (hx : x ∈ xs) : x < c.fresh :=
  h.lt_fresh x (by simp [hx])

/-- What `Lists` reads of a context. -/
def listShape (c : Ctx) : Links × Links × Links × Int × Int × Int × Nat × List Nat :=
  (c.sessL, c.svrL, c.peerL, c.sessNum, c.svrNum, c.peerNum, c.fresh, c.freed)

theorem Lists.of_shape (h : c.Lists xs vs ps) (e : c'.listShape = c.listShape) :
    c'.Lists xs vs ps := by
  simp only [listShape, Prod.mk.injEq] at e
  obtain ⟨h1, h2, h3, h4, h5, h6, h7, h8⟩ := e
  exact ⟨h1 ▸ h.sess, h2 ▸ h.svr, h3 ▸ h.peer, h4 ▸ h.sessNum, h5 ▸ h.svrNum, h6 ▸ h.peerNum,
    h7 ▸ h8 ▸ h.lt_fresh, h7 ▸ h.fresh_pos, h8 ▸ h.freed_nodup, h8 ▸ h.freed_out⟩

theorem fresh_freed_of_shape (e : c'.listShape = c.listShape) :
    c'.fresh = c.fresh ∧ c'.freed = c.freed := by
  simp only [listShape, Prod.mk.injEq] at e
  exact ⟨e.2.2.2.2.2.2.1, e.2.2.2.2.2.2.2⟩

theorem sessOf_update_ne {v : Option Sess} (hx : x ≠ a) :
    ({ c with sess := Function.update c.sess a v } : Ctx).sessOf x = c.sessOf x := by
  simp only [sessOf, Function.update_noteq hx]

theorem Slots.congr (h : c.Slots live ps) (hp : c'.peer = c.peer)
    (hs : ∀ a, live a → (c'.sessOf a).freeCb = (c.sessOf a).freeCb) : c'.Slots live ps := by
  have hq : ∀ p, c'.peerOf p = c.peerOf p := fun p => by simp only [peerOf, hp]
  refine ⟨fun p hp' => hp ▸ h.alloc p hp', fun p hp => ?_, fun p hp i a ha => ?_,
    fun p hp i j a => ?_, fun p hp i => ?_⟩
  · rw [hq]; exact h.length p hp
  · rw [hq] at ha
    obtain ⟨hl, hf⟩ := h.live p hp i a ha
    exact ⟨hl, (hs a hl).trans hf⟩
  · rw [hq]; exact h.unique p hp i j a
  · rw [hq]; exact h.dead p hp i

theorem Slots.mono (h : c.Slots live ps) (hL : ∀ a, live a → live' a) : c.Slots live' ps :=
  ⟨h.alloc, h.length, fun p hp i a ha => (h.live p hp i a ha).imp_left (hL a), h.unique, h.dead⟩

/-- The slots hold no session whose callback is not a peer's. -/
theorem Slots.not_slot (h : c.Slots live ps) (hf : ∀ p, (c.sessOf a).freeCb ≠ .peer p) (p i : Nat) :
    (c.peerOf p).sess.getD i none ≠ some a := fun ha => by
  by_cases hp : p ∈ ps
  · exact hf p (h.live p hp i a ha).2
  · rw [h.dead p hp i] at ha; cases ha

theorem epollCtl_eq (e : EpollCtl) (ok : Bool) :
    ∃ ep, (c.epollCtl e ok).2 = { c with epoll := ep } := by
  unfold epollCtl
  split
  · exact ⟨c.epoll, rfl⟩
  · split
    · split
      · exact ⟨c.epoll, rfl⟩
      · exact ⟨_, rfl⟩
    · split
      · exact ⟨_, rfl⟩
      · exact ⟨c.epoll, rfl⟩
    · split
      · exact ⟨_, rfl⟩
      · exact ⟨c.epoll, rfl⟩

/-- `epoll_ctl` changes none of what the invariant reads. -/
theorem epollCtl_frame (e : EpollCtl) (ok : Bool) : (c.epollCtl e ok).2.listShape = c.listShape ∧
    (c.epollCtl e ok).2.peer = c.peer ∧ (c.epollCtl e ok).2.sess = c.sess := by
  obtain ⟨ep, he⟩ := epollCtl_eq (c := c) e ok
  rw [he]
  exact ⟨rfl, rfl, rfl⟩

theorem applyEpoll_eq (l : List EpollCtl) : ∃ ep, c.applyEpoll l = { c with epoll := ep } := by
  induction l generalizing c with
  | nil => exact ⟨c.epoll, rfl⟩
  | cons e l ih =>
    obtain ⟨ep, he⟩ := epollCtl_eq (c := c) e true
    obtain ⟨ep', he'⟩ := ih (c := (c.epollCtl e true).2)
    exact ⟨ep', by rw [applyEpoll, List.foldl_cons, ← applyEpoll, he', he]⟩

theorem sessCall_eq (f : Sess → Int × Sess) : ∃ s ep, (c.sessCall a f).2 =
    { c with sess := Function.update c.sess a (some s), epoll := ep } ∧
      s.freeCb = (f { c.sessOf a with epollCtls := [] }).2.freeCb := by
  obtain ⟨ep, he⟩ := applyEpoll_eq (c := { c with
      sess := Function.update c.sess a
        (some (let o := (f { c.sessOf a with epollCtls := [] }).2; { o with epollCtls := [] })) })
    (f { c.sessOf a with epollCtls := [] }).2.epollCtls
  exact ⟨_, ep, he, rfl⟩

/-- A session routine that leaves `sess_free_cb` alone, as every routine of the file does. -/
def KeepsCb (f : Sess → Int × Sess) : Prop := ∀ s, (f s).2.freeCb = s.freeCb

theorem sessOf_sessCall_freeCb {f : Sess → Int × Sess} (hf : KeepsCb f) (y : Nat) :
    ((c.sessCall a f).2.sessOf y).freeCb = (c.sessOf y).freeCb := by
  obtain ⟨s, ep, he, hs⟩ := sessCall_eq (c := c) (a := a) f
  rw [he]
  by_cases hy : y = a
  · subst hy
    calc _ = s.freeCb := by simp only [sessOf, Function.update_same, Option.getD_some]
      _ = _ := by rw [hs, hf]
  · exact congrArg Sess.freeCb (sessOf_update_ne (c := { c with epoll := ep }) hy)

theorem Lists.sessCall (h : c.Lists xs vs ps) (f : Sess → Int × Sess) :
    (c.sessCall a f).2.Lists xs vs ps := by
  obtain ⟨s, ep, he, -⟩ := sessCall_eq (c := c) (a := a) f
  exact h.of_shape (by rw [he]; rfl)

theorem Slots.sessCall (h : c.Slots live ps) {f : Sess → Int × Sess} (hf : KeepsCb f) :
    (c.sessCall a f).2.Slots live ps := by
  obtain ⟨s, ep, he, -⟩ := sessCall_eq (c := c) (a := a) f
  exact h.congr (by rw [he]) fun y _ => sessOf_sessCall_freeCb hf y

theorem markSendPending_freeCb (s : Sess) : (s.markSendPending b).freeCb = s.freeCb := by
  unfold Sess.markSendPending
  split_ifs <;> rfl

theorem h2SessTerminate_freeCb (ng : Codec → Option Codec) (s : Sess) (w : Bool) :
    (h2SessTerminate b ng s w).2.freeCb = s.freeCb := by
  unfold h2SessTerminate
  dsimp only
  split_ifs
  · rfl
  · rfl
  · split
    · rfl
    · exact markSendPending_freeCb _
  · exact markSendPending_freeCb _

theorem Lists.insertSess (h : c.Lists xs vs ps) (s : Sess) :
    ({ c with
      fresh := c.fresh + 1, sessL := c.sessL.insertHead 0 c.fresh, sessNum := c.sessNum + 1,
      sess := Function.update c.sess c.fresh (some s) } : Ctx).Lists (c.fresh :: xs) vs ps where
  sess := h.sess.insertHead fun hm => (List.mem_cons.mp hm).elim (fun e => h.fresh_pos.ne' e)
    fun hm => h.ne_fresh (by simp [hm]) rfl
  svr := h.svr
  peer := h.peer
  sessNum := by rw [h.sessNum, List.length_cons]; push_cast; rfl
  svrNum := h.svrNum
  peerNum := h.peerNum
  lt_fresh := fun y hy => by
    simp only [List.cons_append, List.mem_cons] at hy
    rcases hy with rfl | hy
    · exact Nat.lt_succ_self _
    · exact Nat.lt_succ_of_lt (h.lt_fresh y hy)
  fresh_pos := Nat.succ_pos _
  freed_nodup := h.freed_nodup
  freed_out := fun y hy hm => (List.mem_cons.mp hm).elim (fun e => h.ne_fresh (by simp [hy]) e)
    (h.freed_out y hy)

theorem Slots.insertSess (h : c.Slots live ps) (hl : ∀ y, live y → y < c.fresh) (s : Sess) :
    ({ c with
      fresh := c.fresh + 1, sessL := c.sessL.insertHead 0 c.fresh, sessNum := c.sessNum + 1,
      sess := Function.update c.sess c.fresh (some s) } : Ctx).Slots live ps :=
  h.congr rfl fun y hy => congrArg Sess.freeCb (sessOf_update_ne (c := c) (hl y hy).ne)

theorem Lists.unlinkSess (h : c.Lists xs vs ps) (ha : a ∈ xs) :
    ({ c with sessL := c.sessL.unlink a, sessNum := c.sessNum - 1, freed := c.freed ++ [a] } :
      Ctx).Lists (xs.erase a) vs ps where
  sess := h.sess.unlink ha
  svr := h.svr
  peer := h.peer
  sessNum := by
    show c.sessNum - 1 = _
    rw [h.sessNum, List.length_erase_of_mem ha]; have := List.length_pos_of_mem ha; omega
  svrNum := h.svrNum
  peerNum := h.peerNum
  lt_fresh := fun y hy => by
    simp only [List.append_assoc, List.mem_append, List.mem_singleton] at hy
    rcases hy with hy | hy | hy | hy | rfl
    · exact h.lt_fresh_sess (List.mem_of_mem_erase hy)
    all_goals first
      | exact h.lt_fresh_sess ha
      | exact h.lt_fresh y (by simp [hy])
  fresh_pos := h.fresh_pos
  freed_nodup := List.nodup_append.mpr ⟨h.freed_nodup, List.nodup_singleton a,
    fun y hy e => h.freed_out y hy (List.mem_singleton.mp e ▸ ha)⟩
  freed_out := fun y hy hm => by
    rcases List.mem_append.mp hy with hy | hy
    · exact h.freed_out y hy (List.mem_of_mem_erase hm)
    · rw [List.mem_singleton.mp hy] at hm
      exact (h.sess.nodup.of_cons).not_mem_erase hm

theorem Lists.sessFreeBare (h : c.Lists xs vs ps) (ha : a ∈ xs) :
    (c.sessFreeBare a).Lists (xs.erase a) vs ps :=
  (h.unlinkSess ha).of_shape rfl

/-- `c'` is `c` with the sessions `new` added at the head, from `c.fresh` on, all else kept. -/
structure Adds (c c' : Ctx) (xs vs ps new : List Nat) : Prop where
  lists : c'.Lists (new ++ xs) vs ps
  fresh_le : c.fresh ≤ c'.fresh
  new_fresh : ∀ y ∈ new, c.fresh ≤ y
  peer : c'.peer = c.peer
  freeCb : ∀ y < c.fresh, (c'.sessOf y).freeCb = (c.sessOf y).freeCb
  freed : c.freed <+: c'.freed

variable {c'' : Ctx} {new new' : List Nat}

theorem Adds.refl (h : c.Lists xs vs ps) : c.Adds c xs vs ps [] :=
  ⟨h, le_rfl, (fun _ h => by cases h), rfl, (fun _ _ => rfl), List.prefix_refl _⟩

theorem Adds.trans (h1 : c.Adds c' xs vs ps new) (h2 : c'.Adds c'' (new ++ xs) vs ps new') :
    c.Adds c'' xs vs ps (new' ++ new) where
  lists := List.append_assoc new' new xs ▸ h2.lists
  fresh_le := h1.fresh_le.trans h2.fresh_le
  new_fresh := fun y hy => (List.mem_append.mp hy).elim
    (fun hy => h1.fresh_le.trans (h2.new_fresh y hy)) (h1.new_fresh y)
  peer := h2.peer.trans h1.peer
  freeCb := fun y hy => (h2.freeCb y (hy.trans_le h1.fresh_le)).trans (h1.freeCb y hy)
  freed := h1.freed.trans h2.freed

/-- A step that changes none of what `Adds` reads. -/
theorem Adds.frame (h : c.Adds c' xs vs ps new) (e : c''.listShape = c'.listShape)
    (hp : c''.peer = c'.peer) (hs : ∀ y < c.fresh, (c''.sessOf y).freeCb = (c'.sessOf y).freeCb) :
    c.Adds c'' xs vs ps new :=
  have e' := fresh_freed_of_shape e
  ⟨h.lists.of_shape e, e'.1 ▸ h.fresh_le, h.new_fresh, hp.trans h.peer,
    (fun y hy => (hs y hy).trans (h.freeCb y hy)), e'.2 ▸ h.freed⟩

/-- Setting a field other than the callback of a session added. -/
theorem Adds.updSess (h : c.Adds c' xs vs ps new) (ha : a ∈ new) (f : Sess → Sess) :
    c.Adds (c'.updSess a f) xs vs ps new :=
  h.frame rfl rfl fun _ hy => congrArg Sess.freeCb
    (sessOf_update_ne (c := c') (hy.trans_le (h.new_fresh a ha)).ne)

theorem Adds.close (h : c.Adds c' xs vs ps new) (fd : Nat) : c.Adds (c'.close fd) xs vs ps new :=
  h.frame rfl rfl fun _ _ => rfl

theorem Adds.epollCtl (h : c.Adds c' xs vs ps new) (e : EpollCtl) (ok : Bool) :
    c.Adds (c'.epollCtl e ok).2 xs vs ps new :=
  let ⟨hl, hp, hs⟩ := epollCtl_frame (c := c') e ok
  h.frame hl hp fun _ _ => by simp only [sessOf, hs]

/-- Freeing again, with no callback, the session just added. -/
theorem Adds.freeNew (h : c.Adds c' xs vs ps [a]) : c.Adds (c'.sessFreeBare a) xs vs ps [] :=
  ⟨by simpa using h.lists.sessFreeBare (List.mem_cons_self a xs), h.fresh_le,
    (fun _ h => by cases h), h.peer, h.freeCb, h.freed.trans (List.prefix_append _ _)⟩

theorem Adds.slots (h : c.Adds c' xs vs ps new) (hl : c.Lists xs vs ps)
    (hs : c.Slots (· ∈ xs) ps) : c'.Slots (· ∈ new ++ xs) ps :=
  (hs.congr h.peer fun y hy => h.freeCb y (hl.lt_fresh_sess hy)).mono
    fun _ hy => List.mem_append_right _ hy

/-- What a constructor of the connect path gives: the session it returns, if any, is the
one added, and it is allocated. -/
def Made (c : Ctx) (r : Ctx × Option Nat) (xs vs ps : List Nat) : Prop :=
  c.Adds r.1 xs vs ps r.2.toList ∧ ∀ a, r.2 = some a → (r.1.sess a).isSome

theorem h2SessInitClient_made (h : c.Lists xs vs ps) (ssl : Bool) (fd : Nat) (ok : Bool) :
    c.Made (c.h2SessInitClient b ssl fd ok) xs vs ps := by
  have h1 : c.Adds { c with
      fresh := c.fresh + 1, sessL := c.sessL.insertHead 0 c.fresh, sessNum := c.sessNum + 1,
      sess := Function.update c.sess c.fresh (some { Sess.init false ssl c.httpVer with fd := fd }) }
      xs vs ps [c.fresh] :=
    ⟨h.insertSess _, Nat.le_succ _, (fun y hy => (List.mem_singleton.mp hy).ge), rfl,
      (fun y hy => congrArg Sess.freeCb (sessOf_update_ne (c := c) hy.ne)), List.prefix_refl _⟩
  unfold h2SessInitClient
  dsimp only
  split_ifs with hb hr
  · exact ⟨(h1.epollCtl _ _).freeNew, fun _ h => by cases h⟩
  · obtain ⟨ep, he⟩ := epollCtl_eq (c := { c with
      fresh := c.fresh + 1, sessL := c.sessL.insertHead 0 c.fresh, sessNum := c.sessNum + 1,
      sess := Function.update c.sess c.fresh (some { Sess.init false ssl c.httpVer with fd := fd }) })
      ⟨c.epollFd, .add, fd, false⟩ ok
    exact ⟨h1.epollCtl _ _, fun a ha => by cases ha; rw [he]; simp⟩
  · exact ⟨h1, fun a ha => by cases ha; simp⟩

/-- The end of `h2_sess_client_start`: the session just added is kept, or freed again. -/
theorem made_ite (hA : c.Adds c' xs vs ps [a]) (hs : (c'.sess a).isSome) (P : Prop) [Decidable P] :
    c.Made (if P then (c'.sessFreeBare a, none) else (c', some a)) xs vs ps := by
  split
  · exact ⟨hA.freeNew, fun _ h => by cases h⟩
  · exact ⟨hA, fun _ h => by cases h; exact hs⟩

theorem h2SessClientStart_made (h : c.Lists xs vs ps) (t : ConnTry) (sock : Nat) :
    c.Made (c.h2SessClientStart b t sock) xs vs ps := by
  unfold h2SessClientStart
  split
  · exact ⟨.refl h, fun _ h => by cases h⟩
  · next ver _ =>
    obtain ⟨hA, hr⟩ := h2SessInitClient_made (b := b) h t.tls.isSome sock t.epollOk
    split
    · next c1 heq => rw [heq] at hA; exact ⟨hA, fun _ h => by cases h⟩
    · next c1 a heq =>
      rw [heq] at hA hr
      replace hA : c.Adds c1 xs vs ps [a] := hA
      rcases ver with _ | v
      · exact made_ite hA (hr a rfl) _
      · exact made_ite (hA.updSess (List.mem_singleton_self a) _) (by simp [updSess, hr a rfl]) _

/-- `h2_connect` keeps the invariant's lists; the session it returns carries `cb`. -/
theorem h2Connect_made (cb : FreeCb) (ts : List ConnTry) (h : c.Lists xs vs ps) :
    c.Made (c.h2Connect b cb ts) xs vs ps ∧
      ∀ a, (c.h2Connect b cb ts).2 = some a → ((c.h2Connect b cb ts).1.sessOf a).freeCb = cb := by
  induction ts generalizing c xs with
  | nil => exact ⟨⟨.refl h, fun _ h => by cases h⟩, fun _ h => by cases h⟩
  | cons t ts ih =>
    unfold h2Connect
    split
    · exact ih h
    · next sock _ =>
      have hs : c.Made (if t.connected then c.h2SessClientStart b t sock else (c, none)) xs vs ps := by
        split
        · exact h2SessClientStart_made h t sock
        · exact ⟨.refl h, fun _ h => by cases h⟩
      obtain ⟨hA, hr⟩ := hs
      split
      · next c1 a heq =>
        rw [heq] at hA hr
        obtain ⟨s, hs⟩ : ∃ s, c1.sess a = some s := Option.isSome_iff_exists.mp (hr a rfl)
        refine ⟨⟨hA.updSess (List.mem_singleton_self a) _, fun a' h => ?_⟩, fun a' h => ?_⟩ <;>
          cases h <;> simp [updSess, sessOf, hs]
      · next c1 heq =>
        rw [heq] at hA
        have hA : c.Adds (c1.close sock) xs vs ps [] := hA.close sock
        obtain ⟨⟨hA', hr'⟩, hcb⟩ := ih hA.lists
        exact ⟨⟨by simpa using hA.trans hA', hr'⟩, hcb⟩

theorem connectCall_made (cb : FreeCb) (h : c.Lists xs vs ps) :
    c.Made (c.connectCall b cb) xs vs ps ∧
      ∀ a, (c.connectCall b cb).2 = some a → ((c.connectCall b cb).1.sessOf a).freeCb = cb := by
  have h0 : c.Adds { c with connCalls := c.connCalls + 1 } xs vs ps [] :=
    (Adds.refl h).frame rfl rfl fun _ _ => rfl
  obtain ⟨⟨hA, hr⟩, hcb⟩ := h2Connect_made (b := b) cb (c.conns c.connCalls) h0.lists
  exact ⟨⟨by simpa using h0.trans hA, hr⟩, hcb⟩

theorem Peer.slotOf_some {p : Peer} {i : Nat} (h : p.slotOf a = some i) :
    i < p.sessNum ∧ p.sess.getD i none = some a := by
  obtain ⟨hi, he, -⟩ := List.findIdx?_eq_some_iff_getElem.mp h
  simp only [List.length_take, lt_min_iff] at hi
  simp only [List.getElem_take, decide_eq_true_eq] at he
  exact ⟨hi.1, by rw [List.getD_eq_getElem?_getD, List.getElem?_eq_getElem hi.2, Option.getD_some, he]⟩

theorem Peer.slotOf_none {p : Peer} {i : Nat} (h : p.slotOf a = none) (hi : i < p.sessNum) :
    p.sess.getD i none ≠ some a := fun he => by
  have h1 : p.sess[i]? = some (some a) := by
    rw [List.getD_eq_getElem?_getD] at he
    cases hx : p.sess[i]? <;> simp_all
  have h2 : some a ∈ p.sess.take p.sessNum :=
    List.mem_iff_getElem?.mpr ⟨i, by rw [List.getElem?_take, if_pos hi, h1]⟩
  simpa using List.findIdx?_eq_none_iff.mp h _ h2

theorem Peer.sess_connectSess {p : Peer} {i : Nat} (res : Option Nat) :
    (p.connectSess i res).sess = match res with
      | none => p.sess
      | some a => p.sess.set i (some a) := by
  unfold Peer.connectSess
  split
  · rfl
  · dsimp only; split <;> rfl

theorem Peer.sessFreed_of_none {p : Peer} (h : p.slotOf a = none) (st : Sess) (f : Bool) :
    p.sessFreed a st f = (p, none) := by
  simp only [Peer.sessFreed, h]

theorem Peer.sessFreed_of_some {p : Peer} {i : Nat} (h : p.slotOf a = some i) (st : Sess) (f : Bool) :
    (p.sessFreed a st f).1.sess = p.sess.set i none ∧ (p.sessFreed a st f).1.sessNum = p.sessNum ∧
      ∀ j, (p.sessFreed a st f).2 = some j → j = i := by
  simp only [Peer.sessFreed, h, Peer.sess_deactivate, Peer.sessNum_deactivate, true_and]
  intro j hj
  split_ifs at hj
  exact (Option.some.inj hj).symm

variable {p q i : Nat} {f : Peer → Peer}

theorem peerOf_updPeer_ne (hq : q ≠ p) : (c.updPeer p f).peerOf q = c.peerOf q := by
  simp only [peerOf, updPeer, Function.update_noteq hq]

theorem peerOf_updPeer_self (hp : (c.peer p).isSome) : (c.updPeer p f).peerOf p = f (c.peerOf p) := by
  obtain ⟨r, hr⟩ := Option.isSome_iff_exists.mp hp
  simp only [peerOf, updPeer, hr, Function.update_same, Option.map_some', Option.getD_some]

/-- Setting slot `i` of a live peer: to nothing, or to a live session of its callback in no slot. -/
theorem Slots.updPeer (h : c.Slots live ps) (hp : p ∈ ps) {v : Option Nat}
    (hget : ∀ j, (f (c.peerOf p)).sess.getD j none =
      if i = j then v else (c.peerOf p).sess.getD j none)
    (hlen : (f (c.peerOf p)).sess.length = (c.peerOf p).sess.length)
    (hnum : (f (c.peerOf p)).sessNum = (c.peerOf p).sessNum)
    (hv : ∀ b, v = some b → live b ∧ (c.sessOf b).freeCb = .peer p ∧
      ∀ j, (c.peerOf p).sess.getD j none ≠ some b) : (c.updPeer p f).Slots live ps := by
  have hq : ∀ q, q ≠ p → (c.updPeer p f).peerOf q = c.peerOf q := fun q hq => peerOf_updPeer_ne hq
  have hself := peerOf_updPeer_self (f := f) (h.alloc p hp)
  refine ⟨fun q hq' => ?_, fun q hq' => ?_, fun q hq' j a ha => ?_, fun q hq' j k a hj hk => ?_,
    fun q hq' j => ?_⟩
  · show (Function.update c.peer p ((c.peer p).map f) q).isSome
    by_cases e : q = p
    · subst e; simpa using h.alloc q hq'
    · rw [Function.update_noteq e]; exact h.alloc q hq'
  · by_cases e : q = p
    · subst e; rw [hself, hlen, hnum]; exact h.length q hq'
    · rw [hq q e]; exact h.length q hq'
  · by_cases e : q = p
    · subst e
      rw [hself, hget] at ha
      split_ifs at ha
      · obtain ⟨hb, hf, -⟩ := hv a ha; exact ⟨hb, hf⟩
      · exact h.live q hq' j a ha
    · rw [hq q e] at ha; exact h.live q hq' j a ha
  · by_cases e : q = p
    · subst e
      rw [hself, hget] at hj hk
      split_ifs at hj hk with h1 h2 h2
      · exact h1.symm.trans h2
      · exact absurd hk ((hv a hj).2.2 k)
      · exact absurd hj ((hv a hk).2.2 j)
      · exact h.unique q hq' j k a hj hk
    · rw [hq q e] at hj hk; exact h.unique q hq' j k a hj hk
  · rw [hq q (fun e => hq' (e ▸ hp))]; exact h.dead q hq' j

/-- Forgetting a session no slot holds. -/
theorem Slots.drop (h : c.Slots (fun y => live y ∨ y = a) ps)
    (hn : ∀ q j, (c.peerOf q).sess.getD j none ≠ some a) : c.Slots live ps :=
  ⟨h.alloc, h.length, fun q hq j b hb => by
    obtain ⟨hl | rfl, hf⟩ := h.live q hq j b hb
    · exact ⟨hl, hf⟩
    · exact absurd hb (hn q j), h.unique, h.dead⟩

/-- The slot holding a session with `p`'s callback is one of `p`'s. -/
theorem Slots.owner (h : c.Slots live ps) (hf : (c.sessOf a).freeCb = .peer p)
    (ha : (c.peerOf q).sess.getD j none = some a) : q = p ∧ q ∈ ps := by
  by_cases hq : q ∈ ps
  · have := (h.live q hq j a ha).2
    rw [hf] at this
    exact ⟨(FreeCb.peer.inj this).symm, hq⟩
  · rw [h.dead q hq j] at ha; cases ha

/-- `c'` keeps the invariant with the sessions `new` added at the head of the list, at
addresses from `c.fresh` on. -/
structure Grows (c c' : Ctx) (xs vs ps new : List Nat) : Prop where
  lists : c'.Lists (new ++ xs) vs ps
  slots : c'.Slots (· ∈ new ++ xs) ps
  fresh_le : c.fresh ≤ c'.fresh
  new_fresh : ∀ y ∈ new, c.fresh ≤ y
  freed : c.freed <+: c'.freed

theorem Grows.self (h : c.Lists xs vs ps) (hs : c.Slots (· ∈ xs) ps) : c.Grows c xs vs ps [] :=
  ⟨h, hs, le_rfl, (fun _ h => by cases h), List.prefix_refl _⟩

theorem Grows.trans (h1 : c.Grows c' xs vs ps new) (h2 : c'.Grows c'' (new ++ xs) vs ps new') :
    c.Grows c'' xs vs ps (new' ++ new) where
  lists := List.append_assoc new' new xs ▸ h2.lists
  slots := List.append_assoc new' new xs ▸ h2.slots
  fresh_le := h1.fresh_le.trans h2.fresh_le
  new_fresh := fun y hy => (List.mem_append.mp hy).elim
    (fun hy => h1.fresh_le.trans (h2.new_fresh y hy)) (h1.new_fresh y)
  freed := h1.freed.trans h2.freed

/-- A step that changes none of what the invariant reads. -/
theorem Grows.frame (h : c.Grows c' xs vs ps new) (e : c''.listShape = c'.listShape)
    (hp : c''.peer = c'.peer) (hs : ∀ y, (c''.sessOf y).freeCb = (c'.sessOf y).freeCb) :
    c.Grows c'' xs vs ps new :=
  have e' := fresh_freed_of_shape e
  ⟨h.lists.of_shape e, h.slots.congr hp (fun y _ => hs y), e'.1 ▸ h.fresh_le, h.new_fresh,
    e'.2 ▸ h.freed⟩

theorem Grows.close (h : c.Grows c' xs vs ps new) (fd : Nat) : c.Grows (c'.close fd) xs vs ps new :=
  h.frame rfl rfl fun _ => rfl

theorem Grows.of_fresh (h : c'.Grows c'' xs vs ps new) (e : c'.fresh = c.fresh)
    (hf : c.freed <+: c'.freed) : c.Grows c'' xs vs ps new :=
  ⟨h.lists, h.slots, e ▸ h.fresh_le, e ▸ h.new_fresh, hf.trans h.freed⟩

theorem updPeer_peerOf : c.updPeer p (fun _ => c.peerOf p) = c := by
  have : (c.peer p).map (fun _ => c.peerOf p) = c.peer p := by
    cases hp : c.peer p <;> simp [peerOf, hp]
  simp only [updPeer, this, Function.update_eq_self]

theorem peerConnectSess_grows (h : c.Lists xs vs ps) (hs : c.Slots (· ∈ xs) ps) (hp : p ∈ ps)
    (hi : i < (c.peerOf p).sess.length) (hn : (c.peerOf p).sess.getD i none = none) :
    ∃ new, c.Grows (c.peerConnectSess b p i) xs vs ps new := by
  obtain ⟨⟨hA, -⟩, hcb⟩ := connectCall_made (b := b) (.peer p) h
  have hS := hA.slots h hs
  unfold peerConnectSess
  generalize c.connectCall b (.peer p) = r at hA hS hcb ⊢
  obtain ⟨c1, o⟩ := r
  dsimp only at hA hS hcb ⊢
  have hq : c1.peerOf p = c.peerOf p := by simp only [peerOf, hA.peer]
  refine ⟨_, hA.lists.of_shape rfl, ?_, hA.fresh_le, hA.new_fresh, hA.freed⟩
  cases o with
  | none =>
    refine hS.updPeer hp (i := i) (v := none) (fun j => ?_) ?_ ?_ fun _ h => by cases h
    · rw [Peer.sess_connectSess]; split_ifs with e
      · rw [← e, hq, hn]
      · rfl
    · rw [Peer.sess_connectSess]
    · exact (Peer.connectSess_frame none).1
  | some a =>
    have hfr : c.fresh ≤ a := hA.new_fresh a (List.mem_singleton_self a)
    refine hS.updPeer hp (i := i) (v := some a) (fun j => ?_) ?_ ?_ fun a' e => ?_
    · rw [Peer.sess_connectSess, getD_set_of_lt (by rw [hq]; exact hi)]
    · rw [Peer.sess_connectSess, List.length_set]
    · exact (Peer.connectSess_frame _).1
    · cases e
      refine ⟨List.mem_cons_self a xs, hcb a rfl, fun j hj => ?_⟩
      rw [hq] at hj
      exact (h.lt_fresh_sess (hs.live p hp j a hj).1).not_le hfr

theorem getD_eq_none_of_length_le {l : List (Option Nat)} (hj : l.length ≤ j) : l.getD j none = none := by
  rw [List.getD_eq_getElem?_getD, List.getElem?_eq_none hj, Option.getD_none]

theorem peerSessFreeCb_grows (h : c.Lists xs vs ps) (hs : c.Slots (fun y => y ∈ xs ∨ y = a) ps)
    (hf : (c.sessOf a).freeCb = .peer p) (st : Sess) :
    ∃ new, c.Grows (c.peerSessFreeCb b p a st) xs vs ps new := by
  unfold peerSessFreeCb
  cases hso : (c.peerOf p).slotOf a with
  | none =>
    rw [Peer.sessFreed_of_none hso]
    dsimp only
    rw [updPeer_peerOf]
    refine ⟨[], Grows.self h (hs.drop fun q j hj => ?_)⟩
    obtain ⟨rfl, hq⟩ := hs.owner hf hj
    by_cases hjn : j < (c.peerOf q).sessNum
    · exact Peer.slotOf_none hso hjn hj
    · rw [getD_eq_none_of_length_le (by rw [hs.length q hq]; omega)] at hj; cases hj
  | some i =>
    obtain ⟨hi, hai⟩ := Peer.slotOf_some hso
    obtain ⟨hsess, hnum, hret⟩ := Peer.sessFreed_of_some hso st c.serviceFlag
    obtain ⟨-, hp⟩ := hs.owner hf hai
    have hil : i < (c.peerOf p).sess.length := by rw [hs.length p hp]; exact hi
    -- the slot cleared: no slot holds `a` any more
    have hS : (c.updPeer p fun _ => ((c.peerOf p).sessFreed a st c.serviceFlag).1).Slots
        (· ∈ xs) ps := by
      refine (hs.updPeer hp (i := i) (v := none) (fun j => by rw [hsess, getD_set_default])
        (by rw [hsess, List.length_set]) hnum fun _ h => by cases h).drop fun q j hj => ?_
      by_cases e : q = p
      · subst e
        rw [peerOf_updPeer_self (hs.alloc q hp), hsess, getD_set_default] at hj
        split_ifs at hj with hij
        exact hij (hs.unique q hp i j a hai hj)
      · rw [peerOf_updPeer_ne e] at hj
        exact e (hs.owner hf hj).1
    have hL : (c.updPeer p fun _ => ((c.peerOf p).sessFreed a st c.serviceFlag).1).Lists xs vs ps :=
      h.of_shape rfl
    rcases hr : (c.peerOf p).sessFreed a st c.serviceFlag with ⟨pr, _ | j⟩
    all_goals rw [hr] at hS hL hsess hret; dsimp only at hS hL hsess hret ⊢
    · exact ⟨[], (Grows.self hL hS).of_fresh rfl (List.prefix_refl _)⟩
    · obtain rfl := hret j rfl
      have hself := peerOf_updPeer_self (c := c) (f := fun _ => pr) (hs.alloc p hp)
      obtain ⟨new, hG⟩ := peerConnectSess_grows (b := b) hL hS hp
        (by rw [hself, hsess, List.length_set]; exact hil)
        (by rw [hself, hsess, getD_set_default, if_pos rfl])
      exact ⟨new, hG.of_fresh rfl (List.prefix_refl _)⟩

theorem freeCbCall_grows (h : c.Lists xs vs ps) (hs : c.Slots (fun y => y ∈ xs ∨ y = a) ps)
    (st : Sess) (hst : st.freeCb = (c.sessOf a).freeCb) :
    ∃ new, c.Grows (c.freeCbCall b a st) xs vs ps new := by
  unfold freeCbCall
  split
  all_goals first
    | next p hp => exact peerSessFreeCb_grows h hs (hst ▸ hp) st
    | next hn => exact ⟨[], Grows.self h (hs.drop (hs.not_slot fun p e => by rw [← hst, hn] at e; cases e))⟩

/-- `h2_sess_free` of a listed session, just unlinked: its callback may connect a new one. -/
theorem sessFree_grows_unlinked (h : c.Lists xs vs ps) (hs : c.Slots (· ∈ xs) ps) (ha : a ∈ xs) :
    ∃ new, ({ c with sessL := c.sessL.unlink a, sessNum := c.sessNum - 1, freed := c.freed ++ [a] } :
      Ctx).Grows (c.sessFree b a) (xs.erase a) vs ps new := by
  have hS : ({ c with
      sessL := c.sessL.unlink a, sessNum := c.sessNum - 1, freed := c.freed ++ [a] } : Ctx).Slots
      (fun y => y ∈ xs.erase a ∨ y = a) ps :=
    (hs.mono fun y hy => by
      by_cases e : y = a
      · exact .inr e
      · exact .inl ((List.mem_erase_of_ne e).mpr hy)).congr rfl fun _ _ => rfl
  obtain ⟨new, hG⟩ := freeCbCall_grows (b := b) (h.unlinkSess ha) hS (c.sessOf a) rfl
  exact ⟨new, hG.close _⟩

/-- `h2_sess_free` of a listed session unlists it; its callback may connect a new one. -/
theorem sessFree_grows (h : c.Lists xs vs ps) (hs : c.Slots (· ∈ xs) ps) (ha : a ∈ xs) :
    ∃ new, c.Grows (c.sessFree b a) (xs.erase a) vs ps new :=
  let ⟨new, hG⟩ := sessFree_grows_unlinked (b := b) h hs ha
  ⟨new, hG.of_fresh rfl (List.prefix_append _ _)⟩

/-- `h2_sess_free` records the session it frees. -/
theorem mem_freed_sessFree (h : c.Lists xs vs ps) (hs : c.Slots (· ∈ xs) ps) (ha : a ∈ xs) :
    a ∈ (c.sessFree b a).freed :=
  let ⟨_, hG⟩ := sessFree_grows_unlinked (b := b) h hs ha
  hG.freed.subset (List.mem_append_right _ (List.mem_singleton_self a))

theorem sessOf_updSess_freeCb {f : Sess → Sess} (hf : ∀ s, (f s).freeCb = s.freeCb) (y : Nat) :
    ((c.updSess a f).sessOf y).freeCb = (c.sessOf y).freeCb := by
  by_cases e : y = a
  · subst e
    cases hs : c.sess y <;> simp [updSess, sessOf, hs, hf]
  · exact congrArg Sess.freeCb (sessOf_update_ne (c := c) e)

theorem Grows.updSess (h : c.Grows c' xs vs ps new) {f : Sess → Sess}
    (hf : ∀ s, (f s).freeCb = s.freeCb) : c.Grows (c'.updSess a f) xs vs ps new :=
  h.frame rfl rfl (sessOf_updSess_freeCb hf)

/-- Freeing the one session just added. -/
theorem Grows.sessFree_new (h : c.Grows c' xs vs ps [a]) :
    ∃ new, c.Grows (c'.sessFree b a) xs vs ps new := by
  obtain ⟨new, hG⟩ := sessFree_grows (b := b) h.lists h.slots (List.mem_cons_self a xs)
  rw [List.singleton_append, List.erase_cons_head] at hG
  exact ⟨new, hG.lists, hG.slots, h.fresh_le.trans hG.fresh_le,
    (fun y hy => h.fresh_le.trans (hG.new_fresh y hy)), h.freed.trans hG.freed⟩

theorem serverStart_grows (h : c.Grows c' xs vs ps [a]) (svr : Svr) (t : AcceptTry) :
    ∃ new, c.Grows (c'.serverStart b svr t a).1 xs vs ps new := by
  have h1 := h.updSess (a := a) (f := fun s => { s with ssl := true }) fun _ => rfl
  have h2 := h1.updSess (a := a) (f := fun s => { s with httpVer := .v2 }) fun _ => rfl
  unfold serverStart
  by_cases hs : svr.ssl
  · rw [if_pos hs]
    by_cases hn : t.sslNewOk = false
    · rw [if_pos hn]; exact h.sessFree_new
    rw [if_neg hn]
    by_cases ha : t.sslAcceptOk = false
    · rw [if_pos ha]; exact h1.sessFree_new
    rw [if_neg ha]
    by_cases h2p : t.alpnH2
    · rw [if_pos h2p]
      by_cases hk : t.settingsOk
      · rw [if_pos hk]; exact ⟨_, h2⟩
      · rw [if_neg hk]; exact h2.sessFree_new
    rw [if_neg h2p]
    split
    · exact h1.sessFree_new
    · exact ⟨_, h1.updSess (f := fun s => { s with httpVer := .v1_1 }) fun _ => rfl⟩
  · rw [if_neg hs]
    split
    · exact h.sessFree_new
    · exact ⟨_, h⟩
/-- `h2_sess_init_server` in the poll build. -/
theorem h2SessInitServer_grows (h : c.Lists xs vs ps) (hs : c.Slots (· ∈ xs) ps) (v fd : Nat)
    (t : AcceptTry) : ∃ new, c.Grows (c.h2SessInitServer .poll v fd t).1 xs vs ps new := by
  -- the session allocated at `c.fresh`, whatever its record
  have hnew : ∀ s : Sess, c.Grows { c with
      fresh := c.fresh + 1, sessL := c.sessL.insertHead 0 c.fresh, sessNum := c.sessNum + 1,
      sess := Function.update c.sess c.fresh (some s) } xs vs ps [c.fresh] := fun s =>
    ⟨h.insertSess s, (hs.insertSess (fun _ hy => h.lt_fresh_sess hy) s).mono
      (fun _ hy => List.mem_cons_of_mem _ hy), Nat.le_succ _,
      (fun y hy => (List.mem_singleton.mp hy).ge), List.prefix_refl _⟩
  have hcb : ∀ s0 : Sess, ({ c with
      fresh := c.fresh + 1, sessL := c.sessL.insertHead 0 c.fresh, sessNum := c.sessNum + 1,
      sess := Function.update c.sess c.fresh (some s0) } : Ctx).updSess c.fresh
        (fun s => { s with freeCb := .app }) = { c with
      fresh := c.fresh + 1, sessL := c.sessL.insertHead 0 c.fresh, sessNum := c.sessNum + 1,
      sess := Function.update c.sess c.fresh (some { s0 with freeCb := .app }) } := fun s0 => by
    simp only [updSess, Function.update_same, Option.map_some', Function.update_idem]
  unfold h2SessInitServer
  dsimp only
  rw [if_neg (show Build.poll ≠ Build.epoll by decide)]
  dsimp only
  rw [if_neg (lt_irrefl 0)]
  split_ifs
  · exact (hnew _).sessFree_new
  · rw [hcb]; exact serverStart_grows (hnew _) _ t
  · exact serverStart_grows (hnew _) _ t

variable {v : Nat}

theorem Lists.insertSvr (h : c.Lists xs vs ps) (svr : Svr) :
    ({ c with
      fresh := c.fresh + 1, svrL := c.svrL.insertHead 0 c.fresh, svrNum := c.svrNum + 1,
      svr := Function.update c.svr c.fresh (some svr) } : Ctx).Lists xs (c.fresh :: vs) ps where
  sess := h.sess
  svr := h.svr.insertHead fun hm => (List.mem_cons.mp hm).elim (fun e => h.fresh_pos.ne' e)
    fun hm => h.ne_fresh (by simp [hm]) rfl
  peer := h.peer
  sessNum := h.sessNum
  svrNum := by rw [h.svrNum, List.length_cons]; push_cast; rfl
  peerNum := h.peerNum
  lt_fresh := fun y hy => by
    simp only [List.append_assoc, List.mem_append, List.mem_cons] at hy
    rcases hy with hy | (rfl | hy) | hy | hy
    · exact Nat.lt_succ_of_lt (h.lt_fresh_sess hy)
    · exact Nat.lt_succ_self _
    all_goals exact Nat.lt_succ_of_lt (h.lt_fresh y (by simp [hy]))
  fresh_pos := Nat.succ_pos _
  freed_nodup := h.freed_nodup
  freed_out := h.freed_out

theorem Lists.unlinkSvr (h : c.Lists xs vs ps) (hv : v ∈ vs) :
    ({ c with svrL := c.svrL.unlink v, svrNum := c.svrNum - 1, svrFreed := c.svrFreed ++ [v] } :
      Ctx).Lists xs (vs.erase v) ps where
  sess := h.sess
  svr := h.svr.unlink hv
  peer := h.peer
  sessNum := h.sessNum
  svrNum := by
    show c.svrNum - 1 = _
    rw [h.svrNum, List.length_erase_of_mem hv]; have := List.length_pos_of_mem hv; omega
  peerNum := h.peerNum
  lt_fresh := fun y hy => h.lt_fresh y (by
    simp only [List.append_assoc, List.mem_append] at hy ⊢
    exact hy.imp_right (Or.imp_left List.mem_of_mem_erase))
  fresh_pos := h.fresh_pos
  freed_nodup := h.freed_nodup
  freed_out := h.freed_out

theorem close_svr_frame (c : Ctx) (fd : Nat) (f : Nat → Option Svr) :
    ({ c.close fd with svr := f }).listShape = c.listShape ∧ ({ c.close fd with svr := f }).peer = c.peer ∧
      ({ c.close fd with svr := f }).sess = c.sess := ⟨rfl, rfl, rfl⟩

/-- `h2_svr_free` of a listed listener: its list loses it; sessions and peers are untouched. -/
theorem h2SvrFree_lists (h : c.Lists xs vs ps) (hv : v ∈ vs) :
    (c.h2SvrFree b v).Lists xs (vs.erase v) ps ∧ (c.h2SvrFree b v).peer = c.peer ∧
      (c.h2SvrFree b v).sess = c.sess := by
  have h1 := h.unlinkSvr hv
  unfold h2SvrFree
  dsimp only
  split_ifs
  · obtain ⟨e₁, e₂, e₃⟩ := close_svr_frame _ _ _
    obtain ⟨f₁, f₂, f₃⟩ := epollCtl_frame _ _
    exact ⟨h1.of_shape (e₁.trans f₁), e₂.trans f₂, e₃.trans f₃⟩
  · exact ⟨h1.of_shape rfl, rfl, rfl⟩
  · exact ⟨h1, rfl, rfl⟩

theorem listenLoop_frame (tries : List ListenTry) :
    (c.listenLoop tries).1.listShape = c.listShape ∧ (c.listenLoop tries).1.peer = c.peer ∧
      (c.listenLoop tries).1.sess = c.sess ∧ (c.listenLoop tries).1.svr = c.svr := by
  induction tries generalizing c with
  | nil => exact ⟨rfl, rfl, rfl, rfl⟩
  | cons t ts ih =>
    unfold listenLoop
    split
    · exact ih
    · split_ifs
      · exact ⟨rfl, rfl, rfl, rfl⟩
      · exact ih

/-- `h2_listen`: a new listener at the head of its list, or none. -/
theorem h2Listen_lists (h : c.Lists xs vs ps) (ssl cb : Bool) (tries : List ListenTry) (ok : Bool) :
    ∃ vs', (c.h2Listen b ssl cb tries ok).1.Lists xs vs' ps ∧
      (c.h2Listen b ssl cb tries ok).1.peer = c.peer ∧ (c.h2Listen b ssl cb tries ok).1.sess = c.sess := by
  obtain ⟨e, hp, hs, -⟩ := listenLoop_frame (c := c) tries
  have h0 := h.of_shape e
  unfold h2Listen
  split
  · next c1 heq => rw [heq] at e hp hs h0; exact ⟨vs, h0, hp, hs⟩
  · next c1 sock heq =>
    rw [heq] at e hp hs h0
    dsimp only at e hp hs h0 ⊢
    have h1 := h0.insertSvr ⟨sock, ssl, cb⟩
    split
    · have h2 := h1.of_shape (epollCtl_frame ⟨c1.epollFd, .add, sock, false⟩ ok).1
      split
      · obtain ⟨h3, hp3, hs3⟩ := h2SvrFree_lists (b := b) h2 (List.mem_cons_self _ _)
        rw [List.erase_cons_head] at h3
        exact ⟨vs, h3, hp3.trans ((epollCtl_frame _ _).2.1.trans hp),
          hs3.trans ((epollCtl_frame _ _).2.2.trans hs)⟩
      · exact ⟨_, h2, (epollCtl_frame _ _).2.1.trans hp, (epollCtl_frame _ _).2.2.trans hs⟩
    · exact ⟨_, h1, hp, hs⟩

theorem getD_set_ne {α : Type} {l : List α} {j : Nat} {w d : α} (h : i ≠ j) :
    (l.set i w).getD j d = l.getD j d := by
  simp only [List.getD_eq_getElem?_getD, List.getElem?_set_ne h]

/-- From `c` to `c'` no peer's slot count changes, and of the slots only those `P` names may. -/
def SlotFrame (c c' : Ctx) (P : Nat → Nat → Prop) : Prop :=
  ∀ q, (c'.peerOf q).sessNum = (c.peerOf q).sessNum ∧
    ∀ j, ¬ P q j → (c'.peerOf q).sess.getD j none = (c.peerOf q).sess.getD j none

variable {P Q : Nat → Nat → Prop}

theorem SlotFrame.of_peer (e : c'.peer = c.peer) : SlotFrame c c' P := fun _ =>
  ⟨by simp only [peerOf, e], fun _ _ => by simp only [peerOf, e]⟩

theorem SlotFrame.trans (h1 : SlotFrame c c' P) (h2 : SlotFrame c' c'' P) : SlotFrame c c'' P :=
  fun q => ⟨(h2 q).1.trans (h1 q).1, fun j hj => ((h2 q).2 j hj).trans ((h1 q).2 j hj)⟩

theorem SlotFrame.mono (h : SlotFrame c c' P) (hPQ : ∀ q j, P q j → Q q j) : SlotFrame c c' Q :=
  fun q => ⟨(h q).1, fun j hj => (h q).2 j fun hp => hj (hPQ q j hp)⟩

theorem SlotFrame.updPeer (hnum : (f (c.peerOf p)).sessNum = (c.peerOf p).sessNum)
    (hget : ∀ j, j ≠ i → (f (c.peerOf p)).sess.getD j none = (c.peerOf p).sess.getD j none) :
    SlotFrame c (c.updPeer p f) (fun q j => q = p ∧ j = i) := fun q => by
  by_cases e : q = p
  · subst e
    cases hp : c.peer q with
    | none =>
      have : (c.updPeer q f).peerOf q = c.peerOf q := by simp [peerOf, updPeer, hp]
      rw [this]; exact ⟨rfl, fun _ _ => rfl⟩
    | some r =>
      rw [peerOf_updPeer_self (by simp [hp])]
      exact ⟨hnum, fun j hj => hget j fun e => hj ⟨rfl, e⟩⟩
  · rw [peerOf_updPeer_ne e]; exact ⟨rfl, fun _ _ => rfl⟩

theorem peerConnectSess_frame (h : c.Lists xs vs ps) :
    SlotFrame c (c.peerConnectSess b p i) (fun q j => q = p ∧ j = i) := by
  obtain ⟨⟨hA, -⟩, -⟩ := connectCall_made (b := b) (.peer p) h
  refine (SlotFrame.of_peer hA.peer).trans (SlotFrame.updPeer (Peer.connectSess_frame _).1
    fun j hj => ?_)
  rw [Peer.sess_connectSess]
  split
  · rfl
  · exact getD_set_ne (Ne.symm hj)

/-- The callback of a freed session changes only the slot that held it. -/
theorem peerSessFreeCb_frame (h : c.Lists xs vs ps) (st : Sess) :
    SlotFrame c (c.peerSessFreeCb b p a st) (fun q j => (c.peerOf q).sess.getD j none = some a) := by
  unfold peerSessFreeCb
  cases hso : (c.peerOf p).slotOf a with
  | none =>
    rw [Peer.sessFreed_of_none hso]
    dsimp only
    rw [updPeer_peerOf]
    exact SlotFrame.of_peer rfl
  | some i =>
    obtain ⟨-, hai⟩ := Peer.slotOf_some hso
    obtain ⟨hsess, hnum, hret⟩ := Peer.sessFreed_of_some hso st c.serviceFlag
    have hP : ∀ q j, q = p ∧ j = i → (c.peerOf q).sess.getD j none = some a := by
      rintro q j ⟨rfl, rfl⟩; exact hai
    have h1 := (SlotFrame.updPeer (c := c) (i := i)
      (f := fun _ => ((c.peerOf p).sessFreed a st c.serviceFlag).1) hnum fun j hj => by
      rw [hsess, getD_set_ne (Ne.symm hj)]).mono hP
    rcases hr : (c.peerOf p).sessFreed a st c.serviceFlag with ⟨pr, _ | j⟩
    all_goals rw [hr] at h1 hret; dsimp only at h1 hret ⊢
    · exact h1
    · obtain rfl := hret j rfl
      exact h1.trans ((peerConnectSess_frame (b := b) (c := c.updPeer p fun _ => pr)
        (h.of_shape rfl)).mono hP)

theorem freeCbCall_frame (h : c.Lists xs vs ps) (st : Sess) :
    SlotFrame c (c.freeCbCall b a st) (fun q j => (c.peerOf q).sess.getD j none = some a) := by
  unfold freeCbCall
  split
  · exact SlotFrame.of_peer rfl
  · exact SlotFrame.of_peer rfl
  · exact peerSessFreeCb_frame h st

theorem sessFree_frame (h : c.Lists xs vs ps) (ha : a ∈ xs) :
    SlotFrame c (c.sessFree b a) (fun q j => (c.peerOf q).sess.getD j none = some a) :=
  (freeCbCall_frame (b := b) (h.unlinkSess ha) (c.sessOf a)).trans (SlotFrame.of_peer rfl)

theorem foldl_range_induct {R : Nat → Ctx → Prop} (g : Ctx → Nat → Ctx) (n : Nat) (h0 : R 0 c)
    (hs : ∀ k c, k < n → R k c → R (k + 1) (g c k)) : R n ((List.range n).foldl g c) := by
  suffices ∀ k ≤ n, R k ((List.range k).foldl g c) from this n le_rfl
  intro k hk
  induction k with
  | zero => exact h0
  | succ k ih =>
    rw [List.range_succ, List.foldl_append, List.foldl_cons, List.foldl_nil]
    exact hs k _ hk (ih (Nat.le_of_succ_le hk))

theorem foldl_induct {α : Type} {P : Ctx → Prop} (g : Ctx → α → Ctx)
    (hg : ∀ c x, P c → P (g c x)) : ∀ (l : List α) (c : Ctx), P c → P (l.foldl g c)
  | [], _, h => h
  | x :: l, c, h => foldl_induct g hg l (g c x) (hg c x h)

theorem Lists.unlinkPeer (h : c.Lists xs vs ps) (hp : p ∈ ps) :
    ({ c with peerL := c.peerL.unlink p, peerNum := c.peerNum - 1, peerFreed := c.peerFreed ++ [p] } :
      Ctx).Lists xs vs (ps.erase p) where
  sess := h.sess
  svr := h.svr
  peer := h.peer.unlink hp
  sessNum := h.sessNum
  svrNum := h.svrNum
  peerNum := by
    show c.peerNum - 1 = _
    rw [h.peerNum, List.length_erase_of_mem hp]; have := List.length_pos_of_mem hp; omega
  lt_fresh := fun y hy => h.lt_fresh y (by
    simp only [List.append_assoc, List.mem_append] at hy ⊢
    exact hy.imp_right (Or.imp_right (Or.imp_left List.mem_of_mem_erase)))
  fresh_pos := h.fresh_pos
  freed_nodup := h.freed_nodup
  freed_out := h.freed_out

/-- A peer whose slots are all empty leaves the live ones. -/
theorem Slots.erase (h : c.Slots live ps) (hn : ∀ j, (c.peerOf p).sess.getD j none = none) :
    c.Slots live (ps.erase p) where
  alloc := fun q hq => h.alloc q (List.mem_of_mem_erase hq)
  length := fun q hq => h.length q (List.mem_of_mem_erase hq)
  live := fun q hq => h.live q (List.mem_of_mem_erase hq)
  unique := fun q hq => h.unique q (List.mem_of_mem_erase hq)
  dead := fun q hq j => by
    by_cases e : q = p
    · subst e; exact hn j
    · exact h.dead q (fun hm => hq ((List.mem_erase_of_ne e).mpr hm)) j

/-- `h2_peer_free` of a live peer keeps the invariant. -/
theorem h2PeerFree_inv (h : c.Lists xs vs ps) (hs : c.Slots (· ∈ xs) ps) (hp : p ∈ ps) :
    ∃ xs', (c.h2PeerFree b p).Lists xs' vs (ps.erase p) ∧
      (c.h2PeerFree b p).Slots (· ∈ xs') (ps.erase p) ∧
      (∀ y ∈ xs, y ∈ xs' ∨ y ∈ (c.h2PeerFree b p).freed) ∧ c.freed <+: (c.h2PeerFree b p).freed := by
  unfold h2PeerFree
  have hfold := foldl_range_induct (c := c) (R := fun k c' => ∃ xs', c'.Lists xs' vs ps ∧
      c'.Slots (· ∈ xs') ps ∧ (c'.peerOf p).sessNum = (c.peerOf p).sessNum ∧
      (∀ j < k, (c'.peerOf p).sess.getD j none = none) ∧
      (∀ y ∈ xs, y ∈ xs' ∨ y ∈ c'.freed) ∧ c.freed <+: c'.freed)
    (fun (c : Ctx) i => match (c.peerOf p).sess.getD i none with
      | none => c
      | some a => (c.sessFree b a).updPeer p fun pr => { pr with sess := pr.sess.set i none })
    (c.peerOf p).sessNum ⟨xs, h, hs, rfl, (fun _ h => absurd h (Nat.not_lt_zero _)),
      (fun _ hy => .inl hy), List.prefix_refl _⟩
    fun k c' _ ⟨xs', hl, hs', hn, hj, hy, hf⟩ => by
      dsimp only
      split
      · next hk => exact ⟨xs', hl, hs', hn, (fun j hj' => by
          rcases Nat.lt_succ_iff_lt_or_eq.mp hj' with hj' | rfl
          · exact hj j hj'
          · exact hk), hy, hf⟩
      · next a hk =>
        have ha := (hs'.live p hp k a hk).1
        obtain ⟨new, hG⟩ := sessFree_grows (b := b) hl hs' ha
        have hF := (sessFree_frame (b := b) hl ha) p
        have hal := hG.slots.alloc p hp
        refine ⟨_, hG.lists.of_shape rfl, hG.slots.updPeer hp (i := k) (v := none)
          (f := fun pr => { pr with sess := pr.sess.set k none })
          (fun j => by rw [getD_set_default]) (List.length_set _ _ _) rfl (fun _ h => by cases h),
          by rw [peerOf_updPeer_self hal]; exact hF.1.trans hn, fun j hj' => ?_,
          fun y hy' => ?_, hf.trans hG.freed⟩
        · rw [peerOf_updPeer_self hal]
          dsimp only
          rw [getD_set_default]
          split_ifs with e
          · rfl
          · have hjk : j < k := by omega
            rw [hF.2 j (fun h => by simp only [hj j hjk] at h; cases h), hj j hjk]
        · rcases hy y hy' with hy' | hy'
          · by_cases e : y = a
            · subst e
              exact .inr (mem_freed_sessFree (b := b) hl hs' ha)
            · exact .inl (List.mem_append_right _ ((List.mem_erase_of_ne e).mpr hy'))
          · exact .inr (hG.freed.subset hy')
  obtain ⟨xs', hl, hs', hn, hj, hy, hf⟩ := hfold
  refine ⟨xs', hl.unlinkPeer hp, (hs'.erase fun j => ?_).congr rfl (fun _ _ => rfl), hy, hf⟩
  by_cases hjn : j < (c.peerOf p).sessNum
  · exact hj j hjn
  · exact getD_eq_none_of_length_le (by rw [hs'.length p hp, hn]; omega)

theorem Lists.insertPeer (h : c.Lists xs vs ps) (pr : Peer) :
    ({ c with
      fresh := c.fresh + 1, peerL := c.peerL.insertHead 0 c.fresh, peerNum := c.peerNum + 1,
      peer := Function.update c.peer c.fresh (some pr) } : Ctx).Lists xs vs (c.fresh :: ps) where
  sess := h.sess
  svr := h.svr
  peer := h.peer.insertHead fun hm => (List.mem_cons.mp hm).elim (fun e => h.fresh_pos.ne' e)
    fun hm => h.ne_fresh (by simp [hm]) rfl
  sessNum := h.sessNum
  svrNum := h.svrNum
  peerNum := by rw [h.peerNum, List.length_cons]; push_cast; rfl
  lt_fresh := fun y hy => by
    simp only [List.append_assoc, List.mem_append, List.mem_cons] at hy
    rcases hy with hy | hy | (rfl | hy) | hy
    · exact Nat.lt_succ_of_lt (h.lt_fresh_sess hy)
    · exact Nat.lt_succ_of_lt (h.lt_fresh y (by simp [hy]))
    · exact Nat.lt_succ_self _
    all_goals exact Nat.lt_succ_of_lt (h.lt_fresh y (by simp [hy]))
  fresh_pos := Nat.succ_pos _
  freed_nodup := h.freed_nodup
  freed_out := h.freed_out

/-- A new peer with empty slots joins the live ones. -/
theorem Slots.insertPeer (h : c.Slots live ps) (hl : c.Lists xs vs ps) (pr : Peer)
    (hpr : pr.sess = List.replicate pr.sessNum none) :
    ({ c with
      fresh := c.fresh + 1, peerL := c.peerL.insertHead 0 c.fresh, peerNum := c.peerNum + 1,
      peer := Function.update c.peer c.fresh (some pr) } : Ctx).Slots live (c.fresh :: ps) := by
  have hne : ∀ q ∈ ps, q ≠ c.fresh := fun q hq => hl.ne_fresh (by simp [hq])
  have hold : ∀ q, q ≠ c.fresh → ({ c with
      fresh := c.fresh + 1, peerL := c.peerL.insertHead 0 c.fresh, peerNum := c.peerNum + 1,
      peer := Function.update c.peer c.fresh (some pr) } : Ctx).peerOf q = c.peerOf q :=
    fun q hq => by simp only [peerOf, Function.update_noteq hq]
  have hnew : ({ c with
      fresh := c.fresh + 1, peerL := c.peerL.insertHead 0 c.fresh, peerNum := c.peerNum + 1,
      peer := Function.update c.peer c.fresh (some pr) } : Ctx).peerOf c.fresh = pr := by
    simp only [peerOf, Function.update_same, Option.getD_some]
  have hempty : ∀ j, pr.sess.getD j none = none := fun j => by
    rw [hpr, List.getD_eq_getElem?_getD, List.getElem?_replicate]; split_ifs <;> rfl
  refine ⟨fun q hq => ?_, fun q hq => ?_, fun q hq j a ha => ?_, fun q hq j k a hj hk => ?_,
    fun q hq j => ?_⟩
  · rcases List.mem_cons.mp hq with rfl | hq
    · show (Function.update c.peer c.fresh (some pr) c.fresh).isSome; simp
    · show (Function.update c.peer c.fresh (some pr) q).isSome
      rw [Function.update_noteq (hne q hq)]; exact h.alloc q hq
  · rcases List.mem_cons.mp hq with rfl | hq
    · rw [hnew, hpr, List.length_replicate]
    · rw [hold q (hne q hq)]; exact h.length q hq
  · rcases List.mem_cons.mp hq with rfl | hq
    · rw [hnew, hempty] at ha; cases ha
    · rw [hold q (hne q hq)] at ha; exact h.live q hq j a ha
  · rcases List.mem_cons.mp hq with rfl | hq
    · rw [hnew, hempty] at hj; cases hj
    · rw [hold q (hne q hq)] at hj hk; exact h.unique q hq j k a hj hk
  · rw [hold q fun e => hq (e ▸ List.mem_cons_self _ _)]
    exact h.dead q (fun hm => hq (List.mem_cons_of_mem _ hm)) j

/-- `h2_peer_connect`: a new peer whose slots connect one by one, freed again when none did. -/
theorem h2PeerConnect_inv (h : c.Lists xs vs ps) (hs : c.Slots (· ∈ xs) ps) (n : Nat) (thr : Int) :
    ∃ xs', (c.h2PeerConnect b n thr).1.Lists xs' vs ((c.h2PeerConnect b n thr).2.toList ++ ps) ∧
      (c.h2PeerConnect b n thr).1.Slots (· ∈ xs') ((c.h2PeerConnect b n thr).2.toList ++ ps) := by
  have h1 := h.insertPeer (Peer.init n thr)
  have hs1 := hs.insertPeer h (Peer.init n thr) rfl
  unfold h2PeerConnect
  dsimp only
  obtain ⟨xs', hl, hs', -, -⟩ := foldl_range_induct (R := fun k c' => ∃ xs', c'.Lists xs' vs (c.fresh :: ps) ∧
      c'.Slots (· ∈ xs') (c.fresh :: ps) ∧ (c'.peerOf c.fresh).sessNum = n ∧
      ∀ j, k ≤ j → (c'.peerOf c.fresh).sess.getD j none = none)
    (fun (c' : Ctx) i => c'.peerConnectSess b c.fresh i) n
    ⟨xs, h1, hs1, by simp [peerOf, Peer.init], fun j _ => by
      simp only [peerOf, Function.update_same, Option.getD_some, Peer.init]
      rw [List.getD_eq_getElem?_getD, List.getElem?_replicate]; split_ifs <;> rfl⟩
    fun k c' hk ⟨xs', hl, hs', hn, hj⟩ => by
      have hp : c.fresh ∈ c.fresh :: ps := List.mem_cons_self _ _
      obtain ⟨new, hG⟩ := peerConnectSess_grows (b := b) hl hs' hp
        (by rw [hs'.length _ hp, hn]; exact hk) (hj k le_rfl)
      have hF := peerConnectSess_frame (b := b) (p := c.fresh) (i := k) hl c.fresh
      exact ⟨_, hG.lists, hG.slots, hF.1.trans hn, fun j hkj => by
        rw [hF.2 j fun e => by omega, hj j (by omega)]⟩
  split_ifs
  · obtain ⟨xs'', hl', hs'', -⟩ := h2PeerFree_inv (b := b) hl hs' (List.mem_cons_self _ _)
    rw [List.erase_cons_head] at hl' hs''
    exact ⟨xs'', hl', hs''⟩
  · exact ⟨xs', hl, hs'⟩

/-- Changing a peer's record but not its slots. -/
theorem Slots.updPeer_same (h : c.Slots live ps) (hs : (f (c.peerOf p)).sess = (c.peerOf p).sess)
    (hn : (f (c.peerOf p)).sessNum = (c.peerOf p).sessNum) : (c.updPeer p f).Slots live ps := by
  have key : ∀ q, ((c.updPeer p f).peerOf q).sess = (c.peerOf q).sess ∧
      ((c.updPeer p f).peerOf q).sessNum = (c.peerOf q).sessNum := fun q => by
    by_cases e : q = p
    · subst e
      cases hp : c.peer q with
      | none => simp [peerOf, Ctx.updPeer, hp]
      | some r => rw [peerOf_updPeer_self (by simp [hp])]; exact ⟨hs, hn⟩
    · rw [peerOf_updPeer_ne e]; exact ⟨rfl, rfl⟩
  refine ⟨fun q hq => ?_, fun q hq => ?_, fun q hq i a ha => ?_, fun q hq i j a => ?_,
    fun q hq i => ?_⟩
  · show (Function.update c.peer p ((c.peer p).map f) q).isSome
    by_cases e : q = p
    · subst e; simpa using h.alloc q hq
    · rw [Function.update_noteq e]; exact h.alloc q hq
  · rw [(key q).1, (key q).2]; exact h.length q hq
  · rw [(key q).1] at ha; exact h.live q hq i a ha
  · rw [(key q).1]; exact h.unique q hq i j a
  · rw [(key q).1]; exact h.dead q hq i

theorem Peer.sendRequest_frame {pr : Peer} {reqCnt : Nat → Nat} {o : PeerSend}
    (ho : pr.sendRequest reqCnt = some o) : o.peer.sess = pr.sess ∧ o.peer.sessNum = pr.sessNum := by
  unfold Peer.sendRequest at ho
  split_ifs at ho
  cases ho
  obtain ⟨l, hl⟩ := Peer.scan_peer reqCnt pr.nextSessIdx pr.sessNum 0 pr none []
  obtain ⟨hn, -, hs, -⟩ := Peer.foldl_deactivate_frame (p := pr) l
  exact ⟨by simp only [hl, hs], by simp only [hl, hn]⟩

theorem Peer.terminate_frame (pr : Peer) (w : Bool) :
    (pr.terminate w).2.1.sess = pr.sess ∧ (pr.terminate w).2.1.sessNum = pr.sessNum := by
  unfold Peer.terminate
  split
  · exact ⟨rfl, rfl⟩
  · obtain ⟨hn, -, hs, -⟩ := Peer.foldl_deactivate_frame
      (p := { pr with isTerminated := if w then 2 else 1 }) (List.range pr.sessNum)
    exact ⟨hs, hn⟩

/-- The invariant with the sessions `xs`, kept by routines leaving the callbacks alone. -/
theorem sessCall_inv (hc : c.Lists xs vs ps ∧ c.Slots (· ∈ xs) ps) {f : Sess → Int × Sess}
    (hf : KeepsCb f) : (c.sessCall a f).2.Lists xs vs ps ∧ (c.sessCall a f).2.Slots (· ∈ xs) ps :=
  ⟨hc.1.sessCall f, hc.2.sessCall hf⟩

/-- `h2_peer_send_request` changes no slot and leaves the callbacks alone. -/
theorem h2PeerSendRequest_inv (h : c.Lists xs vs ps) (hs : c.Slots (· ∈ xs) ps)
    (ng : Codec → Option Codec) {send : Sess → Int × Sess} (hsend : KeepsCb send) (p : Nat) :
    (c.h2PeerSendRequest b ng send p).1.Lists xs vs ps ∧
      (c.h2PeerSendRequest b ng send p).1.Slots (· ∈ xs) ps := by
  unfold h2PeerSendRequest
  split
  · exact ⟨h, hs⟩
  · next o ho =>
    have hf := Peer.sendRequest_frame ho
    have h2 := foldl_induct (P := fun c => c.Lists xs vs ps ∧ c.Slots (· ∈ xs) ps) _
      (fun c a hc => sessCall_inv (a := a) hc fun s => h2SessTerminate_freeCb (b := b) ng s true)
      o.terminated (c.updPeer p fun _ => o.peer) ⟨h.of_shape rfl, hs.updPeer_same hf.1 hf.2⟩
    dsimp only
    split
    · exact h2
    · exact sessCall_inv h2 hsend

/-- `h2_peer_terminate`: likewise. -/
theorem h2PeerTerminate_inv (h : c.Lists xs vs ps) (hs : c.Slots (· ∈ xs) ps)
    (ng : Codec → Option Codec) (p : Nat) (w : Bool) :
    (c.h2PeerTerminate b ng p w).1.Lists xs vs ps ∧
      (c.h2PeerTerminate b ng p w).1.Slots (· ∈ xs) ps := by
  have hf := Peer.terminate_frame (c.peerOf p) w
  refine foldl_induct (P := fun c => c.Lists xs vs ps ∧ c.Slots (· ∈ xs) ps) _
    (fun c o hc => ?_) _ _ ⟨h.of_shape rfl, hs.updPeer_same hf.1 hf.2⟩
  split
  · exact hc
  · exact sessCall_inv hc fun s => h2SessTerminate_freeCb (b := b) ng s w

end Ctx

end H2Sim
