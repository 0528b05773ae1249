import H2Sim.PeerRefine

/-! The poll build's service loop keeps the context's invariant. The fill frees only listed
sessions and gives each remaining one a single `pfd` entry; the dispatch then touches each
entry's session once, so no session is freed twice in a round. Every context reached from
`h2_ctx_init` through the API and rounds of `h2_ctx_run` therefore has well-formed, counted
lists, has freed no session twice, and fits its fill in `pfd`. -/
namespace H2Sim

/-- The session a `pfd_obj` entry stands for, if it is one. -/
def PollEntry.sess? (e : PollEntry) : Option Nat :=
  match e.obj with
  | .svr _ => none
  | .sess a => some a

/-- The session an action frees, if it is a free. -/
@[simp]
def Act.free? : Act → Option Nat
  | .free a => some a
  | _ => none

namespace Ctx

variable {b : Build} {bits : EvBits} {env : TickEnv} {c c' : Ctx} {xs vs ps : List Nat} {a : Nat}

theorem length_le_fresh {l : List Nat} (hn : (0 :: l).Nodup) (hl : ∀ x ∈ l, x < c.fresh) :
    l.length ≤ c.fresh :=
  (List.subperm_of_subset (List.nodup_cons.mp hn).2 fun x hx =>
    List.mem_range.mpr (hl x hx)).length_le.trans_eq (List.length_range _)

theorem Lists.sess_walk (h : c.Lists xs vs ps) : c.sessL.walk c.fresh (c.sessL.next 0) = xs :=
  h.sess.seg.walk (length_le_fresh h.sess.nodup fun _ hx => h.lt_fresh_sess hx)

theorem Lists.svr_walk (h : c.Lists xs vs ps) : c.svrL.walk c.fresh (c.svrL.next 0) = vs :=
  h.svr.seg.walk (length_le_fresh h.svr.nodup fun x hx => h.lt_fresh x (by simp [hx]))

theorem Lists.peer_walk (h : c.Lists xs vs ps) : c.peerL.walk c.fresh (c.peerL.next 0) = ps :=
  h.peer.seg.walk (length_le_fresh h.peer.nodup fun x hx => h.lt_fresh x (by simp [hx]))

theorem fillSvrs_length_le (fuel : Nat) (x : Option Nat) :
    (fillSvrs bits c fuel x).length ≤ (c.svrL.walk fuel x).length := by
  induction fuel generalizing x with
  | zero => exact le_rfl
  | succ fuel ih =>
    cases x with
    | none => exact le_rfl
    | some v =>
      have := ih (c.svrL.next v)
      rw [fillSvrs, Links.walk, List.length_append, List.length_cons]
      split_ifs <;> simp only [List.length_singleton, List.length_nil] <;> omega

theorem fillSvrs_sess (fuel : Nat) (x : Option Nat) :
    (fillSvrs bits c fuel x).filterMap PollEntry.sess? = [] := by
  induction fuel generalizing x with
  | zero => rfl
  | succ fuel ih =>
    cases x with
    | none => rfl
    | some v =>
      rw [fillSvrs, List.filterMap_append, ih]
      split_ifs <;> rfl

/-- Freeing a listed session after tagging why. -/
theorem freeWith_grows (h : c.Lists xs vs ps) (hs : c.Slots (· ∈ xs) ps) (ha : a ∈ xs)
    (r : CloseReason) : ∃ new, c.Grows (c.freeWith b r a) (xs.erase a) vs ps new := by
  have hG := (Grows.self h hs).updSess (a := a) (f := fun s => { s with closeReason := r })
    fun _ => rfl
  obtain ⟨new, hG'⟩ := sessFree_grows (b := b) hG.lists hG.slots ha
  exact ⟨new, hG'.of_fresh rfl (List.prefix_refl _)⟩

/-- The fill's walk over the sessions gives entries of distinct sessions of those behind it. -/
theorem fillSess_inv (bits : EvBits) (pre : List Nat) {rest : List Nat} {cur : Option Nat}
    (es : List PollEntry) (fuel : Nat)
    (h : c.Lists (pre ++ rest) vs ps) (hs : c.Slots (· ∈ pre ++ rest) ps)
    (hcur : cur = rest.head?) (hf : rest.length ≤ fuel)
    (hes : ∀ y ∈ es.filterMap PollEntry.sess?, y ∈ pre)
    (hnd : (es.filterMap PollEntry.sess?).Nodup) :
    ∃ xs', (fillSess b bits fuel cur (c, es)).1.Lists xs' vs ps ∧
      (fillSess b bits fuel cur (c, es)).1.Slots (· ∈ xs') ps ∧
      (fillSess b bits fuel cur (c, es)).2.length ≤ es.length + rest.length ∧
      (∀ y ∈ (fillSess b bits fuel cur (c, es)).2.filterMap PollEntry.sess?, y ∈ xs') ∧
      ((fillSess b bits fuel cur (c, es)).2.filterMap PollEntry.sess?).Nodup := by
  induction fuel generalizing c pre rest cur es with
  | zero =>
    obtain rfl : rest = [] := List.length_eq_zero.mp (Nat.le_zero.mp hf)
    exact ⟨pre ++ [], h, hs, Nat.le_add_right _ _,
      fun y hy => List.mem_append_left _ (hes y hy), hnd⟩
  | succ fuel ih =>
    cases rest with
    | nil =>
      obtain rfl : cur = none := hcur
      exact ⟨pre ++ [], h, hs, Nat.le_add_right _ _,
        fun y hy => List.mem_append_left _ (hes y hy), hnd⟩
    | cons x rest =>
      obtain rfl : cur = some x := hcur
      have hnext : c.sessL.next x = rest.head? := h.sess.next_of_append
      have hx : x ∉ pre := fun hx => by
        have := (List.nodup_cons.mp h.sess.nodup).2
        exact (List.nodup_append.mp this).2.2 hx (List.mem_cons_self x rest)
      rw [fillSess]
      split_ifs
      · -- a session asking for nothing: freed, and the walk goes on from the `next` read before
        obtain ⟨new, hG⟩ := freeWith_grows (b := b) h hs
          (List.mem_append_right _ (List.mem_cons_self x rest)) .httpEnd
        rw [List.erase_append_right _ hx, List.erase_cons_head] at hG
        have hL := hG.lists
        have hS := hG.slots
        rw [← List.append_assoc] at hL hS
        obtain ⟨xs', h1, h2, h3, h4, h5⟩ := ih (new ++ pre) es hL hS hnext
          (Nat.le_of_succ_le_succ hf) (fun y hy => List.mem_append_right _ (hes y hy)) hnd
        exact ⟨xs', h1, h2, h3.trans (by simp only [List.length_cons]; omega), h4, h5⟩
      · -- an entry for it
        have hsx :
            PollEntry.sess? ⟨(c.sessOf x).fd, pollMask bits (c.sessOf x), .sess x⟩ = some x := rfl
        have hE : List.filterMap PollEntry.sess?
            (es ++ [⟨(c.sessOf x).fd, pollMask bits (c.sessOf x), .sess x⟩]) =
            es.filterMap PollEntry.sess? ++ [x] := by
          rw [List.filterMap_append, List.filterMap_cons_some hsx, List.filterMap_nil]
        obtain ⟨xs', h1, h2, h3, h4, h5⟩ := ih (pre ++ [x])
          (es ++ [⟨(c.sessOf x).fd, pollMask bits (c.sessOf x), .sess x⟩])
          (by simpa using h) (by simpa using hs) hnext (Nat.le_of_succ_le_succ hf)
          (fun y hy => List.mem_append.mpr ((List.mem_append.mp (hE ▸ hy)).imp (hes y) id))
          (hE ▸ hnd.append (List.nodup_singleton x) fun y hy hy' =>
            hx (List.mem_singleton.mp hy' ▸ hes y hy))
        refine ⟨xs', h1, h2, h3.trans ?_, h4, h5⟩
        simp only [List.length_append, List.length_cons, List.length_nil]
        omega

/-- The fill frees those asking for nothing and gives each remaining session one entry. -/
theorem fill_inv (bits : EvBits) (h : c.Lists xs vs ps) (hs : c.Slots (· ∈ xs) ps) :
    ∃ xs', (c.fill b bits).1.Lists xs' vs ps ∧ (c.fill b bits).1.Slots (· ∈ xs') ps ∧
      (c.fill b bits).2.length ≤ vs.length + xs.length ∧
      (∀ y ∈ (c.fill b bits).2.filterMap PollEntry.sess?, y ∈ xs') ∧
      ((c.fill b bits).2.filterMap PollEntry.sess?).Nodup := by
  have hsvr : (fillSvrs bits c c.fresh (c.svrL.next 0)).filterMap PollEntry.sess? = [] :=
    fillSvrs_sess _ _
  have hlen : (fillSvrs bits c c.fresh (c.svrL.next 0)).length ≤ vs.length :=
    (fillSvrs_length_le _ _).trans_eq (congrArg List.length h.svr_walk)
  obtain ⟨xs', h1, h2, h3, h4, h5⟩ := fillSess_inv (b := b) bits [] _ c.fresh h hs
    h.sess.seg.next_head (length_le_fresh h.sess.nodup fun _ hx => h.lt_fresh_sess hx)
    (fun y hy => by rw [hsvr] at hy; cases hy) (by rw [hsvr]; exact List.nodup_nil)
  exact ⟨xs', h1, h2, h3.trans (Nat.add_le_add_right hlen _), h4, h5⟩

/-- `c'` keeps the invariant and lists every session of `xs` but `a`. -/
def Keeps (c' : Ctx) (xs vs ps : List Nat) (a : Nat) : Prop :=
  ∃ xs', c'.Lists xs' vs ps ∧ c'.Slots (· ∈ xs') ps ∧ ∀ y ∈ xs, y ≠ a → y ∈ xs'

theorem keeps_self (h : c.Lists xs vs ps) (hs : c.Slots (· ∈ xs) ps) : c.Keeps xs vs ps a :=
  ⟨xs, h, hs, fun _ hy _ => hy⟩

theorem Grows.keeps {new : List Nat} (h : c.Grows c' (xs.erase a) vs ps new) :
    c'.Keeps xs vs ps a :=
  ⟨_, h.lists, h.slots, fun _ hy hne =>
    List.mem_append_right _ ((List.mem_erase_of_ne hne).mpr hy)⟩

theorem freeWith_keeps (h : c.Lists xs vs ps) (hs : c.Slots (· ∈ xs) ps) (ha : a ∈ xs)
    (r : CloseReason) : (c.freeWith b r a).Keeps xs vs ps a :=
  let ⟨_, hG⟩ := freeWith_grows h hs ha r; hG.keeps

theorem sessFree_keeps (h : c.Lists xs vs ps) (hs : c.Slots (· ∈ xs) ps) (ha : a ∈ xs) :
    (c.sessFree b a).Keeps xs vs ps a :=
  let ⟨_, hG⟩ := sessFree_grows h hs ha; hG.keeps

theorem pollHupOn_keeps (h : c.Lists xs vs ps) (hs : c.Slots (· ∈ xs) ps) (ha : a ∈ xs)
    (rev : Nat) (acts : List Act) :
    (pollSess.pollHupOn b bits rev a c acts).1.Keeps xs vs ps a := by
  unfold pollSess.pollHupOn
  split_ifs
  · exact freeWith_keeps h hs ha _
  · exact freeWith_keeps h hs ha _
  · exact keeps_self h hs

theorem pollSendOn_keeps (hsend : KeepsCb env.send) (h : c.Lists xs vs ps)
    (hs : c.Slots (· ∈ xs) ps) (ha : a ∈ xs) (rev : Nat) (acts : List Act) :
    (pollSess.pollSendOn b bits env rev a c acts).1.Keeps xs vs ps a := by
  have h' := h.sessCall (a := a) env.send
  have hs' := hs.sessCall (a := a) hsend
  unfold pollSess.pollSendOn
  rcases hr : c.sessCall a env.send with ⟨n, c'⟩
  rw [hr] at h' hs'
  by_cases hb : rev &&& cOr bits.out bits.inp ≠ 0
  · rw [if_pos hb]
    dsimp only
    split_ifs
    · exact sessFree_keeps h' hs' ha
    · exact pollHupOn_keeps h' hs' ha rev _
  · rw [if_neg hb]
    exact pollHupOn_keeps h hs ha rev acts

/-- A session's events: whatever it frees is the session itself. -/
theorem pollSess_keeps (bits : EvBits) (henv : KeepsCb env.recv ∧ KeepsCb env.send)
    (h : c.Lists xs vs ps) (hs : c.Slots (· ∈ xs) ps) (ha : a ∈ xs) (rev : Nat) :
    (pollSess b bits env rev a c).1.Keeps xs vs ps a := by
  have h' := h.sessCall (a := a) env.recv
  have hs' := hs.sessCall (a := a) henv.1
  unfold pollSess
  rcases hr : c.sessCall a env.recv with ⟨n, c'⟩
  rw [hr] at h' hs'
  by_cases hb : rev &&& bits.inp ≠ 0
  · rw [if_pos hb]
    dsimp only
    split_ifs
    · exact sessFree_keeps h' hs' ha
    · exact pollSendOn_keeps henv.2 h' hs' ha rev _
  · rw [if_neg hb]
    exact pollSendOn_keeps henv.2 h hs ha rev []

theorem acceptOn_grows (env : TickEnv) (h : c.Lists xs vs ps) (hs : c.Slots (· ∈ xs) ps)
    (v : Nat) :
    ∃ new, c.Grows (c.acceptOn .poll env v).1 xs vs ps new := by
  unfold acceptOn
  split
  · exact ⟨[], Grows.self h hs⟩
  · exact h2SessInitServer_grows h hs v _ _

/-- The dispatch over entries whose sessions are distinct and listed. -/
theorem pollDispatch_inv (henv : KeepsCb env.recv ∧ KeepsCb env.send)
    (es : List (PollEntry × Nat)) (k : Nat) (h : c.Lists xs vs ps) (hs : c.Slots (· ∈ xs) ps)
    (hE : ∀ y ∈ (es.map Prod.fst).filterMap PollEntry.sess?, y ∈ xs)
    (hN : ((es.map Prod.fst).filterMap PollEntry.sess?).Nodup) :
    ∃ xs', (pollDispatch .poll bits env es k c).1.Lists xs' vs ps ∧
      (pollDispatch .poll bits env es k c).1.Slots (· ∈ xs') ps := by
  induction es generalizing c xs k with
  | nil => exact ⟨xs, h, hs⟩
  | cons er es ih =>
    obtain ⟨e, rev⟩ := er
    simp only [List.map_cons] at hE hN
    rw [pollDispatch]
    by_cases hk : k = 0
    · rw [if_pos hk]
      exact ⟨xs, h, hs⟩
    rw [if_neg hk]
    cases ho : e.obj with
    | svr v =>
      rw [List.filterMap_cons_none (by simp only [PollEntry.sess?, ho])] at hE hN
      dsimp only
      split_ifs
      · exact ih k h hs hE hN
      · obtain ⟨new, hG⟩ := acceptOn_grows env h hs v
        exact ih (k - 1) hG.lists hG.slots (fun y hy => List.mem_append_right _ (hE y hy)) hN
      · exact ih (k - 1) h hs hE hN
    | sess a =>
      have he : e.sess? = some a := by simp only [PollEntry.sess?, ho]
      rw [List.filterMap_cons_some he] at hE hN
      obtain ⟨ha, hN⟩ := List.nodup_cons.mp hN
      have hE' := fun y hy => hE y (List.mem_cons_of_mem a hy)
      dsimp only
      split_ifs
      · exact ih k h hs hE' hN
      · obtain ⟨xs', h1, h2, h3⟩ := pollSess_keeps (b := .poll) bits henv h hs
          (hE a (List.mem_cons_self a _)) rev
        exact ih (k - 1) h1 h2 (fun y hy => h3 y (hE' y hy) fun e => ha (e ▸ hy)) hN

/-- A round of the poll build keeps the invariant. -/
theorem pollRound_inv (henv : KeepsCb env.recv ∧ KeepsCb env.send) (h : c.Lists xs vs ps)
    (hs : c.Slots (· ∈ xs) ps) (pr : PollRes) (alloced : Int) :
    ∃ xs', (c.pollRound .poll bits env pr alloced).ctx.Lists xs' vs ps ∧
      (c.pollRound .poll bits env pr alloced).ctx.Slots (· ∈ xs') ps := by
  obtain ⟨xs', h1, h2, -, h4, h5⟩ := fill_inv (b := .poll) bits h hs
  unfold pollRound
  dsimp only
  split_ifs
  · exact ⟨xs', h1, h2⟩
  · cases pr with
    | ready revs =>
      have hz := List.map_fst_zip (c.fill .poll bits).2
        (revs ++ List.replicate (c.fill .poll bits).2.length 0) (by simp)
      exact pollDispatch_inv henv _ _ h1 h2 (by rw [hz]; exact h4) (by rw [hz]; exact h5)
    | _ => exact ⟨xs', h1, h2⟩

theorem pollHupOn_frees (rev : Nat) (acts : List Act) :
    ((pollSess.pollHupOn b bits rev a c acts).2.filterMap Act.free?).Sublist
      (acts.filterMap Act.free? ++ [a]) := by
  unfold pollSess.pollHupOn
  split_ifs
  · simp
  · simp
  · exact List.sublist_append_left _ _

theorem pollSendOn_frees (rev : Nat) (acts : List Act) :
    ((pollSess.pollSendOn b bits env rev a c acts).2.filterMap Act.free?).Sublist
      (acts.filterMap Act.free? ++ [a]) := by
  unfold pollSess.pollSendOn
  rcases c.sessCall a env.send with ⟨n, c'⟩
  by_cases hb : rev &&& cOr bits.out bits.inp ≠ 0
  · rw [if_pos hb]
    dsimp only
    split_ifs
    · simp
    · have h : ((pollSess.pollHupOn b bits rev a c' (acts ++ [Act.send a])).2.filterMap
          Act.free?).Sublist ((acts ++ [Act.send a]).filterMap Act.free? ++ [a]) :=
        pollHupOn_frees rev _
      rwa [List.filterMap_append, List.filterMap_cons_none rfl, List.filterMap_nil, List.append_nil] at h
  · rw [if_neg hb]
    exact pollHupOn_frees rev acts

/-- A session's events free at most the session itself, once. -/
theorem pollSess_frees (rev : Nat) :
    ((pollSess b bits env rev a c).2.filterMap Act.free?).Sublist [a] := by
  unfold pollSess
  rcases c.sessCall a env.recv with ⟨n, c'⟩
  by_cases hb : rev &&& bits.inp ≠ 0
  · rw [if_pos hb]
    dsimp only
    split_ifs
    · simp
    · exact pollSendOn_frees rev [.recv a]
  · rw [if_neg hb]
    exact pollSendOn_frees rev []

/-- The dispatch frees only its entries' sessions, each at most once, in their order. -/
theorem pollDispatch_frees (es : List (PollEntry × Nat)) (k : Nat) (c : Ctx) :
    ((pollDispatch b bits env es k c).2.filterMap Act.free?).Sublist
      ((es.map Prod.fst).filterMap PollEntry.sess?) := by
  induction es generalizing c k with
  | nil => exact List.Sublist.refl _
  | cons er es ih =>
    obtain ⟨e, rev⟩ := er
    rw [pollDispatch, List.map_cons]
    by_cases hk : k = 0
    · rw [if_pos hk]
      exact List.nil_sublist _
    rw [if_neg hk]
    cases ho : e.obj with
    | svr v =>
      rw [List.filterMap_cons_none (by simp only [PollEntry.sess?, ho])]
      dsimp only
      split_ifs
      · exact ih k c
      · rw [List.filterMap_append]
        unfold acceptOn
        split <;> exact ih (k - 1) _
      · exact ih (k - 1) c
    | sess a =>
      have he : e.sess? = some a := by simp only [PollEntry.sess?, ho]
      rw [List.filterMap_cons_some he]
      dsimp only
      split_ifs
      · exact (ih k c).trans (List.sublist_cons_self a _)
      · rw [List.filterMap_append, ← List.singleton_append]
        exact (pollSess_frees rev).append (ih (k - 1) _)

/-- The frees of a poll round are among the sessions the fill gave an entry. -/
theorem pollRound_frees (pr : PollRes) (alloced : Int) :
    ((c.pollRound b bits env pr alloced).acts.filterMap Act.free?).Sublist
      ((c.fill b bits).2.filterMap PollEntry.sess?) := by
  unfold pollRound
  dsimp only
  split_ifs
  · exact List.nil_sublist _
  · cases pr with
    | ready revs =>
      have hz := List.map_fst_zip (c.fill b bits).2
        (revs ++ List.replicate (c.fill b bits).2.length 0) (by simp)
      refine (pollDispatch_frees _ _ _).trans ?_
      rw [hz]
    | _ => exact List.nil_sublist _

theorem init_lists (ver : HttpVer) (fd : Nat) (conns : Nat → List ConnTry) :
    (Ctx.init ver fd conns).Lists [] [] [] where
  sess := ⟨rfl, List.nodup_singleton 0⟩
  svr := ⟨rfl, List.nodup_singleton 0⟩
  peer := ⟨rfl, List.nodup_singleton 0⟩
  sessNum := rfl
  svrNum := rfl
  peerNum := rfl
  lt_fresh := fun _ hx => by cases hx
  fresh_pos := Nat.one_pos
  freed_nodup := List.nodup_nil
  freed_out := fun _ hx => by cases hx

theorem init_slots (ver : HttpVer) (fd : Nat) (conns : Nat → List ConnTry) :
    (Ctx.init ver fd conns).Slots (· ∈ []) [] :=
  ⟨(fun _ h => by cases h), (fun _ h => by cases h), (fun _ h => by cases h),
    (fun _ h => by cases h), fun _ _ _ => rfl⟩

end Ctx

/-- What the poll build can do between two looks at its context: an API call, `h2_ctx_run` or
`h2_ctx_stop`, or a round of the service loop, all leaving the free callbacks alone. -/
inductive PollStep : Ctx → Ctx → Prop
  | listen (c : Ctx) (ssl cb : Bool) (tries : List ListenTry) (ok : Bool) :
    PollStep c (c.h2Listen .poll ssl cb tries ok).1
  | svrFree (c : Ctx) (v : Nat) (hv : v ∈ c.svrL.walk c.fresh (c.svrL.next 0)) :
    PollStep c (c.h2SvrFree .poll v)
  | connect (c : Ctx) (cb : FreeCb) : PollStep c (c.connectCall .poll cb).1
  | sessFree (c : Ctx) (a : Nat) (ha : a ∈ c.sessL.walk c.fresh (c.sessL.next 0)) :
    PollStep c (c.sessFree .poll a)
  | sessCall (c : Ctx) (a : Nat) (f : Sess → Int × Sess) (hf : Ctx.KeepsCb f) :
    PollStep c (c.sessCall a f).2
  | peerConnect (c : Ctx) (n : Nat) (thr : Int) : PollStep c (c.h2PeerConnect .poll n thr).1
  | peerFree (c : Ctx) (p : Nat) (hp : p ∈ c.peerL.walk c.fresh (c.peerL.next 0)) :
    PollStep c (c.h2PeerFree .poll p)
  | flag (c : Ctx) (f : Bool) : PollStep c { c with serviceFlag := f }
  | round (c : Ctx) (bits : EvBits) (env : TickEnv) (hr : Ctx.KeepsCb env.recv)
    (hs : Ctx.KeepsCb env.send) (pr : PollRes) (alloced : Int) :
    PollStep c (c.pollRound .poll bits env pr alloced).ctx

/-- The contexts of the poll build's runs from `h2_ctx_init`. -/
def PollReach (ver : HttpVer) (epollFd : Nat) (conns : Nat → List ConnTry) (c : Ctx) : Prop :=
  Relation.ReflTransGen PollStep (Ctx.init ver epollFd conns) c

namespace Ctx

variable {ver : HttpVer} {fd : Nat} {conns : Nat → List ConnTry}

/-- One step of the poll build keeps the invariant and moves each live peer by peer events. -/
theorem pollStep_refines (hs : PollStep c c') (h : c.Lists xs vs ps) (hsl : c.Slots (· ∈ xs) ps) :
    ∃ xs' vs' ps', c'.Lists xs' vs' ps' ∧ c'.Slots (· ∈ xs') ps' ∧ PeersRefine c c' ps ps' := by
  cases hs with
  | listen ssl cb tries ok =>
    obtain ⟨vs', h', hp, hse⟩ := h2Listen_lists (b := .poll) h ssl cb tries ok
    exact ⟨xs, vs', ps, h', hsl.congr hp fun y _ => by simp only [sessOf, hse],
      (PeersRun.of_peer hp).refine⟩
  | svrFree v hv =>
    rw [h.svr_walk] at hv
    obtain ⟨h', hp, hse⟩ := h2SvrFree_lists (b := .poll) h hv
    exact ⟨xs, _, ps, h', hsl.congr hp fun y _ => by simp only [sessOf, hse],
      (PeersRun.of_peer hp).refine⟩
  | connect cb =>
    obtain ⟨⟨hA, -⟩, -⟩ := connectCall_made (b := .poll) cb h
    exact ⟨_, vs, ps, hA.lists, hA.slots h hsl, (PeersRun.of_peer hA.peer).refine⟩
  | sessFree a ha =>
    rw [h.sess_walk] at ha
    obtain ⟨new, hG⟩ := sessFree_grows (b := .poll) h hsl ha
    exact ⟨_, vs, ps, hG.lists, hG.slots, sessFree_run.refine⟩
  | sessCall a f hf => exact ⟨xs, vs, ps, h.sessCall f, hsl.sessCall hf, (sessCall_run f).refine⟩
  | peerConnect n thr =>
    obtain ⟨xs', h', hs'⟩ := h2PeerConnect_inv (b := .poll) h hsl n thr
    exact ⟨xs', vs, _, h', hs', h2PeerConnect_refine h n thr⟩
  | peerFree p hp =>
    rw [h.peer_walk] at hp
    obtain ⟨xs', h', hs', -⟩ := h2PeerFree_inv (b := .poll) h hsl hp
    exact ⟨xs', vs, _, h', hs', h2PeerFree_refine h p⟩
  | flag f =>
    exact ⟨xs, vs, ps, h.of_shape rfl, hsl.congr rfl fun _ _ => rfl, (PeersRun.of_peer rfl).refine⟩
  | round bits env hr hs pr alloced =>
    obtain ⟨xs', h', hs'⟩ := pollRound_inv ⟨hr, hs⟩ h hsl pr alloced
    exact ⟨xs', vs, ps, h', hs', (pollRound_run pr alloced).refine⟩

theorem Inv.step (hi : c.Inv) (hs : PollStep c c') : c'.Inv :=
  let ⟨_, _, _, h, hsl⟩ := hi
  let ⟨xs', vs', ps', h', hs', _⟩ := pollStep_refines hs h hsl
  ⟨xs', vs', ps', h', hs'⟩

theorem Inv.reach (hr : PollReach ver fd conns c) : c.Inv := by
  induction hr with
  | refl => exact ⟨[], [], [], init_lists ver fd conns, init_slots ver fd conns⟩
  | tail _ hs ih => exact ih.step hs

theorem le_grow (alloced need : Int) : need ≤ grow alloced need := by
  unfold grow
  split_ifs <;> omega

/-- In every run of the poll build the three lists are well formed and counted by `sess_num`,
`svr_num` and `peer_num`. -/
theorem pollReach_lists (hr : PollReach ver fd conns c) :
    ∃ xs vs ps, c.sessL.DList 0 xs ∧ c.sessNum = xs.length ∧ c.svrL.DList 0 vs ∧
      c.svrNum = vs.length ∧ c.peerL.DList 0 ps ∧ c.peerNum = ps.length :=
  let ⟨xs, vs, ps, h, _⟩ := Inv.reach hr
  ⟨xs, vs, ps, h.sess, h.sessNum, h.svr, h.svrNum, h.peer, h.peerNum⟩

theorem pollReach_lists_connected :
    let c : Ctx := ((Ctx.init .v1_1 3 fun _ => [⟨some 5, true, none, true, true⟩]).connectCall .poll .app).1
    ∃ xs vs ps, c.sessL.DList 0 xs ∧ c.sessNum = xs.length ∧ c.svrL.DList 0 vs ∧
      c.svrNum = vs.length ∧ c.peerL.DList 0 ps ∧ c.peerNum = ps.length :=
  pollReach_lists (.single (.connect _ .app))

/-- In every run of the poll build no session is freed twice, and none freed is still in the
session list. -/
theorem pollReach_freed_once (hr : PollReach ver fd conns c) :
    c.freed.Nodup ∧ ∀ a ∈ c.freed, a ∉ c.sessL.walk c.fresh (c.sessL.next 0) :=
  let ⟨_, _, _, h, _⟩ := Inv.reach hr
  ⟨h.freed_nodup, fun a ha => h.sess_walk ▸ h.freed_out a ha⟩

/-- The EPOLL build's double-free round, in the poll build, frees the session once. -/
theorem pollReach_freed_once_terminated :
    let o := ((Ctx.init .v1_1 3 fun _ => [⟨some 5, true, none, true, true⟩]).connectCall .poll .app).1
    let env : TickEnv :=
      ⟨fun s => (0, (h2SessTerminate .poll (fun _ => none) s false).2), fun s => (0, s), fun _ => none⟩
    let c := (o.pollRound .poll linuxPoll env (.ready [linuxPoll.inp ||| linuxPoll.hup]) 1024).ctx
    c.freed.Nodup ∧ ∀ a ∈ c.freed, a ∉ c.sessL.walk c.fresh (c.sessL.next 0) :=
  pollReach_freed_once (.tail (.single (.connect _ .app))
    (.round _ _ _ (fun s => h2SessTerminate_freeCb _ s false) (fun _ => rfl) _ _))

/-- In every run of the poll build a round of the service loop frees each session at most
once: the frees it records are distinct sessions of its fill, in the fill's order. -/
theorem pollReach_round_frees_once (hr : PollReach ver fd conns c) (bits : EvBits)
    (env : TickEnv) (pr : PollRes) (alloced : Int) :
    ((c.pollRound .poll bits env pr alloced).acts.filterMap Act.free?).Nodup ∧
      ((c.pollRound .poll bits env pr alloced).acts.filterMap Act.free?).Sublist
        ((c.fill .poll bits).2.filterMap PollEntry.sess?) := by
  obtain ⟨xs, vs, ps, h, hs⟩ := Inv.reach hr
  obtain ⟨-, -, -, -, -, hnd⟩ := fill_inv (b := .poll) bits h hs
  exact ⟨List.Nodup.sublist (pollRound_frees pr alloced) hnd, pollRound_frees pr alloced⟩

/-- The EPOLL build's double-free round records one free in the poll build. -/
theorem pollReach_round_frees_once_terminated :
    let o := ((Ctx.init .v1_1 3 fun _ => [⟨some 5, true, none, true, true⟩]).connectCall .poll .app).1
    let env : TickEnv :=
      ⟨fun s => (0, (h2SessTerminate .poll (fun _ => none) s false).2), fun s => (0, s), fun _ => none⟩
    ((o.pollRound .poll linuxPoll env (.ready [linuxPoll.inp ||| linuxPoll.hup]) 1024).acts.filterMap
      Act.free?) = [1] ∧
    ((o.pollRound .poll linuxPoll env (.ready [linuxPoll.inp ||| linuxPoll.hup]) 1024).acts.filterMap
      Act.free?).Nodup ∧
    ((o.pollRound .poll linuxPoll env (.ready [linuxPoll.inp ||| linuxPoll.hup]) 1024).acts.filterMap
      Act.free?).Sublist ((o.fill .poll linuxPoll).2.filterMap PollEntry.sess?) :=
  ⟨by decide, pollReach_round_frees_once (.single (.connect _ .app)) _ _ _ _⟩

/-- In every run of the poll build each slot of a listed peer holds a listed session, in that
slot only, whose free callback is the peer's. -/
theorem pollReach_slots (hr : PollReach ver fd conns c) :
    ∀ p ∈ c.peerL.walk c.fresh (c.peerL.next 0), ∀ i a, (c.peerOf p).sess.getD i none = some a →
      a ∈ c.sessL.walk c.fresh (c.sessL.next 0) ∧ (c.sessOf a).freeCb = .peer p ∧
      ∀ j, (c.peerOf p).sess.getD j none = some a → i = j := by
  obtain ⟨_, _, _, h, hs⟩ := Inv.reach hr
  rw [h.peer_walk, h.sess_walk]
  exact fun p hp i a ha => ⟨(hs.live p hp i a ha).1, (hs.live p hp i a ha).2,
    fun j hj => hs.unique p hp i j a ha hj⟩

theorem pollReach_slots_peer :
    let c : Ctx := ({ Ctx.init .v1_1 3 (fun k => [⟨some (5 + k), true, none, true, true⟩]) with
      serviceFlag := true }.h2PeerConnect .poll 2 0).1
    ∀ p ∈ c.peerL.walk c.fresh (c.peerL.next 0), ∀ i a, (c.peerOf p).sess.getD i none = some a →
      a ∈ c.sessL.walk c.fresh (c.sessL.next 0) ∧ (c.sessOf a).freeCb = .peer p ∧
      ∀ j, (c.peerOf p).sess.getD j none = some a → i = j :=
  pollReach_slots (.tail (.single (.flag _ true)) (.peerConnect _ 2 0))

/-- In every run of the poll build the next round's fill fits in `pfd` as resized at the top
of the round: at most one entry per listed listener and session. -/
theorem pollReach_fill_fits (hr : PollReach ver fd conns c) (bits : EvBits) (alloced : Int) :
    ((c.fill .poll bits).2.length : Int) ≤ grow alloced (c.sessNum + c.svrNum) := by
  obtain ⟨xs, vs, _, h, hs⟩ := Inv.reach hr
  obtain ⟨-, -, -, hl, -, -⟩ := fill_inv (b := .poll) bits h hs
  calc ((c.fill .poll bits).2.length : Int) ≤ vs.length + xs.length := by exact_mod_cast hl
    _ = c.sessNum + c.svrNum := by rw [h.sessNum, h.svrNum, add_comm]
    _ ≤ grow alloced (c.sessNum + c.svrNum) := le_grow _ _

theorem pollReach_fill_fits_listening :
    let c : Ctx := ((Ctx.init .v1_1 3 fun _ => []).h2Listen .poll false false [⟨some 4, true, true⟩] true).1
    ((c.fill .poll linuxPoll).2.length : Int) ≤ grow 1024 (c.sessNum + c.svrNum) :=
  pollReach_fill_fits (.single (.listen _ false false _ true)) linuxPoll 1024

end Ctx

/-- The poll build's steps with the rest of the peer API: `h2_peer_send_request`, its
`h2_send_request` leaving the free callback alone, and `h2_peer_terminate`. -/
inductive ApiStep : Ctx → Ctx → Prop
  | poll {c c' : Ctx} (hs : PollStep c c') : ApiStep c c'
  | peerSend (c : Ctx) (ng : Codec → Option Codec) (send : Sess → Int × Sess)
    (hs : Ctx.KeepsCb send) (p : Nat) : ApiStep c (c.h2PeerSendRequest .poll ng send p).1
  | peerTerminate (c : Ctx) (ng : Codec → Option Codec) (p : Nat) (waitRsp : Bool) :
    ApiStep c (c.h2PeerTerminate .poll ng p waitRsp).1

/-- The contexts of those runs from `h2_ctx_init`. -/
def ApiReach (ver : HttpVer) (epollFd : Nat) (conns : Nat → List ConnTry) (c : Ctx) : Prop :=
  Relation.ReflTransGen ApiStep (Ctx.init ver epollFd conns) c

namespace Ctx

variable {ver : HttpVer} {fd : Nat} {conns : Nat → List ConnTry}

theorem apiStep_refines (hs : ApiStep c c') (h : c.Lists xs vs ps) (hsl : c.Slots (· ∈ xs) ps) :
    ∃ xs' vs' ps', c'.Lists xs' vs' ps' ∧ c'.Slots (· ∈ xs') ps' ∧ PeersRefine c c' ps ps' := by
  cases hs with
  | poll hs => exact pollStep_refines hs h hsl
  | peerSend ng send hsend p =>
    obtain ⟨h', hs'⟩ := h2PeerSendRequest_inv h hsl ng hsend p
    exact ⟨xs, vs, ps, h', hs', (h2PeerSendRequest_run ng send p).refine⟩
  | peerTerminate ng p w =>
    obtain ⟨h', hs'⟩ := h2PeerTerminate_inv h hsl ng p w
    exact ⟨xs, vs, ps, h', hs', (h2PeerTerminate_run ng p w).refine⟩

/-- The invariant with the live peers' records reached by the peer model. -/
theorem apiReach_inv (hr : ApiReach ver fd conns c) :
    ∃ xs vs ps, c.Lists xs vs ps ∧ c.Slots (· ∈ xs) ps ∧ ∀ q ∈ ps, PeerReach (c.peerOf q) := by
  induction hr with
  | refl => exact ⟨[], [], [], init_lists ver fd conns, init_slots ver fd conns, fun _ h => by cases h⟩
  | tail _ hs ih =>
    obtain ⟨xs, vs, ps, h, hsl, hp⟩ := ih
    obtain ⟨xs', vs', ps', h', hs', hR⟩ := apiStep_refines hs h hsl
    exact ⟨xs', vs', ps', h', hs', hR.reach hp⟩

/-- In every run with the peer API each listed peer is one the peer model reaches from
`h2_peer_connect`, so its slot invariant holds. -/
theorem apiReach_peers_ok (hr : ApiReach ver fd conns c) :
    ∀ p ∈ c.peerL.walk c.fresh (c.peerL.next 0), PeerReach (c.peerOf p) ∧ (c.peerOf p).Ok := by
  obtain ⟨_, _, _, h, -, hp⟩ := apiReach_inv hr
  rw [h.peer_walk]
  exact fun p hq => ⟨hp p hq, (hp p hq).ok⟩

theorem apiReach_peers_ok_terminated :
    let c0 : Ctx := ({ Ctx.init .v1_1 3 (fun k => [⟨some (5 + k), true, none, true, true⟩]) with
      serviceFlag := true }.h2PeerConnect .poll 2 1).1
    let c1 := (c0.h2PeerSendRequest .poll (fun _ => none) (fun s => (0, s)) 1).1
    let c := (c1.h2PeerTerminate .poll (fun _ => none) 1 true).1
    ∀ p ∈ c.peerL.walk c.fresh (c.peerL.next 0), PeerReach (c.peerOf p) ∧ (c.peerOf p).Ok :=
  apiReach_peers_ok (.tail (.tail (.tail (.single (.poll (.flag _ true)))
    (.poll (.peerConnect _ 2 1))) (.peerSend _ _ _ (fun _ => rfl) 1)) (.peerTerminate _ _ 1 true))

end Ctx

end H2Sim
