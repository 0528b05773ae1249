import H2Sim.FillSpec

/-! A round of the poll build takes no session off the list without saying why. A session
leaves the list in a round only through `h2_sess_free`: in the fill, asking for no event,
with `CLOSE_BY_HTTP_END` (the `FillSpec` module); or in the dispatch, after its receive or
send failed or on a hang-up or an error event, tagged (the `FreeTags` module). A free
callback frees no other session. So every session listed before a round and not after it has
its `close_reason` set. -/
namespace H2Sim

namespace Ctx

variable {b : Build} {env : TickEnv} {c : Ctx} {xs vs ps : List Nat} {a : Nat}

/-- `c'` keeps the invariant and lists every session of `xs` but `a`, and `a` too unless
`acts` freed it. -/
def KeepsUnless (c' : Ctx) (xs vs ps : List Nat) (a : Nat) (acts : List Act) : Prop :=
  ∃ xs', c'.Lists xs' vs ps ∧ c'.Slots (· ∈ xs') ps ∧
    ∀ y ∈ xs, y ∈ xs' ∨ y = a ∧ a ∈ acts.filterMap Act.free?

theorem Keeps.unless {c' : Ctx} (h : c'.Keeps xs vs ps a) {acts : List Act}
    (hf : a ∈ acts.filterMap Act.free?) : c'.KeepsUnless xs vs ps a acts :=
  let ⟨xs', h1, h2, h3⟩ := h
  ⟨xs', h1, h2, fun y hy => if e : y = a then .inr ⟨e, hf⟩ else .inl (h3 y hy e)⟩

theorem keepsUnless_self (h : c.Lists xs vs ps) (hs : c.Slots (· ∈ xs) ps) (acts : List Act) :
    c.KeepsUnless xs vs ps a acts :=
  ⟨xs, h, hs, fun _ hy => .inl hy⟩

theorem mem_free_append (acts more : List Act) (h : Act.free a ∈ more) :
    a ∈ (acts ++ more).filterMap Act.free? :=
  List.mem_filterMap.mpr ⟨.free a, List.mem_append_right _ h, rfl⟩

variable (bits : EvBits)

theorem pollHupOn_stays (h : c.Lists xs vs ps) (hs : c.Slots (· ∈ xs) ps) (ha : a ∈ xs) (rev : Nat)
    (acts : List Act) :
    (pollSess.pollHupOn b bits rev a c acts).1.KeepsUnless xs vs ps a (pollSess.pollHupOn b bits rev a c acts).2 := by
  unfold pollSess.pollHupOn
  split_ifs
  · exact (freeWith_keeps h hs ha _).unless (mem_free_append acts _ (List.mem_singleton_self _))
  · exact (freeWith_keeps h hs ha _).unless (mem_free_append acts _ (List.mem_singleton_self _))
  · exact keepsUnless_self h hs acts

theorem pollSendOn_stays (hsend : KeepsCb env.send) (h : c.Lists xs vs ps) (hs : c.Slots (· ∈ xs) ps)
    (ha : a ∈ xs) (rev : Nat) (acts : List Act) :
    (pollSess.pollSendOn b bits env rev a c acts).1.KeepsUnless xs vs ps a
      (pollSess.pollSendOn b bits env rev a c acts).2 := by
  have h' := h.sessCall (a := a) env.send
  have hs' := hs.sessCall (a := a) hsend
  unfold pollSess.pollSendOn
  rcases hr : c.sessCall a env.send with ⟨n, c'⟩
  rw [hr] at h' hs'
  by_cases hb : rev &&& cOr bits.out bits.inp ≠ 0
  · rw [if_pos hb]
    dsimp only
    split_ifs
    · exact (sessFree_keeps h' hs' ha).unless (mem_free_append acts _ (by simp))
    · exact pollHupOn_stays bits h' hs' ha rev _
  · rw [if_neg hb]
    exact pollHupOn_stays bits h hs ha rev acts

/-- A session's events keep every other session listed, and itself unless they free it. -/
theorem pollSess_stays (henv : KeepsCb env.recv ∧ KeepsCb env.send) (h : c.Lists xs vs ps)
    (hs : c.Slots (· ∈ xs) ps) (ha : a ∈ xs) (rev : Nat) :
    (pollSess b bits env rev a c).1.KeepsUnless xs vs ps a (pollSess b bits env rev a c).2 := by
  have h' := h.sessCall (a := a) env.recv
  have hs' := hs.sessCall (a := a) henv.1
  unfold pollSess
  rcases hr : c.sessCall a env.recv with ⟨n, c'⟩
  rw [hr] at h' hs'
  by_cases hb : rev &&& bits.inp ≠ 0
  · rw [if_pos hb]
    dsimp only
    split_ifs
    · exact (sessFree_keeps h' hs' ha).unless (mem_free_append [] _ (by simp))
    · exact pollSendOn_stays bits henv.2 h' hs' ha rev _
  · rw [if_neg hb]
    exact pollSendOn_stays bits henv.2 h hs ha rev []

/-- A listed session leaves the list in the dispatch only by a free it records. -/
theorem pollDispatch_stays (henv : KeepsCb env.recv ∧ KeepsCb env.send) (es : List (PollEntry × Nat)) (k : Nat)
    (h : c.Lists xs vs ps) (hs : c.Slots (· ∈ xs) ps) (hE : ∀ y ∈ entrySess es, y ∈ xs)
    (hN : (entrySess es).Nodup) :
    ∃ xs', (pollDispatch .poll bits env es k c).1.Lists xs' vs ps ∧
      (pollDispatch .poll bits env es k c).1.Slots (· ∈ xs') ps ∧
      ∀ y ∈ xs, y ∈ xs' ∨ y ∈ (pollDispatch .poll bits env es k c).2.filterMap Act.free? := by
  induction es generalizing c xs k with
  | nil => exact ⟨xs, h, hs, fun _ hy => .inl hy⟩
  | cons er es ih =>
    obtain ⟨e, rev⟩ := er
    rw [pollDispatch]
    by_cases hk : k = 0
    · rw [if_pos hk]
      exact ⟨xs, h, hs, fun _ hy => .inl hy⟩
    rw [if_neg hk]
    cases ho : e.obj with
    | svr v =>
      rw [entrySess_cons_svr ho] at hE hN
      dsimp only
      split_ifs
      · exact ih k h hs hE hN
      · obtain ⟨new, hG⟩ := acceptOn_grows env h hs v
        obtain ⟨xs', h1, h2, h3⟩ :=
          ih (k - 1) hG.lists hG.slots (fun y hy => List.mem_append_right _ (hE y hy)) hN
        refine ⟨xs', h1, h2, fun y hy => (h3 y (List.mem_append_right _ hy)).imp_right fun hf => ?_⟩
        rwa [List.filterMap_append, acceptOn_frees, List.nil_append]
      · exact ih (k - 1) h hs hE hN
    | sess a =>
      rw [entrySess_cons_sess ho] at hE hN
      obtain ⟨ha, hN⟩ := List.nodup_cons.mp hN
      have hE' := fun y hy => hE y (List.mem_cons_of_mem a hy)
      dsimp only
      split_ifs
      · exact ih k h hs hE' hN
      · obtain ⟨xs₁, h1, h2, h3⟩ := pollSess_stays (b := .poll) bits henv h hs (hE a (List.mem_cons_self a _)) rev
        obtain ⟨xs₂, h4, h5, h6⟩ := ih (k - 1) h1 h2
          (fun y hy => (h3 y (hE' y hy)).resolve_right fun ⟨e, _⟩ => ha (e ▸ hy)) hN
        refine ⟨xs₂, h4, h5, fun y hy => ?_⟩
        rw [List.filterMap_append, List.mem_append]
        rcases h3 y hy with hy₁ | ⟨rfl, hf⟩
        · exact (h6 y hy₁).imp_right .inr
        · exact .inr (.inl hf)

/-- A round keeping the callbacks and tagging failures unlists only tagged sessions. -/
theorem pollRound_unlisted_tagged (hk : KeepsCb env.recv ∧ KeepsCb env.send)
    (ht : TagsFailure env.recv ∧ TagsFailure env.send) (h : c.Lists xs vs ps) (hs : c.Slots (· ∈ xs) ps)
    (pr : PollRes) (alloced : Int) :
    ∃ xs', (c.pollRound .poll bits env pr alloced).ctx.Lists xs' vs ps ∧
      ∀ a ∈ xs, a ∉ xs' → (c.pollRound .poll bits env pr alloced).ctx.Tagged a := by
  obtain ⟨xs₁, h1, h2, h3, h4, h5⟩ := @fill_stays .poll bits c xs vs ps h hs
  -- a session the fill took off the list asked for no event, and its record says so
  have hfill : ∀ a ∈ xs, a ∉ xs₁ → sessEntry bits c a = none ∧ (c.fill .poll bits).1.Tagged a ∧
      a < (c.fill .poll bits).1.fresh := fun a ha hn => by
    have hn₁ : sessEntry bits c a = none := by_contra fun hs => hn ((h5 a ha).1 hs)
    obtain ⟨hf, hr⟩ := (h5 a ha).2 hn₁
    exact ⟨hn₁, tagged_of_httpEnded hr, h1.lt_fresh a (List.mem_append_right _ hf)⟩
  unfold pollRound
  dsimp only
  split_ifs
  · exact ⟨xs₁, h1, fun a ha hn => (hfill a ha hn).2.1⟩
  · cases pr with
    | ready revs =>
      have hz : entrySess ((c.fill .poll bits).2.zip (revs ++ List.replicate (c.fill .poll bits).2.length 0)) =
          (c.fill .poll bits).2.filterMap PollEntry.sess? := by
        rw [entrySess, List.map_fst_zip _ _ (by simp)]
      obtain ⟨xs₂, h6, -, h7⟩ := pollDispatch_stays bits hk _ (revs.countP (· ≠ 0)) h1 h2
        (fun y hy => (h4 y (hz ▸ hy)).1) (hz ▸ h3)
      have hd := @pollDispatch_out .poll _ bits env ⟨by decide, by decide⟩ ht.1 ht.2 _ (revs.countP (· ≠ 0)) _
        (fun y hy => h1.lt_fresh_sess (h4 y (hz ▸ hy)).1) (hz ▸ h3)
      refine ⟨xs₂, h6, fun a ha hn => ?_⟩
      by_cases ha₁ : a ∈ xs₁
      · exact hd.2 a ((h7 a ha₁).resolve_left hn)
      · -- freed by the fill: it has no entry, so the dispatch leaves its record alone
        obtain ⟨hn₁, ht₁, hlt⟩ := hfill a ha ha₁
        exact hd.1.tagged hlt (fun hm => (h4 a (hz ▸ hm)).2 hn₁) ht₁
    | _ => exact ⟨xs₁, h1, fun a ha hn => (hfill a ha hn).2.1⟩

variable {ver : HttpVer} {fd : Nat} {conns : Nat → List ConnTry}

/-- In every run of the poll build a round whose routines keep the free callbacks and tag their
failures takes no session off the list without a `close_reason`. -/
theorem pollReach_round_unlisted_tagged (hr : PollReach ver fd conns c) (env : TickEnv)
    (hk : KeepsCb env.recv ∧ KeepsCb env.send) (ht : TagsFailure env.recv ∧ TagsFailure env.send)
    (pr : PollRes) (alloced : Int) :
    ∀ a ∈ c.sessL.walk c.fresh (c.sessL.next 0),
      a ∉ (c.pollRound .poll bits env pr alloced).ctx.sessL.walk (c.pollRound .poll bits env pr alloced).ctx.fresh
        ((c.pollRound .poll bits env pr alloced).ctx.sessL.next 0) →
      ∀ s, (c.pollRound .poll bits env pr alloced).ctx.sess a = some s → s.closeReason ≠ .none := by
  obtain ⟨xs, vs, ps, h, hs⟩ := Inv.reach hr
  obtain ⟨xs', h', hT⟩ := pollRound_unlisted_tagged bits hk ht h hs pr alloced
  rw [h.sess_walk, h'.sess_walk]
  exact hT

/-- A client whose peer has closed leaves the list with `CLOSE_BY_SOCK_EOF`. -/
theorem pollReach_round_unlisted_tagged_eof :
    let c : Ctx := ((Ctx.init .v1_1 3 fun _ => [⟨some 5, true, none, true, true⟩]).connectCall .poll .app).1
    let env : TickEnv := ⟨(h2Env .poll ⟨fun _ => 0, fun _ => 0⟩ (fun _ => 0) (fun cd _ => (0, cd))
      (fun _ => ⟨0, [], .other, .other⟩) 16 16 (fun _ _ => ⟨fun n => ⟨n, .other, .other⟩, fun n => ⟨n, .other, .other⟩⟩)
      (fun _ => none)).recv, fun s => (0, s), fun _ => none⟩
    c.sessL.walk c.fresh (c.sessL.next 0) = [1] ∧
      (c.pollRound .poll linuxPoll env (.ready [linuxPoll.inp]) 1024).ctx.sessL.walk
        (c.pollRound .poll linuxPoll env (.ready [linuxPoll.inp]) 1024).ctx.fresh
        ((c.pollRound .poll linuxPoll env (.ready [linuxPoll.inp]) 1024).ctx.sessL.next 0) = [] ∧
      ((c.pollRound .poll linuxPoll env (.ready [linuxPoll.inp]) 1024).ctx.sessOf 1).closeReason = .sockEof ∧
      ∀ a ∈ c.sessL.walk c.fresh (c.sessL.next 0),
        a ∉ (c.pollRound .poll linuxPoll env (.ready [linuxPoll.inp]) 1024).ctx.sessL.walk
          (c.pollRound .poll linuxPoll env (.ready [linuxPoll.inp]) 1024).ctx.fresh
          ((c.pollRound .poll linuxPoll env (.ready [linuxPoll.inp]) 1024).ctx.sessL.next 0) →
        ∀ s, (c.pollRound .poll linuxPoll env (.ready [linuxPoll.inp]) 1024).ctx.sess a = some s →
          s.closeReason ≠ .none :=
  ⟨rfl, rfl, rfl, pollReach_round_unlisted_tagged linuxPoll (.single (.connect _ .app)) _
    (by exact ⟨fun s => by simp [h2Env, h2SessRecv], fun _ => rfl⟩)
    (by exact ⟨(h2Env_recv_tags .poll _ _ _ _ 16 16 (fun _ _ => ⟨fun n => ⟨n, .other, .other⟩,
      fun n => ⟨n, .other, .other⟩⟩) (fun _ => none)).mono fun _ => ne_none_of_mem_pollFreeTags,
      fun _ h => absurd h (lt_irrefl 0)⟩) _ _⟩

end Ctx

end H2Sim
