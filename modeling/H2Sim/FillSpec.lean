import H2Sim.FreeTags

/-! The fill of the poll build (lines 1761-1798) against what it is for. The code walks the
listener list, then the session list by `next`, freeing on the way each session that asks
for no event; a free's callback may reconnect a peer, which inserts a session at the head of
the list, behind the walk. The result is still the plain filter of the two lists as they
were: one entry per listener with an accept socket, then one per session asking for an event,
with those events, in list order; every session asking for none leaves the list with
`CLOSE_BY_HTTP_END`. -/
namespace H2Sim

namespace Ctx

variable {b : Build} {bits : EvBits} {c : Ctx} {xs vs ps : List Nat} {a : Nat}

/-- The entry lines 1763-1770 make for the listener `v`, if any. -/
def svrEntry (bits : EvBits) (c : Ctx) (v : Nat) : Option PollEntry :=
  let svr := (c.svr v).getD ⟨-1, false, false⟩
  if 0 ≤ svr.acceptFd then some ⟨svr.acceptFd.toNat, bits.inp, .svr v⟩ else none

/-- The entry lines 1772-1795 make for the session `a`: none when it asks for no event. -/
def sessEntry (bits : EvBits) (c : Ctx) (a : Nat) : Option PollEntry :=
  if pollMask bits (c.sessOf a) = 0 then none
  else some ⟨(c.sessOf a).fd, pollMask bits (c.sessOf a), .sess a⟩

theorem fillSvrs_eq (fuel : Nat) (x : Option Nat) :
    fillSvrs bits c fuel x = (c.svrL.walk fuel x).filterMap (svrEntry bits c) := by
  induction fuel generalizing x with
  | zero => rfl
  | succ fuel ih =>
    cases x with
    | none => rfl
    | some v =>
      rw [fillSvrs, Links.walk, ih]
      split_ifs with h0
      · exact (List.filterMap_cons_some (f := svrEntry bits c) (if_pos h0)).symm
      · exact (List.filterMap_cons_none (f := svrEntry bits c) (if_neg h0)).symm

theorem sessEntry_congr {c' : Ctx} (h : c'.sess a = c.sess a) : sessEntry bits c' a = sessEntry bits c a := by
  simp only [sessEntry, sessOf, h]

/-- The record `freeWith` leaves for the session it frees: the one it had, tagged. -/
theorem freeWith_sess_self (ha : a < c.fresh) (r : CloseReason) :
    (c.freeWith b r a).sess a = (c.sess a).map fun s => { s with closeReason := r } := by
  have h : (c.updSess a fun s => { s with closeReason := r }).OldKept (c.freeWith b r a) (fun _ => False) :=
    OldKept.refl.sessFree b a
  rw [h.2 a ha id]
  exact Function.update_same _ _ _

theorem mem_freed_freeWith (h : c.Lists xs vs ps) (hs : c.Slots (· ∈ xs) ps) (ha : a ∈ xs) (r : CloseReason) :
    a ∈ (c.freeWith b r a).freed :=
  have hG := (Grows.self h hs).updSess (a := a) (f := fun s => { s with closeReason := r }) fun _ => rfl
  mem_freed_sessFree hG.lists hG.slots ha

/-- The record of a session asking for nothing once the fill freed it. -/
abbrev httpEnded (o : Option Sess) : Option Sess := o.map fun s => { s with closeReason := .httpEnd }

/-- The fill's walk appends `rest`'s entries and frees those asking for nothing, tagged. -/
theorem fillSess_spec (pre : List Nat) {rest : List Nat} {cur : Option Nat} (es : List PollEntry) (fuel : Nat)
    (h : c.Lists (pre ++ rest) vs ps) (hs : c.Slots (· ∈ pre ++ rest) ps)
    (hcur : cur = rest.head?) (hf : rest.length ≤ fuel) :
    (fillSess b bits fuel cur (c, es)).2 = es ++ rest.filterMap (sessEntry bits c) ∧
      c.OldKept (fillSess b bits fuel cur (c, es)).1 (· ∈ rest) ∧
      c.freed <+: (fillSess b bits fuel cur (c, es)).1.freed ∧
      ∀ a ∈ rest, sessEntry bits c a = none → a ∈ (fillSess b bits fuel cur (c, es)).1.freed ∧
        (fillSess b bits fuel cur (c, es)).1.sess a = httpEnded (c.sess a) := by
  induction fuel generalizing c pre rest cur es with
  | zero =>
    obtain rfl : rest = [] := List.length_eq_zero.mp (Nat.le_zero.mp hf)
    exact ⟨(List.append_nil _).symm, .refl, List.prefix_refl _, fun _ h => nomatch h⟩
  | succ fuel ih =>
    cases rest with
    | nil =>
      obtain rfl : cur = none := hcur
      exact ⟨(List.append_nil _).symm, .refl, List.prefix_refl _, fun _ h => nomatch h⟩
    | cons x rest =>
      obtain rfl : cur = some x := hcur
      have hnext : c.sessL.next x = rest.head? := h.sess.next_of_append
      have hnd := List.nodup_append.mp (List.nodup_cons.mp h.sess.nodup).2
      have hx : x ∉ pre := fun hx => hnd.2.2 hx (List.mem_cons_self x rest)
      have hxr : x ∉ rest := (List.nodup_cons.mp hnd.2.1).1
      have hlt : ∀ y ∈ x :: rest, y < c.fresh := fun y hy => h.lt_fresh_sess (List.mem_append_right _ hy)
      rw [fillSess]
      split_ifs with h0
      · -- a session asking for nothing: freed, and the walk goes on from the `next` read before
        obtain ⟨new, hG⟩ := freeWith_grows (b := b) h hs
          (List.mem_append_right _ (List.mem_cons_self x rest)) .httpEnd
        rw [List.erase_append_right _ hx, List.erase_cons_head] at hG
        have hL := hG.lists
        have hS := hG.slots
        rw [← List.append_assoc] at hL hS
        have hk : c.OldKept (c.freeWith b .httpEnd x) (· = x) := (OldKept.refl.updSelf _).sessFree b x
        have hrest : ∀ y ∈ rest, (c.freeWith b .httpEnd x).sess y = c.sess y :=
          fun y hy => hk.2 y (hlt y (List.mem_cons_of_mem x hy)) fun e => hxr (e ▸ hy)
        obtain ⟨h1, h2, h3, h4⟩ := ih (new ++ pre) es hL hS hnext (Nat.le_of_succ_le_succ hf)
        have hx0 : sessEntry bits c x = none := if_pos h0
        refine ⟨h1.trans ?_, (hk.mono fun _ e => e ▸ List.mem_cons_self x rest).trans
          (h2.mono fun _ => List.mem_cons_of_mem x), hG.freed.trans h3, fun a ha hn => ?_⟩
        · rw [List.filterMap_cons_none hx0, List.filterMap_congr fun y hy => sessEntry_congr (hrest y hy)]
        rcases List.mem_cons.mp ha with rfl | ha
        · exact ⟨h3.subset (mem_freed_freeWith h hs (List.mem_append_right _ (List.mem_cons_self a rest)) _),
            (h2.2 a ((hlt a ha).trans_le hk.1) hxr).trans (freeWith_sess_self (hlt a ha) _)⟩
        · obtain ⟨hf', hr'⟩ := h4 a ha ((sessEntry_congr (hrest a ha)).trans hn)
          exact ⟨hf', hr'.trans (congrArg httpEnded (hrest a ha))⟩
      · -- an entry for it
        have hx1 : sessEntry bits c x = some ⟨(c.sessOf x).fd, pollMask bits (c.sessOf x), .sess x⟩ := if_neg h0
        obtain ⟨h1, h2, h3, h4⟩ := ih (pre ++ [x]) (es ++ [⟨(c.sessOf x).fd, pollMask bits (c.sessOf x), .sess x⟩])
          (by simpa using h) (by simpa using hs) hnext (Nat.le_of_succ_le_succ hf)
        refine ⟨h1.trans ?_, h2.mono fun _ => List.mem_cons_of_mem x, h3, fun a ha hn => ?_⟩
        · rw [List.filterMap_cons_some hx1, List.append_assoc, List.singleton_append]
        rcases List.mem_cons.mp ha with rfl | ha
        · rw [hx1] at hn
          cases hn
        · exact h4 a ha hn

/-- The fill is the filter of both lists as they were, freeing those asking for nothing, tagged. -/
theorem fill_spec (h : c.Lists xs vs ps) (hs : c.Slots (· ∈ xs) ps) :
    (c.fill b bits).2 = vs.filterMap (svrEntry bits c) ++ xs.filterMap (sessEntry bits c) ∧
      ∀ a ∈ xs, sessEntry bits c a = none → a ∈ (c.fill b bits).1.freed ∧
        (c.fill b bits).1.sess a = httpEnded (c.sess a) := by
  obtain ⟨h1, -, -, h4⟩ := @fillSess_spec b bits c vs ps [] _ _ (fillSvrs bits c c.fresh (c.svrL.next 0))
    c.fresh (by simpa using h) (by simpa using hs) h.sess.seg.next_head (length_le_fresh h.sess.nodup fun _ hx => h.lt_fresh_sess hx)
  refine ⟨?_, h4⟩
  rw [fill, h1, fillSvrs_eq, h.svr_walk]

theorem sessEntry_sess {e : PollEntry} (h : sessEntry bits c a = some e) : e.sess? = some a := by
  unfold sessEntry at h
  split_ifs at h
  cases h
  rfl

theorem svrEntry_sess {v : Nat} {e : PollEntry} (h : svrEntry bits c v = some e) : e.sess? = none := by
  unfold svrEntry at h
  dsimp only at h
  split_ifs at h
  cases h
  rfl

/-- The sessions of the fill's entries are those asking for an event. -/
theorem sessEntry_of_mem {y : Nat}
    (hy : y ∈ (vs.filterMap (svrEntry bits c) ++ xs.filterMap (sessEntry bits c)).filterMap PollEntry.sess?) :
    sessEntry bits c y ≠ none := by
  obtain ⟨e, he, hs⟩ := List.mem_filterMap.mp hy
  rcases List.mem_append.mp he with he | he
  · obtain ⟨v, -, hv⟩ := List.mem_filterMap.mp he
    rw [svrEntry_sess hv] at hs
    cases hs
  · obtain ⟨z, -, hz⟩ := List.mem_filterMap.mp he
    obtain rfl : z = y := Option.some_inj.mp ((sessEntry_sess hz).symm.trans hs)
    rw [hz]
    exact Option.some_ne_none e

theorem tagged_of_httpEnded {c' : Ctx} {o : Option Sess} (h : c'.sess a = httpEnded o) : c'.Tagged a :=
  fun s hs => by
    rw [h] at hs
    obtain ⟨s₀, -, rfl⟩ := Option.map_eq_some'.mp hs
    exact (by decide : CloseReason.httpEnd ≠ .none)

/-- What a round needs of the fill. -/
theorem fill_stays (h : c.Lists xs vs ps) (hs : c.Slots (· ∈ xs) ps) :
    ∃ xs₁, (c.fill b bits).1.Lists xs₁ vs ps ∧ (c.fill b bits).1.Slots (· ∈ xs₁) ps ∧
      ((c.fill b bits).2.filterMap PollEntry.sess?).Nodup ∧
      (∀ y ∈ (c.fill b bits).2.filterMap PollEntry.sess?, y ∈ xs₁ ∧ sessEntry bits c y ≠ none) ∧
      ∀ a ∈ xs, (sessEntry bits c a ≠ none → a ∈ xs₁) ∧
        (sessEntry bits c a = none → a ∈ (c.fill b bits).1.freed ∧
          (c.fill b bits).1.sess a = httpEnded (c.sess a)) := by
  obtain ⟨xs₁, h1, h2, -, h4, h5⟩ := fill_inv (b := b) bits h hs
  obtain ⟨he, hf⟩ := @fill_spec b bits c xs vs ps h hs
  refine ⟨xs₁, h1, h2, h5, fun y hy => ⟨h4 y hy, sessEntry_of_mem (he ▸ hy)⟩, fun a ha => ⟨fun hn => ?_, hf a ha⟩⟩
  obtain ⟨e, he'⟩ := Option.ne_none_iff_exists'.mp hn
  refine h4 a (List.mem_filterMap.mpr ⟨e, ?_, sessEntry_sess he'⟩)
  rw [he]
  exact List.mem_append_right _ (List.mem_filterMap.mpr ⟨a, ha, he'⟩)

variable {ver : HttpVer} {fd : Nat} {conns : Nat → List ConnTry}

/-- In every run of the poll build the fill (lines 1761-1798) is the filter of the listener and
session lists as they were, though it frees sessions while it walks. -/
theorem pollReach_fill_spec (hr : PollReach ver fd conns c) (bits : EvBits) :
    (c.fill .poll bits).2 = (c.svrL.walk c.fresh (c.svrL.next 0)).filterMap (svrEntry bits c) ++
        (c.sessL.walk c.fresh (c.sessL.next 0)).filterMap (sessEntry bits c) ∧
      ∀ a ∈ c.sessL.walk c.fresh (c.sessL.next 0),
        (sessEntry bits c a ≠ none → a ∈ (c.fill .poll bits).1.sessL.walk (c.fill .poll bits).1.fresh
          ((c.fill .poll bits).1.sessL.next 0)) ∧
        (sessEntry bits c a = none → a ∉ (c.fill .poll bits).1.sessL.walk (c.fill .poll bits).1.fresh
          ((c.fill .poll bits).1.sessL.next 0) ∧ (c.fill .poll bits).1.sess a = httpEnded (c.sess a)) := by
  obtain ⟨xs, vs, ps, h, hs⟩ := Inv.reach hr
  obtain ⟨xs₁, h1, -, -, -, hst⟩ := @fill_stays .poll bits c xs vs ps h hs
  rw [h.sess_walk, h.svr_walk, h1.sess_walk]
  exact ⟨(@fill_spec .poll bits c xs vs ps h hs).1, fun a ha =>
    ⟨(hst a ha).1, fun hn => ⟨h1.freed_out a ((hst a ha).2 hn).1, ((hst a ha).2 hn).2⟩⟩⟩

/-- Two clients, the older terminated and done: the fill polls the newer and frees the older. -/
theorem pollReach_fill_spec_terminated :
    let c : Ctx := ((((Ctx.init .v1_1 3 fun k => [⟨some (5 + k), true, none, true, true⟩]).connectCall .poll
      .app).1.connectCall .poll .app).1.sessCall 1 fun s => (0, { s with isTerminated := 1 })).2
    (c.fill .poll linuxPoll).2 = [⟨6, linuxPoll.inp, .sess 2⟩] ∧
      ((c.fill .poll linuxPoll).1.sessOf 1).closeReason = .httpEnd ∧
      ((c.fill .poll linuxPoll).2 = (c.svrL.walk c.fresh (c.svrL.next 0)).filterMap (svrEntry linuxPoll c) ++
        (c.sessL.walk c.fresh (c.sessL.next 0)).filterMap (sessEntry linuxPoll c) ∧
      ∀ a ∈ c.sessL.walk c.fresh (c.sessL.next 0),
        (sessEntry linuxPoll c a ≠ none → a ∈ (c.fill .poll linuxPoll).1.sessL.walk (c.fill .poll linuxPoll).1.fresh
          ((c.fill .poll linuxPoll).1.sessL.next 0)) ∧
        (sessEntry linuxPoll c a = none → a ∉ (c.fill .poll linuxPoll).1.sessL.walk (c.fill .poll linuxPoll).1.fresh
          ((c.fill .poll linuxPoll).1.sessL.next 0) ∧
          (c.fill .poll linuxPoll).1.sess a = httpEnded (c.sess a))) :=
  ⟨rfl, rfl, pollReach_fill_spec (.tail (.tail (.single (.connect _ .app)) (.connect _ .app))
    (.sessCall _ 1 _ fun _ => rfl)) linuxPoll⟩

end Ctx

end H2Sim
