import Mathlib.Data.List.Nodup
import Mathlib.Logic.Function.Basic

/-! The context's intrusive doubly linked lists (sessions, listeners, peers): each element
carries `next` and `prev`, and the list head is a sentinel in the context whose `next` is
the first element. Addresses are numbers; `Links.DList h xs` says the pointers spell out the
list `xs` from the head `h`. -/
namespace H2Sim

/-- The `next` and `prev` fields of one kind of element, by address; `next x = none` is a
NULL `next`. -/
structure Links where
  next : Nat → Option Nat
  prev : Nat → Nat

namespace Links

variable (L : Links)

/-- Insertion at the head `h`, as every constructor writes it (lines 1050-1055):
`x->next = h->next; h->next = x; x->prev = h; if (x->next) x->next->prev = x;`. -/
def insertHead (h x : Nat) : Links :=
  let L := { L with next := Function.update L.next x (L.next h) }
  let L := { L with next := Function.update L.next h (some x) }
  let L := { L with prev := Function.update L.prev x h }
  match L.next x with
  | some y => { L with prev := Function.update L.prev y x }
  | none => L

/-- Removal, as `h2_svr_free` and `h2_peer_free` write it (lines 1558-1562, 2060-2064):
`x->prev->next = x->next; if (x->next) x->next->prev = x->prev;`. -/
def unlink (x : Nat) : Links :=
  let L := { L with next := Function.update L.next (L.prev x) (L.next x) }
  match L.next x with
  | some y => { L with prev := Function.update L.prev y (L.prev x) }
  | none => L

/-- The addresses met along `next` from `x`, `fuel` of them at most: the C loops
`for (x = head.next; x; x = x->next)`. -/
def walk : Nat → Option Nat → List Nat
  | 0, _ => []
  | _ + 1, none => []
  | fuel + 1, some x => x :: walk fuel (L.next x)

/-- From `p`, `next` runs through `xs`, each `prev` pointing back, and then to `e`. -/
def Seg : Nat → List Nat → Option Nat → Prop
  | p, [], e => L.next p = e
  | p, x :: xs, e => L.next p = some x ∧ L.prev x = p ∧ Seg x xs e

/-- The list at the head `h` holds `xs`, each address once: `x->prev->next == x` and
`x->next->prev == x` along it, ending in NULL. -/
structure DList (h : Nat) (xs : List Nat) : Prop where
  seg : L.Seg h xs none
  nodup : (h :: xs).Nodup

instance decSeg : ∀ (p : Nat) (xs : List Nat) (e : Option Nat), Decidable (L.Seg p xs e)
  | p, [], e => inferInstanceAs (Decidable (L.next p = e))
  | _, x :: xs, e =>
    haveI := decSeg x xs e
    inferInstanceAs (Decidable (_ ∧ _ ∧ L.Seg x xs e))

instance (h : Nat) (xs : List Nat) : Decidable (L.DList h xs) :=
  decidable_of_iff (L.Seg h xs none ∧ (h :: xs).Nodup)
    ⟨fun hd => ⟨hd.1, hd.2⟩, fun hd => ⟨hd.1, hd.2⟩⟩

variable {L} {L' : Links} {h p x y fuel : Nat} {xs ys pre rest : List Nat} {e e' : Option Nat}

theorem next_unlink : (L.unlink x).next = Function.update L.next (L.prev x) (L.next x) := by
  unfold unlink
  dsimp only
  split <;> rfl

/-- Writing `x->next` to `x->prev->next` keeps `x->next`, even if `x->prev` is `x`. -/
theorem update_next_self :
    Function.update L.next (L.prev x) (L.next x) x = L.next x := by
  rw [Function.update_apply]
  split <;> rfl

theorem prev_unlink_of_some (hx : L.next x = some y) :
    (L.unlink x).prev = Function.update L.prev y (L.prev x) := by
  unfold unlink
  dsimp only
  split
  · next y' hy' => rw [update_next_self, hx, Option.some.injEq] at hy'; subst hy'; rfl
  · next hy' => rw [update_next_self, hx] at hy'; cases hy'

theorem prev_unlink_of_none (hx : L.next x = none) : (L.unlink x).prev = L.prev := by
  unfold unlink
  dsimp only
  split
  · next y' hy' => rw [update_next_self, hx] at hy'; cases hy'
  · rfl

theorem next_insertHead :
    (L.insertHead h x).next = Function.update (Function.update L.next x (L.next h)) h (some x) := by
  unfold insertHead
  dsimp only
  split <;> rfl

theorem prev_insertHead_of_some (hxh : x ≠ h) (hh : L.next h = some y) :
    (L.insertHead h x).prev = Function.update (Function.update L.prev x h) y x := by
  unfold insertHead
  dsimp only
  rw [Function.update_noteq hxh, Function.update_same, hh]

theorem prev_insertHead_of_none (hxh : x ≠ h) (hh : L.next h = none) :
    (L.insertHead h x).prev = Function.update L.prev x h := by
  unfold insertHead
  dsimp only
  rw [Function.update_noteq hxh, Function.update_same, hh]

theorem Seg.last_next (hs : L.Seg p xs e) : L.next ((p :: xs).getLast (List.cons_ne_nil _ _)) = e := by
  induction xs generalizing p with
  | nil => exact hs
  | cons x xs ih => rw [List.getLast_cons_cons]; exact ih hs.2.2

/-- A segment survives any change off its nodes; changing its last `next` moves its end. -/
theorem Seg.of_agree (hs : L.Seg p xs e)
    (hn : ∀ z ∈ (p :: xs).dropLast, L'.next z = L.next z)
    (hl : L'.next ((p :: xs).getLast (List.cons_ne_nil _ _)) = e')
    (hp : ∀ z ∈ xs, L'.prev z = L.prev z) : L'.Seg p xs e' := by
  induction xs generalizing p with
  | nil => exact hl
  | cons x xs ih =>
    obtain ⟨h1, h2, h3⟩ := hs
    refine ⟨(hn p (by simp)).trans h1, (hp x (List.mem_cons_self _ _)).trans h2,
      ih h3 (fun z hz => hn z (by rw [List.dropLast_cons₂]; exact List.mem_cons_of_mem _ hz))
        (by rwa [List.getLast_cons_cons] at hl) fun z hz => hp z (List.mem_cons_of_mem _ hz)⟩

theorem Seg.congr (hs : L.Seg p xs e) (hn : ∀ z ∈ p :: xs, L'.next z = L.next z)
    (hp : ∀ z ∈ xs, L'.prev z = L.prev z) : L'.Seg p xs e :=
  hs.of_agree (fun z hz => hn z (List.dropLast_subset _ hz))
    ((hn _ (List.getLast_mem _)).trans hs.last_next) hp

theorem seg_append_cons : L.Seg p (xs ++ y :: ys) e ↔
    L.Seg p xs (some y) ∧ L.prev y = (p :: xs).getLast (List.cons_ne_nil _ _) ∧ L.Seg y ys e := by
  induction xs generalizing p with
  | nil => rfl
  | cons x xs ih =>
    rw [List.cons_append]
    show (_ ∧ _ ∧ L.Seg x (xs ++ y :: ys) e) ↔ (_ ∧ _ ∧ L.Seg x xs (some y)) ∧ _ ∧ _
    rw [ih, List.getLast_cons_cons]
    tauto

theorem DList.insertHead (hd : L.DList h xs) (hx : x ∉ h :: xs) :
    (L.insertHead h x).DList h (x :: xs) := by
  have hxh : x ≠ h := fun e => hx (e ▸ List.mem_cons_self _ _)
  have hxs : x ∉ xs := fun e => hx (List.mem_cons_of_mem _ e)
  have hnd := hd.nodup
  refine ⟨⟨by rw [next_insertHead, Function.update_same], ?_⟩, ?_⟩
  · cases xs with
    | nil =>
      have hh : L.next h = none := hd.seg
      refine ⟨by rw [prev_insertHead_of_none hxh hh, Function.update_same], ?_⟩
      show (L.insertHead h x).next x = none
      rw [next_insertHead, Function.update_noteq hxh, Function.update_same, hh]
    | cons y ys =>
      obtain ⟨h1, h2, h3⟩ := hd.seg
      have hxy : x ≠ y := fun e => hxs (e ▸ List.mem_cons_self _ _)
      have hhys : h ∉ y :: ys := (List.nodup_cons.mp hnd).1
      have hyys : y ∉ ys := (List.nodup_cons.mp (List.nodup_cons.mp hnd).2).1
      have hp := prev_insertHead_of_some hxh h1
      have hn := next_insertHead (L := L) (h := h) (x := x)
      refine ⟨by rw [hp, Function.update_noteq hxy, Function.update_same], ?_, ?_, ?_⟩
      · rw [hn, Function.update_noteq hxh, Function.update_same, h1]
      · rw [hp, Function.update_same]
      · refine h3.congr (fun z hz => ?_) fun z hz => ?_
        · rw [hn, Function.update_noteq fun (e : z = h) => hhys (e ▸ hz),
            Function.update_noteq fun (e : z = x) => hxs (e ▸ hz)]
        · rw [hp, Function.update_noteq fun (e : z = y) => hyys (e ▸ hz),
            Function.update_noteq fun (e : z = x) => hxs (e ▸ List.mem_cons_of_mem _ hz)]
  · have hh := (List.nodup_cons.mp hnd).1
    exact List.nodup_cons.mpr ⟨fun e => (List.mem_cons.mp e).elim (fun e => hxh e.symm) hh,
      List.nodup_cons.mpr ⟨hxs, (List.nodup_cons.mp hnd).2⟩⟩

theorem ne_getLast_of_mem_dropLast {l : List Nat} (hl : l.Nodup) (hne : l ≠ []) {z : Nat}
    (hz : z ∈ l.dropLast) : z ≠ l.getLast hne := by
  rintro rfl
  rw [← List.dropLast_append_getLast hne] at hl
  exact (List.nodup_append.mp hl).2.2 hz (List.mem_singleton_self _)

theorem DList.unlink (hd : L.DList h xs) (hx : x ∈ xs) : (L.unlink x).DList h (xs.erase x) := by
  obtain ⟨pre, post, rfl⟩ := List.append_of_mem hx
  have hnd : ((h :: pre) ++ x :: post).Nodup := hd.nodup
  obtain ⟨hnd1, hnd2, hdisj⟩ := List.nodup_append.mp hnd
  have hxpre : x ∉ pre := fun hm => hdisj (List.mem_cons_of_mem _ hm) (List.mem_cons_self _ _)
  rw [List.erase_append_right _ hxpre, List.erase_cons_head]
  refine ⟨?_, hd.nodup.sublist (by simp)⟩
  obtain ⟨h1, h2, h3⟩ := seg_append_cons.mp hd.seg
  have hn : (L.unlink x).next = Function.update L.next ((h :: pre).getLast (List.cons_ne_nil _ _))
      (L.next x) := by rw [next_unlink, h2]
  have hpre : ∀ z ∈ (h :: pre).dropLast, (L.unlink x).next z = L.next z := fun z hz => by
    rw [hn, Function.update_noteq (ne_getLast_of_mem_dropLast hnd1 _ hz)]
  cases post with
  | nil =>
    have hxn : L.next x = none := h3
    rw [List.append_nil]
    exact h1.of_agree hpre (by rw [hn, Function.update_same, hxn])
      fun z _ => by rw [prev_unlink_of_none hxn]
  | cons y ys =>
    obtain ⟨hxy, -, h4⟩ := h3
    have hp := prev_unlink_of_some hxy
    have hyys : y ∉ ys := (List.nodup_cons.mp (List.nodup_cons.mp hnd2).2).1
    have hq : (h :: pre).getLast (List.cons_ne_nil _ _) ∉ y :: ys := fun hm =>
      hdisj (List.getLast_mem _) (List.mem_cons_of_mem _ hm)
    refine seg_append_cons.mpr ⟨h1.of_agree hpre (by rw [hn, Function.update_same, hxy])
      fun z hz => ?_, by rw [hp, Function.update_same, h2], h4.congr (fun z hz => ?_) fun z hz => ?_⟩
    · rw [hp, Function.update_noteq fun (e : z = y) =>
        hdisj (List.mem_cons_of_mem _ hz) (e ▸ List.mem_cons_of_mem _ (List.mem_cons_self _ _))]
    · rw [hn, Function.update_noteq fun (e : z = (h :: pre).getLast (List.cons_ne_nil _ _)) =>
        hq (e ▸ hz)]
    · rw [hp, Function.update_noteq fun (e : z = y) => hyys (e ▸ hz)]

theorem Seg.walk (hs : L.Seg p xs none) (hf : xs.length ≤ fuel) : L.walk fuel (L.next p) = xs := by
  induction xs generalizing p fuel with
  | nil => cases fuel <;> simp only [Links.walk, show L.next p = none from hs]
  | cons x xs ih =>
    obtain ⟨h1, -, h3⟩ := hs
    cases fuel with
    | zero => simp at hf
    | succ fuel => rw [h1, Links.walk, ih h3 (by simpa using hf)]

/-- In a list, the element after `x` is what `x->next` points to. -/
theorem Seg.next_head (hs : L.Seg p xs none) : L.next p = xs.head? := by
  cases xs with
  | nil => exact hs
  | cons y ys => exact hs.1

theorem DList.next_of_append (hd : L.DList h (pre ++ x :: rest)) : L.next x = rest.head? := by
  obtain ⟨-, -, h3⟩ := seg_append_cons.mp hd.seg
  cases rest with
  | nil => exact h3
  | cons y ys => exact h3.1

/-- The pointers from a head spell out one list only. -/
theorem Seg.unique (h1 : L.Seg p xs none) (h2 : L.Seg p ys none) : xs = ys := by
  induction xs generalizing p ys with
  | nil =>
    cases ys with
    | nil => rfl
    | cons y ys => cases h1.symm.trans h2.1
  | cons x xs ih =>
    cases ys with
    | nil => cases h1.1.symm.trans h2
    | cons y ys =>
      obtain rfl : x = y := Option.some.inj (h1.1.symm.trans h2.1)
      rw [ih h1.2.2 h2.2.2]

end Links

end H2Sim
