import H2Sim.RecvV11

/-! The receive buffer of `h2_sess_recv_v1_1`: the unread bytes `rdata[rdata_used,
rdata_size)` are the bytes received and not yet parsed, through every branch of the append. -/
namespace H2Sim

variable {b : RBuf} {s t : Sess} {p q m n : Nat} {d P V : List UInt8} {junk : Nat → UInt8}

@[simp] theorem RBuf.length_read (b : RBuf) (p n : Nat) : (b.read p n).length = n := by
  simp [RBuf.read]

theorem RBuf.read_add (b : RBuf) (p m n : Nat) : b.read p (m + n) = b.read p m ++ b.read (p + m) n := by
  have h := List.range'_append p m n 1
  simp only [Nat.one_mul] at h
  simp only [RBuf.read, ← List.map_append, h, Nat.add_comm n]

/-- A read sees only the bytes in its range. -/
theorem RBuf.read_congr {b' : RBuf} (h : ∀ i, p ≤ i → i < p + n → b'.byte i = b.byte i) :
    b'.read p n = b.read p n :=
  List.map_congr_left fun i hi => by
    obtain ⟨k, hk, rfl⟩ := List.mem_range'.mp hi
    exact h _ (by omega) (by omega)

theorem RBuf.read_write_self (b : RBuf) (p : Nat) (d : List UInt8) : (b.write p d).read p d.length = d := by
  refine List.ext_getElem (by simp) fun k h₁ h₂ => ?_
  simp only [RBuf.read, RBuf.write, List.getElem_map, List.getElem_range', Nat.one_mul]
  rw [if_pos (by simp at h₁; omega), Nat.add_sub_cancel_left]
  simp [List.getD_eq_getElem?_getD, h₂]

theorem RBuf.read_write_of_le (h : q + n ≤ p) : (b.write p d).read q n = b.read q n :=
  RBuf.read_congr fun i _ hi => by simp only [RBuf.write]; rw [if_neg (by omega)]

theorem RBuf.read_shift (b : RBuf) (u n : Nat) : (b.shift u n).read 0 n = b.read u n := by
  refine List.ext_getElem (by simp) fun k h₁ h₂ => ?_
  simp only [RBuf.read, RBuf.shift, List.getElem_map, List.getElem_range', Nat.one_mul, Nat.zero_add]
  rw [if_pos (by simp at h₁; omega), Nat.add_comm]

theorem RBuf.read_grow (h : q + n ≤ b.alloced) : (b.grow m junk).read q n = b.read q n :=
  RBuf.read_congr fun i _ hi => by simp only [RBuf.grow]; rw [if_pos (by omega)]

/-- `rdata[rdata_used, rdata_size)`. -/
def Sess.unread (s : Sess) : List UInt8 :=
  (s.rdata.getD .none).read s.rdataUsed (s.rdataSize - s.rdataUsed)

/-- `0 <= rdata_used <= rdata_size <= rdata_alloced`, and both sizes 0 while `rdata` is NULL. -/
def Sess.BufOk (s : Sess) : Prop :=
  s.rdataUsed ≤ s.rdataSize ∧ s.rdataSize ≤ (s.rdata.getD .none).alloced

@[simp] theorem RBuf.write_alloced (b : RBuf) (p : Nat) (d : List UInt8) :
    (b.write p d).alloced = b.alloced := rfl

@[simp] theorem RBuf.shift_alloced (b : RBuf) (u n : Nat) : (b.shift u n).alloced = b.alloced := rfl

/-- The move to the front keeps the unread bytes (and does nothing when there are none). -/
theorem RBuf.read_shift_if (b : RBuf) (u n : Nat) :
    (if n ≠ 0 then b.shift u n else b).read 0 n = b.read u n := by
  split_ifs with h
  · exact RBuf.read_shift b u n
  · simp only [not_not] at h; subst h; rfl

theorem RBuf.read_grow_if (h : q + n ≤ b.alloced) (c : Prop) [Decidable c] :
    (if c then b.grow m junk else b).read q n = b.read q n := by
  split_ifs
  · exact RBuf.read_grow h
  · rfl

@[simp] theorem RBuf.grow_alloced (b : RBuf) (n : Nat) (junk : Nat → UInt8) :
    (b.grow n junk).alloced = n := rfl

/-- While `rdata_size + size` fits an `int`, lines 625 and 630 compare the sizes themselves. -/
theorem appendRdata_some (hr : s.rdata = some b) (hd : s.rdataSize + d.length < 2 ^ 31) :
    s.appendRdata junk d =
      if b.alloced ≥ s.rdataSize + d.length then
        { s with rdata := some (b.write s.rdataSize d), rdataSize := s.rdataSize + d.length }
      else
        let n := s.rdataSize - s.rdataUsed
        let b := if b.alloced < n + d.length then b.grow (n + d.length) junk else b
        let b := if n ≠ 0 then b.shift s.rdataUsed n else b
        { s with
          rdata := some (b.write n d), rdataSize := n + d.length,
          rdataOffset := s.rdataOffset + s.rdataUsed, rdataUsed := 0 } := by
  have h₁ : cInt ((s.rdataSize : Int) + d.length) = ((s.rdataSize + d.length : Nat) : Int) := by
    rw [cInt_of_lt (by omega) (by omega)]; push_cast; rfl
  have h₂ : cInt (((s.rdataSize - s.rdataUsed : Nat) : Int) + d.length) =
      ((s.rdataSize - s.rdataUsed + d.length : Nat) : Int) := by
    rw [cInt_of_lt (by omega) (by omega)]; push_cast; rfl
  simp only [Sess.appendRdata, hr, h₁, h₂, ge_iff_le, Int.ofNat_le, Int.ofNat_lt, Int.toNat_ofNat]

/-- When the test of line 625 passes, the chunk is copied in place after `rdata_size`. -/
theorem appendRdata_inPlace (hr : s.rdata = some b) (h : cInt (s.rdataSize + d.length) ≤ b.alloced) :
    s.appendRdata junk d = { s with rdata := some (b.write s.rdataSize d), rdataSize := s.rdataSize + d.length } := by
  simp only [Sess.appendRdata, hr, ge_iff_le, if_pos h]

/-- Every branch of the append keeps the buffer sound and appends the chunk to the unread bytes. -/
theorem appendRdata_unread (h : s.BufOk) (junk : Nat → UInt8) (hd : s.rdataSize + d.length < 2 ^ 31) :
    (s.appendRdata junk d).BufOk ∧ (s.appendRdata junk d).unread = s.unread ++ d := by
  obtain ⟨hu, ha⟩ := h
  unfold Sess.BufOk Sess.unread
  rcases hr : s.rdata with _ | b <;> rw [hr] at ha
  · simp only [Sess.appendRdata, hr]
    have hs : s.rdataSize = 0 := Nat.le_zero.mp ha
    refine ⟨⟨Nat.zero_le _, by simp only [Option.getD_some, RBuf.write_alloced]; split_ifs <;> omega⟩, ?_⟩
    simp only [Option.getD_some, Option.getD_none, Nat.sub_zero, hs, Nat.zero_sub, RBuf.read,
      List.range'_zero, List.map_nil, List.nil_append]
    exact RBuf.read_write_self _ 0 d
  · rw [appendRdata_some hr hd]
    simp only [Option.getD_some] at ha ⊢
    by_cases hfit : b.alloced ≥ s.rdataSize + d.length
    · rw [if_pos hfit]
      simp only [Option.getD_some, RBuf.write_alloced]
      refine ⟨⟨by omega, hfit⟩, ?_⟩
      rw [show s.rdataSize + d.length - s.rdataUsed = (s.rdataSize - s.rdataUsed) + d.length by omega,
        RBuf.read_add, RBuf.read_write_of_le (by omega), show s.rdataUsed + (s.rdataSize - s.rdataUsed) =
          s.rdataSize by omega, RBuf.read_write_self]
    · rw [if_neg hfit]
      simp only [Option.getD_some, RBuf.write_alloced, Nat.sub_zero, RBuf.read_add, Nat.zero_add]
      refine ⟨⟨Nat.zero_le _, by
        split_ifs <;> (try simp only [RBuf.shift_alloced, RBuf.grow_alloced]) <;> omega⟩, ?_⟩
      rw [RBuf.read_write_of_le (by omega : 0 + (s.rdataSize - s.rdataUsed) ≤ s.rdataSize - s.rdataUsed),
        RBuf.read_write_self, RBuf.read_shift_if, RBuf.read_grow_if (by omega)]

/-- Only the buffer fields of the session change. -/
def BufFrame (s t : Sess) : Prop :=
  t = { s with
    rdata := t.rdata, rdataSize := t.rdataSize, rdataUsed := t.rdataUsed
    rdataOffset := t.rdataOffset }

theorem appendRdata_frame (s : Sess) (junk : Nat → UInt8) (d : List UInt8) :
    BufFrame s (s.appendRdata junk d) := by
  unfold BufFrame Sess.appendRdata; split <;> (try split) <;> dsimp only

theorem releaseRdata_frame (s : Sess) : BufFrame s s.releaseRdata := by
  unfold BufFrame Sess.releaseRdata; split <;> rfl

/-- Releasing a drained buffer keeps it sound and leaves nothing unread. -/
theorem releaseRdata_unread (h : s.BufOk) : s.releaseRdata.BufOk ∧ s.releaseRdata.unread = s.unread := by
  unfold Sess.releaseRdata
  split_ifs with hr
  · simp [Sess.BufOk, Sess.unread, RBuf.none, hr.1, RBuf.read]
  · exact ⟨h, rfl⟩

theorem length_unread (s : Sess) : s.unread.length = s.rdataSize - s.rdataUsed := RBuf.length_read _ _ _

theorem unread_eq_nil (hb : s.BufOk) : s.unread = [] ↔ s.rdataUsed = s.rdataSize := by
  rw [← List.length_eq_zero, length_unread]; unfold Sess.BufOk at hb; omega

/-- The unread bytes start with `P`. -/
theorem read_prefix (hU : s.unread = P ++ V) : (s.rdata.getD .none).read s.rdataUsed P.length = P := by
  have h := hU
  rw [Sess.unread, show s.rdataSize - s.rdataUsed = P.length + V.length by
    rw [← List.length_append, ← hU, Sess.unread, RBuf.length_read], RBuf.read_add] at h
  exact (List.append_inj h (RBuf.length_read _ _ _)).1

/-- Moving `rdata_used` past bytes `P` at the head of the unread bytes leaves the rest. -/
theorem unread_advance (hb : s.BufOk) (hU : s.unread = P ++ V) (hr : t.rdata = s.rdata)
    (hs : t.rdataSize = s.rdataSize) (hu : t.rdataUsed = s.rdataUsed + P.length) : t.BufOk ∧ t.unread = V := by
  have hlen : s.rdataSize - s.rdataUsed = P.length + V.length := by
    rw [← List.length_append, ← hU, Sess.unread, RBuf.length_read]
  unfold Sess.BufOk at hb ⊢
  refine ⟨⟨by omega, by rw [hr, hs]; exact hb.2⟩, ?_⟩
  have h := hU
  rw [Sess.unread, hlen, RBuf.read_add] at h
  have hP : ((s.rdata.getD .none).read s.rdataUsed P.length).length = P.length := RBuf.length_read _ _ _
  rw [Sess.unread, hr, hs, hu, show s.rdataSize - (s.rdataUsed + P.length) = V.length by omega]
  exact (List.append_inj h hP).2

theorem BufFrame.reqCnt (h : BufFrame s t) : t.reqCnt = s.reqCnt := by rw [h]

/-- The header loop moves `rdata_used` forward, at most past the bytes it was given. -/
theorem hdrScan_used (sv ssl : Bool) (beyond : List UInt8) :
    ∀ (V acc : List UInt8) (h : Hdr) (used : Nat), used ≤ (hdrScan sv ssl beyond V acc h used).2.2 ∧
      (hdrScan sv ssl beyond V acc h used).2.2 ≤ used + acc.length + V.length
  | [], _, _, _ => ⟨le_rfl, by simp [hdrScan]⟩
  | c :: cs, acc, h, used => by
    have ih₁ := fun h' => hdrScan_used sv ssl beyond cs [] h' (used + acc.length + 1)
    have ih₂ := hdrScan_used sv ssl beyond cs (c :: acc) h used
    simp only [List.length_cons, List.length_nil] at ih₁ ih₂ ⊢
    by_cases hc : c = 10
    · simp only [hdrScan, if_pos hc]
      generalize (if acc.head? = some 13 then acc.tail.reverse else acc.reverse) = ln
      split_ifs
      · dsimp only; omega
      · split
        · exact ⟨le_rfl, by dsimp only; omega⟩
        · next h' _ => have := ih₁ { h' with line := h'.line + 1 }; omega
    · simp only [hdrScan, if_neg hc]; omega

/-- `rdata`, `rdata_size` and `rdata_offset`: what the parser leaves alone. -/
def Sess.bufView (s : Sess) : Option RBuf × Nat × Nat := (s.rdata, s.rdataSize, s.rdataOffset)

/-- The parser keeps the buffer and leaves `rdata_used` within it. -/
def ParseKeeps (s t : Sess) : Prop := t.bufView = s.bufView ∧ t.rdataUsed ≤ t.rdataSize

theorem ParseKeeps.trans {u : Sess} (h₁ : ParseKeeps s t) (h₂ : ParseKeeps t u) : ParseKeeps s u :=
  ⟨h₂.1.trans h₁.1, h₂.2⟩

theorem recvStart_keeps {r : Nat} (h : s.recvStart = some (t, r)) (hu : s.rdataUsed ≤ s.rdataSize) :
    ParseKeeps s t := by
  unfold Sess.recvStart at h
  split at h
  · cases h; exact ⟨rfl, hu⟩
  · split_ifs at h
    · cases h; exact ⟨rfl, hu⟩
    · split at h
      · cases h
      · cases h; exact ⟨rfl, hu⟩

theorem recvComplete_keeps (hooks : Hooks) (hu : s.rdataUsed ≤ s.rdataSize) (r : Nat) :
    ParseKeeps s (s.recvComplete hooks r).2.1 := by
  unfold Sess.recvComplete
  split_ifs <;> exact ⟨rfl, hu⟩

theorem recvCopy_keeps (h : s.rdataUsed ≤ s.rdataSize) (r : Nat) : ParseKeeps s (s.recvCopy r) := by
  dsimp only [Sess.recvCopy]
  split_ifs with hc
  · exact ⟨rfl, by show (s.rdataUsed + s.rmsgContentLength).toNat ≤ s.rdataSize; omega⟩
  · exact ⟨rfl, h⟩

/-- A parse round keeps the buffer and moves `rdata_used` within it. -/
theorem h2SessRecvHdlOnceV11_keeps (hooks : Hooks) (h : s.rdataUsed ≤ s.rdataSize) :
    ParseKeeps s (h2SessRecvHdlOnceV11 hooks s).2.1 := by
  unfold h2SessRecvHdlOnceV11
  split
  · exact ⟨rfl, h⟩
  · next t r hst =>
    have ht := recvStart_keeps hst h
    have hdone : ∀ t' : Sess, ParseKeeps s t' → ParseKeeps s ((t'.recvCopy r).recvComplete hooks r).2.1 :=
      fun t' ht' => (ht'.trans (recvCopy_keeps ht'.2 r)).trans
        (recvComplete_keeps hooks (recvCopy_keeps ht'.2 r).2 r)
    split
    · exact hdone t ht
    · dsimp only
      have hw := (hdrScan_used t.isServer t.ssl (((t.rdata.getD .none).read t.rdataSize
        ((t.rdata.getD .none).alloced - t.rdataSize))) ((t.rdata.getD .none).read t.rdataUsed
        (t.rdataSize - t.rdataUsed)) [] ⟨t.rmsgHeaderLine, t.rmsgContentLength, t.rmsgOf r⟩ t.rdataUsed).2
      simp only [RBuf.length_read, List.length_nil, Nat.add_zero] at hw
      have := ht.2
      have hk : ∀ w : HdrEnd × Hdr × Nat, w.2.2 ≤ t.rdataSize → ParseKeeps s (t.afterScan r w) :=
        fun w hw' => ⟨ht.1, hw'⟩
      split
      · exact hk _ (by omega)
      · exact hdone _ (hk _ (by omega))
      · exact hk _ (by omega)

theorem recvLoop_keeps (hooks : Hooks) :
    ∀ (fuel : Nat) (s : Sess), s.rdataUsed ≤ s.rdataSize → ParseKeeps s (recvLoop hooks fuel s).2.1
  | 0, _, h => ⟨rfl, h⟩
  | fuel + 1, s, h => by
    have h1 := h2SessRecvHdlOnceV11_keeps hooks h
    unfold recvLoop
    dsimp only
    split_ifs
    · exact h1.trans (recvLoop_keeps hooks fuel _ h1.2)
    · exact h1

/-- Every branch of the append keeps `rdata_used` within `rdata_size`. -/
theorem appendRdata_used_le (h : s.rdataUsed ≤ s.rdataSize) (junk : Nat → UInt8) (d : List UInt8) :
    (s.appendRdata junk d).rdataUsed ≤ (s.appendRdata junk d).rdataSize := by
  unfold Sess.appendRdata
  split
  · exact Nat.zero_le _
  · split <;> dsimp only <;> omega

/-- `rdata_offset + rdata_size`: the bytes passed to `h2_sess_recv_v1_1` so far. -/
def Sess.received (s : Sess) : Nat := s.rdataOffset + s.rdataSize

theorem appendRdata_received (h : s.BufOk) (junk : Nat → UInt8) (d : List UInt8) :
    (s.appendRdata junk d).received = s.received + d.length := by
  obtain ⟨hu, ha⟩ := h
  unfold Sess.received Sess.appendRdata
  split
  · next hr => rw [hr] at ha; simp only [Option.getD_none, RBuf.none] at ha; dsimp only; omega
  · split <;> dsimp only <;> omega

/-- A call of `h2_sess_recv_v1_1` adds its chunk to the bytes received. -/
theorem h2SessRecvV11_received (h : s.BufOk) (hooks : Hooks) (junk : Nat → UInt8) (d : List UInt8) :
    (h2SessRecvV11 hooks junk s d).2.1.received = s.received + d.length := by
  have hk := recvLoop_keeps hooks ((s.appendRdata junk d).rdataSize - (s.appendRdata junk d).rdataUsed + 1)
    _ (appendRdata_used_le h.1 junk d)
  have hv := hk.1
  simp only [Sess.bufView, Prod.mk.injEq] at hv
  have hl : (recvLoop hooks ((s.appendRdata junk d).rdataSize - (s.appendRdata junk d).rdataUsed + 1)
      (s.appendRdata junk d)).2.1.received = s.received + d.length := by
    rw [Sess.received, hv.2.1, hv.2.2]; exact appendRdata_received h junk d
  unfold h2SessRecvV11
  dsimp only
  split_ifs
  · exact hl
  · rw [← hl]; unfold Sess.releaseRdata Sess.received; split_ifs with hr
    · dsimp only; omega
    · rfl

/-- The buffer against `R`, every byte passed to `h2_sess_recv_v1_1`: `rdata[0, rdata_size)`
holds `R` from `rdata_offset` to its end. -/
structure Sess.RecvInv (s : Sess) (R : List UInt8) : Prop where
  buf : s.BufOk
  offset : s.rdataOffset + s.rdataSize = R.length
  bytes : (s.rdata.getD .none).read 0 s.rdataSize = R.drop s.rdataOffset

variable {R : List UInt8}

/-- The unread bytes are those of `R` past `rdata_offset + rdata_used`. -/
theorem Sess.RecvInv.unread (h : s.RecvInv R) : s.unread = R.drop (s.rdataOffset + s.rdataUsed) := by
  have h2 := congrArg (List.drop s.rdataUsed) h.bytes
  rwa [show s.rdataSize = s.rdataUsed + (s.rdataSize - s.rdataUsed) by have := h.buf.1; omega,
    RBuf.read_add, List.drop_left' (RBuf.length_read _ _ _), Nat.zero_add, List.drop_drop] at h2

/-- Every branch of the append keeps the buffer on the bytes received, under `2^31` of them. -/
theorem Sess.RecvInv.append (h : s.RecvInv R) (junk : Nat → UInt8) (hd : (R ++ d).length < 2 ^ 31) :
    (s.appendRdata junk d).RecvInv (R ++ d) := by
  obtain ⟨⟨hu, ha⟩, ho, hb⟩ := h
  have hd' : s.rdataSize + d.length < 2 ^ 31 := by rw [List.length_append] at hd; omega
  refine ⟨(appendRdata_unread ⟨hu, ha⟩ junk hd').1, ?_, ?_⟩ <;> rcases hr : s.rdata with _ | b <;> rw [hr] at ha hb
  · simp only [Option.getD_none, RBuf.none] at ha; simp only [Sess.appendRdata, hr, List.length_append]; omega
  · rw [appendRdata_some hr hd']
    split <;> simp only [List.length_append] <;> omega
  · simp only [Option.getD_none, RBuf.none] at ha
    simp only [Sess.appendRdata, hr, Option.getD_some, RBuf.read_write_self]
    rw [List.drop_append_of_le_length (by omega), List.drop_eq_nil_of_le (by omega), List.nil_append]
  · simp only [Option.getD_some] at ha hb
    rw [appendRdata_some hr hd']
    by_cases hfit : b.alloced ≥ s.rdataSize + d.length
    · rw [if_pos hfit]
      simp only [Option.getD_some]
      rw [RBuf.read_add, RBuf.read_write_of_le (by omega), Nat.zero_add, RBuf.read_write_self, hb,
        List.drop_append_of_le_length (by omega)]
    · rw [if_neg hfit]
      simp only [Option.getD_some]
      have hb' := (Sess.RecvInv.mk ⟨hu, by rwa [hr]⟩ ho (by rwa [hr])).unread
      simp only [Sess.unread, hr, Option.getD_some] at hb'
      rw [RBuf.read_add, RBuf.read_write_of_le (by omega), Nat.zero_add, RBuf.read_write_self,
        RBuf.read_shift_if, RBuf.read_grow_if (by omega), hb', List.drop_append_of_le_length (by omega)]

/-- Freeing a drained buffer keeps it on the bytes received. -/
theorem Sess.RecvInv.release (h : s.RecvInv R) : s.releaseRdata.RecvInv R := by
  unfold Sess.releaseRdata
  split_ifs with hr
  · refine ⟨⟨le_rfl, Nat.zero_le _⟩, by have := h.offset; simp only; omega, ?_⟩
    simp only [RBuf.read, List.range'_zero, List.map_nil]
    rw [List.drop_eq_nil_of_le (by have := h.offset; omega)]
  · exact h

/-- A parser that moves `rdata_used` within the buffer keeps it on the bytes received. -/
theorem Sess.RecvInv.parse (h : s.RecvInv R) (hk : ParseKeeps s t) : t.RecvInv R := by
  obtain ⟨hv, hu⟩ := hk
  simp only [Sess.bufView, Prod.mk.injEq] at hv
  obtain ⟨hr, hs, ho⟩ := hv
  exact ⟨⟨hu, by rw [hr, hs]; exact h.buf.2⟩, by rw [ho, hs]; exact h.offset,
    by rw [hr, hs, ho]; exact h.bytes⟩

/-- The sessions `h2_sess_recv_v1_1` calls reach, `R` the bytes passed: the buffer's branches in any
order, with any parser step between that keeps `rdata_used` within the buffer. -/
inductive RecvReach : Sess → List UInt8 → Prop
  | init (isServer ssl : Bool) (ver : HttpVer) : RecvReach (Sess.init isServer ssl ver) []
  | append {s : Sess} {R : List UInt8} (junk : Nat → UInt8) (d : List UInt8) :
      RecvReach s R → RecvReach (s.appendRdata junk d) (R ++ d)
  | keep {s t : Sess} {R : List UInt8} : RecvReach s R → ParseKeeps s t → RecvReach t R
  | release {s : Sess} {R : List UInt8} : RecvReach s R → RecvReach s.releaseRdata R

theorem RecvReach.used_le (h : RecvReach s R) : s.rdataUsed ≤ s.rdataSize := by
  induction h with
  | init => exact le_rfl
  | append junk d _ ih => exact appendRdata_used_le ih junk d
  | keep _ hk => exact hk.2
  | release _ ih => unfold Sess.releaseRdata; split_ifs <;> simp [ih]

theorem RecvReach.inv (h : RecvReach s R) (hR : R.length < 2 ^ 31) : s.RecvInv R := by
  induction h with
  | init => exact ⟨⟨le_rfl, le_rfl⟩, rfl, rfl⟩
  | append junk d _ ih => exact (ih (by rw [List.length_append] at hR; omega)).append junk hR
  | keep _ hk ih => exact (ih hR).parse hk
  | release _ ih => exact (ih hR).release

/-- A call of `h2_sess_recv_v1_1` is a run of the buffer's branches. -/
theorem RecvReach.recv (h : RecvReach s R) (hooks : Hooks) (junk : Nat → UInt8) (d : List UInt8) :
    RecvReach (h2SessRecvV11 hooks junk s d).2.1 (R ++ d) := by
  have h1 := h.append junk d
  have h2 := h1.keep (recvLoop_keeps hooks ((s.appendRdata junk d).rdataSize -
    (s.appendRdata junk d).rdataUsed + 1) _ h1.used_le)
  unfold h2SessRecvV11
  dsimp only
  split_ifs
  · exact h2
  · exact h2.release

end H2Sim
