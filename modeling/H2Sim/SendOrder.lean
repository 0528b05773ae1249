import Mathlib.Data.List.Nodup
import H2Sim.SendV11

/-! The HTTP/1.1 send path hands the transport each stream's body whole, once, and in
stream-list order; a server frees a stream only once its body has been taken. -/
namespace H2Sim

variable {s t : Sess} {fr H X Y : List Strm} {st : Strm} {sv : Bool} {n : Nat}

/-- The bytes of a stream's send body the walk has taken, `data[0, data_used)`. -/
def Strm.taken (st : Strm) : List UInt8 := st.sendBodyRb.data.take st.sendBodyRb.dataUsed

/-- Taken whole or not at all. -/
def Strm.Whole (st : Strm) : Prop :=
  st.sendBodyRb.dataUsed = 0 ∨ st.sendBodyRb.dataUsed = st.sendBodyRb.data.length

def takenBytes (H : List Strm) : List UInt8 := (H.map Strm.taken).flatten

@[simp] theorem takenBytes_nil : takenBytes [] = [] := rfl

@[simp] theorem takenBytes_cons : takenBytes (st :: H) = st.taken ++ takenBytes H := rfl

@[simp] theorem takenBytes_append : takenBytes (X ++ Y) = takenBytes X ++ takenBytes Y := by
  simp [takenBytes]

/-- A stream taken from must come after streams that are all drained, and on a server all
with their response set. -/
def TakenAfter (server : Bool) (a c : Strm) : Prop :=
  c.taken ≠ [] → a.Drained ∧ (server = true → a.responseSet = true)

/-- The stream history (freed, then listed): each stream taken whole or not at all and after every
earlier one, refs distinct and below `n`. -/
structure HistOk (sv : Bool) (n : Nat) (H : List Strm) : Prop where
  whole : ∀ st ∈ H, st.Whole
  ordered : H.Pairwise (TakenAfter sv)
  nodup : (H.map Strm.ref).Nodup
  fresh : ∀ r ∈ H.map Strm.ref, r < n

theorem taken_of_not_drained (hw : st.Whole) (hd : ¬ st.Drained) : st.taken = [] := by
  unfold Strm.Whole Strm.Drained at *
  unfold Strm.taken
  rcases hw with h | h <;> simp [h] at hd ⊢

theorem taken_of_unused (hu : st.sendBodyRb.dataUsed = 0) : st.taken = [] := by
  simp [Strm.taken, hu]

theorem taken_takeAll : st.takeAll.taken = st.sendBodyRb.data := by
  simp [Strm.taken, Strm.takeAll]

theorem slice_of_not_drained (hw : st.Whole) (hd : ¬ st.Drained) : st.slice.2 = st.sendBodyRb.data := by
  unfold Strm.Whole Strm.Drained at *
  unfold Strm.slice
  rcases hw with h | h <;> simp [h] at hd ⊢

/-- Nothing after a stream that is undrained (or, on a server, unset) has been taken. -/
theorem takenBytes_after (ho : (X ++ st :: Y).Pairwise (TakenAfter sv))
    (hd : ¬ (st.Drained ∧ (sv = true → st.responseSet = true))) : takenBytes Y = [] := by
  rw [List.pairwise_append, List.pairwise_cons] at ho
  simp only [takenBytes, List.flatten_eq_nil_iff, List.mem_map]
  rintro _ ⟨c, hc, rfl⟩
  by_contra hne
  exact hd (ho.2.1.1 c hc hne)

/-- Taking all of the first undrained stream keeps the history sound and appends its slice. -/
theorem HistOk.take (h : HistOk sv n (X ++ st :: Y))
    (hX : ∀ a ∈ X, a.Drained ∧ (sv = true → a.responseSet = true)) (hd : ¬ st.Drained) :
    HistOk sv n (X ++ st.takeAll :: Y) ∧
      takenBytes (X ++ st.takeAll :: Y) = takenBytes (X ++ st :: Y) ++ st.slice.2 := by
  have hst : st.Whole := h.whole st (by simp)
  have hY := takenBytes_after h.ordered fun h => hd h.1
  have hrefs : (X ++ st.takeAll :: Y).map Strm.ref = (X ++ st :: Y).map Strm.ref := by
    simp [Strm.takeAll]
  refine ⟨⟨fun a ha => ?_, ?_, hrefs ▸ h.nodup, hrefs ▸ h.fresh⟩, by
    simp [hY, taken_takeAll, taken_of_not_drained hst hd, slice_of_not_drained hst hd]⟩
  · simp only [List.mem_append, List.mem_cons] at ha
    rcases ha with ha | rfl | ha
    · exact h.whole a (by simp [ha])
    · exact .inr (by simp [Strm.takeAll])
    · exact h.whole a (by simp [ha])
  · have ho := h.ordered
    rw [List.pairwise_append, List.pairwise_cons] at ho ⊢
    obtain ⟨hoX, ⟨-, hoY⟩, hXY⟩ := ho
    refine ⟨hoX, ⟨fun c hc hne => ?_, hoY⟩, fun a ha c hc => ?_⟩
    · exact absurd (List.flatten_eq_nil_iff.mp hY c.taken (List.mem_map_of_mem _ hc)) hne
    · simp only [List.mem_cons] at hc
      rcases hc with rfl | hc
      · exact fun _ => hX a ha
      · exact hXY a ha c (by simp [hc])

/-- An untouched stream with nothing taken after it may be replaced by one with its ref. -/
theorem HistOk.replace (st' : Strm) (h : HistOk sv n (X ++ st :: Y)) (hY : takenBytes Y = [])
    (ht : st.taken = []) (hr : st'.ref = st.ref) (hu : st'.sendBodyRb.dataUsed = 0) :
    HistOk sv n (X ++ st' :: Y) ∧ takenBytes (X ++ st' :: Y) = takenBytes (X ++ st :: Y) := by
  have hrefs : (X ++ st' :: Y).map Strm.ref = (X ++ st :: Y).map Strm.ref := by simp [hr]
  refine ⟨⟨fun a ha => ?_, ?_, hrefs ▸ h.nodup, hrefs ▸ h.fresh⟩, by
    simp [ht, taken_of_unused hu]⟩
  · simp only [List.mem_append, List.mem_cons] at ha
    rcases ha with ha | rfl | ha
    · exact h.whole a (by simp [ha])
    · exact .inl hu
    · exact h.whole a (by simp [ha])
  · have ho := h.ordered
    rw [List.pairwise_append, List.pairwise_cons] at ho ⊢
    obtain ⟨hoX, ⟨-, hoY⟩, hXY⟩ := ho
    refine ⟨hoX, ⟨fun c hc hne => ?_, hoY⟩, fun a ha c hc => ?_⟩
    · exact absurd (List.flatten_eq_nil_iff.mp hY c.taken (List.mem_map_of_mem _ hc)) hne
    · simp only [List.mem_cons] at hc
      rcases hc with rfl | hc
      · exact fun hne => absurd (taken_of_unused hu) hne
      · exact hXY a ha c (by simp [hc])

/-- A new stream with ref `n` and an untouched send body joins the end of the history. -/
theorem HistOk.snoc (st : Strm) (h : HistOk sv n H) (hr : st.ref = n) (hu : st.sendBodyRb.dataUsed = 0) :
    HistOk sv (n + 1) (H ++ [st]) := by
  refine ⟨fun a ha => ?_, ?_, ?_, fun r hr' => ?_⟩
  · simp only [List.mem_append, List.mem_singleton] at ha
    rcases ha with ha | rfl
    · exact h.whole a ha
    · exact .inl hu
  · exact List.pairwise_append.mpr ⟨h.ordered, by simp, fun _ _ c hc hne => by
      simp only [List.mem_singleton] at hc; exact absurd (hc ▸ taken_of_unused hu) hne⟩
  · rw [List.map_append, List.nodup_append]
    exact ⟨h.nodup, by simp, by simpa [hr] using fun hm => lt_irrefl n (h.fresh n hm)⟩
  · simp only [List.map_append, List.mem_append, List.map_cons, List.map_nil,
      List.mem_singleton] at hr'
    rcases hr' with hr' | rfl
    · exact Nat.lt_succ_of_lt (h.fresh r hr')
    · omega

/-- The shape of the history `fr ++ strms` (streams freed by the send path, then the live
list) that the walk relies on. -/
structure Shape (s : Sess) (fr : List Strm) : Prop where
  hist : HistOk s.isServer s.strmNext (fr ++ s.strms)
  freed : ∀ st ∈ fr, st.Drained ∧ st.responseSet = true
  sending : s.isServer = false → ∀ r, s.strmSending = some r →
    ∃ pre st post, s.strms = pre ++ st :: post ∧ st.ref = r ∧ ∀ a ∈ pre, a.Drained
  unset : s.isServer = true → ∀ st ∈ s.strms, st.responseSet = false → st.sendBodyRb.dataUsed = 0

/-- The fields of the session the shape reads. -/
def Sess.strmView (s : Sess) : Bool × List Strm × Option Nat × Nat :=
  (s.isServer, s.strms, s.strmSending, s.strmNext)

theorem Shape.congr (h : Shape s fr) (e : t.strmView = s.strmView) : Shape t fr := by
  simp only [Sess.strmView, Prod.mk.injEq] at e
  obtain ⟨e₁, e₂, e₃, e₄⟩ := e
  cases h
  constructor <;> (try simp only [e₁, e₂, e₃, e₄]) <;> assumption

theorem SendFrame.strmView (h : SendFrame s t) : t.strmView = s.strmView := by
  rw [h]; rfl

@[simp] theorem Sess.strmView_withRemain (s : Sess) (x : Int) :
    ({ s with sendDataRemain := x }).strmView = s.strmView := rfl

@[simp] theorem Sess.clearSendPending_strmView (b : Build) (s : Sess) :
    (s.clearSendPending b).strmView = s.strmView := by
  unfold Sess.clearSendPending; split <;> rfl

theorem ref_ne_of_nodup (h : ((X ++ st :: Y).map Strm.ref).Nodup) : ∀ a ∈ X ++ Y, a.ref ≠ st.ref := by
  rw [List.map_append, List.map_cons, List.nodup_middle, List.nodup_cons, ← List.map_append] at h
  exact fun a ha e => h.1 (e ▸ List.mem_map_of_mem _ ha)

theorem updStrm_middle (f : Strm → Strm) (h : ((X ++ st :: Y).map Strm.ref).Nodup) :
    updStrm st.ref f (X ++ st :: Y) = X ++ f st :: Y := by
  have hne := ref_ne_of_nodup h
  have hid : ∀ Z : List Strm, (∀ a ∈ Z, a ∈ X ++ Y) → Z.map (fun a => if a.ref = st.ref then f a else a) = Z :=
    fun Z hZ => Eq.trans (List.map_congr_left fun a ha => if_neg (hne a (hZ a ha))) (List.map_id' Z)
  rw [updStrm, List.map_append, List.map_cons, if_pos rfl,
    hid X fun a ha => List.mem_append_left _ ha, hid Y fun a ha => List.mem_append_right _ ha]

theorem Shape.strms_nodup (hs : Shape s fr) : (s.strms.map Strm.ref).Nodup :=
  List.Nodup.sublist ((List.sublist_append_right fr s.strms).map Strm.ref) hs.hist.nodup

/-- The server walk frees set, drained streams from the head, then stops or takes the next one. -/
theorem serverWalk_cases (L : List Strm) :
    (∀ a ∈ (serverWalk L).1, a.Drained ∧ a.responseSet = true) ∧
    ((∃ R, L = (serverWalk L).1 ++ R ∧ (serverWalk L).2.1 = R ∧ (serverWalk L).2.2.2 = []) ∨
     (∃ st R, L = (serverWalk L).1 ++ st :: R ∧ (serverWalk L).2.1 = st.takeAll :: R ∧
       (serverWalk L).2.2 = st.slice ∧ st.responseSet = true ∧ ¬ st.Drained)) := by
  induction L with
  | nil => exact ⟨by simp [serverWalk], .inl ⟨[], by simp [serverWalk]⟩⟩
  | cons st rest ih =>
    unfold serverWalk
    by_cases hr : st.responseSet <;> simp only [hr, if_true, if_false, Bool.false_eq_true]
    · by_cases hd : st.Drained <;> simp only [hd, if_true, if_false]
      · refine ⟨?_, ?_⟩
        · simpa [hr, hd] using ih.1
        · rcases ih.2 with ⟨R, e, h₁, h₂⟩ | ⟨st', R, e, h₁, h₂, h₃, h₄⟩
          · exact .inl ⟨R, by simp [← e], h₁, h₂⟩
          · exact .inr ⟨st', R, by simp [← e], h₁, h₂, h₃, h₄⟩
      · exact ⟨by simp, .inr ⟨st, rest, rfl, rfl, rfl, hr, hd⟩⟩
    · exact ⟨by simp, .inl ⟨st :: rest, by simp⟩⟩

/-- The client walk skips drained streams and stops at the first with data or at the end. -/
theorem clientWalk_cases (L : List Strm) :
    (clientWalk L = (none, none) ∧ ∀ a ∈ L, a.Drained) ∨
    (∃ A st B, L = A ++ st :: B ∧ (∀ a ∈ A, a.Drained) ∧ ¬ st.Drained ∧
      clientWalk L = (some st.ref, some st)) := by
  induction L with
  | nil => exact .inl ⟨rfl, by simp⟩
  | cons st rest ih =>
    unfold clientWalk
    by_cases hd : st.Drained <;> simp only [hd, if_true, if_false]
    · rcases ih with ⟨h, hA⟩ | ⟨A, st', B, e, hA, hst, h⟩
      · exact .inl ⟨h, List.forall_mem_cons.mpr ⟨hd, hA⟩⟩
      · exact .inr ⟨st :: A, st', B, by simp [e], List.forall_mem_cons.mpr ⟨hd, hA⟩, hst, h⟩
    · exact .inr ⟨[], st, rest, rfl, by simp, hd, rfl⟩

/-- On a client, the streams before `strm_sending` are all drained. -/
theorem sendingFrom_split (hs : Shape s fr) (hc : s.isServer = false) :
    ∃ P, s.strms = P ++ s.sendingFrom ∧ ∀ a ∈ P, a.Drained := by
  unfold Sess.sendingFrom
  split
  · exact ⟨[], rfl, by simp⟩
  · rename_i r hr
    obtain ⟨pre, st, post, e, rfl, hpre⟩ := hs.sending hc r hr
    have hne := ref_ne_of_nodup (e ▸ hs.strms_nodup)
    refine ⟨pre, ?_, hpre⟩
    rw [e, List.dropWhile_append_of_pos fun a ha => by simpa using hne a (by simp [ha]),
      List.dropWhile_cons_of_neg (by simp)]

@[simp] theorem walkOnce_wrBuf (s : Sess) : (walkOnce s).1.wrBuf = s.wrBuf := by
  unfold walkOnce; split <;> (try split) <;> rfl

@[simp] theorem walkOnce_isServer (s : Sess) : (walkOnce s).1.isServer = s.isServer := by
  unfold walkOnce; split <;> (try split) <;> rfl

@[simp] theorem walkOnce_strmNext (s : Sess) : (walkOnce s).1.strmNext = s.strmNext := by
  unfold walkOnce; split <;> (try split) <;> rfl

/-- One server walk keeps the shape and appends exactly the slice it offers. -/
theorem walkOnce_server (hs : Shape s fr) (hsv : s.isServer = true) :
    Shape (walkOnce s).1 (fr ++ (walkOnce s).2.1) ∧
      takenBytes (fr ++ (walkOnce s).2.1 ++ (walkOnce s).1.strms) =
        takenBytes (fr ++ s.strms) ++ (walkOnce s).2.2.2 := by
  have hw : walkOnce s =
      ({ s with
          strms := (serverWalk s.strms).2.1
          strmCloseCnt := s.strmCloseCnt + (serverWalk s.strms).1.length },
        (serverWalk s.strms).1, (serverWalk s.strms).2.2) := by
    simp [walkOnce, hsv]
  rw [hw]
  have hF := (serverWalk_cases s.strms).1
  rcases (serverWalk_cases s.strms).2 with ⟨R, e, h₁, h₂⟩ | ⟨st, R, e, h₁, h₂, hr, hd⟩ <;>
    generalize serverWalk s.strms = w at * <;> dsimp only <;> rw [h₁, h₂]
  · have eH : fr ++ w.1 ++ R = fr ++ s.strms := by rw [e, List.append_assoc]
    refine ⟨⟨eH ▸ hs.hist, ?_, fun h => Bool.noConfusion (hsv.symm.trans h), ?_⟩,
      by rw [eH, List.append_nil]⟩
    · simp only [List.mem_append]
      rintro a (ha | ha)
      exacts [hs.freed a ha, hF a ha]
    · exact fun _ a ha => hs.unset hsv a (e ▸ List.mem_append_right _ ha)
  · have eH : fr ++ s.strms = fr ++ w.1 ++ st :: R := by rw [e, List.append_assoc]
    have hX : ∀ a ∈ fr ++ w.1, a.Drained ∧ (s.isServer = true → a.responseSet = true) := by
      simp only [List.mem_append]
      rintro a (ha | ha)
      exacts [⟨(hs.freed a ha).1, fun _ => (hs.freed a ha).2⟩, ⟨(hF a ha).1, fun _ => (hF a ha).2⟩]
    obtain ⟨hH, hT⟩ := HistOk.take (eH ▸ hs.hist) hX hd
    refine ⟨⟨hH, ?_, fun h => Bool.noConfusion (hsv.symm.trans h), ?_⟩, by rw [hT, eH]⟩
    · simp only [List.mem_append]
      rintro a (ha | ha)
      exacts [hs.freed a ha, hF a ha]
    · intro _ a ha hu
      simp only [List.mem_cons] at ha
      rcases ha with rfl | ha
      · simp [Strm.takeAll, hr] at hu
      · exact hs.unset hsv a (e ▸ by simp [ha]) hu

/-- One client walk keeps the shape, frees nothing, and appends exactly the slice it offers. -/
theorem walkOnce_client (hs : Shape s fr) (hc : s.isServer = false) :
    Shape (walkOnce s).1 (fr ++ (walkOnce s).2.1) ∧
      takenBytes (fr ++ (walkOnce s).2.1 ++ (walkOnce s).1.strms) =
        takenBytes (fr ++ s.strms) ++ (walkOnce s).2.2.2 := by
  obtain ⟨P, eP, hP⟩ := sendingFrom_split hs hc
  rcases clientWalk_cases s.sendingFrom with ⟨hw, -⟩ | ⟨A, st, B, eA, hA, hd, hw⟩
  · have hw' : walkOnce s = ({ s with strmSending := none }, [], (.null, [])) := by
      simp [walkOnce, hc, hw]
    rw [hw', List.append_nil]
    exact ⟨⟨hs.hist, hs.freed, fun _ _ h => Option.noConfusion h, fun h => absurd h (by simp [hc])⟩,
      by simp⟩
  · have hw' : walkOnce s = ({ s with
        strmSending := some st.ref, strms := updStrm st.ref Strm.takeAll s.strms }, [], st.slice) := by
      simp [walkOnce, hc, hw]
    have e : s.strms = P ++ A ++ st :: B := by simp [eP, eA]
    have hn := hs.strms_nodup
    rw [e] at hn
    have hX : ∀ a ∈ fr ++ (P ++ A), a.Drained ∧ (s.isServer = true → a.responseSet = true) := by
      simp only [List.mem_append, hc, Bool.false_eq_true, false_implies, and_true]
      rintro a (ha | ha | ha)
      exacts [(hs.freed a ha).1, hP a ha, hA a ha]
    obtain ⟨hH, hT⟩ := HistOk.take (by simpa [e] using hs.hist) hX hd
    rw [hw', List.append_nil]
    dsimp only
    rw [e, updStrm_middle Strm.takeAll hn]
    refine ⟨⟨by simpa using hH, hs.freed, fun _ r h => ⟨P ++ A, st.takeAll, B, rfl, ?_, ?_⟩,
      fun h => absurd h (by simp [hc])⟩, by simpa using hT⟩
    · simpa [Strm.takeAll] using h
    · simp only [List.mem_append]
      rintro a (ha | ha)
      exacts [hP a ha, hA a ha]

theorem walkOnce_shape (hs : Shape s fr) :
    Shape (walkOnce s).1 (fr ++ (walkOnce s).2.1) ∧
      takenBytes (fr ++ (walkOnce s).2.1 ++ (walkOnce s).1.strms) =
        takenBytes (fr ++ s.strms) ++ (walkOnce s).2.2.2 := by
  cases hsv : s.isServer
  · exact walkOnce_client hs hsv
  · exact walkOnce_server hs hsv

/-- The send-order invariant: what the transport accepted, then the buffer, are the bytes taken from
the history, in order; and the history has its shape. -/
structure V11Inv (s : Sess) (l : Link) (fr : List Strm) : Prop where
  conserved : l.wire ++ (s.wrBuf.mergeData ++ s.wrBuf.memSendBytes) = takenBytes (fr ++ s.strms)
  shape : Shape s fr

theorem V11Inv.congr {l' : Link} (hi : V11Inv s l fr) (e : t.strmView = s.strmView)
    (hc : l'.wire ++ (t.wrBuf.mergeData ++ t.wrBuf.memSendBytes) =
      l.wire ++ (s.wrBuf.mergeData ++ s.wrBuf.memSendBytes)) : V11Inv t l' fr := by
  have es : t.strms = s.strms := congrArg (·.2.1) e
  exact ⟨by rw [hc, hi.conserved, es], hi.shape.congr e⟩

theorem V11Inv.clearSendPending {l : Link} (hi : V11Inv s l fr) (b : Build) :
    V11Inv (s.clearSendPending b) l fr :=
  hi.congr (by simp) (by simp)

/-- The pull loop appends the same `Δ` to the write buffer and to the taken bytes. -/
theorem pullV11_shape (bufSize cap fuel : Nat) (hs : Shape s fr) :
    Shape (pullV11 bufSize cap fuel s).1 (fr ++ (pullV11 bufSize cap fuel s).2) ∧
      ∃ Δ, (pullV11 bufSize cap fuel s).1.wrBuf.mergeData ++ (pullV11 bufSize cap fuel s).1.wrBuf.memSendBytes =
          s.wrBuf.mergeData ++ s.wrBuf.memSendBytes ++ Δ ∧
        takenBytes (fr ++ (pullV11 bufSize cap fuel s).2 ++ (pullV11 bufSize cap fuel s).1.strms) =
          takenBytes (fr ++ s.strms) ++ Δ := by
  induction fuel generalizing s fr with
  | zero => exact ⟨by simpa [pullV11] using hs, [], by simp [pullV11], by simp [pullV11]⟩
  | succ fuel ih =>
    obtain ⟨hw, hT⟩ := walkOnce_shape hs
    unfold pullV11
    dsimp only
    split_ifs with hg hz hm
    · simp only [List.length_eq_zero] at hz
      exact ⟨hw, [], by rw [walkOnce_wrBuf, List.append_nil], by rw [hT, hz]⟩
    · have ht : s.wrBuf.memSendBytes = [] := List.length_eq_zero.mp hg.1
      obtain ⟨hv, Δ, hb, hT'⟩ := ih (s := { (walkOnce s).1 with wrBuf := { (walkOnce s).1.wrBuf with
        mergeData := (walkOnce s).1.wrBuf.mergeData ++ (walkOnce s).2.2.2 } }) (hw.congr rfl)
      rw [← List.append_assoc]
      refine ⟨hv, (walkOnce s).2.2.2 ++ Δ, ?_, by rw [hT', hT, List.append_assoc]⟩
      rw [hb]
      simp [ht]
    · have ht : s.wrBuf.memSendBytes = [] := List.length_eq_zero.mp hg.1
      exact ⟨hw.congr rfl, (walkOnce s).2.2.2, by simp [ht], hT⟩
    · exact ⟨by simpa using hs, [], by simp, by simp⟩

/-- The pull loop keeps the invariant. -/
theorem pullV11_inv (bufSize cap fuel : Nat) (hi : V11Inv s l fr) :
    V11Inv (pullV11 bufSize cap fuel s).1 l (fr ++ (pullV11 bufSize cap fuel s).2) := by
  obtain ⟨hs, Δ, hb, hT⟩ := pullV11_shape bufSize cap fuel hi.shape
  exact ⟨by rw [hb, ← List.append_assoc, hi.conserved, hT], hs⟩

/-- A send call appends the same `Δ` to the accepted bytes and buffer and to the taken bytes. -/
theorem h2SessSendOnceV11_shape {b : Build} {bufSize cap : Nat} {net : Net} {l l' : Link} {r : Int}
    {s' : Sess} {fr' : List Strm} (hs : Shape s fr)
    (h : h2SessSendOnceV11 b bufSize cap net s l = (r, s', l', fr')) :
    Shape s' (fr ++ fr') ∧ ∃ Δ, l'.wire ++ (s'.wrBuf.mergeData ++ s'.wrBuf.memSendBytes) =
        l.wire ++ (s.wrBuf.mergeData ++ s.wrBuf.memSendBytes) ++ Δ ∧
      takenBytes (fr ++ fr' ++ s'.strms) = takenBytes (fr ++ s.strms) ++ Δ := by
  obtain ⟨hp, Δ, hb, hT⟩ := pullV11_shape bufSize cap (s.strms.length + 1) hs
  unfold h2SessSendOnceV11 at h
  dsimp only at h
  set p := pullV11 bufSize cap (s.strms.length + 1) s
  have key : ∀ t : Sess, t.strmView = (flush b net p.1 l).sess.strmView →
      t.wrBuf = (flush b net p.1 l).sess.wrBuf → Shape t (fr ++ p.2) ∧
        ∃ Δ, (flush b net p.1 l).link.wire ++ (t.wrBuf.mergeData ++ t.wrBuf.memSendBytes) =
          l.wire ++ (s.wrBuf.mergeData ++ s.wrBuf.memSendBytes) ++ Δ ∧
        takenBytes (fr ++ p.2 ++ t.strms) = takenBytes (fr ++ s.strms) ++ Δ := by
    intro t e hw
    have ef := e.trans (flush_frame b net p.1 l).strmView
    refine ⟨hp.congr ef, Δ, by rw [hw, flush_conserves, hb]; simp only [List.append_assoc], ?_⟩
    rw [show t.strms = p.1.strms from congrArg (·.2.1) ef, hT]
  split at h <;> (try split_ifs at h) <;> simp only [Prod.mk.injEq] at h <;>
    obtain ⟨rfl, rfl, rfl, rfl⟩ := h
  exacts [key _ rfl rfl, key _ (by simp) (by simp), key _ rfl rfl]

/-- A send call keeps the invariant; the streams it frees join the history. -/
theorem h2SessSendOnceV11_inv {b : Build} {bufSize cap : Nat} {net : Net} {l l' : Link} {r : Int}
    {s' : Sess} {fr' : List Strm} (hi : V11Inv s l fr)
    (h : h2SessSendOnceV11 b bufSize cap net s l = (r, s', l', fr')) : V11Inv s' l' (fr ++ fr') := by
  obtain ⟨hs, Δ, hc, hT⟩ := h2SessSendOnceV11_shape hi.shape h
  exact ⟨by rw [hc, hi.conserved, hT], hs⟩

/-- Modelled from the spec: a server sets the response of stream `r`; its serialised
response becomes the stream's send body. -/
def Sess.setResponse (s : Sess) (r : Nat) (body : List UInt8) : Sess :=
  { s with
    strms := updStrm r (fun st => { st with responseSet := true, sendBodyRb := ⟨body, 0⟩ }) s.strms }

theorem v11Inv_strmInit {l : Link} (hi : V11Inv s l fr) (streamId : Int) (body : List UInt8) :
    V11Inv (s.h2StrmInit streamId body) l fr := by
  obtain ⟨hc, hh, hf, hsend, hu⟩ := hi
  refine ⟨by simp [Sess.h2StrmInit, hc, Strm.taken], ?_, hf, fun hsv r hr => ?_, fun hsv a ha => ?_⟩
  · simpa [Sess.h2StrmInit] using HistOk.snoc ⟨s.strmNext, streamId, .empty, false, ⟨body, 0⟩⟩ hh rfl rfl
  · obtain ⟨pre, st, post, e, hr, hpre⟩ := hsend hsv r hr
    exact ⟨pre, st, post ++ [⟨s.strmNext, streamId, .empty, false, ⟨body, 0⟩⟩],
      by simp [Sess.h2StrmInit, e], hr, hpre⟩
  · simp only [Sess.h2StrmInit, List.mem_append, List.mem_singleton] at ha
    rcases ha with ha | rfl
    · exact hu hsv a ha
    · exact fun _ => rfl

theorem v11Inv_setResponse {l : Link} (hi : V11Inv s l fr) (hsv : s.isServer = true)
    (hm : st ∈ s.strms) (hr : st.responseSet = false) (body : List UInt8) :
    V11Inv (s.setResponse st.ref body) l fr := by
  obtain ⟨X, Y, e⟩ := List.append_of_mem hm
  have hn := hi.shape.strms_nodup
  rw [e] at hn
  have h₀ := hi.shape.hist
  rw [e, ← List.append_assoc] at h₀
  have hut := taken_of_unused (hi.shape.unset hsv st hm hr)
  obtain ⟨hH, hT⟩ := HistOk.replace { st with responseSet := true, sendBodyRb := ⟨body, 0⟩ } h₀
    (takenBytes_after h₀.ordered (by simp [hsv, hr])) hut rfl rfl
  have es : (s.setResponse st.ref body).strms = X ++ { st with responseSet := true, sendBodyRb := ⟨body, 0⟩ } :: Y := by
    simp only [Sess.setResponse, e, updStrm_middle _ hn]
  refine ⟨?_, ⟨?_, hi.shape.freed, fun h => Bool.noConfusion (hsv.symm.trans h),
    fun _ a ha hu => ?_⟩⟩
  · show l.wire ++ (s.wrBuf.mergeData ++ s.wrBuf.memSendBytes) = _
    rw [hi.conserved, es, ← List.append_assoc, hT, e, List.append_assoc]
  · simpa [es] using hH
  · rw [es] at ha
    simp only [List.mem_append, List.mem_cons] at ha
    rcases ha with ha | rfl | ha
    · exact hi.shape.unset hsv a (by simp [e, ha]) hu
    · simp at hu
    · exact hi.shape.unset hsv a (by simp [e, ha]) hu

/-- The runs of an HTTP/1.1 send side from no streams and an empty buffer: streams opened,
responses set, send calls; `fr` collects the freed streams. -/
inductive V11Reach (b : Build) (bufSize cap : Nat) : Sess → Link → List Strm → Prop
  | init {s : Sess} {l : Link} : s.strms = [] → s.strmSending = none → s.wrBuf = .empty →
      l.wire = [] → V11Reach b bufSize cap s l []
  | strmInit {s : Sess} {l : Link} {fr : List Strm} (streamId : Int) (body : List UInt8) :
      V11Reach b bufSize cap s l fr → V11Reach b bufSize cap (s.h2StrmInit streamId body) l fr
  | setResponse {s : Sess} {l : Link} {fr : List Strm} (st : Strm) (body : List UInt8) :
      V11Reach b bufSize cap s l fr → s.isServer = true → st ∈ s.strms → st.responseSet = false →
      V11Reach b bufSize cap (s.setResponse st.ref body) l fr
  | call {s s' : Sess} {l l' : Link} {fr fr' : List Strm} {r : Int} (net : Net) :
      V11Reach b bufSize cap s l fr → h2SessSendOnceV11 b bufSize cap net s l = (r, s', l', fr') →
      V11Reach b bufSize cap s' l' (fr ++ fr')

theorem v11Inv_reachable {b : Build} {bufSize cap : Nat} {l : Link}
    (h : V11Reach b bufSize cap s l fr) : V11Inv s l fr := by
  induction h with
  | init hs hsend hw hl =>
    refine ⟨by simp [hs, hw, hl, WrBuf.empty], ⟨?_, by simp, fun _ r h => by simp [hsend] at h,
      fun _ a ha => by simp [hs] at ha⟩⟩
    simp only [hs, List.append_nil]
    exact ⟨by simp, .nil, .nil, by simp⟩
  | strmInit id body _ ih => exact v11Inv_strmInit ih id body
  | setResponse st body _ hsv hm hr ih => exact v11Inv_setResponse ih hsv hm hr body
  | call net _ hc ih => exact h2SessSendOnceV11_inv ih hc

/-- After every send call of a run: the accepted bytes and the buffer are the taken slices in list
order, each whole and once, taken in order, and freed only once drained and answered. -/
theorem h2SessSendOnceV11_stream_order {b : Build} {bufSize cap : Nat} {net : Net} {l l' : Link}
    {r : Int} {s' : Sess} {fr' : List Strm} (hR : V11Reach b bufSize cap s l fr)
    (h : h2SessSendOnceV11 b bufSize cap net s l = (r, s', l', fr')) :
    l'.wire ++ (s'.wrBuf.mergeData ++ s'.wrBuf.memSendBytes) = takenBytes (fr ++ fr' ++ s'.strms) ∧
      (∀ st ∈ fr ++ fr' ++ s'.strms, st.Whole) ∧
      ((fr ++ fr' ++ s'.strms).map Strm.ref).Nodup ∧
      (fr ++ fr' ++ s'.strms).Pairwise (TakenAfter s'.isServer) ∧
      (∀ st ∈ fr ++ fr', st.Drained ∧ st.responseSet = true) := by
  have hi := v11Inv_reachable (hR.call net h)
  exact ⟨hi.conserved, hi.shape.hist.whole, hi.shape.hist.nodup, hi.shape.hist.ordered, hi.shape.freed⟩

/-- Two answered requests through a one-byte transport: both merged in order, both freed. -/
theorem h2SessSendOnceV11_stream_order_two_responses :
    let s : Sess := ((((Sess.init true false .v1_1).h2StrmInit 1 []).h2StrmInit 3 []).setResponse 0
      [1, 2, 3]).setResponse 1 [4, 5]
    let net : Net := ⟨fun _ => ⟨1, .other, .other⟩, fun _ => ⟨1, .other, .other⟩⟩
    let res := h2SessSendOnceV11 .poll 16384 16384 net s ⟨[], []⟩
    V11Reach .poll 16384 16384 s ⟨[], []⟩ [] ∧ res.1 = 1 ∧ res.2.2.2.length = 2 ∧
      (res.2.2.1.wire ++ (res.2.1.wrBuf.mergeData ++ res.2.1.wrBuf.memSendBytes) =
          takenBytes ([] ++ res.2.2.2 ++ res.2.1.strms) ∧
        (∀ st ∈ [] ++ res.2.2.2 ++ res.2.1.strms, st.Whole) ∧
        (([] ++ res.2.2.2 ++ res.2.1.strms).map Strm.ref).Nodup ∧
        ([] ++ res.2.2.2 ++ res.2.1.strms).Pairwise (TakenAfter res.2.1.isServer) ∧
        (∀ st ∈ [] ++ res.2.2.2, st.Drained ∧ st.responseSet = true)) := by
  intro s net res
  have hR : V11Reach .poll 16384 16384 s ⟨[], []⟩ [] :=
    .setResponse ⟨1, 3, .empty, false, ⟨[], 0⟩⟩ [4, 5]
      (.setResponse ⟨0, 1, .empty, false, ⟨[], 0⟩⟩ [1, 2, 3]
        (.strmInit 3 [] (.strmInit 1 [] (.init rfl rfl rfl rfl))) rfl (by decide) rfl)
      rfl (by decide) rfl
  refine ⟨hR, by decide, by decide, ?_⟩
  have hres : h2SessSendOnceV11 .poll 16384 16384 net s ⟨[], []⟩ = res := rfl
  clear_value res
  obtain ⟨r, s', l', fr'⟩ := res
  exact h2SessSendOnceV11_stream_order hR hres

end H2Sim
