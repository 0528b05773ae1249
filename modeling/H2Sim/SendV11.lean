import H2Sim.SendV2

/-! `h2_sess_send_once_v1_1`: walk the session's streams for unsent body bytes, merge them or
hold them as the tail span, then flush. -/
namespace H2Sim

variable {b : Build} {bufSize cap : Nat} {net : Net} {s s' : Sess} {l l' : Link} {r : Int}
  {fr : List Strm}

def Strm.Drained (st : Strm) : Prop := st.sendBodyRb.data.length ≤ st.sendBodyRb.dataUsed

instance : DecidablePred Strm.Drained := fun st =>
  inferInstanceAs (Decidable (st.sendBodyRb.data.length ≤ st.sendBodyRb.dataUsed))

/-- `rb->data_used = rb->data_size`. -/
def Strm.takeAll (st : Strm) : Strm :=
  { st with sendBodyRb := { st.sendBodyRb with dataUsed := st.sendBodyRb.data.length } }

/-- `rb->data + rb->data_used` and `rb->data_size - rb->data_used` bytes from there. -/
def Strm.slice (st : Strm) : Ptr × List UInt8 :=
  (⟨.strmBody st.ref, st.sendBodyRb.dataUsed⟩, st.sendBodyRb.data.drop st.sendBodyRb.dataUsed)

/-- The server walk (lines 693-716): free the answered, drained streams from the head and take the
next one's data; stop at an unanswered stream. -/
def serverWalk : List Strm → List Strm × List Strm × (Ptr × List UInt8)
  | [] => ([], [], (.null, []))
  | st :: rest =>
    if st.responseSet then
      if st.Drained then
        let w := serverWalk rest
        (st :: w.1, w.2.1, w.2.2)
      else ([], st.takeAll :: rest, st.slice)
    else ([], st :: rest, (.null, []))

/-- The client walk (lines 718-733) from `strm_sending`: skip drained streams and take the
rest of the first one with data. Returns the new `strm_sending` and the stream taken from. -/
def clientWalk : List Strm → Option Nat × Option Strm
  | [] => (none, none)
  | st :: rest => if st.Drained then clientWalk rest else (some st.ref, some st)

/-- The streams from `strm_sending` on (the whole list when it is NULL). A dangling
`strm_sending` would be undefined behaviour in C; here it reads as an empty walk. -/
def Sess.sendingFrom (s : Sess) : List Strm :=
  match s.strmSending with
  | none => s.strms
  | some r => s.strms.dropWhile (·.ref ≠ r)

/-- One walk of the pull loop: the session after it, the streams it freed, and the slice
`(strm_send_data, strm_send_size)` it offers (empty when none). -/
def walkOnce (s : Sess) : Sess × List Strm × (Ptr × List UInt8) :=
  if s.isServer then
    let w := serverWalk s.strms
    ({ s with strms := w.2.1, strmCloseCnt := s.strmCloseCnt + w.1.length }, w.1, w.2.2)
  else
    match clientWalk s.sendingFrom with
    | (sending, none) => ({ s with strmSending := sending }, [], (.null, []))
    | (sending, some st) =>
      ({ s with strmSending := sending, strms := updStrm st.ref Strm.takeAll s.strms }, [], st.slice)

/-- The pull loop of `h2_sess_send_once_v1_1` (lines 687-753), returning the freed streams too; each
round takes one stream whole, so `fuel` one past the streams suffices. -/
def pullV11 (bufSize cap : Nat) : Nat → Sess → Sess × List Strm
  | 0, s => (s, [])
  | fuel + 1, s =>
    if s.wrBuf.memSendSize = 0 ∧ s.wrBuf.mergeSize < bufSize then
      let w := walkOnce s
      let wb := w.1.wrBuf
      let d := w.2.2.2
      if d.length = 0 then (w.1, w.2.1)
      else if wb.mergeSize + d.length ≤ cap then
        let v := pullV11 bufSize cap fuel { w.1 with wrBuf := { wb with mergeData := wb.mergeData ++ d } }
        (v.1, w.2.1 ++ v.2)
      else ({ w.1 with wrBuf := { wb with memSendData := w.2.2.1, memSendBytes := d } }, w.2.1)
    else (s, [])

/-- `h2_sess_send_once_v1_1`; also returns the streams it passed to `h2_strm_free`. -/
def h2SessSendOnceV11 (b : Build) (bufSize cap : Nat) (net : Net) (s : Sess) (l : Link) :
    Int × Sess × Link × List Strm :=
  let p := pullV11 bufSize cap (s.strms.length + 1) s
  let f := flush b net p.1 l
  let s := { f.sess with sendDataRemain := f.sess.sendDataRemain - f.total }
  match f.early with
  | some r => (r, s, f.link, p.2)
  | none => (f.total, if f.total = 0 then s.clearSendPending b else s, f.link, p.2)

/-- A return `r >= 0` leaves the write buffer empty or writable interest registered. -/
theorem h2SessSendOnceV11_pending (h : h2SessSendOnceV11 b bufSize cap net s l = (r, s', l', fr))
    (hr : 0 ≤ r) :
    (s'.wrBuf.mergeData = [] ∧ s'.wrBuf.memSendBytes = []) ∨ s'.sendPending = true := by
  unfold h2SessSendOnceV11 at h
  dsimp only at h
  set s₁ := (pullV11 bufSize cap (s.strms.length + 1) s).1
  split at h <;> (try split_ifs at h) <;> simp only [Prod.mk.injEq] at h <;>
    obtain ⟨rfl, rfl, -, -⟩ := h
  · exact .inr (flush_early b net s₁ l ‹_› hr).1
  all_goals exact .inl (by simpa using flush_through b net s₁ l ‹_›)

/-- Both send routines, from any state: a return `r >= 0` leaves the buffer empty or writable
interest registered. -/
theorem h2SessSendOnce_pending_or_empty :
    (∀ b bufSize cap net s l r s' l', h2SessSendOnceV2 b bufSize cap net s l = (r, s', l') →
      0 ≤ r → (s'.wrBuf.mergeData = [] ∧ s'.wrBuf.memSendBytes = []) ∨ s'.sendPending = true) ∧
    (∀ b bufSize cap net s l r s' l' fr, h2SessSendOnceV11 b bufSize cap net s l = (r, s', l', fr) →
      0 ≤ r → (s'.wrBuf.mergeData = [] ∧ s'.wrBuf.memSendBytes = []) ∨ s'.sendPending = true) :=
  ⟨fun _ _ _ _ _ _ _ _ _ => h2SessSendOnceV2_pending, fun _ _ _ _ _ _ _ _ _ _ => h2SessSendOnceV11_pending⟩

/-- A 3-byte request through a 2-byte merge buffer, 1 byte taken: writable interest stays set. -/
theorem h2SessSendOnce_pending_or_empty_partial :
    let s : Sess := { Sess.init false false .v1_1 with
      strms := [⟨0, 1, .empty, false, ⟨[1, 2, 3], 0⟩⟩], strmNext := 1 }
    let net : Net := ⟨fun _ => ⟨1, .other, .other⟩, fun _ => ⟨1, .other, .other⟩⟩
    let res := h2SessSendOnceV11 .poll 2 2 net s ⟨[], []⟩
    res.1 = 1 ∧ ((res.2.1.wrBuf.mergeData = [] ∧ res.2.1.wrBuf.memSendBytes = []) ∨
      res.2.1.sendPending = true) :=
  by
    intro s net res
    have h1 : res.1 = 1 := by decide
    have hres : h2SessSendOnceV11 .poll 2 2 net s ⟨[], []⟩ = res := rfl
    clear_value res
    obtain ⟨r, s', l', fr⟩ := res
    exact ⟨h1, h2SessSendOnce_pending_or_empty.2 .poll 2 2 net s ⟨[], []⟩ r s' l' fr hres
      (by simp only at h1; omega)⟩

end H2Sim
