import H2Sim.Flush
import Mathlib.Logic.Relation

/-! `h2_sess_send_once_v2`: pull spans from the codec into the merge buffer or the tail span,
then flush. -/
namespace H2Sim

variable {b : Build} {bufSize cap : Nat} {net : Net} {s s' : Sess} {l l' : Link} {r : Int}

/-- How a pull loop ended: `stop` (condition failed or tail span set), `zero` (`mem_send_zero`), or
`error` (`nghttp2_session_mem_send()` failed). -/
inductive PullEnd where
  | stop
  | zero
  | error
  deriving DecidableEq, Repr

structure Pulled where
  how : PullEnd
  wb : WrBuf
  pending : List MemSend
  handedOut : List UInt8

/-- The pull loop of `h2_sess_send_once_v2` (lines 137-169), over what successive
`mem_send` calls return; `out` is the codec's handed-out bytes. -/
def pullV2 (bufSize cap : Nat) : WrBuf → List MemSend → List UInt8 → Pulled
  | wb, q, out =>
    if wb.memSendSize = 0 ∧ wb.mergeSize < bufSize then
      match q with
      | [] => ⟨.zero, wb, [], out⟩
      | .error :: q => ⟨.error, wb, q, out⟩
      | .span sp :: q =>
        if wb.mergeSize + sp.data.length ≤ cap then
          pullV2 bufSize cap { wb with mergeData := wb.mergeData ++ sp.data } q (out ++ sp.data)
        else ⟨.stop, { wb with memSendData := sp.ptr, memSendBytes := sp.data }, q, out ++ sp.data⟩
    else ⟨.stop, wb, q, out⟩

/-- The session once the pull loop has run. -/
def Sess.withPulled (s : Sess) (p : Pulled) : Sess :=
  { s with wrBuf := p.wb, ngSess := { s.ngSess with pending := p.pending, handedOut := p.handedOut } }

/-- `h2_sess_send_once_v2`. `bufSize` is `H2_WR_BUF_SIZE` and `cap` is
`sizeof(wb->merge_data)`: the header defining them is not part of the source. -/
def h2SessSendOnceV2 (b : Build) (bufSize cap : Nat) (net : Net) (s : Sess) (l : Link) :
    Int × Sess × Link :=
  let p := pullV2 bufSize cap s.wrBuf s.ngSess.pending s.ngSess.handedOut
  let s := s.withPulled p
  if p.how = .error then (-1, { s with closeReason := .nghttp2Err }, l) else
  let f := flush b net s l
  match f.early with
  | some r => (r, f.sess, f.link)
  | none =>
    let s := if f.total = 0 then f.sess.clearSendPending b else f.sess
    if b = .epoll ∧ p.how = .zero ∧ s.ngSess.wantRead = false then
      (-6, { s with closeReason := .nghttp2End }, f.link)
    else (f.total, s, f.link)

/-- Pulling keeps "sent ++ merge ++ tail = handed out". -/
theorem pullV2_conserves (bufSize cap : Nat) (q : List MemSend) :
    ∀ (wb : WrBuf) (out x : List UInt8), x ++ (wb.mergeData ++ wb.memSendBytes) = out →
      x ++ ((pullV2 bufSize cap wb q out).wb.mergeData ++
        (pullV2 bufSize cap wb q out).wb.memSendBytes) = (pullV2 bufSize cap wb q out).handedOut := by
  induction q with
  | nil => intro wb out x h; unfold pullV2; split_ifs <;> exact h
  | cons m q ih =>
    intro wb out x h
    unfold pullV2
    split_ifs with hg
    · obtain ⟨ht, -⟩ := hg
      cases m with
      | error => exact h
      | span sp =>
        simp only at ht ⊢
        split_ifs
        · apply ih; simp [← h, List.eq_nil_of_length_eq_zero ht]
        · simp [← h, List.eq_nil_of_length_eq_zero ht]
    · exact h

theorem pullV2_merge_le (bufSize cap : Nat) (q : List MemSend) :
    ∀ (wb : WrBuf) (out : List UInt8), wb.mergeData.length ≤ cap →
      (pullV2 bufSize cap wb q out).wb.mergeData.length ≤ cap := by
  induction q with
  | nil => intro wb out h; unfold pullV2; split_ifs <;> exact h
  | cons m q ih =>
    intro wb out h
    unfold pullV2
    split_ifs
    · cases m with
      | error => exact h
      | span sp =>
        simp only
        split_ifs with hc
        · exact ih _ _ (by simpa using hc)
        · exact h
    · exact h

/-- While a tail span is held, the loop does not run: `mem_send` is not called. -/
theorem pullV2_of_tail (bufSize cap : Nat) (q : List MemSend) (wb : WrBuf) (out : List UInt8)
    (h : wb.memSendBytes ≠ []) : pullV2 bufSize cap wb q out = ⟨.stop, wb, q, out⟩ := by
  unfold pullV2
  rw [if_neg (by simp [h])]

/-- What one call of `h2_sess_send_once_v2` can do. -/
theorem h2SessSendOnceV2_cases (b : Build) (bufSize : Nat) (net : Net) {p : Pulled} {f : Flushed}
    (hp : pullV2 bufSize cap s.wrBuf s.ngSess.pending s.ngSess.handedOut = p)
    (hf : flush b net (s.withPulled p) l = f) :
    (p.how = .error ∧
      h2SessSendOnceV2 b bufSize cap net s l = (-1, { s.withPulled p with closeReason := .nghttp2Err }, l)) ∨
    (∃ r, f.early = some r ∧ h2SessSendOnceV2 b bufSize cap net s l = (r, f.sess, f.link)) ∨
    (f.early = none ∧ ∃ (r : Int) (c : CloseReason), (r = -6 ∧ f.sess.ngSess.wantRead = false ∨ r = f.total) ∧
      h2SessSendOnceV2 b bufSize cap net s l =
        (r, { (if f.total = 0 then f.sess.clearSendPending b else f.sess) with closeReason := c }, f.link)) := by
  unfold h2SessSendOnceV2
  rw [hp]
  dsimp only
  rw [hf]
  by_cases he : p.how = .error
  · exact .inl ⟨he, by rw [if_pos he]⟩
  rw [if_neg he]
  rcases hfe : f.early with _ | r
  · refine .inr (.inr ⟨rfl, ?_⟩)
    simp only [hfe]
    split_ifs with _ h6 h6
    · exact ⟨-6, .nghttp2End, .inl ⟨rfl, by simpa using h6.2.2⟩, rfl⟩
    · exact ⟨f.total, _, .inr rfl, rfl⟩
    · exact ⟨-6, .nghttp2End, .inl ⟨rfl, h6.2.2⟩, rfl⟩
    · exact ⟨f.total, _, .inr rfl, rfl⟩
  · exact .inr (.inl ⟨r, rfl, by simp only [hfe]⟩)

/-- The conservation law of the HTTP/2 send side, with the bound on the merge buffer. -/
def V2Inv (cap : Nat) (s : Sess) (l : Link) : Prop :=
  l.wire ++ (s.wrBuf.mergeData ++ s.wrBuf.memSendBytes) = s.ngSess.handedOut ∧
    s.wrBuf.mergeData.length ≤ cap

theorem v2Inv_congr {t u : Sess} (hw : u.wrBuf = t.wrBuf)
    (hc : u.ngSess.handedOut = t.ngSess.handedOut) (h : V2Inv cap t l) : V2Inv cap u l := by
  unfold V2Inv; rwa [hw, hc]

theorem v2Inv_pull (bufSize : Nat) (h : V2Inv cap s l) :
    V2Inv cap (s.withPulled (pullV2 bufSize cap s.wrBuf s.ngSess.pending s.ngSess.handedOut)) l :=
  ⟨pullV2_conserves bufSize cap _ _ _ _ h.1, pullV2_merge_le bufSize cap _ _ _ h.2⟩

theorem v2Inv_flush (b : Build) (net : Net) (h : V2Inv cap s l) : V2Inv cap (flush b net s l).sess (flush b net s l).link :=
  ⟨by rw [flush_conserves, (flush_frame b net s l).ngSess]; exact h.1,
    (flush_merge_le b net s l).trans h.2⟩

/-- Every call keeps the conservation law, whatever it returns. -/
theorem h2SessSendOnceV2_inv (b : Build) (bufSize : Nat) (net : Net) (h : V2Inv cap s l) :
    V2Inv cap (h2SessSendOnceV2 b bufSize cap net s l).2.1
      (h2SessSendOnceV2 b bufSize cap net s l).2.2 := by
  have hp := v2Inv_pull bufSize h
  have hf := v2Inv_flush b net hp
  rcases h2SessSendOnceV2_cases b bufSize net rfl rfl with ⟨-, e⟩ | ⟨r, -, e⟩ | ⟨-, r, c, -, e⟩ <;> rw [e]
  · exact hp
  · exact hf
  · exact v2Inv_congr (by split <;> simp) (by split <;> simp) hf

/-- A non-negative return is the number of bytes the transport took during the call. -/
theorem h2SessSendOnceV2_accepted (hv : net.Valid s.ssl)
    (h : h2SessSendOnceV2 b bufSize cap net s l = (r, s', l')) (hr : 0 ≤ r) :
    ∃ acc, l'.wire = l.wire ++ acc ∧ r = acc.length := by
  set s₁ := s.withPulled (pullV2 bufSize cap s.wrBuf s.ngSess.pending s.ngSess.handedOut)
  obtain ⟨acc, hw, hl⟩ := flush_accepted b net s₁ l hv
  rcases h2SessSendOnceV2_cases b bufSize net rfl rfl with ⟨-, e⟩ | ⟨r', he, e⟩ | ⟨-, r', c, hr', e⟩ <;>
    rw [e] at h <;> cases h
  · omega
  · exact ⟨acc, hw, by rw [(flush_early b net s₁ l he hr).2, hl]⟩
  · rcases hr' with ⟨rfl, -⟩ | rfl
    · omega
    · exact ⟨acc, hw, by rw [hl]⟩

/-- A return `r >= 0` leaves the write buffer empty or writable interest registered. -/
theorem h2SessSendOnceV2_pending (h : h2SessSendOnceV2 b bufSize cap net s l = (r, s', l'))
    (hr : 0 ≤ r) :
    (s'.wrBuf.mergeData = [] ∧ s'.wrBuf.memSendBytes = []) ∨ s'.sendPending = true := by
  set s₁ := s.withPulled (pullV2 bufSize cap s.wrBuf s.ngSess.pending s.ngSess.handedOut)
  rcases h2SessSendOnceV2_cases b bufSize net rfl rfl with ⟨-, e⟩ | ⟨r', he, e⟩ | ⟨hn, r', c, -, e⟩ <;>
    rw [e] at h <;> cases h
  · omega
  · exact .inr (flush_early b net s₁ l he hr).1
  · exact .inl (by split <;> simpa using flush_through b net s₁ l hn)

/-- While a tail span is held, a call does not ask the codec for more output. -/
theorem h2SessSendOnceV2_tail_held (h : h2SessSendOnceV2 b bufSize cap net s l = (r, s', l'))
    (ht : s.wrBuf.memSendBytes ≠ []) : s'.ngSess.handedOut = s.ngSess.handedOut := by
  have hf := (flush_frame b net (s.withPulled ⟨.stop, s.wrBuf, s.ngSess.pending, s.ngSess.handedOut⟩) l).ngSess
  rcases h2SessSendOnceV2_cases b bufSize net (pullV2_of_tail bufSize cap _ _ _ ht) rfl with
    ⟨-, e⟩ | ⟨r', -, e⟩ | ⟨-, r', c, -, e⟩ <;> rw [e] at h <;> cases h
  · rfl
  · rw [hf]; rfl
  · split <;> simp only [Sess.clearSendPending_ngSess, hf] <;> rfl

/-- A step of an HTTP/2 send side: the codec moves to a state with the same handed-out history, or
`h2_sess_send_once_v2` runs with valid answers and returns `r >= 0`. -/
inductive V2Step (b : Build) (bufSize cap : Nat) : Sess × Link → Sess × Link → Prop
  | codec (s : Sess) (l : Link) (cd : Codec) :
      cd.handedOut = s.ngSess.handedOut → V2Step b bufSize cap (s, l) ({ s with ngSess := cd }, l)
  | call (s : Sess) (l : Link) (net : Net) (r : Int) (s' : Sess) (l' : Link) :
      net.Valid s.ssl → h2SessSendOnceV2 b bufSize cap net s l = (r, s', l') → 0 ≤ r →
      V2Step b bufSize cap (s, l) (s', l')

/-- An empty write buffer, a codec that has handed out nothing, an unused link. -/
def V2Init (w : Sess × Link) : Prop :=
  w.1.wrBuf = .empty ∧ w.1.ngSess.handedOut = [] ∧ w.2.wire = []

theorem v2Inv_init {w : Sess × Link} (h : V2Init w) : V2Inv cap w.1 w.2 := by
  obtain ⟨h₁, h₂, h₃⟩ := h
  simp [V2Inv, h₁, h₂, h₃, WrBuf.empty]

theorem v2Inv_step {w w' : Sess × Link} (h : V2Step b bufSize cap w w') (hi : V2Inv cap w.1 w.2) :
    V2Inv cap w'.1 w'.2 := by
  cases h with
  | codec s l cd hc => exact v2Inv_congr (t := s) rfl hc hi
  | call s l net r s' l' _ he _ =>
    have := h2SessSendOnceV2_inv b bufSize net hi
    rwa [he] at this

theorem v2Inv_reachable {w₀ w : Sess × Link} (h₀ : V2Init w₀)
    (h : Relation.ReflTransGen (V2Step b bufSize cap) w₀ w) : V2Inv cap w.1 w.2 := by
  induction h with
  | refl => exact v2Inv_init h₀
  | tail _ hs ih => exact v2Inv_step hs ih

/-- After every call of a run returning `r >= 0`: the accepted bytes and the buffer are what the codec
handed out, `r` the bytes accepted, the buffer in bounds, no pull while a tail span is held. -/
theorem h2SessSendOnceV2_stream_exact {w₀ : Sess × Link} (h₀ : V2Init w₀)
    (hw : Relation.ReflTransGen (V2Step b bufSize cap) w₀ (s, l)) (hv : net.Valid s.ssl)
    (h : h2SessSendOnceV2 b bufSize cap net s l = (r, s', l')) (hr : 0 ≤ r) :
    l'.wire ++ (s'.wrBuf.mergeData ++ s'.wrBuf.memSendBytes) = s'.ngSess.handedOut ∧
      (∃ acc, l'.wire = l.wire ++ acc ∧ r = acc.length) ∧
      s'.wrBuf.mergeData.length ≤ cap ∧
      (s.wrBuf.memSendBytes ≠ [] → s'.ngSess.handedOut = s.ngSess.handedOut) := by
  have hi := v2Inv_reachable h₀ (hw.tail (.call s l net r s' l' hv h hr))
  exact ⟨hi.1, h2SessSendOnceV2_accepted hv h hr, hi.2, h2SessSendOnceV2_tail_held h⟩

/-- Three bytes from the codec, a TCP transport that takes one byte per write. -/
theorem h2SessSendOnceV2_stream_exact_one_byte :
    let s : Sess := { Sess.init false false .v2 with
      ngSess := ⟨[.span ⟨⟨.codecSpan 0, 0⟩, [1, 2, 3], by simp⟩], [], true, false⟩ }
    let res := h2SessSendOnceV2 .poll 16384 16384
      ⟨fun _ => ⟨1, .other, .other⟩, fun _ => ⟨1, .other, .other⟩⟩ s ⟨[], []⟩
    res.2.2.wire ++ (res.2.1.wrBuf.mergeData ++ res.2.1.wrBuf.memSendBytes) =
        res.2.1.ngSess.handedOut ∧
      (∃ acc, res.2.2.wire = [] ++ acc ∧ res.1 = acc.length) ∧
      res.2.1.wrBuf.mergeData.length ≤ 16384 ∧
      (s.wrBuf.memSendBytes ≠ [] → res.2.1.ngSess.handedOut = s.ngSess.handedOut) :=
  @h2SessSendOnceV2_stream_exact .poll 16384 16384
    ⟨fun _ => ⟨1, .other, .other⟩, fun _ => ⟨1, .other, .other⟩⟩ _ _ ⟨[], []⟩ _ _ (_, ⟨[], []⟩)
    ⟨rfl, rfl, rfl⟩ .refl (fun _ hn => ⟨fun _ _ => by simp; omega, fun _ _ => by simp; omega⟩) rfl
    (by decide)

theorem V2Step.call' (hv : net.Valid s.ssl) (hr : 0 ≤ (h2SessSendOnceV2 b bufSize cap net s l).1) :
    V2Step b bufSize cap (s, l)
      ((h2SessSendOnceV2 b bufSize cap net s l).2.1, (h2SessSendOnceV2 b bufSize cap net s l).2.2) :=
  .call s l net _ _ _ hv rfl hr

/-- `SSL_write` answered `SSL_ERROR_WANT_WRITE`. -/
def WriteCall.WantWrite (c : WriteCall) : Prop := c.res.ret ≤ 0 ∧ c.res.sslErr = .wantWrite

/-- OpenSSL's retry rule over a write log: after a WANT_WRITE the next write repeats the
same pointer and length. -/
def RetryStable : List WriteCall → Prop
  | c :: d :: rest => (c.WantWrite → d.ptr = c.ptr ∧ d.len = c.len) ∧ RetryStable (d :: rest)
  | _ => True

instance : DecidablePred WriteCall.WantWrite := fun c =>
  inferInstanceAs (Decidable (c.res.ret ≤ 0 ∧ c.res.sslErr = .wantWrite))

instance RetryStable.decide : DecidablePred RetryStable
  | c :: d :: rest =>
    haveI := RetryStable.decide (d :: rest)
    inferInstanceAs (Decidable ((c.WantWrite → d.ptr = c.ptr ∧ d.len = c.len) ∧ RetryStable (d :: rest)))
  | [] => isTrue trivial
  | [_] => isTrue trivial

/-- A TLS merge write of 2 bytes answered WANT_WRITE, then one more codec byte: the retry is
`SSL_write(merge_data, 3)`, not the same buffer and size. -/
theorem h2SessSendOnceV2_want_write_retry_grows :
    ∃ w, Relation.ReflTransGen (V2Step .poll 16384 16384)
      ({ Sess.init false true .v2 with
          ngSess := ⟨[.span ⟨⟨.codecSpan 0, 0⟩, [1, 2], by simp⟩], [], true, false⟩ }, ⟨[], []⟩) w ∧
      w.2.calls = [⟨⟨.mergeData, 0⟩, 2, ⟨0, .eagain, .wantWrite⟩⟩,
        ⟨⟨.mergeData, 0⟩, 3, ⟨3, .other, .other⟩⟩] ∧
      ¬ RetryStable w.2.calls := by
  have h₁ := @V2Step.call' .poll 16384 16384
    ⟨fun _ => ⟨0, .eagain, .wantWrite⟩, fun _ => ⟨0, .eagain, .wantWrite⟩⟩
    { Sess.init false true .v2 with
      ngSess := ⟨[.span ⟨⟨.codecSpan 0, 0⟩, [1, 2], by simp⟩], [], true, false⟩ }
    ⟨[], []⟩ (Net.valid_tls _) (by decide)
  refine ⟨_, .tail (.tail (.single h₁) (V2Step.codec _ _
      ⟨[.span ⟨⟨.codecSpan 1, 0⟩, [3], by simp⟩], [1, 2], true, false⟩ ?_))
      (@V2Step.call' _ _ _ ⟨fun n => ⟨n, .other, .other⟩, fun n => ⟨n, .other, .other⟩⟩ _ _
        (Net.valid_tls _) ?_), ?_⟩
  all_goals decide

end H2Sim
