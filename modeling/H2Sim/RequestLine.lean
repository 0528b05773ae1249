import H2Sim.Request

/-! The Request-Line check of `h2_sess_recv_hdl_once_v1_1`: which first lines a server
accepts, and the method and path it records for a line `M W1 P W2 HTTP/1.1`. -/
namespace H2Sim

variable {M W₁ P W₂ L W : List UInt8} {x : UInt8} {ssl c : Bool} {beyond : List UInt8}
  {h : Hdr} {used : Nat}

theorem parseRequestLine_eq_none (m : Msg) :
    parseRequestLine ssl L m = none ↔ ¬ (12 ≤ L.length ∧ L.drop (L.length - 8) = bytes "HTTP/1.1") := by
  unfold parseRequestLine
  split_ifs with hl <;> simp [hl]

/-- The byte before `HTTP/1.1` in a line of the shape is a blank. -/
theorem reqLine_blank_before_version (hL : L = M ++ W₁ ++ P ++ W₂ ++ bytes "HTTP/1.1")
    (hs : ReqLineShape M W₁ P W₂) : ∃ x ∈ (L.take (L.length - 8)).getLast?, isSpTab x = true := by
  obtain ⟨W', w, rfl⟩ := (List.eq_nil_or_concat W₂).resolve_left hs.blank₂_ne
  rw [hL, List.length_append, length_bytes_http11, Nat.add_sub_cancel, List.take_left]
  exact ⟨w, by simp, hs.blank₂ w (by simp)⟩

/-- Past the first line, the header loop never fails with the Request-Line's `-1`. -/
theorem hdrScan_ne_reqLineError (sv ssl : Bool) (beyond : List UInt8) :
    ∀ (V acc : List UInt8) (h : Hdr) (used : Nat), 0 < h.line →
      (hdrScan sv ssl beyond V acc h used).1 ≠ .error (-1)
  | [], _, _, _, _ => by simp [hdrScan]
  | c :: cs, acc, h, used, hp => by
    by_cases hc : c = 10
    · simp only [hdrScan, if_pos hc]
      generalize (if acc.head? = some 13 then acc.tail.reverse else acc.reverse) = ln
      split_ifs
      · simp
      · simp only [parseLine, if_neg (Nat.pos_iff_ne_zero.mp hp)]
        split
        · next e he => split at he <;> cases he; simp
        · exact hdrScan_ne_reqLineError sv ssl beyond cs [] _ _ (Nat.succ_pos _)
    · simp only [hdrScan, if_neg hc]
      exact hdrScan_ne_reqLineError sv ssl beyond cs _ h used hp

/-- A server's first complete line goes through the Request-Line check alone. -/
theorem hdrScan_reqLine (hl : LineOk L) (h0 : h.line = 0) :
    hdrScan true ssl beyond (L ++ eol c ++ W) [] h used =
      match parseRequestLine ssl L h.msg with
      | some m => hdrScan true ssl beyond W [] { h with msg := m, line := 1 } (used + (L ++ eol c).length)
      | none => (.error (-1), h, used) := by
  rw [hdrScan_line hl]
  rcases hp : parseRequestLine ssl L h.msg with _ | m <;> simp [parseLine, h0, hp]

/-- The request line of a server: when it fails, and the method and path it gives. -/
theorem hdrScan_requestLine (hl : LineOk L) (h0 : h.line = 0) :
    ((hdrScan true ssl beyond (L ++ eol c ++ W) [] h used).1 = .error (-1) ↔
      ¬ (12 ≤ L.length ∧ L.drop (L.length - 8) = bytes "HTTP/1.1")) ∧
    ∀ M W₁ P W₂, L = M ++ W₁ ++ P ++ W₂ ++ bytes "HTTP/1.1" → ReqLineShape M W₁ P W₂ →
      hdrScan true ssl beyond (L ++ eol c ++ W) [] h used =
        hdrScan true ssl beyond W [] { h with
          msg := { h.msg with
            method := some M, scheme := some (bytes (if ssl then "https" else "http")),
            authority := some (bytes "http"), path := some P }, line := 1 } (used + (L ++ eol c).length) := by
  refine ⟨?_, fun M W₁ P W₂ hL hs => by rw [hdrScan_reqLine hl h0, parseRequestLine_shape hL hs]⟩
  rw [hdrScan_reqLine hl h0, ← parseRequestLine_eq_none h.msg]
  rcases parseRequestLine ssl L h.msg with _ | m
  · simp
  · simpa using hdrScan_ne_reqLineError true ssl beyond W [] { h with msg := m, line := 1 } _ Nat.one_pos

/-- A server accepts a Request-Line with no blank before `HTTP/1.1`, and records the path `/`;
no split of the line has the shape `M W1 P W2 HTTP/1.1`. -/
theorem recvHdlOnce_noBlankVersion :
    let s : Sess := (Sess.init true false .v1_1).appendRdata (fun _ => 0) (bytes "GET /HTTP/1.1\r\n\r\n")
    let o := h2SessRecvHdlOnceV11 ⟨fun _ => 0, fun _ => 0⟩ s
    o.1 = 1 ∧ (o.2.1.rmsgOf 0).method = some (bytes "GET") ∧ (o.2.1.rmsgOf 0).path = some (bytes "/") ∧
    ¬ ∃ M W₁ P W₂, bytes "GET /HTTP/1.1" = M ++ W₁ ++ P ++ W₂ ++ bytes "HTTP/1.1" ∧ ReqLineShape M W₁ P W₂ := by
  refine ⟨by decide, by decide, by decide, fun ⟨_, _, _, _, hL, hs⟩ => ?_⟩
  obtain ⟨x, hx, hb⟩ := reqLine_blank_before_version hL hs
  rw [show ((bytes "GET /HTTP/1.1").take ((bytes "GET /HTTP/1.1").length - 8)).getLast? = some 47 from rfl,
    Option.mem_def, Option.some.injEq] at hx
  subst hx
  exact absurd hb (by decide)

end H2Sim
