import H2Sim.RecvBuf

/-! The header loop of `h2_sess_recv_hdl_once_v1_1` consumes exactly the complete lines of
its input: a line is parsed once its `\n` has arrived, and a partial line is left unread. -/
namespace H2Sim

variable {sv ssl : Bool} {beyond V W l acc A U F B : List UInt8} {h h' : Hdr} {used : Nat} {c : Bool}
  {x : UInt8}

/-- A line end: `\r\n`, or a bare `\n`. -/
def eol (crlf : Bool) : List UInt8 := if crlf then [13, 10] else [10]

/-- What `atoi` can see past a line's end: its `\r`, its `\n`, the rest of the unread bytes
and the allocation past them. -/
def lineMem (crlf : Bool) (W beyond : List UInt8) : List UInt8 :=
  (if crlf then [13] else []) ++ 10 :: (W ++ beyond)

@[simp] theorem length_eol (c : Bool) : (eol c).length = if c then 2 else 1 := by
  cases c <;> rfl

/-- Bytes without a `\n` only extend the current line. -/
theorem hdrScan_noNl (hV : ∀ x ∈ V, x ≠ 10) :
    hdrScan sv ssl beyond (V ++ W) acc h used = hdrScan sv ssl beyond W (V.reverse ++ acc) h used := by
  induction V generalizing acc with
  | nil => rfl
  | cons x V ih =>
    simp only [List.mem_cons, forall_eq_or_imp] at hV
    simp only [List.cons_append, hdrScan, hV.1, if_false, List.reverse_cons, List.append_assoc,
      List.singleton_append]
    exact ih hV.2

/-- A partial line is left unread: the loop asks for more. -/
theorem hdrScan_incomplete (hV : ∀ x ∈ V, x ≠ 10) :
    hdrScan sv ssl beyond V acc h used = (.more, h, used) := by
  simpa [hdrScan] using @hdrScan_noNl sv ssl beyond V [] acc h used hV

/-- A line is complete when its `\n` arrives: a nonempty line without `\n`, not ending in
`\r`, followed by its line end. -/
structure LineOk (l : List UInt8) : Prop where
  ne : l ≠ []
  noNl : ∀ x ∈ l, x ≠ 10
  noCr : l.getLast? ≠ some 13

/-- At a line start a complete line is parsed and the loop goes on after its line end. -/
theorem hdrScan_line (hl : LineOk l) :
    hdrScan sv ssl beyond (l ++ eol c ++ W) [] h used =
      match parseLine sv ssl l (lineMem c W beyond) h with
      | .error e => (.error e, h, used)
      | .ok h' => hdrScan sv ssl beyond W [] { h' with line := h'.line + 1 } (used + (l ++ eol c).length) := by
  cases c
  · rw [eol, if_neg Bool.false_ne_true, List.append_assoc, List.singleton_append,
      hdrScan_noNl hl.noNl, List.append_nil]
    have hh : l.reverse.head? ≠ some 13 := by rw [List.head?_reverse]; exact hl.noCr
    simp only [hdrScan, if_pos rfl, hh, if_false, List.reverse_reverse, List.reverse_eq_nil_iff, hl.ne,
      List.drop_length, lineMem, List.nil_append, List.length_reverse, List.length_append, List.length_singleton]
    rfl
  · rw [eol, if_pos rfl, show l ++ [13, 10] ++ W = (l ++ [13]) ++ 10 :: W by simp,
      hdrScan_noNl (fun x hx => by
        rcases List.mem_append.mp hx with hx | hx
        exacts [hl.noNl x hx, by simp at hx; subst hx; decide]), List.append_nil]
    simp [hdrScan, hl.ne, lineMem]
    rfl

/-- The empty line ends the header section. -/
theorem hdrScan_blank (c : Bool) :
    hdrScan sv ssl beyond (eol c ++ W) [] h used = (.done, h, used + (eol c).length) := by
  cases c <;> rfl

theorem eol_eq (c : Bool) : eol c = (if c then [13] else []) ++ [10] := by cases c <;> rfl

theorem ne_nl_of_mem_cr (c : Bool) (hx : x ∈ (if c then [(13 : UInt8)] else [])) : x ≠ 10 := by
  cases c <;> simp at hx; subst hx; decide

theorem noNl_cr (hl : LineOk A) (c : Bool) : ∀ x ∈ A ++ (if c then [13] else []), x ≠ 10 := by
  intro x hx
  rcases List.mem_append.mp hx with hx | hx
  exacts [hl.noNl x hx, ne_nl_of_mem_cr c hx]

/-- Where the unread bytes stop relative to the next `\n`: past it, or short of it. -/
theorem split_at_nl (hA : ∀ x ∈ A, x ≠ 10) (h : U ++ F = A ++ 10 :: B) :
    (∃ U', U = A ++ 10 :: U' ∧ U' ++ F = B) ∨ ((∀ x ∈ U, x ≠ 10) ∧ F ≠ []) := by
  rcases List.append_eq_append_iff.mp h with ⟨a', rfl, rfl⟩ | ⟨c', rfl, hc⟩
  · exact .inr ⟨fun x hx => hA x (List.mem_append_left _ hx), by simp⟩
  · cases c' with
    | nil => exact .inr ⟨by simpa using hA, by simp at hc; simp [← hc]⟩
    | cons y c' =>
      simp only [List.cons_append, List.cons.injEq] at hc
      exact .inl ⟨c', by rw [hc.1], hc.2.symm⟩

end H2Sim
