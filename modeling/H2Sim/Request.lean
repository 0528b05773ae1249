import H2Sim.RecvScan

/-! Well-formed HTTP/1.1 requests as a client sends them, the message a server should hand
to its request callback for each, and how the parser reads each of their lines. -/
namespace H2Sim

variable {x : UInt8} {a v ds z n U F T beyond : List UInt8} {r : Req} {ssl : Bool} {j used : Nat}

/-- A `tchar` of RFC 7230: a digit, a letter, or one of `!#$%&'*+-.^_` and the grave accent,
`|` and `~`. -/
def isTchar (c : UInt8) : Bool :=
  isDigit c || (65 ≤ c.toNat && c.toNat ≤ 90) || (97 ≤ c.toNat && c.toNat ≤ 122) ||
    [33, 35, 36, 37, 38, 39, 42, 43, 45, 46, 94, 95, 96, 124, 126].contains c.toNat

def Token (t : List UInt8) : Prop := t ≠ [] ∧ ∀ c ∈ t, isTchar c = true

instance : DecidablePred Token := fun t => inferInstanceAs (Decidable (t ≠ [] ∧ ∀ c ∈ t, isTchar c = true))

/-- An HTTP/1.1 request as sent: the request line, `name: value` lines each with its line end
(`true` for CRLF), the empty line, the body. -/
structure Req where
  method : List UInt8
  path : List UInt8
  reqCrlf : Bool
  hdrs : List (List UInt8 × List UInt8 × Bool)
  endCrlf : Bool
  body : List UInt8

def Req.reqLine (r : Req) : List UInt8 := r.method ++ 32 :: r.path ++ 32 :: bytes "HTTP/1.1"

def hdrLine (n v : List UInt8) : List UInt8 := n ++ 58 :: 32 :: v

/-- The lines of the header section, with their line ends. -/
def Req.lines (r : Req) : List (List UInt8 × Bool) :=
  (r.reqLine, r.reqCrlf) :: r.hdrs.map fun h => (hdrLine h.1 h.2.1, h.2.2)

def serLines (ls : List (List UInt8 × Bool)) : List UInt8 := (ls.map fun l => l.1 ++ eol l.2).flatten

def Req.head (r : Req) : List UInt8 := serLines r.lines ++ eol r.endCrlf

def Req.ser (r : Req) : List UInt8 := r.head ++ r.body

def isHost (n : List UInt8) : Bool := n.length == 4 && caseEq n (bytes "host")

def isContentLength (n : List UInt8) : Bool := n.length == 14 && caseEq n (bytes "content-length")

/-- A value with the spaces and tabs around it removed. -/
def trimSpTab (v : List UInt8) : List UInt8 :=
  ((v.dropWhile isSpTab).reverse.dropWhile isSpTab).reverse

/-- A `Content-Length` value denoting `n`: decimal digits, blanks around them allowed. -/
def ClValue (v : List UInt8) (n : Nat) : Prop :=
  ∃ a ds z, v = a ++ ds ++ z ∧ (∀ x ∈ a, isSpTab x = true) ∧ Digits ds ∧
    (∀ x ∈ z, isSpTab x = true) ∧ digitsVal ds 0 = n

/-- A well-formed request: token method and header names, a nonempty path without white space,
CR/LF-free values, and a body as long as every `Content-Length` says (empty without one). -/
structure Req.Wf (r : Req) : Prop where
  method : Token r.method
  path : r.path ≠ [] ∧ ∀ x ∈ r.path, isSpace x = false
  names : ∀ h ∈ r.hdrs, Token h.1
  values : ∀ h ∈ r.hdrs, ∀ x ∈ h.2.1, x ≠ 13 ∧ x ≠ 10
  cl : ∀ h ∈ r.hdrs, isContentLength h.1 = true → ClValue h.2.1 r.body.length
  noCl : (∀ h ∈ r.hdrs, isContentLength h.1 = false) → r.body = []

/-- The authority a server should record: the last `Host` value, `http` without one. -/
def authorityOf (hs : List (List UInt8 × List UInt8 × Bool)) : List UInt8 :=
  (((hs.filter fun h => isHost h.1).getLast?).map fun h => trimSpTab h.2.1).getD (bytes "http")

/-- The headers a server should record: all but `Host` and `Content-Length`, in order, their
values trimmed. -/
def othersOf (hs : List (List UInt8 × List UInt8 × Bool)) : List (List UInt8 × List UInt8) :=
  (hs.filter fun h => !isHost h.1 && !isContentLength h.1).map fun h => (h.1, trimSpTab h.2.1)

/-- The message a server should hand to its request callback. -/
def Req.msg (ssl : Bool) (r : Req) : Msg :=
  ⟨some r.method, some (bytes (if ssl then "https" else "http")), some (authorityOf r.hdrs),
    some r.path, 0, othersOf r.hdrs, r.body⟩


theorem eq_of_isSpTab (h : isSpTab x = true) : x = 32 ∨ x = 9 := by
  simp only [isSpTab, Bool.or_eq_true, beq_iff_eq] at h
  exact h.imp UInt8.toNat.inj UInt8.toNat.inj

/-- A byte that a class holding neither blank accepts is no blank. -/
theorem isSpTab_eq_false_of {f : UInt8 → Bool} (h32 : f 32 = false) (h9 : f 9 = false)
    (h : f x = true) : isSpTab x = false := by
  cases hs : isSpTab x
  · rfl
  · rcases eq_of_isSpTab hs with rfl | rfl
    · rw [h32] at h; cases h
    · rw [h9] at h; cases h

theorem isTchar_facts (h : isTchar x = true) : isSpTab x = false ∧ x ≠ 10 ∧ x ≠ 58 :=
  ⟨isSpTab_eq_false_of rfl rfl h, fun he => absurd (he ▸ h) (by decide),
    fun he => absurd (he ▸ h) (by decide)⟩

theorem isSpace_facts (h : isSpace x = false) : isSpTab x = false ∧ x ≠ 10 :=
  ⟨isSpTab_eq_false_of (f := fun y => !isSpace y) rfl rfl (by simp [h]),
    fun he => absurd (he ▸ h) (by decide)⟩

theorem isSpTab_of_isDigit (h : isDigit x = true) : isSpTab x = false := isSpTab_eq_false_of rfl rfl h

@[simp] theorem stripRev_one (l : List UInt8) : stripRev 1 l = l.dropWhile isSpTab := by
  induction l with
  | nil => rfl
  | cons c l ih => cases hc : isSpTab c <;> simp [stripRev, hc, ih]

theorem stripRev_stop (k : Nat) (h : isSpTab x = false) (l : List UInt8) : stripRev k (x :: l) = x :: l := by
  simp [stripRev, h]

/-- The value trim of the header branch is `trimSpTab`. -/
theorem stripEnd_one (v : List UInt8) : stripEnd 1 (v.dropWhile isSpTab) = trimSpTab v := by
  simp [stripEnd, trimSpTab]

theorem stripRev_drop (k : Nat) (hk : k ≤ n.length + 1) (h : isSpTab x = true) : stripRev k (x :: n) = stripRev k n := by
  simp [stripRev, hk, h]

@[simp] theorem length_bytes_http11 : (bytes "HTTP/1.1").length = 8 := rfl

section Shape

variable {M W₁ P W₂ L W rest : List UInt8} {k : Nat}

/-- A Request-Line `M W1 P W2 HTTP/1.1`: a method without blanks, two runs of spaces and
tabs, and a path that neither starts nor ends with one. -/
structure ReqLineShape (M W₁ P W₂ : List UInt8) : Prop where
  method_ne : M ≠ []
  method : ∀ x ∈ M, isSpTab x = false
  blank₁_ne : W₁ ≠ []
  blank₁ : ∀ x ∈ W₁, isSpTab x = true
  path_ne : P ≠ []
  path_head : ∀ x ∈ P.head?, isSpTab x = false
  path_last : ∀ x ∈ P.getLast?, isSpTab x = false
  blank₂_ne : W₂ ≠ []
  blank₂ : ∀ x ∈ W₂, isSpTab x = true

theorem stripRev_blanks (hW : ∀ y ∈ W, isSpTab y = true) (hx : isSpTab x = false)
    (hk : k ≤ rest.length + 2) : stripRev k (W ++ x :: rest) = x :: rest := by
  induction W with
  | nil => exact stripRev_stop k hx rest
  | cons y W ih =>
    simp only [List.mem_cons, forall_eq_or_imp] at hW
    rw [List.cons_append, stripRev_drop k (by simp; omega) hW.1, ih hW.2]

/-- The trim before `HTTP/1.1` stops at the path's last byte. -/
theorem ReqLineShape.stripEnd (hs : ReqLineShape M W₁ P W₂) :
    stripEnd 3 (M ++ W₁ ++ P ++ W₂) = M ++ W₁ ++ P := by
  obtain ⟨P', p, rfl⟩ := (List.eq_nil_or_concat P).resolve_left hs.path_ne
  have hp : isSpTab p = false := hs.path_last p (by simp)
  have hM := List.length_pos.mpr hs.method_ne
  have hW := List.length_pos.mpr hs.blank₁_ne
  have hrev : (M ++ W₁ ++ P'.concat p ++ W₂).reverse =
      W₂.reverse ++ p :: (P'.reverse ++ W₁.reverse ++ M.reverse) := by simp
  rw [stripEnd, hrev, stripRev_blanks (by simpa using hs.blank₂) hp (by simp; omega)]
  simp

/-- The method is the run before the first blank, the path what follows the blanks. -/
theorem ReqLineShape.split (hs : ReqLineShape M W₁ P W₂) :
    (M ++ W₁ ++ P).takeWhile (fun c => !isSpTab c) = M ∧
      ((M ++ W₁ ++ P).drop M.length).dropWhile isSpTab = P := by
  obtain ⟨w, W', rfl⟩ := List.exists_cons_of_ne_nil hs.blank₁_ne
  obtain ⟨q, Q, rfl⟩ := List.exists_cons_of_ne_nil hs.path_ne
  have hw : isSpTab w = true := hs.blank₁ w (by simp)
  have hq : isSpTab q = false := hs.path_head q (by simp)
  constructor
  · rw [List.append_assoc, List.takeWhile_append_of_pos (fun y hy => by simp [hs.method y hy]),
      List.cons_append, List.takeWhile_cons_of_neg (by simp [hw]), List.append_nil]
  · rw [List.append_assoc, List.drop_left, List.dropWhile_append_of_pos (by simpa using hs.blank₁),
      List.dropWhile_cons_of_neg (by simp [hq])]

/-- A line of the shape is accepted, with method `M` and path `P`. -/
theorem parseRequestLine_shape (hL : L = M ++ W₁ ++ P ++ W₂ ++ bytes "HTTP/1.1")
    (hs : ReqLineShape M W₁ P W₂) (m : Msg) :
    parseRequestLine ssl L m = some { m with
      method := some M, scheme := some (bytes (if ssl then "https" else "http")),
      authority := some (bytes "http"), path := some P } := by
  have hlen : L.length - 8 = (M ++ W₁ ++ P ++ W₂).length := by
    rw [hL, List.length_append, length_bytes_http11, Nat.add_sub_cancel]
  have h4 : 4 ≤ (M ++ W₁ ++ P ++ W₂).length := by
    have := List.length_pos.mpr hs.method_ne
    have := List.length_pos.mpr hs.blank₁_ne
    have := List.length_pos.mpr hs.path_ne
    have := List.length_pos.mpr hs.blank₂_ne
    simp only [List.length_append]; omega
  unfold parseRequestLine
  rw [if_pos ⟨by omega, by rw [hlen, hL, List.drop_left]⟩, hlen, hL, List.take_left, hs.stripEnd]
  dsimp only
  rw [hs.split.1, hs.split.2]

end Shape

theorem parseRequestLine_reqLine (hm : Token r.method) (hp : r.path ≠ [] ∧ ∀ x ∈ r.path, isSpace x = false)
    (m : Msg) :
    parseRequestLine ssl r.reqLine m = some { m with
      method := some r.method, scheme := some (bytes (if ssl then "https" else "http")),
      authority := some (bytes "http"), path := some r.path } := by
  have hps : ∀ x ∈ r.path, isSpTab x = false := fun x hx => (isSpace_facts (hp.2 x hx)).1
  exact parseRequestLine_shape (show r.reqLine = r.method ++ [32] ++ r.path ++ [32] ++ bytes "HTTP/1.1" by
    simp [Req.reqLine]) ⟨hm.1, fun x hx => (isTchar_facts (hm.2 x hx)).1, by simp, by simp [isSpTab], hp.1,
      fun x hx => hps x (List.mem_of_mem_head? hx), fun x hx => hps x (List.mem_of_mem_getLast? hx), by simp,
      by simp [isSpTab]⟩ m

theorem parseHeaderLine_hdrLine (hn : Token n) (mem : List UInt8) (h : Hdr) :
    parseHeaderLine true (hdrLine n v) mem h =
      some (if isHost n then { h with msg := { h.msg with authority := some (trimSpTab v) } }
        else if isContentLength n then { h with contentLength := atoi (v.dropWhile isSpTab ++ mem) }
        else { h with msg := { h.msg with hdrs := h.msg.hdrs ++ [(n, trimSpTab v)] } }) := by
  have hname : (hdrLine n v).takeWhile (· ≠ 58) = n := by
    rw [hdrLine, List.takeWhile_append_of_pos (fun x hx => by simp [(isTchar_facts (hn.2 x hx)).2.2]),
      List.takeWhile_cons_of_neg (by decide), List.append_nil]
  have hdrop : (hdrLine n v).drop (n.length + 1) = 32 :: v := by
    rw [hdrLine, show n ++ 58 :: 32 :: v = (n ++ [58]) ++ 32 :: v by simp, List.drop_left' (by simp)]
  simp only [parseHeaderLine, hname, hdrop, List.dropWhile_cons_of_pos (show isSpTab 32 = true by decide),
    stripEnd_one, isHost, isContentLength, Bool.and_eq_true, beq_iff_eq, and_true]
  rw [if_pos (by simp [hdrLine])]
  split_ifs <;> rfl

/-- `atoi` on a well-formed `Content-Length` value reads its digits. -/
theorem atoi_clValue {k : Nat} (hv : ClValue v k) (hk : k < 2 ^ 31) (c : Bool) (W beyond : List UInt8) :
    atoi (v.dropWhile isSpTab ++ lineMem c W beyond) = k := by
  obtain ⟨a, ds, z, rfl, ha, hd, hz, rfl⟩ := hv
  obtain ⟨d, ds', hds⟩ := List.exists_cons_of_ne_nil hd.1
  obtain ⟨y, rest, hy, hyd⟩ : ∃ y rest, z ++ lineMem c W beyond = y :: rest ∧ isDigit y = false := by
    cases z with
    | cons y z =>
      have hy := hz y (by simp)
      exact ⟨y, _, rfl, by simp [isSpTab] at hy; simp [isDigit]; omega⟩
    | nil => cases c <;> exact ⟨_, _, rfl, by decide⟩
  have hd₀ : isSpTab d = false := isSpTab_of_isDigit (hd.2 d (by simp [hds]))
  rw [List.append_assoc, List.dropWhile_append_of_pos ha, hds, List.cons_append,
    List.dropWhile_cons_of_neg (by simp [hd₀]), ← List.cons_append, ← hds, List.append_assoc, hy,
    atoi_digits hd hyd hk]

/-- Whether some header of the list is a `Content-Length`: the body length a server should
then read, 0 without one. -/
def clOf (hs : List (List UInt8 × List UInt8 × Bool)) (k : Nat) : Int :=
  if hs.any fun h => isContentLength h.1 then k else 0

/-- The header loop's state after the first `j` lines of a request. -/
def Req.hdrAt (ssl : Bool) (r : Req) : Nat → Hdr
  | 0 => ⟨0, 0, .empty⟩
  | j + 1 => ⟨j + 1, clOf (r.hdrs.take j) r.body.length,
      { ({ r with hdrs := r.hdrs.take j }).msg ssl with body := [] }⟩

@[simp] theorem Req.hdrAt_line (ssl : Bool) (r : Req) (j : Nat) : (r.hdrAt ssl j).line = j := by
  cases j <;> rfl

theorem isContentLength_of_isHost (h : isHost n = true) : isContentLength n = false := by
  simp only [isHost, isContentLength, Bool.and_eq_true, beq_iff_eq] at h ⊢
  simp [h.1]

@[simp] theorem authorityOf_concat (hs : List (List UInt8 × List UInt8 × Bool)) (h) :
    authorityOf (hs ++ [h]) = if isHost h.1 then trimSpTab h.2.1 else authorityOf hs := by
  unfold authorityOf; split_ifs with hh <;> simp [hh]

@[simp] theorem othersOf_concat (hs : List (List UInt8 × List UInt8 × Bool)) (h) :
    othersOf (hs ++ [h]) =
      othersOf hs ++ if !isHost h.1 && !isContentLength h.1 then [(h.1, trimSpTab h.2.1)] else [] := by
  unfold othersOf; split_ifs with hh <;> simp [hh]

@[simp] theorem clOf_concat (hs : List (List UInt8 × List UInt8 × Bool)) (h) (k : Nat) :
    clOf (hs ++ [h]) k = if isContentLength h.1 then (k : Int) else clOf hs k := by
  simp only [clOf, List.any_append, List.any_cons, List.any_nil, Bool.or_false]
  cases isContentLength h.1 <;> simp only [Bool.or_false, Bool.or_true, ite_true, Bool.false_eq_true, ite_false]

/-- Each line of a well-formed request is one step of the header loop. -/
theorem parseLine_hdrAt (hw : r.Wf) (hn : r.body.length < 2 ^ 31) (hj : j < r.lines.length)
    (W beyond : List UInt8) :
    parseLine true ssl r.lines[j].1 (lineMem r.lines[j].2 W beyond) (r.hdrAt ssl j) =
      .ok { r.hdrAt ssl (j + 1) with line := j } := by
  cases j with
  | zero =>
    simp only [Req.lines, List.getElem_cons_zero, parseLine, Req.hdrAt, if_true,
      parseRequestLine_reqLine hw.method hw.path]
    rfl
  | succ k =>
    have hk : k < r.hdrs.length := by simpa [Req.lines] using hj
    have hmem := List.getElem_mem hk
    have htake : r.hdrs.take (k + 1) = r.hdrs.take k ++ [r.hdrs[k]] := by
      rw [List.take_succ, List.getElem?_eq_getElem hk]; rfl
    simp only [Req.lines, List.getElem_cons_succ, List.getElem_map, parseLine, Req.hdrAt,
      Nat.add_one_ne_zero, if_false, parseHeaderLine_hdrLine (hw.names _ hmem)]
    by_cases hh : isHost r.hdrs[k].1 = true
    · rw [htake]
      simp only [hh, isContentLength_of_isHost hh, Req.msg, authorityOf_concat, othersOf_concat, clOf_concat,
        Bool.false_eq_true, ↓reduceIte, Bool.not_true, Bool.false_and, List.append_nil]
    · rw [Bool.not_eq_true] at hh
      by_cases hc : isContentLength r.hdrs[k].1 = true
      · rw [htake]
        simp only [hh, hc, Req.msg, authorityOf_concat, othersOf_concat, clOf_concat,
          atoi_clValue (hw.cl _ hmem hc) hn, Bool.false_eq_true, ↓reduceIte, Bool.not_true, Bool.and_false,
          List.append_nil]
      · rw [Bool.not_eq_true] at hc
        rw [htake]
        simp only [hh, hc, Req.msg, authorityOf_concat, othersOf_concat, clOf_concat, Bool.false_eq_true,
          ↓reduceIte, Bool.not_false, Bool.and_self]

theorem lineOk_reqLine (hm : Token r.method) (hp : r.path ≠ [] ∧ ∀ x ∈ r.path, isSpace x = false) :
    LineOk r.reqLine where
  ne := by simp [Req.reqLine]
  noNl := by
    have hH : ∀ x ∈ bytes "HTTP/1.1", x ≠ 10 := by decide
    intro x hx
    unfold Req.reqLine at hx
    generalize bytes "HTTP/1.1" = H at hH hx
    simp only [List.mem_append, List.mem_cons] at hx
    rcases hx with (hx | rfl | hx) | rfl | hx
    exacts [(isTchar_facts (hm.2 x hx)).2.1, by decide, (isSpace_facts (hp.2 x hx)).2, by decide, hH x hx]
  noCr := by
    rw [Req.reqLine, show r.method ++ 32 :: r.path ++ 32 :: bytes "HTTP/1.1" =
      (r.method ++ 32 :: r.path ++ [32]) ++ bytes "HTTP/1.1" by simp, List.getLast?_append,
      show (bytes "HTTP/1.1").getLast? = some 49 from rfl]
    simp

theorem lineOk_hdrLine (hn : Token n) (hv : ∀ x ∈ v, x ≠ 13 ∧ x ≠ 10) : LineOk (hdrLine n v) where
  ne := by simp [hdrLine]
  noNl := by
    simp only [hdrLine, List.mem_append, List.mem_cons]
    rintro x (hx | rfl | rfl | hx)
    exacts [(isTchar_facts (hn.2 x hx)).2.1, by decide, by decide, (hv x hx).2]
  noCr := by
    rcases List.eq_nil_or_concat v with rfl | ⟨v', y, rfl⟩
    · simp [hdrLine]
    · rw [hdrLine, show n ++ 58 :: 32 :: (v'.concat y) = (n ++ 58 :: 32 :: v') ++ [y] by simp,
        List.getLast?_concat]
      simpa using (hv y (by simp)).1

theorem Req.lineOk (hw : r.Wf) (hj : j < r.lines.length) : LineOk r.lines[j].1 := by
  cases j with
  | zero => exact lineOk_reqLine hw.method hw.path
  | succ k =>
    simp only [Req.lines, List.getElem_cons_succ, List.getElem_map]
    exact lineOk_hdrLine (hw.names _ (List.getElem_mem _)) (hw.values _ (List.getElem_mem _))

@[simp] theorem serLines_cons (l : List UInt8 × Bool) (ls : List (List UInt8 × Bool)) :
    serLines (l :: ls) = l.1 ++ eol l.2 ++ serLines ls := by simp [serLines]

@[simp] theorem serLines_nil : serLines [] = [] := rfl

/-- The header loop on a request's header section from line `j`. -/
theorem hdrScan_req (hw : r.Wf) (hn : r.body.length < 2 ^ 31) (hj : j ≤ r.lines.length)
    (hU : U ++ F = serLines (r.lines.drop j) ++ eol r.endCrlf ++ T) (ssl : Bool) (beyond : List UInt8) (used : Nat) :
    (∃ U', U = serLines (r.lines.drop j) ++ eol r.endCrlf ++ U' ∧ U' ++ F = T ∧
      hdrScan true ssl beyond U [] (r.hdrAt ssl j) used =
        (.done, r.hdrAt ssl r.lines.length, used + (serLines (r.lines.drop j) ++ eol r.endCrlf).length)) ∨
    (∃ j' P V, j ≤ j' ∧ j' ≤ r.lines.length ∧ U = P ++ V ∧ F ≠ [] ∧
      V ++ F = serLines (r.lines.drop j') ++ eol r.endCrlf ++ T ∧
      hdrScan true ssl beyond U [] (r.hdrAt ssl j) used = (.more, r.hdrAt ssl j', used + P.length)) := by
  obtain ⟨k, hk⟩ : ∃ k, r.lines.length - j = k := ⟨_, rfl⟩
  induction k generalizing j U used with
  | zero =>
    obtain rfl : j = r.lines.length := by omega
    simp only [List.drop_length, serLines_nil, List.nil_append] at hU ⊢
    have hU' : U ++ F = (if r.endCrlf then [13] else []) ++ 10 :: T := by
      rw [hU, eol_eq, List.append_assoc, List.singleton_append]
    rcases split_at_nl (fun x hx => ne_nl_of_mem_cr _ hx) hU' with ⟨U', rfl, hrest⟩ | ⟨hV, hF⟩
    · refine .inl ⟨U', by rw [eol_eq]; simp, hrest, ?_⟩
      rw [show (if r.endCrlf then [(13 : UInt8)] else []) ++ 10 :: U' = eol r.endCrlf ++ U' by
        rw [eol_eq]; simp, hdrScan_blank]
    · exact .inr ⟨r.lines.length, [], U, le_rfl, le_rfl, rfl, hF, by simpa using hU,
        by rw [hdrScan_incomplete hV]; rfl⟩
  | succ k ih =>
    have hjl : j < r.lines.length := by omega
    have hl := r.lineOk hw hjl
    have hU' : U ++ F = (r.lines[j].1 ++ if r.lines[j].2 then [13] else []) ++
        10 :: (serLines (r.lines.drop (j + 1)) ++ eol r.endCrlf ++ T) := by
      rw [hU, List.drop_eq_getElem_cons hjl, serLines_cons, eol_eq]; simp
    rcases split_at_nl (noNl_cr hl _) hU' with ⟨U₁, rfl, hU₁⟩ | ⟨hV, hF⟩
    · have hline : (r.lines[j].1 ++ if r.lines[j].2 then [13] else []) ++ 10 :: U₁ =
          r.lines[j].1 ++ eol r.lines[j].2 ++ U₁ := by rw [eol_eq]; simp
      have hnext : (⟨j + 1, (r.hdrAt ssl (j + 1)).contentLength, (r.hdrAt ssl (j + 1)).msg⟩ : Hdr) =
          r.hdrAt ssl (j + 1) := rfl
      rw [hline, hdrScan_line hl, parseLine_hdrAt hw hn hjl]
      dsimp only
      rw [hnext]
      rcases ih (by omega) hU₁ _ (by omega) with ⟨U', rfl, hU', hs⟩ | ⟨j', P, V, h₁, h₂, rfl, hF, hV, hs⟩
      · refine .inl ⟨U', by rw [List.drop_eq_getElem_cons hjl]; simp only [serLines_cons, List.append_assoc],
          hU', ?_⟩
        rw [hs, List.drop_eq_getElem_cons hjl]
        simp only [serLines_cons, List.length_append, Nat.add_assoc]
      · refine .inr ⟨j', r.lines[j].1 ++ eol r.lines[j].2 ++ P, V, by omega, h₂, by simp, hF, hV, ?_⟩
        rw [hs]
        simp only [List.length_append, Nat.add_assoc]
    · exact .inr ⟨j, [], U, le_rfl, hj, rfl, hF, hU, by rw [hdrScan_incomplete hV]; rfl⟩

theorem ClValue.of_digits {ds : List UInt8} {n : Nat} (hd : Digits ds) (hv : digitsVal ds 0 = n) : ClValue ds n :=
  ⟨[], ds, [], by simp, by simp, hd, by simp, hv⟩

/-- After every line of a well-formed request the header state holds its body length. -/
theorem Req.hdrAt_end (hw : r.Wf) (ssl : Bool) :
    r.hdrAt ssl r.lines.length = ⟨r.lines.length, r.body.length, { r.msg ssl with body := [] }⟩ := by
  have hl : r.lines.length = r.hdrs.length + 1 := by simp [Req.lines]
  rw [hl, Req.hdrAt, List.take_length]
  congr 1
  unfold clOf
  split_ifs with h
  · rfl
  · have h' := List.any_eq_false.mp (Bool.eq_false_iff.mpr h)
    rw [hw.noCl fun x hx => by simpa using h' x hx]; rfl

/-- A request is at least its two line ends long. -/
theorem Req.two_le_length_ser (r : Req) : 2 ≤ r.ser.length := by
  simp only [Req.ser, Req.head, Req.lines, serLines, List.map_cons, List.flatten_cons, List.length_append,
    length_eol]
  split <;> split <;> omega

end H2Sim
