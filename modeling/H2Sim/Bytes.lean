import Mathlib.Data.Int.GCD
import H2Sim.Basic

/-! The C library's byte routines the HTTP/1.1 parser calls: `isspace`, `atoi` as glibc
computes it, and `strncasecmp` against a lower-case name. -/
namespace H2Sim

variable {ds rest : List UInt8} {c : UInt8} {acc : Nat}

/-- ASCII bytes of a string literal. -/
def bytes (s : String) : List UInt8 := s.toList.map fun ch => ch.toNat.toUInt8

/-- `isspace` in the C locale: space, `\t`, `\n`, `\v`, `\f`, `\r`. -/
def isSpace (c : UInt8) : Bool := c.toNat == 32 || (9 ≤ c.toNat && c.toNat ≤ 13)

def isSpTab (c : UInt8) : Bool := c.toNat == 32 || c.toNat == 9

def isDigit (c : UInt8) : Bool := 48 ≤ c.toNat && c.toNat ≤ 57

/-- The value of the run of decimal digits at the head of a string, after `acc`. -/
def digitsVal : List UInt8 → Nat → Nat
  | [], acc => acc
  | c :: cs, acc => if isDigit c then digitsVal cs (acc * 10 + (c.toNat - 48)) else acc

def longMax : Int := 2 ^ 63 - 1

def longMin : Int := -2 ^ 63

/-- A value out of the range of `long` saturates at `LONG_MIN` or `LONG_MAX`. -/
def clampLong (v : Int) : Int := if v < longMin then longMin else if longMax < v then longMax else v

/-- glibc `strtol(s, NULL, 10)` on a 64-bit `long`: leading `isspace`, an optional sign,
decimal digits. -/
def strtol (s : List UInt8) : Int :=
  match s.dropWhile isSpace with
  | [] => 0
  | c :: t =>
    if c = 45 then clampLong (-(digitsVal t 0 : Int))
    else if c = 43 then clampLong (digitsVal t 0)
    else clampLong (digitsVal (c :: t) 0)

/-- glibc `atoi(s)`, `(int) strtol(s, NULL, 10)`. -/
def atoi (s : List UInt8) : Int := cInt (strtol s)

/-- `tolower` in the C locale. -/
def toLower (c : UInt8) : UInt8 := if 65 ≤ c.toNat ∧ c.toNat ≤ 90 then c + 32 else c

/-- `strncasecmp(name, key, n) == 0` for `n` the length of both. -/
def caseEq (name key : List UInt8) : Bool := name.map toLower == key

/-- A run of decimal digits, as the value of a well-formed header carries it. -/
def Digits (ds : List UInt8) : Prop := ds ≠ [] ∧ ∀ c ∈ ds, isDigit c = true

instance : DecidablePred Digits := fun ds => inferInstanceAs (Decidable (ds ≠ [] ∧ ∀ c ∈ ds, isDigit c = true))

theorem digitsVal_append (hd : ∀ c ∈ ds, isDigit c = true) (hc : isDigit c = false) :
    digitsVal (ds ++ c :: rest) acc = digitsVal ds acc := by
  induction ds generalizing acc with
  | nil => simp [digitsVal, hc]
  | cons d ds ih =>
    simp only [List.mem_cons, forall_eq_or_imp] at hd
    simp only [List.cons_append, digitsVal, hd.1, if_true]
    exact ih hd.2

theorem isSpace_of_isDigit (h : isDigit c = true) : isSpace c = false := by
  simp only [isDigit, isSpace, Bool.and_eq_true, decide_eq_true_eq] at h
  simp only [isSpace, Bool.or_eq_false_iff, beq_eq_false_iff_ne, Bool.and_eq_false_iff,
    decide_eq_false_iff_not]
  omega

/-- `atoi` of digits followed by a non-digit reads exactly those digits, when they fit an `int`. -/
theorem atoi_digits (hd : Digits ds) (hc : isDigit c = false) (hv : digitsVal ds 0 < 2 ^ 31) :
    atoi (ds ++ c :: rest) = digitsVal ds 0 := by
  obtain ⟨d, ds', rfl⟩ := List.exists_cons_of_ne_nil hd.1
  have hd₀ := hd.2 d (by simp)
  have h45 : d ≠ 45 := by rintro rfl; exact absurd hd₀ (by decide)
  have h43 : d ≠ 43 := by rintro rfl; exact absurd hd₀ (by decide)
  have hval : digitsVal (d :: (ds' ++ c :: rest)) 0 = digitsVal (d :: ds') 0 :=
    digitsVal_append hd.2 hc
  simp only [atoi, strtol, List.cons_append, List.dropWhile_cons, isSpace_of_isDigit hd₀,
    h45, h43, if_false, Bool.false_eq_true]
  have hc : clampLong (digitsVal (d :: ds') 0) = digitsVal (d :: ds') 0 := by
    unfold clampLong longMin longMax; split_ifs <;> omega
  rw [hval, hc, cInt_of_lt (by omega) (by omega)]

end H2Sim
