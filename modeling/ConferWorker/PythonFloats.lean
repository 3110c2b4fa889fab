import ConferWorker.CompensatedSums
import ConferWorker.PythonErrors
import ConferWorker.UnicodeText

/-! Floats: `float(s)` of a text, and the operations, with what they round and where they overflow.
A finite float stands for its exact value, so the two zeros are one. -/
namespace ConferWorker

inductive PythonFloat
  | finite (value : ℚ)
  | infinite (negative : Bool)
  | nan
  deriving DecidableEq

/-- `round(x, 2)` of a finite float: its exact value is rounded to hundredths. -/
def roundHundredths (x : ℚ) : ℚ := Binary64.nearest (Binary64.roundEven (100*x)/100)

namespace PythonFloat

/-- The result of an operation, from its exact value. -/
def ofExact (x : ℚ) : PythonFloat :=
  if |Binary64.nearest x| < 2^1024 then .finite (Binary64.nearest x) else .infinite (x < 0)

/-- `float(n)`. -/
def ofInt (n : ℤ) : Except PythonError PythonFloat :=
  if |Binary64.nearest n| < 2^1024 then .ok (.finite (Binary64.nearest n))
  else .error (.overflowError (ofString "int too large to convert to float"))

def neg : PythonFloat → PythonFloat
  | .finite x => .finite (-x)
  | .infinite negative => .infinite !negative
  | .nan => .nan

def add : PythonFloat → PythonFloat → PythonFloat
  | .finite x, .finite y => ofExact (x+y)
  | .infinite negative, .finite _ | .finite _, .infinite negative => .infinite negative
  | .infinite first, .infinite second => if first = second then .infinite first else .nan
  | .nan, _ | _, .nan => .nan

def sub (x y : PythonFloat) : PythonFloat := x.add y.neg

def mul : PythonFloat → PythonFloat → PythonFloat
  | .finite x, .finite y => ofExact (x*y)
  | .infinite negative, .finite x | .finite x, .infinite negative =>
    if x = 0 then .nan else .infinite (negative != decide (x < 0))
  | .infinite first, .infinite second => .infinite (first != second)
  | .nan, _ | _, .nan => .nan

/-- `x / y` where `y` is not zero. -/
def quotient : PythonFloat → PythonFloat → PythonFloat
  | .finite x, .finite y => ofExact (x/y)
  | .finite _, .infinite _ => .finite 0
  | .infinite negative, .finite y => .infinite (negative != decide (y < 0))
  | .infinite _, .infinite _ | .nan, _ | _, .nan => .nan

def div (x y : PythonFloat) : Except PythonError PythonFloat :=
  if y = .finite 0 then
    .error ⟨.other (ofString "ZeroDivisionError"), ofString "float division by zero"⟩
  else .ok (quotient x y)

/-- `round(x, 2)`. -/
def round : PythonFloat → PythonFloat
  | .finite x => .finite (roundHundredths x)
  | x => x

/-- `max(0.0, x)`: no comparison with NaN holds. -/
def maxZero : PythonFloat → PythonFloat
  | .finite x => .finite (max 0 x)
  | .infinite false => .infinite false
  | .infinite true | .nan => .finite 0

/-- `fabs(y) <= fabs(x)`. -/
def reaches : PythonFloat → PythonFloat → Bool
  | .finite x, .finite y => |y| ≤ |x|
  | .infinite _, .finite _ | .infinite _, .infinite _ => true
  | _, _ => false

/-- One addition of `sum`. -/
def addCompensated (sum : PythonFloat × PythonFloat) (x : PythonFloat) :
    PythonFloat × PythonFloat :=
  let hi := sum.1.add x
  let lost := if sum.1.reaches x then (sum.1.sub hi).add x else (x.sub hi).add sum.1
  (hi, sum.2.add lost)

/-- `sum(values)`, which starts at the integer 0: what each addition loses is added at the end. -/
def sum : List PythonFloat → PythonFloat
  | [] => .finite 0
  | x :: rest =>
    -- a compensation that is not finite is left out, so that it makes no NaN of an infinity
    match rest.foldl addCompensated ((finite 0).add x, .finite 0) with
    | (hi, .finite lo) => if lo = 0 then hi else hi.add (.finite lo)
    | (hi, _) => hi

/-- Digits with single underscores between them, and what follows. -/
def leadingDigits (afterDigit : Bool) : Str → List ℕ × Str
  | [] => ([], [])
  | c :: rest =>
    if isDecimalDigit c then
      let digits := leadingDigits true rest
      (digitValue c :: digits.1, digits.2)
    else if c.val = 0x5F ∧ afterDigit = true ∧ rest.head?.any isDecimalDigit = true then
      leadingDigits false rest
    else ([], c :: rest)

def ofDecimals (digits : List ℕ) : ℕ := digits.foldl (fun n digit => 10*n+digit) 0

/-- A sign, and what follows. -/
def splitSign : Str → Bool × Str
  | [] => (false, [])
  | c :: rest =>
    if c.val = 0x2D then (true, rest) else if c.val = 0x2B then (false, rest) else (false, c :: rest)

/-- Nothing, or an exponent up to the end. -/
def readExponent : Str → Option ℤ
  | [] => some 0
  | c :: rest =>
    let (negative, rest) := splitSign rest
    let (digits, after) := leadingDigits false rest
    if (c.val = 0x65 ∨ c.val = 0x45) ∧ digits ≠ [] ∧ after = [] then
      some (if negative then -ofDecimals digits else ofDecimals digits)
    else none

/-- The fraction behind a point, and what follows. -/
def readFraction : Str → List ℕ × Str
  | [] => ([], [])
  | c :: rest => if c.val = 0x2E then leadingDigits false rest else ([], c :: rest)

/-- A number without its sign. -/
def readDecimal (s : Str) : Option ℚ :=
  let (whole, rest) := leadingDigits false s
  let (fraction, rest) := readFraction rest
  if whole = [] ∧ fraction = [] then none
  else (readExponent rest).map (fun exponent : ℤ =>
    (ofDecimals (whole++fraction) : ℚ)*10^(exponent-(fraction.length : ℤ)))

/-- `float(s)`: `none` where Python raises ValueError. -/
def parse (s : Str) : Option PythonFloat :=
  let t := (((s.map asciiForm).dropWhile isAsciiSpace).reverse.dropWhile isAsciiSpace).reverse
  let (negative, magnitude) := splitSign t
  let name := lowerAscii magnitude
  if name = ofString "inf" ∨ name = ofString "infinity" then some (.infinite negative)
  else if name = ofString "nan" then some .nan
  else (readDecimal magnitude).map (fun value => ofExact (if negative then -value else value))

section Finite

open Binary64

theorem ofExact_small {x : ℚ} {k : ℕ} (hk : k < 1024) (h : |x| ≤ 2^k) :
    ofExact x = .finite (nearest x) ∧ |nearest x| ≤ 2^k := by
  have hbound : |nearest x| ≤ 2^k := by
    rw [abs_le] at h ⊢
    exact ⟨le_nearest (isDouble_neg (isDouble_two_pow k)) h.1, nearest_le (isDouble_two_pow k) h.2⟩
  have hlimit : (2 : ℚ)^k < 2^1024 := pow_lt_pow_right₀ (by norm_num) hk
  exact ⟨if_pos (hbound.trans_lt hlimit), hbound⟩

theorem add_small {x y : ℚ} {k : ℕ} (hk : k+1 < 1024) (hx : |x| ≤ 2^k) (hy : |y| ≤ 2^k) :
    (finite x).add (.finite y) = .finite (nearest (x+y)) ∧ |nearest (x+y)| ≤ 2^(k+1) := by
  refine ofExact_small hk ((abs_add_le x y).trans ?_)
  rw [pow_succ]
  linarith

theorem sub_small {x y : ℚ} {k : ℕ} (hk : k+1 < 1024) (hx : |x| ≤ 2^k) (hy : |y| ≤ 2^k) :
    (finite x).sub (.finite y) = .finite (nearest (x-y)) ∧ |nearest (x-y)| ≤ 2^(k+1) := by
  have hadd := add_small hk hx ((abs_neg y).trans_le hy)
  rwa [← sub_eq_add_neg] at hadd

theorem two_pow_mono {x : ℚ} {k l : ℕ} (h : |x| ≤ 2^k) (hkl : k ≤ l) : |x| ≤ 2^l :=
  h.trans (pow_le_pow_right₀ (by norm_num) hkl)

/-- No addition of small numbers overflows. -/
theorem addCompensated_finite {sum : Partial} {x : ℚ} (hhi : |sum.hi| ≤ 2^60)
    (hlo : |sum.lo| ≤ 2^60) (hx : |x| ≤ 2^60) :
    addCompensated (.finite sum.hi, .finite sum.lo) (.finite x)
      = (.finite (sum.add x).hi, .finite (sum.add x).lo) := by
  obtain ⟨hsum, hsumBound⟩ := add_small (by norm_num) hhi hx
  -- in either order the loss is computed by two operations that double the bound at most
  have hlost (a b : ℚ) (ha : |a| ≤ 2^60) (hb : |b| ≤ 2^60) :
      ((finite a).sub (.finite (nearest (sum.hi+x)))).add (.finite b)
          = .finite (nearest (nearest (a-nearest (sum.hi+x))+b)) ∧
        |nearest (nearest (a-nearest (sum.hi+x))+b)| ≤ 2^63 := by
    obtain ⟨hsub, hsubBound⟩ := sub_small (by norm_num) (two_pow_mono ha (by norm_num)) hsumBound
    rw [hsub]
    exact add_small (by norm_num) hsubBound (two_pow_mono hb (by norm_num))
  have hreaches : (finite sum.hi).reaches (.finite x) = decide (|x| ≤ |sum.hi|) := rfl
  unfold addCompensated Partial.add
  dsimp only
  rw [hsum, hreaches]
  by_cases hle : |x| ≤ |sum.hi|
  · obtain ⟨hadd, hbound⟩ := hlost _ _ hhi hx
    rw [if_pos (decide_eq_true hle), if_pos hle, hadd,
      (add_small (by norm_num) (two_pow_mono hlo (by norm_num)) hbound).1]
  · obtain ⟨hadd, hbound⟩ := hlost _ _ hx hhi
    rw [if_neg (by simpa using hle), if_neg hle, hadd,
      (add_small (by norm_num) (two_pow_mono hlo (by norm_num)) hbound).1]

theorem within_small {sum : Partial} {k : ℕ} (within : sum.Within k) (hk : k ≤ 2^50) :
    |sum.hi| ≤ 2^60 ∧ |sum.lo| ≤ 2^60 := by
  have hcount : (k : ℚ) ≤ 2^50 := by exact_mod_cast hk
  have hlo := abs_le.mp within.lo_le
  rw [abs_of_nonneg within.hi_nonneg, abs_le]
  refine ⟨by linarith [within.hi_le], ?_, ?_⟩
  · linarith [hlo.1]
  · linarith [hlo.2]

theorem foldl_addCompensated {values : List ℚ} {sum : Partial} {k : ℕ} (within : sum.Within k)
    (hk : k+values.length ≤ 2^50) (hvalues : ∀ x ∈ values, IsDouble x ∧ 0 ≤ x ∧ x ≤ 1) :
    (values.map finite).foldl addCompensated (.finite sum.hi, .finite sum.lo)
      = (.finite (values.foldl Partial.add sum).hi, .finite (values.foldl Partial.add sum).lo) := by
  -- on the values: the range of the sum so far keeps each addition from overflowing
  induction values generalizing sum k with
  | nil => rfl
  | cons x values ih =>
    obtain ⟨⟨hx, hpos, hone⟩, hrest⟩ := List.forall_mem_cons.mp hvalues
    rw [List.length_cons] at hk
    obtain ⟨hhi, hlo⟩ := within_small within (by omega)
    have hsmall : |x| ≤ 2^60 := by
      rw [abs_of_nonneg hpos]
      linarith
    rw [List.map_cons, List.foldl_cons, addCompensated_finite hhi hlo hsmall, List.foldl_cons]
    exact ih (within.add (by omega) hx hpos hone) (by omega) hrest

/-- The sum of numbers from zero to one. -/
theorem sum_finite {values : List ℚ} (hlength : values.length ≤ 2^50)
    (hvalues : ∀ x ∈ values, IsDouble x ∧ 0 ≤ x ∧ x ≤ 1) :
    sum (values.map finite) = .finite (compensatedSum values) := by
  cases values with
  | nil => rfl
  | cons x values =>
    obtain ⟨⟨hx, hpos, hone⟩, hrest⟩ := List.forall_mem_cons.mp hvalues
    rw [List.length_cons] at hlength
    have hsmall : |x| ≤ 2^60 := by
      rw [abs_of_nonneg hpos]
      linarith
    have hfirst : (finite 0).add (.finite x) = .finite (nearest (0+x)) :=
      (add_small (by norm_num) (by rw [abs_zero]; norm_num) hsmall).1
    have within := within_one hx hpos hone
    obtain ⟨hhi, hlo⟩ := within_small (within.foldl (by omega) hrest) (by omega)
    rw [List.map_cons, sum, hfirst, foldl_addCompensated within (by omega) hrest, compensatedSum,
      Partial.total]
    dsimp only
    split_ifs
    · rfl
    · exact (add_small (by norm_num) hhi hlo).1

end Finite

end PythonFloat

/-- `float(s)`. -/
def readFloat (s : Str) : Except PythonError PythonFloat :=
  match PythonFloat.parse s with
  | some value => .ok value
  | none => .error (.valueError (ofString "could not convert string to float"))

end ConferWorker
