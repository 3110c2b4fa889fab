import ConferWorker.Binary64

/-! Compensated summation in double precision: what is lost in each addition is added up beside
the sum. -/
namespace Binary64

/-- A multiple of a power of two. -/
def IsMultiple (e : ℤ) (x : ℚ) : Prop := ∃ k : ℤ, x = k*2^e

theorem IsMultiple.of_le {e e' : ℤ} {x : ℚ} (h : IsMultiple e' x) (hle : e ≤ e') :
    IsMultiple e x := by
  obtain ⟨k, rfl⟩ := h
  refine ⟨k*2^(e'-e).toNat, ?_⟩
  have hexponent : e' = ((e'-e).toNat : ℤ)+e := by omega
  conv_lhs => rw [hexponent, zpow_add₀ (by norm_num), zpow_natCast]
  push_cast
  ring

theorem IsMultiple.add {e : ℤ} {x y : ℚ} (hx : IsMultiple e x) (hy : IsMultiple e y) :
    IsMultiple e (x+y) := by
  obtain ⟨k, rfl⟩ := hx
  obtain ⟨l, rfl⟩ := hy
  exact ⟨k+l, by push_cast; ring⟩

theorem IsMultiple.sub {e : ℤ} {x y : ℚ} (hx : IsMultiple e x) (hy : IsMultiple e y) :
    IsMultiple e (x-y) := by
  obtain ⟨k, rfl⟩ := hx
  obtain ⟨l, rfl⟩ := hy
  exact ⟨k-l, by push_cast; ring⟩

/-- A small multiple of a place that doubles have is a double. -/
theorem IsMultiple.isDouble {e : ℤ} {x : ℚ} (h : IsMultiple e x) (he : -1074 ≤ e)
    (hx : |x| ≤ 2^53*2^e) : IsDouble x := by
  obtain ⟨k, rfl⟩ := h
  refine ⟨k, e, rfl, ?_, he⟩
  have hpos := two_zpow_pos e
  rw [abs_mul, abs_of_pos hpos, mul_le_mul_iff_left₀ hpos] at hx
  exact_mod_cast hx

/-- Rounding stays on the places of a number. -/
theorem IsMultiple.nearest {e : ℤ} {x : ℚ} (h : IsMultiple e x) : IsMultiple e (nearest x) := by
  rcases le_or_gt e (lastPlace x) with hle | hlt
  · exact IsMultiple.of_le ⟨_, rfl⟩ hle
  · -- the number has no digit below its last place
    obtain ⟨k, hk⟩ := IsMultiple.of_le h hlt.le
    have hsame : Binary64.nearest x = x := by
      have hpos := two_zpow_pos (lastPlace x)
      have hquotient : x/2^lastPlace x = k := by
        rw [div_eq_iff hpos.ne', ← hk]
      rw [Binary64.nearest, hquotient, roundEven_intCast, ← hk]
    rw [hsame]
    exact h

/-- The places of a double, and how large it is on them. -/
theorem IsDouble.multiple {x : ℚ} (h : IsDouble x) :
    ∃ e, -1074 ≤ e ∧ IsMultiple e x ∧ |x| ≤ 2^53*2^e := by
  obtain ⟨m, e, rfl, hm, he⟩ := h
  refine ⟨e, he, ⟨m, rfl⟩, ?_⟩
  have hpos := two_zpow_pos e
  have hcast : |(m : ℚ)| ≤ 2^53 := by exact_mod_cast hm
  rw [abs_mul, abs_of_pos hpos]
  exact mul_le_mul_of_nonneg_right hcast hpos.le

/-- A difference on the places of both numbers is a double when neither is smaller. -/
theorem isDouble_of_bounds {x y z : ℚ} (hx : IsDouble x) (hy : IsDouble y)
    (hz : ∀ e, IsMultiple e x → IsMultiple e y → IsMultiple e z) (hzx : |z| ≤ |x|)
    (hzy : |z| ≤ |y|) : IsDouble z := by
  obtain ⟨e, he, hmultiple, hsize⟩ := hx.multiple
  obtain ⟨e', he', hmultiple', hsize'⟩ := hy.multiple
  rcases le_total e e' with hle | hle
  · exact (hz e hmultiple (hmultiple'.of_le hle)).isDouble he (hzx.trans hsize)
  · exact (hz e' (hmultiple.of_le hle) hmultiple').isDouble he' (hzy.trans hsize')

/-- The difference of two doubles, neither more than twice the other, is a double. -/
theorem isDouble_sub {x y : ℚ} (hx : IsDouble x) (hy : IsDouble y) (hle : y ≤ x)
    (htwice : x ≤ 2*y) : IsDouble (x-y) := by
  refine isDouble_of_bounds hx hy (fun e hmultiple hmultiple' => hmultiple.sub hmultiple') ?_ ?_
  · rw [abs_of_nonneg (by linarith), abs_of_nonneg (by linarith)]
    linarith
  · rw [abs_of_nonneg (by linarith), abs_of_nonneg (by linarith)]
    linarith

/-- What is lost in a sum of two doubles is a double. -/
theorem isDouble_lost {x y : ℚ} (hx : IsDouble x) (hy : IsDouble y) :
    IsDouble (x+y-nearest (x+y)) := by
  -- the sum is rounded no further away than to either summand
  have hlost (a b : ℚ) (ha : IsDouble a) : |a+b-nearest (a+b)| ≤ |b| := by
    have hnear := abs_sub_nearest_le (a+b) ha
    rwa [add_sub_cancel_left] at hnear
  refine isDouble_of_bounds hx hy
    (fun e hmultiple hmultiple' => (hmultiple.add hmultiple').sub (hmultiple.add hmultiple').nearest)
    ?_ (hlost x y hx)
  have hswapped := hlost y x hy
  rwa [add_comm y x] at hswapped

/-- The sum so far, and the compensation. -/
structure Partial where
  hi : ℚ
  lo : ℚ

/-- One addition. -/
def Partial.add (sum : Partial) (x : ℚ) : Partial :=
  let hi := nearest (sum.hi+x)
  let lost := if |x| ≤ |sum.hi| then nearest (nearest (sum.hi-hi)+x)
    else nearest (nearest (x-hi)+sum.hi)
  ⟨hi, nearest (sum.lo+lost)⟩

/-- The sum with its compensation. -/
def Partial.total (sum : Partial) : ℚ := if sum.lo = 0 then sum.hi else nearest (sum.hi+sum.lo)

/-- A sum of doubles, the first of which is added to zero. -/
def compensatedSum : List ℚ → ℚ
  | [] => 0
  | x :: rest => (rest.foldl Partial.add ⟨nearest (0+x), 0⟩).total

theorem isDouble_twice {x : ℚ} (h : IsDouble x) : IsDouble (2*x) := by
  obtain ⟨m, e, rfl, hm, he⟩ := h
  exact ⟨m, e+1, by rw [zpow_add₀ (by norm_num), zpow_one]; ring, hm, by omega⟩

/-- What is lost is computed without an error, the larger number first. -/
theorem lost_exact {x y : ℚ} (hx : IsDouble x) (hy : IsDouble y) (hpos : 0 ≤ y) (hle : y ≤ x) :
    nearest (nearest (x-nearest (x+y))+y) = x+y-nearest (x+y) := by
  have hlow : x ≤ nearest (x+y) := le_nearest hx (by linarith)
  have hhigh : nearest (x+y) ≤ 2*x := nearest_le (isDouble_twice hx) (by linarith)
  -- the rounded sum is between the larger number and its double
  have hdifference : IsDouble (x-nearest (x+y)) := by
    have hsub := isDouble_neg (isDouble_sub (isDouble_nearest (x+y)) hx hlow hhigh)
    rwa [neg_sub] at hsub
  have hsame : x-nearest (x+y)+y = x+y-nearest (x+y) := by ring
  rw [nearest_of_isDouble hdifference, hsame, nearest_of_isDouble (isDouble_lost hx hy)]

/-- An addition to a sum of numbers that are not negative. -/
theorem Partial.add_eq {sum : Partial} {x : ℚ} (hsum : IsDouble sum.hi) (hx : IsDouble x)
    (hsumPos : 0 ≤ sum.hi) (hxPos : 0 ≤ x) :
    sum.add x = ⟨nearest (sum.hi+x), nearest (sum.lo+(sum.hi+x-nearest (sum.hi+x)))⟩ := by
  unfold Partial.add
  dsimp only
  rw [abs_of_nonneg hsumPos, abs_of_nonneg hxPos]
  split_ifs with hle
  · rw [lost_exact hsum hx hxPos hle]
  · have hlost := lost_exact hx hsum hsumPos (le_of_not_ge hle)
    rw [add_comm x sum.hi] at hlost
    rw [hlost]

/-- Below `2^50` no more than a sixteenth is lost. -/
theorem lost_le {x : ℚ} (hpos : 0 ≤ x) (h : x ≤ 2^50) : |x-nearest x| ≤ 1/16 := by
  -- a double with three binary places is that near
  have heighth : IsDouble (roundEven (8*x)/8) := by
    refine ⟨roundEven (8*x), -3, by norm_num; ring, ?_, by norm_num⟩
    have hlow := roundEven_mono (by push_cast; linarith : ((0 : ℤ) : ℚ) ≤ 8*x)
    have hhigh := roundEven_mono (by push_cast; linarith : 8*x ≤ ((2^53 : ℤ) : ℚ))
    rw [roundEven_intCast] at hlow hhigh
    exact abs_le.mpr ⟨by linarith, hhigh⟩
  refine (abs_sub_nearest_le x heighth).trans ?_
  rw [abs_le]
  rcases roundEven_cases (8*x) with ⟨hround, hpart⟩ | ⟨hround, hpart⟩
  · have hfloor := Int.floor_le (8*x)
    rw [hround]
    constructor
    · linarith
    · linarith
  · have hnext := Int.lt_floor_add_one (8*x)
    rw [hround]
    push_cast
    constructor
    · linarith
    · linarith

/-- The sum of this many numbers from zero to one. -/
structure Partial.Within (sum : Partial) (k : ℕ) : Prop where
  double : IsDouble sum.hi
  hi_nonneg : 0 ≤ sum.hi
  hi_le : sum.hi ≤ k
  total_nonneg : 0 ≤ sum.hi+sum.lo
  total_le : sum.hi+sum.lo ≤ k
  lo_le : |sum.lo| ≤ k/8

/-- The compensation is rounded towards nothing outside: from below by the sum itself, which is a
double, and from above by what is missing to the number of terms, a double where it is small. -/
theorem Partial.Within.add {sum : Partial} {k : ℕ} {x : ℚ} (within : sum.Within k)
    (hk : k+1 ≤ 2^50) (hx : IsDouble x) (hxPos : 0 ≤ x) (hxOne : x ≤ 1) :
    (sum.add x).Within (k+1) := by
  obtain ⟨hdouble, hhiPos, hhiLe, htotalPos, htotalLe, hloLe⟩ := within
  have hkCast : (k : ℚ)+1 ≤ 2^50 := by exact_mod_cast hk
  have hterms : IsDouble ((k+1 : ℕ) : ℚ) := isDouble_natCast (by omega)
  have heighth : IsDouble (((k+1 : ℕ) : ℚ)/8) := by
    refine ⟨(k+1 : ℕ), -3, by norm_num; ring, ?_, by norm_num⟩
    rw [abs_of_nonneg (by omega)]
    exact_mod_cast (by omega : k+1 ≤ 2^53)
  have hlost := abs_le.mp (lost_le (by linarith) (by linarith : sum.hi+x ≤ 2^50))
  have hhi := isDouble_nearest (sum.hi+x)
  have hhiNonneg : 0 ≤ nearest (sum.hi+x) := nearest_nonneg (by linarith)
  have hhiTerms : nearest (sum.hi+x) ≤ (k+1 : ℕ) :=
    nearest_le hterms (by push_cast; linarith)
  rw [abs_le] at hloLe
  rw [Partial.add_eq hdouble hx hhiPos hxPos]
  generalize nearest (sum.hi+x) = hi at *
  push_cast at *
  have hlow : -((k+1 : ℚ)/8) ≤ nearest (sum.lo+(sum.hi+x-hi)) :=
    le_nearest (isDouble_neg heighth) (by linarith [hloLe.1, hlost.1])
  have hhigh : nearest (sum.lo+(sum.hi+x-hi)) ≤ (k+1 : ℚ)/8 :=
    nearest_le heighth (by linarith [hloLe.2, hlost.2])
  refine ⟨hhi, hhiNonneg, by push_cast; exact hhiTerms, ?_, ?_,
    abs_le.mpr ⟨by push_cast; exact hlow, by push_cast; exact hhigh⟩⟩
  · have hlower : -hi ≤ nearest (sum.lo+(sum.hi+x-hi)) :=
      le_nearest (isDouble_neg hhi) (by linarith)
    linarith
  · push_cast
    -- a sum of less than half the terms has room for the whole compensation
    rcases le_or_gt ((k+1 : ℚ)) (2*hi) with hlarge | hsmall
    · have hmissing : nearest (sum.lo+(sum.hi+x-hi)) ≤ (k+1 : ℚ)-hi :=
        nearest_le (isDouble_sub hterms hhi hhiTerms hlarge) (by linarith)
      linarith
    · linarith

theorem Partial.Within.foldl {values : List ℚ} {sum : Partial} {k : ℕ} (within : sum.Within k)
    (hk : k+values.length ≤ 2^50)
    (hvalues : ∀ x ∈ values, IsDouble x ∧ 0 ≤ x ∧ x ≤ 1) :
    (values.foldl Partial.add sum).Within (k+values.length) := by
  induction values generalizing sum k with
  | nil => exact within
  | cons x values ih =>
    obtain ⟨⟨hx, hpos, hone⟩, hrest⟩ := List.forall_mem_cons.mp hvalues
    rw [List.length_cons] at hk ⊢
    have hnext := ih (within.add (by omega) hx hpos hone) (by omega) hrest
    rw [List.foldl_cons]
    convert hnext using 1
    omega

theorem Partial.Within.total {sum : Partial} {k : ℕ} (within : sum.Within k) (hk : k ≤ 2^53) :
    0 ≤ sum.total ∧ sum.total ≤ k := by
  unfold Partial.total
  split_ifs
  · exact ⟨within.hi_nonneg, within.hi_le⟩
  · exact ⟨nearest_nonneg within.total_nonneg, nearest_le (isDouble_natCast hk) within.total_le⟩

/-- The first number is added to zero. -/
theorem within_one {x : ℚ} (hx : IsDouble x) (hpos : 0 ≤ x) (hone : x ≤ 1) :
    (⟨nearest (0+x), 0⟩ : Partial).Within 1 := by
  rw [zero_add, nearest_of_isDouble hx]
  exact ⟨hx, hpos, by exact_mod_cast hone, by linarith, by push_cast; linarith,
    by rw [abs_zero]; norm_num⟩

/-- A sum of numbers from zero to one does not leave its range by rounding. -/
theorem compensatedSum_range {values : List ℚ} (hlength : values.length ≤ 2^50)
    (hvalues : ∀ x ∈ values, IsDouble x ∧ 0 ≤ x ∧ x ≤ 1) :
    0 ≤ compensatedSum values ∧ compensatedSum values ≤ values.length := by
  cases values with
  | nil => exact ⟨le_rfl, le_rfl⟩
  | cons x values =>
    obtain ⟨⟨hx, hpos, hone⟩, hrest⟩ := List.forall_mem_cons.mp hvalues
    rw [List.length_cons] at hlength
    have hlast := (within_one hx hpos hone).foldl (by omega) hrest
    rw [Nat.add_comm] at hlast
    exact hlast.total (by omega)

/-- The mean of such numbers is one of them. -/
theorem mean_range {values : List ℚ} (hlength : values.length ≤ 2^50)
    (hvalues : ∀ x ∈ values, IsDouble x ∧ 0 ≤ x ∧ x ≤ 1) :
    0 ≤ nearest (compensatedSum values/values.length)
      ∧ nearest (compensatedSum values/values.length) ≤ 1 := by
  obtain ⟨hpos, hle⟩ := compensatedSum_range hlength hvalues
  exact ⟨nearest_nonneg (div_nonneg hpos (Nat.cast_nonneg _)),
    nearest_le isDouble_one (div_le_one_of_le₀ hle (Nat.cast_nonneg _))⟩

end Binary64
