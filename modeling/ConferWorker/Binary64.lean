import Mathlib.Algebra.Order.Field.Rat
import Mathlib.Data.Int.Log
import Mathlib.Data.Rat.Floor
import Mathlib.Tactic.Linarith
import Mathlib.Tactic.Ring

/-! Rounding to double precision: the values of the finite doubles as rational numbers, without a
bound on the exponent, so that overflow is a question of size behind the rounding. The two zeros
are one number here. -/
namespace Binary64

/-- The integer next to a number; of two that are as near the even one. -/
def roundEven (x : ℚ) : ℤ :=
  let part := x-⌊x⌋
  if 1/2 < part ∨ (part = 1/2 ∧ ⌊x⌋%2 = 1) then ⌊x⌋+1 else ⌊x⌋

theorem roundEven_cases (x : ℚ) :
    (roundEven x = ⌊x⌋ ∧ x-⌊x⌋ ≤ 1/2) ∨ (roundEven x = ⌊x⌋+1 ∧ 1/2 ≤ x-⌊x⌋) := by
  unfold roundEven
  dsimp only
  split_ifs with h
  · refine Or.inr ⟨rfl, ?_⟩
    rcases h with h | h
    · exact h.le
    · exact h.1.ge
  · rw [not_or] at h
    exact Or.inl ⟨rfl, not_lt.mp h.1⟩

/-- No integer is nearer. -/
theorem abs_sub_roundEven_le (x : ℚ) (k : ℤ) : |x-roundEven x| ≤ |x-k| := by
  have hfloor := Int.floor_le x
  have hnext := Int.lt_floor_add_one x
  have hside : (k : ℚ) ≤ ⌊x⌋ ∨ (⌊x⌋ : ℚ)+1 ≤ k := by
    rcases le_or_gt k ⌊x⌋ with h | h
    · exact Or.inl (by exact_mod_cast h)
    · exact Or.inr (by exact_mod_cast h)
  rcases roundEven_cases x with ⟨hround, hpart⟩ | ⟨hround, hpart⟩
  · rw [hround, abs_of_nonneg (by linarith)]
    rcases hside with hk | hk
    · rw [abs_of_nonneg (by linarith)]
      linarith
    · rw [abs_of_nonpos (by linarith)]
      linarith
  · have hcast : ((⌊x⌋+1 : ℤ) : ℚ) = ⌊x⌋+1 := by push_cast; ring
    rw [hround, hcast, abs_of_nonpos (by linarith)]
    rcases hside with hk | hk
    · rw [abs_of_nonneg (by linarith)]
      linarith
    · rw [abs_of_nonpos (by linarith)]
      linarith

/-- Nearest points are in the order of the numbers. -/
theorem le_of_nearest {x y a b : ℚ} (hxy : x < y) (ha : |x-a| ≤ |x-b|) (hb : |y-b| ≤ |y-a|) :
    a ≤ b := by
  by_contra hlt
  rw [not_le] at hlt
  have hx : (a+b)/2 ≤ x := by
    by_contra hleft
    rw [not_le] at hleft
    rw [abs_of_nonpos (by linarith : x-a ≤ 0)] at ha
    rcases abs_cases (x-b) with ⟨h, _⟩ | ⟨h, _⟩
    · linarith
    · linarith
  have hy : y ≤ (a+b)/2 := by
    by_contra hright
    rw [not_le] at hright
    rw [abs_of_nonneg (by linarith : 0 ≤ y-b)] at hb
    rcases abs_cases (y-a) with ⟨h, _⟩ | ⟨h, _⟩
    · linarith
    · linarith
  linarith

theorem roundEven_mono {x y : ℚ} (h : x ≤ y) : roundEven x ≤ roundEven y := by
  rcases h.eq_or_lt with rfl | hlt
  · exact le_rfl
  · have hround := le_of_nearest hlt (abs_sub_roundEven_le x (roundEven y))
      (abs_sub_roundEven_le y (roundEven x))
    exact_mod_cast hround

@[simp] theorem roundEven_intCast (n : ℤ) : roundEven (n : ℚ) = n := by
  have hnear := abs_sub_roundEven_le (n : ℚ) n
  rw [sub_self, abs_zero, abs_le] at hnear
  have hsame : (roundEven (n : ℚ) : ℚ) = n := by linarith [hnear.1, hnear.2]
  exact_mod_cast hsame

/-- The exponent of the last place of a number. -/
def lastPlace (x : ℚ) : ℤ := max (Int.log 2 |x|-52) (-1074)

/-- The double next to a number. -/
def nearest (x : ℚ) : ℚ := roundEven (x/2^lastPlace x)*2^lastPlace x

/-- The value of a finite double. -/
def IsDouble (x : ℚ) : Prop := ∃ m e : ℤ, x = m*2^e ∧ |m| ≤ 2^53 ∧ -1074 ≤ e

theorem two_zpow_pos (e : ℤ) : (0 : ℚ) < 2^e := zpow_pos (by norm_num) e

/-- A number has fewer than 53 places above the last one. -/
theorem abs_div_lastPlace_lt (x : ℚ) : |x/2^lastPlace x| < 2^53 := by
  have hlast := two_zpow_pos (lastPlace x)
  rcases eq_or_ne x 0 with rfl | hx
  · rw [zero_div, abs_zero]
    norm_num
  · have hlog : |x| < 2^(Int.log 2 |x|+1) := by
      exact_mod_cast Int.lt_zpow_succ_log_self (by norm_num : 1 < 2) |x|
    have hplace : (2 : ℚ)^(Int.log 2 |x|+1) ≤ 2^(53+lastPlace x) := by
      apply zpow_le_zpow_right₀ (by norm_num)
      have hmax := le_max_left (Int.log 2 |x|-52) (-1074)
      unfold lastPlace
      omega
    rw [abs_div, abs_of_pos hlast, div_lt_iff₀ hlast]
    calc |x| < 2^(Int.log 2 |x|+1) := hlog
      _ ≤ 2^(53+lastPlace x) := hplace
      _ = 2^53*2^lastPlace x := by rw [zpow_add₀ (by norm_num)]; norm_num

theorem isDouble_nearest (x : ℚ) : IsDouble (nearest x) := by
  refine ⟨roundEven (x/2^lastPlace x), lastPlace x, rfl, ?_, le_max_right _ _⟩
  have hlt := abs_lt.mp (abs_div_lastPlace_lt x)
  have hlow := roundEven_mono (x := ((-2^53 : ℤ) : ℚ)) (y := x/2^lastPlace x)
    (by push_cast; linarith [hlt.1])
  have hhigh := roundEven_mono (x := x/2^lastPlace x) (y := ((2^53 : ℤ) : ℚ))
    (by push_cast; linarith [hlt.2])
  rw [roundEven_intCast] at hlow hhigh
  exact abs_le.mpr ⟨hlow, hhigh⟩

/-- No multiple of the last place is nearer. -/
theorem abs_sub_nearest_le_mul (x : ℚ) (k : ℤ) : |x-nearest x| ≤ |x-k*2^lastPlace x| := by
  have hlast := two_zpow_pos (lastPlace x)
  have hscale (n : ℤ) : |x-n*2^lastPlace x| = |x/2^lastPlace x-n| * 2^lastPlace x := by
    rw [← abs_of_pos hlast, ← abs_mul, abs_of_pos hlast, sub_mul, div_mul_cancel₀ x hlast.ne']
  rw [nearest, hscale, hscale]
  exact mul_le_mul_of_nonneg_right (abs_sub_roundEven_le _ k) hlast.le

/-- No double is nearer. -/
theorem abs_sub_nearest_le (x : ℚ) {y : ℚ} (hy : IsDouble y) : |x-nearest x| ≤ |x-y| := by
  obtain ⟨m, e, rfl, hm, he⟩ := hy
  rcases le_or_gt (lastPlace x) e with hplace | hplace
  · -- the double is a multiple of the last place
    have hmultiple : (m : ℚ)*2^e = ((m*2^(e-lastPlace x).toNat : ℤ) : ℚ)*2^lastPlace x := by
      have hexponent : e = ((e-lastPlace x).toNat : ℤ)+lastPlace x := by omega
      conv_lhs => rw [hexponent, zpow_add₀ (by norm_num), zpow_natCast]
      push_cast
      ring
    rw [hmultiple]
    exact abs_sub_nearest_le_mul x _
  · -- it is smaller than the power of two below the number
    have hlast : lastPlace x = Int.log 2 |x|-52 := by
      unfold lastPlace at hplace ⊢
      omega
    rcases eq_or_ne x 0 with rfl | hx
    · have hzero : nearest 0 = 0 := by
        rw [nearest, zero_div]
        exact mul_eq_zero_of_left (by exact_mod_cast roundEven_intCast 0) _
      rw [hzero, sub_zero, abs_zero]
      exact abs_nonneg _
    have hlow : (2 : ℚ)^52*2^lastPlace x ≤ |x| := by
      have hlog := Int.zpow_log_le_self (by norm_num : 1 < 2) (abs_pos.mpr hx)
      calc (2 : ℚ)^52*2^lastPlace x = 2^(52+lastPlace x) := by
            rw [zpow_add₀ (by norm_num)]; norm_num
        _ = 2^Int.log 2 |x| := by rw [hlast]; congr 1; omega
        _ ≤ |x| := by exact_mod_cast hlog
    have hhigh : |(m : ℚ)*2^e| ≤ 2^52*2^lastPlace x := by
      have hcast : |(m : ℚ)| ≤ 2^53 := by exact_mod_cast hm
      have hpower : (2 : ℚ)^e ≤ 2^(lastPlace x-1) :=
        zpow_le_zpow_right₀ (by norm_num) (by omega)
      have hhalf : (2 : ℚ)^(lastPlace x-1) = 2^lastPlace x/2 := by
        rw [zpow_sub₀ (by norm_num), zpow_one]
      rw [abs_mul, abs_of_pos (two_zpow_pos e)]
      calc |(m : ℚ)| * 2^e ≤ 2^53*2^(lastPlace x-1) :=
            mul_le_mul hcast hpower (two_zpow_pos e).le (by norm_num)
        _ = 2^52*2^lastPlace x := by rw [hhalf]; ring
    rw [abs_le] at hhigh
    rcases abs_cases x with ⟨habs, _⟩ | ⟨habs, _⟩
    · refine (abs_sub_nearest_le_mul x (2^52)).trans ?_
      push_cast
      rw [abs_of_nonneg (by linarith), abs_of_nonneg (by linarith [hhigh.2])]
      linarith [hhigh.2]
    · refine (abs_sub_nearest_le_mul x (-2^52)).trans ?_
      push_cast
      rw [abs_of_nonpos (by linarith), abs_of_nonpos (by linarith [hhigh.1])]
      linarith [hhigh.1]

theorem nearest_of_isDouble {x : ℚ} (h : IsDouble x) : nearest x = x := by
  have hnear := abs_sub_nearest_le x h
  rw [sub_self, abs_zero, abs_le] at hnear
  linarith [hnear.1, hnear.2]

theorem nearest_mono {x y : ℚ} (h : x ≤ y) : nearest x ≤ nearest y := by
  rcases h.eq_or_lt with rfl | hlt
  · exact le_rfl
  · exact le_of_nearest hlt (abs_sub_nearest_le x (isDouble_nearest y))
      (abs_sub_nearest_le y (isDouble_nearest x))

theorem nearest_le {x y : ℚ} (hy : IsDouble y) (h : x ≤ y) : nearest x ≤ y :=
  (nearest_mono h).trans_eq (nearest_of_isDouble hy)

theorem le_nearest {x y : ℚ} (hy : IsDouble y) (h : y ≤ x) : y ≤ nearest x :=
  (nearest_of_isDouble hy).symm.trans_le (nearest_mono h)

theorem isDouble_intCast {n : ℤ} (h : |n| ≤ 2^53) : IsDouble n :=
  ⟨n, 0, by rw [zpow_zero, mul_one], h, by norm_num⟩

theorem isDouble_natCast {n : ℕ} (h : n ≤ 2^53) : IsDouble n := by
  have hcast : |(n : ℤ)| ≤ 2^53 := by
    rw [abs_of_nonneg (Int.natCast_nonneg n)]
    exact_mod_cast h
  exact_mod_cast isDouble_intCast hcast

theorem isDouble_zero : IsDouble 0 := by exact_mod_cast isDouble_natCast (Nat.zero_le (2^53))

theorem isDouble_one : IsDouble 1 := by
  exact_mod_cast isDouble_natCast (by norm_num : 1 ≤ 2^53)

theorem isDouble_two_pow (k : ℕ) : IsDouble (2^k) :=
  ⟨1, k, by rw [zpow_natCast, Int.cast_one, one_mul], by norm_num, by omega⟩

theorem nearest_nonneg {x : ℚ} (h : 0 ≤ x) : 0 ≤ nearest x := le_nearest isDouble_zero h

theorem isDouble_neg {x : ℚ} (h : IsDouble x) : IsDouble (-x) := by
  obtain ⟨m, e, rfl, hm, he⟩ := h
  exact ⟨-m, e, by push_cast; ring, by rwa [abs_neg], he⟩

/-- Behind a bound comes a double that is less than twice as far away as the next quotient. -/
theorem isDouble_behind {b n : ℕ} (hn : 0 < n) (hb : 0 < b) (h : n*b < 2^53) :
    ∃ gap : ℚ, 0 < gap ∧ gap < 2*(1/b) ∧ IsDouble (n+gap) := by
  have hpos : (0 : ℚ) < b := by exact_mod_cast hb
  have hlow : 2^Nat.log 2 n ≤ n := Nat.pow_log_le_self 2 hn.ne'
  have hhigh : n < 2^(Nat.log 2 n+1) := Nat.lt_pow_succ_log_self one_lt_two n
  have hproduct : 2^Nat.log 2 n*b < 2^53 := (Nat.mul_le_mul_right b hlow).trans_lt h
  have hlog : Nat.log 2 n < 53 :=
    (Nat.pow_lt_pow_iff_right one_lt_two).mp ((Nat.le_mul_of_pos_right _ hb).trans_lt hproduct)
  obtain ⟨k, hk⟩ : ∃ k, 53 = Nat.log 2 n+(k+1) := ⟨52-Nat.log 2 n, by omega⟩
  have hplace : (0 : ℚ) < 2^k := pow_pos (by norm_num) k
  have hwidth : b < 2*2^k := by
    rw [hk, pow_add, pow_succ] at hproduct
    have hcancel := Nat.lt_of_mul_lt_mul_left hproduct
    omega
  refine ⟨1/2^k, one_div_pos.mpr hplace, ?_, n*2^k+1, -k, ?_, ?_, by omega⟩
  · have hcast : (b : ℚ) < 2*2^k := by exact_mod_cast hwidth
    rw [mul_one_div, div_lt_div_iff₀ hplace hpos]
    linarith
  · rw [zpow_neg, zpow_natCast]
    push_cast
    field_simp
  · have hfits : n*2^k+1 ≤ 2^53 := by
      rw [hk, ← Nat.add_assoc, Nat.add_right_comm, pow_add]
      exact Nat.mul_lt_mul_of_pos_right hhigh (Nat.two_pow_pos k)
    rw [abs_of_nonneg (by positivity)]
    exact_mod_cast hfits

/-- A quotient of integers keeps its side of an integer bound when it is rounded. -/
theorem nearest_quotient_le_iff {a b n : ℕ} (ha : a ≤ 2^53) (hb : 0 < b) (hn : 0 < n) :
    nearest ((a : ℚ)/b) ≤ n ↔ a ≤ n*b := by
  have hpos : (0 : ℚ) < b := by exact_mod_cast hb
  have hone : (1 : ℚ) ≤ b := by exact_mod_cast hb
  constructor
  · intro hle
    by_contra hgt
    rw [not_le] at hgt
    obtain ⟨gap, hgapPos, hgap, hdouble⟩ := isDouble_behind hn hb (hgt.trans_le ha)
    have habove : (n : ℚ)+1/b ≤ a/b := by
      have hcast : (n : ℚ)*b+1 ≤ a := by exact_mod_cast hgt
      rw [le_div_iff₀ hpos, add_mul, one_div_mul_cancel hpos.ne']
      exact hcast
    have hinverse : (0 : ℚ) < 1/b := one_div_pos.mpr hpos
    rcases le_or_gt ((n : ℚ)+gap) (a/b) with hreached | hshort
    · have hnext := (le_nearest hdouble hreached).trans hle
      linarith
    · have hnear := abs_sub_nearest_le ((a : ℚ)/b) hdouble
      rw [abs_of_nonneg (by linarith), abs_of_neg (by linarith)] at hnear
      linarith
  · intro hle
    rcases le_or_gt n (2^53) with hsmall | hlarge
    · refine nearest_le (isDouble_natCast hsmall) ((div_le_iff₀ hpos).mpr ?_)
      exact_mod_cast hle
    · have hquotient : (a : ℚ)/b ≤ 2^53 := by
        have hcast : (a : ℚ) ≤ 2^53 := by exact_mod_cast ha
        exact (div_le_self (Nat.cast_nonneg a) hone).trans hcast
      have hcast : (2 : ℚ)^53 ≤ n := by exact_mod_cast hlarge.le
      exact (nearest_le (isDouble_two_pow 53) hquotient).trans hcast

end Binary64
