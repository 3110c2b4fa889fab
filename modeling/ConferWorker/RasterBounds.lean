import ConferWorker.RasterizationPolicy

/-! `bounded_scale` returns: the scale shrinks by a hundredth at least in every round, and a page of
one pixel is within every limit. -/
namespace ConferWorker

namespace RasterizationPolicy

/-- What is needed of a square root. -/
def IsRootBelowOne {K : Type*} [Field K] [LinearOrder K] (sqrt : K → K) : Prop :=
  ∀ x, 0 < x → x < 1 → x < sqrt x ∧ sqrt x < 1

variable {K : Type*} [Field K] [LinearOrder K] [FloorRing K] {policy : RasterizationPolicy}
  {sqrt : K → K} {width height scale : K}

theorem scaledLength_positive (length scale : K) : 0 < scaledLength length scale :=
  zero_lt_one.trans_le (le_max_left 1 _)

theorem scaledLength_small {length scale : K} (h : length*scale ≤ 1) :
    scaledLength length scale = 1 := by
  have hceil : ⌈length*scale⌉ ≤ 1 := Int.ceil_le.mpr (by rwa [Int.cast_one])
  exact max_eq_left hceil

theorem scaleRound_returned {result : K}
    (h : policy.scaleRound sqrt width height scale = .inl result) :
    result = scale ∧ scaledPixels width height scale ≤ policy.maxPixels := by
  rw [scaleRound] at h
  split_ifs at h with hfits
  exact ⟨(Sum.inl.inj h).symm, hfits⟩

theorem scaleRound_continued {next : K}
    (h : policy.scaleRound sqrt width height scale = .inr next) :
    next = policy.nextScale sqrt width height scale ∧
      policy.maxPixels < scaledPixels width height scale := by
  rw [scaleRound] at h
  split_ifs at h with hfits
  exact ⟨(Sum.inr.inj h).symm, not_le.mp hfits⟩

theorem scaledPixels_positive (width height scale : K) : 0 < scaledPixels width height scale :=
  mul_pos (scaledLength_positive width scale) (scaledLength_positive height scale)

/-- A scale that leaves one pixel is returned. -/
theorem scaleRound_small (hwidth : width*scale ≤ 1) (hheight : height*scale ≤ 1) :
    policy.scaleRound sqrt width height scale = .inl scale := by
  have hpixels : scaledPixels width height scale = 1 := by
    rw [scaledPixels, scaledLength_small hwidth, scaledLength_small hheight, mul_one]
  rw [scaleRound, hpixels, if_pos policy.max_pixels_positive]

/-- The loop ends at the scales whose page `validate` lets pass. -/
theorem scaleRound_permits (policy : RasterizationPolicy) (sqrt : K → K) (width height scale : K) :
    policy.scaleRound sqrt width height scale = .inl scale ↔
      policy.permits (scaledLength width scale) (scaledLength height scale) = true := by
  have hwidth := scaledLength_positive width scale
  have hheight := scaledLength_positive height scale
  rw [permits, decide_eq_true hwidth, decide_eq_true hheight, Bool.true_and, Bool.true_and,
    decide_eq_true_eq]
  constructor
  · intro h
    exact (scaleRound_returned h).2
  · intro hfits
    exact if_pos hfits

variable [IsStrictOrderedRing K]

theorem maxPixels_cast_positive (policy : RasterizationPolicy) : (0:K) < policy.maxPixels :=
  Int.cast_pos.mpr policy.max_pixels_positive

/-- Each of the three updates leaves a positive scale that is a hundredth smaller at least. -/
theorem nextScale_shrinks (hsqrt : IsRootBelowOne sqrt) (hwidth : 0 < width) (hheight : 0 < height)
    (hscale : 0 < scale) (hexceeds : policy.maxPixels < scaledPixels width height scale) :
    0 < policy.nextScale sqrt width height scale ∧
      policy.nextScale sqrt width height scale ≤ 99/100*scale := by
  have hlimit := maxPixels_cast_positive (K := K) policy
  have hclamped (other : K) (hother : 0 < other) :
      0 < min scale other*(99/100) ∧ min scale other*(99/100) ≤ 99/100*scale := by
    have hpositive : 0 < min scale other := lt_min hscale hother
    have hle : min scale other ≤ scale := min_le_left scale other
    constructor
    · positivity
    · linarith
  rw [nextScale]
  split_ifs with hthin hflat
  · exact hclamped _ (div_pos hlimit hheight)
  · exact hclamped _ (div_pos hlimit hwidth)
  · have hpixels : (0:K) < scaledPixels width height scale :=
      Int.cast_pos.mpr (scaledPixels_positive width height scale)
    have hratio : 0 < (policy.maxPixels:K)/scaledPixels width height scale :=
      div_pos hlimit hpixels
    have hbelow : (policy.maxPixels:K)/scaledPixels width height scale < 1 :=
      (div_lt_one hpixels).mpr (Int.cast_lt.mpr hexceeds)
    obtain ⟨habove, hone⟩ := hsqrt _ hratio hbelow
    have hroot := hratio.trans habove
    constructor
    · positivity
    · have hfactor : sqrt (policy.maxPixels/scaledPixels width height scale)*(99/100)
          ≤ 99/100 := by linarith
      calc
        _ ≤ scale*(99/100) := mul_le_mul_of_nonneg_left hfactor hscale.le
        _ = 99/100*scale := mul_comm _ _

/-- The loop returns from every positive scale. -/
theorem scaleLoop_returns (policy : RasterizationPolicy) (hsqrt : IsRootBelowOne sqrt)
    (hwidth : 0 < width) (hheight : 0 < height) (hscale : 0 < scale) :
    ∃ fuel result, whileTrue (policy.scaleRound sqrt width height) fuel scale = some result := by
  have hlargest : 0 < max width height := hwidth.trans_le (le_max_left width height)
  have hshrinks (scale next : K) (hscale : 0 < scale)
      (hnext : policy.scaleRound sqrt width height scale = .inr next) :
      0 < next ∧ next ≤ 99/100*scale := by
    obtain ⟨rfl, hexceeds⟩ := scaleRound_continued hnext
    exact nextScale_shrinks hsqrt hwidth hheight hscale hexceeds
  -- at this scale the longer side is one pixel
  have hsmall (scale : K) (hscale : 0 < scale) (hle : scale ≤ 1/max width height) :
      ∃ result, policy.scaleRound sqrt width height scale = .inl result := by
    have hone : max width height*scale ≤ 1 := by
      rw [mul_comm]
      exact (le_div_iff₀ hlargest).mp hle
    refine ⟨scale, scaleRound_small ?_ ?_⟩
    · exact (mul_le_mul_of_nonneg_right (le_max_left width height) hscale.le).trans hone
    · exact (mul_le_mul_of_nonneg_right (le_max_right width height) hscale.le).trans hone
  exact whileTrue_returns (I := fun scale => 0 < scale) (by norm_num) (by norm_num)
    (one_div_pos.mpr hlargest) (fun scale next hs hn => (hshrinks scale next hs hn).1)
    (fun scale next hs hn => (hshrinks scale next hs hn).2) hsmall hscale

/-- What it returns is not larger than the scale it started from and has few enough pixels. -/
theorem scaleLoop_result (hsqrt : IsRootBelowOne sqrt) (hwidth : 0 < width) (hheight : 0 < height)
    (hscale : 0 < scale) {fuel : ℕ} {result : K}
    (h : whileTrue (policy.scaleRound sqrt width height) fuel scale = some result) :
    0 < result ∧ result ≤ scale ∧ scaledPixels width height result ≤ policy.maxPixels := by
  apply whileTrue_invariant (I := fun current => 0 < current ∧ current ≤ scale)
    (Q := fun result => 0 < result ∧ result ≤ scale ∧
      scaledPixels width height result ≤ policy.maxPixels) ?_ ?_ ⟨hscale, le_rfl⟩ h
  · intro current next hcurrent hnext
    obtain ⟨rfl, hexceeds⟩ := scaleRound_continued hnext
    obtain ⟨hpositive, hle⟩ :=
      nextScale_shrinks hsqrt hwidth hheight hcurrent.1 hexceeds
    refine ⟨hpositive, hle.trans ?_⟩
    linarith [hcurrent.1, hcurrent.2]
  · intro current returned hcurrent hreturned
    obtain ⟨rfl, hfits⟩ := scaleRound_returned hreturned
    exact ⟨hcurrent.1, hcurrent.2, hfits⟩

/-- For every limit and every positive page and resolution, `bounded_scale` returns a positive scale
that is at most the resolution's and respects the limit. It is the resolution's own if and only if
that respects the limit. -/
theorem bounded_scale_returns (policy : RasterizationPolicy) (sqrt : K → K)
    (hsqrt : ∀ x, 0 < x → x < 1 → x < sqrt x ∧ sqrt x < 1) (width height : K) (dpi : ℤ)
    (hwidth : 0 < width) (hheight : 0 < height) (hdpi : 0 < dpi) :
    ∃ scale, (∃ rounds, ∀ fuel, rounds ≤ fuel →
        policy.boundedScale sqrt width height dpi fuel = some (.ok scale)) ∧
      0 < scale ∧ scale ≤ dpi/72 ∧
      max 1 ⌈width*scale⌉*max 1 ⌈height*scale⌉ ≤ policy.maxPixels ∧
      (scale = dpi/72 ↔
        max 1 ⌈width*(dpi/72:K)⌉*max 1 ⌈height*(dpi/72:K)⌉ ≤ policy.maxPixels) := by
  have hstart : (0:K) < dpi/72 := div_pos (Int.cast_pos.mpr hdpi) (by norm_num)
  have hvalid : ¬ (width ≤ 0 ∨ height ≤ 0 ∨ dpi ≤ 0) := by
    rintro (h | h | h)
    · exact absurd h (not_le.mpr hwidth)
    · exact absurd h (not_le.mpr hheight)
    · exact absurd h (not_le.mpr hdpi)
  obtain ⟨rounds, scale, hreturned⟩ :=
    scaleLoop_returns policy hsqrt hwidth hheight hstart
  obtain ⟨hpositive, hle, hfits⟩ := scaleLoop_result hsqrt hwidth hheight hstart hreturned
  refine ⟨scale, ⟨rounds, ?_⟩, hpositive, hle, hfits, ?_, ?_⟩
  · intro fuel hfuel
    rw [boundedScale, if_neg hvalid, whileTrue_mono hreturned hfuel]
    rfl
  · intro hscale
    rw [← hscale]
    exact hfits
  · intro hfirst
    -- the first round returns
    have hround : policy.scaleRound sqrt width height (dpi/72) = .inl (dpi/72) := if_pos hfirst
    have hagain := whileTrue_mono hreturned (Nat.le_succ rounds)
    rw [whileTrue_return hround] at hagain
    exact (Option.some.inj hagain).symm

/-- With the real square root, for a page ten thousand times as long as it is wide. -/
theorem bounded_scale_returns_strip :
    ∃ scale : ℝ, (∃ rounds, ∀ fuel, rounds ≤ fuel →
        boundedScale ⟨100, by decide⟩ Real.sqrt 1 10000 300 fuel = some (.ok scale)) ∧
      0 < scale ∧ scale ≤ (300:ℤ)/72 ∧ max 1 ⌈1*scale⌉*max 1 ⌈10000*scale⌉ ≤ (100:ℤ) ∧
      (scale = (300:ℤ)/72 ↔
        max 1 ⌈1*((300:ℤ)/72:ℝ)⌉*max 1 ⌈10000*((300:ℤ)/72:ℝ)⌉ ≤ (100:ℤ)) := by
  refine bounded_scale_returns ⟨100, by decide⟩ Real.sqrt ?_ 1 10000 300 one_pos (by norm_num)
    (by decide)
  intro x hx hone
  constructor
  · rw [Real.lt_sqrt hx.le]
    calc
      x^2 = x*x := sq x
      _ < 1*x := mul_lt_mul_of_pos_right hone hx
      _ = x := one_mul x
  · rw [Real.sqrt_lt' one_pos, one_pow]
    exact hone

end RasterizationPolicy

end ConferWorker
