import ConferWorker.PythonErrors
import ConferWorker.WhileLoops

/-! `RasterizationPolicy`: the scale at which a page has at most a number of pixels. The arithmetic
is exact, in any ordered field with ceilings, and the square root a parameter. -/
namespace ConferWorker

structure RasterizationPolicy where
  maxPixels : ℤ
  max_pixels_positive : 1 ≤ maxPixels

namespace RasterizationPolicy

/-- `RasterizationPolicy(max_pixels)`. -/
def create (maxPixels : ℤ) : Except PythonError RasterizationPolicy :=
  if h : 1 ≤ maxPixels then .ok ⟨maxPixels, h⟩
  else .error (.valueError (ofString "rasterization pixel limit must be positive"))

/-- `DEFAULT_MAX_PIXELS`. -/
def default : RasterizationPolicy := ⟨8000000, by decide⟩

/-- `permits`. -/
def permits (policy : RasterizationPolicy) (width height : ℤ) : Bool :=
  0 < width && 0 < height && width*height ≤ policy.maxPixels

/-- `validate`. -/
def validate (policy : RasterizationPolicy) (width height : ℤ) : Except PythonError Unit :=
  raiseIf (policy.permits width height = false)
    (.valueError (ofString "rasterized image exceeds pixel limit"))

section BoundedScale

variable {K : Type*} [Field K] [LinearOrder K] [FloorRing K]

/-- `max(1, math.ceil(length*scale))`. -/
def scaledLength (length scale : K) : ℤ := max 1 ⌈length*scale⌉

/-- `scaled_width*scaled_height`. -/
def scaledPixels (width height scale : K) : ℤ := scaledLength width scale*scaledLength height scale

/-- The scale that is tried after one with too many pixels. -/
def nextScale (policy : RasterizationPolicy) (sqrt : K → K) (width height scale : K) : K :=
  if scaledLength width scale = 1 then min scale (policy.maxPixels/height)*(99/100)
  else if scaledLength height scale = 1 then min scale (policy.maxPixels/width)*(99/100)
  else scale*(sqrt (policy.maxPixels/scaledPixels width height scale)*(99/100))

/-- One round of the loop of `bounded_scale`. -/
def scaleRound (policy : RasterizationPolicy) (sqrt : K → K) (width height scale : K) : K ⊕ K :=
  if scaledPixels width height scale ≤ policy.maxPixels then .inl scale
  else .inr (policy.nextScale sqrt width height scale)

/-- `bounded_scale` within a number of rounds. Every element of the field is finite. -/
def boundedScale (policy : RasterizationPolicy) (sqrt : K → K) (width height : K) (dpi : ℤ)
    (fuel : ℕ) : Option (Except PythonError K) :=
  if width ≤ 0 ∨ height ≤ 0 ∨ dpi ≤ 0 then
    some (.error (.valueError
      (ofString "rasterization dimensions must be positive and finite")))
  else (whileTrue (policy.scaleRound sqrt width height) fuel (dpi/72)).map .ok

end BoundedScale

end RasterizationPolicy

end ConferWorker
