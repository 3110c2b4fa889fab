import Mathlib.Data.List.Sort
import Mathlib.Tactic

/-! Byte strings as lists, with the slices, overwrites and fixed-width
integers that binary formats are made of. Nothing here names a format. -/
namespace ConferWorker

abbrev Bytes := List UInt8

/-- `image[start:stop]`: past the end it shortens silently. -/
def slice (image : Bytes) (start stop : ℕ) : Bytes :=
  (image.take stop).drop start

/-- `image[start:start+len(field)] = field`. -/
def overwrite (image : Bytes) (start : ℕ) (field : Bytes) : Bytes :=
  image.take start ++ field ++ image.drop (start+field.length)

/-- `del image[start:stop]`. -/
def deleteRange (image : Bytes) (start stop : ℕ) : Bytes :=
  image.take start ++ image.drop stop

def fromLittle : Bytes → ℕ
  | [] => 0
  | b :: bs => b.toNat+256*fromLittle bs

def toLittle : ℕ → ℕ → Bytes
  | 0, _ => []
  | width+1, n => UInt8.ofNat (n%256) :: toLittle width (n/256)

def fromBig (bytes : Bytes) : ℕ := fromLittle bytes.reverse

def toBig (width n : ℕ) : Bytes := (toLittle width n).reverse

@[simp] theorem toLittle_length (width n : ℕ) : (toLittle width n).length = width := by
  induction width generalizing n with
  | zero => rfl
  | succ width ih => simp only [toLittle, List.length_cons, ih]

theorem fromLittle_toLittle (width n : ℕ) (h : n < 256^width) :
    fromLittle (toLittle width n) = n := by
  induction width generalizing n with
  | zero =>
    have hn : n = 0 := by simpa using h
    simp [toLittle, fromLittle, hn]
  | succ width ih =>
    have hq : n/256 < 256^width := by
      apply Nat.div_lt_of_lt_mul
      simpa only [pow_succ, mul_comm] using h
    have hb : (UInt8.ofNat (n%256)).toNat = n%256 :=
      UInt8.toNat_ofNat_of_lt (Nat.mod_lt n (by decide))
    simp only [toLittle, fromLittle, ih _ hq, hb]
    omega

theorem fromLittle_replicate_zero (n : ℕ) : fromLittle (List.replicate n 0) = 0 := by
  induction n with
  | zero => rfl
  | succ n ih => simp [List.replicate_succ, fromLittle, ih]

@[simp] theorem toBig_length (width n : ℕ) : (toBig width n).length = width := by
  simp only [toBig, List.length_reverse, toLittle_length]

theorem fromBig_toBig (width n : ℕ) (h : n < 256^width) : fromBig (toBig width n) = n := by
  simp only [fromBig, toBig, List.reverse_reverse, fromLittle_toLittle width n h]

theorem toLittle_fromLittle (bytes : Bytes) : toLittle bytes.length (fromLittle bytes) = bytes := by
  induction bytes with
  | nil => rfl
  | cons b bs ih =>
    have hb := b.toNat_lt
    have hlow : (b.toNat+256*fromLittle bs)%256 = b.toNat := by omega
    have hrest : (b.toNat+256*fromLittle bs)/256 = fromLittle bs := by omega
    rw [List.length_cons, toLittle, fromLittle, hlow, hrest, ih, UInt8.ofNat_toNat]

theorem toBig_fromBig (bytes : Bytes) : toBig bytes.length (fromBig bytes) = bytes := by
  rw [toBig, fromBig, ← List.length_reverse, toLittle_fromLittle, List.reverse_reverse]

@[simp] theorem slice_length (image : Bytes) (start stop : ℕ) :
    (slice image start stop).length = min stop image.length-start := by
  simp only [slice, List.length_drop, List.length_take]

/-- A slice whose end is inside the string is not shortened. -/
theorem slice_length_of_le (image : Bytes) (start stop : ℕ) (h : stop ≤ image.length) :
    (slice image start stop).length = stop-start := by
  rw [slice_length, min_eq_left h]

theorem slice_append (image : Bytes) (a b c : ℕ) (hab : a ≤ b) (hbc : b ≤ c) :
    slice image a b ++ slice image b c = slice image a c := by
  have hsplit : image.take c = image.take b ++ (image.take c).drop b := by
    have h := List.take_append_drop b (image.take c)
    rw [List.take_take, min_eq_left hbc] at h
    exact h.symm
  simp only [slice]
  conv_rhs => rw [hsplit]
  by_cases hb : b ≤ image.length
  · rw [List.drop_append_of_le_length (by rw [List.length_take]; omega)]
  · have hc : (image.take c).drop b = [] := by
      apply List.drop_eq_nil_of_le
      rw [List.length_take]
      omega
    rw [hc, List.append_nil, List.append_nil]

theorem slice_zero (image : Bytes) (stop : ℕ) : slice image 0 stop = image.take stop := rfl

theorem slice_to_end (image : Bytes) (start : ℕ) :
    slice image start image.length = image.drop start := by
  simp only [slice, List.take_length]

/-- Bytes before the end of a string are untouched by what is appended. -/
theorem slice_append_left (image tail : Bytes) (a b : ℕ) (h : b ≤ image.length) :
    slice (image ++ tail) a b = slice image a b := by
  simp only [slice, List.take_append_of_le_length h]

theorem slice_slice (image : Bytes) (start stop a b : ℕ) (h : start+b ≤ stop) :
    slice (slice image start stop) a b = slice image (start+a) (start+b) := by
  apply List.ext_getElem?
  intro i
  simp only [slice, List.getElem?_drop, List.getElem?_take]
  split_ifs <;> first | rfl | omega | (congr 1; omega)

theorem overwrite_length (image field : Bytes) (start : ℕ)
    (h : start+field.length ≤ image.length) :
    (overwrite image start field).length = image.length := by
  simp only [overwrite, List.length_append, List.length_take, List.length_drop]
  omega

theorem overwrite_getElem? (image field : Bytes) (start i : ℕ)
    (h : start+field.length ≤ image.length) :
    (overwrite image start field)[i]? =
      if start ≤ i ∧ i < start+field.length then field[i-start]? else image[i]? := by
  have hl : (image.take start).length = start := by rw [List.length_take]; omega
  unfold overwrite
  rw [List.append_assoc, List.getElem?_append, hl]
  split_ifs with h1 h2 h2
  · omega
  · rw [List.getElem?_take, if_pos h1]
  · rw [List.getElem?_append_left (by omega)]
  · rw [List.getElem?_append_right (by omega), List.getElem?_drop]
    congr 1
    omega

/-- A slice that misses the overwritten range reads the old bytes. -/
theorem slice_overwrite_disjoint (image field : Bytes) (start a b : ℕ)
    (h : start+field.length ≤ image.length) (hd : b ≤ start ∨ start+field.length ≤ a) :
    slice (overwrite image start field) a b = slice image a b := by
  apply List.ext_getElem?
  intro i
  simp only [slice, List.getElem?_drop, List.getElem?_take, overwrite_getElem? _ _ _ _ h]
  split_ifs <;> first | rfl | omega

/-- A slice inside the overwritten range reads the field. -/
theorem slice_overwrite_inside (image field : Bytes) (start a b : ℕ)
    (h : start+field.length ≤ image.length) (hb : b ≤ field.length) :
    slice (overwrite image start field) (start+a) (start+b) = slice field a b := by
  apply List.ext_getElem?
  intro i
  simp only [slice, List.getElem?_drop, List.getElem?_take, overwrite_getElem? _ _ _ _ h]
  split_ifs <;> first | rfl | omega | (congr 1; omega)

theorem deleteRange_to_end (image : Bytes) (stop : ℕ) :
    deleteRange image stop image.length = slice image 0 stop := by
  rw [deleteRange, List.drop_length, List.append_nil, slice_zero]

theorem deleteRange_initial (image : Bytes) (a b stop : ℕ) (hab : a ≤ b) (hb : b ≤ stop) :
    deleteRange (slice image 0 stop) a b = slice image 0 a ++ slice image b stop := by
  rw [deleteRange, slice_zero, slice_zero, List.take_take, min_eq_left (hab.trans hb), slice]

/-- A deletion inside the first part of a concatenation. -/
theorem deleteRange_append_left (x y : Bytes) (a b : ℕ) (hab : a ≤ b) (hb : b ≤ x.length) :
    deleteRange (x ++ y) a b = deleteRange x a b ++ y := by
  rw [deleteRange, deleteRange, List.take_append_of_le_length (hab.trans hb),
    List.drop_append_of_le_length hb, List.append_assoc]

end ConferWorker
