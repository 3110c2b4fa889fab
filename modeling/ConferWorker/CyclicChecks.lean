import ConferWorker.ByteSlices

/-! Reflected cyclic redundancy checks over a register of any width. A shift of the register
is injective and adds words that it does not cut off, so bytes that fit into the register enter
it as one word: strings that differ in one such window have different checks. -/
namespace ConferWorker

namespace CyclicCheck

variable {w : ℕ} (poly : BitVec w)

/-- The low bit leaves the register, and the polynomial is added if it was set. -/
def shift (c : BitVec w) : BitVec w :=
  if c.getLsbD 0 then (c >>> 1) ^^^ poly else c >>> 1

/-- One byte enters the register. -/
def feed (c : BitVec w) (b : UInt8) : BitVec w :=
  (shift poly)^[8] (c ^^^ BitVec.ofNat w b.toNat)

/-- The register after some bytes. -/
def run (c : BitVec w) (bytes : Bytes) : BitVec w := bytes.foldl (feed poly) c

/-- The bytes as one word, the first of them in the low bits. -/
def word (w : ℕ) (bytes : Bytes) : BitVec w := BitVec.ofNat w (fromLittle bytes)

@[simp] theorem run_nil (c : BitVec w) : run poly c [] = c := rfl

@[simp] theorem run_cons (c : BitVec w) (b : UInt8) (bytes : Bytes) :
    run poly c (b :: bytes) = run poly (feed poly c b) bytes := rfl

theorem run_append (c : BitVec w) (front bytes : Bytes) :
    run poly c (front++bytes) = run poly (run poly c front) bytes :=
  List.foldl_append

theorem getLsbD_shift (c : BitVec w) (i : ℕ) :
    (shift poly c).getLsbD i = ((c.getLsbD 0 && poly.getLsbD i) ^^ c.getLsbD (i+1)) := by
  rw [shift]
  cases hlow : c.getLsbD 0 with
  | true => simp [Bool.xor_comm, Nat.add_comm]
  | false => simp [Nat.add_comm]

/-- The high bit of the result tells the bit that left. -/
theorem shift_injective (hpoly : poly.getLsbD (w-1) = true) :
    Function.Injective (shift poly) := by
  intro c d h
  have hbits (i : ℕ) : (c.getLsbD 0 && poly.getLsbD i ^^ c.getLsbD (i+1))
      = (d.getLsbD 0 && poly.getLsbD i ^^ d.getLsbD (i+1)) := by
    rw [← getLsbD_shift, ← getLsbD_shift, h]
  have hlow : c.getLsbD 0 = d.getLsbD 0 := by
    have htop := hbits (w-1)
    rwa [hpoly, Bool.and_true, Bool.and_true, BitVec.getLsbD_of_ge c (w-1+1) (by omega),
      BitVec.getLsbD_of_ge d (w-1+1) (by omega), Bool.xor_false, Bool.xor_false] at htop
  apply BitVec.eq_of_getLsbD_eq
  intro i _
  cases i with
  | zero => exact hlow
  | succ i =>
    have hbit := hbits i
    rw [hlow] at hbit
    exact (Bool.xor_right_inj).mp hbit

theorem run_injective (hpoly : poly.getLsbD (w-1) = true) (bytes : Bytes) :
    Function.Injective (fun c => run poly c bytes) := by
  induction bytes with
  | nil => exact fun _ _ h => h
  | cons b bytes ih =>
    intro c d h
    have hfeed : feed poly c b = feed poly d b := ih h
    have hword := (shift_injective poly hpoly).iterate 8 hfeed
    exact (BitVec.xor_left_inj _).mp hword

/-- A word whose high bit is clear waits for the next shift. -/
theorem shift_xor (x y : BitVec w) (hy : y.getLsbD (w-1) = false) :
    shift poly (x ^^^ (y <<< 1)) = shift poly x ^^^ y := by
  apply BitVec.eq_of_getLsbD_eq
  intro i hi
  have hlow : (x ^^^ (y <<< 1)).getLsbD 0 = x.getLsbD 0 := by simp
  have hnext : (x ^^^ (y <<< 1)).getLsbD (i+1) = (x.getLsbD (i+1) ^^ y.getLsbD i) := by
    rw [BitVec.getLsbD_xor, BitVec.getLsbD_shiftLeft]
    by_cases hlast : i+1 < w
    · simp [hlast]
    · have htop : y.getLsbD i = false := by rwa [show i = w-1 by omega]
      simp [hlast, htop]
  rw [getLsbD_shift, hlow, hnext, BitVec.getLsbD_xor, getLsbD_shift, Bool.xor_assoc]

theorem shifts_xor (n : ℕ) (x y : BitVec w) (hy : ∀ i, w ≤ i+n → y.getLsbD i = false) :
    (shift poly)^[n] (x ^^^ (y <<< n)) = (shift poly)^[n] x ^^^ y := by
  induction n generalizing x y with
  | zero => simp
  | succ n ih =>
    have hbefore : x ^^^ (y <<< (n+1)) = x ^^^ ((y <<< n) <<< 1) := by
      rw [BitVec.shiftLeft_add]
    have htop : (y <<< n).getLsbD (w-1) = false := by
      rw [BitVec.getLsbD_shiftLeft]
      by_cases hn : w-1 < n
      · simp [hn]
      · rw [hy (w-1-n) (by omega), Bool.and_false]
    rw [Function.iterate_succ_apply, Function.iterate_succ_apply, hbefore,
      shift_xor poly x _ htop, ih _ _ (fun i hi => hy i (by omega))]

theorem fromLittle_lt (bytes : Bytes) : fromLittle bytes < 2^(8*bytes.length) := by
  induction bytes with
  | nil => exact Nat.one_pos
  | cons b bytes ih =>
    have hb := b.toNat_lt
    have hpow : 2^(8*(bytes.length+1)) = 256*2^(8*bytes.length) := by
      rw [Nat.mul_succ, pow_add]
      omega
    rw [fromLittle, List.length_cons, hpow]
    omega

theorem fromLittle_injective {bytes bytes' : Bytes} (hlength : bytes.length = bytes'.length)
    (h : fromLittle bytes = fromLittle bytes') : bytes = bytes' := by
  induction bytes generalizing bytes' with
  | nil => exact (List.length_eq_zero_iff.mp hlength.symm).symm
  | cons b bytes ih =>
    cases bytes' with
    | nil => cases hlength
    | cons b' bytes' =>
      have hb := b.toNat_lt
      have hb' := b'.toNat_lt
      rw [fromLittle, fromLittle] at h
      have hbyte : b = b' := UInt8.toNat_inj.mp (by omega)
      rw [hbyte, ih (Nat.succ_injective hlength) (by omega)]

/-- The first byte stands in the low bits, the others above it. -/
theorem word_cons (b : UInt8) (bytes : Bytes) :
    word w (b :: bytes) = BitVec.ofNat w b.toNat ^^^ (word w bytes <<< 8) := by
  have hdisjoint : b.toNat+256*fromLittle bytes = b.toNat ^^^ (fromLittle bytes <<< 8) := by
    apply Nat.eq_of_testBit_eq
    intro i
    have hb : b.toNat < 2^8 := b.toNat_lt
    have hsum : b.toNat+256*fromLittle bytes = 2^8*fromLittle bytes+b.toNat := by
      omega
    rw [hsum, Nat.testBit_two_pow_mul_add _ hb, Nat.testBit_xor, Nat.testBit_shiftLeft]
    by_cases hi : i < 8
    · simp [hi, Nat.not_le.mpr hi]
    · have hhigh : b.toNat.testBit i = false :=
        Nat.testBit_lt_two_pow (hb.trans_le (Nat.pow_le_pow_right (by decide) (by omega)))
      simp [hi, hhigh, Nat.not_lt.mp hi]
  apply BitVec.eq_of_getLsbD_eq
  intro i hi
  rw [word, fromLittle, hdisjoint, BitVec.getLsbD_ofNat, Nat.testBit_xor, BitVec.getLsbD_xor,
    BitVec.getLsbD_ofNat, BitVec.getLsbD_shiftLeft, word, BitVec.getLsbD_ofNat,
    Nat.testBit_shiftLeft]
  by_cases hsmall : i < 8
  · simp [hi, hsmall, Nat.not_le.mpr hsmall]
  · have hless : i-8 < w := by omega
    simp [hi, hsmall, hless, Nat.not_lt.mp hsmall]

theorem getLsbD_word (bytes : Bytes) (i : ℕ) (h : 8*bytes.length ≤ i) :
    (word w bytes).getLsbD i = false := by
  have hsmall : fromLittle bytes < 2^i :=
    (fromLittle_lt bytes).trans_le (Nat.pow_le_pow_right (by decide) h)
  rw [word, BitVec.getLsbD_ofNat, Nat.testBit_lt_two_pow hsmall, Bool.and_false]

/-- Bytes that fit into the register enter it as one word. -/
theorem run_eq_shifts (c : BitVec w) (bytes : Bytes) (h : 8*bytes.length ≤ w) :
    run poly c bytes = (shift poly)^[8*bytes.length] (c ^^^ word w bytes) := by
  induction bytes generalizing c with
  | nil =>
    have hzero : word w [] = 0#w := rfl
    simp [hzero]
  | cons b bytes ih =>
    have hlength : 8*(b :: bytes).length = 8*bytes.length+8 := by
      rw [List.length_cons, Nat.mul_succ]
    have hhigh (i : ℕ) (hi : w ≤ i+8) : (word w bytes).getLsbD i = false :=
      getLsbD_word bytes i (by omega)
    have hfeed : feed poly c b ^^^ word w bytes
        = (shift poly)^[8] (c ^^^ word w (b :: bytes)) := by
      rw [feed, ← shifts_xor poly 8 _ _ hhigh, word_cons, BitVec.xor_assoc]
    rw [run_cons, ih _ (by omega), hlength, Function.iterate_add_apply, hfeed]

/-- Strings with the same register after them, that differ in a window of the register's
length at most, are equal. -/
theorem window_eq (hpoly : poly.getLsbD (w-1) = true) (c : BitVec w)
    {front window window' rest : Bytes} (hlength : window.length = window'.length)
    (hshort : 8*window.length ≤ w)
    (h : run poly c (front++window++rest) = run poly c (front++window'++rest)) :
    window = window' := by
  rw [run_append, run_append, run_append, run_append] at h
  have hwindow : run poly (run poly c front) window = run poly (run poly c front) window' :=
    run_injective poly hpoly rest h
  have hshort' : 8*window'.length ≤ w := by omega
  rw [run_eq_shifts poly _ _ hshort, run_eq_shifts poly _ _ hshort', hlength] at hwindow
  have hword : word w window = word w window' :=
    (BitVec.xor_right_inj _).mp ((shift_injective poly hpoly).iterate _ hwindow)
  apply fromLittle_injective hlength
  have hlt := fromLittle_lt window
  have hlt' := fromLittle_lt window'
  have hpow : 2^(8*window.length) ≤ 2^w := Nat.pow_le_pow_right (by decide) hshort
  rw [← hlength] at hlt'
  have hnat := congrArg BitVec.toNat hword
  rwa [word, word, BitVec.toNat_ofNat, BitVec.toNat_ofNat, Nat.mod_eq_of_lt (by omega),
    Nat.mod_eq_of_lt (by omega)] at hnat

end CyclicCheck

/-- `zlib.crc32`. -/
def crc32 (bytes : Bytes) : ℕ :=
  (CyclicCheck.run 0xEDB88320#32 (BitVec.allOnes 32) bytes ^^^ BitVec.allOnes 32).toNat

example : crc32 [0x31, 0x32, 0x33, 0x34, 0x35, 0x36, 0x37, 0x38, 0x39] = 0xCBF43926 := by
  decide +kernel

/-- A burst of at most 32 bits that begins and ends with a byte changes the check. -/
theorem crc32_window {front window window' rest : Bytes} (hlength : window.length = window'.length)
    (hshort : window.length ≤ 4) (h : crc32 (front++window++rest) = crc32 (front++window'++rest)) :
    window = window' := by
  have hregisters := (BitVec.xor_left_inj _).mp (BitVec.eq_of_toNat_eq h)
  exact CyclicCheck.window_eq _ (by decide) _ hlength (by omega) hregisters

end ConferWorker
