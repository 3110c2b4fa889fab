import ConferWorker.PlatformProfiles
import ConferWorker.JsonSpellings

/-! The one spelling of some bytes that `decode_hex` accepts. -/
namespace ConferWorker

namespace ReleaseImage

@[simp] theorem hex_cons (b : UInt8) (bytes : Bytes) :
    hex (b :: bytes) = Json.hexDigit (b.toNat/16) :: Json.hexDigit (b.toNat%16) :: hex bytes := rfl

@[simp] theorem hex_length (bytes : Bytes) : (hex bytes).length = 2*bytes.length := by
  induction bytes with
  | nil => rfl
  | cons b bytes ih =>
    rw [hex_cons, List.length_cons, List.length_cons, List.length_cons, ih]
    omega

/-- A digit below sixteen is no white space and is written in lower case. -/
theorem hexDigit_lower (n : ℕ) (h : n < 16) : isAsciiSpace (Json.hexDigit n) = false
    ∧ lowerAscii [Json.hexDigit n] = [Json.hexDigit n] := by
  have hall : ∀ n : Fin 16, isAsciiSpace (Json.hexDigit n.val) = false
      ∧ lowerAscii [Json.hexDigit n.val] = [Json.hexDigit n.val] := by decide
  exact hall ⟨n, h⟩

theorem fromHex_hex (bytes : Bytes) : fromHex (hex bytes) = some bytes := by
  induction bytes with
  | nil => rfl
  | cons b bytes ih =>
    have hb := b.toNat_lt
    obtain ⟨hspace, -⟩ := hexDigit_lower (b.toNat/16) (by omega)
    obtain ⟨-, hhigh, hhighValue⟩ := JsonParser.digitValue_hexDigit (b.toNat/16) (by omega)
    obtain ⟨-, hlow, hlowValue⟩ := JsonParser.digitValue_hexDigit (b.toNat%16) (by omega)
    have hvalue : 16*(b.toNat/16)+b.toNat%16 = b.toNat := by omega
    rw [hex_cons, fromHex, hspace, hhigh, hlow, ih, hhighValue, hlowValue, hvalue,
      UInt8.ofNat_toNat]
    rfl

theorem lowerAscii_hex (bytes : Bytes) : lowerAscii (hex bytes) = hex bytes := by
  induction bytes with
  | nil => rfl
  | cons b bytes ih =>
    have hb := b.toNat_lt
    obtain ⟨-, hhigh⟩ := hexDigit_lower (b.toNat/16) (by omega)
    obtain ⟨-, hlow⟩ := hexDigit_lower (b.toNat%16) (by omega)
    rw [lowerAscii, List.map_singleton, List.singleton_inj] at hhigh hlow
    rw [lowerAscii, hex_cons, List.map_cons, List.map_cons, hhigh, hlow, ← lowerAscii, ih]

/-- A hex digit in lower case is the digit of its value. -/
theorem hexDigit_digitValue {c : CodePoint} (hdigit : isHexDigit c = true)
    (hlower : lowerAscii [c] = [c]) : Json.hexDigit (digitValue c) = c ∧ digitValue c < 16 := by
  have hupper : ¬(0x41 ≤ c.val ∧ c.val ≤ 0x5A) := by
    intro h
    rw [lowerAscii, List.map_singleton, List.singleton_inj, if_pos h] at hlower
    have hval := congrArg Fin.val hlower
    rw [Fin.val_ofNat, Nat.mod_eq_of_lt (by omega)] at hval
    omega
  have hranges : 0x30 ≤ c.val ∧ c.val ≤ 0x39 ∨ 0x61 ≤ c.val ∧ c.val ≤ 0x66 := by
    simp only [isHexDigit, Bool.or_eq_true, Bool.and_eq_true, decide_eq_true_eq] at hdigit
    omega
  rw [digitValue, if_neg hupper]
  have hwritten (n : ℕ) (hn : n < 16) (hval : (if n < 10 then 0x30+n else 0x57+n) = c.val) :
      Json.hexDigit n = c := by
    apply Fin.ext
    rw [Json.hexDigit, Fin.val_ofNat, hval, Nat.mod_eq_of_lt c.isLt]
  rcases hranges with hdecimal | hletter
  · rw [if_pos hdecimal]
    exact ⟨hwritten _ (by omega) (by rw [if_pos (by omega)]; omega), by omega⟩
  · rw [if_neg (by omega), if_pos (by omega)]
    exact ⟨hwritten _ (by omega) (by rw [if_neg (by omega)]; omega), by omega⟩

/-- A text is never shorter than its bytes are written, and as long only if it is what is
written. -/
theorem fromHex_spelling {text : Str} {bytes : Bytes} (h : fromHex text = some bytes)
    (hlower : lowerAscii text = text) :
    2*bytes.length ≤ text.length ∧ (text.length = 2*bytes.length → text = hex bytes) := by
  have htail {c : CodePoint} {rest : Str} (h : lowerAscii (c :: rest) = c :: rest) :
      lowerAscii [c] = [c] ∧ lowerAscii rest = rest := by
    rw [lowerAscii, List.map_cons, List.cons.injEq] at h
    rw [lowerAscii, lowerAscii, List.map_singleton, h.1, h.2]
    exact ⟨rfl, rfl⟩
  fun_induction fromHex text generalizing bytes with
  | case1 =>
    obtain rfl := Option.some.inj h
    exact ⟨le_rfl, fun _ => rfl⟩
  | case2 c hspace =>
    obtain rfl := Option.some.inj h
    exact ⟨Nat.zero_le _, fun hlength => by cases hlength⟩
  | case3 c hspace => cases h
  | case4 c d rest hspace ih =>
    -- a blank makes the text longer than what is written
    obtain ⟨hle, -⟩ := ih h (htail hlower).2
    rw [List.length_cons]
    exact ⟨by omega, fun hlength => by omega⟩
  | case5 c d rest hspace hdigits ih =>
    rw [Bool.and_eq_true] at hdigits
    obtain ⟨decoded, hdecoded, rfl⟩ := Option.map_eq_some_iff.mp h
    obtain ⟨hlowerC, hlower⟩ := htail hlower
    obtain ⟨hlowerD, hlower⟩ := htail hlower
    obtain ⟨hle, hspelled⟩ := ih hdecoded hlower
    obtain ⟨hc, hcValue⟩ := hexDigit_digitValue hdigits.1 hlowerC
    obtain ⟨hd, hdValue⟩ := hexDigit_digitValue hdigits.2 hlowerD
    rw [List.length_cons, List.length_cons, List.length_cons]
    refine ⟨by omega, fun hlength => ?_⟩
    have hbyte : (UInt8.ofNat (16*digitValue c+digitValue d)).toNat
        = 16*digitValue c+digitValue d :=
      UInt8.toNat_ofNat_of_lt (by rw [UInt8.size]; omega)
    have hhigh : (16*digitValue c+digitValue d)/16 = digitValue c := by omega
    have hlow : (16*digitValue c+digitValue d)%16 = digitValue d := by omega
    rw [hex_cons, hbyte, hhigh, hlow, hc, hd, ← hspelled (by omega)]
  | case6 c d rest hspace hdigits => cases h

/-- Each byte string has one text that is decoded to it. -/
theorem decodeHex_eq_ok (value : Json) (bytesCount : ℕ) (description : String) (bytes : Bytes) :
    decodeHex value bytesCount description = .ok bytes
      ↔ bytes.length = bytesCount ∧ value = .str (hex bytes) := by
  cases value with
  | str text =>
    simp only [decodeHex, bind_eq_ok, raiseIf_eq_ok, valueOr_eq_ok, pure_eq_ok, not_or, not_not,
      Json.str.injEq]
    constructor
    · rintro ⟨_, ⟨hlength, hlower⟩, decoded, hdecoded, _, hcount, rfl⟩
      refine ⟨hcount, (fromHex_spelling hdecoded hlower).2 ?_⟩
      rw [hlength, hcount, Nat.mul_comm]
    · rintro ⟨hcount, rfl⟩
      refine ⟨(), ⟨?_, lowerAscii_hex bytes⟩, bytes, fromHex_hex bytes, (), hcount, rfl⟩
      rw [hex_length, hcount, Nat.mul_comm]
  | _ => simp only [decodeHex, reduceCtorEq, and_false]

theorem hex_injective : Function.Injective hex := by
  intro bytes bytes' h
  have hread := fromHex_hex bytes
  rwa [h, fromHex_hex, Option.some.injEq, eq_comm] at hread

end ReleaseImage

end ConferWorker
