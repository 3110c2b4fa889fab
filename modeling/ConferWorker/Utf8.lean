import ConferWorker.ByteSlices

/-! UTF-8 over the code points of a Python `str`, lone surrogates included:
encoding, the strict decoder and the decoder that ignores what it cannot read. -/
namespace ConferWorker

/-- One element of a Python `str`. -/
abbrev CodePoint := Fin 0x110000

/-- The numerals of a code point. -/
instance codePoint_neZero : NeZero 0x110000 := ⟨by decide⟩

abbrev Str := List CodePoint

/-- Texts are compared by their elements. -/
instance str_lawfulBEq : LawfulBEq Str := inferInstance

/-- The `str` of a literal. -/
def ofString (s : String) : Str := s.toList.map (fun c => Fin.ofNat 0x110000 c.toNat)

def isSurrogate (c : CodePoint) : Bool := decide (0xD800 ≤ c.val ∧ c.val < 0xE000)

/-- The bytes of one character. -/
def utf8Bytes (c : CodePoint) : Bytes :=
  let n := c.val
  if n < 0x80 then [UInt8.ofNat n]
  else if n < 0x800 then [UInt8.ofNat (0xC0+n/64), UInt8.ofNat (0x80+n%64)]
  else if n < 0x10000 then
    [UInt8.ofNat (0xE0+n/4096), UInt8.ofNat (0x80+n/64%64), UInt8.ofNat (0x80+n%64)]
  else [UInt8.ofNat (0xF0+n/262144), UInt8.ofNat (0x80+n/4096%64),
    UInt8.ofNat (0x80+n/64%64), UInt8.ofNat (0x80+n%64)]

/-- The bytes of a text without lone surrogates. -/
def utf8 (s : Str) : Bytes := s.flatMap utf8Bytes

/-- No element of the text is a lone surrogate. -/
def Encodable (s : Str) : Prop := ∀ c ∈ s, isSurrogate c = false

instance (s : Str) : Decidable (Encodable s) :=
  List.decidableBAll (fun c => isSurrogate c = false) s

/-- `s.encode("utf-8")`: `none` where Python raises UnicodeEncodeError. -/
def encodeUtf8 (s : Str) : Option Bytes := if Encodable s then some (utf8 s) else none

def isContinuation (b : UInt8) : Bool := b.toNat/64 == 2

/-- The second byte of a sequence: overlong forms, surrogates and code points
past U+10FFFF are refused here. -/
def isSecondByte (b c : UInt8) : Bool :=
  isContinuation c && !(b.toNat == 0xE0 && c.toNat < 0xA0) && !(b.toNat == 0xED && 0xA0 ≤ c.toNat)
    && !(b.toNat == 0xF0 && c.toNat < 0x90) && !(b.toNat == 0xF4 && 0x90 ≤ c.toNat)

/-- What stands at the front of a byte string: a character and its width, or no
character and the number of bytes to skip. -/
def utf8Front : Bytes → Option CodePoint × ℕ
  | [] => (none, 0)
  | b :: rest =>
    if b.toNat < 0x80 then (some (Fin.ofNat _ b.toNat), 1)
    else if b.toNat < 0xC2 then (none, 1)
    else if b.toNat < 0xE0 then
      match rest with
      | [] => (none, 1)
      | c :: _ =>
        if isContinuation c then
          (some (Fin.ofNat _ ((b.toNat-0xC0)*64+(c.toNat-0x80))), 2)
        else (none, 1)
    else if b.toNat < 0xF0 then
      match rest with
      | [] => (none, 1)
      | [c] => if isSecondByte b c then (none, 2) else (none, 1)
      | c :: d :: _ =>
        if !isSecondByte b c then (none, 1)
        else if !isContinuation d then (none, 2)
        else (some (Fin.ofNat _ ((b.toNat-0xE0)*4096+(c.toNat-0x80)*64+(d.toNat-0x80))), 3)
    else if b.toNat < 0xF5 then
      match rest with
      | [] => (none, 1)
      | [c] => if isSecondByte b c then (none, 2) else (none, 1)
      | [c, d] =>
        if !isSecondByte b c then (none, 1)
        else if isContinuation d then (none, 3) else (none, 2)
      | c :: d :: e :: _ =>
        if !isSecondByte b c then (none, 1)
        else if !isContinuation d then (none, 2)
        else if !isContinuation e then (none, 3)
        else (some (Fin.ofNat _
          ((b.toNat-0xF0)*262144+(c.toNat-0x80)*4096+(d.toNat-0x80)*64+(e.toNat-0x80))), 4)
    else (none, 1)

/-- `bytes.decode("utf-8")` after `skip` bytes already consumed. -/
def decodeStrictFrom : ℕ → Bytes → Option Str
  | _, [] => some []
  | k+1, _ :: bytes => decodeStrictFrom k bytes
  | 0, b :: bytes =>
    match utf8Front (b :: bytes) with
    | (some c, width) => (decodeStrictFrom (width-1) bytes).map (c :: ·)
    | (none, _) => none

/-- `bytes.decode("utf-8")`: `none` where Python raises UnicodeDecodeError. -/
def decodeUtf8 (bytes : Bytes) : Option Str := decodeStrictFrom 0 bytes

/-- `bytes.decode("utf-8", errors="ignore")` after `skip` bytes already consumed. -/
def decodeIgnoreFrom : ℕ → Bytes → Str
  | _, [] => []
  | k+1, _ :: bytes => decodeIgnoreFrom k bytes
  | 0, b :: bytes =>
    match utf8Front (b :: bytes) with
    | (some c, width) => c :: decodeIgnoreFrom (width-1) bytes
    | (none, width) => decodeIgnoreFrom (width-1) bytes

/-- `bytes.decode("utf-8", errors="ignore")`. -/
def decodeIgnore (bytes : Bytes) : Str := decodeIgnoreFrom 0 bytes

@[simp] theorem utf8_nil : utf8 [] = [] := rfl

@[simp] theorem utf8_cons (c : CodePoint) (s : Str) : utf8 (c :: s) = utf8Bytes c ++ utf8 s := rfl

@[simp] theorem utf8_append (s t : Str) : utf8 (s ++ t) = utf8 s ++ utf8 t :=
  List.flatMap_append

@[simp] theorem encodable_nil : Encodable [] := fun _ h => by cases h

theorem encodable_cons (c : CodePoint) (s : Str) :
    Encodable (c :: s) ↔ isSurrogate c = false ∧ Encodable s :=
  List.forall_mem_cons

theorem encodable_append (s t : Str) : Encodable (s ++ t) ↔ Encodable s ∧ Encodable t :=
  List.forall_mem_append

@[simp] theorem encodeUtf8_eq_some (s : Str) (bytes : Bytes) :
    encodeUtf8 s = some bytes ↔ Encodable s ∧ utf8 s = bytes := by
  unfold encodeUtf8
  split_ifs with h <;> simp [h]

theorem utf8Bytes_length_pos (c : CodePoint) : 0 < (utf8Bytes c).length := by
  unfold utf8Bytes
  dsimp only
  split_ifs <;> simp

theorem utf8Bytes_length_le (c : CodePoint) : (utf8Bytes c).length ≤ 4 := by
  unfold utf8Bytes
  dsimp only
  split_ifs <;> simp

theorem utf8Bytes_ne_nil (c : CodePoint) : utf8Bytes c ≠ [] :=
  List.ne_nil_of_length_pos (utf8Bytes_length_pos c)

theorem utf8_eq_nil_iff (s : Str) : utf8 s = [] ↔ s = [] := by
  cases s with
  | nil => simp
  | cons c s => simp [utf8Bytes_ne_nil]

theorem ofNat_toNat (n : ℕ) (h : n < 256) : (UInt8.ofNat n).toNat = n := by
  rw [UInt8.toNat_ofNat']
  exact Nat.mod_eq_of_lt h

theorem isContinuation_ofNat (k : ℕ) (h : k < 64) : isContinuation (UInt8.ofNat (0x80+k)) = true := by
  rw [isContinuation, ofNat_toNat _ (by omega)]
  simp only [beq_iff_eq]
  omega

theorem isSecondByte_ofNat (lead k : ℕ) (hl : lead < 256) (hk : k < 64)
    (h : (lead = 0xE0 → 0x20 ≤ k) ∧ (lead = 0xED → k < 0x20) ∧ (lead = 0xF0 → 0x10 ≤ k) ∧
      (lead = 0xF4 → k < 0x10)) :
    isSecondByte (UInt8.ofNat lead) (UInt8.ofNat (0x80+k)) = true := by
  rw [isSecondByte, isContinuation_ofNat k hk, ofNat_toNat lead hl, ofNat_toNat (0x80+k) (by omega)]
  simp only [Bool.true_and, Bool.and_eq_true, Bool.not_eq_true', Bool.and_eq_false_iff,
    beq_eq_false_iff_ne, decide_eq_false_iff_not]
  omega

theorem fin_ofNat_eq (c : CodePoint) (m : ℕ) (h : m = c.val) : Fin.ofNat 0x110000 m = c := by
  subst h
  exact Fin.ext (Nat.mod_eq_of_lt c.isLt)

/-- The front of a text's bytes is its first character. -/
theorem utf8Front_append (c : CodePoint) (h : isSurrogate c = false) (rest : Bytes) :
    utf8Front (utf8Bytes c ++ rest) = (some c, (utf8Bytes c).length) := by
  have hs : ¬(0xD800 ≤ c.val ∧ c.val < 0xE000) := by simpa [isSurrogate] using h
  have hn := c.isLt
  rcases Nat.lt_or_ge c.val 0x80 with h1 | h1
  · have hb := ofNat_toNat c.val (by omega)
    simp [utf8Bytes, utf8Front, h1, hb]
  rcases Nat.lt_or_ge c.val 0x800 with h2 | h2
  · have hb := ofNat_toNat (0xC0+c.val/64) (by omega)
    have hc := ofNat_toNat (0x80+c.val%64) (by omega)
    simp only [utf8Bytes, if_neg (not_lt.mpr h1), if_pos h2, List.cons_append, List.nil_append,
      utf8Front, hb, hc, isContinuation_ofNat _ (Nat.mod_lt _ (by omega : 64 > 0)), if_true]
    rw [if_neg (by omega), if_neg (by omega), if_pos (by omega),
      fin_ofNat_eq c _ (by omega)]
    rfl
  rcases Nat.lt_or_ge c.val 0x10000 with h3 | h3
  · have hb := ofNat_toNat (0xE0+c.val/4096) (by omega)
    have hc := ofNat_toNat (0x80+c.val/64%64) (by omega)
    have hd := ofNat_toNat (0x80+c.val%64) (by omega)
    have hsecond := isSecondByte_ofNat (0xE0+c.val/4096) (c.val/64%64) (by omega) (by omega) (by omega)
    simp only [utf8Bytes, if_neg (not_lt.mpr h1), if_neg (not_lt.mpr h2), if_pos h3,
      List.cons_append, List.nil_append, utf8Front, hb, hc, hd, hsecond,
      isContinuation_ofNat _ (Nat.mod_lt _ (by omega : 64 > 0)), Bool.not_true, Bool.false_eq_true,
      if_false]
    rw [if_neg (by omega), if_neg (by omega), if_neg (by omega), if_pos (by omega),
      fin_ofNat_eq c _ (by omega)]
    rfl
  · have hb := ofNat_toNat (0xF0+c.val/262144) (by omega)
    have hc := ofNat_toNat (0x80+c.val/4096%64) (by omega)
    have hd := ofNat_toNat (0x80+c.val/64%64) (by omega)
    have he := ofNat_toNat (0x80+c.val%64) (by omega)
    have hsecond :=
      isSecondByte_ofNat (0xF0+c.val/262144) (c.val/4096%64) (by omega) (by omega) (by omega)
    simp only [utf8Bytes, if_neg (not_lt.mpr h1), if_neg (not_lt.mpr h2), if_neg (not_lt.mpr h3),
      List.cons_append, List.nil_append, utf8Front, hb, hc, hd, he, hsecond,
      isContinuation_ofNat _ (Nat.mod_lt _ (by omega : 64 > 0)), Bool.not_true, Bool.false_eq_true,
      if_false]
    rw [if_neg (by omega), if_neg (by omega), if_neg (by omega), if_neg (by omega),
      if_pos (by omega), fin_ofNat_eq c _ (by omega)]
    rfl

/-- A character cut short at the end of the input is skipped as a whole. -/
theorem utf8Front_truncated (c : CodePoint) (h : isSurrogate c = false) (k : ℕ) (hk : 0 < k)
    (hlen : k < (utf8Bytes c).length) : utf8Front ((utf8Bytes c).take k) = (none, k) := by
  have hs : ¬(0xD800 ≤ c.val ∧ c.val < 0xE000) := by simpa [isSurrogate] using h
  have hn := c.isLt
  rcases Nat.lt_or_ge c.val 0x80 with h1 | h1
  · simp [utf8Bytes, h1] at hlen
    omega
  rcases Nat.lt_or_ge c.val 0x800 with h2 | h2
  · have hb := ofNat_toNat (0xC0+c.val/64) (by omega)
    have hwidth : k < 2 := by simpa [utf8Bytes, if_neg (not_lt.mpr h1), h2] using hlen
    obtain rfl : k = 1 := by omega
    simp only [utf8Bytes, if_neg (not_lt.mpr h1), if_pos h2, List.take_succ_cons, List.take_zero,
      utf8Front, hb]
    rw [if_neg (by omega), if_neg (by omega), if_pos (by omega)]
  rcases Nat.lt_or_ge c.val 0x10000 with h3 | h3
  · have hb := ofNat_toNat (0xE0+c.val/4096) (by omega)
    have hsecond := isSecondByte_ofNat (0xE0+c.val/4096) (c.val/64%64) (by omega) (by omega) (by omega)
    have hwidth : k < 3 := by
      simpa [utf8Bytes, if_neg (not_lt.mpr h1), if_neg (not_lt.mpr h2), h3] using hlen
    have htake : k = 1 ∨ k = 2 := by omega
    rcases htake with rfl | rfl <;>
    · simp only [utf8Bytes, if_neg (not_lt.mpr h1), if_neg (not_lt.mpr h2), if_pos h3,
        List.take_succ_cons, List.take_zero, utf8Front, hb, hsecond, if_true]
      rw [if_neg (by omega), if_neg (by omega), if_neg (by omega), if_pos (by omega)]
  · have hb := ofNat_toNat (0xF0+c.val/262144) (by omega)
    have hsecond :=
      isSecondByte_ofNat (0xF0+c.val/262144) (c.val/4096%64) (by omega) (by omega) (by omega)
    have hwidth : k < 4 := by
      simpa [utf8Bytes, if_neg (not_lt.mpr h1), if_neg (not_lt.mpr h2), if_neg (not_lt.mpr h3)]
        using hlen
    have htake : k = 1 ∨ k = 2 ∨ k = 3 := by omega
    rcases htake with rfl | rfl | rfl <;>
    · simp only [utf8Bytes, if_neg (not_lt.mpr h1), if_neg (not_lt.mpr h2), if_neg (not_lt.mpr h3),
        List.take_succ_cons, List.take_zero, utf8Front, hb, hsecond,
        isContinuation_ofNat _ (Nat.mod_lt _ (by omega : 64 > 0)), Bool.not_true,
        Bool.false_eq_true, if_false, if_true]
      rw [if_neg (by omega), if_neg (by omega), if_neg (by omega), if_neg (by omega),
        if_pos (by omega)]

theorem decodeStrictFrom_skip (k : ℕ) (bytes : Bytes) :
    decodeStrictFrom k bytes = decodeStrictFrom 0 (bytes.drop k) := by
  induction k generalizing bytes with
  | zero => rfl
  | succ k ih =>
    cases bytes with
    | nil => simp [decodeStrictFrom]
    | cons b bytes => exact ih bytes

theorem decodeIgnoreFrom_skip (k : ℕ) (bytes : Bytes) :
    decodeIgnoreFrom k bytes = decodeIgnoreFrom 0 (bytes.drop k) := by
  induction k generalizing bytes with
  | zero => rfl
  | succ k ih =>
    cases bytes with
    | nil => simp [decodeIgnoreFrom]
    | cons b bytes => exact ih bytes

theorem isContinuation_iff (b : UInt8) :
    isContinuation b = true ↔ 0x80 ≤ b.toNat ∧ b.toNat < 0xC0 := by
  simp only [isContinuation, beq_iff_eq]
  omega

theorem isSecondByte_iff (b c : UInt8) : isSecondByte b c = true ↔
    (0x80 ≤ c.toNat ∧ c.toNat < 0xC0) ∧ (b.toNat = 0xE0 → 0xA0 ≤ c.toNat) ∧
      (b.toNat = 0xED → c.toNat < 0xA0) ∧ (b.toNat = 0xF0 → 0x90 ≤ c.toNat) ∧
      (b.toNat = 0xF4 → c.toNat < 0x90) := by
  simp only [isSecondByte, Bool.and_eq_true, Bool.not_eq_true', Bool.and_eq_false_iff,
    beq_eq_false_iff_ne, decide_eq_false_iff_not, isContinuation_iff]
  omega

theorem ofNat_eq_of_toNat (b : UInt8) (n : ℕ) (h : n = b.toNat) : UInt8.ofNat n = b := by
  rw [h]
  exact UInt8.ofNat_toNat

theorem ofNat_val (n : ℕ) (h : n < 0x110000) : (Fin.ofNat 0x110000 n).val = n :=
  Nat.mod_eq_of_lt h

theorem utf8Bytes_one (b : UInt8) (h : b.toNat < 0x80) :
    isSurrogate (Fin.ofNat _ b.toNat) = false ∧ utf8Bytes (Fin.ofNat _ b.toNat) = [b] := by
  have hv := ofNat_val b.toNat (by omega)
  constructor
  · simp only [isSurrogate, hv, decide_eq_false_iff_not]
    omega
  · simp only [utf8Bytes, hv, if_pos h, ofNat_eq_of_toNat b _ rfl]

theorem utf8Bytes_two (b c : UInt8) (hb : 0xC2 ≤ b.toNat ∧ b.toNat < 0xE0)
    (hc : 0x80 ≤ c.toNat ∧ c.toNat < 0xC0) (n : ℕ)
    (hn : n = (b.toNat-0xC0)*64+(c.toNat-0x80)) :
    isSurrogate (Fin.ofNat _ n) = false ∧ utf8Bytes (Fin.ofNat _ n) = [b, c] := by
  have hv := ofNat_val n (by omega)
  constructor
  · simp only [isSurrogate, hv, decide_eq_false_iff_not]
    omega
  · simp only [utf8Bytes, hv]
    rw [if_neg (by omega), if_pos (by omega), ofNat_eq_of_toNat b _ (by omega),
      ofNat_eq_of_toNat c _ (by omega)]

theorem utf8Bytes_three (b c d : UInt8) (hb : 0xE0 ≤ b.toNat ∧ b.toNat < 0xF0)
    (hc : isSecondByte b c = true) (hd : 0x80 ≤ d.toNat ∧ d.toNat < 0xC0) (n : ℕ)
    (hn : n = (b.toNat-0xE0)*4096+(c.toNat-0x80)*64+(d.toNat-0x80)) :
    isSurrogate (Fin.ofNat _ n) = false ∧ utf8Bytes (Fin.ofNat _ n) = [b, c, d] := by
  rw [isSecondByte_iff] at hc
  have hv := ofNat_val n (by omega)
  constructor
  · simp only [isSurrogate, hv, decide_eq_false_iff_not]
    omega
  · simp only [utf8Bytes, hv]
    rw [if_neg (by omega), if_neg (by omega), if_pos (by omega), ofNat_eq_of_toNat b _ (by omega),
      ofNat_eq_of_toNat c _ (by omega), ofNat_eq_of_toNat d _ (by omega)]

theorem utf8Bytes_four (b c d e : UInt8) (hb : 0xF0 ≤ b.toNat ∧ b.toNat < 0xF5)
    (hc : isSecondByte b c = true) (hd : 0x80 ≤ d.toNat ∧ d.toNat < 0xC0)
    (he : 0x80 ≤ e.toNat ∧ e.toNat < 0xC0) (n : ℕ)
    (hn : n = (b.toNat-0xF0)*262144+(c.toNat-0x80)*4096+(d.toNat-0x80)*64+(e.toNat-0x80)) :
    isSurrogate (Fin.ofNat _ n) = false ∧ utf8Bytes (Fin.ofNat _ n) = [b, c, d, e] := by
  rw [isSecondByte_iff] at hc
  have hv := ofNat_val n (by omega)
  constructor
  · simp only [isSurrogate, hv, decide_eq_false_iff_not]
    omega
  · simp only [utf8Bytes, hv]
    rw [if_neg (by omega), if_neg (by omega), if_neg (by omega), ofNat_eq_of_toNat b _ (by omega),
      ofNat_eq_of_toNat c _ (by omega), ofNat_eq_of_toNat d _ (by omega),
      ofNat_eq_of_toNat e _ (by omega)]

/-- What the decoder reads as a character is the encoding of that character. -/
theorem utf8Front_some (bytes : Bytes) (c : CodePoint) (width : ℕ)
    (h : utf8Front bytes = (some c, width)) :
    isSurrogate c = false ∧ bytes.take width = utf8Bytes c ∧ 0 < width := by
  have finish (n w : ℕ) (front : Bytes) (hfront : bytes.take w = front) (hw : 0 < w)
      (hn : isSurrogate (Fin.ofNat _ n) = false ∧ utf8Bytes (Fin.ofNat _ n) = front)
      (heq : (some (Fin.ofNat _ n), w) = (some c, width)) :
      isSurrogate c = false ∧ bytes.take width = utf8Bytes c ∧ 0 < width := by
    simp only [Prod.mk.injEq, Option.some.injEq] at heq
    obtain ⟨rfl, rfl⟩ := heq
    exact ⟨hn.1, hfront.trans hn.2.symm, hw⟩
  unfold utf8Front at h
  split at h
  · simp at h
  · rename_i b rest
    split_ifs at h with h1 h2 h3 h4 h5
    · exact finish _ 1 [b] rfl (by omega) (utf8Bytes_one b h1) h
    · simp at h
    · split at h
      · simp at h
      · rename_i c1 rest
        split_ifs at h with hc
        · exact finish _ 2 [b, c1] rfl (by omega)
            (utf8Bytes_two b c1 ⟨by omega, h3⟩ ((isContinuation_iff c1).mp hc) _ rfl) h
        · simp at h
    · split at h
      · simp at h
      · split_ifs at h <;> simp at h
      · rename_i c1 c2 rest
        split_ifs at h with hc hd
        · simp at h
        · simp at h
        · simp only [Bool.not_eq_true, Bool.not_eq_false'] at hc hd
          exact finish _ 3 [b, c1, c2] rfl (by omega)
            (utf8Bytes_three b c1 c2 ⟨by omega, h4⟩ hc ((isContinuation_iff c2).mp hd) _ rfl) h
    · split at h
      · simp at h
      · split_ifs at h <;> simp at h
      · split_ifs at h <;> simp at h
      · rename_i c1 c2 c3 rest
        split_ifs at h with hc hd he
        · simp at h
        · simp at h
        · simp at h
        · simp only [Bool.not_eq_true, Bool.not_eq_false'] at hc hd he
          exact finish _ 4 [b, c1, c2, c3] rfl (by omega)
            (utf8Bytes_four b c1 c2 c3 ⟨by omega, h5⟩ hc ((isContinuation_iff c2).mp hd)
              ((isContinuation_iff c3).mp he) _ rfl) h
    · simp at h

/-- The strict decoder takes one whole character at a time. -/
theorem decodeUtf8_front (bytes : Bytes) (h : bytes ≠ []) :
    decodeUtf8 bytes = match utf8Front bytes with
      | (some c, width) => (decodeUtf8 (bytes.drop width)).map (c :: ·)
      | (none, _) => none := by
  obtain ⟨b, rest, rfl⟩ := List.exists_cons_of_ne_nil h
  unfold decodeUtf8
  rw [decodeStrictFrom]
  split
  · rename_i c width hfront
    obtain ⟨w, rfl⟩ := Nat.exists_eq_succ_of_ne_zero (utf8Front_some _ c width hfront).2.2.ne'
    rw [Nat.succ_sub_one, decodeStrictFrom_skip, List.drop_succ_cons]
  · rfl

theorem decodeUtf8_utf8Bytes (c : CodePoint) (h : isSurrogate c = false) (rest : Bytes) :
    decodeUtf8 (utf8Bytes c ++ rest) = (decodeUtf8 rest).map (c :: ·) := by
  rw [decodeUtf8_front _ (by simp [utf8Bytes_ne_nil]), utf8Front_append c h]
  simp only [List.drop_left]

theorem decodeUtf8_utf8 (s : Str) (h : Encodable s) : decodeUtf8 (utf8 s) = some s := by
  induction s with
  | nil => rfl
  | cons c s ih =>
    rw [encodable_cons] at h
    rw [utf8_cons, decodeUtf8_utf8Bytes c h.1, ih h.2]
    rfl

/-- The strict decoder accepts exactly the encodings, and inverts the encoder. -/
theorem decodeUtf8_eq_some_iff (bytes : Bytes) (s : Str) :
    decodeUtf8 bytes = some s ↔ Encodable s ∧ utf8 s = bytes := by
  constructor
  · intro h
    induction s generalizing bytes with
    | nil =>
      by_contra hne
      have hbytes : bytes ≠ [] := by
        rintro rfl
        simp at hne
      rw [decodeUtf8_front _ hbytes] at h
      split at h <;> simp at h
    | cons c s ih =>
      have hbytes : bytes ≠ [] := by
        rintro rfl
        simp [decodeUtf8, decodeStrictFrom] at h
      rw [decodeUtf8_front _ hbytes] at h
      split at h
      · rename_i c' width hfront
        simp only [Option.map_eq_some_iff, List.cons.injEq] at h
        obtain ⟨t, ht, rfl, rfl⟩ := h
        obtain ⟨hc, htake, -⟩ := utf8Front_some _ _ _ hfront
        obtain ⟨hs, hdrop⟩ := ih _ ht
        refine ⟨(encodable_cons _ _).mpr ⟨hc, hs⟩, ?_⟩
        rw [utf8_cons, hdrop, ← htake, List.take_append_drop]
      · simp at h
  · rintro ⟨h, rfl⟩
    exact decodeUtf8_utf8 s h

/-- The longest initial part of a text made of whole characters that fits in `n` bytes. -/
def wholeCharacters : ℕ → Str → Str
  | _, [] => []
  | n, c :: s =>
    if (utf8Bytes c).length ≤ n then c :: wholeCharacters (n-(utf8Bytes c).length) s else []

theorem wholeCharacters_initial (n : ℕ) (s : Str) : wholeCharacters n s <+: s := by
  induction s generalizing n with
  | nil => simp [wholeCharacters]
  | cons c s ih =>
    simp only [wholeCharacters]
    split_ifs
    · exact (List.prefix_cons_inj c).mpr (ih _)
    · exact List.nil_prefix

theorem wholeCharacters_length_le (n : ℕ) (s : Str) : (utf8 (wholeCharacters n s)).length ≤ n := by
  induction s generalizing n with
  | nil => simp [wholeCharacters]
  | cons c s ih =>
    simp only [wholeCharacters]
    split_ifs with h
    · have htail := ih (n-(utf8Bytes c).length)
      simp only [utf8_cons, List.length_append]
      omega
    · simp

/-- Every initial part that fits is an initial part of `wholeCharacters`. -/
theorem wholeCharacters_longest (n : ℕ) (s t : Str) (ht : t <+: s) (hn : (utf8 t).length ≤ n) :
    t <+: wholeCharacters n s := by
  induction s generalizing n t with
  | nil => simpa [wholeCharacters] using ht
  | cons c s ih =>
    cases t with
    | nil => exact List.nil_prefix
    | cons d t =>
      obtain ⟨rfl, htail⟩ := List.cons_prefix_cons.mp ht
      simp only [utf8_cons, List.length_append] at hn
      rw [wholeCharacters, if_pos (by omega)]
      exact (List.prefix_cons_inj d).mpr (ih _ t htail (by omega))

theorem decodeIgnore_utf8Bytes (c : CodePoint) (h : isSurrogate c = false) (rest : Bytes) :
    decodeIgnore (utf8Bytes c ++ rest) = c :: decodeIgnore rest := by
  obtain ⟨b, tail, htail⟩ := List.exists_cons_of_ne_nil (utf8Bytes_ne_nil c)
  have hfront := utf8Front_append c h rest
  rw [htail, List.cons_append] at hfront
  unfold decodeIgnore
  rw [htail, List.cons_append, decodeIgnoreFrom, hfront]
  simp only [List.length_cons, Nat.add_sub_cancel]
  rw [decodeIgnoreFrom_skip, List.drop_left]

theorem decodeIgnore_truncated (c : CodePoint) (h : isSurrogate c = false) (k : ℕ)
    (hlen : k < (utf8Bytes c).length) : decodeIgnore ((utf8Bytes c).take k) = [] := by
  rcases Nat.eq_zero_or_pos k with rfl | hk
  · rfl
  have hfront := utf8Front_truncated c h k hk hlen
  obtain ⟨b, tail, htail⟩ := List.exists_cons_of_ne_nil (utf8Bytes_ne_nil c)
  obtain ⟨k, rfl⟩ := Nat.exists_eq_succ_of_ne_zero hk.ne'
  rw [htail, List.take_succ_cons] at hfront
  unfold decodeIgnore
  rw [htail, List.take_succ_cons, decodeIgnoreFrom, hfront]
  simp only [Nat.succ_eq_add_one, Nat.add_sub_cancel]
  rw [decodeIgnoreFrom_skip, List.drop_of_length_le (by simp)]
  rfl

/-- Decoding a text cut after `n` bytes drops exactly the character the cut goes through. -/
theorem decodeIgnore_take (s : Str) (h : Encodable s) (n : ℕ) :
    decodeIgnore ((utf8 s).take n) = wholeCharacters n s := by
  induction s generalizing n with
  | nil => simp [wholeCharacters, decodeIgnore, decodeIgnoreFrom]
  | cons c s ih =>
    rw [encodable_cons] at h
    rw [utf8_cons, List.take_append, wholeCharacters]
    split_ifs with hc
    · rw [List.take_of_length_le hc, decodeIgnore_utf8Bytes c h.1, ih h.2]
    · have hzero : n-(utf8Bytes c).length = 0 := by omega
      rw [hzero, List.take_zero, List.append_nil]
      exact decodeIgnore_truncated c h.1 n (by omega)

end ConferWorker
