import ConferWorker.Utf8

/-! Base64 as `base64` and `binascii` of Python have it. The decoder looks at no bits behind the
last byte, so that several texts can stand for the same bytes. -/
namespace ConferWorker

namespace Base64

/-- `=`. -/
def pad : UInt8 := 0x3D

/-- The character for six bits. -/
def digit (n : ℕ) : UInt8 :=
  UInt8.ofNat (if n < 26 then 0x41+n else if n < 52 then 0x47+n else if n < 62 then n-4
    else if n = 62 then 0x2B else 0x2F)

/-- The six bits of a character. -/
def value (c : UInt8) : Option ℕ :=
  if 0x41 ≤ c ∧ c ≤ 0x5A then some (c.toNat-0x41)
  else if 0x61 ≤ c ∧ c ≤ 0x7A then some (c.toNat-0x47)
  else if 0x30 ≤ c ∧ c ≤ 0x39 then some (c.toNat+4)
  else if c = 0x2B then some 62
  else if c = 0x2F then some 63
  else none

/-- `base64.b64encode(s)`. -/
def b64encode : Bytes → Bytes
  | a :: b :: c :: rest =>
    digit (a.toNat/4) :: digit (a.toNat%4*16+b.toNat/16) :: digit (b.toNat%16*4+c.toNat/64)
      :: digit (c.toNat%64) :: b64encode rest
  | [a, b] => [digit (a.toNat/4), digit (a.toNat%4*16+b.toNat/16), digit (b.toNat%16*4), pad]
  | [a] => [digit (a.toNat/4), digit (a.toNat%4*16), pad, pad]
  | [] => []

/-- `binascii.a2b_base64(s, strict_mode=True)`: `none` where it raises `binascii.Error`. -/
def a2bBase64 : Bytes → Option Bytes
  | [] => some []
  | a :: b :: c :: d :: rest => do
    let a ← value a
    let b ← value b
    let first := UInt8.ofNat (a*4+b/16)
    if d = pad ∧ rest = [] then
      if c = pad then some [first]
      else do
        let c ← value c
        some [first, UInt8.ofNat (b%16*16+c/4)]
    else do
      let c ← value c
      let d ← value d
      let more ← a2bBase64 rest
      some (first :: UInt8.ofNat (b%16*16+c/4) :: UInt8.ofNat (c%4*64+d) :: more)
  | _ => none

/-- The translation of the two alternative characters. -/
def fromAltchars (c : UInt8) : UInt8 := if c = 0x2D then 0x2B else if c = 0x5F then 0x2F else c

def toAltchars (c : UInt8) : UInt8 := if c = 0x2B then 0x2D else if c = 0x2F then 0x5F else c

/-- `base64.b64decode(s, validate=True)`. -/
def b64decode (s : Bytes) : Option Bytes := a2bBase64 s

/-- `base64.b64decode(s, altchars=b"-_", validate=True)`, which still reads `+` and `/`. -/
def b64decodeAltchars (s : Bytes) : Option Bytes := a2bBase64 (s.map fromAltchars)

/-- `base64.urlsafe_b64encode(s)`. -/
def urlsafeB64encode (s : Bytes) : Bytes := (b64encode s).map toAltchars

/-- `s.rstrip(b"=")`. -/
def rstripPad (s : Bytes) : Bytes := (s.reverse.dropWhile (· == pad)).reverse

theorem value_digit (n : ℕ) (hn : n < 64) : value (digit n) = some n := by
  have hall : ∀ n : Fin 64, value (digit n.val) = some n.val := by decide
  exact hall ⟨n, hn⟩

/-- No digit is the padding or an alternative character. -/
theorem digit_plain (n : ℕ) (hn : n < 64) : digit n ≠ pad ∧ digit n ≠ 0x2D ∧ digit n ≠ 0x5F := by
  have hall : ∀ n : Fin 64, digit n.val ≠ pad ∧ digit n.val ≠ 0x2D ∧ digit n.val ≠ 0x5F := by
    decide
  exact hall ⟨n, hn⟩

theorem ofNat_toNat_eq {n : ℕ} {b : UInt8} (h : n = b.toNat) : UInt8.ofNat n = b := by
  rw [h, UInt8.ofNat_toNat]

/-- Four characters that are not the end of the text. -/
theorem a2bBase64_quad {a b c d : ℕ} (ha : a < 64) (hb : b < 64) (hc : c < 64) (hd : d < 64)
    (rest : Bytes) :
    a2bBase64 (digit a :: digit b :: digit c :: digit d :: rest)
      = (a2bBase64 rest).map (fun more => UInt8.ofNat (a*4+b/16) :: UInt8.ofNat (b%16*16+c/4)
        :: UInt8.ofNat (c%4*64+d) :: more) := by
  rw [a2bBase64, value_digit a ha, value_digit b hb]
  dsimp only [Option.bind_eq_bind, Option.bind_some]
  rw [if_neg (fun h => (digit_plain d hd).1 h.1), value_digit c hc, value_digit d hd]
  dsimp only [Option.bind_some]
  cases a2bBase64 rest with
  | none => rfl
  | some more => rfl

/-- What was encoded is decoded to itself. -/
theorem a2bBase64_b64encode (s : Bytes) : a2bBase64 (b64encode s) = some s := by
  induction s using b64encode.induct with
  | case1 a b c rest ih =>
    have ha := a.toNat_lt
    have hb := b.toNat_lt
    have hc := c.toNat_lt
    rw [b64encode, a2bBase64_quad (by omega) (by omega) (by omega) (by omega), ih]
    simp only [Option.map_some]
    rw [ofNat_toNat_eq (b := a) (by omega), ofNat_toNat_eq (b := b) (by omega),
      ofNat_toNat_eq (b := c) (by omega)]
  | case2 a b =>
    have ha := a.toNat_lt
    have hb := b.toNat_lt
    rw [b64encode, a2bBase64, value_digit _ (by omega), value_digit _ (by omega)]
    dsimp only [Option.bind_eq_bind, Option.bind_some]
    rw [if_pos ⟨rfl, rfl⟩, if_neg (digit_plain _ (by omega)).1, value_digit _ (by omega)]
    dsimp only [Option.bind_some]
    rw [ofNat_toNat_eq (b := a) (by omega), ofNat_toNat_eq (b := b) (by omega)]
  | case3 a =>
    have ha := a.toNat_lt
    rw [b64encode, a2bBase64, value_digit _ (by omega), value_digit _ (by omega)]
    dsimp only [Option.bind_eq_bind, Option.bind_some]
    rw [if_pos ⟨rfl, rfl⟩, if_pos rfl, ofNat_toNat_eq (b := a) (by omega)]
  | case4 => rfl

/-- The encoding is some characters of the alphabet and the padding that makes fours of them. -/
theorem b64encode_eq (s : Bytes) : ∃ body padding, b64encode s = body++List.replicate padding pad
    ∧ (∀ c ∈ body, ∃ n, n < 64 ∧ c = digit n) ∧ (4-body.length%4)%4 = padding := by
  induction s using b64encode.induct with
  | case1 a b c rest ih =>
    have ha := a.toNat_lt
    have hb := b.toNat_lt
    have hc := c.toNat_lt
    obtain ⟨body, padding, hencode, hbody, hpadding⟩ := ih
    refine ⟨digit (a.toNat/4) :: digit (a.toNat%4*16+b.toNat/16)
      :: digit (b.toNat%16*4+c.toNat/64) :: digit (c.toNat%64) :: body, padding, ?_, ?_, ?_⟩
    · rw [b64encode, hencode]
      rfl
    · simp only [List.forall_mem_cons]
      exact ⟨⟨_, by omega, rfl⟩, ⟨_, by omega, rfl⟩, ⟨_, by omega, rfl⟩, ⟨_, by omega, rfl⟩, hbody⟩
    · simp only [List.length_cons]
      omega
  | case2 a b =>
    have ha := a.toNat_lt
    have hb := b.toNat_lt
    refine ⟨[digit (a.toNat/4), digit (a.toNat%4*16+b.toNat/16), digit (b.toNat%16*4)], 1, rfl,
      ?_, rfl⟩
    simp only [List.forall_mem_cons]
    exact ⟨⟨_, by omega, rfl⟩, ⟨_, by omega, rfl⟩, ⟨_, by omega, rfl⟩,
      fun _ h => absurd h List.not_mem_nil⟩
  | case3 a =>
    have ha := a.toNat_lt
    refine ⟨[digit (a.toNat/4), digit (a.toNat%4*16)], 2, rfl, ?_, rfl⟩
    simp only [List.forall_mem_cons]
    exact ⟨⟨_, by omega, rfl⟩, ⟨_, by omega, rfl⟩, fun _ h => absurd h List.not_mem_nil⟩
  | case4 => exact ⟨[], 0, rfl, fun _ h => absurd h List.not_mem_nil, rfl⟩

theorem rstripPad_append (body : Bytes) (padding : ℕ) (hbody : ∀ c ∈ body, c ≠ pad) :
    rstripPad (body++List.replicate padding pad) = body := by
  have hkeep : body.reverse.dropWhile (· == pad) = body.reverse := by
    cases hreverse : body.reverse with
    | nil => rfl
    | cons c rest =>
      have hc : c ∈ body := List.mem_reverse.mp (hreverse ▸ List.mem_cons_self)
      exact List.dropWhile_cons_of_neg (fun heq => hbody c hc (beq_iff_eq.mp heq))
  rw [rstripPad, List.reverse_append, List.reverse_replicate, List.dropWhile_append_of_pos, hkeep,
    List.reverse_reverse]
  intro c hc
  rw [List.eq_of_mem_replicate hc, beq_self_eq_true]

theorem fromAltchars_toAltchars (c : UInt8) (hc : c ≠ 0x2D ∧ c ≠ 0x5F) :
    fromAltchars (toAltchars c) = c := by
  by_cases hplus : c = 0x2B
  · rw [hplus]
    rfl
  by_cases hslash : c = 0x2F
  · rw [hslash]
    rfl
  · rw [toAltchars, if_neg hplus, if_neg hslash, fromAltchars, if_neg hc.1, if_neg hc.2]

/-- The text without padding gets it back, and is decoded to what was encoded. -/
theorem b64decodeAltchars_rstrip (s : Bytes) :
    let stripped := rstripPad (urlsafeB64encode s)
    pad ∉ stripped
      ∧ b64decodeAltchars (stripped++List.replicate ((4-stripped.length%4)%4) pad) = some s := by
  obtain ⟨body, padding, hencode, hdigits, hpadding⟩ := b64encode_eq s
  have hbody : ∀ c ∈ body, c ≠ pad ∧ c ≠ 0x2D ∧ c ≠ 0x5F := by
    intro c hc
    obtain ⟨n, hn, rfl⟩ := hdigits c hc
    exact digit_plain n hn
  have hpad : toAltchars pad = pad := by decide
  have hurlsafe : urlsafeB64encode s = body.map toAltchars++List.replicate padding pad := by
    rw [urlsafeB64encode, hencode, List.map_append, List.map_replicate, hpad]
  have hplain : ∀ c ∈ body.map toAltchars, c ≠ pad := by
    intro c hc
    obtain ⟨d, hd, rfl⟩ := List.mem_map.mp hc
    intro heq
    have hback := fromAltchars_toAltchars d (hbody d hd).2
    rw [heq] at hback
    exact (hbody d hd).1 hback.symm
  have hstripped : rstripPad (urlsafeB64encode s) = body.map toAltchars := by
    rw [hurlsafe]
    exact rstripPad_append _ padding hplain
  dsimp only
  rw [hstripped, List.length_map, hpadding]
  refine ⟨fun hmem => hplain pad hmem rfl, ?_⟩
  rw [b64decodeAltchars, List.map_append, List.map_map, List.map_replicate]
  have hback : body.map (fromAltchars ∘ toAltchars) = body := by
    calc body.map (fromAltchars ∘ toAltchars)
        = body.map id := List.map_congr_left (fun c hc => fromAltchars_toAltchars c (hbody c hc).2)
      _ = body := List.map_id body
  rw [hback]
  show a2bBase64 (body++List.replicate padding pad) = some s
  rw [← hencode]
  exact a2bBase64_b64encode s

end Base64

end ConferWorker
