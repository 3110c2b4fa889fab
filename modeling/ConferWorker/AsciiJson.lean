import ConferWorker.JsonText

/-! JSON text in ASCII, as `json.dumps` writes it by default, and its bytes. -/
namespace ConferWorker

/-- `s.encode("ascii")`: `none` where it raises. -/
def encodeAscii (s : Str) : Option Bytes :=
  if s.all (fun c => c.val < 0x80) then some (s.map (fun c => UInt8.ofNat c.val)) else none

namespace Json

/-- What stands for a character with `ensure_ascii=True`. -/
def asciiEscape (c : CodePoint) : Str :=
  let escaped (n : ℕ) : Str :=
    ofString "\\u"++[hexDigit (n/4096%16), hexDigit (n/256%16), hexDigit (n/16%16), hexDigit (n%16)]
  if 0x20 ≤ c.val ∧ c.val ≤ 0x7E then [c]
  else if c.val < 0x10000 then escaped c.val
  else escaped (0xD800+(c.val-0x10000)/1024)++escaped (0xDC00+(c.val-0x10000)%1024)

/-- `json.dumps(value, separators=(",", ":"))`. -/
def dumpsAscii (value : Json) : Except PythonError Str := do
  let text ← value.dumps
  pure (text.flatMap asciiEscape)

theorem hexDigit_ascii (n : ℕ) : (hexDigit (n%16)).val < 0x80 := by
  have hdigit : n%16 < 16 := Nat.mod_lt n (by decide)
  rw [hexDigit, ofNat_val]
  · split_ifs
    · omega
    · omega
  · split_ifs
    · omega
    · omega

theorem asciiEscape_ascii (c d : CodePoint) (h : d ∈ asciiEscape c) : d.val < 0x80 := by
  have hescaped (n : ℕ) : ∀ d ∈ ofString "\\u"++[hexDigit (n/4096%16), hexDigit (n/256%16),
      hexDigit (n/16%16), hexDigit (n%16)], d.val < 0x80 := by
    have hfront : (ofString "\\u").all (fun d => d.val < 0x80) = true := by decide
    intro d hd
    rcases List.mem_append.mp hd with hd | hd
    · exact of_decide_eq_true (List.all_eq_true.mp hfront d hd)
    · simp only [List.mem_cons, List.not_mem_nil, or_false] at hd
      obtain rfl | rfl | rfl | rfl := hd
      · exact hexDigit_ascii _
      · exact hexDigit_ascii _
      · exact hexDigit_ascii _
      · exact hexDigit_ascii _
  unfold asciiEscape at h
  dsimp only at h
  split_ifs at h with hplain hsmall
  · rw [List.mem_singleton.mp h]
    omega
  · exact hescaped _ d h
  · rcases List.mem_append.mp h with h | h
    · exact hescaped _ d h
    · exact hescaped _ d h

/-- An array of values that have texts has one, and so has an object. -/
theorem dumps_arr_exists {items : List Json} (h : ∀ item ∈ items, ∃ text, item.dumps = .ok text) :
    ∃ text, (arr items).dumps = .ok text := by
  have hitems : ∃ texts, dumpsItems items = .ok texts := by
    induction items with
    | nil => exact ⟨[], rfl⟩
    | cons item items ih =>
      obtain ⟨⟨text, htext⟩, hrest⟩ := List.forall_mem_cons.mp h
      obtain ⟨texts, htexts⟩ := ih hrest
      refine ⟨text :: texts, ?_⟩
      rw [dumpsItems, htext, ok_bind, htexts]
      rfl
  obtain ⟨texts, htexts⟩ := hitems
  refine ⟨[0x5B]++[0x2C].intercalate texts++[0x5D], ?_⟩
  rw [dumps, htexts]
  rfl

theorem dumps_obj_exists {members : List (Str × Json)}
    (h : ∀ member ∈ members, ∃ text, member.2.dumps = .ok text) :
    ∃ text, (obj members).dumps = .ok text := by
  have hmembers : ∃ texts, dumpsMembers members = .ok texts := by
    induction members with
    | nil => exact ⟨[], rfl⟩
    | cons member members ih =>
      obtain ⟨⟨text, htext⟩, hrest⟩ := List.forall_mem_cons.mp h
      obtain ⟨texts, htexts⟩ := ih hrest
      refine ⟨(quote member.1++[0x3A]++text) :: texts, ?_⟩
      rw [dumpsMembers, htext, ok_bind, htexts]
      rfl
  obtain ⟨texts, htexts⟩ := hmembers
  refine ⟨[0x7B]++[0x2C].intercalate texts++[0x7D], ?_⟩
  rw [dumps, htexts]
  rfl

/-- The text is ASCII, whatever is in the strings. -/
theorem dumpsAscii_encodes {value : Json} {text : Str} (h : value.dumpsAscii = .ok text) :
    encodeAscii text = some (text.map (fun c => UInt8.ofNat c.val)) := by
  rw [dumpsAscii, bind_eq_ok] at h
  obtain ⟨plain, -, htext⟩ := h
  obtain rfl := (pure_eq_ok _ _).mp htext
  apply if_pos
  rw [List.all_eq_true]
  intro d hd
  obtain ⟨c, -, hescape⟩ := List.mem_flatMap.mp hd
  exact decide_eq_true (asciiEscape_ascii c d hescape)

end Json

end ConferWorker
