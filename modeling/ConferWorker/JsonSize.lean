import ConferWorker.JsonText

/-! Which JSON values can be sent, and how many bytes they take. -/
namespace ConferWorker

namespace Json

/-- The bytes of a string between its quotes and with them. -/
def quotedSize (s : Str) : ℕ := 2+(s.map (fun c => (utf8 (escapeCharacter c)).length)).sum

mutual

/-- The length of the compact text of a value. In an array every item is
followed by a comma or the closing bracket. -/
def size : Json → ℕ
  | .null => 4
  | .bool value => if value then 4 else 5
  | .int value => (intText value).length
  | .float text => (utf8 text).length
  | .str value => quotedSize value
  | .bytes _ => 0
  | .arr items => max 2 (1+itemsSize items)
  | .obj members => max 2 (1+membersSize members)

def itemsSize : List Json → ℕ
  | [] => 0
  | item :: items => size item+1+itemsSize items

def membersSize : List (Str × Json) → ℕ
  | [] => 0
  | (name, value) :: members => quotedSize name+1+size value+1+membersSize members

end

mutual

/-- `json.dumps` and the encoding as UTF-8 both return. -/
def Dumpable : Json → Prop
  | .null => True
  | .bool _ => True
  | .int value => value.natAbs < intLimit
  | .float text => Encodable text
  | .str value => Encodable value
  | .bytes _ => False
  | .arr items => ItemsDumpable items
  | .obj members => MembersDumpable members

def ItemsDumpable : List Json → Prop
  | [] => True
  | item :: items => Dumpable item ∧ ItemsDumpable items

def MembersDumpable : List (Str × Json) → Prop
  | [] => True
  | (name, value) :: members => Encodable name ∧ Dumpable value ∧ MembersDumpable members

end

theorem utf8_length_ascii (s : Str) (h : ∀ c ∈ s, c.val < 0x80) :
    (utf8 s).length = s.length := by
  induction s with
  | nil => rfl
  | cons c s ih =>
    obtain ⟨hc, hs⟩ := List.forall_mem_cons.mp h
    have hone : (utf8Bytes c).length = 1 := by
      simp only [utf8Bytes, if_pos hc, List.length_singleton]
    rw [utf8_cons, List.length_append, List.length_cons, ih hs, hone, Nat.add_comm]

theorem encodable_ascii (s : Str) (h : ∀ c ∈ s, c.val < 0x80) : Encodable s := by
  intro c hc
  have hlt := h c hc
  simp only [isSurrogate, decide_eq_false_iff_not]
  omega

theorem escapeCharacter_encodable (c : CodePoint) :
    Encodable (escapeCharacter c) ↔ isSurrogate c = false := by
  have hsurrogate (h : c.val < 0x80) : isSurrogate c = false := by
    simp only [isSurrogate, decide_eq_false_iff_not]
    omega
  have hdigit (n : ℕ) (h : n < 16) : (hexDigit n).val < 0x80 := by
    unfold hexDigit
    rw [ofNat_val _ (by split_ifs <;> omega)]
    split_ifs <;> omega
  unfold escapeCharacter
  split_ifs with h1 h2 h3 h4 h5 h6 h7 h8
  -- every escape is ASCII, and so is every escaped character
  · exact ⟨fun _ => hsurrogate (by rw [h1]; decide), fun _ => by decide⟩
  · exact ⟨fun _ => hsurrogate (by rw [h2]; decide), fun _ => by decide⟩
  · exact ⟨fun _ => hsurrogate (by rw [h3]; decide), fun _ => by decide⟩
  · exact ⟨fun _ => hsurrogate (by rw [h4]; decide), fun _ => by decide⟩
  · exact ⟨fun _ => hsurrogate (by rw [h5]; decide), fun _ => by decide⟩
  · exact ⟨fun _ => hsurrogate (by rw [h6]; decide), fun _ => by decide⟩
  · exact ⟨fun _ => hsurrogate (by rw [h7]; decide), fun _ => by decide⟩
  · refine ⟨fun _ => hsurrogate (by omega), fun _ => ?_⟩
    rw [encodable_append, encodable_cons, encodable_cons]
    refine ⟨by decide, ?_, ?_, encodable_nil⟩
    · exact encodable_ascii _ (fun d hd => by
        rw [List.mem_singleton.mp hd]
        exact hdigit _ (by omega)) _ List.mem_cons_self
    · exact encodable_ascii _ (fun d hd => by
        rw [List.mem_singleton.mp hd]
        exact hdigit _ (by omega)) _ List.mem_cons_self
  · rw [encodable_cons]
    exact ⟨And.left, fun h => ⟨h, encodable_nil⟩⟩

theorem quote_encodable (s : Str) : Encodable (quote s) ↔ Encodable s := by
  have hquote : isSurrogate 0x22 = false := by decide
  rw [quote, encodable_append, encodable_append, encodable_cons]
  simp only [hquote, encodable_nil, and_true, true_and]
  induction s with
  | nil => simp
  | cons c s ih =>
    rw [List.flatMap_cons, encodable_append, encodable_cons, escapeCharacter_encodable]
    exact and_congr_right (fun _ => ih)

theorem quote_length (s : Str) : (utf8 (quote s)).length = quotedSize s := by
  have hquote : (utf8 [0x22]).length = 1 := rfl
  have hbody : (utf8 (s.flatMap escapeCharacter)).length
      = (s.map (fun c => (utf8 (escapeCharacter c)).length)).sum := by
    induction s with
    | nil => rfl
    | cons c s ih => rw [List.flatMap_cons, utf8_append, List.length_append, ih, List.map_cons,
        List.sum_cons]
  rw [quote, utf8_append, utf8_append, List.length_append, List.length_append, hquote, hbody,
    quotedSize]
  omega

theorem intText_ascii (n : ℤ) : ∀ c ∈ intText n, c.val < 0x80 := by
  have hdigits : ∀ c ∈ strOfNat n.natAbs, c.val < 0x80 := by
    intro c hc
    have hrange := strOfNat_digits n.natAbs c hc
    omega
  unfold intText
  split_ifs
  · exact List.forall_mem_cons.mpr ⟨by decide, hdigits⟩
  · exact hdigits

/-- The length of items in brackets with commas between them. -/
theorem bracketed_length (left right : CodePoint) (hleft : (utf8Bytes left).length = 1)
    (hright : (utf8Bytes right).length = 1) (texts : List Str) :
    (utf8 ([left]++[0x2C].intercalate texts++[right])).length
      = max 2 (1+(texts.map (fun text => (utf8 text).length+1)).sum) := by
  have hcomma : (utf8 [0x2C]).length = 1 := rfl
  have hjoined (texts : List Str) : texts ≠ [] → (utf8 ([0x2C].intercalate texts)).length+1
      = (texts.map (fun text => (utf8 text).length+1)).sum := by
    intro hne
    induction texts with
    | nil => exact absurd rfl hne
    | cons text texts ih =>
      rcases eq_or_ne texts [] with rfl | hrest
      · simp
      · rw [intercalate_cons _ _ _ hrest, utf8_append, utf8_append, List.length_append,
          List.length_append, List.map_cons, List.sum_cons, ← ih hrest, hcomma]
        omega
  rw [utf8_append, utf8_append, List.length_append, List.length_append, utf8_cons, utf8_cons,
    utf8_nil, List.append_nil, List.append_nil, hleft, hright]
  rcases eq_or_ne texts [] with rfl | hne
  · rfl
  · have hsum := hjoined texts hne
    omega

theorem bracketed_encodable (left right : CodePoint) (hleft : isSurrogate left = false)
    (hright : isSurrogate right = false) (texts : List Str) :
    Encodable ([left]++[0x2C].intercalate texts++[right]) ↔ ∀ text ∈ texts, Encodable text := by
  rw [encodable_append, encodable_append, encodable_cons, encodable_cons]
  simp only [hleft, hright, encodable_nil, and_true, true_and]
  have hcomma : Encodable [0x2C] := by decide
  induction texts with
  | nil => simp
  | cons text texts ih =>
    rw [List.forall_mem_cons]
    rcases eq_or_ne texts [] with rfl | hrest
    · simp
    · rw [intercalate_cons _ _ _ hrest, encodable_append, encodable_append]
      simp only [hcomma, and_true]
      exact and_congr_right (fun _ => ih)

mutual

/-- What `json.dumps` and the encoding accept, and how long the result is. -/
theorem dumps_sound : (value : Json) → (text : Str) → dumps value = .ok text → Encodable text →
    Dumpable value ∧ (utf8 text).length = size value
  | .null, text, h, _ => by
    simp only [dumps, pure_eq_ok] at h
    subst h
    exact ⟨trivial, rfl⟩
  | .bool value, text, h, _ => by
    simp only [dumps, pure_eq_ok] at h
    subst h
    refine ⟨trivial, ?_⟩
    cases value <;> rfl
  | .int value, text, h, _ => by
    simp only [dumps, dumpsInt, bind_eq_ok, raiseIf_eq_ok, pure_eq_ok, not_le] at h
    obtain ⟨_, hdigits, rfl⟩ := h
    exact ⟨hdigits, utf8_length_ascii _ (intText_ascii value)⟩
  | .float value, text, h, hencodable => by
    simp only [dumps, pure_eq_ok] at h
    subst h
    exact ⟨hencodable, rfl⟩
  | .str value, text, h, hencodable => by
    simp only [dumps, pure_eq_ok] at h
    subst h
    exact ⟨(quote_encodable value).mp hencodable, quote_length value⟩
  | .bytes value, text, h, _ => by
    rw [dumps] at h
    cases h
  | .arr items, text, h, hencodable => by
    simp only [dumps, bind_eq_ok, pure_eq_ok] at h
    obtain ⟨texts, htexts, rfl⟩ := h
    rw [bracketed_encodable _ _ rfl rfl] at hencodable
    obtain ⟨hitems, hsize⟩ := dumpsItems_sound items texts htexts hencodable
    rw [bracketed_length _ _ rfl rfl, hsize, size]
    exact ⟨hitems, rfl⟩
  | .obj members, text, h, hencodable => by
    simp only [dumps, bind_eq_ok, pure_eq_ok] at h
    obtain ⟨texts, htexts, rfl⟩ := h
    rw [bracketed_encodable _ _ rfl rfl] at hencodable
    obtain ⟨hmembers, hsize⟩ := dumpsMembers_sound members texts htexts hencodable
    rw [bracketed_length _ _ rfl rfl, hsize, size]
    exact ⟨hmembers, rfl⟩

theorem dumpsItems_sound : (items : List Json) → (texts : List Str) →
    dumpsItems items = .ok texts → (∀ text ∈ texts, Encodable text) →
    ItemsDumpable items ∧
      (texts.map (fun text => (utf8 text).length+1)).sum = itemsSize items
  | [], texts, h, _ => by
    simp only [dumpsItems, pure_eq_ok] at h
    subst h
    exact ⟨trivial, rfl⟩
  | item :: items, texts, h, hencodable => by
    simp only [dumpsItems, bind_eq_ok, pure_eq_ok] at h
    obtain ⟨text, htext, rest, hrest, rfl⟩ := h
    obtain ⟨hfirst, hothers⟩ := List.forall_mem_cons.mp hencodable
    obtain ⟨hitem, hsize⟩ := dumps_sound item text htext hfirst
    obtain ⟨hitems, hsizes⟩ := dumpsItems_sound items rest hrest hothers
    rw [List.map_cons, List.sum_cons, hsize, hsizes, itemsSize]
    exact ⟨⟨hitem, hitems⟩, rfl⟩

theorem dumpsMembers_sound : (members : List (Str × Json)) → (texts : List Str) →
    dumpsMembers members = .ok texts → (∀ text ∈ texts, Encodable text) →
    MembersDumpable members ∧
      (texts.map (fun text => (utf8 text).length+1)).sum = membersSize members
  | [], texts, h, _ => by
    simp only [dumpsMembers, pure_eq_ok] at h
    subst h
    exact ⟨trivial, rfl⟩
  | (name, value) :: members, texts, h, hencodable => by
    simp only [dumpsMembers, bind_eq_ok, pure_eq_ok] at h
    obtain ⟨text, htext, rest, hrest, rfl⟩ := h
    obtain ⟨hfirst, hothers⟩ := List.forall_mem_cons.mp hencodable
    rw [encodable_append, encodable_append, quote_encodable] at hfirst
    obtain ⟨⟨hname, _⟩, hvalue⟩ := hfirst
    obtain ⟨hdumpable, hsize⟩ := dumps_sound value text htext hvalue
    obtain ⟨hmembers, hsizes⟩ := dumpsMembers_sound members rest hrest hothers
    have hcolon : (utf8 [0x3A]).length = 1 := rfl
    rw [List.map_cons, List.sum_cons, hsizes, utf8_append, utf8_append, List.length_append,
      List.length_append, quote_length, hsize, hcolon, membersSize]
    exact ⟨⟨hname, hdumpable, hmembers⟩, rfl⟩

end

mutual

theorem dumps_complete : (value : Json) → Dumpable value →
    ∃ text, dumps value = .ok text ∧ Encodable text
  | .null, _ => ⟨_, rfl, by decide⟩
  | .bool value, _ => ⟨_, rfl, by cases value <;> decide⟩
  | .int value, h => by
    refine ⟨intText value, ?_, encodable_ascii _ (intText_ascii value)⟩
    rw [dumps, dumpsInt, raiseIf_of_not _ (not_le.mpr h)]
    rfl
  | .float text, h => ⟨text, rfl, h⟩
  | .str value, h => ⟨quote value, rfl, (quote_encodable value).mpr h⟩
  | .bytes _, h => by cases h
  | .arr items, h => by
    obtain ⟨texts, htexts, hencodable⟩ := dumpsItems_complete items h
    refine ⟨_, ?_, (bracketed_encodable 0x5B 0x5D rfl rfl texts).mpr hencodable⟩
    rw [dumps, htexts]
    rfl
  | .obj members, h => by
    obtain ⟨texts, htexts, hencodable⟩ := dumpsMembers_complete members h
    refine ⟨_, ?_, (bracketed_encodable 0x7B 0x7D rfl rfl texts).mpr hencodable⟩
    rw [dumps, htexts]
    rfl

theorem dumpsItems_complete : (items : List Json) → ItemsDumpable items →
    ∃ texts, dumpsItems items = .ok texts ∧ ∀ text ∈ texts, Encodable text
  | [], _ => ⟨[], rfl, List.forall_mem_nil _⟩
  | item :: items, h => by
    obtain ⟨text, htext, hfirst⟩ := dumps_complete item h.1
    obtain ⟨texts, htexts, hothers⟩ := dumpsItems_complete items h.2
    refine ⟨text :: texts, ?_, List.forall_mem_cons.mpr ⟨hfirst, hothers⟩⟩
    rw [dumpsItems, htext, ok_bind, htexts]
    rfl

theorem dumpsMembers_complete : (members : List (Str × Json)) → MembersDumpable members →
    ∃ texts, dumpsMembers members = .ok texts ∧ ∀ text ∈ texts, Encodable text
  | [], _ => ⟨[], rfl, List.forall_mem_nil _⟩
  | (name, value) :: members, h => by
    obtain ⟨text, htext, hvalue⟩ := dumps_complete value h.2.1
    obtain ⟨texts, htexts, hothers⟩ := dumpsMembers_complete members h.2.2
    refine ⟨(quote name++[0x3A]++text) :: texts, ?_, List.forall_mem_cons.mpr ⟨?_, hothers⟩⟩
    · rw [dumpsMembers, htext, ok_bind, htexts]
      rfl
    · rw [encodable_append, encodable_append, quote_encodable]
      exact ⟨⟨h.1, by decide⟩, hvalue⟩

end

/-- A value is sent as JSON exactly when it is dumpable, and takes `size` bytes. -/
theorem encode_spec (value : Json) :
    ((∃ bytes, value.encode = .ok bytes) ↔ Dumpable value) ∧
      ∀ bytes, value.encode = .ok bytes → bytes.length = size value := by
  have hsound (bytes : Bytes) (h : value.encode = .ok bytes) :
      Dumpable value ∧ bytes.length = size value := by
    simp only [encode, bind_eq_ok, encodeText_eq_ok] at h
    obtain ⟨text, htext, hencodable, rfl⟩ := h
    exact dumps_sound value text htext hencodable
  refine ⟨⟨?_, ?_⟩, fun bytes h => (hsound bytes h).2⟩
  · intro h
    obtain ⟨bytes, hbytes⟩ := h
    exact (hsound bytes hbytes).1
  · intro h
    obtain ⟨text, htext, hencodable⟩ := dumps_complete value h
    refine ⟨utf8 text, ?_⟩
    rw [encode, htext, ok_bind, encodeText_eq_ok]
    exact ⟨hencodable, rfl⟩

theorem escapeCharacter_length_le (c : CodePoint) :
    (utf8 (escapeCharacter c)).length ≤ 6*(utf8Bytes c).length := by
  have hpos := utf8Bytes_length_pos c
  have hescape : ∀ s : Str, s.all (fun d => d.val < 0x80) = true → s.length ≤ 6 →
      (utf8 s).length ≤ 6*(utf8Bytes c).length := by
    intro s hs hlength
    rw [utf8_length_ascii s (by simpa only [List.all_eq_true, decide_eq_true_eq] using hs)]
    omega
  have hdigit (n : ℕ) (h : n < 16) : (hexDigit n).val < 0x80 := by
    unfold hexDigit
    rw [ofNat_val _ (by split_ifs <;> omega)]
    split_ifs <;> omega
  unfold escapeCharacter
  split_ifs
  · exact hescape _ (by decide) (by decide)
  · exact hescape _ (by decide) (by decide)
  · exact hescape _ (by decide) (by decide)
  · exact hescape _ (by decide) (by decide)
  · exact hescape _ (by decide) (by decide)
  · exact hescape _ (by decide) (by decide)
  · exact hescape _ (by decide) (by decide)
  · have hfront : (ofString "\\u00").all (fun d => d.val < 0x80) = true := by decide
    have hfour : (ofString "\\u00").length = 4 := by decide
    apply hescape
    · rw [List.all_append, hfront]
      simp only [List.all_cons, List.all_nil, hdigit (c.val/16) (by omega),
        hdigit (c.val%16) (by omega), decide_true, Bool.and_true]
    · rw [List.length_append, hfour]
      simp only [List.length_cons, List.length_nil]
      omega
  · rw [utf8_cons, utf8_nil, List.append_nil]
    omega

/-- Escaping makes a text at most six times as long. -/
theorem quotedSize_le (s : Str) : quotedSize s ≤ 2+6*(utf8 s).length := by
  have hbody : (s.map (fun c => (utf8 (escapeCharacter c)).length)).sum ≤ 6*(utf8 s).length := by
    induction s with
    | nil => exact Nat.zero_le _
    | cons c s ih =>
      have hc := escapeCharacter_length_le c
      rw [List.map_cons, List.sum_cons, utf8_cons, List.length_append]
      omega
  unfold quotedSize
  omega

end Json

end ConferWorker
