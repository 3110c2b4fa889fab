import ConferWorker.TsvRows

/-! The block of a line: the numbers from which it can be made, and the text that it has. -/
namespace ConferWorker

/-- The value of `int(field)`, 0 where there is none. -/
def integerOf (field : Str) : ℤ := ((readInt field).toOption).getD 0

/-- A number of pixels that a double holds exactly. -/
def IsPixels (field : Str) : Prop := ∃ n, readInt field = .ok n ∧ 0 ≤ n ∧ n ≤ 2^53

/-- A number whose float is at most 100; negative ones stand for no confidence. -/
def IsPercentage (field : Str) : Prop := ∃ value, readFloat field = .ok (.finite value) ∧ value ≤ 100

/-- The numbers of a word are what Tesseract prints. -/
structure WordInRange (word : TsvRow) : Prop where
  left : IsPixels word.left
  top : IsPixels word.top
  width : IsPixels word.width
  height : IsPixels word.height
  confidence : IsPercentage word.conf

/-- The page begins at no negative place and is at most `2^53` wide and high, on at most as many
pixels. -/
structure PageInRange (image : RasterImage) : Prop where
  width : image.width ≤ 2^53
  height : image.height ≤ 2^53
  x0 : 0 ≤ image.pageX0 ∧ image.pageX0 ≤ 2^53
  y0 : 0 ≤ image.pageY0 ∧ image.pageY0 ≤ 2^53
  page_width : 0 ≤ image.pageWidth ∧ image.pageWidth ≤ 2^53
  page_height : 0 ≤ image.pageHeight ∧ image.pageHeight ≤ 2^53

/-- The words of a line are in range, and not more than memory holds. -/
structure LineInRange (words : List TsvRow) : Prop where
  count : words.length ≤ 2^50
  words : ∀ word ∈ words, WordInRange word

theorem IsPixels.read {field : Str} (h : IsPixels field) :
    readInt field = .ok (integerOf field) ∧ 0 ≤ integerOf field ∧ integerOf field ≤ 2^53 := by
  obtain ⟨n, hread, hrange⟩ := h
  have hvalue : integerOf field = n := by
    rw [integerOf, hread]
    rfl
  rw [hvalue]
  exact ⟨hread, hrange⟩

namespace TesseractTsvParser

open Binary64 PythonFloat

theorem ofInt_small {n : ℤ} (hpos : 0 ≤ n) (h : n ≤ 2^54) :
    ofInt n = .ok (.finite (nearest n)) ∧ 0 ≤ nearest n ∧ nearest n ≤ 2^54 := by
  have hcast : (0 : ℚ) ≤ n := by exact_mod_cast hpos
  have hle : (n : ℚ) ≤ 2^54 := by exact_mod_cast h
  have hnonneg : 0 ≤ nearest (n : ℚ) := nearest_nonneg hcast
  have hbound : nearest (n : ℚ) ≤ 2^54 := nearest_le (isDouble_two_pow 54) hle
  refine ⟨if_pos ?_, hnonneg, hbound⟩
  rw [abs_of_nonneg hnonneg]
  exact hbound.trans_lt (pow_lt_pow_right₀ (by norm_num) (by norm_num))

/-- A count that a double holds exactly is its own float. -/
theorem ofInt_natCast {n : ℕ} (h : n ≤ 2^53) : ofInt n = .ok (.finite n) := by
  obtain ⟨hint, -, -⟩ := ofInt_small (Int.natCast_nonneg n)
    (by exact_mod_cast h.trans (by norm_num))
  rw [hint, Int.cast_natCast, nearest_of_isDouble (isDouble_natCast h)]

theorem div_small {x y : ℚ} {k : ℕ} (hk : k < 1024) (hy : y ≠ 0) (h : |x/y| ≤ 2^k) :
    (finite x).div (.finite y) = .ok (.finite (nearest (x/y))) := by
  have hzero : ¬(finite y = .finite 0) := fun hsame => hy (PythonFloat.finite.inj hsame)
  rw [div, if_neg hzero]
  exact congrArg Except.ok (ofExact_small hk h).1

/-- A page of at most so many points on some pixels. -/
theorem pixelScale_inRange {size : ℚ} {pixels : ℕ} (hpixels : 0 < pixels ∧ pixels ≤ 2^53)
    (hsize : 0 ≤ size ∧ size ≤ 2^53) :
    ∃ scale, pixelScale size pixels = .ok (.finite scale) ∧ 0 ≤ scale ∧ scale ≤ 2^53 := by
  have hone : (1 : ℚ) ≤ pixels := by exact_mod_cast hpixels.1
  have hquotient : 0 ≤ size/pixels := div_nonneg hsize.1 (by linarith)
  have hle : size/pixels ≤ 2^53 := (div_le_self hsize.1 hone).trans hsize.2
  refine ⟨nearest (size/pixels), ?_, nearest_nonneg hquotient,
    nearest_le (isDouble_two_pow 53) hle⟩
  rw [pixelScale, ofInt_natCast hpixels.2, ok_bind]
  exact div_small (by norm_num : 53 < 1024) (by linarith) (by rwa [abs_of_nonneg hquotient])

/-- The place of some pixels on the page. -/
def positionOf (origin scale : ℚ) (pixels : ℤ) : ℚ :=
  roundHundredths (nearest (origin+nearest (nearest pixels*scale)))

theorem roundHundredths_mono {x y : ℚ} (h : x ≤ y) : roundHundredths x ≤ roundHundredths y := by
  refine nearest_mono (div_le_div_of_nonneg_right ?_ (by norm_num))
  exact_mod_cast roundEven_mono (by linarith : 100*x ≤ 100*y)

theorem positionOf_mono {origin scale : ℚ} {a b : ℤ} (hscale : 0 ≤ scale) (h : a ≤ b) :
    positionOf origin scale a ≤ positionOf origin scale b := by
  have hpixels : nearest (a : ℚ)*scale ≤ nearest (b : ℚ)*scale :=
    mul_le_mul_of_nonneg_right (nearest_mono (by exact_mod_cast h)) hscale
  exact roundHundredths_mono (nearest_mono (add_le_add_right (nearest_mono hpixels) origin))

theorem positionOf_nonneg {origin scale : ℚ} {a : ℤ} (horigin : 0 ≤ origin) (hscale : 0 ≤ scale)
    (ha : 0 ≤ a) : 0 ≤ positionOf origin scale a := by
  have hpixels : 0 ≤ nearest (a : ℚ) := nearest_nonneg (by exact_mod_cast ha)
  have hplace : 0 ≤ nearest (origin+nearest (nearest (a : ℚ)*scale)) :=
    nearest_nonneg (add_nonneg horigin (nearest_nonneg (mul_nonneg hpixels hscale)))
  have hzero : roundHundredths 0 = 0 := by
    have hround : roundEven (100*0) = 0 := by
      rw [mul_zero]
      exact_mod_cast roundEven_intCast 0
    rw [roundHundredths, hround, Int.cast_zero, zero_div, nearest_of_isDouble isDouble_zero]
  exact hzero.symm.trans_le (roundHundredths_mono hplace)

theorem pagePosition_inRange {origin scale : ℚ} {pixels : ℤ} (horigin : 0 ≤ origin ∧ origin ≤ 2^53)
    (hscale : 0 ≤ scale ∧ scale ≤ 2^53) (hpixels : 0 ≤ pixels ∧ pixels ≤ 2^54) :
    pagePosition origin (.finite scale) pixels = .ok (.finite (positionOf origin scale pixels)) := by
  obtain ⟨hint, hnonneg, hbound⟩ := ofInt_small hpixels.1 hpixels.2
  -- neither the product nor the sum overflows
  have hproduct : |nearest (pixels : ℚ)*scale| ≤ 2^107 := by
    rw [abs_of_nonneg (mul_nonneg hnonneg hscale.1)]
    calc nearest (pixels : ℚ)*scale ≤ 2^54*2^53 :=
          mul_le_mul hbound hscale.2 hscale.1 (by norm_num)
      _ = 2^107 := by norm_num
  obtain ⟨hmul, hmulBound⟩ := ofExact_small (by norm_num) hproduct
  have horiginBound : |origin| ≤ 2^107 := by
    rw [abs_of_nonneg horigin.1]
    exact horigin.2.trans (pow_le_pow_right₀ (by norm_num) (by norm_num))
  obtain ⟨hadd, -⟩ := add_small (by norm_num) horiginBound hmulBound
  have hfloat : (finite (nearest (pixels : ℚ))).mul (.finite scale)
      = .finite (nearest (nearest (pixels : ℚ)*scale)) := hmul
  rw [pagePosition, hint, ok_bind, hfloat, hadd]
  rfl

end TesseractTsvParser

/-- `max(0.0, float(field)) / 100` where the float is finite. -/
def confidenceOf (field : Str) : ℚ :=
  match readFloat field with
  | .ok (.finite value) => Binary64.nearest (max 0 value/100)
  | _ => 0

namespace TsvRow

open TesseractTsvParser Binary64

variable {row : TsvRow}

theorem intItem_dict {key field : Str} (hkey : row.dict key = some (some field))
    (hpixels : IsPixels field) : intItem row.dict key = .ok (integerOf field) := by
  rw [intItem, DictRow.item, hkey, ok_bind]
  exact hpixels.read.1

theorem sumItem_dict {first second a b : Str} (hfirst : row.dict first = some (some a))
    (hsecond : row.dict second = some (some b)) (ha : IsPixels a) (hb : IsPixels b) :
    sumItem row.dict first second = .ok (integerOf a+integerOf b) := by
  rw [sumItem, intItem_dict hfirst ha, ok_bind, intItem_dict hsecond hb]
  rfl

theorem confidence_dict (h : IsPercentage row.conf) :
    confidence row.dict = .ok (.finite (confidenceOf row.conf)) ∧
      IsDouble (confidenceOf row.conf) ∧ 0 ≤ confidenceOf row.conf ∧ confidenceOf row.conf ≤ 1 := by
  obtain ⟨value, hread, hvalue⟩ := h
  have hconfidence : confidenceOf row.conf = nearest (max 0 value/100) := by
    rw [confidenceOf, hread]
  have hpos : 0 ≤ max 0 value/100 := div_nonneg (le_max_left _ _) (by norm_num)
  have hle : max 0 value/100 ≤ 1 := by
    rw [div_le_one (by norm_num)]
    exact max_le (by norm_num) hvalue
  rw [hconfidence]
  refine ⟨?_, isDouble_nearest _, nearest_nonneg hpos, nearest_le isDouble_one hle⟩
  rw [confidence, DictRow.item, dict_conf, ok_bind]
  change (readFloat row.conf >>= fun value => value.maxZero.div (.finite 100)) = _
  rw [hread, ok_bind]
  exact div_small (by norm_num : 0 < 1024) (by norm_num)
    (by rw [abs_of_nonneg hpos, pow_zero]; exact hle)

end TsvRow

section Line

open TesseractTsvParser Binary64

variable {image : RasterImage} {words : List TsvRow} {xScale yScale : PythonFloat}
  {block : TextBlock}

theorem meanConfidence_inRange (inRange : LineInRange words) (hsome : words ≠ []) :
    ∃ mean, meanConfidence (words.map (fun word => PythonFloat.finite (confidenceOf word.conf)))
      = .ok (.finite mean) ∧ 0 ≤ mean ∧ mean ≤ 1 := by
  have hvalues : ∀ x ∈ words.map (fun word => confidenceOf word.conf),
      IsDouble x ∧ 0 ≤ x ∧ x ≤ 1 := by
    intro x hx
    obtain ⟨word, hword, rfl⟩ := List.mem_map.mp hx
    exact (TsvRow.confidence_dict (inRange.words word hword).confidence).2
  have hlength : (words.map (fun word => confidenceOf word.conf)).length ≤ 2^50 := by
    rw [List.length_map]
    exact inRange.count
  have hcount : (words.length : ℚ) ≠ 0 := by
    exact_mod_cast fun hnil => hsome (List.length_eq_zero_iff.mp hnil)
  obtain ⟨hsumPos, hsumLe⟩ := compensatedSum_range hlength hvalues
  obtain ⟨hpos, hone⟩ := mean_range hlength hvalues
  have hint := ofInt_natCast (inRange.count.trans (by norm_num))
  have hsum := PythonFloat.sum_finite hlength hvalues
  rw [List.map_map] at hsum
  rw [List.length_map] at hsumLe hpos hone
  refine ⟨_, ?_, hpos, hone⟩
  have hquotient := div_nonneg hsumPos (Nat.cast_nonneg (α := ℚ) words.length)
  unfold meanConfidence
  rw [List.length_map, hint, ok_bind]
  have hfloats : PythonFloat.sum (words.map (fun word => .finite (confidenceOf word.conf)))
      = .finite (compensatedSum (words.map (fun word => confidenceOf word.conf))) := hsum
  rw [hfloats]
  exact div_small (by norm_num : 0 < 1024) hcount (by
    rw [abs_of_nonneg hquotient, pow_zero]
    exact div_le_one_of_le₀ hsumLe (Nat.cast_nonneg _))

theorem minimum_mem (numbers : List ℤ) (h : numbers ≠ []) :
    numbers.min?.getD 0 ∈ numbers ∧ ∀ n ∈ numbers, numbers.min?.getD 0 ≤ n := by
  obtain ⟨least, hleast⟩ := Option.isSome_iff_exists.mp (List.isSome_min?_iff.mpr h)
  rw [hleast, Option.getD_some]
  exact List.min?_eq_some_iff.mp hleast

theorem maximum_mem (numbers : List ℤ) (h : numbers ≠ []) :
    numbers.max?.getD 0 ∈ numbers ∧ ∀ n ∈ numbers, n ≤ numbers.max?.getD 0 := by
  obtain ⟨greatest, hgreatest⟩ := Option.isSome_iff_exists.mp (List.isSome_max?_iff.mpr h)
  rw [hgreatest, Option.getD_some]
  exact List.max?_eq_some_iff.mp hgreatest

/-- The first pixel of the words of a line along an axis. -/
def nearSide (words : List TsvRow) (start : TsvRow → Str) : ℤ :=
  (words.map (fun word => integerOf (start word))).min?.getD 0

/-- The pixel behind the last one. -/
def farSide (words : List TsvRow) (start size : TsvRow → Str) : ℤ :=
  (words.map (fun word => integerOf (start word)+integerOf (size word))).max?.getD 0

/-- Along an axis both sides have a place on the page, and the far one is not in front. -/
theorem sides_inRange {start size : TsvRow → Str} {origin scale : ℚ}
    (horigin : 0 ≤ origin ∧ origin ≤ 2^53) (hscale : 0 ≤ scale ∧ scale ≤ 2^53)
    (hsome : words ≠ []) (hstart : ∀ word ∈ words, IsPixels (start word))
    (hsize : ∀ word ∈ words, IsPixels (size word)) :
    pagePosition origin (.finite scale) (nearSide words start)
        = .ok (.finite (positionOf origin scale (nearSide words start)))
      ∧ pagePosition origin (.finite scale) (farSide words start size)
        = .ok (.finite (positionOf origin scale (farSide words start size)))
      ∧ 0 ≤ positionOf origin scale (nearSide words start)
      ∧ positionOf origin scale (nearSide words start)
        ≤ positionOf origin scale (farSide words start size) := by
  obtain ⟨hnear, -⟩ := minimum_mem (words.map (fun word => integerOf (start word)))
    (List.map_eq_nil_iff.not.mpr hsome)
  obtain ⟨hfar, hgreatest⟩ := maximum_mem
    (words.map (fun word => integerOf (start word)+integerOf (size word)))
    (List.map_eq_nil_iff.not.mpr hsome)
  obtain ⟨first, hfirst, hnearEq⟩ := List.mem_map.mp hnear
  obtain ⟨last, hlast, hfarEq⟩ := List.mem_map.mp hfar
  have hfirstStart := (hstart first hfirst).read.2
  have hfirstSize := (hsize first hfirst).read.2
  have hlastStart := (hstart last hlast).read.2
  have hlastSize := (hsize last hlast).read.2
  -- the word where the line begins ends no further right than the line
  have hend := hgreatest _ (List.mem_map_of_mem hfirst)
  rw [← nearSide] at hnearEq
  rw [← farSide] at hfarEq hend
  have hnearRange : 0 ≤ nearSide words start ∧ nearSide words start ≤ 2^54 := by
    omega
  have hfarRange : 0 ≤ farSide words start size ∧ farSide words start size ≤ 2^54 := by
    omega
  have hle : nearSide words start ≤ farSide words start size := by
    omega
  exact ⟨pagePosition_inRange horigin hscale hnearRange,
    pagePosition_inRange horigin hscale hfarRange,
    positionOf_nonneg horigin.1 hscale.1 hnearRange.1, positionOf_mono hscale.1 hle⟩

/-- A line in range becomes a block. -/
theorem lineBlock_inRange {x y : ℚ} (page : PageInRange image) (hx : 0 ≤ x ∧ x ≤ 2^53)
    (hy : 0 ≤ y ∧ y ≤ 2^53) (inRange : LineInRange words) (hsome : words ≠ []) :
    ∃ block, lineBlock image (.finite x) (.finite y) (words.map TsvRow.dict) = .ok block := by
  have hword (word : TsvRow) (hword : word ∈ words) := inRange.words word hword
  obtain ⟨hx0, hx1, hx0Pos, hx0Le⟩ := sides_inRange page.x0 hx hsome
    (fun word hmem => (hword word hmem).left) (fun word hmem => (hword word hmem).width)
  obtain ⟨hy0, hy1, hy0Pos, hy0Le⟩ := sides_inRange page.y0 hy hsome
    (fun word hmem => (hword word hmem).top) (fun word hmem => (hword word hmem).height)
  obtain ⟨mean, hmean, hmeanRange⟩ := meanConfidence_inRange inRange hsome
  -- each list of the source has a value for every word
  have hlefts := mapM_eq_ok_map (fun word : TsvRow => intItem word.dict (ofString "left")) _ words
    (fun word hmem => TsvRow.intItem_dict word.dict_left (hword word hmem).left)
  have htops := mapM_eq_ok_map (fun word : TsvRow => intItem word.dict (ofString "top")) _ words
    (fun word hmem => TsvRow.intItem_dict word.dict_top (hword word hmem).top)
  have hrights := mapM_eq_ok_map
    (fun word : TsvRow => sumItem word.dict (ofString "left") (ofString "width")) _ words
    (fun word hmem => TsvRow.sumItem_dict word.dict_left word.dict_width (hword word hmem).left
      (hword word hmem).width)
  have hbottoms := mapM_eq_ok_map
    (fun word : TsvRow => sumItem word.dict (ofString "top") (ofString "height")) _ words
    (fun word hmem => TsvRow.sumItem_dict word.dict_top word.dict_height (hword word hmem).top
      (hword word hmem).height)
  have hconfidences := mapM_eq_ok_map (fun word : TsvRow => confidence word.dict) _ words
    (fun word hmem => (TsvRow.confidence_dict (hword word hmem).confidence).1)
  have htexts := mapM_eq_ok_map (fun word : TsvRow => wordText word.dict) _ words
    (fun word _ => word.wordText_dict)
  simp only [nearSide, farSide] at hx0 hx1 hx0Pos hx0Le hy0 hy1 hy0Pos hy0Le
  have hrectangle := And.intro hx0Pos (And.intro hy0Pos (And.intro hx0Le hy0Le))
  refine ⟨⟨lineText words, ⟨_, _, _, _, hrectangle⟩, .ocr, mean, hmeanRange⟩, ?_⟩
  simp only [lineBlock, List.mapM_map, Function.comp_def, hlefts, htops, hrights, hbottoms,
    hconfidences, htexts, ok_bind]
  rw [hx0, ok_bind, hy0, ok_bind, hx1, ok_bind, hy1, ok_bind, createBounds, Bounds.create,
    dif_pos hrectangle, ok_bind, hmean, ok_bind]
  exact dif_pos hmeanRange

theorem text_of_createBlock {text : Str} {bounds : Bounds} {mean : PythonFloat}
    (h : createBlock text bounds mean = .ok block) : block.text = text := by
  cases mean with
  | finite value =>
    have hcreate : TextBlock.create text bounds .ocr value = .ok block := h
    unfold TextBlock.create at hcreate
    split_ifs at hcreate
    rw [← Except.ok.inj hcreate]
  | infinite negative => exact absurd h (by simp [createBlock])
  | nan => exact absurd h (by simp [createBlock])

/-- A block has the text of its line. -/
theorem text_of_lineBlock (h : lineBlock image xScale yScale (words.map TsvRow.dict) = .ok block) :
    block.text = lineText words := by
  have htexts := mapM_eq_ok_map (fun word : TsvRow => wordText word.dict) _ words
    (fun word _ => word.wordText_dict)
  simp only [lineBlock, bind_eq_ok, List.mapM_map, Function.comp_def, htexts,
    Except.ok.injEq] at h
  obtain ⟨_, -, _, -, _, -, _, -, _, -, _, rfl, _, -, _, -, _, -, _, -, bounds, -, mean, -, h⟩ := h
  exact text_of_createBlock h

end Line

/-- There are not more rows than memory holds, and the numbers of the words are what Tesseract
prints. -/
structure TsvInRange (rows : List TsvRow) : Prop where
  count : rows.length ≤ 2^50
  words : ∀ row ∈ rows, row.isWord = true → WordInRange row

/-- A line has words, no more than there are rows. -/
theorem tsvLines_words {rows words : List TsvRow} (hwords : words ∈ tsvLines rows) :
    words ≠ [] ∧ words.length ≤ rows.length
      ∧ ∀ word ∈ words, word ∈ rows ∧ word.isWord = true := by
  obtain ⟨key, hkey, rfl⟩ := List.mem_map.mp hwords
  obtain ⟨word, hword, hline⟩ := List.mem_map.mp ((mem_firstKeys _ _).mp hkey)
  refine ⟨List.ne_nil_of_mem (List.mem_filter.mpr ⟨hword, decide_eq_true hline⟩),
    (List.length_filter_le _ _).trans (List.length_filter_le _ _), fun other hother => ?_⟩
  exact List.mem_filter.mp (List.mem_of_mem_filter hother)

theorem TsvInRange.line {rows words : List TsvRow} (h : TsvInRange rows)
    (hwords : words ∈ tsvLines rows) : words ≠ [] ∧ LineInRange words := by
  obtain ⟨hsome, hlength, hmem⟩ := tsvLines_words hwords
  exact ⟨hsome, hlength.trans h.count, fun word hword =>
    h.words word (hmem word hword).1 (hmem word hword).2⟩

section Parse

open TesseractTsvParser

variable {image : RasterImage} {tsv : Str} {rows : List TsvRow} {blocks : List TextBlock}

/-- `parse` on a text that the CSV reader reads as the header and some rows. -/
theorem parse_eq (hread : csvReader 9 tsv
      = ⟨(tsvNames++[ofString "text"]) :: rows.map TsvRow.fields, none⟩) :
    parse tsv image = (do
      let xScale ← pixelScale image.pageWidth image.width
      let yScale ← pixelScale image.pageHeight image.height
      (tsvLines rows).mapM (fun words => lineBlock image xScale yScale (words.map TsvRow.dict))) := by
  have hrows : (rows.map TsvRow.fields).filter (fun row => row ≠ []) = rows.map TsvRow.fields := by
    apply List.filter_eq_self.mpr
    intro fields hfields
    obtain ⟨row, _, rfl⟩ := List.mem_map.mp hfields
    rfl
  have hdicts : dictReader 9 tsv = ⟨rows.map TsvRow.dict, none⟩ := by
    rw [dictReader, hread]
    show DictRows.mk (((rows.map TsvRow.fields).filter _).map _) none = _
    rw [hrows, List.map_map]
    rfl
  rw [parse, hdicts]
  show ((rows.map TsvRow.dict).foldlM addRow .empty >>= _) = _
  rw [addRow_rows, ok_bind]
  simp only [group_words, List.mapM_map, Function.comp_def]

/-- No list of blocks comes from a text that the CSV reader refuses. -/
theorem not_parse_of_failure {error : PythonError} (hread : (csvReader 9 tsv).failure = some error) :
    parse tsv image ≠ .ok blocks := by
  intro h
  rw [parse, bind_eq_ok] at h
  obtain ⟨lines, _, h⟩ := h
  have hfailure : (dictReader 9 tsv).failure = some error := by
    unfold dictReader
    cases hrows : (csvReader 9 tsv).rows with
    | nil => simpa [hrows] using hread
    | cons names rest => simpa [hrows] using hread
  rw [hfailure] at h
  exact absurd h (by simp)

/-- Rows in range become blocks. -/
theorem parse_inRange (hread : csvReader 9 tsv
      = ⟨(tsvNames++[ofString "text"]) :: rows.map TsvRow.fields, none⟩)
    (himage : 0 < image.width ∧ 0 < image.height) (page : PageInRange image)
    (inRange : TsvInRange rows) : ∃ blocks, parse tsv image = .ok blocks := by
  obtain ⟨x, hx, hxRange⟩ := pixelScale_inRange ⟨himage.1, page.width⟩ page.page_width
  obtain ⟨y, hy, hyRange⟩ := pixelScale_inRange ⟨himage.2, page.height⟩ page.page_height
  rw [parse_eq hread, hx, ok_bind, hy, ok_bind]
  refine mapM_returns _ (tsvLines rows) (fun words hwords => ?_)
  obtain ⟨hsome, line⟩ := inRange.line hwords
  exact lineBlock_inRange page hxRange hyRange line hsome

/-- The blocks have the texts of the lines, whatever the numbers are. -/
theorem texts_of_parse (hread : csvReader 9 tsv
      = ⟨(tsvNames++[ofString "text"]) :: rows.map TsvRow.fields, none⟩)
    (hparse : parse tsv image = .ok blocks) :
    blocks.map TextBlock.text = (tsvLines rows).map lineText := by
  rw [parse_eq hread, bind_eq_ok] at hparse
  obtain ⟨xScale, -, hparse⟩ := hparse
  rw [bind_eq_ok] at hparse
  obtain ⟨yScale, -, hparse⟩ := hparse
  exact mapM_map_eq (fun words _ block hblock => text_of_lineBlock hblock) hparse

end Parse

end ConferWorker
