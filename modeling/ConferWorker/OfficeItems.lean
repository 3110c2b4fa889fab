import ConferWorker.OfficeMapping

/-! What the mapper makes of one item: a block and a region of its container, an outline entry
of a heading, and an image that fits into what is left of the budget. -/
namespace ConferWorker

/-- The index of the container that an item belongs to: the first one if it has no provenance. -/
def DoclingItem.container (item : DoclingItem) : ℕ :=
  match item.provenance with
  | none => 0
  | some value => (max 0 (value.pageNumber-1)).toNat

namespace DoclingDocumentMapper

/-- The text of the block that an item has to contribute. -/
def blockText : DoclingContent → Option Str
  | .table markdown => if strip markdown = [] then none else some (strip markdown)
  | .picture caption _ _ => some (if strip caption = [] then ofString "[Image]"
      else ofString "[Image: "++strip caption++ofString "]")
  | .sectionHeader level text =>
    if strip text = [] then none else some (headingText level (strip text))
  | .title text => if strip text = [] then none else some (headingText 1 (strip text))
  | .text text => if strip text = [] then none else some (strip text)
  | .other => none

/-- The type of the region that an item has to contribute. -/
def regionType : DoclingContent → Option VisualRegionType
  | .table markdown => if strip markdown = [] then none else some .table
  | .picture _ chart _ => some (if chart then .chart else .image)
  | _ => none

/-- The level, the title and the container of the outline entry that an item has to contribute. -/
def outlineHeading (item : DoclingItem) : Option (ℤ × Str × ℕ) :=
  match item.content with
  | .sectionHeader level text =>
    if strip text = [] then none else some (level, strip text, item.container)
  | .title text => if strip text = [] then none else some (1, strip text, item.container)
  | _ => none

def outlineFields (entry : OutlineEntry) : ℤ × Str × ℕ :=
  (entry.level, entry.title, entry.containerNumber)

/-- The bytes of the assets of some regions. -/
def assetBytes (regions : List VisualRegion) : ℕ :=
  (regions.map (fun region => (region.asset.getD []).length)).sum

theorem assetBytes_append (regions more : List VisualRegion) :
    assetBytes (regions++more) = assetBytes regions+assetBytes more := by
  rw [assetBytes, List.map_append, List.sum_append]
  rfl

/-- The draft under a key, or the one that would be filled in there. -/
def draftOf (kind : ContainerKind) (drafts : PythonDict ℤ ContainerDraft) (index : ℕ) :
    ContainerDraft :=
  (drafts.get? index).getD ⟨index, 1, 1, kind, none, [], []⟩

section Drafts

variable {kind : ContainerKind} {drafts : PythonDict ℤ ContainerDraft} {pageNumber : ℕ}

theorem draftOf_set_key (key : ℤ) (draft : ContainerDraft) (index : ℕ) :
    draftOf kind (drafts.set key draft) index
      = if key = index then draft else draftOf kind drafts index := by
  unfold draftOf
  rw [PythonDict.get?_set]
  split_ifs
  · rfl
  · rfl

theorem draftOf_set (draft : ContainerDraft) (index : ℕ) :
    draftOf kind (drafts.set pageNumber draft) index
      = if pageNumber = index then draft else draftOf kind drafts index := by
  rw [draftOf_set_key]
  simp only [Nat.cast_inj]

theorem draftOf_setDefault (index : ℕ) :
    draftOf kind (drafts.setDefault pageNumber ⟨pageNumber, 1, 1, kind, none, [], []⟩) index
      = draftOf kind drafts index := by
  unfold draftOf
  rw [PythonDict.get?_setDefault]
  simp only [Nat.cast_inj]
  split_ifs with heq
  · rw [← heq]
    rfl
  · rfl

theorem mem_keys_set (key other : ℤ) (draft : ContainerDraft) :
    other ∈ (drafts.set key draft).keys ↔ other ∈ drafts.keys ∨ other = key := by
  rw [PythonDict.keys_set]
  split_ifs with hmem
  · constructor
    · exact Or.inl
    · rintro (hother | rfl)
      · exact hother
      · exact hmem
  · rw [List.mem_append, List.mem_singleton]

theorem mem_keys_setDefault (key other : ℤ) (draft : ContainerDraft) :
    other ∈ (drafts.setDefault key draft).keys ↔ other ∈ drafts.keys ∨ other = key := by
  unfold PythonDict.setDefault
  cases hget : drafts.get? key with
  | none => exact mem_keys_set key other draft
  | some found =>
    have hmem : key ∈ drafts.keys :=
      List.mem_map.mpr ⟨(key, found), (drafts.get?_eq_some key found).mp hget, rfl⟩
    constructor
    · exact Or.inl
    · rintro (hother | rfl)
      · exact hother
      · exact hmem

end Drafts

/-- What is kept of the drafts where an item is placed. -/
structure Placed (kind : ContainerKind) (drafts : PythonDict ℤ ContainerDraft) (pageNumber : ℕ)
    (placed : PythonDict ℤ ContainerDraft × ContainerDraft × Bounds) : Prop where
  keys : ∀ key, key ∈ placed.1.keys ↔ key ∈ drafts.keys ∨ key = pageNumber
  others : ∀ index, index ≠ pageNumber → draftOf kind placed.1 index = draftOf kind drafts index
  draft : draftOf kind placed.1 pageNumber = placed.2.1
  blocks : placed.2.1.blocks = (draftOf kind drafts pageNumber).blocks
  regions : placed.2.1.regions = (draftOf kind drafts pageNumber).regions
  width : placed.2.1.width = (draftOf kind drafts pageNumber).width
  height : (draftOf kind drafts pageNumber).height ≤ placed.2.1.height

theorem placeItem_returns (kind : ContainerKind) (drafts : PythonDict ℤ ContainerDraft)
    (pageNumber : ℕ) (bounds : Option Bounds) :
    ∃ placed, placeItem kind drafts pageNumber bounds = .ok placed
      ∧ Placed kind drafts pageNumber placed := by
  let fresh : ContainerDraft := ⟨pageNumber, 1, 1, kind, none, [], []⟩
  have hdraft : ((drafts.setDefault pageNumber fresh).get? pageNumber).getD fresh
      = draftOf kind drafts pageNumber := draftOf_setDefault pageNumber
  have hblocks := congrArg ContainerDraft.blocks hdraft
  have hregions := congrArg ContainerDraft.regions hdraft
  have hwidth := congrArg ContainerDraft.width hdraft
  have hheight := congrArg ContainerDraft.height hdraft
  cases bounds with
  | some bounds =>
    refine ⟨_, rfl, fun key => mem_keys_setDefault _ key fresh,
      fun index _ => draftOf_setDefault index, rfl, hblocks, hregions,
      hwidth, hheight.ge⟩
  | none =>
    have hline (y : ℕ) : ∃ line, Bounds.create 0 y 1 (y+1) = .ok line := by
      unfold Bounds.create
      rw [dif_pos ⟨le_rfl, Nat.cast_nonneg y, zero_le_one, le_add_of_nonneg_right zero_le_one⟩]
      exact ⟨_, rfl⟩
    obtain ⟨line, hbounds⟩ := hline
      (((drafts.setDefault pageNumber ⟨pageNumber, 1, 1, kind, none, [], []⟩).get? pageNumber).getD
        ⟨pageNumber, 1, 1, kind, none, [], []⟩).blocks.length
    unfold placeItem
    simp only [hbounds, ok_bind]
    refine ⟨_, rfl, ?_, ?_, ?_, hblocks, hregions, hwidth, hheight.ge.trans (le_max_left _ _)⟩
    · intro key
      rw [mem_keys_set, mem_keys_setDefault, or_assoc, or_self]
    · intro index hindex
      rw [draftOf_set, if_neg (Ne.symm hindex), draftOf_setDefault]
    · rw [draftOf_set, if_pos rfl]

theorem location_returns (item : DoclingItem) (drafts : PythonDict ℤ ContainerDraft) :
    ∃ bounds, location item drafts = .ok (item.container, bounds) := by
  unfold location DoclingItem.container
  cases item.provenance with
  | none => exact ⟨none, rfl⟩
  | some value =>
    have hbounds (l t r b : ℚ) : ∃ bounds, Bounds.create (max 0 (min l r)) (max 0 (min t b))
        (max (max 0 (min l r)+1/1000) (max l r)) (max (max 0 (min t b)+1/1000) (max t b))
          = .ok bounds := by
      unfold Bounds.create
      have hpositive : (0 : ℚ) ≤ 1/1000 := by norm_num
      rw [dif_pos ⟨le_max_left _ _, le_max_left _ _,
        (le_add_of_nonneg_right hpositive).trans (le_max_left _ _),
        (le_add_of_nonneg_right hpositive).trans (le_max_left _ _)⟩]
      exact ⟨_, rfl⟩
    dsimp only
    obtain ⟨bounds, hcreate⟩ := hbounds _ _ _ _
    rw [hcreate, ok_bind]
    exact ⟨some bounds, rfl⟩

/-- What one item adds to the state, and that everything else is kept. -/
structure ItemMapped (limits : OfficeExtractionLimits) (kind : ContainerKind) (item : DoclingItem)
    (state after : MapperState) : Prop where
  keys : ∀ key, key ∈ after.drafts.keys ↔ key ∈ state.drafts.keys ∨ key = item.container
  others : ∀ index, index ≠ item.container →
    draftOf kind after.drafts index = draftOf kind state.drafts index
  blocks : (draftOf kind after.drafts item.container).blocks.map TextBlock.text
    = (draftOf kind state.drafts item.container).blocks.map TextBlock.text
      ++(blockText item.content).toList
  regions : ∃ added, (draftOf kind after.drafts item.container).regions
      = (draftOf kind state.drafts item.container).regions++added
    ∧ added.map VisualRegion.type = (regionType item.content).toList
    ∧ (∀ region ∈ added, (region.asset.getD []).length ≤ limits.imageBytes)
    ∧ after.totalImageBytes = state.totalImageBytes+assetBytes added
  budget : state.totalImageBytes ≤ limits.totalImageBytes →
    after.totalImageBytes ≤ limits.totalImageBytes
  outline : after.outline.map outlineFields
    = state.outline.map outlineFields++(outlineHeading item).toList
  width : (draftOf kind after.drafts item.container).width
    = (draftOf kind state.drafts item.container).width
  height : (draftOf kind state.drafts item.container).height
    ≤ (draftOf kind after.drafts item.container).height

section Items

variable {limits : OfficeExtractionLimits} {kind : ContainerKind} {state : MapperState}
  {item : DoclingItem} {placed : PythonDict ℤ ContainerDraft × ContainerDraft × Bounds}

/-- An item that leaves its draft as it is placed. -/
theorem Placed.keep (h : Placed kind state.drafts item.container placed)
    (hblock : blockText item.content = none) (hregion : regionType item.content = none)
    (hheading : outlineHeading item = none) :
    ItemMapped limits kind item state { state with drafts := placed.1 } where
  keys := h.keys
  others := h.others
  blocks := by rw [h.draft, h.blocks, hblock, Option.toList_none, List.append_nil]
  regions := by
    refine ⟨[], ?_, ?_, List.forall_mem_nil _, rfl⟩
    · rw [h.draft, h.regions, List.append_nil]
    · rw [hregion]
      rfl
  budget hbudget := hbudget
  outline := by rw [hheading, Option.toList_none, List.append_nil]
  width := by rw [h.draft, h.width]
  height := by
    rw [h.draft]
    exact h.height

/-- The drafts behind a block of the item's container. -/
theorem Placed.set_keys (h : Placed kind state.drafts item.container placed)
    (draft : ContainerDraft) (key : ℤ) : key ∈ (placed.1.set item.container draft).keys
      ↔ key ∈ state.drafts.keys ∨ key = item.container := by
  rw [mem_keys_set, h.keys, or_assoc, or_self]

theorem Placed.set_others (h : Placed kind state.drafts item.container placed)
    (draft : ContainerDraft) (index : ℕ) (hindex : index ≠ item.container) :
    draftOf kind (placed.1.set item.container draft) index = draftOf kind state.drafts index := by
  rw [draftOf_set, if_neg (Ne.symm hindex), h.others index hindex]

/-- A text item: its block, and the outline entry of a heading. -/
theorem mapText_returns (h : Placed kind state.drafts item.container placed)
    (level : Option ℤ) (text : Str) (hlevel : ∀ n ∈ level, 1 ≤ n)
    (hblock : blockText item.content = if strip text = [] then none
      else some (level.elim (strip text) (fun n => headingText n (strip text))))
    (hregion : regionType item.content = none)
    (hheading : outlineHeading item = if strip text = [] then none
      else level.map (fun n => (n, strip text, item.container))) :
    ∃ after, mapText { state with drafts := placed.1 } item.container placed.2.1 placed.2.2 level
      text = .ok after ∧ ItemMapped limits kind item state after := by
  unfold mapText
  dsimp only
  split_ifs with hempty
  · rw [if_pos hempty] at hblock hheading
    exact ⟨_, rfl, h.keep hblock hregion hheading⟩
  · rw [if_neg hempty] at hblock hheading
    have hcreate (text : Str) : TextBlock.create text placed.2.2 .native 1
        = .ok ⟨text, placed.2.2, .native, 1, zero_le_one, le_rfl⟩ := by
      unfold TextBlock.create
      rw [dif_pos]
    have hmapped (outline : List OutlineEntry) (block : TextBlock)
        (htext : blockText item.content = some block.text)
        (houtline : outline.map outlineFields
          = state.outline.map outlineFields++(outlineHeading item).toList) :
        ItemMapped limits kind item state { state with
          outline := outline
          drafts := placed.1.set item.container
            { placed.2.1 with blocks := placed.2.1.blocks++[block] } } := by
      refine ⟨h.set_keys _, h.set_others _, ?_, ⟨[], ?_, ?_, List.forall_mem_nil _, rfl⟩, id,
        houtline, ?_, ?_⟩
      · rw [draftOf_set, if_pos rfl, htext, List.map_append, h.blocks]
        rfl
      · rw [draftOf_set, if_pos rfl, h.regions, List.append_nil]
      · rw [hregion]
        rfl
      · rw [draftOf_set, if_pos rfl, h.width]
      · rw [draftOf_set, if_pos rfl]
        exact h.height
    cases level with
    | none =>
      simp only [hcreate, ok_bind]
      refine ⟨_, rfl, hmapped state.outline _ hblock ?_⟩
      rw [hheading, Option.map_none, Option.toList_none, List.append_nil]
    | some level =>
      have hpositive : 1 ≤ level := hlevel level rfl
      have hentry : OutlineEntry.create level.toNat (strip text) item.container
          = .ok ⟨level.toNat, strip text, item.container, by omega, hempty⟩ := by
        unfold OutlineEntry.create
        rw [dif_pos, dif_pos]
      simp only [hentry, hcreate, ok_bind]
      refine ⟨_, rfl, hmapped _ _ hblock ?_⟩
      rw [hheading, List.map_append, Option.map_some, Option.toList_some, List.map_singleton,
        outlineFields, Int.toNat_of_nonneg (by omega)]

/-- A table or a picture: its block and its region. -/
theorem mapFigure_returns (h : Placed kind state.drafts item.container placed)
    (type : VisualRegionType) (text : Str) (asset : Option Bytes) (renderable : Bool)
    (hrenderable : asset ≠ none → renderable = true) (hasset : asset ≠ some [])
    (hsize : (asset.getD []).length ≤ limits.imageBytes)
    (hbudget : state.totalImageBytes ≤ limits.totalImageBytes →
      state.totalImageBytes+(asset.getD []).length ≤ limits.totalImageBytes)
    (hblock : blockText item.content = some text) (hregion : regionType item.content = some type)
    (hheading : outlineHeading item = none) :
    ∃ after, mapFigure { state with
        drafts := placed.1
        totalImageBytes := state.totalImageBytes+(asset.getD []).length }
      item.container placed.2.1 placed.2.2 type text renderable asset = .ok after
      ∧ ItemMapped limits kind item state after := by
  have hcreate : TextBlock.create text placed.2.2 .native 1
      = .ok ⟨text, placed.2.2, .native, 1, zero_le_one, le_rfl⟩ := by
    unfold TextBlock.create
    rw [dif_pos]
  have hmade (id : Str) (hid : id ≠ []) : ∃ region, VisualRegion.create id type placed.2.2 1
      renderable (asset.map (fun _ => ofString "image/png")) asset = .ok region
        ∧ region.type = type ∧ region.asset = asset := by
    unfold VisualRegion.create
    rw [dif_pos hid, dif_pos ⟨zero_le_one, le_rfl⟩, dif_pos hasset, dif_pos, dif_pos,
      dif_pos hrenderable]
    · exact ⟨_, rfl, rfl, rfl⟩
    · intro hnone
      rw [hnone]
      rfl
    · intro hsome
      obtain ⟨png, rfl⟩ := Option.ne_none_iff_exists'.mp hsome
      rfl
  have hname : regionId item.container type (Function.update state.regionCounts
      (item.container, type.value) (state.regionCounts (item.container, type.value)+1)
        (item.container, type.value)) ≠ [] := by
    unfold regionId
    simp only [List.append_assoc]
    exact List.append_ne_nil_of_left_ne_nil (by decide) _
  obtain ⟨made, hregionMade, htype, hkept⟩ := hmade _ hname
  unfold mapFigure region
  simp only [hcreate, hregionMade, ok_bind]
  refine ⟨_, rfl, h.set_keys _, h.set_others _, ?_, ⟨[made], ?_, ?_, ?_, ?_⟩, hbudget, ?_, ?_, ?_⟩
  · rw [draftOf_set, if_pos rfl, hblock, List.map_append, h.blocks]
    rfl
  · rw [draftOf_set, if_pos rfl, h.regions]
  · rw [hregion, List.map_singleton, htype]
    rfl
  · intro other hother
    rw [List.mem_singleton.mp hother, hkept]
    exact hsize
  · rw [assetBytes, List.map_singleton, List.sum_singleton, hkept]
  · rw [hheading, Option.toList_none, List.append_nil]
  · rw [draftOf_set, if_pos rfl, h.width]
  · rw [draftOf_set, if_pos rfl]
    exact h.height

end Items

end DoclingDocumentMapper

end ConferWorker
