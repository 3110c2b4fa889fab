import ConferWorker.OfficeMapping
import ConferWorker.RegionIds
import ConferWorker.TextExtraction

/-! The region ids of office and text documents: the mapper counts the regions of each container
and type, and never uses a count twice. -/
namespace ConferWorker

namespace DoclingDocumentMapper

/-- The regions collected for a container. -/
def regionsOf (drafts : PythonDict ℤ ContainerDraft) (pageNumber : ℕ) : List VisualRegion :=
  ((drafts.get? pageNumber).map ContainerDraft.regions).getD []

/-- The ids of the regions collected so far carry counts that were given out. -/
structure Counted (counts : ℕ × Str → ℕ) (drafts : PythonDict ℤ ContainerDraft) : Prop where
  named : ∀ pageNumber, ∀ region ∈ regionsOf drafts pageNumber, ∃ type count,
    count ≤ counts (pageNumber, VisualRegionType.value type)
      ∧ region.id = regionId pageNumber type count
  distinct : ∀ pageNumber, ((regionsOf drafts pageNumber).map VisualRegion.id).Nodup

theorem regionId_eq (pageNumber : ℕ) (type : VisualRegionType) (count : ℕ) :
    regionId pageNumber type count
      = containerId 0x63 pageNumber (type.value++0x2D :: strOfNat count) := by
  simp only [regionId, containerId, List.append_assoc]
  rfl

theorem regionId_inj {pageNumber : ℕ} {type other : VisualRegionType} {i j : ℕ}
    (h : regionId pageNumber type i = regionId pageNumber other j) : type = other ∧ i = j := by
  have hdash (type : VisualRegionType) : (0x2D : CodePoint) ∉ type.value := by
    cases type <;> decide
  rw [regionId_eq, regionId_eq] at h
  obtain ⟨hvalues, hcounts⟩ := append_separator_inj (hdash type) (hdash other) (containerId_inj h).2
  have htypes := congrArg VisualRegionType.ofValue hvalues
  rw [VisualRegionType.ofValue_value, VisualRegionType.ofValue_value, Option.some.injEq] at htypes
  exact ⟨htypes, strOfNat_injective hcounts⟩

section Drafts

variable {drafts : PythonDict ℤ ContainerDraft} {counts : ℕ × Str → ℕ} {pageNumber : ℕ}

theorem regionsOf_set (draft : ContainerDraft) (other : ℕ) :
    regionsOf (drafts.set pageNumber draft) other
      = if pageNumber = other then draft.regions else regionsOf drafts other := by
  unfold regionsOf
  rw [PythonDict.get?_set]
  simp only [Nat.cast_inj]
  split_ifs <;> rfl

/-- A draft in its place with the same regions. -/
theorem regionsOf_set_same {draft : ContainerDraft}
    (hregions : draft.regions = regionsOf drafts pageNumber) :
    regionsOf (drafts.set pageNumber draft) = regionsOf drafts := by
  funext other
  rw [regionsOf_set]
  split_ifs with heq
  · rw [← heq, hregions]
  · rfl

/-- What an item's place leaves of the regions, and the draft that is there. -/
theorem placeItem_regions {kind : ContainerKind} {bounds : Option Bounds}
    {placed : PythonDict ℤ ContainerDraft × ContainerDraft × Bounds}
    (h : placeItem kind drafts pageNumber bounds = .ok placed) :
    regionsOf placed.1 = regionsOf drafts ∧ placed.2.1.regions = regionsOf drafts pageNumber := by
  let fresh : ContainerDraft := ⟨pageNumber, 1, 1, kind, none, [], []⟩
  have hdefault : regionsOf (drafts.setDefault pageNumber fresh) = regionsOf drafts := by
    funext other
    unfold regionsOf
    rw [PythonDict.get?_setDefault]
    simp only [Nat.cast_inj]
    split_ifs with heq
    · rw [← heq]
      cases drafts.get? pageNumber <;> rfl
    · rfl
  have hdraft : (((drafts.setDefault pageNumber fresh).get? pageNumber).getD fresh).regions
      = regionsOf drafts pageNumber := by
    rw [← hdefault]
    unfold regionsOf
    cases (drafts.setDefault pageNumber fresh).get? pageNumber <;> rfl
  unfold placeItem at h
  cases bounds with
  | some bounds =>
    dsimp only at h
    rw [pure_eq_ok] at h
    rw [← h]
    exact ⟨hdefault, hdraft⟩
  | none =>
    simp only [bind_eq_ok, pure_eq_ok] at h
    obtain ⟨line, _, h⟩ := h
    rw [← h]
    refine ⟨(regionsOf_set_same ?_).trans hdefault, hdraft⟩
    rw [hdefault]
    exact hdraft

/-- One more region with the next count. -/
theorem Counted.add (h : Counted counts drafts) {type : VisualRegionType} {region : VisualRegion}
    (hid : region.id = regionId pageNumber type (counts (pageNumber, type.value)+1))
    {after : PythonDict ℤ ContainerDraft} (hafter : regionsOf after = Function.update
      (regionsOf drafts) pageNumber (regionsOf drafts pageNumber++[region])) :
    Counted (Function.update counts (pageNumber, type.value)
      (counts (pageNumber, type.value)+1)) after := by
  have hkept (page : ℕ) (other : VisualRegionType) : counts (page, other.value)
      ≤ Function.update counts (pageNumber, type.value) (counts (pageNumber, type.value)+1)
        (page, other.value) := by
    rw [Function.update_apply]
    split_ifs with heq
    · rw [heq]
      exact Nat.le_succ _
    · exact le_rfl
  constructor
  · intro page other hother
    rw [hafter, Function.update_apply] at hother
    split_ifs at hother with heq
    · subst heq
      rcases List.mem_append.mp hother with hold | hnew
      · obtain ⟨found, count, hcount, hfound⟩ := h.named page other hold
        exact ⟨found, count, hcount.trans (hkept page found), hfound⟩
      · refine ⟨type, counts (page, type.value)+1, ?_, ?_⟩
        · rw [Function.update_self]
        · rw [List.mem_singleton.mp hnew, hid]
    · obtain ⟨found, count, hcount, hfound⟩ := h.named page other hother
      exact ⟨found, count, hcount.trans (hkept page found), hfound⟩
  · intro page
    rw [hafter, Function.update_apply]
    split_ifs with heq
    · rw [List.map_append, List.map_singleton, ← List.concat_eq_append]
      refine (h.distinct pageNumber).concat fun hused => ?_
      -- the count of an older region of this type is smaller
      obtain ⟨other, hother, hsame⟩ := List.mem_map.mp hused
      obtain ⟨found, count, hcount, hfound⟩ := h.named pageNumber other hother
      rw [hfound, hid] at hsame
      obtain ⟨rfl, rfl⟩ := regionId_inj hsame
      omega
    · exact h.distinct page

end Drafts

/-- The next region of a page, under the next count of its type. -/
def AddsRegion (state state' : MapperState) : Prop :=
  ∃ pageNumber type region,
    region.id = regionId pageNumber type (state.regionCounts (pageNumber, type.value)+1)
    ∧ state'.regionCounts = Function.update state.regionCounts (pageNumber, type.value)
      (state.regionCounts (pageNumber, type.value)+1)
    ∧ regionsOf state'.drafts = Function.update (regionsOf state.drafts) pageNumber
      (regionsOf state.drafts pageNumber++[region])

section Mapped

variable {state state' : MapperState} {pageNumber : ℕ} {draft : ContainerDraft} {bounds : Bounds}
  (hdraft : draft.regions = regionsOf state.drafts pageNumber)

include hdraft

/-- A text adds a block only. -/
theorem mapText_regions {level : Option ℤ} {text : Str}
    (h : mapText state pageNumber draft bounds level text = .ok state') :
    state'.regionCounts = state.regionCounts
      ∧ regionsOf state'.drafts = regionsOf state.drafts := by
  have hset (blocks : List TextBlock) :
      regionsOf (state.drafts.set pageNumber { draft with blocks := blocks })
        = regionsOf state.drafts := regionsOf_set_same hdraft
  unfold mapText at h
  dsimp only at h
  split_ifs at h
  · rw [← Except.ok.inj h]
    exact ⟨rfl, rfl⟩
  · cases level with
    | none =>
      obtain ⟨block, _, h⟩ := (bind_eq_ok _ _ _).mp h
      rw [pure_eq_ok] at h
      rw [← h]
      exact ⟨rfl, hset _⟩
    | some level =>
      obtain ⟨entry, _, h⟩ := (bind_eq_ok _ _ _).mp h
      obtain ⟨block, _, h⟩ := (bind_eq_ok _ _ _).mp h
      rw [pure_eq_ok] at h
      rw [← h]
      exact ⟨rfl, hset _⟩

/-- A figure adds a block and a region. -/
theorem mapFigure_regions {type : VisualRegionType} {text : Str} {renderable : Bool}
    {asset : Option Bytes}
    (h : mapFigure state pageNumber draft bounds type text renderable asset = .ok state') :
    AddsRegion state state' := by
  unfold mapFigure at h
  obtain ⟨block, _, h⟩ := (bind_eq_ok _ _ _).mp h
  obtain ⟨⟨region, counts⟩, hregion, h⟩ := (bind_eq_ok _ _ _).mp h
  obtain ⟨created, hcreated, hcounts⟩ := (bind_eq_ok _ _ _).mp hregion
  rw [pure_eq_ok, Prod.mk.injEq] at hcounts
  obtain ⟨rfl, rfl⟩ := hcounts
  rw [pure_eq_ok] at h
  rw [← h]
  refine ⟨pageNumber, type, created, ?_, rfl, ?_⟩
  · rw [(VisualRegion.create_fields hcreated).1, Function.update_self]
  · funext other
    rw [regionsOf_set, Function.update_apply]
    simp only [hdraft, eq_comm]

end Mapped

/-- What a round of the loop does to the regions. -/
theorem mapItem_regions {limits : OfficeExtractionLimits} {kind : ContainerKind}
    {state state' : MapperState} {item : DoclingItem}
    (h : mapItem limits kind state item = .ok state') :
    (state'.regionCounts = state.regionCounts
      ∧ regionsOf state'.drafts = regionsOf state.drafts) ∨ AddsRegion state state' := by
  unfold mapItem at h
  obtain ⟨⟨pageNumber, bounds⟩, _, h⟩ := (bind_eq_ok _ _ _).mp h
  obtain ⟨_, _, h⟩ := (bind_eq_ok _ _ _).mp h
  obtain ⟨⟨drafts, draft, bounds⟩, hplaced, h⟩ := (bind_eq_ok _ _ _).mp h
  obtain ⟨hdrafts, hdraft⟩ := placeItem_regions hplaced
  dsimp only at hdrafts hdraft h
  rw [← hdrafts] at hdraft ⊢
  -- the place of an item is a draft with the regions that were there
  have htext {level : Option ℤ} {text : Str}
      (h : mapText { state with drafts := drafts } pageNumber draft bounds level text
        = .ok state') :
      state'.regionCounts = state.regionCounts ∧ regionsOf state'.drafts = regionsOf drafts := by
    apply mapText_regions _ h
    exact hdraft
  have hfigure {bytes : ℕ} {type : VisualRegionType} {text : Str} {renderable : Bool}
      {asset : Option Bytes}
      (h : mapFigure { state with drafts := drafts, totalImageBytes := bytes } pageNumber draft
        bounds type text renderable asset = .ok state') : AddsRegion state state' := by
    have hadds := mapFigure_regions hdraft h
    unfold AddsRegion at hadds ⊢
    rw [← hdrafts]
    exact hadds
  cases hcontent : item.content with
  | table markdown =>
    rw [hcontent] at h
    dsimp only at h
    split_ifs at h
    · rw [pure_eq_ok] at h
      rw [← h]
      exact .inl ⟨rfl, rfl⟩
    · exact .inr (hfigure h)
  | picture caption chart png =>
    rw [hcontent] at h
    exact .inr (hfigure h)
  | sectionHeader level text =>
    rw [hcontent] at h
    exact .inl (htext h)
  | title text | text text =>
    rw [hcontent] at h
    exact .inl (htext h)
  | other =>
    rw [hcontent] at h
    dsimp only at h
    rw [pure_eq_ok] at h
    rw [← h]
    exact .inl ⟨rfl, rfl⟩

/-- Every round keeps the counts ahead of the ids. -/
theorem Counted.mapItem {limits : OfficeExtractionLimits} {kind : ContainerKind}
    {state state' : MapperState} {item : DoclingItem}
    (hcounted : Counted state.regionCounts state.drafts)
    (h : mapItem limits kind state item = .ok state') :
    Counted state'.regionCounts state'.drafts := by
  rcases mapItem_regions h with ⟨hcounts, hregions⟩
    | ⟨pageNumber, type, region, hid, hcounts, hregions⟩
  · rw [hcounts]
    exact ⟨by rw [hregions]; exact hcounted.named, by rw [hregions]; exact hcounted.distinct⟩
  · rw [hcounts]
    exact hcounted.add hid hregions

theorem Counted.mapItems {limits : OfficeExtractionLimits} {kind : ContainerKind}
    (items : List DoclingItem) {state state' : MapperState}
    (hcounted : Counted state.regionCounts state.drafts)
    (h : items.foldlM (DoclingDocumentMapper.mapItem limits kind) state = .ok state') :
    Counted state'.regionCounts state'.drafts := by
  induction items generalizing state with
  | nil =>
    rw [List.foldlM_nil, pure_eq_ok] at h
    rw [← h]
    exact hcounted
  | cons item items ih =>
    rw [List.foldlM_cons] at h
    obtain ⟨next, hnext, hrest⟩ := (bind_eq_ok _ _ _).mp h
    exact ih (hcounted.mapItem hnext) hrest

/-- The pages bring no regions. -/
theorem pageDrafts_regions (document : DoclingDocument) (kind : ContainerKind) (filename : Str) :
    regionsOf (pageDrafts document kind filename) = fun _ => [] := by
  have hempty (drafts : PythonDict ℤ ContainerDraft) (key : ℤ) (draft : ContainerDraft)
      (hdrafts : regionsOf drafts = fun _ => []) (hdraft : draft.regions = []) :
      regionsOf (drafts.set key draft) = fun _ => [] := by
    funext other
    have hother := congrFun hdrafts other
    unfold regionsOf at hother ⊢
    rw [PythonDict.get?_set]
    split_ifs
    · exact hdraft
    · exact hother
  have hpages (pages : List (ℤ × ℚ × ℚ)) (drafts : PythonDict ℤ ContainerDraft)
      (hdrafts : regionsOf drafts = fun _ => []) :
      regionsOf (pages.foldl (fun (drafts : PythonDict ℤ ContainerDraft) page =>
        drafts.set (page.1-1) ⟨page.1-1, max 1 page.2.1, max 1 page.2.2, kind,
          containerLabels document kind (page.1-1), [], []⟩) drafts) = fun _ => [] := by
    induction pages generalizing drafts with
    | nil => exact hdrafts
    | cons page pages ih => exact ih _ (hempty _ _ _ hdrafts rfl)
  unfold pageDrafts
  dsimp only
  split_ifs
  · exact hempty _ _ _ (hpages _ _ rfl) rfl
  · exact hpages _ _ rfl

/-- No region id of an office document is used twice, whatever its items are. -/
theorem map_regionIds_nodup {limits : OfficeExtractionLimits} {document : DoclingDocument}
    {source : DocumentSource} {filename mediaType : Str} {content : DocumentContent}
    (h : map limits document source filename mediaType = .ok content) :
    (regionIds content.containers).Nodup := by
  simp only [map, bind_eq_ok] at h
  obtain ⟨_, _, state, hstate, containers, hcontainers, hcreate⟩ := h
  have hstart : Counted (fun _ => 0)
      (pageDrafts document (containerKind mediaType) filename) := by
    constructor
    · rw [pageDrafts_regions]
      exact fun _ => List.forall_mem_nil _
    · rw [pageDrafts_regions]
      exact fun _ => List.nodup_nil
  have hcounted := Counted.mapItems document.items hstart hstate
  refine regionIds_nodup 0x63 ?_ fun container hcontainer => ?_
  · rw [content.contiguous]
    exact List.nodup_range
  · rw [DocumentContent.create_containers hcreate] at hcontainer
    obtain ⟨⟨draft, index⟩, hdraft, hmade⟩ := mapM_mem hcontainers container hcontainer
    have hregions : draft.regions = regionsOf state.drafts index := by
      have hget := List.mem_zipIdx_iff_getElem?.mp hdraft
      unfold completedDrafts at hget
      rw [List.getElem?_map, Option.map_eq_some_iff] at hget
      obtain ⟨i, hi, hget⟩ := hget
      obtain ⟨_, hindex⟩ := List.getElem?_eq_some_iff.mp hi
      rw [List.getElem_range] at hindex
      dsimp only at hget hindex
      rw [← hget, ← hindex, regionsOf]
      cases state.drafts.get? index <;> rfl
    obtain ⟨hnumber, _, hsame⟩ := DocumentContainer.create_fields hmade
    rw [hnumber, hsame, hregions]
    refine ⟨fun region hregion => ?_, hcounted.distinct index⟩
    obtain ⟨type, count, _, hid⟩ := hcounted.named index region hregion
    exact ⟨_, by rw [hid, regionId_eq]⟩

end DoclingDocumentMapper

/-- A text document has at most one region. -/
theorem TextDocumentExtractor.extract_regionIds_nodup {extractor : TextDocumentExtractor}
    {source : DocumentSource} {filename mediaType : Str} {fuel : ℕ} {content : DocumentContent}
    (h : extractor.extract source filename mediaType fuel = some (.ok content)) :
    (regionIds content.containers).Nodup := by
  unfold TextDocumentExtractor.extract at h
  cases htext : extractor.sourceText source mediaType with
  | error error =>
    rw [htext] at h
    cases h
  | ok text =>
    rw [htext] at h
    obtain ⟨texts, _, h⟩ := Option.map_eq_some_iff.mp h
    simp only [blockContent, bind_eq_ok] at h
    obtain ⟨blocks, _, bounds, _, regions, hregions, container, hcontainer, hcreate⟩ := h
    rw [DocumentContent.create_containers hcreate, regionIds, List.flatMap_singleton,
      (DocumentContainer.create_fields hcontainer).2.2]
    have hids := mapM_map_eq (g := VisualRegion.id) (h := fun _ : Bounds => ofString "c1-table-1")
      (fun bounds _ region hregion => (VisualRegion.create_fields hregion).1) hregions
    rw [hids]
    split_ifs
    · exact List.nodup_singleton _
    · exact List.nodup_nil

end ConferWorker
