import Mathlib.Algebra.BigOperators.Group.Finset.Basic
import Mathlib.Algebra.Order.BigOperators.Group.Finset
import ConferWorker.OfficeItems

/-! The office mapper over a whole document: it returns, and every item is where it belongs. -/
namespace ConferWorker

/-- The largest index of a page or of the container of an item. -/
def DoclingDocument.lastContainer (document : DoclingDocument) : ℕ :=
  (document.pages.entries.map (fun page => (page.1-1).toNat)
    ++document.items.map DoclingItem.container).foldr max 0

namespace DoclingDocumentMapper

/-- The items of a document that go to a container. -/
def itemsOf (items : List DoclingItem) (index : ℕ) : List DoclingItem :=
  items.filter (fun item => item.container = index)

/-- What the result holds of the items: in each container their blocks and regions in order, the
outline of the headings, and images within the limits. -/
structure KeepsItems (limits : OfficeExtractionLimits) (document : DoclingDocument)
    (content : DocumentContent) : Prop where
  numbers : content.containers.map DocumentContainer.number
    = List.range (document.lastContainer+1)
  blocks : content.containers.map (fun container => container.blocks.map TextBlock.text)
    = (List.range (document.lastContainer+1)).map (fun index =>
      (itemsOf document.items index).filterMap (fun item => blockText item.content))
  regions : content.containers.map (fun container => container.regions.map VisualRegion.type)
    = (List.range (document.lastContainer+1)).map (fun index =>
      (itemsOf document.items index).filterMap (fun item => regionType item.content))
  outline : content.outline.map outlineFields = document.items.filterMap outlineHeading
  references : ∀ entry ∈ content.outline, entry.containerNumber < content.containers.length
  assets : ∀ container ∈ content.containers, ∀ region ∈ container.regions,
    (region.asset.getD []).length ≤ limits.imageBytes
  total : assetBytes (content.containers.flatMap DocumentContainer.regions)
    ≤ limits.totalImageBytes

/-- What the mapper needs of an item: a container within the limit, a heading of level 1 or more,
and an image whose PNG is not empty. -/
structure ItemInRange (limits : OfficeExtractionLimits) (item : DoclingItem) : Prop where
  container : item.container < limits.containers
  level : ∀ level text, item.content = .sectionHeader level text → 1 ≤ level
  png : ∀ caption chart png, item.content = .picture caption chart (some png) → png ≠ []

/-- One round of the loop. -/
theorem mapItem_returns {limits : OfficeExtractionLimits} (kind : ContainerKind)
    (state : MapperState) {item : DoclingItem} (hitem : ItemInRange limits item) :
    ∃ after, mapItem limits kind state item = .ok after
      ∧ ItemMapped limits kind item state after := by
  obtain ⟨bounds, hlocation⟩ := location_returns item state.drafts
  obtain ⟨placed, hplace, hplaced⟩ := placeItem_returns kind state.drafts item.container bounds
  unfold mapItem
  rw [hlocation, ok_bind]
  dsimp only
  rw [raiseIf_of_not _ (Nat.not_le.mpr hitem.container), ok_bind, hplace, ok_bind]
  cases hcontent : item.content with
  | table markdown =>
    dsimp only
    -- a table that exports to nothing leaves the drafts as they are
    split_ifs with hempty
    · refine ⟨_, rfl, hplaced.keep ?_ ?_ ?_⟩
      · rw [hcontent, blockText, if_pos hempty]
      · rw [hcontent, regionType, if_pos hempty]
      · rw [outlineHeading, hcontent]
    · apply mapFigure_returns hplaced .table _ none false (fun h => absurd rfl h) nofun
        (Nat.zero_le _) (fun h => h)
      · rw [hcontent, blockText, if_neg hempty]
      · rw [hcontent, regionType, if_neg hempty]
      · rw [outlineHeading, hcontent]
  | picture caption chart png =>
    dsimp only
    -- what is left of the budget bounds the picture, so the total stays within it
    have hpicture (png' : Bytes) (h : picturePng limits png
        (limits.totalImageBytes-state.totalImageBytes : ℤ) = some png') :
        png = some png' ∧ png'.length ≤ limits.imageBytes
          ∧ state.totalImageBytes+png'.length ≤ limits.totalImageBytes := by
      unfold picturePng at h
      split_ifs at h with hspent
      obtain ⟨made, rfl, hmade⟩ := Option.bind_eq_some_iff.mp h
      split_ifs at hmade with hlarge
      obtain rfl := Option.some.inj hmade
      rw [not_or] at hlarge
      exact ⟨rfl, by omega, by omega⟩
    -- a picture whose image is missing or too large keeps its region and its caption
    cases hasset : picturePng limits png (limits.totalImageBytes-state.totalImageBytes : ℤ) with
    | none =>
      apply mapFigure_returns hplaced _ _ none _ (fun h => absurd rfl h) nofun
        (Nat.zero_le _) (fun h => h)
      · rw [hcontent, blockText]
      · rw [hcontent, regionType]
      · rw [outlineHeading, hcontent]
    | some made =>
      obtain ⟨rfl, hsize, hbudget⟩ := hpicture made hasset
      apply mapFigure_returns hplaced _ _ (some made) _ (fun _ => rfl) _ hsize (fun _ => hbudget)
      · rw [hcontent, blockText]
      · rw [hcontent, regionType]
      · rw [outlineHeading, hcontent]
      · intro hempty
        exact hitem.png _ _ _ hcontent (Option.some.inj hempty)
  | sectionHeader level text =>
    apply mapText_returns hplaced (some level) text
    · intro n hn
      rw [← Option.some.inj hn]
      exact hitem.level level text hcontent
    · rw [hcontent]
      rfl
    · rw [hcontent]
      rfl
    · rw [outlineHeading, hcontent]
      rfl
  | title text =>
    apply mapText_returns hplaced (some 1) text
    · intro n hn
      rw [← Option.some.inj hn]
    · rw [hcontent]
      rfl
    · rw [hcontent]
      rfl
    · rw [outlineHeading, hcontent]
      rfl
  | text text =>
    apply mapText_returns hplaced none text nofun
    · rw [hcontent]
      rfl
    · rw [hcontent]
      rfl
    · rw [outlineHeading, hcontent, Option.map_none, ite_self]
  | other =>
    refine ⟨_, rfl, hplaced.keep ?_ ?_ ?_⟩
    · rw [hcontent, blockText]
    · rw [hcontent]
      rfl
    · rw [outlineHeading, hcontent]

/-- The state of the loop after some items, from the drafts of the pages. -/
structure ItemsMapped (limits : OfficeExtractionLimits) (kind : ContainerKind)
    (pages : PythonDict ℤ ContainerDraft) (items : List DoclingItem) (state : MapperState) :
    Prop where
  keys : ∀ key, key ∈ state.drafts.keys
    ↔ key ∈ pages.keys ∨ ∃ item ∈ items, key = item.container
  blocks : ∀ index, (draftOf kind state.drafts index).blocks.map TextBlock.text
    = (itemsOf items index).filterMap (fun item => blockText item.content)
  regions : ∀ index, (draftOf kind state.drafts index).regions.map VisualRegion.type
    = (itemsOf items index).filterMap (fun item => regionType item.content)
  outline : state.outline.map outlineFields = items.filterMap outlineHeading
  assets : ∀ index, ∀ region ∈ (draftOf kind state.drafts index).regions,
    (region.asset.getD []).length ≤ limits.imageBytes
  total : ∀ n, ∑ index ∈ Finset.range n, assetBytes (draftOf kind state.drafts index).regions
    ≤ state.totalImageBytes
  budget : state.totalImageBytes ≤ limits.totalImageBytes
  dimensions : ∀ index, 0 < (draftOf kind state.drafts index).width
    ∧ 0 < (draftOf kind state.drafts index).height

section Run

variable {limits : OfficeExtractionLimits} {kind : ContainerKind}
  {pages : PythonDict ℤ ContainerDraft} {items : List DoclingItem} {state after : MapperState}

theorem itemsOf_append_self (item : DoclingItem) :
    itemsOf (items++[item]) item.container = itemsOf items item.container++[item] := by
  rw [itemsOf, List.filter_append, List.filter_singleton, decide_eq_true rfl, cond_true, itemsOf]

theorem itemsOf_append_other (item : DoclingItem) {index : ℕ} (hindex : index ≠ item.container) :
    itemsOf (items++[item]) index = itemsOf items index := by
  rw [itemsOf, List.filter_append, List.filter_singleton, decide_eq_false (Ne.symm hindex)]
  exact List.append_nil _

theorem filterMap_append_singleton {α β : Type} (f : α → Option β) (xs : List α) (x : α) :
    (xs++[x]).filterMap f = xs.filterMap f++(f x).toList := by
  rw [List.filterMap_append]
  rfl

/-- One more item. -/
theorem ItemsMapped.item (h : ItemsMapped limits kind pages items state) {item : DoclingItem}
    (hitem : ItemMapped limits kind item state after) :
    ItemsMapped limits kind pages (items++[item]) after := by
  obtain ⟨added, hregions, htypes, hassets, htotal⟩ := hitem.regions
  constructor
  · intro key
    rw [hitem.keys, h.keys, or_assoc]
    apply or_congr_right
    simp only [List.mem_append, List.mem_singleton, or_and_right, exists_or, exists_eq_left]
  · intro index
    by_cases hindex : index = item.container
    · rw [hindex, hitem.blocks, h.blocks, itemsOf_append_self, filterMap_append_singleton]
    · rw [hitem.others index hindex, h.blocks, itemsOf_append_other item hindex]
  · intro index
    by_cases hindex : index = item.container
    · rw [hindex, hregions, List.map_append, h.regions, htypes, itemsOf_append_self,
        filterMap_append_singleton]
    · rw [hitem.others index hindex, h.regions, itemsOf_append_other item hindex]
  · rw [hitem.outline, h.outline, filterMap_append_singleton]
  · intro index region hregion
    by_cases hindex : index = item.container
    · rw [hindex, hregions] at hregion
      rcases List.mem_append.mp hregion with hold | hnew
      · exact h.assets _ region hold
      · exact hassets region hnew
    · rw [hitem.others index hindex] at hregion
      exact h.assets index region hregion
  · intro n
    have hstep (index : ℕ) : assetBytes (draftOf kind after.drafts index).regions
        = assetBytes (draftOf kind state.drafts index).regions
          +if index = item.container then assetBytes added else 0 := by
      split_ifs with hindex
      · rw [hindex, hregions, assetBytes_append]
      · rw [hitem.others index hindex, Nat.add_zero]
    have hadded : ∑ index ∈ Finset.range n,
        (if index = item.container then assetBytes added else 0) ≤ assetBytes added := by
      rw [Finset.sum_ite_eq']
      split_ifs
      · exact le_rfl
      · exact Nat.zero_le _
    calc ∑ index ∈ Finset.range n, assetBytes (draftOf kind after.drafts index).regions
        = ∑ index ∈ Finset.range n, assetBytes (draftOf kind state.drafts index).regions
          +∑ index ∈ Finset.range n, (if index = item.container then assetBytes added else 0) := by
          rw [← Finset.sum_add_distrib]
          exact Finset.sum_congr rfl fun index _ => hstep index
      _ ≤ state.totalImageBytes+assetBytes added := Nat.add_le_add (h.total n) hadded
      _ = after.totalImageBytes := htotal.symm
  · exact hitem.budget h.budget
  · intro index
    by_cases hindex : index = item.container
    · rw [hindex, hitem.width]
      exact ⟨(h.dimensions _).1, (h.dimensions _).2.trans_le hitem.height⟩
    · rw [hitem.others index hindex]
      exact h.dimensions index

/-- The loop over the items. -/
theorem mapItems_returns (more : List DoclingItem)
    (h : ItemsMapped limits kind pages items state)
    (hmore : ∀ item ∈ more, ItemInRange limits item) :
    ∃ after, more.foldlM (mapItem limits kind) state = .ok after
      ∧ ItemsMapped limits kind pages (items++more) after := by
  induction more generalizing items state with
  | nil => exact ⟨state, rfl, by rwa [List.append_nil]⟩
  | cons item more ih =>
    obtain ⟨hitem, hothers⟩ := List.forall_mem_cons.mp hmore
    obtain ⟨next, hnext, hmapped⟩ := mapItem_returns kind state hitem
    obtain ⟨after, hafter, hall⟩ := ih (h.item hmapped) hothers
    refine ⟨after, ?_, ?_⟩
    · rw [List.foldlM_cons, hnext, ok_bind, hafter]
    · rwa [List.append_assoc, List.singleton_append] at hall

end Run

/-- The drafts of the pages are empty and have an area. -/
def BlankDrafts (kind : ContainerKind) (drafts : PythonDict ℤ ContainerDraft) : Prop :=
  ∀ index, (draftOf kind drafts index).blocks = [] ∧ (draftOf kind drafts index).regions = []
    ∧ 0 < (draftOf kind drafts index).width ∧ 0 < (draftOf kind drafts index).height

theorem BlankDrafts.set {kind : ContainerKind} {drafts : PythonDict ℤ ContainerDraft}
    (h : BlankDrafts kind drafts) (key : ℤ) (width height : ℚ) (label : Option Str)
    (hwidth : 0 < width) (hheight : 0 < height) :
    BlankDrafts kind (drafts.set key ⟨key, width, height, kind, label, [], []⟩) := by
  intro index
  rw [draftOf_set_key]
  split_ifs
  · exact ⟨rfl, rfl, hwidth, hheight⟩
  · exact h index

theorem blankDrafts_empty (kind : ContainerKind) : BlankDrafts kind .empty :=
  fun _ => ⟨rfl, rfl, zero_lt_one, zero_lt_one⟩

/-- The drafts before the first item. -/
theorem pageDrafts_blank (document : DoclingDocument) (kind : ContainerKind) (filename : Str) :
    BlankDrafts kind (pageDrafts document kind filename)
      ∧ ∀ key, key ∈ (pageDrafts document kind filename).keys
        ↔ (∃ page ∈ document.pages.entries, key = page.1-1)
          ∨ document.pages.entries = [] ∧ key = 0 := by
  have hpages (pages : List (ℤ × ℚ × ℚ)) (drafts : PythonDict ℤ ContainerDraft)
      (hdrafts : BlankDrafts kind drafts) :
      BlankDrafts kind (pages.foldl (fun (drafts : PythonDict ℤ ContainerDraft) page =>
        drafts.set (page.1-1) ⟨page.1-1, max 1 page.2.1, max 1 page.2.2, kind,
          containerLabels document kind (page.1-1), [], []⟩) drafts)
      ∧ ∀ key, key ∈ (pages.foldl (fun (drafts : PythonDict ℤ ContainerDraft) page =>
        drafts.set (page.1-1) ⟨page.1-1, max 1 page.2.1, max 1 page.2.2, kind,
          containerLabels document kind (page.1-1), [], []⟩) drafts).keys
        ↔ key ∈ drafts.keys ∨ ∃ page ∈ pages, key = page.1-1 := by
    induction pages generalizing drafts with
    | nil => exact ⟨hdrafts, fun key => by simp⟩
    | cons page pages ih =>
      obtain ⟨hblank, hkeys⟩ := ih _ (hdrafts.set (page.1-1) (max 1 page.2.1) (max 1 page.2.2)
        (containerLabels document kind (page.1-1)) (zero_lt_one.trans_le (le_max_left _ _))
        (zero_lt_one.trans_le (le_max_left _ _)))
      refine ⟨hblank, fun key => ?_⟩
      rw [List.foldl_cons, hkeys, mem_keys_set, or_assoc, List.exists_mem_cons_iff]
  obtain ⟨hblank, hkeys⟩ := hpages document.pages.entries .empty (blankDrafts_empty kind)
  have hnone (key : ℤ) : key ∉ (PythonDict.empty : PythonDict ℤ ContainerDraft).keys :=
    List.not_mem_nil
  unfold pageDrafts
  dsimp only
  split_ifs with hempty
  · have hnopages : document.pages.entries = [] := by
      by_contra hne
      obtain ⟨page, rest, hcons⟩ := List.exists_cons_of_ne_nil hne
      have hmem := (hkeys (page.1-1)).mpr
        (Or.inr ⟨page, by rw [hcons]; exact List.mem_cons_self, rfl⟩)
      rw [PythonDict.keys, List.isEmpty_iff.mp hempty] at hmem
      cases hmem
    refine ⟨hblank.set 0 1 1 _ zero_lt_one zero_lt_one, fun key => ?_⟩
    rw [mem_keys_set, hkeys, or_iff_right (hnone key), hnopages]
    simp
  · have hpage : document.pages.entries ≠ [] := by
      intro hnopages
      rw [hnopages] at hempty
      exact hempty rfl
    refine ⟨hblank, fun key => ?_⟩
    rw [hkeys, or_iff_right (hnone key), or_iff_left fun h => hpage h.1]

/-- The loop before the first item. -/
theorem itemsMapped_start {limits : OfficeExtractionLimits} {kind : ContainerKind}
    {pages : PythonDict ℤ ContainerDraft} (h : BlankDrafts kind pages) :
    ItemsMapped limits kind pages [] ⟨pages, [], fun _ => 0, 0⟩ where
  keys key := by simp
  blocks index := by
    rw [(h index).1]
    rfl
  regions index := by
    rw [(h index).2.1]
    rfl
  outline := rfl
  assets index := by
    rw [(h index).2.1]
    exact List.forall_mem_nil _
  total n := by
    rw [Finset.sum_eq_zero]
    intro index _
    rw [(h index).2.1]
    rfl
  budget := Nat.zero_le _
  dimensions index := (h index).2.2

theorem le_foldr_max {xs : List ℕ} {x : ℕ} (hx : x ∈ xs) : x ≤ xs.foldr max 0 := by
  induction xs with
  | nil => cases hx
  | cons y xs ih =>
    rw [List.foldr_cons]
    rcases List.mem_cons.mp hx with rfl | hrest
    · exact le_max_left _ _
    · exact (ih hrest).trans (le_max_right _ _)

theorem foldr_max_mem (xs : List ℕ) : xs.foldr max 0 = 0 ∨ xs.foldr max 0 ∈ xs := by
  induction xs with
  | nil => exact Or.inl rfl
  | cons y xs ih =>
    rw [List.foldr_cons]
    rcases le_total y (xs.foldr max 0) with hle | hle
    · rw [max_eq_right hle]
      exact ih.imp_right (List.mem_cons_of_mem y)
    · rw [max_eq_left hle]
      exact Or.inr List.mem_cons_self

/-- `max(drafts)` behind the loop. -/
theorem maximum_key {limits : OfficeExtractionLimits} {kind : ContainerKind} {state : MapperState}
    {document : DoclingDocument} {filename : Str}
    (hkeys : ∀ page ∈ document.pages.entries, 0 < page.1)
    (h : ItemsMapped limits kind (pageDrafts document kind filename) document.items state) :
    state.drafts.keys.max?.getD 0 = document.lastContainer := by
  have hmem (key : ℤ) : key ∈ state.drafts.keys
      ↔ ((∃ page ∈ document.pages.entries, key = page.1-1)
          ∨ document.pages.entries = [] ∧ key = 0) ∨ ∃ item ∈ document.items, key = item.container := by
    rw [h.keys, (pageDrafts_blank document kind filename).2]
  have hle : ∀ key ∈ state.drafts.keys, 0 ≤ key ∧ key ≤ document.lastContainer := by
    intro key hkey
    rcases (hmem key).mp hkey with (⟨page, hpage, rfl⟩ | ⟨_, rfl⟩) | ⟨item, hitem, rfl⟩
    · have hpositive := hkeys page hpage
      have hindex : (page.1-1).toNat ≤ document.lastContainer :=
        le_foldr_max (List.mem_append_left _ (List.mem_map_of_mem hpage))
      omega
    · exact ⟨le_rfl, Int.natCast_nonneg _⟩
    · refine ⟨Int.natCast_nonneg _, Int.ofNat_le.mpr ?_⟩
      exact le_foldr_max (List.mem_append_right _ (List.mem_map_of_mem hitem))
  have hfirst : ∃ key, key ∈ state.drafts.keys := by
    rcases List.eq_nil_or_concat document.pages.entries with hnone | ⟨front, page, hpages⟩
    · exact ⟨0, (hmem 0).mpr (Or.inl (Or.inr ⟨hnone, rfl⟩))⟩
    · refine ⟨page.1-1, (hmem _).mpr (Or.inl (Or.inl ⟨page, ?_, rfl⟩))⟩
      rw [hpages, List.concat_eq_append]
      exact List.mem_append_right _ (List.mem_singleton_self page)
  have hlast : (document.lastContainer : ℤ) ∈ state.drafts.keys := by
    rcases foldr_max_mem (document.pages.entries.map (fun page => (page.1-1).toNat)
        ++document.items.map DoclingItem.container) with hzero | hmax
    · obtain ⟨key, hkey⟩ := hfirst
      have hbounds := hle key hkey
      have hlastZero : document.lastContainer = 0 := hzero
      obtain rfl : key = document.lastContainer := by omega
      exact hkey
    · rcases List.mem_append.mp hmax with hpage | hitem
      · obtain ⟨page, hpage, hindex⟩ := List.mem_map.mp hpage
        have hpositive := hkeys page hpage
        refine (hmem _).mpr (Or.inl (Or.inl ⟨page, hpage, ?_⟩))
        show ((_ : ℕ) : ℤ) = _
        rw [DoclingDocument.lastContainer, ← hindex, Int.toNat_of_nonneg (by omega)]
      · obtain ⟨item, hitem, hindex⟩ := List.mem_map.mp hitem
        refine (hmem _).mpr (Or.inr ⟨item, hitem, ?_⟩)
        rw [DoclingDocument.lastContainer, ← hindex]
  have hmax : state.drafts.keys.max? = some (document.lastContainer : ℤ) :=
    List.max?_eq_some_iff.mpr ⟨hlast, fun key hkey => (hle key hkey).2⟩
  rw [hmax, Option.getD_some]

end DoclingDocumentMapper

end ConferWorker
