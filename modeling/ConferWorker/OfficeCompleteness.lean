import ConferWorker.OfficeDocuments

/-! The office mapper keeps every item: the containers of the result, and what they hold. -/
namespace ConferWorker

section Hashes

theorem digitValue_hex (c : CodePoint) (h : isHexDigit c = true) : digitValue c < 16 := by
  simp only [isHexDigit, Bool.or_eq_true, Bool.and_eq_true, decide_eq_true_eq] at h
  unfold digitValue
  split_ifs
  · omega
  · omega
  · omega
  · omega

theorem readDigits_hex (digits : Str) (acc : ℕ) (afterDigit : Bool)
    (hdigits : ∀ c ∈ digits, isHexDigit c = true) (h : digits ≠ [] ∨ afterDigit = true) :
    (readDigits 16 acc afterDigit digits).isSome = true := by
  induction digits generalizing acc afterDigit with
  | nil =>
    rw [readDigits, if_pos (h.resolve_left fun hne => hne rfl)]
    rfl
  | cons c digits ih =>
    obtain ⟨hc, hrest⟩ := List.forall_mem_cons.mp hdigits
    have hunderscore : c.val ≠ 0x5F := by
      intro hval
      simp only [isHexDigit, Bool.or_eq_true, Bool.and_eq_true, decide_eq_true_eq] at hc
      omega
    rw [readDigits, if_neg hunderscore, if_pos (digitValue_hex c hc)]
    exact ih _ true hrest (Or.inr rfl)

/-- The hash of a source can be read as a hexadecimal number. -/
theorem pythonInt_sourceHash {sha256 : Str} (h : IsSourceHash sha256) :
    (pythonInt 16 sha256).isSome = true := by
  obtain ⟨hlength, hdigits, _⟩ := h
  rw [List.all_eq_true] at hdigits
  have hvalue (c : CodePoint) (hc : c ∈ sha256) : 0x30 ≤ c.val ∧ c.val ≤ 0x66
      ∧ c.val ≠ 0x78 ∧ c.val ≠ 0x58 := by
    have hdigit := hdigits c hc
    simp only [isHexDigit, Bool.or_eq_true, Bool.and_eq_true, decide_eq_true_eq] at hdigit
    omega
  have hascii : sha256.map asciiForm = sha256 := by
    refine (List.map_congr_left fun c hc => ?_).trans (List.map_id _)
    have hsmall := hvalue c hc
    rw [asciiForm, if_pos (by omega), id]
  have hspace (c : CodePoint) (hc : c ∈ sha256) : isAsciiSpace c = false := by
    have hsmall := hvalue c hc
    simp only [isAsciiSpace, Bool.or_eq_false_iff, Bool.and_eq_false_iff, decide_eq_false_iff_not,
      beq_eq_false_iff_ne]
    omega
  have hleft := dropWhile_eq_self isAsciiSpace sha256 hspace
  have hright := dropWhile_eq_self isAsciiSpace sha256.reverse
    (fun c hc => hspace c (List.mem_reverse.mp hc))
  obtain ⟨sign, x, rest, hcons⟩ : ∃ sign x rest, sha256 = sign :: x :: rest := by
    obtain ⟨sign, tail, rfl⟩ := List.exists_cons_of_length_eq_add_one hlength
    obtain ⟨x, rest, rfl⟩ :=
      List.exists_cons_of_length_eq_add_one (Nat.succ_injective hlength)
    exact ⟨sign, x, rest, rfl⟩
  have hsign := hvalue sign (by simp [hcons])
  have hx := hvalue x (by simp [hcons])
  have hread := readDigits_hex sha256 0 false hdigits
    (Or.inl (by rw [hcons]; exact List.cons_ne_nil _ _))
  have hmagnitude : readMagnitude 16 (sign :: x :: rest)
      = readDigits 16 0 false (sign :: x :: rest) := by
    unfold readMagnitude
    rw [if_pos rfl]
    dsimp only
    rw [if_neg (by omega)]
  simp only [pythonInt, hascii, hleft, hright, List.reverse_reverse]
  rw [hcons] at hread ⊢
  dsimp only
  rw [if_neg (by omega), if_neg (by omega), hmagnitude, Option.isSome_map]
  exact hread

end Hashes

namespace DoclingDocumentMapper

/-- The containers are made of the completed drafts. -/
theorem containers_returns {kind : ContainerKind} {drafts : PythonDict ℤ ContainerDraft}
    {last : ℕ} (hlast : drafts.keys.max?.getD 0 = last)
    (hdimensions : ∀ index, 0 < (draftOf kind drafts index).width
      ∧ 0 < (draftOf kind drafts index).height) :
    ∃ containers, (completedDrafts kind drafts).zipIdx.mapM (fun draft =>
        DocumentContainer.create draft.2 draft.1.width draft.1.height draft.1.blocks
          draft.1.regions draft.1.kind draft.1.label) = .ok containers
      ∧ containers.map (fun container => (container.number, container.blocks, container.regions))
        = (List.range (last+1)).map (fun index =>
          (index, (draftOf kind drafts index).blocks, (draftOf kind drafts index).regions)) := by
  have hcompleted : completedDrafts kind drafts
      = (List.range (last+1)).map (draftOf kind drafts) := by
    unfold completedDrafts
    dsimp only
    rw [hlast]
    rfl
  obtain ⟨containers, hcontainers⟩ := mapM_returns (fun draft : ContainerDraft × ℕ =>
      DocumentContainer.create draft.2 draft.1.width draft.1.height draft.1.blocks
        draft.1.regions draft.1.kind draft.1.label) (completedDrafts kind drafts).zipIdx
    (fun draft hdraft => by
      have hmem := List.fst_mem_of_mem_zipIdx hdraft
      rw [hcompleted] at hmem
      obtain ⟨index, _, hindex⟩ := List.mem_map.mp hmem
      unfold DocumentContainer.create
      rw [dif_pos (by rw [← hindex]; exact hdimensions index)]
      exact ⟨_, rfl⟩)
  refine ⟨containers, hcontainers, ?_⟩
  have hfields := mapM_map_eq
    (g := fun container : DocumentContainer =>
      (container.number, container.blocks, container.regions))
    (h := fun draft : ContainerDraft × ℕ => (draft.2, draft.1.blocks, draft.1.regions))
    (fun draft _ container hcontainer => by
      obtain ⟨hnumber, hblocks, hregions⟩ := DocumentContainer.create_fields hcontainer
      rw [hnumber, hblocks, hregions]) hcontainers
  rw [hfields, hcompleted]
  apply List.ext_getElem
  · simp
  · intro i hi hi'
    simp

theorem assetBytes_flatMap {α : Type} (f : α → List VisualRegion) (xs : List α) :
    assetBytes (xs.flatMap f) = (xs.map (fun x => assetBytes (f x))).sum := by
  induction xs with
  | nil => rfl
  | cons x xs ih =>
    rw [List.flatMap_cons, assetBytes_append, ih, List.map_cons, List.sum_cons]

/-- The office mapper returns for every document with positive page keys, heading levels of 1 or
more and as many pages and as high page numbers as the limit allows, and it keeps every item. -/
theorem map_keeps_items (limits : OfficeExtractionLimits) (document : DoclingDocument)
    (source : DocumentSource) (filename mediaType : Str) (hmedia : mediaType ≠ [])
    (hkeys : ∀ page ∈ document.pages.entries, 0 < page.1)
    (hpages : document.pages.entries.length ≤ limits.containers)
    (hitems : ∀ item ∈ document.items, ItemInRange limits item) :
    ∃ content, map limits document source filename mediaType = .ok content
      ∧ KeepsItems limits document content := by
  have hblank := pageDrafts_blank document (containerKind mediaType) filename
  obtain ⟨state, hstate, hmapped⟩ := mapItems_returns document.items
    (itemsMapped_start hblank.1) hitems
  rw [List.nil_append] at hmapped
  have hlast := maximum_key hkeys hmapped
  obtain ⟨containers, hcontainers, hfields⟩ := containers_returns hlast hmapped.dimensions
  have hnumbers : containers.map DocumentContainer.number
      = List.range (document.lastContainer+1) := by
    have hmap := congrArg (List.map Prod.fst) hfields
    rw [List.map_map, List.map_map] at hmap
    exact hmap.trans (List.map_id _)
  have hlength : containers.length = document.lastContainer+1 := by
    rw [← List.length_map (f := DocumentContainer.number), hnumbers, List.length_range]
  -- a heading names the container of its item, which is one of them
  have hreferences : ∀ entry ∈ state.outline, entry.containerNumber < containers.length := by
    intro entry hentry
    have hmem := List.mem_map_of_mem (f := outlineFields) hentry
    rw [hmapped.outline] at hmem
    obtain ⟨item, hitem, hheading⟩ := List.mem_filterMap.mp hmem
    have hcontainer : entry.containerNumber = item.container := by
      unfold outlineHeading outlineFields at hheading
      split at hheading
      · split_ifs at hheading
        exact (congrArg (fun fields => fields.2.2) (Option.some.inj hheading)).symm
      · split_ifs at hheading
        exact (congrArg (fun fields => fields.2.2) (Option.some.inj hheading)).symm
      · cases hheading
    rw [hcontainer, hlength]
    exact Nat.lt_succ_of_le (le_foldr_max (List.mem_append_right _ (List.mem_map_of_mem hitem)))
  let content : DocumentContent := ⟨source.sha256, containers, mediaType,
    if pathStem filename ≠ [] then some (pathStem filename) else document.name, state.outline,
    source.source_hash.1, pythonInt_sourceHash source.source_hash, hmedia,
    by rw [hnumbers, hlength], hreferences⟩
  -- so the constructor accepts what was collected
  have hcontent : map limits document source filename mediaType = .ok content := by
    unfold map
    dsimp only
    rw [raiseIf_of_not _ (Nat.not_lt.mpr hpages), ok_bind, hstate, ok_bind, hcontainers, ok_bind]
    unfold DocumentContent.create
    rw [dif_pos source.source_hash.1, dif_pos (pythonInt_sourceHash source.source_hash),
      dif_pos hmedia, dif_pos (by rw [hnumbers, hlength]), dif_pos hreferences]
  have hregions : containers.map DocumentContainer.regions
      = (List.range (document.lastContainer+1)).map (fun index =>
        (draftOf (containerKind mediaType) state.drafts index).regions) := by
    have hmap := congrArg (List.map (fun fields => fields.2.2)) hfields
    rwa [List.map_map, List.map_map] at hmap
  refine ⟨content, hcontent, hnumbers, ?_, ?_, hmapped.outline, hreferences, ?_, ?_⟩
  · have hmap := congrArg (List.map (fun fields => fields.2.1.map TextBlock.text)) hfields
    rw [List.map_map, List.map_map] at hmap
    refine hmap.trans (List.map_congr_left fun index _ => ?_)
    exact hmapped.blocks index
  · have hmap := congrArg (List.map (List.map VisualRegion.type)) hregions
    rw [List.map_map, List.map_map] at hmap
    refine hmap.trans (List.map_congr_left fun index _ => ?_)
    exact hmapped.regions index
  -- every region is one of a draft
  · intro container hcontainer region hregion
    have hmem := List.mem_map_of_mem (f := DocumentContainer.regions) hcontainer
    rw [hregions] at hmem
    obtain ⟨index, _, hindex⟩ := List.mem_map.mp hmem
    rw [← hindex] at hregion
    exact hmapped.assets index region hregion
  · calc assetBytes (containers.flatMap DocumentContainer.regions)
        = ((containers.map DocumentContainer.regions).map assetBytes).sum := by
          rw [assetBytes_flatMap, List.map_map]
          rfl
      _ = ∑ index ∈ Finset.range (document.lastContainer+1),
            assetBytes (draftOf (containerKind mediaType) state.drafts index).regions := by
          rw [hregions, List.map_map, ← List.toFinset_range,
            List.sum_toFinset _ List.nodup_range]
          rfl
      _ ≤ limits.totalImageBytes := (hmapped.total _).trans hmapped.budget

/-- One declared page, a title without a place and a picture on the page after the next. -/
def reportDocument : DoclingDocument where
  pages := ⟨[(1, 612, 792)], by decide⟩
  items := [⟨none, .title (ofString "Report")⟩,
    ⟨some ⟨3, ⟨0, 0, 1, 1⟩, fun _ => ⟨0, 0, 1, 1⟩⟩, .picture [] true (some [0x89])⟩]
  sheetNames := []
  name := none

theorem map_keeps_items_report : ofString "text/html" ≠ []
    ∧ (∀ page ∈ reportDocument.pages.entries, 0 < page.1)
    ∧ reportDocument.pages.entries.length ≤ 5000
    ∧ ∃ content, map ⟨50, 5000, 8, 8, 32⟩ reportDocument
        ⟨[], 0, List.replicate 64 0x61, ⟨by decide, by decide, by decide⟩⟩ (ofString "a.html")
        (ofString "text/html") = .ok content
      ∧ KeepsItems ⟨50, 5000, 8, 8, 32⟩ reportDocument content := by
  have hitems : ∀ item ∈ reportDocument.items, ItemInRange ⟨50, 5000, 8, 8, 32⟩ item := by
    intro item hitem
    rcases List.mem_cons.mp hitem with rfl | hitem
    · exact ⟨by decide, nofun, nofun⟩
    · rw [List.mem_singleton.mp hitem]
      refine ⟨by decide, nofun, ?_⟩
      rintro caption chart png ⟨⟩
      exact List.cons_ne_nil _ _
  have hkeys : ∀ page ∈ reportDocument.pages.entries, 0 < page.1 := by
    intro page hpage
    rw [List.mem_singleton.mp hpage]
    decide
  exact ⟨by decide, hkeys, by decide, map_keeps_items _ reportDocument _ _ _ (by decide) hkeys
    (by decide) hitems⟩

end DoclingDocumentMapper

end ConferWorker
