import ConferWorker.ArtifactBuild
import ConferWorker.NumberedRows

/-! The rows of a built artifact, as the queries of the reader see them. -/
namespace ConferWorker

open ArtifactWriter

/-- The offsets of container `i` in the canonical text. -/
def startOffset (document : DocumentContent) (i : ℕ) : ℕ :=
  pieceStart containerSeparator (ownBytes document.containers) i

def endOffset (document : DocumentContent) (i : ℕ) : ℕ :=
  pieceEnd containerSeparator (ownBytes document.containers) i

theorem containerRows_length (document : DocumentContent) :
    (containerRows document).length = document.containers.length := by
  simp [containerRows]

theorem containerRows_getElem (document : DocumentContent) (i : ℕ)
    (h : i < (containerRows document).length) (hi : i < document.containers.length) :
    (containerRows document)[i]
      = containerRow document.containers[i] ⟨i, startOffset document i, endOffset document i⟩ := by
  simp only [containerRows, List.getElem_map, List.getElem_zipIdx, Nat.zero_add, canonicalRange,
    document.number_eq i hi, startOffset, endOffset]

theorem containerRows_number (document : DocumentContent) (i : ℕ)
    (h : i < (containerRows document).length) :
    (containerRows document)[i].containerNumber = i := by
  have hi : i < document.containers.length := by rwa [containerRows_length] at h
  rw [containerRows_getElem document i h hi]
  exact document.number_eq i hi

theorem containerRows_sorted (document : DocumentContent) :
    (containerRows document).Pairwise (fun a b => a.containerNumber ≤ b.containerNumber) := by
  rw [List.pairwise_iff_getElem]
  intro i j hi hj hij
  rw [containerRows_number document i hi, containerRows_number document j hj]
  omega

/-- `_containers` and `read_containers` select a run of the rows. -/
theorem containersBetween_built {document : DocumentContent} {reader : ArtifactReader}
    (written : DocumentWritten document reader.database) (first last : ℕ) :
    reader.containersBetween first last
      = ((containerRows document).take (last+1)).drop first := by
  have hrun := filter_between ContainerRow.containerNumber (containerRows document) 0 first last
    (fun i h => by rw [containerRows_number document i h, Nat.zero_add])
  rw [Nat.sub_zero, Nat.sub_zero] at hrun
  unfold ArtifactReader.containersBetween ArtifactReader.byContainerNumber
  rw [written.containers, hrun]
  apply List.Pairwise.insertionSort_eq
  exact ((containerRows_sorted document).sublist (List.take_sublist _ _)).sublist
    (List.drop_sublist _ _)

/-- The reference to a container. -/
def containerReferenceOf (container : DocumentContainer) : ContainerReference :=
  ⟨container.number, container.kind, container.label⟩

/-- The references to the containers from `first` to `last`. -/
def containerReferences (document : DocumentContent) (first last : ℕ) : List ContainerReference :=
  ((document.containers.take (last+1)).drop first).map containerReferenceOf

theorem containerReference_row (container : DocumentContainer) (range : ContainerRange) :
    ArtifactReader.containerReference (containerRow container range)
      = .ok (containerReferenceOf container) := by
  simp [ArtifactReader.containerReference, ArtifactReader.containerKind, containerRow,
    containerReferenceOf, bind, Except.bind, pure, Except.pure]

/-- The reference to a region of a container. -/
def regionReferenceOf (number : ℕ) (region : VisualRegion) : RegionReference :=
  ⟨region.id, number, region.type, region.confidence, region.renderable⟩

theorem regionReference_row (number : ℕ) (region : VisualRegion) (overlaps : List BlockRange) :
    ArtifactReader.regionReference (regionRow number region overlaps)
      = .ok (regionReferenceOf number region) := by
  have htype : ArtifactReader.visualRegionType (regionRow number region overlaps).type
      = .ok region.type := by
    rw [ArtifactReader.visualRegionType, regionRow, VisualRegionType.ofValue_value]
  have hrenderable : ((if region.renderable then 1 else 0) != 0) = region.renderable := by
    cases region.renderable <;> rfl
  unfold ArtifactReader.regionReference
  rw [htype, ok_bind]
  simp only [regionRow, hrenderable]
  rfl

/-- A region with its container and the index of the container. -/
abbrev PlacedRegion := (DocumentContainer × ℕ) × VisualRegion

def placedRegions (entries : List (DocumentContainer × ℕ)) : List PlacedRegion :=
  entries.flatMap (fun entry => entry.1.regions.map (fun region => (entry, region)))

/-- The row of a region of a document. -/
def placedRow (containers : List DocumentContainer) (placed : PlacedRegion) : RegionRow :=
  regionRow placed.1.1.number placed.2
    (overlapping placed.2 (containerBlockRanges containers placed.1) placed.1.1.blocks)

def placedReference (placed : PlacedRegion) : RegionReference :=
  regionReferenceOf placed.1.1.number placed.2

theorem regionRows_placed (document : DocumentContent) :
    regionRows document
      = (placedRegions document.containers.zipIdx).map (placedRow document.containers) := by
  rw [regionRows, placedRegions, List.map_flatMap]
  congr 1
  funext entry
  rw [containerRegionRows, List.map_map]
  rfl

/-- The order of `_regions` on what it returns. -/
def referenceBefore (a b : RegionReference) : Prop :=
  a.containerNumber < b.containerNumber ∨ (a.containerNumber = b.containerNumber ∧ a.id ≤ b.id)

instance (a b : RegionReference) : Decidable (referenceBefore a b) :=
  inferInstanceAs (Decidable (_ ∨ _))

/-- The first 20 of some references in the order of container number and id. -/
def firstRegions (references : List RegionReference) : List RegionReference :=
  (references.insertionSort referenceBefore).take 20

/-- The rows of containers come back as references to them. -/
theorem containerReferences_rows (containers : List DocumentContainer)
    (entries : List (DocumentContainer × ℕ)) :
    (entries.map (fun entry => containerRow entry.1 (canonicalRange containers entry))).mapM
        ArtifactReader.containerReference
      = .ok ((entries.map Prod.fst).map containerReferenceOf) := by
  rw [List.mapM_map, List.map_map]
  exact mapM_eq_ok_map _ _ _ (fun entry _ => containerReference_row entry.1 _)

section Built

variable {document : DocumentContent} {reader : ArtifactReader}
  (written : DocumentWritten document reader.database)

include written

theorem containersIn_built (first last : ℕ) :
    reader.containersIn first last = .ok (containerReferences document first last) := by
  have hrows : ((containerRows document).take (last+1)).drop first
      = ((document.containers.zipIdx.take (last+1)).drop first).map (fun entry =>
          containerRow entry.1 (canonicalRange document.containers entry)) := by
    rw [containerRows, List.map_drop, List.map_take]
  have hentries : (document.containers.take (last+1)).drop first
      = ((document.containers.zipIdx.take (last+1)).drop first).map Prod.fst := by
    rw [List.map_drop, List.map_take, List.zipIdx_map_fst]
  unfold ArtifactReader.containersIn containerReferences
  rw [containersBetween_built written, hrows, hentries, containerReferences_rows]

/-- The query of `_regions` on the rows of a document. -/
theorem regionsIn_eq (start stop first last : ℕ) :
    reader.regionsIn start stop first last = .ok (firstRegions
      (((placedRegions document.containers.zipIdx).filter (fun placed =>
        ArtifactReader.regionSelected start stop first last
          (placedRow document.containers placed))).map placedReference)) := by
  -- sorting commutes with reading the rows, which keeps number and id
  have hsorted (placed : List PlacedRegion) :
      (placed.map (placedRow document.containers)).insertionSort ArtifactReader.regionBefore
        = (placed.insertionSort (fun a b => referenceBefore (placedReference a)
            (placedReference b))).map (placedRow document.containers) :=
    (List.map_insertionSort _ _ (placedRow document.containers) placed
      (fun _ _ _ _ => Iff.rfl)).symm
  unfold ArtifactReader.regionsIn firstRegions
  rw [written.regions, regionRows_placed, List.filter_map, hsorted, ← List.map_take,
    List.mapM_map, ← List.map_insertionSort (fun a b => referenceBefore (placedReference a)
      (placedReference b)) referenceBefore placedReference _ (fun _ _ _ _ => Iff.rfl),
    ← List.map_take]
  exact mapM_eq_ok_map _ _ _ (fun placed _ => regionReference_row placed.1.1.number placed.2 _)

/-- Every stored region has a type that the reader knows. -/
theorem regionsIn_built (start stop first last : ℕ) :
    ∃ regions, reader.regionsIn start stop first last = .ok regions :=
  ⟨_, regionsIn_eq written start stop first last⟩

theorem text_built (htext : reader.textBytes = (utf8 document.canonicalText).length)
    (hnonempty : document.canonicalText ≠ []) (start stop : ℕ) (horder : start ≤ stop)
    (hstop : stop ≤ (utf8 document.canonicalText).length) :
    reader.text start stop = .ok (slice (utf8 document.canonicalText) start stop) := by
  have hbytes : utf8 document.canonicalText ≠ [] := (utf8_eq_nil_iff _).not.mpr hnonempty
  unfold ArtifactReader.text ArtifactReader.sqliteSubstr
  rw [raiseIf_of_not _ (by omega), written.documentText, ok_bind]
  simp only [if_neg hbytes]
  rw [Nat.add_sub_cancel, Nat.add_sub_cancel' horder]

theorem readContainers_eq (n count maxBytes : ℕ) (hn : n < document.containers.length)
    (hcount : 1 ≤ count ∧ count ≤ 20) :
    ∃ first rest, reader.readContainers n count maxBytes
        = reader.windowOf document.containers.length maxBytes (first :: rest) ∧
      (first :: rest).length = min (document.containers.length-1) (n+count-1)+1-n ∧
      ∀ i (h : i < (first :: rest).length), (first :: rest)[i].containerNumber = n+i ∧
        (first :: rest)[i].startOffset = startOffset document (n+i) ∧
        (first :: rest)[i].endOffset = endOffset document (n+i) := by
  have htotal : reader.database.containers.length = document.containers.length := by
    rw [written.containers, containerRows_length]
  have hread : reader.readContainers n count maxBytes
      = reader.windowOf document.containers.length maxBytes (((containerRows document).take
          (min (document.containers.length-1) (n+count-1)+1)).drop n) := by
    unfold ArtifactReader.readContainers
    dsimp only
    rw [htotal, raiseIf_of_not _ (by omega), ok_bind, raiseIf_of_not _ (by omega), ok_bind,
      containersBetween_built written]
  have hlength : (((containerRows document).take
      (min (document.containers.length-1) (n+count-1)+1)).drop n).length
      = min (document.containers.length-1) (n+count-1)+1-n := by
    simp only [List.length_drop, List.length_take, containerRows_length]
    omega
  have hrow (i : ℕ) (hi : i < (((containerRows document).take
      (min (document.containers.length-1) (n+count-1)+1)).drop n).length)
      (hni : n+i < document.containers.length) :
      (((containerRows document).take
        (min (document.containers.length-1) (n+count-1)+1)).drop n)[i]
        = containerRow document.containers[n+i]
          ⟨n+i, startOffset document (n+i), endOffset document (n+i)⟩ := by
    rw [List.getElem_drop, List.getElem_take, containerRows_getElem document (n+i) _ hni]
  obtain ⟨first, rest, hrows⟩ := List.exists_cons_of_ne_nil
    (List.ne_nil_of_length_pos (by rw [hlength]; omega))
  rw [hrows] at hread hlength
  refine ⟨first, rest, hread, hlength, ?_⟩
  intro i hi
  have hi' := hrow i (by rw [hrows]; exact hi) (by omega)
  simp only [hrows] at hi'
  rw [hi']
  exact ⟨document.number_eq _ _, rfl, rfl⟩

end Built

end ConferWorker
