import ConferWorker.DocumentContent
import ConferWorker.PythonErrors

/-! The constructors of the domain classes with the checks of `__post_init__` and the texts of
their errors. -/
namespace ConferWorker

/-- `Bounds(x0, y0, x1, y1)`; all floats are finite here. -/
def Bounds.create (x0 y0 x1 y1 : ℚ) : Except PythonError Bounds :=
  if h : 0 ≤ x0 ∧ 0 ≤ y0 ∧ x0 ≤ x1 ∧ y0 ≤ y1 then .ok ⟨x0, y0, x1, y1, h⟩
  else .error (.valueError (ofString "bounds must form a non-negative rectangle"))

/-- `TextBlock(text, bounds, source, confidence)`. -/
def TextBlock.create (text : Str) (bounds : Bounds) (source : TextSource) (confidence : ℚ) :
    Except PythonError TextBlock :=
  if h : 0 ≤ confidence ∧ confidence ≤ 1 then .ok ⟨text, bounds, source, confidence, h⟩
  else .error (.valueError (ofString "block confidence must be between zero and one"))

/-- `VisualRegion(id, type, bounds, confidence, renderable, asset_media_type, asset)`. -/
def VisualRegion.create (id : Str) (type : VisualRegionType) (bounds : Bounds) (confidence : ℚ)
    (renderable : Bool) (assetMediaType : Option Str) (asset : Option Bytes) :
    Except PythonError VisualRegion :=
  if hid : id ≠ [] then
    if hconfidence : 0 ≤ confidence ∧ confidence ≤ 1 then
      if hempty : asset ≠ some [] then
        if hpng : asset ≠ none → assetMediaType = some (ofString "image/png") then
          if hmedia : asset = none → assetMediaType = none then
            if hrenderable : asset ≠ none → renderable = true then
              .ok ⟨id, type, bounds, confidence, renderable, assetMediaType, asset, hid,
                hconfidence, hempty, hpng, hmedia, hrenderable⟩
            else .error (.valueError (ofString "region assets must be renderable"))
          else .error (.valueError (ofString "region media type requires an asset"))
        else .error (.valueError (ofString "region assets must be PNG images"))
      else .error (.valueError (ofString "region asset cannot be empty"))
    else .error (.valueError (ofString "region confidence must be between zero and one"))
  else .error (.valueError (ofString "region ID is required"))

/-- `DocumentContainer(number, width, height, blocks, regions, kind, label)`. -/
def DocumentContainer.create (number : ℕ) (width height : ℚ) (blocks : List TextBlock)
    (regions : List VisualRegion) (kind : ContainerKind) (label : Option Str) :
    Except PythonError DocumentContainer :=
  if h : 0 < width ∧ 0 < height then
    .ok ⟨number, width, height, blocks, regions, kind, label, h⟩
  else .error (.valueError (ofString "container dimensions must be positive"))

/-- `OutlineEntry(level, title, container_number)`. -/
def OutlineEntry.create (level : ℕ) (title : Str) (containerNumber : ℕ) :
    Except PythonError OutlineEntry :=
  if hlevel : 1 ≤ level then
    if htitle : title ≠ [] then .ok ⟨level, title, containerNumber, hlevel, htitle⟩
    else .error (.valueError (ofString "outline title is required"))
  else .error (.valueError (ofString "outline level must be positive"))

/-- `DocumentContent(source_sha256, containers, media_type, title, outline)`. -/
def DocumentContent.create (sourceSha256 : Str) (containers : List DocumentContainer)
    (mediaType : Str) (title : Option Str) (outline : List OutlineEntry) :
    Except PythonError DocumentContent :=
  if hlength : sourceSha256.length = 64 then
    if hdigits : (pythonInt 16 sourceSha256).isSome then
      if hmedia : mediaType ≠ [] then
        if hnumbers : containers.map DocumentContainer.number = List.range containers.length then
          if houtline : ∀ entry ∈ outline, entry.containerNumber < containers.length then
            .ok ⟨sourceSha256, containers, mediaType, title, outline, hlength, hdigits, hmedia,
              hnumbers, houtline⟩
          else
            .error (.valueError (ofString "outline entry references a missing document container"))
        else
          .error (.valueError (ofString "document containers must be zero-based and contiguous"))
      else .error (.valueError (ofString "document media type is required"))
    else .error (.valueError (ofString "source SHA-256 must be hexadecimal"))
  else .error (.valueError (ofString "source SHA-256 must contain 64 hexadecimal characters"))

theorem VisualRegion.create_fields {id : Str} {type : VisualRegionType} {bounds : Bounds}
    {confidence : ℚ} {renderable : Bool} {assetMediaType : Option Str} {asset : Option Bytes}
    {region : VisualRegion}
    (h : VisualRegion.create id type bounds confidence renderable assetMediaType asset
      = .ok region) : region.id = id ∧ region.type = type := by
  unfold VisualRegion.create at h
  split_ifs at h
  rw [← Except.ok.inj h]
  exact ⟨rfl, rfl⟩

theorem DocumentContainer.create_fields {number : ℕ} {width height : ℚ} {blocks : List TextBlock}
    {regions : List VisualRegion} {kind : ContainerKind} {label : Option Str}
    {container : DocumentContainer}
    (h : DocumentContainer.create number width height blocks regions kind label = .ok container) :
    container.number = number ∧ container.blocks = blocks ∧ container.regions = regions := by
  unfold DocumentContainer.create at h
  split_ifs at h
  rw [← Except.ok.inj h]
  exact ⟨rfl, rfl, rfl⟩

theorem DocumentContent.create_containers {sourceSha256 : Str}
    {containers : List DocumentContainer} {mediaType : Str} {title : Option Str}
    {outline : List OutlineEntry} {content : DocumentContent}
    (h : DocumentContent.create sourceSha256 containers mediaType title outline = .ok content) :
    content.containers = containers := by
  unfold DocumentContent.create at h
  split_ifs at h
  rw [← Except.ok.inj h]

/-- A region without an asset. -/
theorem VisualRegion.create_plain {id : Str} (type : VisualRegionType) (bounds : Bounds)
    {confidence : ℚ} (renderable : Bool) (hid : id ≠ [])
    (hconfidence : 0 ≤ confidence ∧ confidence ≤ 1) :
    ∃ region, VisualRegion.create id type bounds confidence renderable none none
      = .ok region := by
  unfold VisualRegion.create
  rw [dif_pos hid, dif_pos hconfidence, dif_pos (by decide), dif_pos (fun h => absurd rfl h),
    dif_pos (fun _ => rfl), dif_pos (fun h => absurd rfl h)]
  exact ⟨_, rfl⟩

end ConferWorker
