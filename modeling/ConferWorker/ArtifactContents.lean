import ConferWorker.ArtifactWriter
import ConferWorker.JoinedPieces

/-! What the writer stores: the text of a container, the canonical text of a
document, and the offsets at which the containers stand in it. -/
namespace ConferWorker

/-- The line feed that separates the blocks of a container. -/
def lineFeed : CodePoint := 10

/-- `"\n\f\n"`. -/
def separatorText : Str := [10, 12, 10]

@[simp] theorem utf8_separatorText : utf8 separatorText = containerSeparator := by decide

/-- The text of a container after one more block: a line feed is inserted unless
the text is empty or ends with one. -/
def appendBlock (text : Str) (block : TextBlock) : Str :=
  if text ≠ [] ∧ text.getLast? ≠ some lineFeed then text++lineFeed :: block.text
  else text++block.text

/-- The own text of a container. -/
def DocumentContainer.ownText (container : DocumentContainer) : Str :=
  container.blocks.foldl appendBlock []

/-- The canonical text of a document: the containers' own texts, separated. -/
def DocumentContent.canonicalText (document : DocumentContent) : Str :=
  separatorText.intercalate (document.containers.map DocumentContainer.ownText)

theorem utf8Bytes_getLast (c : CodePoint) :
    (utf8Bytes c).getLast? = some 10 ↔ c = lineFeed := by
  have hbyte (n : ℕ) (h : n < 256) : UInt8.ofNat n = 10 ↔ n = 10 := by
    rw [← UInt8.toNat_inj, ofNat_toNat n h]
    rfl
  have hc := c.isLt
  have hfeed : c = lineFeed ↔ c.val = 10 := Fin.ext_iff
  rw [hfeed]
  unfold utf8Bytes
  dsimp only
  split_ifs with h1 h2 h3
  · simp only [List.getLast?_singleton, Option.some.injEq]
    exact hbyte c.val (by omega)
  all_goals
    simp only [List.getLast?_cons_cons, List.getLast?_singleton, Option.some.injEq]
    rw [hbyte _ (by omega)]
    omega

/-- The last byte of a text is a line feed exactly when its last character is. -/
theorem utf8_getLast (s : Str) : (utf8 s).getLast? = some 10 ↔ s.getLast? = some lineFeed := by
  induction s using List.reverseRecOn with
  | nil => simp
  | append_singleton s c _ =>
    rw [utf8_append, utf8_cons, utf8_nil, List.append_nil,
      List.getLast?_append_of_ne_nil _ (utf8Bytes_ne_nil c), List.getLast?_concat,
      utf8Bytes_getLast]
    simp

/-- Text before the container being written: none, or text that ends with a separator. -/
def EndsLine (base : Bytes) : Prop := base = [] ∨ base.getLast? = some 10

theorem utf8_appendBlock (text : Str) (block : TextBlock) :
    utf8 (appendBlock text block) =
      (if text ≠ [] ∧ text.getLast? ≠ some lineFeed then utf8 text++[10] else utf8 text)
        ++utf8 block.text := by
  have hfeed : utf8Bytes lineFeed = [10] := by decide
  unfold appendBlock
  split_ifs
  · rw [utf8_append, utf8_cons, hfeed, List.append_assoc]
  · rw [utf8_append]

/-- The conditional line feed before a block depends on the container's own text only. -/
theorem separateBlock_append (base : Bytes) (text : Str) (order : ℕ) (block : TextBlock)
    (hbase : EndsLine base) (horder : order = 0 → text = []) :
    separateBlock (base++utf8 text) order++utf8 block.text
      = base++utf8 (appendBlock text block) := by
  have hfeed : (order ≠ 0 ∧ base++utf8 text ≠ [] ∧ (base++utf8 text).getLast? ≠ some 10) ↔
      text ≠ [] ∧ text.getLast? ≠ some lineFeed := by
    rcases eq_or_ne text [] with rfl | htext
    · simp only [utf8_nil, List.append_nil, ne_eq, not_true_eq_false, false_and, iff_false,
        not_and, not_not]
      intro _ hne
      exact hbase.resolve_left hne
    · have hbytes : utf8 text ≠ [] := (utf8_eq_nil_iff text).not.mpr htext
      have hzero : order ≠ 0 := fun h => htext (horder h)
      rw [List.getLast?_append_of_ne_nil _ hbytes]
      simp [hzero, htext, hbytes, utf8_getLast]
  rw [separateBlock, utf8_appendBlock]
  simp only [hfeed]
  split_ifs <;> simp only [List.append_assoc]

theorem appendBlock_eq_nil_iff (text : Str) (block : TextBlock) :
    appendBlock text block = [] ↔ text = [] ∧ block.text = [] := by
  unfold appendBlock
  split_ifs with h <;> simp [h]

/-- Where the blocks of a container stand that begins at `start` and already
holds `text`. -/
def blockRanges (start : ℕ) : Str → List TextBlock → List BlockRange
  | _, [] => []
  | text, block :: blocks =>
    let stop := start+(utf8 (appendBlock text block)).length
    ⟨stop-(utf8 block.text).length, stop⟩ :: blockRanges start (appendBlock text block) blocks

/-- The rows of the blocks from `order` on. -/
def blockRowsFrom (number start order : ℕ) (text : Str) (blocks : List TextBlock) : List BlockRow :=
  ((blocks.zip (blockRanges start text blocks)).zipIdx order).map (fun entry =>
    blockRow number entry.2 entry.1.1 entry.1.2)

/-- One block appends its text to the text of its container. -/
theorem writeBlock_ok {number order : ℕ} {block : TextBlock} {state state' : ContentState}
    {ranges ranges' : List BlockRange} {base : Bytes} {text : Str} (hbase : EndsLine base)
    (hcanonical : state.canonical = base++utf8 text) (horder : order = 0 → text = [])
    (h : writeBlock number (state, ranges) (block, order) = .ok (state', ranges')) :
    Encodable block.text ∧ ∃ range : BlockRange,
      range.stop = base.length+(utf8 (appendBlock text block)).length ∧
      range.start = range.stop-(utf8 block.text).length ∧
      state' = ⟨base++utf8 (appendBlock text block), state.containerRanges,
        state.database.insertBlocks [blockRow number order block range]⟩ ∧
      ranges' = ranges++[range] := by
  simp only [writeBlock, bind_eq_ok, encodeText_eq_ok, pure_eq_ok, Prod.mk.injEq] at h
  obtain ⟨encoded, ⟨hencodable, rfl⟩, rfl, rfl⟩ := h
  have happend := separateBlock_append base text order block hbase horder
  have hlength : (base++utf8 (appendBlock text block)).length
      = base.length+(utf8 (appendBlock text block)).length := List.length_append
  rw [← happend, ← hcanonical] at hlength
  rw [← happend, ← hcanonical]
  refine ⟨hencodable, _, hlength, ?_, rfl, rfl⟩
  rw [List.length_append, Nat.add_sub_cancel]

/-- All blocks of a container append its own text. -/
theorem writeBlocks_ok {number order : ℕ} {blocks : List TextBlock} {state state' : ContentState}
    {ranges ranges' : List BlockRange} {base : Bytes} {text : Str} (hbase : EndsLine base)
    (hcanonical : state.canonical = base++utf8 text) (horder : order = 0 → text = [])
    (h : (blocks.zipIdx order).foldlM (writeBlock number) (state, ranges) = .ok (state', ranges')) :
    (∀ block ∈ blocks, Encodable block.text) ∧
      state' = ⟨base++utf8 (blocks.foldl appendBlock text), state.containerRanges,
        state.database.insertBlocks (blockRowsFrom number base.length order text blocks)⟩ ∧
      ranges' = ranges++blockRanges base.length text blocks := by
  induction blocks generalizing order state ranges text with
  | nil =>
    simp only [List.zipIdx_nil, List.foldlM_nil, pure_eq_ok, Prod.mk.injEq] at h
    obtain ⟨rfl, rfl⟩ := h
    refine ⟨by simp, ?_, by simp [blockRanges]⟩
    simp [← hcanonical, Database.insertBlocks, blockRowsFrom]
  | cons block blocks ih =>
    simp only [List.zipIdx_cons, List.foldlM_cons, bind_eq_ok, Prod.exists] at h
    obtain ⟨next, nextRanges, hstep, hrest⟩ := h
    obtain ⟨hblock, ⟨start, stop⟩, hstop, hstart, rfl, rfl⟩ :=
      writeBlock_ok hbase hcanonical horder hstep
    obtain ⟨hblocks, rfl, rfl⟩ := ih rfl (by omega) hrest
    dsimp only at hstop hstart
    subst hstart
    subst hstop
    refine ⟨List.forall_mem_cons.mpr ⟨hblock, hblocks⟩, ?_, by simp [blockRanges]⟩
    simp [Database.insertBlocks, blockRowsFrom, blockRanges]

/-- The bytes of the containers' own texts. -/
def ownBytes (containers : List DocumentContainer) : List Bytes :=
  containers.map (fun container => utf8 container.ownText)

@[simp] theorem ownBytes_length (containers : List DocumentContainer) :
    (ownBytes containers).length = containers.length :=
  List.length_map _

@[simp] theorem ownBytes_append (before after : List DocumentContainer) :
    ownBytes (before++after) = ownBytes before++ownBytes after :=
  List.map_append

@[simp] theorem ownBytes_singleton (container : DocumentContainer) :
    ownBytes [container] = [utf8 container.ownText] := rfl

theorem utf8_intercalate (sep : Str) (texts : List Str) :
    utf8 (sep.intercalate texts) = (utf8 sep).intercalate (texts.map utf8) := by
  induction texts with
  | nil => rfl
  | cons text texts ih =>
    rcases eq_or_ne texts [] with rfl | hne
    · simp
    · rw [intercalate_cons sep text texts hne, List.map_cons,
        intercalate_cons (utf8 sep) _ _ (by simp [hne]), utf8_append, utf8_append, ih]

theorem DocumentContent.utf8_canonicalText (document : DocumentContent) :
    utf8 document.canonicalText = containerSeparator.intercalate (ownBytes document.containers) := by
  rw [canonicalText, utf8_intercalate, utf8_separatorText, List.map_map]
  rfl

/-- Where the container at index `i` stands in the canonical text. -/
def canonicalRange (containers : List DocumentContainer) (entry : DocumentContainer × ℕ) :
    ContainerRange where
  containerNumber := entry.1.number
  start := pieceStart containerSeparator (ownBytes containers) entry.2
  stop := pieceEnd containerSeparator (ownBytes containers) entry.2

theorem separateContainer_append (done : List DocumentContainer) (container : DocumentContainer) :
    separateContainer (containerSeparator.intercalate (ownBytes done)) done.length
        ++utf8 container.ownText
      = containerSeparator.intercalate (ownBytes (done++[container])) := by
  rcases eq_or_ne done [] with rfl | hne
  · simp [separateContainer, ownBytes]
  · have hbytes : ownBytes done ≠ [] := by simp [ownBytes, hne]
    have hlength : done.length ≠ 0 := by simp [hne]
    rw [separateContainer, if_pos hlength, ownBytes_append, ownBytes_singleton,
      intercalate_append_right containerSeparator _ _ hbytes]
    simp [List.append_assoc]

theorem separateContainer_endsLine (done : List DocumentContainer) :
    EndsLine (separateContainer (containerSeparator.intercalate (ownBytes done)) done.length) := by
  rcases eq_or_ne done [] with rfl | hne
  · exact Or.inl rfl
  · have hlength : done.length ≠ 0 := by simp [hne]
    right
    rw [separateContainer, if_pos hlength, List.getLast?_append_of_ne_nil _ (by decide)]
    rfl

theorem separateContainer_length (done rest : List DocumentContainer) :
    (separateContainer (containerSeparator.intercalate (ownBytes done)) done.length).length
      = pieceStart containerSeparator (ownBytes (done++rest)) done.length := by
  rcases List.eq_nil_or_concat' done with rfl | ⟨front, last, rfl⟩
  · rfl
  · have hlength : (front++[last]).length = front.length+1 := by simp
    have hlt : front.length < (ownBytes (front++[last]++rest)).length := by simp
    have hend := pieceStart_add_length containerSeparator (ownBytes (front++[last]++rest)) 0
      front.length (by omega) hlt
    have htake : (ownBytes (front++[last]++rest)).take (front.length+1)
        = ownBytes (front++[last]) := by
      rw [ownBytes_append, List.take_left' (by simp)]
    rw [htake, pieceStart_zero, List.drop_zero, Nat.zero_add] at hend
    rw [hlength, separateContainer, if_pos (by omega), List.length_append, hend,
      pieceStart_succ _ _ _ hlt]

theorem canonicalRange_stop (done rest : List DocumentContainer) (container : DocumentContainer) :
    (containerSeparator.intercalate (ownBytes (done++[container]))).length
      = pieceEnd containerSeparator (ownBytes (done++container :: rest)) done.length := by
  have hend := pieceStart_add_length containerSeparator (ownBytes (done++container :: rest)) 0
    done.length (by omega) (by simp)
  have htake : (ownBytes (done++container :: rest)).take (done.length+1)
      = ownBytes (done++[container]) := by
    rw [List.append_cons done container rest, ownBytes_append, List.take_left' (by simp)]
  rwa [htake, pieceStart_zero, List.drop_zero, Nat.zero_add] at hend

/-- Every text that a container stores can be encoded. -/
structure ContainerEncodable (container : DocumentContainer) : Prop where
  blocks : ∀ block ∈ container.blocks, Encodable block.text
  label : ∀ label, container.label = some label → Encodable label
  regions : ∀ region ∈ container.regions, Encodable region.id

/-- The rows of a container's regions. -/
theorem writeRegions_ok {container : DocumentContainer} {containerBlocks : List BlockRange}
    {regions : List VisualRegion} {database database' : Database}
    (h : regions.foldlM (writeRegion container containerBlocks) database = .ok database') :
    (∀ region ∈ regions, Encodable region.id) ∧
      database' = database.insertRegions (regions.map (fun region => regionRow container.number
        region (overlapping region containerBlocks container.blocks))) := by
  induction regions generalizing database with
  | nil =>
    simp only [List.foldlM_nil, pure_eq_ok] at h
    subst h
    simp [Database.insertRegions]
  | cons region regions ih =>
    simp only [List.foldlM_cons, bind_eq_ok, writeRegion, sqlText_eq_ok, raiseIf_eq_ok,
      pure_eq_ok] at h
    obtain ⟨next, ⟨_, ⟨hid, rfl⟩, _, _, rfl⟩, hrest⟩ := h
    obtain ⟨hregions, rfl⟩ := ih hrest
    refine ⟨List.forall_mem_cons.mpr ⟨hid, hregions⟩, ?_⟩
    simp [Database.insertRegions]

/-- The ranges of the blocks of the container at index `i`. -/
def containerBlockRanges (containers : List DocumentContainer) (entry : DocumentContainer × ℕ) :
    List BlockRange :=
  blockRanges (canonicalRange containers entry).start [] entry.1.blocks

def containerBlockRows (containers : List DocumentContainer) (entry : DocumentContainer × ℕ) :
    List BlockRow :=
  blockRowsFrom entry.1.number (canonicalRange containers entry).start 0 [] entry.1.blocks

def containerRegionRows (containers : List DocumentContainer) (entry : DocumentContainer × ℕ) :
    List RegionRow :=
  entry.1.regions.map (fun region => regionRow entry.1.number region
    (overlapping region (containerBlockRanges containers entry) entry.1.blocks))

/-- One container appends its own text, its range and its rows. -/
theorem writeContainer_ok {done : List DocumentContainer} (rest : List DocumentContainer)
    {container : DocumentContainer} {state state' : ContentState}
    (hcanonical : state.canonical = containerSeparator.intercalate (ownBytes done))
    (h : writeContainer state (container, done.length) = .ok state') :
    ContainerEncodable container ∧
      state'.canonical = containerSeparator.intercalate (ownBytes (done++[container])) ∧
      state'.containerRanges = state.containerRanges
        ++[canonicalRange (done++container :: rest) (container, done.length)] ∧
      state'.database = ((state.database.insertBlocks
          (containerBlockRows (done++container :: rest) (container, done.length))).insertContainers
        [containerRow container (canonicalRange (done++container :: rest)
          (container, done.length))]).insertRegions
        (containerRegionRows (done++container :: rest) (container, done.length)) := by
  simp only [writeContainer, bind_eq_ok, Prod.exists, sqlOptionalText_eq_ok, pure_eq_ok] at h
  rw [hcanonical] at h
  obtain ⟨content, containerBlocks, hblocks, label, ⟨hlabel, rfl⟩, database, hregions, rfl⟩ := h
  obtain ⟨hencodable, rfl, rfl⟩ := writeBlocks_ok
    (separateContainer_endsLine done) ((List.append_nil _).symm) (fun _ => rfl) hblocks
  obtain ⟨hids, rfl⟩ := writeRegions_ok hregions
  have hstart := separateContainer_length done (container :: rest)
  have hstop := separateContainer_append done container
  rw [DocumentContainer.ownText] at hstop
  have hrange : (⟨container.number,
      (separateContainer (containerSeparator.intercalate (ownBytes done)) done.length).length,
      (separateContainer (containerSeparator.intercalate (ownBytes done)) done.length
        ++utf8 (container.blocks.foldl appendBlock [])).length⟩ : ContainerRange)
      = canonicalRange (done++container :: rest) (container, done.length) := by
    rw [hstop, hstart, canonicalRange_stop done rest container]
    rfl
  refine ⟨⟨hencodable, hlabel, hids⟩, hstop, ?_, ?_⟩
  · simp only [hrange]
  · simp only [hrange, List.nil_append]
    rw [hstart]
    rfl

/-- The rows of the containers table. -/
def containerRows (document : DocumentContent) : List ContainerRow :=
  document.containers.zipIdx.map (fun entry =>
    containerRow entry.1 (canonicalRange document.containers entry))

/-- The rows of the blocks table. -/
def blockRows (document : DocumentContent) : List BlockRow :=
  document.containers.zipIdx.flatMap (containerBlockRows document.containers)

/-- The rows of the regions table. -/
def regionRows (document : DocumentContent) : List RegionRow :=
  document.containers.zipIdx.flatMap (containerRegionRows document.containers)

/-- All containers append their own texts, ranges and rows. -/
theorem writeContainers_ok {all rest : List DocumentContainer} (done : List DocumentContainer)
    {state state' : ContentState}
    (hall : all = done++rest)
    (hcanonical : state.canonical = containerSeparator.intercalate (ownBytes done))
    (h : (rest.zipIdx done.length).foldlM writeContainer state = .ok state') :
    (∀ container ∈ rest, ContainerEncodable container) ∧
      state'.canonical = containerSeparator.intercalate (ownBytes all) ∧
      state'.containerRanges = state.containerRanges
        ++(rest.zipIdx done.length).map (canonicalRange all) ∧
      state'.database = ((state.database.insertBlocks
          ((rest.zipIdx done.length).flatMap (containerBlockRows all))).insertContainers
        ((rest.zipIdx done.length).map (fun entry =>
          containerRow entry.1 (canonicalRange all entry)))).insertRegions
        ((rest.zipIdx done.length).flatMap (containerRegionRows all)) := by
  induction rest generalizing done state with
  | nil =>
    simp only [List.zipIdx_nil, List.foldlM_nil, pure_eq_ok] at h
    subst h
    rw [List.append_nil] at hall
    subst hall
    refine ⟨by simp, hcanonical, by simp, ?_⟩
    simp [Database.insertBlocks, Database.insertContainers, Database.insertRegions]
  | cons container rest ih =>
    simp only [List.zipIdx_cons, List.foldlM_cons, bind_eq_ok] at h
    obtain ⟨next, hstep, hrest⟩ := h
    obtain ⟨hcontainer, hnext, hranges, hdatabase⟩ :=
      writeContainer_ok rest hcanonical hstep
    have hlength : done.length+1 = (done++[container]).length := by simp
    rw [hlength] at hrest
    obtain ⟨hcontainers, hfinal, hranges', hdatabase'⟩ := ih _ (by simp [hall]) hnext hrest
    rw [← hall] at hranges hdatabase
    refine ⟨List.forall_mem_cons.mpr ⟨hcontainer, hcontainers⟩, hfinal, ?_, ?_⟩
    · rw [hranges', hranges, ← hlength]
      simp
    · rw [hdatabase', hdatabase, ← hlength]
      simp [Database.insertBlocks, Database.insertContainers, Database.insertRegions]

/-- The rows of the outline table. -/
def outlineRows (document : DocumentContent) : List OutlineRow :=
  document.outline.zipIdx.map (fun entry =>
    ⟨entry.2, entry.1.level, entry.1.title, entry.1.containerNumber⟩)

theorem writeOutline_ok {entries : List (OutlineEntry × ℕ)} {database database' : Database}
    (h : entries.foldlM writeOutlineEntry database = .ok database') :
    (∀ entry ∈ entries, Encodable entry.1.title ∧ entry.1.level < 2^63) ∧
      database' = database.insertOutline (entries.map (fun entry =>
        ⟨entry.2, entry.1.level, entry.1.title, entry.1.containerNumber⟩)) := by
  induction entries generalizing database with
  | nil =>
    simp only [List.foldlM_nil, pure_eq_ok] at h
    subst h
    simp [Database.insertOutline]
  | cons entry entries ih =>
    simp only [List.foldlM_cons, bind_eq_ok, writeOutlineEntry, sqlInteger, raiseIf_eq_ok,
      sqlText_eq_ok, pure_eq_ok, not_le] at h
    obtain ⟨next, ⟨_, ⟨_, hlevel, rfl⟩, _, ⟨htitle, rfl⟩, rfl⟩, hrest⟩ := h
    obtain ⟨hentries, rfl⟩ := ih hrest
    refine ⟨List.forall_mem_cons.mpr ⟨⟨htitle, hlevel⟩, hentries⟩, ?_⟩
    simp [Database.insertOutline]

/-- What `_write_content` leaves in the tables. -/
structure ContentWritten (document : DocumentContent) (content : ContentState) : Prop where
  encodable : ∀ container ∈ document.containers, ContainerEncodable container
  canonical : content.canonical = utf8 document.canonicalText
  ranges : content.containerRanges
    = document.containers.zipIdx.map (canonicalRange document.containers)
  containers : content.database.containers = containerRows document
  outline : content.database.outline = outlineRows document
  outlineTitles : ∀ entry ∈ document.outline, Encodable entry.title
  blocks : content.database.blocks = blockRows document
  regions : content.database.regions = regionRows document
  format : content.database.applicationId = applicationId ∧
    content.database.userVersion = schemaVersion
  rest : content.database.metadata = [] ∧ content.database.documentText = none ∧
    content.database.chunks = [] ∧ content.database.chunkFts = []

theorem writeContent_ok {document : DocumentContent} {content : ContentState}
    (h : writeContent createSchema document = .ok content) : ContentWritten document content := by
  simp only [writeContent, bind_eq_ok, pure_eq_ok] at h
  obtain ⟨state, hcontainers, database, houtline, rfl⟩ := h
  obtain ⟨hencodable, hcanonical, hranges, hdatabase⟩ :=
    writeContainers_ok [] rfl rfl hcontainers
  obtain ⟨htitles, rfl⟩ := writeOutline_ok houtline
  rw [hdatabase]
  refine ⟨hencodable, ?_, hranges, rfl, rfl, ?_, rfl, rfl, ⟨rfl, rfl⟩, rfl, rfl, rfl, rfl⟩
  · rw [hcanonical, document.utf8_canonicalText, List.nil_append]
  · intro entry hentry
    obtain ⟨i, hi, rfl⟩ := List.mem_iff_getElem.mp hentry
    exact (htitles (document.outline[i], i) (by simp [List.mem_zipIdx_iff_getElem?])).1

theorem appendBlocks_encodable (blocks : List TextBlock) (text : Str) (htext : Encodable text)
    (h : ∀ block ∈ blocks, Encodable block.text) : Encodable (blocks.foldl appendBlock text) := by
  induction blocks generalizing text with
  | nil => exact htext
  | cons block blocks ih =>
    obtain ⟨hblock, hblocks⟩ := List.forall_mem_cons.mp h
    apply ih _ _ hblocks
    unfold appendBlock
    split_ifs
    · exact (encodable_append _ _).mpr ⟨htext, (encodable_cons _ _).mpr ⟨rfl, hblock⟩⟩
    · exact (encodable_append _ _).mpr ⟨htext, hblock⟩

theorem intercalate_encodable (sep : Str) (texts : List Str) (hsep : Encodable sep)
    (h : ∀ text ∈ texts, Encodable text) : Encodable (sep.intercalate texts) := by
  induction texts with
  | nil => exact encodable_nil
  | cons text texts ih =>
    obtain ⟨htext, htexts⟩ := List.forall_mem_cons.mp h
    rcases eq_or_ne texts [] with rfl | hne
    · simpa using htext
    · rw [intercalate_cons sep text texts hne, encodable_append, encodable_append]
      exact ⟨⟨htext, hsep⟩, ih htexts⟩

theorem DocumentContainer.ownText_encodable (container : DocumentContainer)
    (h : ContainerEncodable container) : Encodable container.ownText :=
  appendBlocks_encodable container.blocks [] encodable_nil h.blocks

theorem DocumentContent.canonicalText_encodable (document : DocumentContent)
    (h : ∀ container ∈ document.containers, ContainerEncodable container) :
    Encodable document.canonicalText := by
  apply intercalate_encodable separatorText _ (by decide)
  intro text htext
  obtain ⟨container, hcontainer, rfl⟩ := List.mem_map.mp htext
  exact container.ownText_encodable (h container hcontainer)

theorem appendBlocks_eq_nil_iff (blocks : List TextBlock) (text : Str) :
    blocks.foldl appendBlock text = [] ↔ text = [] ∧ ∀ block ∈ blocks, block.text = [] := by
  induction blocks generalizing text with
  | nil => simp
  | cons block blocks ih =>
    rw [List.foldl_cons, ih, appendBlock_eq_nil_iff, List.forall_mem_cons, and_assoc]

/-- The canonical text is empty exactly when there is at most one container and
all its blocks are empty. -/
theorem DocumentContent.canonicalText_eq_nil_iff (document : DocumentContent) :
    document.canonicalText = [] ↔ document.containers.length ≤ 1 ∧
      ∀ container ∈ document.containers, ∀ block ∈ container.blocks, block.text = [] := by
  rw [canonicalText, intercalate_eq_nil_iff separatorText _ (by decide), List.length_map,
    List.forall_mem_map]
  simp only [DocumentContainer.ownText, appendBlocks_eq_nil_iff, true_and]

end ConferWorker
