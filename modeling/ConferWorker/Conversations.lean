import ConferWorker.ErrorResponses
import ConferWorker.ReceivedFrames

/-! A client and the worker: the requests that the client writes are the messages that the
worker answers, and the responses on its output are read back one for each request. -/
namespace ConferWorker

open ProtocolCodec ProtocolPresenter JsonParser

variable {Reader Content : Type} {runtime : JsonRuntime}

/-- A column whose text is the one that the runtime writes for the float. -/
def SqlValue.Stable (runtime : JsonRuntime) : SqlValue → Prop
  | .real digits => StableFloat runtime digits
  | _ => True

/-- The floats of a window. -/
structure WindowValue.Stable (runtime : JsonRuntime) (value : WindowValue) : Prop where
  range : value.containerStart.Stable runtime ∧ value.containerEnd.Stable runtime
  regions : ∀ region ∈ value.regions, region.id.Stable runtime
    ∧ region.containerNumber.Stable runtime ∧ region.confidence.Stable runtime
  containers : ∀ container ∈ value.containers, container.number.Stable runtime
    ∧ container.label.Stable runtime

theorem column_shape {value : SqlValue} (h : value.Stable runtime) (depth : ℕ) :
    HasShape runtime depth (column value) ∧ (column value).NoRepeats := by
  cases value with
  | real digits =>
    rw [column, HasShape]
    exact ⟨h, by simp only [Json.NoRepeats]⟩
  | null => simp only [column, HasShape, Json.NoRepeats, and_self]
  | integer value => simp only [column, HasShape, Json.NoRepeats, and_self]
  | text value => simp only [column, HasShape, Json.NoRepeats, and_self]
  | blob value => simp only [column, HasShape, Json.NoRepeats, and_self]

/-- An object whose members have the shape and whose names are distinct. -/
theorem obj_shape {depth : ℕ} {members : List (Str × Json)}
    (h : ∀ member ∈ members, HasShape runtime depth member.2 ∧ member.2.NoRepeats)
    (hnames : (members.map Prod.fst).Nodup) :
    HasShape runtime (depth+1) (.obj members) ∧ (Json.obj members).NoRepeats := by
  rw [HasShape, membersHaveShape_iff, Json.NoRepeats, noRepeatsMembers_iff]
  exact ⟨fun member hmember => (h member hmember).1,
    fun member hmember => (h member hmember).2, hnames⟩

theorem arr_shape {depth : ℕ} {items : List Json}
    (h : ∀ item ∈ items, HasShape runtime depth item ∧ item.NoRepeats) :
    HasShape runtime (depth+1) (.arr items) ∧ (Json.arr items).NoRepeats := by
  rw [HasShape, itemsHaveShape_iff, Json.NoRepeats, noRepeatsItems_iff]
  exact ⟨fun item hitem => (h item hitem).1, fun item hitem => (h item hitem).2⟩

/-- Values without parts. -/
def Json.isPlain : Json → Bool
  | .null | .bool _ | .int _ | .str _ => true
  | _ => false

theorem plain_shape {value : Json} (h : value.isPlain = true) (depth : ℕ) :
    HasShape runtime depth value ∧ value.NoRepeats := by
  cases value with
  | null => simp only [HasShape, Json.NoRepeats, and_self]
  | bool value => simp only [HasShape, Json.NoRepeats, and_self]
  | int n => simp only [HasShape, Json.NoRepeats, and_self]
  | str s => simp only [HasShape, Json.NoRepeats, and_self]
  | float text => cases h
  | bytes value => cases h
  | arr items => cases h
  | obj members => cases h

theorem region_shape {value : RegionValue} (h : value.id.Stable runtime
    ∧ value.containerNumber.Stable runtime ∧ value.confidence.Stable runtime) (depth : ℕ) :
    HasShape runtime (depth+1) (region value) ∧ (region value).NoRepeats := by
  have hnames : [ofString "id", ofString "container_number", ofString "type",
      ofString "confidence", ofString "renderable"].Nodup := by decide
  refine obj_shape ?_ hnames
  simp only [List.forall_mem_cons, List.not_mem_nil, false_implies, implies_true, and_true]
  exact ⟨column_shape h.1 depth, column_shape h.2.1 depth, plain_shape rfl depth,
    column_shape h.2.2 depth, plain_shape rfl depth⟩

theorem container_shape {value : ContainerValue} (h : value.number.Stable runtime
    ∧ value.label.Stable runtime) (depth : ℕ) :
    HasShape runtime (depth+1) (container value) ∧ (container value).NoRepeats := by
  have hnames : [ofString "number", ofString "kind", ofString "label"].Nodup := by decide
  refine obj_shape ?_ hnames
  simp only [List.forall_mem_cons, List.not_mem_nil, false_implies, implies_true, and_true]
  exact ⟨column_shape h.1 depth, plain_shape rfl depth, column_shape h.2 depth⟩

theorem window_shape {value : WindowValue} (h : value.Stable runtime) (depth : ℕ) :
    HasShape runtime (depth+3) (window value) ∧ (window value).NoRepeats := by
  have hnames : [ofString "container_start", ofString "container_end",
      ofString "total_containers", ofString "regions", ofString "containers",
      ofString "truncated"].Nodup := by decide
  have hregions : HasShape runtime (depth+2) (.arr (value.regions.map region))
      ∧ (Json.arr (value.regions.map region)).NoRepeats := by
    apply arr_shape
    intro item hitem
    obtain ⟨found, hfound, rfl⟩ := List.mem_map.mp hitem
    exact region_shape (h.regions found hfound) depth
  have hcontainers : HasShape runtime (depth+2) (.arr (value.containers.map container))
      ∧ (Json.arr (value.containers.map container)).NoRepeats := by
    apply arr_shape
    intro item hitem
    obtain ⟨found, hfound, rfl⟩ := List.mem_map.mp hitem
    exact container_shape (h.containers found hfound) depth
  refine obj_shape ?_ hnames
  simp only [List.forall_mem_cons, List.not_mem_nil, false_implies, implies_true, and_true]
  exact ⟨column_shape h.range.1 _, column_shape h.range.2 _, plain_shape rfl _, hregions,
    hcontainers, plain_shape rfl _⟩

/-- An object of values without parts. -/
theorem plainObject_shape {members : List (Str × Json)}
    (h : members.all (fun member => member.2.isPlain) = true)
    (hnames : (members.map Prod.fst).Nodup) (depth : ℕ) :
    HasShape runtime (depth+1) (.obj members) ∧ (Json.obj members).NoRepeats := by
  refine obj_shape (fun member hmember => plain_shape ?_ depth) hnames
  exact List.all_eq_true.mp h member hmember

theorem message_header {result : Option Json} {payloads : List (PayloadRole × PayloadValue)}
    {distinct : (payloads.map Prod.fst).Nodup} {response : ProtocolMessage}
    (h : message result payloads distinct = .ok response) : response.header = okHeader result :=
  create_header distinct h

section Headers

variable (hdepth : 4 ≤ runtime.maxDepth)

include hdepth

/-- An object whose levels fit below the header. -/
theorem readableHeader_of_shape {header : List (Str × Json)}
    (h : ∀ depth, ∀ member ∈ header, HasShape runtime (depth+3) member.2 ∧ member.2.NoRepeats)
    (hnames : (header.map Prod.fst).Nodup) : ReadableHeader runtime header := by
  obtain ⟨depth, hmax⟩ : ∃ depth, depth+4 = runtime.maxDepth := ⟨runtime.maxDepth-4, by omega⟩
  refine ⟨⟨depth+3, hmax, fun member hmember => (h depth member hmember).1⟩, ?_, hnames⟩
  rw [noRepeatsMembers_iff]
  exact fun member hmember => (h depth member hmember).2

theorem okHeader_readable {result : Option Json}
    (h : ∀ value ∈ result, ∀ depth, HasShape runtime (depth+3) value ∧ value.NoRepeats) :
    ReadableHeader runtime (okHeader result) := by
  apply readableHeader_of_shape hdepth
  · intro depth
    rw [okHeader, List.forall_mem_append]
    refine ⟨?_, ?_⟩
    · simp only [List.forall_mem_cons, List.not_mem_nil, false_implies, implies_true, and_true]
      exact ⟨plain_shape rfl _, plain_shape rfl _⟩
    · intro member hmember
      obtain ⟨value, hvalue, rfl⟩ := Option.map_eq_some_iff.mp (Option.mem_toList.mp hmember)
      exact h value hvalue depth
  · cases result with
    | none => exact (by decide : [ofString "version", ofString "status"].Nodup)
    | some value =>
      exact (by decide : [ofString "version", ofString "status", ofString "result"].Nodup)

theorem errorHeader_readable (code message : Str) :
    ReadableHeader runtime (errorHeader code message) := by
  have hnames : [ofString "version", ofString "status", ofString "error"].Nodup := by decide
  have herror : [ofString "code", ofString "message"].Nodup := by decide
  apply readableHeader_of_shape hdepth
  · intro depth
    simp only [errorHeader, List.forall_mem_cons, List.not_mem_nil, false_implies, implies_true,
      and_true]
    refine ⟨plain_shape rfl _, plain_shape rfl _, ?_⟩
    apply plainObject_shape
    · rfl
    · exact herror
  · exact hnames

/-- The header of a response of the presenter. -/
theorem present_readable {answer : WorkerResponse (workerTypes Reader Content)}
    {response : ProtocolMessage} (h : present answer = .ok response)
    (hstable : ∀ value : WindowValue, answer = .session (.read value) → value.Stable runtime) :
    ReadableHeader runtime response.header := by
  have hnone : ∀ value ∈ (none : Option Json), ∀ depth,
      HasShape runtime (depth+3) value ∧ value.NoRepeats := by
    intro value hvalue
    cases hvalue
  have hjson {value : Json} (hvalue : jsonMessage value = .ok response) :
      ReadableHeader runtime response.header := by
    obtain ⟨encoded, -, hresponse⟩ := (bind_eq_ok _ _ _).mp hvalue
    rw [message_header hresponse]
    exact okHeader_readable hdepth hnone
  rcases answer with result | answer
  · simp only [present, extraction, bind_eq_ok] at h
    obtain ⟨text, _, encoded, _, _, _, hresponse⟩ := h
    rw [message_header hresponse]
    refine okHeader_readable hdepth ?_
    intro value hvalue depth
    obtain rfl := Option.some.inj hvalue
    have hnames : [ofString "text_bytes", ofString "text_characters",
        ofString "json_escaped_text_bytes"].Nodup := by decide
    apply plainObject_shape
    · rfl
    · exact hnames
  cases answer with
  | empty =>
    have hmessage : message none [] List.nodup_nil = .ok response := h
    rw [message_header hmessage]
    exact okHeader_readable hdepth hnone
  | overview documentMetadata outline labeledContainers firstChunkId content =>
    obtain ⟨selected, -, hresponse⟩ := (bind_eq_ok _ _ _).mp h
    exact hjson hresponse
  | search hits hasMore => exact hjson h
  | read textWindow =>
    obtain ⟨text, -, hresponse⟩ := (bind_eq_ok _ _ _).mp h
    rw [message_header hresponse]
    refine okHeader_readable hdepth ?_
    intro value hvalue depth
    obtain rfl := Option.some.inj hvalue
    exact window_shape (hstable textWindow rfl) depth
  | render page =>
    have hmessage : message (some (renderResult page)) [(.image, .content page.png)]
        (List.nodup_singleton _) = .ok response := h
    rw [message_header hmessage]
    refine okHeader_readable hdepth ?_
    intro value hvalue depth
    obtain rfl := Option.some.inj hvalue
    have hnames : [ofString "media_type", ofString "width", ofString "height",
        ofString "container_number"].Nodup := by decide
    apply plainObject_shape
    · rfl
    · exact hnames

end Headers

/-- The windows that the reader returns hold floats of the runtime. -/
def WorkerCalls.Stable (runtime : JsonRuntime) (calls : WorkerCalls Reader Content) : Prop :=
  ∀ reader number count (value : WindowValue),
    calls.session.readContainers reader number count = .ok value → value.Stable runtime

/-- Only a read is answered with a window, and the window comes from the reader. -/
theorem handle_window {calls : WorkerCalls Reader Content} {session : DocumentSession Reader}
    {request : WorkerRequest (workerTypes Reader Content)} {value : WindowValue}
    (h : (handleRequest calls session request).2 = .ok (.session (.read value))) :
    ∃ reader number count, calls.session.readContainers reader number count = .ok value := by
  rcases request with request | request
  · obtain ⟨result, -, heq⟩ := (map_eq_ok _ _ _).mp h
    cases heq
  · have hexecute : (session.execute calls.session request).2 = .ok (.read value) := by
      obtain ⟨response, hresponse, heq⟩ := (map_eq_ok _ _ _).mp h
      cases heq
      exact hresponse
    cases request with
    | read request =>
      obtain ⟨reader, -, window, hwindow, heq⟩ := execute_read.mp hexecute
      cases heq
      exact ⟨reader.reader, request.containerNumber, request.containerCount, hwindow⟩
    | overview request =>
      obtain ⟨_, _, _, _, _, _, _, _, _, _, _, _, heq⟩ := execute_overview.mp hexecute
      cases heq
    | search request =>
      obtain ⟨_, _, _, _, heq⟩ := execute_search.mp hexecute
      cases heq
    | render request =>
      obtain ⟨_, _, _, _, heq⟩ := execute_render.mp hexecute
      cases heq
    | openDocument request => cases execute_empty rfl hexecute
    | openText request => cases execute_empty rfl hexecute
    | release request => cases execute_empty rfl hexecute
    | close => cases execute_empty rfl hexecute

theorem respond_readable (hdepth : 4 ≤ runtime.maxDepth) {calls : WorkerCalls Reader Content}
    (stable : calls.Stable runtime) (session : DocumentSession Reader)
    (request : WorkerRequest (workerTypes Reader Content)) :
    ReadableHeader runtime (respond calls session request).2.header := by
  rw [respond_eq]
  rcases hanswer : (handleRequest calls session request).2 with error | answer
  · change ReadableHeader runtime (if error.isApplicationError = true then _ else _ :
      ProtocolMessage).header
    split_ifs
    · exact errorHeader_readable hdepth _ _
    · exact errorHeader_readable hdepth _ _
  · rw [ok_bind]
    rcases hpresent : present answer with error | response
    · dsimp only
      split_ifs
      · exact errorHeader_readable hdepth _ _
      · exact errorHeader_readable hdepth _ _
    · refine present_readable hdepth hpresent ?_
      rintro value rfl
      obtain ⟨reader, number, count, hwindow⟩ := handle_window hanswer
      exact stable reader number count value hwindow

/-- What an exchange of a run writes can be read back. -/
theorem Exchange.Made.response_readable (hdepth : 4 ≤ runtime.maxDepth)
    {process : WorkerProcess Reader Content} (foreign : ∀ i, (process.calls i).Foreign)
    (stable : ∀ i, (process.calls i).Stable runtime) {exchange : Exchange Reader Content}
    (h : exchange.Made process) :
    Sendable exchange.response ∧ LoadsBack (loads runtime) exchange.response := by
  have hback {response : ProtocolMessage} (hsendable : Sendable response)
      (hreadable : ReadableHeader runtime response.header) :
      Sendable response ∧ LoadsBack (loads runtime) response :=
    ⟨hsendable, loadsBack_readable (by omega) hsendable hreadable⟩
  cases h with
  | refused n session message check =>
    exact hback (invalidRequest_writable check.message_short).1 (errorHeader_readable hdepth _ _)
  | served n session message request =>
    exact hback (respond_writable_iff (foreign n) session request).1
      (respond_readable hdepth (stable n) session request)

/-- As far as the stream goes, its frames are these messages; where it is cut nothing else is
read. -/
def ReadsUpTo (loads : JsonLoads) : List ProtocolMessage → ByteSource → Prop
  | [], stream => stream.data = []
  | message :: messages, stream => (∃ error, read loads stream = .error error)
      ∨ ∃ received next, read loads stream = .ok (received, next) ∧ received.view = message.view
        ∧ ReadsUpTo loads messages next

section Written

variable {messages : List ProtocolMessage} {loads : JsonLoads}
  (sent : ∀ message ∈ messages, Sendable message ∧ LoadsBack loads message
    ∧ (write message).2 = .ok ())

include sent

theorem writeAll_bytes : (writeAll messages).1 = messages.flatMap (fun message =>
    (write message).1) := by
  induction messages with
  | nil => rfl
  | cons message messages ih =>
    obtain ⟨⟨-, -, hreturns⟩, hrest⟩ := List.forall_mem_cons.mp sent
    rw [List.flatMap_cons, ← ih hrest]
    rcases hwrite : write message with ⟨bytes, outcome⟩
    rw [hwrite] at hreturns
    obtain rfl : outcome = .ok () := hreturns
    rw [writeAll, hwrite]

/-- A stream that ends early is read as far as it goes. -/
theorem readsUpTo_cut (stream : ByteSource) (missing : Bytes)
    (hdata : stream.data++missing = (writeAll messages).1) : ReadsUpTo loads messages stream := by
  induction messages generalizing stream with
  | nil => exact (List.append_eq_nil_iff.mp hdata).1
  | cons message messages ih =>
    obtain ⟨⟨hsendable, hloads, hreturns⟩, hrest⟩ := List.forall_mem_cons.mp sent
    rcases write_cases hsendable with ⟨error, hwrite⟩ | ⟨encoded, framed, hwrite⟩
    · rw [hwrite] at hreturns
      cases hreturns
    have hall : (writeAll (message :: messages)).1
        = frameBytes message encoded++(writeAll messages).1 := by
      rw [writeAll, hwrite]
    rw [hall] at hdata
    rcases Nat.lt_or_ge stream.data.length (frameBytes message encoded).length with hcut | hwhole
    · -- the cut is inside the first frame
      obtain ⟨rest, hrest⟩ := List.prefix_of_prefix_length_le ⟨missing, hdata⟩
        ⟨(writeAll messages).1, rfl⟩ hcut.le
      have hne : rest ≠ [] := by
        rintro rfl
        rw [List.append_nil] at hrest
        rw [hrest] at hcut
        exact absurd hcut (lt_irrefl _)
      exact Or.inl (read_truncated hsendable hloads framed stream rest hne hrest)
    · obtain ⟨front, hfront⟩ := List.prefix_of_prefix_length_le
        ⟨(writeAll messages).1, rfl⟩ ⟨missing, hdata⟩ hwhole
      obtain ⟨received, next, hread, hview, hnext⟩ :=
        read_frame hsendable hloads framed stream front hfront.symm
      refine Or.inr ⟨received, next, hread, hview, ih hrest next ?_⟩
      rw [hnext]
      rw [← hfront, List.append_assoc, List.append_cancel_left_eq] at hdata
      exact hdata

end Written

/-- The answered exchanges of a run: all of them, or all but one whose `_write` raised. -/
def WorkerRun.AnsweredBy (run : WorkerRun Reader Content)
    (answers : List (Exchange Reader Content)) : Prop :=
  run.exchanges = answers
    ∨ ∃ last error, run.exchanges = answers++[last] ∧ run.ending = .unwritten error
      ∧ last.outcome = .error error

/-- The exchanges of a run are about the first of these messages, about all of them if the run
ended at the end of its input, and no `_write` raised before the last one. -/
structure WorkerRun.Follows (run : WorkerRun Reader Content)
    (views : List (List (Str × Json) × List (PayloadRole × Str × Bytes))) : Prop where
  asked : run.exchanges.map (fun exchange => exchange.message.view) <+: views
  complete : ∀ error, run.ending = .unread error →
    run.exchanges.map (fun exchange => exchange.message.view) = views
  answered : ∃ answers, run.AnsweredBy answers
    ∧ ∀ exchange ∈ answers, exchange.outcome = .ok ()

section Runs

variable {views : List (List (Str × Json) × List (PayloadRole × Str × Bytes))}

theorem follows_nothing {ending : WorkerEnding} (h : ∀ error, ending ≠ .unread error)
    (session : DocumentSession Reader) :
    (⟨[], ending, session⟩ : WorkerRun Reader Content).Follows views :=
  ⟨List.nil_prefix, fun error herror => absurd herror (h error), [], Or.inl rfl,
    List.forall_mem_nil _⟩

theorem follows_andThen (exchange : Exchange Reader Content) {rest : WorkerRun Reader Content}
    (h : rest.Follows views) :
    (exchange.andThen rest).Follows (exchange.message.view :: views) := by
  rcases houtcome : exchange.outcome with error | ⟨⟩
  · rw [andThen_error houtcome]
    refine ⟨⟨views, rfl⟩, fun other hother => ?_, [], Or.inr ⟨exchange, error, rfl, rfl, houtcome⟩,
      List.forall_mem_nil _⟩
    cases hother
  · rw [andThen_ok houtcome]
    obtain ⟨answers, hanswers, hwritten⟩ := h.answered
    refine ⟨List.prefix_cons_inj _ |>.mpr h.asked,
      fun error herror => congrArg (List.cons _) (h.complete error herror),
      exchange :: answers, ?_, List.forall_mem_cons.mpr ⟨houtcome, hwritten⟩⟩
    rcases hanswers with hall | ⟨last, error, hall, hending, hlast⟩
    · exact Or.inl (congrArg (List.cons exchange) hall)
    · exact Or.inr ⟨last, error, congrArg (List.cons exchange) hall, hending, hlast⟩

/-- An empty stream holds no message. -/
theorem read_empty (loads : JsonLoads) {stream : ByteSource} (h : stream.data = []) :
    ∃ error, ProtocolCodec.read loads stream = .error error := by
  refine ⟨ProtocolPayload.truncatedMessage, ?_⟩
  rw [ProtocolCodec.read, readExact_short stream headerLengthSize (by rw [h]; decide)]
  rfl

variable {process : WorkerProcess Reader Content}

/-- `_run_session` on the messages of a client, by induction on the messages. -/
theorem runSession_follows (requests : List ProtocolMessage) (n : ℕ)
    (session : DocumentSession Reader) (stream : ByteSource)
    (h : ReadsBack process.loads [] requests stream) :
    (process.runSession n session stream).Follows (requests.map ProtocolMessage.view) := by
  induction requests generalizing n session stream with
  | nil =>
    obtain ⟨error, hread⟩ := read_empty process.loads h
    rw [WorkerProcess.runSession_unread hread]
    exact ⟨List.nil_prefix, fun _ _ => rfl, [], Or.inl rfl, List.forall_mem_nil _⟩
  | cons request requests ih =>
    obtain ⟨received, next, hread, hview, -, hrest⟩ := h
    obtain ⟨hfiles, -⟩ := read_ok hread
    rw [WorkerProcess.runSession_read hread, List.map_cons, ← hview]
    rcases decode_checks process hfiles with ⟨decoded, hdecode⟩ | ⟨check, hdecode⟩
    · rw [hdecode]
      rcases decoded with decoded | decoded
      · exact follows_andThen (refuse (process.calls n) session received _)
          (ih (n+1) session next hrest)
      · cases decoded with
        | close =>
          exact follows_andThen (serve (process.calls n) session received _)
            (follows_nothing (fun _ h => by cases h) _)
        | _ =>
          exact follows_andThen (serve (process.calls n) session received _)
            (ih (n+1) _ next hrest)
    · rw [hdecode]
      exact follows_andThen (refuse (process.calls n) session received _)
        (ih (n+1) session next hrest)

theorem run_follows (requests : List ProtocolMessage) (stream : ByteSource)
    (h : ReadsBack process.loads [] requests stream) :
    (process.run stream).Follows (requests.map ProtocolMessage.view) := by
  have hserved : (process.serveAll stream).Follows (requests.map ProtocolMessage.view) := by
    unfold WorkerProcess.serveAll
    cases requests with
    | nil =>
      obtain ⟨error, hread⟩ := read_empty process.loads h
      rw [hread]
      exact ⟨List.nil_prefix, fun _ _ => rfl, [], Or.inl rfl, List.forall_mem_nil _⟩
    | cons request requests =>
      obtain ⟨received, next, hread, hview, -, hrest⟩ := h
      obtain ⟨hfiles, -⟩ := read_ok hread
      have hreturned (session : DocumentSession Reader) :
          (⟨[], .returned, session⟩ : WorkerRun Reader Content).Follows
            (requests.map ProtocolMessage.view) := follows_nothing (fun _ h => by cases h) session
      rw [hread, List.map_cons, ← hview]
      dsimp only
      rcases decode_checks process hfiles with ⟨decoded, hdecode⟩ | ⟨check, hdecode⟩
      · rw [hdecode]
        rcases decoded with decoded | decoded
        · exact follows_andThen (serve (process.calls 0) .initial received _) (hreturned _)
        · cases decoded with
          | close =>
            exact follows_andThen (serve (process.calls 0) .initial received _) (hreturned _)
          | _ =>
            exact follows_andThen (serve (process.calls 0) .initial received _)
              (runSession_follows requests 1 _ next hrest)
      · rw [hdecode]
        exact follows_andThen (refuse (process.calls 0) .initial received _) (hreturned _)
  exact ⟨hserved.asked, hserved.complete, hserved.answered⟩

end Runs

/-- What a client and the worker owe each other: the worker handles the requests in order, each
once; the output is exactly the responses to them; and where the output is cut, nothing but a
first part of these responses is read from it. -/
structure Conversation (runtime : JsonRuntime) (requests : List ProtocolMessage)
    (run : WorkerRun Reader Content) : Prop where
  asked : run.exchanges.map (fun exchange => exchange.message.view)
    <+: requests.map ProtocolMessage.view
  complete : ∀ error, run.ending = .unread error →
    run.exchanges.map (fun exchange => exchange.message.view) = requests.map ProtocolMessage.view
  answered : ∃ answers, run.AnsweredBy answers
    ∧ (∀ (rest : Bytes) (stream : ByteSource), stream.data = run.output++rest →
      ReadsBack (loads runtime) rest (answers.map Exchange.response) stream)
    ∧ ∀ (stream : ByteSource) (missing : Bytes), stream.data++missing = run.output →
      ReadsUpTo (loads runtime) (answers.map Exchange.response) stream

/-- The worker and its client agree on the requests and the responses, however the transport
cuts their streams, whatever is in the documents, and whatever the collaborators raise. -/
theorem conversation_agrees (runtime : JsonRuntime) (hdepth : 4 ≤ runtime.maxDepth)
    (process : WorkerProcess Reader Content) (hloads : process.loads = loads runtime)
    (foreign : ∀ i, (process.calls i).Foreign)
    (stable : ∀ i, (process.calls i).Stable runtime) (requests : List ProtocolMessage)
    (sent : ∀ request ∈ requests, Sendable request ∧ ReadableHeader runtime request.header)
    (stream : ByteSource) (hdata : stream.data = (writeAll requests).1) :
    Conversation runtime (writeAll requests).2 (process.run stream) := by
  have hread : ReadsBack process.loads [] (writeAll requests).2 stream := by
    rw [hloads]
    refine readsBack_writeAll (fun request hrequest => (sent request hrequest).1) ?_ [] stream
      (by rw [hdata, List.append_nil])
    intro request hrequest
    obtain ⟨hsendable, hreadable⟩ := sent request hrequest
    exact loadsBack_readable (by omega) hsendable hreadable
  -- the worker's side: it follows the requests as far as they were read
  obtain ⟨asked, complete, answers, hanswers, hwritten⟩ := run_follows _ stream hread
  refine ⟨asked, complete, answers, hanswers, ?_⟩
  have hmade : ∀ exchange ∈ (process.run stream).exchanges, exchange.Made process :=
    run_made process stream
  have hanswered : ∀ exchange ∈ answers, exchange.Made process := by
    intro exchange hexchange
    rcases hanswers with hall | ⟨last, error, hall, -⟩
    · exact hmade exchange (by rw [hall]; exact hexchange)
    · exact hmade exchange (by rw [hall]; exact List.mem_append_left _ hexchange)
  -- the client's side: the presenter made every answer, so the client reads its header
  have hresponses : ∀ response ∈ answers.map Exchange.response, Sendable response
      ∧ LoadsBack (loads runtime) response ∧ (ProtocolCodec.write response).2 = .ok () := by
    intro response hresponse
    obtain ⟨exchange, hexchange, rfl⟩ := List.mem_map.mp hresponse
    obtain ⟨hsendable, hback⟩ :=
      (hanswered exchange hexchange).response_readable hdepth foreign stable
    refine ⟨hsendable, hback, ?_⟩
    rw [← (hanswered exchange hexchange).written_eq]
    exact hwritten exchange hexchange
  have houtput : (process.run stream).output = (writeAll (answers.map Exchange.response)).1 := by
    have hbytes : answers.flatMap Exchange.written
        = (writeAll (answers.map Exchange.response)).1 := by
      rw [writeAll_bytes hresponses, List.flatMap_map]
      apply List.flatMap_congr
      intro exchange hexchange
      rw [← (hanswered exchange hexchange).written_eq]
    rw [WorkerRun.output]
    rcases hanswers with hall | ⟨last, error, hall, -, hlast⟩
    · rw [hall, hbytes]
    · -- a frame that was not written leaves no byte on the output
      have hlastMade : last.Made process := hmade last (by rw [hall]; simp)
      have hnothing : last.written = [] := by
        have hwrite := hlastMade.written_eq
        rcases write_cases (hlastMade.response_readable hdepth foreign stable).1 with
          ⟨other, hother⟩ | ⟨encoded, -, hother⟩
        · rw [hother] at hwrite
          exact congrArg Prod.fst hwrite
        · rw [hother, hlast] at hwrite
          cases congrArg Prod.snd hwrite
      rw [hall, List.flatMap_append, List.flatMap_singleton, hnothing, List.append_nil, hbytes]
  refine ⟨?_, ?_⟩
  · intro rest output hrest
    rw [houtput] at hrest
    have hall := readsBack_writeAll (fun response hresponse => (hresponses response hresponse).1)
      (fun response hresponse => (hresponses response hresponse).2.1) rest output hrest
    rwa [writeAll_all fun response hresponse => (hresponses response hresponse).2.2] at hall
  · intro output missing hcut
    rw [houtput] at hcut
    exact readsUpTo_cut hresponses output missing hcut

end ConferWorker
