import ConferWorker.Walks
import ConferWorker.WorkerErrorReporter

/-! What `report` writes: the first four exceptions of the chain and the last 32 frames of each, and
nothing that depends on messages, arguments or local values. -/
namespace ConferWorker

namespace WorkerErrorReporter

variable {Identity Value : Type}

/-- A bounded `deque` keeps the last items. -/
theorem dequeAppend_drop {α : Type} {maxlen : ℕ} (hmaxlen : 0 < maxlen) (items : List α)
    (item : α) :
    dequeAppend maxlen (items.drop (items.length-maxlen)) item
      = (items++[item]).drop ((items++[item]).length-maxlen) := by
  rw [dequeAppend, List.length_drop, List.length_append, List.length_singleton]
  by_cases hroom : items.length < maxlen
  · have hbefore : items.length-maxlen = 0 := by omega
    have hafter : items.length+1-maxlen = 0 := by omega
    rw [hbefore, hafter, if_pos (by omega)]
    rfl
  · have hone : items.length-maxlen+1 = items.length+1-maxlen := by omega
    have hle : items.length+1-maxlen ≤ items.length := by omega
    rw [if_neg (by omega), List.tail_drop, hone, List.drop_append_of_le_length hle]

/-- The loop of `_frames` after some entries. -/
theorem framesLoop_eq (before : List Str) (traceback : List (TracebackEntry Value)) :
    framesLoop (before.drop (before.length-maxFrames)) before.length traceback
      = ((before++traceback.map frameText).drop
            ((before++traceback.map frameText).length-maxFrames),
          decide (maxFrames < (before++traceback.map frameText).length)) := by
  induction traceback generalizing before with
  | nil => rw [framesLoop, List.map_nil, List.append_nil]
  | cons entry traceback ih =>
    have hlength : (before++[frameText entry]).length = before.length+1 := List.length_append
    rw [framesLoop, dequeAppend_drop (by decide), ← hlength, ih, List.map_cons,
      List.append_assoc, List.singleton_append]

/-- The frames of an exception: the last 32, in order, and whether there are more. -/
theorem frames_eq (error : ExceptionObject Identity Value) :
    frames error
      = ((error.traceback.map frameText).drop ((error.traceback.map frameText).length-maxFrames),
          decide (maxFrames < (error.traceback.map frameText).length)) :=
  framesLoop_eq [] error.traceback

section Chain

variable [DecidableEq Identity]

/-- The loop of `_exception_chain` walks along the causes. -/
theorem exceptionChainLoop_eq (graph : ExceptionGraph Identity Value) (room : ℕ)
    (visited seen : List Identity) (current : Option Identity)
    (hroom : visited.length+room = maxExceptions)
    (hseen : ∀ error, error ∈ seen ↔ error ∈ visited) :
    exceptionChainLoop graph (visited.map (fun error => exceptionEntry (graph error))) seen current
      = ((boundedWalk (cause graph) room visited current).1.map
            (fun error => exceptionEntry (graph error)),
          (boundedWalk (cause graph) room visited current).2) := by
  induction room generalizing visited seen current with
  | zero =>
    cases current with
    | none => rw [exceptionChainLoop, boundedWalk]
    | some error =>
      have hfull : ¬ visited.length < maxExceptions := by omega
      rw [exceptionChainLoop, List.length_map, if_neg hfull, boundedWalk]
  | succ room ih =>
    cases current with
    | none => rw [exceptionChainLoop, boundedWalk]
    | some error =>
      have hfree : visited.length < maxExceptions := by omega
      rw [exceptionChainLoop, List.length_map, if_pos hfree, boundedWalk]
      by_cases hold : error ∈ visited
      · rw [if_pos ((hseen error).mpr hold), if_pos hold]
      · have hlength : (visited++[error]).length+room = maxExceptions := by
          rw [List.length_append, List.length_singleton]
          omega
        have hagain (other : Identity) :
            other ∈ error :: seen ↔ other ∈ visited++[error] := by
          rw [List.mem_cons, List.mem_append, List.mem_singleton, hseen, or_comm]
        have hrest := ih (visited++[error]) (error :: seen) (cause graph error) hlength hagain
        rw [List.map_append, List.map_singleton] at hrest
        rw [if_neg (mt (hseen error).mp hold), if_neg hold, hrest]

theorem exceptionChain_eq (graph : ExceptionGraph Identity Value) (error : Identity) :
    exceptionChain graph error
      = ((boundedWalk (cause graph) maxExceptions [] (some error)).1.map
            (fun error => exceptionEntry (graph error)),
          (boundedWalk (cause graph) maxExceptions [] (some error)).2) :=
  exceptionChainLoop_eq graph maxExceptions [] [] (some error) (Nat.zero_add _) (fun _ => Iff.rfl)

end Chain

/-- The entry of an exception, with the last 32 of its frames. -/
def shown (error : ExceptionObject Identity Value) : Json :=
  .obj [(ofString "type", .str (error.moduleName++ofString "."++error.qualname)),
    (ofString "frames", .arr (((error.traceback.map frameText).drop
      (error.traceback.length-maxFrames)).map Json.str)),
    (ofString "frames_truncated", .bool (maxFrames < error.traceback.length))]

theorem exceptionEntry_eq (error : ExceptionObject Identity Value) :
    exceptionEntry error = shown error := by
  rw [exceptionEntry, frames_eq, List.length_map]
  rfl

/-- A diagnostic has a text, for there are no numbers in it. -/
theorem diagnostic_dumps (request : Str) (errors : List (ExceptionObject Identity Value))
    (chainTruncated : Bool) :
    ∃ text, (diagnosticObject request (errors.map shown) chainTruncated).dumps = .ok text := by
  have hstr (s : Str) : ∃ text, (Json.str s).dumps = .ok text := ⟨Json.quote s, rfl⟩
  have hbool (value : Bool) : ∃ text, (Json.bool value).dumps = .ok text := ⟨_, rfl⟩
  have hshown : ∀ entry ∈ errors.map shown, ∃ text, entry.dumps = .ok text := by
    intro entry hentry
    obtain ⟨error, -, rfl⟩ := List.mem_map.mp hentry
    have hframes : ∃ text, (Json.arr (((error.traceback.map frameText).drop
        (error.traceback.length-maxFrames)).map Json.str)).dumps = .ok text := by
      apply Json.dumps_arr_exists
      intro item hitem
      obtain ⟨frame, -, rfl⟩ := List.mem_map.mp hitem
      exact hstr frame
    apply Json.dumps_obj_exists
    simp only [List.forall_mem_cons]
    exact ⟨hstr _, hframes, hbool _, List.forall_mem_nil _⟩
  apply Json.dumps_obj_exists
  simp only [List.forall_mem_cons]
  exact ⟨hstr request, Json.dumps_arr_exists hshown, hbool chainTruncated, List.forall_mem_nil _⟩

section Report

variable [DecidableEq Identity]

/-- The message is the diagnostic of what a bounded walk along the causes visits. -/
theorem message_eq (graph : ExceptionGraph Identity Value) (request : Str) (error : Identity) :
    ∃ text encoded,
      (diagnosticObject request
        ((boundedWalk (cause graph) maxExceptions [] (some error)).1.map
          (fun error => shown (graph error)))
        (boundedWalk (cause graph) maxExceptions [] (some error)).2).dumpsAscii = .ok text ∧
      encodeAscii text = some encoded ∧
      message graph request error = .ok (errorPrefix++encoded++[0x0A]) := by
  obtain ⟨plain, hplain⟩ := diagnostic_dumps request
    ((boundedWalk (cause graph) maxExceptions [] (some error)).1.map graph)
    (boundedWalk (cause graph) maxExceptions [] (some error)).2
  rw [List.map_map] at hplain
  have htext : (diagnosticObject request
      ((boundedWalk (cause graph) maxExceptions [] (some error)).1.map
        (fun error => shown (graph error)))
      (boundedWalk (cause graph) maxExceptions [] (some error)).2).dumpsAscii
        = .ok (plain.flatMap Json.asciiEscape) := by
    rw [Json.dumpsAscii]
    exact congrArg (fun text => text >>= fun text => pure (text.flatMap Json.asciiEscape)) hplain
  have hencoded := Json.dumpsAscii_encodes htext
  refine ⟨_, _, htext, hencoded, ?_⟩
  rw [message, exceptionChain_eq]
  simp only [exceptionEntry_eq]
  rw [htext, ok_bind, hencoded]
  rfl

end Report

/-- Two graphs that differ in messages, arguments and local values only, with a copy in the second
of each exception of the first. -/
structure SameButContents {Identity' Value' : Type} (graph : ExceptionGraph Identity Value)
    (graph' : ExceptionGraph Identity' Value') (copy : Identity → Identity') : Prop where
  distinct : Function.Injective copy
  moduleName : ∀ error, (graph' (copy error)).moduleName = (graph error).moduleName
  qualname : ∀ error, (graph' (copy error)).qualname = (graph error).qualname
  cause : ∀ error, (graph' (copy error)).cause = (graph error).cause.map copy
  context : ∀ error, (graph' (copy error)).context = (graph error).context.map copy
  suppressContext : ∀ error,
    (graph' (copy error)).suppressContext = (graph error).suppressContext
  traceback : ∀ error, (graph' (copy error)).traceback.map
      (fun entry => (frameModule entry.globalName, entry.qualname, entry.lineno))
    = (graph error).traceback.map
      (fun entry => (frameModule entry.globalName, entry.qualname, entry.lineno))

section Contents

variable {Identity' Value' : Type} {graph : ExceptionGraph Identity Value}
  {graph' : ExceptionGraph Identity' Value'} {copy : Identity → Identity'}

theorem SameButContents.next (same : SameButContents graph graph' copy) (error : Identity) :
    WorkerErrorReporter.cause graph' (copy error)
      = (WorkerErrorReporter.cause graph error).map copy := by
  rw [WorkerErrorReporter.cause, WorkerErrorReporter.cause, same.cause, same.context,
    same.suppressContext]
  cases (graph error).cause with
  | some cause => rfl
  | none =>
    cases (graph error).suppressContext with
    | true => rfl
    | false => rfl

theorem SameButContents.shown (same : SameButContents graph graph' copy) (error : Identity) :
    WorkerErrorReporter.shown (graph' (copy error)) = WorkerErrorReporter.shown (graph error) := by
  have htexts : (graph' (copy error)).traceback.map frameText
      = (graph error).traceback.map frameText := by
    have hmapped := congrArg (List.map (fun visible : Str × Str × Option ℕ =>
      visible.1++ofString "."++visible.2.1++ofString ":"++linenoText visible.2.2))
      (same.traceback error)
    rw [List.map_map, List.map_map] at hmapped
    exact hmapped
  have hlength : (graph' (copy error)).traceback.length = (graph error).traceback.length := by
    have hlengths := congrArg List.length htexts
    rwa [List.length_map, List.length_map] at hlengths
  rw [WorkerErrorReporter.shown, WorkerErrorReporter.shown, htexts, hlength, same.moduleName,
    same.qualname]

/-- The messages of the two graphs are the same. -/
theorem SameButContents.message [DecidableEq Identity] [DecidableEq Identity']
    (same : SameButContents graph graph' copy) (request : Str) (error : Identity) :
    WorkerErrorReporter.message graph' request (copy error)
      = WorkerErrorReporter.message graph request error := by
  have hchain : exceptionChain graph' (copy error) = exceptionChain graph error := by
    have hwalk := boundedWalk_map same.distinct same.next maxExceptions [] (some error)
    rw [List.map_nil, Option.map_some] at hwalk
    rw [exceptionChain_eq, exceptionChain_eq, hwalk, List.map_map]
    simp only [Function.comp_def, exceptionEntry_eq, same.shown]
  rw [WorkerErrorReporter.message, WorkerErrorReporter.message, hchain]

end Contents

/-- What `report` hands to the output, for every graph: the diagnostic of the first four different
exceptions of the chain of causes, with a flag that says whether there are more or the chain is
cyclic. It is the same for a graph with other contents. -/
theorem report_diagnoses [DecidableEq Identity] (emit : Bytes → Except PythonError Unit)
    (graph : ExceptionGraph Identity Value) (request : Str) (error : Identity) :
    (∃ listed truncated text encoded,
      WalkListed (cause graph) error 4 (listed, truncated) ∧
      (diagnosticObject request (listed.map (fun error => shown (graph error)))
        truncated).dumpsAscii = .ok text ∧
      encodeAscii text = some encoded ∧
      (report emit graph request error).1 = some (errorPrefix++encoded++[0x0A])) ∧
    ∀ (Identity' Value' : Type) [DecidableEq Identity']
      (graph' : ExceptionGraph Identity' Value') (copy : Identity → Identity'),
      SameButContents graph graph' copy →
      report emit graph' request (copy error) = report emit graph request error := by
  constructor
  · obtain ⟨text, encoded, htext, hencoded, hmessage⟩ := message_eq graph request error
    have hlisted : WalkListed (cause graph) error 4
        (boundedWalk (cause graph) maxExceptions [] (some error)) :=
      boundedWalk_listed maxExceptions firstVisits_nil
    refine ⟨_, _, text, encoded, hlisted, htext, hencoded, ?_⟩
    rw [report, hmessage]
  · intro Identity' Value' _ graph' copy same
    rw [report, report, same.message]

/-- Only what the output raises is raised, if it is no `OSError`. -/
theorem report_raises [DecidableEq Identity] {emit : Bytes → Except PythonError Unit}
    {graph : ExceptionGraph Identity Value} {request : Str} {error : Identity}
    {raised : PythonError} (h : (report emit graph request error).2 = .error raised) :
    raised.isOsError = false ∧ ∃ message, emit message = .error raised := by
  obtain ⟨text, encoded, -, -, hmessage⟩ := message_eq graph request error
  rw [report, hmessage] at h
  dsimp only at h
  cases hemit : emit (errorPrefix++encoded++[0x0A]) with
  | ok u =>
    rw [hemit] at h
    cases h
  | error e =>
    rw [hemit] at h
    dsimp only at h
    split_ifs at h with hos
    obtain rfl := Except.error.inj h
    exact ⟨Bool.not_eq_true _ ▸ hos, _, hemit⟩

end WorkerErrorReporter

end ConferWorker
