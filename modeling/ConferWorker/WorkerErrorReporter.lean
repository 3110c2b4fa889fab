import ConferWorker.AsciiJson

/-! `WorkerErrorReporter`: what is written about an exception, its causes and their tracebacks. -/
namespace ConferWorker

/-- `__name__` in the globals of a frame, where any value can stand. -/
inductive GlobalName (Value : Type)
  | missing
  | text (name : Str)
  | other (value : Value)

/-- An entry of a traceback and its frame. -/
structure TracebackEntry (Value : Type) where
  globalName : GlobalName Value
  qualname : Str
  lineno : Option ℕ
  locals : List (Str × Value)

/-- An exception, with the module and the name of its type. Causes and contexts are links to other
exceptions, or to itself. -/
structure ExceptionObject (Identity Value : Type) where
  moduleName : Str
  qualname : Str
  message : Str
  args : List Value
  cause : Option Identity
  context : Option Identity
  suppressContext : Bool
  traceback : List (TracebackEntry Value)

abbrev ExceptionGraph (Identity Value : Type) := Identity → ExceptionObject Identity Value

namespace WorkerErrorReporter

variable {Identity Value : Type}

def maxExceptions : ℕ := 4

def maxFrames : ℕ := 32

/-- `PREFIX`. -/
def errorPrefix : Bytes := utf8 (ofString "ERROR document_worker ")

/-- `append` of a `deque` with a positive `maxlen`. -/
def dequeAppend {α : Type} (maxlen : ℕ) (items : List α) (item : α) : List α :=
  if items.length < maxlen then items++[item] else items.tail++[item]

def frameModule : GlobalName Value → Str
  | .text name => name
  | .missing => ofString "unknown"
  | .other _ => ofString "unknown"

def linenoText : Option ℕ → Str
  | some lineno => strOfNat lineno
  | none => ofString "None"

def frameText (entry : TracebackEntry Value) : Str :=
  frameModule entry.globalName++ofString "."++entry.qualname++ofString ":"
    ++linenoText entry.lineno

/-- The loop of `_frames`. -/
def framesLoop (frames : List Str) (frameCount : ℕ) :
    List (TracebackEntry Value) → List Str × Bool
  | [] => (frames, maxFrames < frameCount)
  | entry :: traceback =>
    framesLoop (dequeAppend maxFrames frames (frameText entry)) (frameCount+1) traceback

/-- `_frames`. -/
def frames (error : ExceptionObject Identity Value) : List Str × Bool :=
  framesLoop [] 0 error.traceback

/-- `_cause`. -/
def cause (graph : ExceptionGraph Identity Value) (error : Identity) : Option Identity :=
  match (graph error).cause with
  | some cause => some cause
  | none => if (graph error).suppressContext then none else (graph error).context

/-- What is appended to `exceptions`. -/
def exceptionEntry (error : ExceptionObject Identity Value) : Json :=
  let (frames, framesTruncated) := frames error
  .obj [(ofString "type", .str (error.moduleName++ofString "."++error.qualname)),
    (ofString "frames", .arr (frames.map Json.str)),
    (ofString "frames_truncated", .bool framesTruncated)]

/-- The members of `diagnostic`. -/
def diagnosticObject (request : Str) (chain : List Json) (chainTruncated : Bool) : Json :=
  .obj [(ofString "request", .str request), (ofString "exception_chain", .arr chain),
    (ofString "chain_truncated", .bool chainTruncated)]

variable [DecidableEq Identity]

/-- The loop of `_exception_chain`. -/
def exceptionChainLoop (graph : ExceptionGraph Identity Value) (exceptions : List Json)
    (seen : List Identity) (current : Option Identity) : List Json × Bool :=
  match current with
  | none => (exceptions, false)
  | some error =>
    if exceptions.length < maxExceptions then
      if error ∈ seen then (exceptions, true)
      else exceptionChainLoop graph (exceptions++[exceptionEntry (graph error)]) (error :: seen)
        (cause graph error)
    else (exceptions, true)
termination_by maxExceptions-exceptions.length
decreasing_by
  rw [List.length_append, List.length_singleton]
  omega

/-- `_exception_chain`. -/
def exceptionChain (graph : ExceptionGraph Identity Value) (error : Identity) :
    List Json × Bool :=
  exceptionChainLoop graph [] [] (some error)

/-- The message of `report`. -/
def message (graph : ExceptionGraph Identity Value) (request : Str) (error : Identity) :
    Except PythonError Bytes := do
  let (chain, chainTruncated) := exceptionChain graph error
  let text ← (diagnosticObject request chain chainTruncated).dumpsAscii
  match encodeAscii text with
  | some encoded => pure (errorPrefix++encoded++[0x0A])
  | none => .error (.unicodeError (ofString "ordinal not in range(128)"))

/-- `report`: what it hands to the output, and whether it raises. `emit` writes and flushes, and
`request` is the name of the type of the request. -/
def report (emit : Bytes → Except PythonError Unit) (graph : ExceptionGraph Identity Value)
    (request : Str) (error : Identity) : Option Bytes × Except PythonError Unit :=
  match message graph request error with
  | .error raised => (none, .error raised)
  | .ok message =>
    (some message, match emit message with
      | .ok () => .ok ()
      | .error raised => if raised.isOsError then .ok () else .error raised)

end WorkerErrorReporter

end ConferWorker
