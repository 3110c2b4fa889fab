import ConferWorker.PythonErrors

/-! The text of a search hit: the fragment that SQLite marked, found again in the text of the
chunk and cut to the length that was asked for. -/
namespace ConferWorker

namespace SearchSnippets

/-- `f"\ue000{marker}\ue001"`. -/
def startMarker (marker : Str) : Str := 0xE000 :: (marker++[0xE001])

/-- `f"\ue002{marker}\ue003"`. -/
def endMarker (marker : Str) : Str := 0xE002 :: (marker++[0xE003])

/-- The local variables of `_marked_fragment`. -/
structure MarkedState where
  plain : Str
  spans : List (ℕ × ℕ)
  matchStart : Option ℕ

def invalidMarkers : PythonError := .valueError (ofString "FTS snippet markers are invalid")

/-- The loop of `_marked_fragment` over the rest of the text. Both markers begin with a
character, so that a round always takes one at least. -/
def scanMarked (startMarker endMarker : Str) (marked : Str) (state : MarkedState) :
    Except PythonError MarkedState :=
  match marked with
  | [] => .ok state
  | c :: rest =>
    if startMarker.isPrefixOf (c :: rest) then
      match state.matchStart with
      | some _ => .error invalidMarkers
      | none =>
        scanMarked startMarker endMarker (rest.drop (startMarker.length-1))
          { state with matchStart := some state.plain.length }
    else if endMarker.isPrefixOf (c :: rest) then
      match state.matchStart with
      | none => .error invalidMarkers
      | some matchStart =>
        scanMarked startMarker endMarker (rest.drop (endMarker.length-1))
          { state with
            spans := state.spans++[(matchStart, state.plain.length)]
            matchStart := none }
    else scanMarked startMarker endMarker rest { state with plain := state.plain++[c] }
termination_by marked.length
decreasing_by all_goals simp only [List.length_drop, List.length_cons]; omega

/-- `_marked_fragment`. -/
def markedFragment (marked startMarker endMarker : Str) :
    Except PythonError (Str × (ℕ × ℕ)) := do
  let state ← scanMarked startMarker endMarker marked ⟨[], [], none⟩
  match state.matchStart, state.spans.head?, state.spans.getLast? with
  | none, some first, some last => .ok (state.plain, (first.1, last.2))
  | _, _, _ => .error invalidMarkers

/-- `text.find(fragment)`: `none` where Python returns -1. -/
def findText (fragment : Str) : Str → Option ℕ
  | [] => if fragment = [] then some 0 else none
  | c :: rest =>
    if fragment.isPrefixOf (c :: rest) then some 0 else (findText fragment rest).map (·+1)

/-- `_character_boundary`. -/
def characterBoundary (text : Str) (offset : ℕ) (forward : Bool) : ℕ :=
  if offset = 0 ∨ text.length ≤ offset then min text.length offset
  else if forward then
    offset+((text.drop offset).takeWhile (fun c => !isSpace c)).length
  else
    offset-((text.take offset).reverse.takeWhile (fun c => !isSpace c)).length

def ellipsis : Str := [0x2026]

/-- The window of `_bounded_snippet` that starts at `start`, moved back where it would not
reach the end of the match. -/
def fitWindow (text : Str) (start matchEnd contentLimit : ℕ) : ℕ × ℕ :=
  let stop := min text.length (start+contentLimit)
  if stop < matchEnd then (matchEnd-contentLimit, matchEnd) else (start, stop)

/-- `_bounded_snippet`. -/
def boundedSnippet (text : Str) (matchStart matchEnd limit : ℕ) : Str :=
  if text.length ≤ limit then text
  else if limit < 3 then text.take limit
  else
    let matchStart := min text.length matchStart
    let matchEnd := max matchStart (min text.length matchEnd)
    let contentLimit := limit-2
    let context := contentLimit-(matchEnd-matchStart)
    let (snippetStart, snippetEnd) :=
      fitWindow text (matchStart-context/3) matchEnd contentLimit
    let before := if snippetStart ≠ 0 then ellipsis else []
    let after := if snippetEnd < text.length then ellipsis else []
    let (snippetStart, snippetEnd) :=
      fitWindow text snippetStart matchEnd (limit-before.length-after.length)
    let boundedStart := characterBoundary text snippetStart true
    let snippetStart := if boundedStart ≤ matchStart then boundedStart else snippetStart
    let boundedEnd := characterBoundary text snippetEnd false
    let snippetEnd := if matchEnd ≤ boundedEnd then boundedEnd else snippetEnd
    before++(text.take snippetEnd).drop snippetStart++after

/-- `_fts_snippet`. -/
def ftsSnippet (text markedText startMarker endMarker : Str) (limit : ℕ) :
    Except PythonError Str := do
  let (fragment, (first, last)) ← markedFragment markedText startMarker endMarker
  match findText fragment text with
  | none => pure (boundedSnippet fragment first last limit)
  | some offset => pure (boundedSnippet text (offset+first) (offset+last) limit)

end SearchSnippets

end ConferWorker
