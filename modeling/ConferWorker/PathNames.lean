import ConferWorker.UnicodeText

/-! The stem of a file name, as `pathlib` takes it. -/
namespace ConferWorker

/-- `Path(name).name`: the last part between slashes that is not `.`; `part` is read so far
and `last` was read before. -/
def pathNameFrom (last part : Str) : Str → Str
  | [] => if part = [] ∨ part = [0x2E] then last else part
  | c :: rest =>
    if c = 0x2F then
      pathNameFrom (if part = [] ∨ part = [0x2E] then last else part) [] rest
    else pathNameFrom last (part++[c]) rest

def pathName (name : Str) : Str := pathNameFrom [] [] name

/-- `name.rfind(c)`: `none` where Python returns -1. -/
def rfindChar (c : CodePoint) (s : Str) : Option ℕ :=
  (s.reverse.idxOf? c).map (fun i => s.length-1-i)

/-- `Path(name).stem`. -/
def pathStem (name : Str) : Str :=
  let name := pathName name
  match rfindChar 0x2E name with
  | some i => if 0 < i ∧ i < name.length-1 then name.take i else name
  | none => name

end ConferWorker
