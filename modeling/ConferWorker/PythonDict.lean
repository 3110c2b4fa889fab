import Mathlib.Tactic

/-! A Python `dict`: entries with distinct keys in the order in which the keys came. -/
namespace ConferWorker

structure PythonDict (α β : Type) where
  entries : List (α × β)
  distinct : (entries.map Prod.fst).Nodup

namespace PythonDict

variable {α β : Type} [DecidableEq α]

def lookup (key : α) : List (α × β) → Option β
  | [] => none
  | entry :: entries => if entry.1 = key then some entry.2 else lookup key entries

/-- The entry of a key gets a new value in its place; a new key goes to the end. -/
def replace (key : α) (value : β) : List (α × β) → List (α × β)
  | [] => [(key, value)]
  | entry :: entries =>
    if entry.1 = key then (key, value) :: entries else entry :: replace key value entries

theorem replace_keys (key : α) (value : β) (entries : List (α × β)) :
    (replace key value entries).map Prod.fst
      = if key ∈ entries.map Prod.fst then entries.map Prod.fst
        else entries.map Prod.fst++[key] := by
  induction entries with
  | nil => rfl
  | cons entry entries ih =>
    rw [replace, List.map_cons]
    split_ifs with hfirst hmem hmem
    · rw [List.map_cons, hfirst]
    · exact absurd (hfirst ▸ List.mem_cons_self) hmem
    · rw [List.map_cons, ih, if_pos ((List.mem_cons.mp hmem).resolve_left fun h => hfirst h.symm)]
    · rw [List.map_cons, ih, if_neg fun h => hmem (List.mem_cons_of_mem _ h)]
      rfl

theorem lookup_replace (key other : α) (value : β) (entries : List (α × β)) :
    lookup other (replace key value entries)
      = if key = other then some value else lookup other entries := by
  induction entries with
  | nil => rfl
  | cons entry entries ih =>
    rw [replace]
    split_ifs with hfirst heq heq
    · rw [lookup, if_pos heq]
    · rw [lookup, lookup, if_neg heq, if_neg (hfirst ▸ heq)]
    · rw [lookup, if_neg (heq ▸ hfirst), ih, if_pos heq]
    · rw [lookup, lookup, ih, if_neg heq]

theorem lookup_eq_some {entries : List (α × β)} (hdistinct : (entries.map Prod.fst).Nodup)
    (key : α) (value : β) : lookup key entries = some value ↔ (key, value) ∈ entries := by
  induction entries with
  | nil => simp only [lookup, reduceCtorEq, List.not_mem_nil]
  | cons entry entries ih =>
    rw [List.map_cons, List.nodup_cons] at hdistinct
    rw [lookup, List.mem_cons]
    split_ifs with hfirst
    · have hrest : (key, value) ∉ entries := by
        intro hmem
        rw [hfirst] at hdistinct
        exact hdistinct.1 (List.mem_map.mpr ⟨_, hmem, rfl⟩)
      rw [or_iff_left hrest, Option.some.injEq, ← hfirst, Prod.ext_iff]
      simp only [true_and, eq_comm]
    · rw [ih hdistinct.2, or_iff_right]
      intro heq
      exact hfirst (congrArg Prod.fst heq).symm

def empty : PythonDict α β := ⟨[], List.nodup_nil⟩

/-- The keys in their order. -/
def keys (d : PythonDict α β) : List α := d.entries.map Prod.fst

def values (d : PythonDict α β) : List β := d.entries.map Prod.snd

/-- `d.get(key)`. -/
def get? (d : PythonDict α β) (key : α) : Option β := lookup key d.entries

/-- `d[key] = value`. -/
def set (d : PythonDict α β) (key : α) (value : β) : PythonDict α β where
  entries := replace key value d.entries
  distinct := by
    rw [replace_keys]
    split_ifs with hmem
    · exact d.distinct
    · rw [← List.concat_eq_append]
      exact d.distinct.concat hmem

/-- `d.setdefault(key, value)` without its result. -/
def setDefault (d : PythonDict α β) (key : α) (value : β) : PythonDict α β :=
  match d.get? key with
  | some _ => d
  | none => d.set key value

theorem keys_set (d : PythonDict α β) (key : α) (value : β) :
    (d.set key value).keys = if key ∈ d.keys then d.keys else d.keys++[key] :=
  replace_keys key value d.entries

theorem get?_set (d : PythonDict α β) (key other : α) (value : β) :
    (d.set key value).get? other = if key = other then some value else d.get? other :=
  lookup_replace key other value d.entries

theorem get?_eq_some (d : PythonDict α β) (key : α) (value : β) :
    d.get? key = some value ↔ (key, value) ∈ d.entries :=
  lookup_eq_some d.distinct key value

/-- What a new key finds afterwards is its default, and other keys find what they did. -/
theorem get?_setDefault (d : PythonDict α β) (key other : α) (value : β) :
    (d.setDefault key value).get? other
      = if key = other then some ((d.get? key).getD value) else d.get? other := by
  unfold setDefault
  cases hget : d.get? key with
  | none => exact get?_set d key other value
  | some found =>
    dsimp only
    split_ifs with heq
    · rw [← heq, hget]
      rfl
    · rfl

end PythonDict

end ConferWorker
