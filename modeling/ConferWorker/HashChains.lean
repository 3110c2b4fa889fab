import Mathlib.Data.Set.Function
import Mathlib.Tactic

/-! Registers that are only ever extended: the next value is the hash of the last one and a digest.
A register stands for the digests it was extended with, up to collisions of the hash. -/
namespace ConferWorker

namespace HashChain

variable {α : Type*} (hash : List α → List α)

/-- The register after some digests. -/
def run (register : List α) (digests : List (List α)) : List α :=
  digests.foldl (fun register digest => hash (register++digest)) register

/-- What was hashed on the way. -/
def inputs : List α → List (List α) → List (List α)
  | _, [] => []
  | register, digest :: digests =>
    (register++digest) :: inputs (hash (register++digest)) digests

variable {hash}

theorem run_append (register : List α) (front digests : List (List α)) :
    run hash register (front++digests) = run hash (run hash register front) digests :=
  List.foldl_append

theorem run_concat (register : List α) (digests : List (List α)) (digest : List α) :
    run hash register (digests++[digest]) = hash (run hash register digests++digest) :=
  run_append register digests [digest]

theorem inputs_append (register : List α) (front digests : List (List α)) :
    inputs hash register (front++digests)
      = inputs hash register front++inputs hash (run hash register front) digests := by
  induction front generalizing register with
  | nil => rfl
  | cons digest front ih =>
    rw [List.cons_append, inputs, inputs, ih]
    rfl

variable {hashed : Set (List α)} {size : ℕ}

/-- Chains of as many digests that end in the same register are the same chain, if the hash does
not collide on what they hash. -/
theorem run_injective (hfree : Set.InjOn hash hashed) {register register' : List α}
    {digests digests' : List (List α)} (hcount : digests.length = digests'.length)
    (hsize : ∀ digest ∈ digests, digest.length = size)
    (hsize' : ∀ digest ∈ digests', digest.length = size)
    (hinputs : ∀ input ∈ inputs hash register digests, input ∈ hashed)
    (hinputs' : ∀ input ∈ inputs hash register' digests', input ∈ hashed)
    (h : run hash register digests = run hash register' digests') :
    register = register' ∧ digests = digests' := by
  induction digests using List.reverseRecOn generalizing digests' with
  | nil =>
    obtain rfl := List.length_eq_zero_iff.mp hcount.symm
    exact ⟨h, rfl⟩
  | append_singleton digests digest ih =>
    rcases List.eq_nil_or_concat digests' with rfl | ⟨front, last, rfl⟩
    · rw [List.length_append] at hcount
      cases hcount
    · rw [List.concat_eq_append] at *
      rw [run_concat, run_concat] at h
      rw [inputs_append, List.forall_mem_append] at hinputs hinputs'
      rw [List.forall_mem_append] at hsize hsize'
      -- the last digests were hashed behind the registers before them
      have hbefore := hfree (hinputs.2 _ List.mem_cons_self) (hinputs'.2 _ List.mem_cons_self) h
      obtain ⟨hregisters, hlast⟩ := List.append_inj' hbefore
        ((hsize.2 _ List.mem_cons_self).trans (hsize'.2 _ List.mem_cons_self).symm)
      obtain ⟨hstart, hdigests⟩ := ih (by simpa using hcount) hsize.1 hsize'.1 hinputs.1 hinputs'.1
        hregisters
      exact ⟨hstart, by rw [hdigests, hlast]⟩

/-- Chains from one register that end in the same register are the same chain, or one of them came
back to the register where it started. -/
theorem run_eq (hfree : Set.InjOn hash hashed) {register : List α} {digests digests' : List (List α)}
    (hsize : ∀ digest ∈ digests, digest.length = size)
    (hsize' : ∀ digest ∈ digests', digest.length = size)
    (hinputs : ∀ input ∈ inputs hash register digests, input ∈ hashed)
    (hinputs' : ∀ input ∈ inputs hash register digests', input ∈ hashed)
    (h : run hash register digests = run hash register digests') :
    digests = digests' ∨ ∃ loop, loop ≠ [] ∧ run hash register loop = register
      ∧ (loop <+: digests ∨ loop <+: digests') := by
  have hshorter : ∀ {short long : List (List α)}, short.length ≤ long.length →
      (∀ digest ∈ short, digest.length = size) → (∀ digest ∈ long, digest.length = size) →
      (∀ input ∈ inputs hash register short, input ∈ hashed) →
      (∀ input ∈ inputs hash register long, input ∈ hashed) →
      run hash register short = run hash register long →
      short = long ∨ ∃ loop, loop ≠ [] ∧ run hash register loop = register ∧ loop <+: long := by
    intro short long hle hshort hlong hin hin' hrun
    have hsplit := List.take_append_drop (long.length-short.length) long
    rw [← hsplit, run_append] at hrun
    rw [← hsplit, inputs_append, List.forall_mem_append] at hin'
    obtain ⟨hback, hrest⟩ := run_injective hfree (by rw [List.length_drop]; omega) hshort
      (fun digest hdigest => hlong digest (List.mem_of_mem_drop hdigest)) hin hin'.2 hrun
    rcases hfront : long.take (long.length-short.length) with _ | ⟨digest, front⟩
    · rw [hfront, List.nil_append] at hsplit
      exact Or.inl (hrest.trans hsplit)
    · refine Or.inr ⟨_, ?_, hback.symm, List.take_prefix _ _⟩
      rw [hfront]
      exact List.cons_ne_nil digest front
  rcases Nat.le_total digests.length digests'.length with hle | hle
  · rcases hshorter hle hsize hsize' hinputs hinputs' h with heq | ⟨loop, hne, hrun, hloop⟩
    · exact Or.inl heq
    · exact Or.inr ⟨loop, hne, hrun, Or.inr hloop⟩
  · rcases hshorter hle hsize' hsize hinputs' hinputs h.symm with heq | ⟨loop, hne, hrun, hloop⟩
    · exact Or.inl heq.symm
    · exact Or.inr ⟨loop, hne, hrun, Or.inl hloop⟩

end HashChain

end ConferWorker
