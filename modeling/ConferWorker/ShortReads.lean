import ConferWorker.ByteSlices
import ConferWorker.Raising

/-! Byte streams whose transport cuts them into short reads. What a loop that
reads until it has enough bytes returns does not depend on the cuts. -/
namespace ConferWorker

/-- What is left of a stream, and how its transport cuts it: the next read returns
at most `sizes 0+1` bytes, the one after at most `sizes 1+1`, and so on. -/
structure ByteSource where
  data : Bytes
  sizes : ℕ → ℕ

namespace ByteSource

/-- `stream.read(size)`: at least one byte unless the stream is at its end. -/
def read (source : ByteSource) (size : ℕ) : Bytes × ByteSource :=
  let chunk := source.data.take (min size (source.sizes 0+1))
  (chunk, ⟨source.data.drop chunk.length, fun i => source.sizes (i+1)⟩)

theorem read_append (source : ByteSource) (size : ℕ) :
    (source.read size).1++(source.read size).2.data = source.data := by
  unfold read
  dsimp only
  rw [List.length_take]
  rcases Nat.le_total (min size (source.sizes 0+1)) source.data.length with hle | hle
  · rw [Nat.min_eq_left hle, List.take_append_drop]
  · rw [Nat.min_eq_right hle, List.take_of_length_le hle, List.drop_length, List.append_nil]

theorem read_length_le (source : ByteSource) (size : ℕ) :
    (source.read size).1.length ≤ size := by
  unfold read
  rw [List.length_take]
  omega

theorem read_eq_nil_iff (source : ByteSource) (size : ℕ) (hsize : 0 < size) :
    (source.read size).1 = [] ↔ source.data = [] := by
  unfold read
  rw [List.take_eq_nil_iff]
  constructor
  · intro h
    exact h.resolve_left (by omega)
  · exact Or.inr

end ByteSource

section ReadLoop

variable {ε : Type}

/-- Reads until `size` bytes are there; `ask` limits the size of one read. -/
def readLoop (error : ε) (ask : ℕ → ℕ) (source : ByteSource) (size : ℕ) :
    Except ε (Bytes × ByteSource) :=
  if size = 0 then .ok ([], source)
  else if _h : (source.read (ask size)).1 = [] then .error error
  else do
    let (rest, last) ←
      readLoop error ask (source.read (ask size)).2 (size-(source.read (ask size)).1.length)
    pure ((source.read (ask size)).1++rest, last)
termination_by size
decreasing_by
  have hpos := List.length_pos_of_ne_nil _h
  omega

variable (error : ε) {ask : ℕ → ℕ} (hask : ∀ size, 0 < size → 0 < ask size ∧ ask size ≤ size)

include hask

/-- The loop returns the next `size` bytes when the stream holds them. -/
theorem readLoop_append (source : ByteSource) (bytes rest : Bytes)
    (hdata : source.data = bytes++rest) :
    ∃ last, readLoop error ask source bytes.length = .ok (bytes, last) ∧ last.data = rest := by
  induction hn : bytes.length using Nat.strong_induction_on generalizing source bytes with
  | _ n ih =>
    rw [readLoop]
    rcases Nat.eq_zero_or_pos n with rfl | hpos
    · obtain rfl := List.eq_nil_of_length_eq_zero hn
      exact ⟨source, by simp, hdata⟩
    · obtain ⟨hone, hle⟩ := hask n hpos
      have hnonempty : (source.read (ask n)).1 ≠ [] := by
        rw [Ne, source.read_eq_nil_iff _ hone, hdata]
        intro hnil
        rw [(List.append_eq_nil_iff.mp hnil).1] at hn
        simp at hn
        omega
      have hchunk := source.read_length_le (ask n)
      have hlength := List.length_pos_of_ne_nil hnonempty
      have hsplit := source.read_append (ask n)
      rw [hdata] at hsplit
      -- the chunk is the front of the bytes that are asked for
      obtain ⟨more, hmore⟩ : ∃ more, bytes = (source.read (ask n)).1++more := by
        refine ⟨bytes.drop (source.read (ask n)).1.length, ?_⟩
        have htake := congrArg (List.take (source.read (ask n)).1.length) hsplit
        rw [List.take_left, List.take_append_of_le_length (by omega)] at htake
        conv_lhs => rw [← List.take_append_drop (source.read (ask n)).1.length bytes, ← htake]
      rw [hmore, List.append_assoc, List.append_cancel_left_eq] at hsplit
      have hcount : more.length = n-(source.read (ask n)).1.length := by
        have hboth := congrArg List.length hmore
        rw [List.length_append] at hboth
        omega
      obtain ⟨last, hlast, hrest⟩ := ih more.length (by omega) _ more hsplit rfl
      rw [hcount] at hlast
      refine ⟨last, ?_, hrest⟩
      rw [if_neg (by omega), dif_neg hnonempty, hlast, ok_bind, hmore]
      rfl

/-- The loop raises when the stream ends early. -/
theorem readLoop_short (source : ByteSource) (size : ℕ) (hshort : source.data.length < size) :
    readLoop error ask source size = .error error := by
  induction size using Nat.strong_induction_on generalizing source with
  | _ size ih =>
    rw [readLoop, if_neg (by omega)]
    obtain ⟨hone, hle⟩ := hask size (by omega)
    split_ifs with hend
    · rfl
    · have hlength := List.length_pos_of_ne_nil hend
      have hsplit := congrArg List.length (source.read_append (ask size))
      rw [List.length_append] at hsplit
      rw [ih _ (by omega) _ (by omega)]
      rfl

/-- What the loop returns is the front of the stream. -/
theorem readLoop_ok {source last : ByteSource} {size : ℕ} {bytes : Bytes}
    (h : readLoop error ask source size = .ok (bytes, last)) :
    bytes.length = size ∧ source.data = bytes++last.data := by
  rcases Nat.lt_or_ge source.data.length size with hshort | hlong
  · rw [readLoop_short error hask source size hshort] at h
    cases h
  · have hlength : (source.data.take size).length = size := by
      rw [List.length_take, Nat.min_eq_left hlong]
    have hdata := (List.take_append_drop size source.data).symm
    obtain ⟨next, hread, hrest⟩ := readLoop_append error hask source _ _ hdata
    rw [hlength, h, Except.ok.injEq, Prod.mk.injEq] at hread
    obtain ⟨rfl, rfl⟩ := hread
    rw [hrest]
    exact ⟨hlength, hdata⟩

end ReadLoop

end ConferWorker
