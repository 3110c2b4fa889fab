import ConferWorker.ProtocolFraming
import ConferWorker.JsonSize
import ConferWorker.ProtocolPresenter

/-! Which messages `write` sends: a condition on the header and the payload
lengths, and the length of the header of a read in terms of its window. -/
namespace ConferWorker

open ProtocolCodec

namespace Json

theorem membersSize_append (members more : List (Str × Json)) :
    membersSize (members++more) = membersSize members+membersSize more := by
  induction members with
  | nil => rw [List.nil_append, membersSize, Nat.zero_add]
  | cons member members ih =>
    rw [List.cons_append, membersSize, membersSize, ih]
    omega

theorem membersDumpable_append (members more : List (Str × Json)) :
    MembersDumpable (members++more) ↔ MembersDumpable members ∧ MembersDumpable more := by
  induction members with
  | nil => simp only [List.nil_append, MembersDumpable, true_and]
  | cons member members ih => simp only [List.cons_append, MembersDumpable, ih, and_assoc]

theorem itemsSize_map {α : Type} (f : α → Json) (values : List α) :
    itemsSize (values.map f) = (values.map (fun value => (f value).size+1)).sum := by
  induction values with
  | nil => rfl
  | cons value values ih => rw [List.map_cons, itemsSize, ih, List.map_cons, List.sum_cons]

theorem itemsDumpable_map {α : Type} (f : α → Json) (values : List α) :
    ItemsDumpable (values.map f) ↔ ∀ value ∈ values, (f value).Dumpable := by
  induction values with
  | nil => simp only [List.map_nil, ItemsDumpable, List.not_mem_nil, false_implies, implies_true]
  | cons value values ih => rw [List.map_cons, ItemsDumpable, ih, List.forall_mem_cons]

theorem lt_intLimit {n : ℕ} (h : n < 2^64) : n < intLimit := by
  have hpower (k : ℕ) (hk : 20 ≤ k) : n < 10^k := by
    have hsmall : (2:ℕ)^64 ≤ 10^20 := by decide
    have hgrows : (10:ℕ)^20 ≤ 10^k := Nat.pow_le_pow_right (by omega) hk
    omega
  have hdigits : 20 ≤ 4300 := by decide
  unfold intLimit
  exact hpower _ hdigits

/-- A number below `10^k` has at most `k` digits. -/
theorem intText_length_le {n k : ℕ} (hk : 0 < k) (h : n < 10^k) :
    (intText n).length ≤ k := by
  have hsign : ¬(n : ℤ) < 0 := by omega
  rw [intText, if_neg hsign, Int.natAbs_natCast, strOfNat, List.length_map,
    Nat.length_toDigits_le_iff (by omega) hk]
  exact h

end Json

/-- What `write` checks: the header is JSON of at most 64 KiB, and the payloads are
within their limits. -/
structure Writable (message : ProtocolMessage) : Prop where
  dumpable : (Json.obj message.sentHeader).Dumpable
  size : (Json.obj message.sentHeader).size ≤ maxHeaderBytes
  lengths : ∀ entry ∈ message.payloads, entry.2.length ≤ maxPayloadBytes
  total : declaredBytes message.payloads ≤ maxTotalPayloadBytes

/-- These bytes are the whole frame of a message. -/
def IsFrame (bytes : Bytes) : Prop :=
  ∃ message encoded, Framed message encoded ∧ bytes = frameBytes message encoded

theorem describePayloads_returns (payloads : List (PayloadRole × ProtocolPayload))
    (found : List Json) (total : ℕ)
    (hmedia : ∀ entry ∈ payloads, entry.1.acceptsMediaType entry.2.mediaType = true)
    (hlengths : ∀ entry ∈ payloads, entry.2.length ≤ maxPayloadBytes)
    (htotal : total+declaredBytes payloads ≤ maxTotalPayloadBytes) :
    payloads.foldlM describePayload (found, total)
      = .ok (found++descriptors payloads, total+declaredBytes payloads) := by
  induction payloads generalizing found total with
  | nil =>
    have hnone : descriptors [] = [] := rfl
    rw [List.foldlM_nil, hnone, List.append_nil]
    rfl
  | cons entry payloads ih =>
    obtain ⟨hmedia', hmediaRest⟩ := List.forall_mem_cons.mp hmedia
    obtain ⟨hlength, hlengthRest⟩ := List.forall_mem_cons.mp hlengths
    rw [declaredBytes_cons, ← Nat.add_assoc] at htotal
    have hstep : describePayload (found, total) entry
        = .ok (found++[descriptor entry.1 entry.2], total+entry.2.length) := by
      unfold describePayload
      simp only [hmedia', Bool.true_eq_false, raiseIf_of_not _ not_false,
        raiseIf_of_not _ (not_lt.mpr hlength), ok_bind]
      rw [raiseIf_of_not _ (by omega)]
      rfl
    rw [List.foldlM_cons, hstep, ok_bind, ih _ _ hmediaRest hlengthRest htotal,
      declaredBytes_cons, List.append_assoc, Nat.add_assoc]
    rfl

theorem Framed.writable {message : ProtocolMessage} {encoded : Bytes}
    (framed : Framed message encoded) : Writable message := by
  obtain ⟨hdumpable, hsize⟩ := Json.encode_spec (Json.obj message.sentHeader)
  refine ⟨hdumpable.mp ⟨encoded, framed.header⟩, ?_, framed.lengths, framed.total⟩
  rw [← hsize encoded framed.header]
  exact framed.range.2

/-- `write` sends a message exactly when it is writable. -/
theorem write_returns_iff {message : ProtocolMessage} (sendable : Sendable message) :
    (write message).2 = .ok () ↔ Writable message := by
  constructor
  · intro h
    rcases write_cases sendable with ⟨error, hwrite⟩ | ⟨encoded, framed, _⟩
    · rw [hwrite] at h
      cases h
    · exact framed.writable
  · intro writable
    obtain ⟨hdumpable, hsize⟩ := Json.encode_spec (Json.obj message.sentHeader)
    obtain ⟨encoded, hencoded⟩ := hdumpable.mpr writable.dumpable
    have hdescribe := describePayloads_returns message.payloads [] 0 message.media_types
      writable.lengths (by rw [Nat.zero_add]; exact writable.total)
    have hlength := hsize encoded hencoded
    have hlimit := writable.size
    have hheader : encodeHeader message = .ok encoded := by
      unfold encodeHeader
      simp only [hdescribe, ok_bind, List.nil_append]
      rw [setItem_new _ _ _ sendable.no_payloads_key]
      rw [ProtocolMessage.sentHeader] at hencoded
      simp only [hencoded, ok_bind]
      rw [raiseIf_of_not _ (by omega)]
      rfl
    rw [write, hheader]
    simp only [writePayloads_eq _ sendable.built]

/-- A `write` that returns has written a whole frame. -/
theorem write_frame {message : ProtocolMessage} (sendable : Sendable message)
    (h : (write message).2 = .ok ()) : IsFrame (write message).1 := by
  rcases write_cases sendable with ⟨error, hwrite⟩ | ⟨encoded, framed, hwrite⟩
  · rw [hwrite] at h
    cases h
  · exact ⟨message, encoded, framed, by rw [hwrite]⟩

/-- A message that is writable is read back from its frame. -/
theorem read_written {loads : JsonLoads} {message : ProtocolMessage} (hsendable : Sendable message)
    (hwritable : Writable message) (hloads : LoadsBack loads message) {stream : ByteSource}
    {rest : Bytes} (hdata : stream.data = (write message).1++rest) :
    ∃ received next, ProtocolCodec.read loads stream = .ok (received, next) ∧
      received.view = message.view ∧ next.data = rest := by
  have hreturns := (write_returns_iff hsendable).mpr hwritable
  rcases write_cases hsendable with ⟨error, hwrite⟩ | ⟨encoded, framed, hwrite⟩
  · rw [hwrite] at hreturns
    cases hreturns
  · rw [hwrite] at hdata
    exact read_frame hsendable hloads framed stream rest hdata

/-- The length of a header with its descriptors. -/
theorem sentHeader_size (message : ProtocolMessage) :
    (Json.obj message.sentHeader).size = 13+Json.membersSize message.header
      +(Json.arr (descriptors message.payloads)).size := by
  have hkey : Json.quotedSize payloadsKey = 10 := by decide
  have harray : 2 ≤ (Json.arr (descriptors message.payloads)).size := by
    rw [Json.size]
    exact le_max_left _ _
  have hsize : (Json.obj message.sentHeader).size
      = max 2 (1+Json.membersSize message.sentHeader) := by rw [Json.size]
  rw [hsize, ProtocolMessage.sentHeader, Json.membersSize_append, Json.membersSize,
    Json.membersSize, hkey]
  omega

end ConferWorker
