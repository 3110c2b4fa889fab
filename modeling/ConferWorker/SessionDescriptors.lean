import ConferWorker.ReaderDescriptors

/-! The descriptors of a session over a whole run: those of the standard streams, two for each open
document and one for each payload of the message that is answered. -/
namespace ConferWorker

open Descriptors

variable {T : SessionTypes} {Database : Type}

namespace CountedSession

open DocumentSession in
/-- Opening with descriptors is opening with the collaborators that they allow. -/
theorem openReader_session (calls : ReaderCalls T Database) (state : CountedSession T.Reader)
    (id : Str) (request : SessionRequest T) (hopens : request.opens = true) :
    ((openReader calls state id request).1.session, (openReader calls state id request).2)
      = state.session.openReader (calls.allowed state.descriptors request) id request := by
  unfold CountedSession.openReader DocumentSession.openReader
  cases state.session.requireOpenCapacity id with
  | error error => rfl
  | ok u =>
    dsimp only
    rw [calls.build_allowed request state.descriptors hopens]
    obtain ⟨result, n⟩ := calls.build request state.descriptors
    cases result with
    | ok reader => rfl
    | error error =>
      dsimp only [asOperationError]
      split_ifs with hclass
      · rfl
      · rfl

/-- What a session does with descriptors it does with the collaborators that they allow. -/
theorem execute_session (calls : ReaderCalls T Database) (state : CountedSession T.Reader)
    (request : SessionRequest T) :
    ((execute calls state request).1.session, (execute calls state request).2)
      = state.session.execute (calls.allowed state.descriptors request) request := by
  cases request with
  | openDocument request => exact openReader_session calls state _ _ rfl
  | openText request => exact openReader_session calls state _ _ rfl
  | release request =>
    rw [CountedSession.execute, DocumentSession.execute, DocumentSession.release]
    cases state.session.find request.documentId with
    | none => rfl
    | some openReader => rfl
  | _ => rfl

theorem closeReaders_eq (count n : ℕ) : closeReaders count n = n-2*count := by
  induction count generalizing n with
  | zero => rfl
  | succ count ih =>
    show closeReaders count (n-1-1) = n-2*(count+1)
    rw [ih]
    omega

/-- Payloads are received while there are descriptors for all of them. -/
theorem receive_eq (payloads : ℕ) {n : ℕ} (hn : n ≤ limitNoFile) :
    receive payloads n
      = if n+payloads ≤ limitNoFile then (.ok (), n+payloads) else (.error tooManyFiles, n) := by
  induction payloads generalizing n with
  | zero => exact (if_pos hn).symm
  | succ payloads ih =>
    rw [receive]
    by_cases hfirst : n < limitNoFile
    · rw [Script.bind_ok _ (take_room hfirst)]
      have hrest := ih (n := n+1) hfirst
      have hcount : n+1+payloads = n+(payloads+1) := by omega
      rw [hcount] at hrest
      by_cases hroom : n+(payloads+1) ≤ limitNoFile
      · rw [if_pos hroom] at hrest ⊢
        exact dropOnError_ok hrest
      · rw [if_neg hroom] at hrest ⊢
        exact dropOnError_error hrest
    · have hroom : ¬ n+(payloads+1) ≤ limitNoFile := by omega
      rw [if_neg hroom]
      exact Script.bind_error _ (take_full (not_lt.mp hfirst))

/-- An open document is removed from a session whose ids are distinct. -/
theorem remove_length {Reader : Type} {session : DocumentSession Reader} (inv : SessionInv session)
    {id : Str} {openReader : OpenReader Reader} (hfind : session.find id = some openReader) :
    (session.remove id openReader).readers.length+1 = session.readers.length := by
  have hmember : id ∈ session.readers.map Prod.fst := List.mem_map.mpr ⟨_, find_mem hfind, rfl⟩
  have hone : session.readers.countP (fun entry => entry.1 = id) = 1 := by
    have hcount := List.count_eq_one_of_mem inv.ids hmember
    rw [List.count, List.countP_map] at hcount
    rw [← hcount]
    apply List.countP_congr
    intro entry _
    simp
  have hsplit := List.length_eq_countP_add_countP (fun entry : Str × OpenReader Reader =>
    decide (entry.1 = id)) (l := session.readers)
  have hrest : (session.remove id openReader).readers.length
      = session.readers.countP (fun entry => ¬ decide (entry.1 = id) = true) := by
    rw [List.countP_eq_length_filter]
    simp [DocumentSession.remove]
  omega

/-- The descriptors of a session during a message: the standard streams, two for each document and
the payloads of the message. -/
structure CountInv {Reader : Type} (payloads : ℕ) (state : CountedSession Reader) : Prop where
  session : SessionInv state.session
  within : state.descriptors ≤ limitNoFile
  count : state.descriptors = standardStreams+2*state.session.readers.length+payloads

theorem initial_counts {Reader : Type} : CountInv 0 (initial : CountedSession Reader) :=
  ⟨initial_inv, show standardStreams ≤ limitNoFile by decide, rfl⟩

/-- A document that was opened has its two descriptors. -/
theorem openReader_counts (calls : ReaderCalls T Database) {state : CountedSession T.Reader}
    {payloads : ℕ} (inv : CountInv payloads state) (id : Str) (request : SessionRequest T) :
    (openReader calls state id request).1.descriptors ≤ limitNoFile ∧
      (openReader calls state id request).1.descriptors = standardStreams
        +2*(openReader calls state id request).1.session.readers.length+payloads := by
  have hwithin := calls.build_within request inv.within
  have hkeeps := calls.build_keeps request state.descriptors
  have hcount := inv.count
  unfold CountedSession.openReader
  cases state.session.requireOpenCapacity id with
  | error error => exact ⟨inv.within, inv.count⟩
  | ok u =>
    dsimp only
    generalize calls.build request state.descriptors = built at hwithin hkeeps ⊢
    obtain ⟨result, n⟩ := built
    cases result with
    | error error =>
      have hn : n = state.descriptors := hkeeps
      exact ⟨hwithin, hn.trans inv.count⟩
    | ok reader =>
      have hn : n = state.descriptors+2 := hkeeps
      have hlength : (state.session.register id reader).readers.length
          = state.session.readers.length+1 := List.length_append
      refine ⟨hwithin, ?_⟩
      show n = standardStreams+2*(state.session.register id reader).readers.length+payloads
      omega

/-- A reader that is asked stays open. -/
theorem ask_length (calls : SessionCalls T) (session : DocumentSession T.Reader) (id : Str)
    (request : SessionRequest T) :
    (session.ask calls id request).1.readers.length = session.readers.length := by
  rw [DocumentSession.ask]
  cases session.find id with
  | none => rfl
  | some openReader => rfl

/-- Every request keeps the count. -/
theorem execute_counts (calls : ReaderCalls T Database) {state : CountedSession T.Reader}
    {payloads : ℕ} (inv : CountInv payloads state) (request : SessionRequest T) :
    CountInv payloads (execute calls state request).1 := by
  have hsession : SessionInv (execute calls state request).1.session := by
    have heq := congrArg Prod.fst (execute_session calls state request)
    dsimp only at heq
    rw [heq]
    exact sessionStep_inv state.session (calls.allowed state.descriptors request, request)
      inv.session
  have hcount := inv.count
  have hwithin := inv.within
  have hasked (id : Str) : (state.session.ask calls.session id request).1.readers.length
      = state.session.readers.length := ask_length calls.session state.session id request
  cases request with
  | openDocument request =>
    obtain ⟨hlimit, hnew⟩ := openReader_counts calls inv request.documentId (.openDocument request)
    exact ⟨hsession, hlimit, hnew⟩
  | openText request =>
    obtain ⟨hlimit, hnew⟩ := openReader_counts calls inv request.documentId (.openText request)
    exact ⟨hsession, hlimit, hnew⟩
  | release request =>
    rw [CountedSession.execute] at hsession ⊢
    cases hfind : state.session.find request.documentId with
    | none => exact inv
    | some openReader =>
      rw [hfind] at hsession
      have hlength := remove_length inv.session hfind
      refine ⟨hsession, ?_, ?_⟩
      · show closeReaders 1 state.descriptors ≤ limitNoFile
        rw [closeReaders_eq]
        omega
      · show closeReaders 1 state.descriptors = standardStreams
          +2*(state.session.remove request.documentId openReader).readers.length+payloads
        rw [closeReaders_eq]
        omega
  | close =>
    refine ⟨hsession, ?_, ?_⟩
    · show closeReaders state.session.readers.length state.descriptors ≤ limitNoFile
      rw [closeReaders_eq]
      omega
    · show closeReaders state.session.readers.length state.descriptors
        = standardStreams+2*0+payloads
      rw [closeReaders_eq]
      omega
  -- a query opens and closes nothing
  | overview request | search request | read request | render request =>
    refine ⟨hsession, hwithin, ?_⟩
    rw [← hasked request.documentId] at hcount
    exact hcount

/-- The session while a message is answered has its payloads open too. -/
theorem counts_received {state : CountedSession T.Reader} (inv : CountInv 0 state) {payloads : ℕ}
    (hroom : state.descriptors+payloads ≤ limitNoFile) :
    CountInv payloads { state with descriptors := state.descriptors+payloads } :=
  ⟨inv.session, hroom, congrArg (·+payloads) inv.count⟩

theorem counts_answered {state : CountedSession T.Reader} {payloads : ℕ}
    (inv : CountInv payloads state) :
    CountInv 0 { state with descriptors := state.descriptors-payloads } := by
  have hcount := inv.count
  refine ⟨inv.session, (Nat.sub_le _ payloads).trans inv.within, ?_⟩
  show state.descriptors-payloads = standardStreams+2*state.session.readers.length+0
  omega

/-- So has the session after it, which has closed them. -/
theorem exchange_counts {state after : CountedSession T.Reader} (inv : CountInv 0 state)
    (message : Message T Database) (hafter : (state.exchange message).1 = some after) :
    CountInv 0 after := by
  rw [exchange, receive_eq message.payloads inv.within] at hafter
  by_cases hroom : state.descriptors+message.payloads ≤ limitNoFile
  · rw [if_pos hroom] at hafter
    have hreceived := counts_received inv hroom
    cases hrequest : message.request with
    | ok request =>
      rw [hrequest] at hafter
      obtain rfl := Option.some.inj hafter
      exact counts_answered (execute_counts message.calls hreceived request)
    | error text =>
      rw [hrequest] at hafter
      obtain rfl := Option.some.inj hafter
      exact counts_answered hreceived
  · rw [if_neg hroom] at hafter
    cases hafter

/-- In every state that a run reaches, the descriptors are counted. -/
theorem run_counts {messages : List (Message T Database)} {state : CountedSession T.Reader}
    (hrun : runEvents step (some initial) messages = some state) : CountInv 0 state := by
  have hall : ∀ reached ∈ runEvents step (some (initial : CountedSession T.Reader)) messages,
      CountInv 0 reached := by
    apply runEvents_invariant (fun state : Option (CountedSession T.Reader) =>
      ∀ reached ∈ state, CountInv 0 reached)
    · intro state message ih reached hreached
      cases state with
      | none => cases hreached
      | some state =>
        have hstep : (if message.closes then none else (state.exchange message).1)
            = some reached := hreached
        split_ifs at hstep with hcloses
        exact exchange_counts (ih state rfl) message hstep
    · intro reached hreached
      obtain rfl := Option.some.inj hreached
      exact initial_counts
  exact hall state hrun

/-- The number of documents that are open together, whatever `maxDocuments` says. -/
theorem run_readers_le {messages : List (Message T Database)} {state : CountedSession T.Reader}
    (hrun : runEvents step (some initial) messages = some state) :
    state.session.readers.length ≤ 254 := by
  obtain ⟨-, hwithin, hcount⟩ := run_counts hrun
  rw [hcount, standardStreams, limitNoFile] at hwithin
  omega

end CountedSession

end ConferWorker
