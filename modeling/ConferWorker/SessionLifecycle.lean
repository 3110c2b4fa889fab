import ConferWorker.DocumentSession
import ConferWorker.Transitions

/-! What a request can do to a session, and the life of a reader: it is built,
used while it is open, and closed exactly once. -/
namespace ConferWorker

open DocumentSession

variable {T : SessionTypes}

/-- A request together with what the collaborators do during it. -/
abbrev SessionEvent (T : SessionTypes) := SessionCalls T × SessionRequest T

/-- The session after one request. -/
def sessionStep (session : DocumentSession T.Reader) (event : SessionEvent T) :
    DocumentSession T.Reader :=
  (execute event.1 session event.2).1

theorem requireOpenCapacity_eq_ok (session : DocumentSession T.Reader) (id : Str) :
    session.requireOpenCapacity id = .ok () ↔
      session.find id = none ∧ session.readers.length < maxDocuments := by
  simp only [requireOpenCapacity, bind_eq_ok, raiseIf_eq_ok, exists_const, not_le,
    Bool.not_eq_true, Option.isSome_eq_false_iff, Option.isNone_iff_eq_none]

/-- What one request can do to a session: nothing, a use of the reader it names,
the registration of a reader under a free id, a removal, or closing everything. -/
theorem execute_cases (calls : SessionCalls T) (session : DocumentSession T.Reader)
    (request : SessionRequest T) :
    (execute calls session request).1 = session ∨
      (∃ id openReader, session.find id = some openReader ∧
        (execute calls session request).1 = session.use openReader) ∨
      (∃ id reader, session.find id = none ∧ session.readers.length < maxDocuments ∧
        (execute calls session request).1 = session.register id reader) ∨
      (∃ id openReader, session.find id = some openReader ∧
        (execute calls session request).1 = session.remove id openReader) ∨
      (execute calls session request).1 = session.close := by
  have hopen (id : Str) : (openReader calls session id request).1 = session ∨
      ∃ reader, session.find id = none ∧ session.readers.length < maxDocuments ∧
        (openReader calls session id request).1 = session.register id reader := by
    unfold openReader
    cases hcapacity : session.requireOpenCapacity id with
    | error error => exact Or.inl rfl
    | ok u =>
      obtain ⟨hfree, hroom⟩ := (requireOpenCapacity_eq_ok session id).mp hcapacity
      cases hbuild : buildReader calls request with
      | error error => exact Or.inl rfl
      | ok reader => exact Or.inr ⟨reader, hfree, hroom, rfl⟩
  have hask (id : Str) : (ask calls session id request).1 = session ∨
      ∃ openReader, session.find id = some openReader ∧
        (ask calls session id request).1 = session.use openReader := by
    unfold ask
    cases hfind : session.find id with
    | none => exact Or.inl rfl
    | some openReader => exact Or.inr ⟨openReader, rfl, rfl⟩
  cases request with
  | openDocument request | openText request =>
    rcases hopen request.documentId with h | ⟨reader, h⟩
    · exact Or.inl h
    · exact Or.inr (Or.inr (Or.inl ⟨_, reader, h⟩))
  | overview request | search request | read request | render request =>
    rcases hask request.documentId with h | h
    · exact Or.inl h
    · exact Or.inr (Or.inl ⟨_, h⟩)
  | release request =>
    change session.release request.documentId = session ∨ _
    cases hfind : session.find request.documentId with
    | none =>
      left
      rw [release, hfind]
    | some openReader =>
      right; right; right; left
      refine ⟨_, openReader, hfind, ?_⟩
      change session.release request.documentId = _
      rw [release, hfind]
  | close => exact Or.inr (Or.inr (Or.inr (Or.inr rfl)))

/-- What happened to the reader with a serial number. -/
def readerHistory (serial : ℕ) (history : List (ℕ × ReaderEvent)) : List ReaderEvent :=
  (history.filter (fun entry => entry.1 = serial)).map Prod.snd

/-- Built, and used any number of times. -/
def IsOpenHistory (events : List ReaderEvent) : Prop :=
  ∃ uses, events = .built :: List.replicate uses .used

/-- Built, used any number of times, and then closed: once, and not used after it. -/
def IsClosedHistory (events : List ReaderEvent) : Prop :=
  ∃ uses, events = .built :: List.replicate uses .used++[.closed]

theorem readerHistory_append (serial : ℕ) (before after : List (ℕ × ReaderEvent)) :
    readerHistory serial (before++after)
      = readerHistory serial before++readerHistory serial after := by
  rw [readerHistory, List.filter_append, List.map_append, readerHistory, readerHistory]

theorem readerHistory_single (serial other : ℕ) (event : ReaderEvent) :
    readerHistory serial [(other, event)] = if other = serial then [event] else [] := by
  unfold readerHistory
  split_ifs with h <;> simp [h]

theorem IsOpenHistory.use {events : List ReaderEvent} (h : IsOpenHistory events) :
    IsOpenHistory (events++[.used]) := by
  obtain ⟨uses, rfl⟩ := h
  exact ⟨uses+1, by rw [List.cons_append, ← List.replicate_succ']⟩

theorem IsOpenHistory.close {events : List ReaderEvent} (h : IsOpenHistory events) :
    IsClosedHistory (events++[.closed]) := by
  obtain ⟨uses, rfl⟩ := h
  exact ⟨uses, rfl⟩

/-- The serial numbers of the open readers. -/
def DocumentSession.serials {Reader : Type} (session : DocumentSession Reader) : List ℕ :=
  session.readers.map (fun entry => entry.2.serial)

/-- The invariant of a session: distinct ids, bounded number, and a history in
which the open readers are open and all other readers ever built are closed. -/
structure SessionInv {Reader : Type} (session : DocumentSession Reader) : Prop where
  ids : (session.readers.map Prod.fst).Nodup
  capacity : session.readers.length ≤ maxDocuments
  serials : session.serials.Nodup
  serial_lt : ∀ serial ∈ session.serials, serial < session.built
  unborn : ∀ serial, session.built ≤ serial → readerHistory serial session.history = []
  opened : ∀ serial ∈ session.serials, IsOpenHistory (readerHistory serial session.history)
  closed : ∀ serial < session.built, serial ∉ session.serials →
    IsClosedHistory (readerHistory serial session.history)

variable {Reader : Type}

theorem initial_inv : SessionInv (initial : DocumentSession Reader) :=
  ⟨by simp [initial], by simp [initial], by simp [initial, serials], by simp [initial, serials],
    by simp [initial, readerHistory], by simp [initial, serials], by simp [initial]⟩

theorem find_mem {session : DocumentSession Reader} {id : Str} {openReader : OpenReader Reader}
    (h : session.find id = some openReader) : (id, openReader) ∈ session.readers := by
  obtain ⟨before, after, hreaders, -⟩ := List.lookup_eq_some_iff.mp h
  simp [hreaders]

theorem find_none {session : DocumentSession Reader} {id : Str} (h : session.find id = none) :
    id ∉ session.readers.map Prod.fst := by
  rw [find, List.lookup_eq_none_iff] at h
  intro hmem
  obtain ⟨entry, hentry, rfl⟩ := List.mem_map.mp hmem
  have hne := h entry hentry
  simp at hne

theorem use_inv {session : DocumentSession Reader} (inv : SessionInv session) {id : Str}
    {openReader : OpenReader Reader} (h : session.find id = some openReader) :
    SessionInv (session.use openReader) := by
  have hserial : openReader.serial ∈ session.serials :=
    List.mem_map.mpr ⟨_, find_mem h, rfl⟩
  refine ⟨inv.ids, inv.capacity, inv.serials, inv.serial_lt, ?_, ?_, ?_⟩
  · intro serial hle
    have hne : openReader.serial ≠ serial := by
      have := inv.serial_lt _ hserial
      change session.built ≤ serial at hle
      omega
    change readerHistory serial (session.history++_) = []
    rw [readerHistory_append, readerHistory_single, if_neg hne, List.append_nil]
    exact inv.unborn serial hle
  · intro serial hmem
    change IsOpenHistory (readerHistory serial (session.history++_))
    rw [readerHistory_append, readerHistory_single]
    split_ifs
    · exact (inv.opened serial hmem).use
    · rw [List.append_nil]
      exact inv.opened serial hmem
  · intro serial hlt hmem
    have hne : openReader.serial ≠ serial := fun heq => hmem (heq ▸ hserial)
    change IsClosedHistory (readerHistory serial (session.history++_))
    rw [readerHistory_append, readerHistory_single, if_neg hne, List.append_nil]
    exact inv.closed serial hlt hmem

theorem register_inv {session : DocumentSession Reader} (inv : SessionInv session) {id : Str}
    (reader : Reader) (hfree : session.find id = none)
    (hroom : session.readers.length < maxDocuments) : SessionInv (session.register id reader) := by
  have hserials : (session.register id reader).serials = session.serials++[session.built] := by
    simp [serials, register]
  -- serials are given out in order, so the new one was never used
  have hfresh : session.built ∉ session.serials := fun h => by
    have := inv.serial_lt _ h
    omega
  refine ⟨?_, ?_, ?_, ?_, ?_, ?_, ?_⟩
  · change ((session.readers++[(id, _)]).map Prod.fst).Nodup
    rw [List.map_append, List.nodup_append]
    refine ⟨inv.ids, by simp, ?_⟩
    intro a ha b hb hab
    rw [hab, List.mem_singleton.mp hb] at ha
    exact find_none hfree ha
  · change (session.readers++[(id, _)]).length ≤ maxDocuments
    rw [List.length_append]
    exact hroom
  · rw [hserials, List.nodup_append]
    refine ⟨inv.serials, by simp, ?_⟩
    intro a ha b hb hab
    rw [hab, List.mem_singleton.mp hb] at ha
    exact hfresh ha
  · intro serial hmem
    rw [hserials, List.mem_append, List.mem_singleton] at hmem
    change serial < session.built+1
    rcases hmem with hmem | rfl
    · have := inv.serial_lt serial hmem
      omega
    · omega
  · intro serial hle
    change session.built+1 ≤ serial at hle
    change readerHistory serial (session.history++_) = []
    rw [readerHistory_append, readerHistory_single, if_neg (by omega), List.append_nil]
    exact inv.unborn serial (by omega)
  · intro serial hmem
    rw [hserials, List.mem_append, List.mem_singleton] at hmem
    change IsOpenHistory (readerHistory serial (session.history++_))
    rw [readerHistory_append, readerHistory_single]
    rcases hmem with hmem | rfl
    · have hne : session.built ≠ serial := by
        have := inv.serial_lt serial hmem
        omega
      rw [if_neg hne, List.append_nil]
      exact inv.opened serial hmem
    · rw [if_pos rfl, inv.unborn _ (le_refl _)]
      exact ⟨0, rfl⟩
  · intro serial hlt hmem
    rw [hserials, List.mem_append, List.mem_singleton, not_or] at hmem
    change serial < session.built+1 at hlt
    change IsClosedHistory (readerHistory serial (session.history++_))
    rw [readerHistory_append, readerHistory_single, if_neg (fun heq => hmem.2 heq.symm),
      List.append_nil]
    exact inv.closed serial (by omega) hmem.1

theorem remove_inv {session : DocumentSession Reader} (inv : SessionInv session) {id : Str}
    {openReader : OpenReader Reader} (h : session.find id = some openReader) :
    SessionInv (session.remove id openReader) := by
  have hmember := find_mem h
  have hserial : openReader.serial ∈ session.serials := List.mem_map.mpr ⟨_, hmember, rfl⟩
  have hserials (serial : ℕ) : serial ∈ (session.remove id openReader).serials ↔
      serial ∈ session.serials ∧ serial ≠ openReader.serial := by
    simp only [serials, remove, List.mem_map, List.mem_filter, decide_eq_true_eq]
    constructor
    · rintro ⟨entry, ⟨hentry, hid⟩, rfl⟩
      refine ⟨⟨entry, hentry, rfl⟩, fun heq => hid ?_⟩
      rw [List.inj_on_of_nodup_map inv.serials hentry hmember heq]
    · rintro ⟨⟨entry, hentry, rfl⟩, hne⟩
      refine ⟨entry, ⟨hentry, fun hid => hne ?_⟩, rfl⟩
      rw [List.inj_on_of_nodup_map inv.ids hentry hmember hid]
  have hsublist : (session.remove id openReader).readers.Sublist session.readers :=
    List.filter_sublist
  refine ⟨inv.ids.sublist (hsublist.map _), hsublist.length_le.trans inv.capacity,
    inv.serials.sublist (hsublist.map _), ?_, ?_, ?_, ?_⟩
  · intro serial hmem
    exact inv.serial_lt serial ((hserials serial).mp hmem).1
  · intro serial hle
    have hne : openReader.serial ≠ serial := by
      have := inv.serial_lt _ hserial
      change session.built ≤ serial at hle
      omega
    change readerHistory serial (session.history++_) = []
    rw [readerHistory_append, readerHistory_single, if_neg hne, List.append_nil]
    exact inv.unborn serial hle
  · intro serial hmem
    obtain ⟨hold, hne⟩ := (hserials serial).mp hmem
    change IsOpenHistory (readerHistory serial (session.history++_))
    rw [readerHistory_append, readerHistory_single, if_neg (Ne.symm hne), List.append_nil]
    exact inv.opened serial hold
  · intro serial hlt hmem
    rw [hserials, not_and, not_not] at hmem
    change IsClosedHistory (readerHistory serial (session.history++_))
    rw [readerHistory_append, readerHistory_single]
    split_ifs with heq
    · subst heq
      exact (inv.opened _ hserial).close
    · rw [List.append_nil]
      exact inv.closed serial hlt (fun hold => heq (hmem hold).symm)

theorem readerHistory_closes (serial : ℕ) (serials : List ℕ) (h : serials.Nodup) :
    readerHistory serial (serials.map (fun other => (other, ReaderEvent.closed)))
      = if serial ∈ serials then [.closed] else [] := by
  induction serials with
  | nil => rfl
  | cons other serials ih =>
    obtain ⟨hother, hrest⟩ := List.nodup_cons.mp h
    rw [List.map_cons, ← List.singleton_append, readerHistory_append, readerHistory_single,
      ih hrest]
    by_cases heq : other = serial
    · subst heq
      simp [hother]
    · have hmem : serial ∈ other :: serials ↔ serial ∈ serials := by
        simp [Ne.symm heq]
      simp only [if_neg heq, List.nil_append, hmem]

theorem close_inv {session : DocumentSession Reader} (inv : SessionInv session) :
    SessionInv session.close := by
  have hhistory : session.close.history
      = session.history++session.serials.map (fun serial => (serial, ReaderEvent.closed)) := by
    rw [serials, List.map_map]
    rfl
  refine ⟨by simp [close], by simp [close], by simp [close, serials], by simp [close, serials],
    ?_, by simp [close, serials], ?_⟩
  · intro serial hle
    have hnot : serial ∉ session.serials := fun hmem => by
      have := inv.serial_lt serial hmem
      change session.built ≤ serial at hle
      omega
    rw [hhistory, readerHistory_append, readerHistory_closes serial _ inv.serials, if_neg hnot,
      List.append_nil]
    exact inv.unborn serial hle
  · intro serial hlt _
    rw [hhistory, readerHistory_append, readerHistory_closes serial _ inv.serials]
    split_ifs with hmem
    · exact (inv.opened serial hmem).close
    · rw [List.append_nil]
      exact inv.closed serial hlt hmem

/-- Every request keeps the invariant. -/
theorem sessionStep_inv (session : DocumentSession T.Reader) (event : SessionEvent T)
    (inv : SessionInv session) : SessionInv (sessionStep session event) := by
  unfold sessionStep
  rcases execute_cases event.1 session event.2 with h | ⟨id, openReader, hfind, h⟩ |
    ⟨id, reader, hfree, hroom, h⟩ | ⟨id, openReader, hfind, h⟩ | h
  · rw [h]
    exact inv
  · rw [h]
    exact use_inv inv hfind
  · rw [h]
    exact register_inv inv reader hfree hroom
  · rw [h]
    exact remove_inv inv hfind
  · rw [h]
    exact close_inv inv

theorem session_inv (events : List (SessionEvent T)) :
    SessionInv (runEvents sessionStep initial events) :=
  runEvents_invariant SessionInv sessionStep_inv initial_inv events

/-- After the final `application.close` every reader ever built was closed once. -/
theorem closed_once {session : DocumentSession Reader} (inv : SessionInv session) (serial : ℕ)
    (h : serial < session.built) :
    IsClosedHistory (readerHistory serial session.close.history) :=
  (close_inv inv).closed serial h (by simp [close, serials])

end ConferWorker
