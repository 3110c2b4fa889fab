import ConferWorker.Transitions

/-! `confer-worker-listener`: the start-up of the listener as a program counter
that any number of processes run through against one `/run/confer`. -/
namespace ConferWorker

/-- The next system call or protocol step of a listener process. The finally
blocks of `accept_until` and `serve` carry whether a connection was accepted. -/
inductive ListenerPc
  | claimOpen | claimWrite | refused
  | readInstanceId | readUptime | openSocket | bindListen | checkDeadline
  | publishOpen | publishWrite | accept
  | innerClose (accepted : Bool) | innerWithdraw (accepted : Bool)
  | outerClose (accepted : Bool) | outerWithdraw (accepted : Bool)
  | acknowledge | receiveRequest | createAttestation | sendAttestation | executeSshd
  | sshd | left
  deriving DecidableEq, Repr

/-- What a step leaves behind for others to see. -/
inductive ListenerEffect
  | claimed | publishedReady | withdrewReady | accepted | acknowledged | executedSshd
  deriving DecidableEq, Repr

/-- A step either goes through or raises. -/
inductive StepOutcome
  | returns | raises
  deriving DecidableEq, Repr

namespace ListenerPc

/-- The process has created the listener-started marker. -/
def holding : ListenerPc → Bool
  | claimOpen | refused => false
  | _ => true

/-- The process has returned from `claim_listener_start`. -/
def pastClaim : ListenerPc → Bool
  | claimOpen | claimWrite | refused => false
  | _ => true

/-- Between the creation of the ready marker and its last withdrawal. -/
def publishing : ListenerPc → Bool
  | publishWrite | accept | innerClose _ | innerWithdraw _ | outerClose _ | outerWithdraw _ => true
  | _ => false

/-- After the try/finally of `serve`, or terminated. -/
def leftServeTry : ListenerPc → Bool
  | acknowledge | receiveRequest | createAttestation | sendAttestation | executeSshd
  | sshd | left => true
  | _ => false

/-- How many connections a process at this point may have accepted. -/
def acceptBudget : ListenerPc → ℕ
  | claimOpen | claimWrite | refused | readInstanceId | readUptime | openSocket | bindListen
  | checkDeadline | publishOpen | publishWrite | accept => 0
  | _ => 1

def sshdBudget : ListenerPc → ℕ
  | sshd => 1
  | _ => 0

theorem pastClaim_holding (pc : ListenerPc) (h : pc.pastClaim = true) : pc.holding = true := by
  cases pc <;> first | rfl | exact h

theorem leftServeTry_quiet (pc : ListenerPc) (h : pc.leftServeTry = true) :
    pc.holding = true ∧ pc.publishing = false := by
  cases pc <;> simp_all [holding, publishing, leftServeTry]

theorem publishing_pastClaim (pc : ListenerPc) (h : pc.publishing = true) :
    pc.pastClaim = true ∧ pc ≠ left := by
  cases pc <;> simp_all [pastClaim, publishing]

theorem acceptBudget_le (pc : ListenerPc) : pc.acceptBudget ≤ 1 := by
  cases pc <;> simp [acceptBudget]

theorem sshdBudget_le (pc : ListenerPc) : pc.sshdBudget ≤ 1 := by
  cases pc <;> simp [sshdBudget]

end ListenerPc

/-- One step of `serve` after the marker was created: the next step, the ready
marker, and the effect of the step. -/
def serveStep (ready : Bool) : ListenerPc → StepOutcome →
    ListenerPc × Bool × List ListenerEffect
  | .claimWrite, .returns => (.readInstanceId, ready, [.claimed])
  | .claimWrite, .raises => (.left, ready, [])
  | .readInstanceId, .returns => (.readUptime, ready, [])
  | .readInstanceId, .raises => (.left, ready, [])
  | .readUptime, .returns => (.openSocket, ready, [])
  | .readUptime, .raises => (.left, ready, [])
  | .openSocket, .returns => (.bindListen, ready, [])
  | .openSocket, .raises => (.left, ready, [])
  | .bindListen, .returns => (.checkDeadline, ready, [])
  | .bindListen, .raises => (.outerClose false, ready, [])
  -- `remaining <= 0` raises AdmissionClosed before the marker is published
  | .checkDeadline, .returns => (.publishOpen, ready, [])
  | .checkDeadline, .raises => (.outerClose false, ready, [])
  -- O_EXCL: an existing ready marker makes the open fail
  | .publishOpen, .returns =>
    if ready then (.outerClose false, ready, []) else (.publishWrite, true, [.publishedReady])
  | .publishOpen, .raises => (.outerClose false, ready, [])
  -- the inner try starts only after publish_ready has returned
  | .publishWrite, .returns => (.accept, ready, [])
  | .publishWrite, .raises => (.outerClose false, ready, [])
  | .accept, .returns => (.innerClose true, ready, [.accepted])
  | .accept, .raises => (.innerClose false, ready, [])
  -- closing a socket and unlink(missing_ok=True) do not raise
  | .innerClose a, _ => (.innerWithdraw a, ready, [])
  | .innerWithdraw a, _ => (.outerClose a, false, [.withdrewReady])
  | .outerClose a, _ => (.outerWithdraw a, ready, [])
  | .outerWithdraw true, _ => (.acknowledge, false, [.withdrewReady])
  | .outerWithdraw false, _ => (.left, false, [.withdrewReady])
  | .acknowledge, .returns => (.receiveRequest, ready, [.acknowledged])
  | .acknowledge, .raises => (.left, ready, [])
  | .receiveRequest, .returns => (.createAttestation, ready, [])
  | .receiveRequest, .raises => (.left, ready, [])
  | .createAttestation, .returns => (.sendAttestation, ready, [])
  | .createAttestation, .raises => (.left, ready, [])
  | .sendAttestation, .returns => (.executeSshd, ready, [])
  | .sendAttestation, .raises => (.left, ready, [])
  | .executeSshd, .returns => (.sshd, ready, [.executedSshd])
  | .executeSshd, .raises => (.left, ready, [])
  | pc, _ => (pc, ready, [])

/-- `/run/confer` and the processes of one boot; the history has the newest
effect first. -/
structure Boot (P : Type*) where
  listenerStarted : Bool
  ready : Bool
  pc : P → ListenerPc
  history : List (P × ListenerEffect)

/-- The state at boot: neither marker exists and no process has run. -/
def Boot.initial (P : Type*) : Boot P :=
  { listenerStarted := false, ready := false, pc := fun _ => .claimOpen, history := [] }

section
variable {P : Type*} [DecidableEq P]

/-- One process takes its next step. -/
def listenerStep (s : Boot P) (event : P × StepOutcome) : Boot P :=
  let (p, outcome) := event
  if s.pc p = .claimOpen then
    -- O_CREAT | O_EXCL: only one process can create the marker
    if s.listenerStarted ∨ outcome = .raises then
      { s with pc := Function.update s.pc p .refused }
    else { s with listenerStarted := true, pc := Function.update s.pc p .claimWrite }
  else
    let (next, ready, effects) := serveStep s.ready (s.pc p) outcome
    { s with
      ready := ready
      pc := Function.update s.pc p next
      history := effects.map (fun e => (p, e)) ++ s.history }

end

/-- The ready marker as the history tells it. -/
def lastMarker : List ListenerEffect → Bool
  | [] => false
  | .publishedReady :: _ => true
  | .withdrewReady :: _ => false
  | _ :: rest => lastMarker rest

/-- What holds of the process that created the marker, at every point. -/
structure ServeInv (pc : ListenerPc) (ready : Bool) (effects : List ListenerEffect) : Prop where
  holding : pc.holding = true
  ready_publishing : ready = true → pc.publishing = true
  ready_eq : ready = lastMarker effects
  accepted_le : effects.count .accepted ≤ pc.acceptBudget
  executed_le : effects.count .executedSshd ≤ pc.sshdBudget
  acknowledged_left : .acknowledged ∈ effects → pc.leftServeTry = true
  silent : pc = .claimWrite → effects = []
  claimed_mem : pc.pastClaim = true → pc ≠ .left → .claimed ∈ effects
  none_or_claimed : effects = [] ∨ .claimed ∈ effects

/-- What a step from one point to another does to what the points allow, with its effects. -/
structure StepAllowed (pc next : ListenerPc) (new : List ListenerEffect) : Prop where
  holding : next.holding = true
  accepted : pc.acceptBudget + new.count .accepted ≤ next.acceptBudget
  executed : pc.sshdBudget + new.count .executedSshd ≤ next.sshdBudget
  acknowledged : pc.leftServeTry = true ∨ .acknowledged ∈ new → next.leftServeTry = true
  silent : next = .claimWrite → pc = .claimWrite ∧ new = []
  claimed : next.pastClaim = true → next ≠ .left →
    .claimed ∈ new ∨ pc.pastClaim = true ∧ pc ≠ .left
  first : new = [] ∨ .claimed ∈ new ∨ pc.pastClaim = true ∧ pc ≠ .left

instance (pc next : ListenerPc) (new : List ListenerEffect) :
    Decidable (StepAllowed pc next new) :=
  decidable_of_iff
    (next.holding = true ∧ pc.acceptBudget + new.count .accepted ≤ next.acceptBudget ∧
      pc.sshdBudget + new.count .executedSshd ≤ next.sshdBudget ∧
      (pc.leftServeTry = true ∨ .acknowledged ∈ new → next.leftServeTry = true) ∧
      (next = .claimWrite → pc = .claimWrite ∧ new = []) ∧
      (next.pastClaim = true → next ≠ .left → .claimed ∈ new ∨ pc.pastClaim = true ∧ pc ≠ .left) ∧
      (new = [] ∨ .claimed ∈ new ∨ pc.pastClaim = true ∧ pc ≠ .left))
    ⟨fun ⟨a, b, c, d, e, f, g⟩ => ⟨a, b, c, d, e, f, g⟩,
      fun ⟨a, b, c, d, e, f, g⟩ => ⟨a, b, c, d, e, f, g⟩⟩

/-- The table of steps, point by point. -/
theorem serveStep_allowed (ready : Bool) (pc : ListenerPc) (outcome : StepOutcome)
    (h : pc.holding = true) :
    StepAllowed pc (serveStep ready pc outcome).1 (serveStep ready pc outcome).2.2 := by
  revert h
  cases ready <;> cases outcome <;> cases pc
  all_goals first | decide | skip
  -- the points that carry whether a connection was accepted
  all_goals
    rename_i accepted
    cases accepted <;> decide

/-- The ready marker is what the last effect on it says. -/
theorem serveStep_marker (pc : ListenerPc) (outcome : StepOutcome)
    (effects : List ListenerEffect) :
    (serveStep (lastMarker effects) pc outcome).2.1
      = lastMarker ((serveStep (lastMarker effects) pc outcome).2.2 ++ effects) := by
  cases pc with
  | outerWithdraw accepted => cases accepted <;> rfl
  | publishOpen =>
    cases outcome with
    | raises => rfl
    | returns =>
      rw [serveStep]
      split_ifs with hready
      · rfl
      · rfl
  | _ => cases outcome <;> rfl

/-- A marker that stands was published by a process that has not withdrawn it. -/
theorem serveStep_publishing (ready : Bool) (pc : ListenerPc) (outcome : StepOutcome) :
    (ready = true → pc.publishing = true) → (serveStep ready pc outcome).2.1 = true →
      (serveStep ready pc outcome).1.publishing = true := by
  cases ready <;> cases outcome <;> cases pc
  all_goals first | decide | skip
  all_goals
    rename_i accepted
    cases accepted <;> decide

theorem serveStep_inv {pc : ListenerPc} {ready : Bool} {effects : List ListenerEffect}
    (h : ServeInv pc ready effects) (outcome : StepOutcome) :
    ServeInv (serveStep ready pc outcome).1 (serveStep ready pc outcome).2.1
      ((serveStep ready pc outcome).2.2 ++ effects) := by
  have hstep := serveStep_allowed ready pc outcome h.holding
  have hmarker := serveStep_marker pc outcome effects
  have hpublishing := serveStep_publishing ready pc outcome h.ready_publishing
  rw [← h.ready_eq] at hmarker
  generalize serveStep ready pc outcome = step at hstep hmarker hpublishing ⊢
  obtain ⟨next, ready', new⟩ := step
  dsimp only at hstep hmarker hpublishing ⊢
  -- a point past the claim is reached with the claim among the effects
  have hclaimed (hpast : pc.pastClaim = true ∧ pc ≠ .left) : .claimed ∈ new ++ effects :=
    List.mem_append_right new (h.claimed_mem hpast.1 hpast.2)
  refine ⟨hstep.holding, hpublishing, hmarker, ?_, ?_, ?_, ?_, ?_, ?_⟩
  · rw [List.count_append]
    have hbefore := h.accepted_le
    have hnew := hstep.accepted
    omega
  · rw [List.count_append]
    have hbefore := h.executed_le
    have hnew := hstep.executed
    omega
  · intro hmem
    rcases List.mem_append.mp hmem with hnew | hold
    · exact hstep.acknowledged (Or.inr hnew)
    · exact hstep.acknowledged (Or.inl (h.acknowledged_left hold))
  · intro hnext
    obtain ⟨hpc, hnew⟩ := hstep.silent hnext
    rw [hnew, h.silent hpc]
    rfl
  · intro hpast hleft
    rcases hstep.claimed hpast hleft with hnew | hbefore
    · exact List.mem_append_left effects hnew
    · exact hclaimed hbefore
  · rcases hstep.first with hnew | hnew | hbefore
    · rw [hnew]
      exact h.none_or_claimed
    · exact Or.inr (List.mem_append_left effects hnew)
    · exact Or.inr (hclaimed hbefore)

/-- Either no process has created the marker, or one process has and every
effect is its own. -/
inductive BootInv {P : Type*} (s : Boot P) : Prop
  | vacant (unstarted : s.listenerStarted = false) (ready : s.ready = false)
      (history : s.history = []) (none_holding : ∀ p, (s.pc p).holding = false)
  | held (p : P) (started : s.listenerStarted = true)
      (own : ∀ q e, (q, e) ∈ s.history → q = p)
      (others : ∀ q, q ≠ p → (s.pc q).holding = false)
      (serve : ServeInv (s.pc p) s.ready (s.history.map Prod.snd))

section
variable {P : Type*} [DecidableEq P]

theorem listenerStep_claim (s : Boot P) (p : P) (outcome : StepOutcome)
    (h : s.pc p = .claimOpen) :
    listenerStep s (p, outcome) = if s.listenerStarted ∨ outcome = .raises then
        { s with pc := Function.update s.pc p .refused }
      else { s with listenerStarted := true, pc := Function.update s.pc p .claimWrite } :=
  if_pos h

theorem listenerStep_serve (s : Boot P) (p : P) (outcome : StepOutcome)
    (h : s.pc p ≠ .claimOpen) :
    listenerStep s (p, outcome) =
      { s with
        ready := (serveStep s.ready (s.pc p) outcome).2.1
        pc := Function.update s.pc p (serveStep s.ready (s.pc p) outcome).1
        history := (serveStep s.ready (s.pc p) outcome).2.2.map (fun e => (p, e)) ++ s.history } :=
  if_neg h

/-- A refused process changes nothing any more. -/
theorem listenerStep_refused (s : Boot P) (p : P) (outcome : StepOutcome)
    (h : s.pc p = .refused) : listenerStep s (p, outcome) = s := by
  have hu : Function.update s.pc p .refused = s.pc := by rw [← h, Function.update_eq_self]
  rw [listenerStep_serve s p outcome (by rw [h]; decide), h]
  cases outcome <;> simp only [serveStep, hu, List.map_nil, List.nil_append]

theorem holding_eq_false (pc : ListenerPc) :
    pc.holding = false ↔ pc = .claimOpen ∨ pc = .refused := by
  cases pc <;> simp [ListenerPc.holding]

/-- A claim that is refused leaves every holder where it was. -/
theorem update_refused_holding (pc : P → ListenerPc) (p q : P) (h : (pc q).holding = false) :
    (Function.update pc p .refused q).holding = false := by
  by_cases hq : q = p
  · rw [hq, Function.update_self]
    rfl
  · rw [Function.update_of_ne hq]
    exact h

theorem listenerStep_inv (s : Boot P) (event : P × StepOutcome) (h : BootInv s) :
    BootInv (listenerStep s event) := by
  obtain ⟨p, outcome⟩ := event
  rcases h with ⟨hstart, hready, hhist, hnone⟩ | ⟨o, hstart, hown, hothers, hserve⟩
  · rcases (holding_eq_false _).mp (hnone p) with hp | hp
    · rw [listenerStep_claim s p outcome hp]
      split_ifs with hc
      · exact .vacant hstart hready hhist (fun q => update_refused_holding s.pc p q (hnone q))
      · refine .held p rfl (by simp [hhist]) (fun q hq => ?_) ?_
        · simpa only [Function.update_of_ne hq] using hnone q
        · simp only [Function.update_self, hready, hhist, List.map_nil]
          exact ⟨rfl, by simp, rfl, by simp, by simp, by simp, fun _ => rfl,
            by simp [ListenerPc.pastClaim], .inl rfl⟩
    · rw [listenerStep_refused s p outcome hp]
      exact .vacant hstart hready hhist hnone
  · by_cases hpo : p = o
    · -- the holder moves: its own invariant carries the step
      subst hpo
      have hp : s.pc p ≠ .claimOpen := by
        intro he
        have hh := hserve.holding
        rw [he] at hh
        exact Bool.false_ne_true hh
      rw [listenerStep_serve s p outcome hp]
      refine .held p hstart ?_ (fun q hq => ?_) ?_
      · intro q e hm
        rcases List.mem_append.mp hm with hm | hm
        · obtain ⟨_, _, he⟩ := List.mem_map.mp hm
          exact (congrArg Prod.fst he).symm
        · exact hown q e hm
      · simpa only [Function.update_of_ne hq] using hothers q hq
      · simpa only [Function.update_self, List.map_append, List.map_map, Function.comp_def,
          List.map_id'] using serveStep_inv hserve outcome
    · -- any other process is refused, or was
      rcases (holding_eq_false _).mp (hothers p hpo) with hp | hp
      · rw [listenerStep_claim s p outcome hp, if_pos (Or.inl hstart)]
        refine .held o hstart hown
          (fun q hq => update_refused_holding s.pc p q (hothers q hq)) ?_
        simpa only [Function.update_of_ne (Ne.symm hpo)] using hserve
      · rw [listenerStep_refused s p outcome hp]
        exact .held o hstart hown hothers hserve

theorem boot_inv (events : List (P × StepOutcome)) :
    BootInv (runEvents listenerStep (Boot.initial P) events) :=
  runEvents_invariant BootInv listenerStep_inv (.vacant rfl rfl rfl (fun _ => rfl)) events

/-- How often an effect has happened, whoever caused it. -/
def Boot.count (s : Boot P) (e : ListenerEffect) : ℕ := (s.history.map Prod.snd).count e

/-- After any interleaving of any number of listener processes, and whichever
steps raised: one process at most got past the claim, and every effect is its
own; the ready marker stands only while that process is between publishing and
withdrawing it. -/
theorem one_reservation_per_boot (events : List (P × StepOutcome)) :
    let s := runEvents listenerStep (Boot.initial P) events
    (∀ p q, (s.pc p).pastClaim = true → (s.pc q).pastClaim = true → p = q) ∧
    (∀ p q e, (p, .claimed) ∈ s.history → (q, e) ∈ s.history → p = q) ∧
    (∀ p e, (p, e) ∈ s.history → (p, .claimed) ∈ s.history) ∧
    (∀ p, s.pc p = .refused → ∀ e, (p, e) ∉ s.history) ∧
    s.count .accepted ≤ 1 ∧ s.count .executedSshd ≤ 1 ∧
    s.ready = lastMarker (s.history.map Prod.snd) ∧
    (s.ready = true → ∃ p, (p, .claimed) ∈ s.history ∧ (s.pc p).publishing = true) ∧
    (∀ p, (p, .acknowledged) ∈ s.history → s.ready = false) ∧
    (∀ p, (s.pc p).leftServeTry = true → s.ready = false) := by
  intro s
  -- either no process has created the marker, or one has and all effects are its own
  rcases boot_inv events with ⟨hstart, hready, hhist, hnone⟩ | ⟨o, hstart, hown, hothers, hserve⟩
  · have hnil (p : P) (e : ListenerEffect) : (p, e) ∉ s.history := by
      rw [hhist]
      exact List.not_mem_nil
    have hno (p : P) (h : (s.pc p).holding = true) : False :=
      Bool.false_ne_true ((hnone p).symm.trans h)
    have hcount (e : ListenerEffect) : s.count e = 0 := by
      simp only [Boot.count, s, hhist, List.map_nil, List.count_nil]
    refine ⟨fun p _ hp _ => (hno p ((s.pc _).pastClaim_holding hp)).elim,
      fun p _ _ hp _ => (hnil p _ hp).elim, fun p e hp => (hnil p e hp).elim,
      fun p _ e => hnil p e, (hcount _).le.trans zero_le_one, (hcount _).le.trans zero_le_one, ?_,
      fun hr => ?_, fun p hp => (hnil p _ hp).elim, fun _ _ => hready⟩
    · simp only [s, hready, hhist, List.map_nil, lastMarker]
    · exact (Bool.false_ne_true (hready.symm.trans hr)).elim
  · have howner (p : P) (h : (s.pc p).holding = true) : p = o := by
      by_contra hp
      exact Bool.false_ne_true ((hothers p hp).symm.trans h)
    have hmem (p : P) (e : ListenerEffect) (h : (p, e) ∈ s.history) :
        (p, .claimed) ∈ s.history := by
      have he : e ∈ s.history.map Prod.snd := List.mem_map.mpr ⟨(p, e), h, rfl⟩
      have hc := hserve.none_or_claimed.resolve_left (List.ne_nil_of_mem he)
      obtain ⟨⟨q, _⟩, hq, rfl⟩ := List.mem_map.mp hc
      rwa [hown p e h, ← hown q _ hq]
    have hquiet (h : (s.pc o).publishing = false) : s.ready = false := by
      by_contra hr
      have hp := hserve.ready_publishing (by simpa using hr)
      exact Bool.false_ne_true (h.symm.trans hp)
    have hpast (p : P) (hp : (s.pc p).pastClaim = true) : p = o :=
      howner p ((s.pc p).pastClaim_holding hp)
    refine ⟨fun p q hp hq => (hpast p hp).trans (hpast q hq).symm,
      fun p q e hp hq => (hown p _ hp).trans (hown q e hq).symm, hmem, fun p hp e he => ?_,
      hserve.accepted_le.trans (s.pc o).acceptBudget_le,
      hserve.executed_le.trans (s.pc o).sshdBudget_le, hserve.ready_eq,
      fun hr => ⟨o, ?_, hserve.ready_publishing hr⟩, fun p hp => ?_, fun p hp => ?_⟩
    · have hh := hserve.holding
      rw [← hown p e he, hp] at hh
      exact Bool.false_ne_true hh
    · obtain ⟨hpc, hne⟩ := (s.pc o).publishing_pastClaim (hserve.ready_publishing hr)
      obtain ⟨⟨q, e⟩, hq, rfl⟩ := List.mem_map.mp (hserve.claimed_mem hpc hne)
      rwa [hown q _ hq] at hq
    · have he : ListenerEffect.acknowledged ∈ s.history.map Prod.snd :=
        List.mem_map.mpr ⟨(p, _), hp, rfl⟩
      exact hquiet ((s.pc o).leftServeTry_quiet (hserve.acknowledged_left he)).2
    · have hl := (s.pc p).leftServeTry_quiet hp
      rw [howner p hl.1] at hl
      exact hquiet hl.2

end

end ConferWorker
