import ConferWorker.Raising

/-! Rules for code that acts on a state and may raise. What a script did to the state
stays done when it raises. A script over a log only adds to it, and a property of what
it adds goes through it bind by bind. -/
namespace ConferWorker

/-- A computation over a state: a result or an error, and the state it leaves. -/
def Script (ε σ α : Type) := σ → Except ε α × σ

namespace Script

variable {ε σ ω α β : Type}

def bind (x : Script ε σ α) (f : α → Script ε σ β) : Script ε σ β := fun s =>
  match x s with
  | (.ok a, s) => f a s
  | (.error e, s) => (.error e, s)

instance : Monad (Script ε σ) where
  pure a := fun s => (.ok a, s)
  bind := bind

/-- `raise error`. -/
def raise (error : ε) : Script ε σ α := fun s => (.error error, s)

/-- A computation that does not touch the state. -/
def lift (x : Except ε α) : Script ε σ α := fun s => (x, s)

/-- What the state says the next result is. -/
def ask (answer : σ → Except ε α) : Script ε σ α := fun s => (answer s, s)

def modify (f : σ → σ) : Script ε σ Unit := fun s => (.ok (), f s)

/-- An exception in a `finally` block takes the place of the result. -/
def finallyResult (result : Except ε α) : Except ε Unit → Except ε α
  | .ok () => result
  | .error e => .error e

/-- `try: x finally: last`. -/
def andFinally (x : Script ε σ α) (last : Script ε σ Unit) : Script ε σ α := fun s =>
  (finallyResult (x s).1 (last (x s).2).1, (last (x s).2).2)

@[simp] theorem pure_run (a : α) (s : σ) : (pure a : Script ε σ α) s = (.ok a, s) := rfl

@[simp] theorem raise_run (e : ε) (s : σ) : (raise e : Script ε σ α) s = (.error e, s) := rfl

@[simp] theorem lift_run (x : Except ε α) (s : σ) : (lift x : Script ε σ α) s = (x, s) := rfl

@[simp] theorem ask_run (answer : σ → Except ε α) (s : σ) : ask answer s = (answer s, s) := rfl

@[simp] theorem modify_run (f : σ → σ) (s : σ) : (modify f : Script ε σ Unit) s = (.ok (), f s) :=
  rfl

theorem bind_ok {x : Script ε σ α} {s t : σ} {a : α} (f : α → Script ε σ β)
    (h : x s = (.ok a, t)) : (x >>= f) s = f a t := by
  change bind x f s = f a t
  rw [bind, h]

theorem bind_error {x : Script ε σ α} {s t : σ} {e : ε} (f : α → Script ε σ β)
    (h : x s = (.error e, t)) : (x >>= f) s = (.error e, t) := by
  change bind x f s = (.error e, t)
  rw [bind, h]

/-- A script that ends without an error has gone through both of its parts. -/
theorem bind_returns {x : Script ε σ α} {f : α → Script ε σ β} {s t : σ} {b : β}
    (h : (x >>= f) s = (.ok b, t)) : ∃ a u, x s = (.ok a, u) ∧ f a u = (.ok b, t) := by
  rcases hrun : x s with ⟨e | a, u⟩
  · rw [bind_error f hrun] at h
    cases h
  · rw [bind_ok f hrun] at h
    exact ⟨a, u, rfl, h⟩

theorem lift_returns {x : Except ε α} {s t : σ} {a : α}
    (h : (lift x : Script ε σ α) s = (.ok a, t)) : x = .ok a ∧ s = t := by
  cases h
  exact ⟨rfl, rfl⟩

section Relation

variable {x : Script ε σ α} {P : σ → Except ε α → σ → Prop}

/-- Every run of the script relates the state before it, its result and the state that it
leaves. -/
def Relates (x : Script ε σ α) (P : σ → Except ε α → σ → Prop) : Prop :=
  ∀ s, P s (x s).1 (x s).2

theorem Relates.mono {Q : σ → Except ε α → σ → Prop} (hx : Relates x P)
    (h : ∀ s result t, P s result t → Q s result t) : Relates x Q :=
  fun s => h _ _ _ (hx s)

theorem relates_ask {answer : σ → Except ε α} (h : ∀ s, P s (answer s) s) :
    Relates (ask answer) P := h

theorem relates_lift (answer : Except ε α) :
    Relates (lift answer : Script ε σ α) (fun s result t => t = s ∧ result = answer) :=
  fun _ => ⟨rfl, rfl⟩

theorem relates_raise (e : ε) :
    Relates (raise e : Script ε σ α) (fun s result t => t = s ∧ result = .error e) :=
  fun _ => ⟨rfl, rfl⟩

theorem relates_modify (f : σ → σ) :
    Relates (modify f : Script ε σ Unit) (fun s result t => t = f s ∧ result = .ok ()) :=
  fun _ => ⟨rfl, rfl⟩

/-- A script after another: either the first one raised, or the second one ran. -/
theorem relates_bind {f : α → Script ε σ β} {Q : α → σ → Except ε β → σ → Prop}
    {R : σ → Except ε β → σ → Prop} (hx : Relates x P) (hf : ∀ a, Relates (f a) (Q a))
    (hraised : ∀ s t e, P s (.error e) t → R s (.error e) t)
    (hboth : ∀ s u t a result, P s (.ok a) u → Q a u result t → R s result t) :
    Relates (x >>= f) R := by
  intro s
  have hP := hx s
  rcases hrun : x s with ⟨e | a, u⟩
  · rw [hrun] at hP
    rw [bind_error f hrun]
    exact hraised s u e hP
  · rw [hrun] at hP
    rw [bind_ok f hrun]
    exact hboth s u _ a _ hP (hf a u)

/-- A computation that does not touch the state, and then a script on its result. -/
theorem relates_after_lift {answer : Except ε α} {f : α → Script ε σ β}
    {R : σ → Except ε β → σ → Prop} (hraised : ∀ s e, R s (.error e) s)
    (hf : ∀ a, answer = .ok a → Relates (f a) R) : Relates (lift answer >>= f) R := by
  intro s
  cases answer with
  | error e => exact hraised s e
  | ok a => exact hf a rfl s

/-- The `finally` block runs in the state that the body leaves. -/
theorem relates_finally {last : Script ε σ Unit} {Q : σ → Except ε Unit → σ → Prop}
    {R : σ → Except ε α → σ → Prop} (hx : Relates x P) (hlast : Relates last Q)
    (h : ∀ s u t result outcome, P s result u → Q u outcome t →
      R s (finallyResult result outcome) t) : Relates (x.andFinally last) R :=
  fun s => h s _ _ _ _ (hx s) (hlast _)

end Relation

section Log

variable {x : Script ε (List ω) α} {P : List ω → Except ε α → Prop}

/-- Whatever is in the log, the script only adds to it, and `P` holds of what it adds
together with its result. -/
def Logs (x : Script ε (List ω) α) (P : List ω → Except ε α → Prop) : Prop :=
  ∀ past, ∃ added, (x past).2 = past++added ∧ P added (x past).1

theorem Logs.mono {Q : List ω → Except ε α → Prop} (hx : Logs x P)
    (h : ∀ added result, P added result → Q added result) : Logs x Q := by
  intro past
  obtain ⟨added, hadded, hP⟩ := hx past
  exact ⟨added, hadded, h _ _ hP⟩

theorem logs_silent (answer : List ω → Except ε α) (h : ∀ past, P [] (answer past)) :
    Logs (ask answer) P := by
  intro past
  exact ⟨[], (List.append_nil past).symm, h past⟩

theorem logs_pure {a : α} (h : P [] (.ok a)) : Logs (pure a) P := by
  intro past
  exact ⟨[], (List.append_nil past).symm, h⟩

theorem logs_raise {e : ε} (h : P [] (.error e)) : Logs (raise e) P := by
  intro past
  exact ⟨[], (List.append_nil past).symm, h⟩

/-- A script after another: either the first one raised, or the second one ran. -/
theorem logs_bind {f : α → Script ε (List ω) β} {Q : α → List ω → Except ε β → Prop}
    {R : List ω → Except ε β → Prop} (hx : Logs x P) (hf : ∀ a, Logs (f a) (Q a))
    (hraised : ∀ added e, P added (.error e) → R added (.error e))
    (hboth : ∀ added more a result, P added (.ok a) → Q a more result → R (added++more) result) :
    Logs (x >>= f) R := by
  intro past
  obtain ⟨added, hadded, hP⟩ := hx past
  rcases hrun : x past with ⟨e | a, t⟩
  · rw [hrun] at hadded hP
    rw [bind_error f hrun]
    exact ⟨added, hadded, hraised added e hP⟩
  · rw [hrun] at hadded hP
    obtain rfl : t = past++added := hadded
    obtain ⟨more, hmore, hQ⟩ := hf a (past++added)
    rw [bind_ok f hrun]
    exact ⟨added++more, by rw [hmore, List.append_assoc], hboth added more a _ hP hQ⟩

/-- One entry in the log, and then the rest. -/
theorem logs_entry {entry : ω} {f : Unit → Script ε (List ω) β} {Q R : List ω → Except ε β → Prop}
    (hf : Logs (f ()) Q) (h : ∀ more result, Q more result → R (entry :: more) result) :
    Logs (modify (fun past => past++[entry]) >>= f) R := by
  intro past
  obtain ⟨more, hmore, hQ⟩ := hf (past++[entry])
  rw [bind_ok f (modify_run _ _)]
  exact ⟨entry :: more, by rw [hmore, List.append_assoc]; rfl, h more _ hQ⟩

/-- What the `finally` block adds comes last, whether the body raised or not. -/
theorem logs_finally {last : Script ε (List ω) Unit} {Q : List ω → Except ε Unit → Prop}
    {R : List ω → Except ε α → Prop} (hx : Logs x P) (hlast : Logs last Q)
    (h : ∀ added more result outcome, P added result → Q more outcome →
      R (added++more) (finallyResult result outcome)) : Logs (x.andFinally last) R := by
  intro past
  obtain ⟨added, hadded, hP⟩ := hx past
  obtain ⟨more, hmore, hQ⟩ := hlast (x past).2
  refine ⟨added++more, ?_, h added more _ _ hP hQ⟩
  calc (x.andFinally last past).2 = (last (x past).2).2 := rfl
    _ = (x past).2++more := hmore
    _ = past++(added++more) := by rw [hadded, List.append_assoc]

end Log

end Script

end ConferWorker
