import Mathlib.Tactic

/-! Rules for straight-line code that may raise: a computation is an `Except`,
a statement `if c: raise e` is `raiseIf c e`, and a normal return is taken
apart bind by bind without unfolding the code that produced it. -/
namespace ConferWorker

variable {ε α β : Type}

/-- `if condition: raise error`. -/
def raiseIf (condition : Prop) [Decidable condition] (error : ε) : Except ε Unit :=
  if condition then .error error else .ok ()

@[simp] theorem raiseIf_eq_ok (condition : Prop) [Decidable condition] (error : ε) (u : Unit) :
    raiseIf condition error = .ok u ↔ ¬condition := by
  unfold raiseIf
  split_ifs with h <;> simp [h]

theorem raiseIf_of_not {condition : Prop} [Decidable condition] (error : ε) (h : ¬condition) :
    raiseIf condition error = .ok () :=
  if_neg h

@[simp] theorem bind_eq_ok (x : Except ε α) (f : α → Except ε β) (b : β) :
    (x >>= f) = .ok b ↔ ∃ a, x = .ok a ∧ f a = .ok b := by
  cases x with
  | error e => simp [bind, Except.bind]
  | ok a => simp [bind, Except.bind]

@[simp] theorem bind_eq_error (x : Except ε α) (f : α → Except ε β) (e : ε) :
    (x >>= f) = .error e ↔ x = .error e ∨ ∃ a, x = .ok a ∧ f a = .error e := by
  cases x with
  | error e' => simp [bind, Except.bind]
  | ok a => simp [bind, Except.bind]

theorem ok_bind (a : α) (f : α → Except ε β) : (Except.ok a >>= f) = f a := rfl

@[simp] theorem map_eq_ok (x : Except ε α) (f : α → β) (b : β) :
    f <$> x = .ok b ↔ ∃ a, x = .ok a ∧ f a = b := by
  cases x with
  | error e => simp [Functor.map, Except.map]
  | ok a => simp [Functor.map, Except.map]

@[simp] theorem pure_eq_ok (a b : α) : (pure a : Except ε α) = .ok b ↔ a = b := by
  simp [pure, Except.pure]

theorem mapError_eq_ok {δ : Type} (f : ε → δ) (x : Except ε α) (a : α) :
    x.mapError f = .ok a ↔ x = .ok a := by
  cases x with
  | error e => simp only [Except.mapError, reduceCtorEq]
  | ok b => rw [Except.mapError, Except.ok.injEq, Except.ok.injEq]

/-- Every error of a computation satisfies `P`. -/
def RaisesOnly (P : ε → Prop) (x : Except ε α) : Prop := ∀ e, x = .error e → P e

section RaisesOnly

variable {P Q : ε → Prop} {x : Except ε α}

theorem raisesOnly_ok (a : α) : RaisesOnly P (.ok a) := fun e h => by cases h

theorem raisesOnly_error {e : ε} (h : P e) : RaisesOnly P (.error e : Except ε α) := by
  intro e' he
  cases he
  exact h

theorem raisesOnly_raiseIf (condition : Prop) [Decidable condition] {error : ε} (h : P error) :
    RaisesOnly P (raiseIf condition error) := by
  unfold raiseIf
  split_ifs
  · exact raisesOnly_error h
  · exact raisesOnly_ok ()

theorem raisesOnly_bind {f : α → Except ε β} (hx : RaisesOnly P x)
    (hf : ∀ a, x = .ok a → RaisesOnly P (f a)) : RaisesOnly P (x >>= f) := by
  intro e h
  rcases (bind_eq_error x f e).mp h with h | ⟨a, ha, h⟩
  · exact hx e h
  · exact hf a ha e h

theorem raisesOnly_map (f : α → β) (hx : RaisesOnly P x) : RaisesOnly P (f <$> x) := by
  intro e h
  cases x with
  | error e' =>
    cases h
    exact hx _ rfl
  | ok a => cases h

theorem RaisesOnly.mono (hx : RaisesOnly P x) (hPQ : ∀ e, P e → Q e) : RaisesOnly Q x :=
  fun e h => hPQ e (hx e h)

theorem raisesOnly_mapM (f : α → Except ε β) (xs : List α) (hf : ∀ a, RaisesOnly P (f a)) :
    RaisesOnly P (xs.mapM f) := by
  induction xs with
  | nil => exact raisesOnly_ok []
  | cons a xs ih =>
    rw [List.mapM_cons]
    apply raisesOnly_bind (hf a)
    intro b _
    exact raisesOnly_bind ih (fun bs _ => raisesOnly_ok (b :: bs))

theorem raisesOnly_foldlM (f : β → α → Except ε β) (xs : List α) (b : β)
    (hf : ∀ b a, RaisesOnly P (f b a)) : RaisesOnly P (xs.foldlM f b) := by
  induction xs generalizing b with
  | nil => exact raisesOnly_ok b
  | cons a xs ih =>
    rw [List.foldlM_cons]
    exact raisesOnly_bind (hf b a) (fun next _ => ih next)

end RaisesOnly

/-- A loop whose rounds return `g x` exactly when `P x` returns the list of
these values exactly when every element satisfies `P`. -/
theorem mapM_eq_ok_iff (f : α → Except ε β) (P : α → Prop) (g : α → β) (xs : List α)
    (ys : List β) (hf : ∀ x ∈ xs, ∀ y, f x = .ok y ↔ P x ∧ g x = y) :
    xs.mapM f = .ok ys ↔ (∀ x ∈ xs, P x) ∧ xs.map g = ys := by
  induction xs generalizing ys with
  | nil => simp
  | cons x xs ih =>
    have htail (zs : List β) := ih zs (fun z hz => hf z (List.mem_cons_of_mem x hz))
    simp only [List.mapM_cons, bind_eq_ok, pure_eq_ok, hf x List.mem_cons_self, htail]
    constructor
    · rintro ⟨_, ⟨hx, rfl⟩, _, ⟨hxs, rfl⟩, rfl⟩
      exact ⟨List.forall_mem_cons.mpr ⟨hx, hxs⟩, rfl⟩
    · rintro ⟨hall, rfl⟩
      obtain ⟨hx, hxs⟩ := List.forall_mem_cons.mp hall
      exact ⟨_, ⟨hx, rfl⟩, _, ⟨hxs, rfl⟩, rfl⟩

/-- A loop none of whose rounds raises returns the list of its results. -/
theorem mapM_eq_ok_map (f : α → Except ε β) (g : α → β) (xs : List α)
    (hf : ∀ x ∈ xs, f x = .ok (g x)) : xs.mapM f = .ok (xs.map g) := by
  rw [mapM_eq_ok_iff f (fun _ => True) g xs _ (fun x hx y => by rw [hf x hx]; simp)]
  simp

/-- Every result comes from one of the elements. -/
theorem mapM_mem {f : α → Except ε β} {xs : List α} {ys : List β} (h : xs.mapM f = .ok ys) :
    ∀ y ∈ ys, ∃ x ∈ xs, f x = .ok y := by
  induction xs generalizing ys with
  | nil =>
    obtain rfl : [] = ys := by simpa only [List.mapM_nil, pure_eq_ok] using h
    exact List.forall_mem_nil _
  | cons x xs ih =>
    simp only [List.mapM_cons, bind_eq_ok, pure_eq_ok] at h
    obtain ⟨y, hy, rest, hrest, rfl⟩ := h
    refine List.forall_mem_cons.mpr ⟨⟨x, List.mem_cons_self, hy⟩, fun z hz => ?_⟩
    obtain ⟨w, hw, hfw⟩ := ih hrest z hz
    exact ⟨w, List.mem_cons_of_mem x hw, hfw⟩

/-- Every element has a result. -/
theorem mapM_all_ok {f : α → Except ε β} {xs : List α} {ys : List β} (h : xs.mapM f = .ok ys) :
    ∀ x ∈ xs, ∃ y, f x = .ok y := by
  induction xs generalizing ys with
  | nil => exact List.forall_mem_nil _
  | cons x xs ih =>
    simp only [List.mapM_cons, bind_eq_ok, pure_eq_ok] at h
    obtain ⟨y, hy, rest, hrest, rfl⟩ := h
    exact List.forall_mem_cons.mpr ⟨⟨y, hy⟩, ih hrest⟩

/-- Every element has its result among those of the loop. -/
theorem mapM_covers {f : α → Except ε β} {xs : List α} {ys : List β} (h : xs.mapM f = .ok ys) :
    ∀ x ∈ xs, ∃ y ∈ ys, f x = .ok y := by
  induction xs generalizing ys with
  | nil => exact List.forall_mem_nil _
  | cons x xs ih =>
    simp only [List.mapM_cons, bind_eq_ok, pure_eq_ok] at h
    obtain ⟨y, hy, rest, hrest, rfl⟩ := h
    refine List.forall_mem_cons.mpr ⟨⟨y, List.mem_cons_self, hy⟩, fun z hz => ?_⟩
    obtain ⟨w, hw, hfw⟩ := ih hrest z hz
    exact ⟨w, List.mem_cons_of_mem y hw, hfw⟩

/-- What every round keeps, the loop keeps. -/
theorem mapM_map_eq {γ : Type} {f : α → Except ε β} {g : β → γ} {h : α → γ} {xs : List α}
    {ys : List β} (hf : ∀ x ∈ xs, ∀ y, f x = .ok y → g y = h x) (hok : xs.mapM f = .ok ys) :
    ys.map g = xs.map h := by
  induction xs generalizing ys with
  | nil =>
    obtain rfl : [] = ys := by simpa only [List.mapM_nil, pure_eq_ok] using hok
    rfl
  | cons x xs ih =>
    obtain ⟨hx, hxs⟩ := List.forall_mem_cons.mp hf
    simp only [List.mapM_cons, bind_eq_ok, pure_eq_ok] at hok
    obtain ⟨y, hy, rest, hrest, rfl⟩ := hok
    rw [List.map_cons, List.map_cons, hx y hy, ih hxs hrest]

/-- A loop none of whose rounds raises does not raise. -/
theorem mapM_returns (f : α → Except ε β) (xs : List α) (hf : ∀ x ∈ xs, ∃ y, f x = .ok y) :
    ∃ ys, xs.mapM f = .ok ys := by
  induction xs with
  | nil => exact ⟨[], rfl⟩
  | cons x xs ih =>
    obtain ⟨y, hy⟩ := hf x List.mem_cons_self
    obtain ⟨ys, hys⟩ := ih (fun z hz => hf z (List.mem_cons_of_mem x hz))
    refine ⟨y :: ys, ?_⟩
    rw [List.mapM_cons, hy, ok_bind, hys, ok_bind]
    rfl

end ConferWorker
