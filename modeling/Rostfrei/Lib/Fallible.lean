import Mathlib

/-!
# Fallible computations, with and without a state

Inversion rules for `Except` and for `EStateM`, so that a run of a `do` block is taken apart
statement by statement. An `EStateM` run keeps its state when it fails: "a failed call leaves the
state unchanged" has to be proved, it is not built in.

* `rejectIf bad e`: the guard `if bad { return Err(e) }`.
* `okOr e`: the value of an `Option`, or the error `e`.
* an `Except` computation lifts to `EStateM` as one that does not touch the state.
-/

namespace Lib

variable {ε α β σ : Type}

/-! ## Without a state -/

/-- Fails with `e` if `bad` holds. -/
def rejectIf (bad : Prop) [Decidable bad] (e : ε) : Except ε Unit :=
  if bad then .error e else .ok ()

/-- The value, or the error `e` (`Option::ok_or`). -/
def okOr (e : ε) : Option α → Except ε α
  | some a => .ok a
  | none => .error e

@[simp] theorem rejectIf_eq_ok {bad : Prop} [Decidable bad] {e : ε} {u : Unit} :
    rejectIf bad e = .ok u ↔ ¬ bad := by
  unfold rejectIf; split <;> simp_all

@[simp] theorem rejectIf_eq_error {bad : Prop} [Decidable bad] {e e' : ε} :
    rejectIf bad e = .error e' ↔ bad ∧ e = e' := by
  unfold rejectIf; split <;> simp_all

theorem rejectIf_of_not {bad : Prop} [Decidable bad] (h : ¬ bad) (e : ε) :
    rejectIf bad e = .ok () := rejectIf_eq_ok.mpr h

@[simp] theorem ok_bind (a : α) (f : α → Except ε β) : (Except.ok a >>= f) = f a := rfl

@[simp] theorem map_ok (f : α → β) (a : α) : f <$> (Except.ok a : Except ε α) = .ok (f a) := rfl

@[simp] theorem okOr_some (e : ε) (a : α) : okOr e (some a) = .ok a := rfl

@[simp] theorem okOr_eq_ok {e : ε} {o : Option α} {a : α} : okOr e o = .ok a ↔ o = some a := by
  cases o <;> simp [okOr]

theorem exists_of_isOk {r : Except ε α} (h : r.isOk = true) : ∃ a, r = .ok a := by
  cases r with
  | ok a => exact ⟨a, rfl⟩
  | error e => cases h

theorem exists_of_not_isOk {r : Except ε α} (h : r.isOk = false) : ∃ e, r = .error e := by
  cases r with
  | ok a => cases h
  | error e => exact ⟨e, rfl⟩

theorem bind_eq_ok {x : Except ε α} {f : α → Except ε β} {b : β} :
    (x >>= f) = .ok b ↔ ∃ a, x = .ok a ∧ f a = .ok b := by
  cases x <;> simp [bind, Except.bind]

/-- A statement without a result. -/
theorem bind_unit_eq_ok {x : Except ε Unit} {f : Unit → Except ε β} {b : β} :
    (x >>= f) = .ok b ↔ x = .ok () ∧ f () = .ok b := by
  rw [bind_eq_ok]
  exact ⟨fun ⟨(), h⟩ => h, fun h => ⟨(), h⟩⟩

theorem map_eq_ok {x : Except ε α} {f : α → β} {b : β} :
    f <$> x = .ok b ↔ ∃ a, x = .ok a ∧ f a = b := by
  cases x <;> simp [Functor.map, Except.map]

/-- Mapping the error does not touch a success. -/
@[simp] theorem mapError_eq_ok {ε' : Type} {f : ε → ε'} {x : Except ε α} {a : α} :
    x.mapError f = .ok a ↔ x = .ok a := by
  rcases x with e | b <;> simp [Except.mapError]

@[simp] theorem pure_eq_ok {a b : α} : (pure a : Except ε α) = .ok b ↔ a = b := by
  simp [pure, Except.pure]

@[simp] theorem throw_eq_ok {e : ε} {b : α} : (throw e : Except ε α) = .ok b ↔ False := by
  simp [throw, throwThe, MonadExceptOf.throw]

/-- A loop of checks passes if every check does. -/
theorem forM_eq_ok {l : List α} {f : α → Except ε Unit} {u : Unit} :
    forM l f = .ok u ↔ ∀ a ∈ l, f a = .ok () := by
  induction l with
  | nil => simp [pure, Except.pure]
  | cons a l ih =>
    rw [List.forM_cons, bind_eq_ok, List.forall_mem_cons, ← ih]
    exact ⟨fun ⟨(), h⟩ => h, fun h => ⟨(), h⟩⟩

/-- A loop that collects results: the results, item by item. -/
theorem mapM_eq_ok {l : List α} {f : α → Except ε β} {bs : List β} :
    l.mapM f = .ok bs ↔ List.Forall₂ (fun a b => f a = .ok b) l bs := by
  induction l generalizing bs with
  | nil => simp [pure, Except.pure, eq_comm]
  | cons a l ih =>
    simp only [List.mapM_cons, bind_eq_ok, ih, pure_eq_ok]
    constructor
    · rintro ⟨b, hb, bs', hbs, rfl⟩
      exact .cons hb hbs
    · rintro (_ | ⟨hb, hbs⟩)
      exact ⟨_, hb, _, hbs, rfl⟩

/-- A loop that can fail goes through, if each turn does after the items before it, and then what
each turn keeps holds at the end. -/
theorem foldlM_ok {I : List α → β → Prop} {f : β → α → Except ε β} {l : List α} {b : β}
    (hstart : I [] b)
    (hstep : ∀ before a b, before ++ [a] <+: l → I before b → ∃ b', f b a = .ok b' ∧
      I (before ++ [a]) b') : ∃ b', l.foldlM f b = .ok b' ∧ I l b' := by
  suffices hfrom : ∀ before rest b, before ++ rest = l → I before b →
      ∃ b', rest.foldlM f b = .ok b' ∧ I l b' from hfrom [] l b rfl hstart
  intro before rest b hl h
  induction rest generalizing before b with
  | nil =>
    rw [List.append_nil] at hl
    exact ⟨b, rfl, hl ▸ h⟩
  | cons a rest ih =>
    have hl' : (before ++ [a]) ++ rest = l := by rw [← hl, List.append_assoc, List.singleton_append]
    obtain ⟨b', hb', h'⟩ := hstep before a b ⟨rest, hl'⟩ h
    rw [List.foldlM_cons, hb']
    exact ih (before ++ [a]) b' hl' h'

/-- What each turn of a loop keeps holds at its end. -/
theorem of_foldlM_eq_ok {I : List α → β → Prop} {f : β → α → Except ε β} {l : List α} {b b' : β}
    (h : l.foldlM f b = .ok b') (hstart : I [] b)
    (hstep : ∀ before a b b', before ++ [a] <+: l → I before b → f b a = .ok b' →
      I (before ++ [a]) b') : I l b' := by
  suffices hfrom : ∀ before rest b, before ++ rest = l → I before b →
      rest.foldlM f b = .ok b' → I l b' from hfrom [] l b rfl hstart h
  intro before rest b hl hI h
  induction rest generalizing before b with
  | nil =>
    obtain rfl := Except.ok.inj h
    rw [List.append_nil] at hl
    exact hl ▸ hI
  | cons a rest ih =>
    have hl' : (before ++ [a]) ++ rest = l := by rw [← hl, List.append_assoc, List.singleton_append]
    rw [List.foldlM_cons] at h
    obtain ⟨b₁, hb₁, hrest⟩ := bind_eq_ok.mp h
    exact ih (before ++ [a]) b₁ hl' (hstep before a b b₁ ⟨rest, hl'⟩ hI hb₁) hrest

/-! ## With a state -/

instance liftExcept : MonadLift (Except ε) (EStateM ε σ) where
  monadLift x := fun s =>
    match x with
    | .ok a => .ok a s
    | .error e => .error e s

section State

variable {s s' : σ} {a b : α} {e e' : ε}

theorem run_lift_ok_bind {f : α → EStateM ε σ β} :
    ((liftM (.ok a : Except ε α) : EStateM ε σ α) >>= f) s = f a s := rfl

theorem run_get_bind {f : σ → EStateM ε σ β} : (get >>= f) s = f s s := rfl

theorem run_bind_ok {x : EStateM ε σ α} {f : α → EStateM ε σ β} {b : β} :
    (x >>= f) s = .ok b s' ↔ ∃ a s₁, x s = .ok a s₁ ∧ f a s₁ = .ok b s' := by
  simp only [bind, EStateM.bind]
  cases x s <;> simp

theorem run_bind_error {x : EStateM ε σ α} {f : α → EStateM ε σ β} :
    (x >>= f) s = .error e s' ↔
      x s = .error e s' ∨ ∃ a s₁, x s = .ok a s₁ ∧ f a s₁ = .error e s' := by
  simp only [bind, EStateM.bind]
  cases x s <;> simp

@[simp] theorem run_pure_ok : (pure a : EStateM ε σ α) s = .ok b s' ↔ a = b ∧ s = s' := by
  simp [pure, EStateM.pure]

@[simp] theorem run_pure_error : (pure a : EStateM ε σ α) s = .error e s' ↔ False := by
  simp [pure, EStateM.pure]

@[simp] theorem run_throw_ok : (throw e : EStateM ε σ α) s = .ok b s' ↔ False := by
  simp [throw, throwThe, MonadExceptOf.throw, EStateM.throw]

@[simp] theorem run_throw_error :
    (throw e : EStateM ε σ α) s = .error e' s' ↔ e = e' ∧ s = s' := by
  simp [throw, throwThe, MonadExceptOf.throw, EStateM.throw]

@[simp] theorem run_get_ok {t : σ} : (get : EStateM ε σ σ) s = .ok t s' ↔ s = t ∧ s = s' := by
  simp [get, getThe, MonadStateOf.get, EStateM.get]

@[simp] theorem run_get_error : (get : EStateM ε σ σ) s = .error e s' ↔ False := by
  simp [get, getThe, MonadStateOf.get, EStateM.get]

@[simp] theorem run_modify_ok {f : σ → σ} {u : Unit} :
    (modify f : EStateM ε σ Unit) s = .ok u s' ↔ f s = s' := by
  simp [modify, modifyGet, MonadStateOf.modifyGet, EStateM.modifyGet]

@[simp] theorem run_modify_error {f : σ → σ} :
    (modify f : EStateM ε σ Unit) s = .error e s' ↔ False := by
  simp [modify, modifyGet, MonadStateOf.modifyGet, EStateM.modifyGet]

@[simp] theorem run_lift_ok {x : Except ε α} :
    (liftM x : EStateM ε σ α) s = .ok a s' ↔ x = .ok a ∧ s = s' := by
  cases x <;> simp [liftM, monadLift, MonadLift.monadLift]

@[simp] theorem run_lift_error {x : Except ε α} :
    (liftM x : EStateM ε σ α) s = .error e s' ↔ x = .error e ∧ s = s' := by
  cases x <;> simp [liftM, monadLift, MonadLift.monadLift]

/-- The state after a run, whether it succeeded or failed. -/
def finalState : EStateM.Result ε σ α → σ
  | .ok _ s => s
  | .error _ s => s

@[simp] theorem finalState_ok : finalState (.ok a s : EStateM.Result ε σ α) = s := rfl

@[simp] theorem finalState_error : finalState (.error e s : EStateM.Result ε σ α) = s := rfl

/-- A computation that never changes the state. -/
def ReadOnly (x : EStateM ε σ α) : Prop := ∀ s, finalState (x s) = s

theorem ReadOnly.pure (a : α) : ReadOnly (Pure.pure a : EStateM ε σ α) := fun _ => rfl

theorem ReadOnly.throw (e : ε) : ReadOnly (MonadExcept.throw e : EStateM ε σ α) := fun _ => rfl

theorem ReadOnly.get : ReadOnly (MonadState.get : EStateM ε σ σ) := fun _ => rfl

theorem ReadOnly.lift (x : Except ε α) : ReadOnly (liftM x : EStateM ε σ α) := by
  intro s
  cases x <;> rfl

theorem ReadOnly.bind {x : EStateM ε σ α} {f : α → EStateM ε σ β} (hx : ReadOnly x)
    (hf : ∀ a, ReadOnly (f a)) : ReadOnly (x >>= f) := by
  intro s
  have h := hx s
  simp only [Bind.bind, EStateM.bind]
  cases hr : x s with
  | ok a s₁ =>
    rw [hr] at h
    obtain rfl : s₁ = s := h
    exact hf a s₁
  | error e s₁ =>
    rw [hr] at h
    exact h

/-- What follows a computation without changing the state keeps the state it left. -/
theorem finalState_bind_readOnly {x : EStateM ε σ α} {f : α → EStateM ε σ β}
    (hf : ∀ a, ReadOnly (f a)) (s : σ) : finalState ((x >>= f) s) = finalState (x s) := by
  simp only [Bind.bind, EStateM.bind]
  cases x s with
  | ok a s₁ => exact hf a s₁
  | error e s₁ => rfl

/-- A check that does not change the state and then fails, or passes to the rest. -/
theorem finalState_lift_bind {x : Except ε α} {f : α → EStateM ε σ β} (s : σ) :
    finalState (((liftM x : EStateM ε σ α) >>= f) s) =
      match x with
      | .ok a => finalState (f a s)
      | .error _ => s := by
  cases x <;> rfl

/-- A loop of updates folds them over the state, and does not fail. -/
theorem run_forM_modify (l : List α) (f : α → σ → σ) (s : σ) :
    (forM l fun a => (modify (f a) : EStateM ε σ Unit)) s =
      .ok () (l.foldl (fun s a => f a s) s) := by
  induction l generalizing s with
  | nil => rfl
  | cons a l ih =>
    rw [List.forM_cons]
    exact run_bind_ok.mpr ⟨(), f a s, by simp, ih (f a s)⟩

end State

end Lib
