import Mathlib.Logic.Relation
import Mathlib.Tactic.Common

/-!
# Programs that call a shared service, and pools of them

A `Program` is code that calls operations and goes on with their answers; between two calls other
programs may run. What a call does to the shared state is a relation, so a service may fail, lose
an answer, or choose among several.

* **Protocols** (`Protocol`). A service with an invariant of its state and a relation `rely` that
  every step keeps.
* **Safety** (`Safe`). A program is safe at a state if, after any steps of others within `rely`,
  each of its calls keeps the invariant and `rely`, and its calls and its result satisfy `Q`. The
  rules follow the program (`Safe.bind`, `Safe.perform`); `SafeE` is the same for programs that can
  fail.
* **Pools** (`Pool`). Any number of programs that call the service in any order, with programs that
  start and an environment that acts. If every program that starts is safe, the invariant holds in
  every reachable state, and so does `Q` of every result (`Pool.Reachable.sound`).
* **Guarantees** (`Guarantees`). Safety with a property of each call of the program.
* **Embeddings** (`Embeds`). A program of a service that is part of a larger one is as safe there.
* **Runs** (`Runs`). The states before and after each call of one program, up to its result; every
  program of a pool that is done has such a run (`Pool.Reachable.runs`).
-/

namespace Lib

universe u v w

/-- Code that calls operations and goes on with their answers. -/
inductive Program (Op : Type u) (Res : Op → Type v) (α : Type v) : Type (max u v) where
  | done (a : α)
  | call (op : Op) (next : Res op → Program Op Res α)

namespace Program

variable {Op : Type u} {Res : Op → Type v} {α β ε ε' : Type v} {σ : Type w}

def bind (p : Program Op Res α) (f : α → Program Op Res β) : Program Op Res β :=
  match p with
  | done a => f a
  | call op next => call op fun r => (next r).bind f

instance : Monad (Program Op Res) where
  pure := done
  bind := bind

/-- One call, and its answer. -/
def perform (op : Op) : Program Op Res (Res op) := call op done

@[simp] theorem pure_def (a : α) : (pure a : Program Op Res α) = done a := rfl

@[simp] theorem done_bind (a : α) (f : α → Program Op Res β) : done a >>= f = f a := rfl

@[simp] theorem call_bind (op : Op) (next : Res op → Program Op Res α)
    (f : α → Program Op Res β) : call op next >>= f = call op fun r => next r >>= f := rfl

end Program

/-- A service with what its users keep. -/
structure Protocol (Op : Type u) (Res : Op → Type v) (σ : Type w) where
  /-- What a call can do: the state before, the operation, its answer and the state after. -/
  exec : σ → (op : Op) → Res op → σ → Prop
  inv : σ → Prop
  /-- How the state may change between any two moments. -/
  rely : σ → σ → Prop
  rely_refl : ∀ s, rely s s
  rely_trans : ∀ {s₁ s₂ s₃}, rely s₁ s₂ → rely s₂ s₃ → rely s₁ s₃

namespace Program

variable {Op : Type u} {Res : Op → Type v} {α β ε ε' : Type v} {σ : Type w}
  {P : Protocol Op Res σ} {s s' : σ}

/-! ## Safety under interference -/

/-- The states before and after each call of a program, in order. -/
abbrev Calls (σ : Type w) := List (σ × σ)

/-- No call changed the state. -/
def Unchanged (calls : Calls σ) : Prop := ∀ c ∈ calls, c.2 = c.1

@[simp] theorem Unchanged.nil : Unchanged ([] : Calls σ) := by simp [Unchanged]

theorem Unchanged.append {first rest : Calls σ} (h : Unchanged first) (h' : Unchanged rest) :
    Unchanged (first ++ rest) := by
  intro c hc
  rcases List.mem_append.mp hc with hc | hc
  · exact h c hc
  · exact h' c hc

/-- Safe at a state: under steps of others, every call keeps the protocol, and the calls made from
here on with the result satisfy `Q` whenever they are looked at. -/
def Safe (P : Protocol Op Res σ) (Q : Calls σ → α → σ → Prop) : Program Op Res α → σ → Prop
  | done a, s => ∀ s', P.rely s s' → P.inv s' → Q [] a s'
  | call op next, s => ∀ s₁, P.rely s s₁ → P.inv s₁ → ∀ r s₂, P.exec s₁ op r s₂ →
      P.inv s₂ ∧ P.rely s₁ s₂ ∧ Safe P (fun calls => Q ((s₁, s₂) :: calls)) (next r) s₂

/-- The result still satisfies `Q` at every later state. -/
def Lasting (P : Protocol Op Res σ) (Q : σ → Prop) (s : σ) : Prop :=
  ∀ s', P.rely s s' → P.inv s' → Q s'

theorem Lasting.here {Q : σ → Prop} (h : Lasting P Q s) (hI : P.inv s) : Q s :=
  h s (P.rely_refl s) hI

theorem Lasting.later {Q : σ → Prop} (h : Lasting P Q s) (hR : P.rely s s') : Lasting P Q s' :=
  fun s₁ h₁ hI => h s₁ (P.rely_trans hR h₁) hI

theorem Safe.mono {Q Q' : Calls σ → α → σ → Prop} {p : Program Op Res α} (h : Safe P Q p s)
    (hQ : ∀ calls a s, P.inv s → Lasting P (Q calls a) s → Q' calls a s) : Safe P Q' p s := by
  induction p generalizing s Q Q' with
  | done a => exact fun s' hR hI => hQ [] a s' hI (Lasting.later h hR)
  | call op next ih =>
    intro s₁ hR hI r s₂ he
    obtain ⟨hI₂, hR₂, hnext⟩ := h s₁ hR hI r s₂ he
    exact ⟨hI₂, hR₂, ih r hnext fun calls => hQ ((s₁, s₂) :: calls)⟩

/-- Steps of others do not spoil safety. -/
theorem Safe.stable {Q : Calls σ → α → σ → Prop} {p : Program Op Res α} (h : Safe P Q p s)
    (hR : P.rely s s') : Safe P Q p s' := by
  cases p with
  | done a => exact fun s₁ h₁ hI => h s₁ (P.rely_trans hR h₁) hI
  | call op next => exact fun s₁ h₁ hI r s₂ he => h s₁ (P.rely_trans hR h₁) hI r s₂ he

/-- Safety may be shown at the later states where the invariant holds. -/
theorem Safe.of_later {Q : Calls σ → α → σ → Prop} {p : Program Op Res α}
    (h : ∀ s', P.rely s s' → P.inv s' → Safe P Q p s') : Safe P Q p s := by
  cases p with
  | done a => exact fun s₁ h₁ hI => h s₁ h₁ hI s₁ (P.rely_refl s₁) hI
  | call op next => exact fun s₁ h₁ hI r s₂ he => h s₁ h₁ hI s₁ (P.rely_refl s₁) hI r s₂ he

/-- The state before a program stays in its past. -/
theorem Safe.remember {Q : Calls σ → α → σ → Prop} {p : Program Op Res α} (h : Safe P Q p s) :
    Safe P (fun calls a s' => P.rely s s' ∧ Q calls a s') p s := by
  suffices hpast : ∀ {s₁}, P.rely s s₁ → Safe P Q p s₁ →
      Safe P (fun calls a s' => P.rely s s' ∧ Q calls a s') p s₁ from hpast (P.rely_refl s) h
  clear h
  intro s₁ h₁ hsafe
  induction p generalizing s₁ Q with
  | done a => exact fun s₂ h₂ hI => ⟨P.rely_trans h₁ h₂, hsafe s₂ h₂ hI⟩
  | call op next ih =>
    intro s₂ h₂ hI r s₃ he
    obtain ⟨hI₃, h₃, hnext⟩ := hsafe s₂ h₂ hI r s₃ he
    exact ⟨hI₃, h₃, ih r (P.rely_trans h₁ (P.rely_trans h₂ h₃)) hnext⟩

/-- Two postconditions of one program hold together. -/
theorem Safe.and {Q Q' : Calls σ → α → σ → Prop} {p : Program Op Res α} (h : Safe P Q p s)
    (h' : Safe P Q' p s) : Safe P (fun calls a s => Q calls a s ∧ Q' calls a s) p s := by
  induction p generalizing s Q Q' with
  | done a => exact fun s' hR hI => ⟨h s' hR hI, h' s' hR hI⟩
  | call op next ih =>
    intro s₁ hR hI r s₂ he
    obtain ⟨hI₂, hR₂, hnext⟩ := h s₁ hR hI r s₂ he
    exact ⟨hI₂, hR₂, ih r hnext (h' s₁ hR hI r s₂ he).2.2⟩

theorem Safe.bind {Q : Calls σ → β → σ → Prop} {p : Program Op Res α}
    {f : α → Program Op Res β}
    (h : Safe P (fun calls a s => Safe P (fun rest => Q (calls ++ rest)) (f a) s) p s) :
    Safe P Q (p >>= f) s := by
  induction p generalizing s Q with
  | done a => exact .of_later h
  | call op next ih =>
    intro s₁ hR hI r s₂ he
    obtain ⟨hI₂, hR₂, hnext⟩ := h s₁ hR hI r s₂ he
    exact ⟨hI₂, hR₂, ih r hnext⟩

theorem Safe.pure {Q : Calls σ → α → σ → Prop} {a : α} (h : Lasting P (Q [] a) s) :
    Safe P Q (Pure.pure a) s := h

theorem Safe.perform (op : Op) {Q : Calls σ → Res op → σ → Prop}
    (h : ∀ s₁, P.rely s s₁ → P.inv s₁ → ∀ r s₂, P.exec s₁ op r s₂ →
      P.inv s₂ ∧ P.rely s₁ s₂ ∧ Lasting P (Q [(s₁, s₂)] r) s₂) :
    Safe P Q (perform op) s := h

/-! ## Programs that can fail -/

/-- Safety of a program that can fail. -/
def SafeE (P : Protocol Op Res σ) (Q : Calls σ → α → σ → Prop) (E : Calls σ → ε → σ → Prop)
    (p : ExceptT ε (Program Op Res) α) (s : σ) : Prop :=
  Safe P (fun calls r s => match r with
    | .ok a => Q calls a s
    | .error e => E calls e s) p.run s

section SafeE

variable {Q Q' : Calls σ → α → σ → Prop} {E E' : Calls σ → ε → σ → Prop}
  {p : ExceptT ε (Program Op Res) α}

theorem SafeE.of_later (h : ∀ s', P.rely s s' → P.inv s' → SafeE P Q E p s') :
    SafeE P Q E p s := Safe.of_later h

theorem SafeE.stable (h : SafeE P Q E p s) (hR : P.rely s s') : SafeE P Q E p s' :=
  Safe.stable h hR

theorem SafeE.mono (h : SafeE P Q E p s)
    (hQ : ∀ calls a s, P.inv s → Lasting P (Q calls a) s → Q' calls a s)
    (hE : ∀ calls e s, P.inv s → Lasting P (E calls e) s → E' calls e s) : SafeE P Q' E' p s :=
  Safe.mono h fun calls r s hI hr => match r with
    | .ok a => hQ calls a s hI hr
    | .error e => hE calls e s hI hr

theorem SafeE.remember (h : SafeE P Q E p s) :
    SafeE P (fun calls a s' => P.rely s s' ∧ Q calls a s')
      (fun calls e s' => P.rely s s' ∧ E calls e s') p s :=
  Safe.mono (Safe.remember h) fun _ r _ hI hr => match r with
    | .ok _ => hr.here hI
    | .error _ => hr.here hI

theorem SafeE.bind {Q : Calls σ → β → σ → Prop} {f : α → ExceptT ε (Program Op Res) β}
    (h : SafeE P
      (fun calls a s => SafeE P (fun rest => Q (calls ++ rest)) (fun rest => E (calls ++ rest))
        (f a) s) E p s) : SafeE P Q E (p >>= f) s := by
  refine Safe.bind (Safe.mono h fun calls r s hI hr => ?_)
  cases r with
  | ok a => exact hr.here hI
  | error e =>
    refine Safe.pure fun s' hR hI' => ?_
    show E (calls ++ []) e s'
    rw [List.append_nil]
    exact hr s' hR hI'

theorem SafeE.pure {a : α} (h : Lasting P (Q [] a) s) : SafeE P Q E (Pure.pure a) s := h

theorem SafeE.throw {e : ε} (h : Lasting P (E [] e) s) : SafeE P Q E (throwThe ε e) s := h

/-- A call whose answer can be an error, with the error mapped. -/
theorem SafeE.adapt {E : Calls σ → ε' → σ → Prop} {f : ε → ε'}
    {p : Program Op Res (Except ε α)}
    (h : Safe P (fun calls r s => match r with
      | .ok a => Lasting P (Q calls a) s
      | .error e => Lasting P (E calls (f e)) s) p s) :
    SafeE P Q E (ExceptT.adapt f (ExceptT.mk p)) s := by
  refine Safe.bind (Safe.mono h fun calls r s hI hr => Safe.pure fun s' hR hI' => ?_)
  rw [List.append_nil]
  cases r with
  | ok a => exact hr.here hI s' hR hI'
  | error e => exact hr.here hI s' hR hI'

/-- A program that cannot fail, among those that can. -/
theorem SafeE.liftP {p : Program Op Res α} (h : Safe P Q p s) :
    SafeE P Q E (ExceptT.lift p) s := by
  refine Safe.bind (Safe.mono h fun calls a s hI hr => Safe.pure fun s' hR hI' => ?_)
  show Q (calls ++ []) a s'
  rw [List.append_nil]
  exact hr s' hR hI'

/-- A pure check in a program. -/
theorem SafeE.lift {x : Except ε α} (hok : ∀ a, x = .ok a → Lasting P (Q [] a) s)
    (herror : ∀ e, x = .error e → Lasting P (E [] e) s) : SafeE P Q E (liftM x) s := by
  cases x with
  | ok a => exact hok a rfl
  | error e => exact herror e rfl

theorem SafeE.liftBind {Q : Calls σ → β → σ → Prop} {x : Except ε α}
    {f : α → ExceptT ε (Program Op Res) β} (hok : ∀ a, x = .ok a → SafeE P Q E (f a) s)
    (herror : ∀ e, x = .error e → Lasting P (E [] e) s) : SafeE P Q E (liftM x >>= f) s := by
  cases x with
  | ok a => exact hok a rfl
  | error e => exact herror e rfl

end SafeE

/-! ## Results only -/

/-- Safety of a program that can fail, where only its result matters. -/
def Ends (P : Protocol Op Res σ) (Q : α → σ → Prop) (E : ε → σ → Prop)
    (p : ExceptT ε (Program Op Res) α) (s : σ) : Prop :=
  SafeE P (fun _ => Q) (fun _ => E) p s

section Ends

variable {Q Q' : α → σ → Prop} {E E' : ε → σ → Prop} {p : ExceptT ε (Program Op Res) α}

theorem Ends.of_later (h : ∀ s', P.rely s s' → P.inv s' → Ends P Q E p s') : Ends P Q E p s :=
  SafeE.of_later h

theorem Ends.stable (h : Ends P Q E p s) (hR : P.rely s s') : Ends P Q E p s' := SafeE.stable h hR

theorem Ends.pure {a : α} (h : ∀ s', P.rely s s' → P.inv s' → Q a s') :
    Ends P Q E (Pure.pure a) s := h

theorem Ends.throw {e : ε} (h : ∀ s', P.rely s s' → P.inv s' → E e s') :
    Ends P Q E (throwThe ε e) s := h

/-- What the result says may be weakened in the states after the program. -/
theorem Ends.imp (h : Ends P Q E p s) (hQ : ∀ a s', P.rely s s' → P.inv s' → Q a s' → Q' a s')
    (hE : ∀ e s', P.rely s s' → P.inv s' → E e s' → E' e s') : Ends P Q' E' p s := by
  refine SafeE.mono h.remember (fun _ a s' hI hr => ?_) fun _ e s' hI hr => ?_
  · obtain ⟨hR, hq⟩ := hr.here hI
    exact hQ a s' hR hI hq
  · obtain ⟨hR, he⟩ := hr.here hI
    exact hE e s' hR hI he

/-- One program after the other. -/
theorem Ends.bind {Q : β → σ → Prop} {Q₁ : α → σ → Prop} {E₁ : ε → σ → Prop}
    {f : α → ExceptT ε (Program Op Res) β} (h : Ends P Q₁ E₁ p s)
    (hok : ∀ a s', P.rely s s' → P.inv s' → Q₁ a s' → Ends P Q E (f a) s')
    (herror : ∀ e s', P.rely s s' → P.inv s' → E₁ e s' → E e s') : Ends P Q E (p >>= f) s :=
  SafeE.bind (Ends.imp h hok herror)

/-- The code after a pure check. -/
theorem Ends.liftBind {Q : β → σ → Prop} {x : Except ε α} {f : α → ExceptT ε (Program Op Res) β}
    (hok : ∀ a, x = .ok a → Ends P Q E (f a) s)
    (herror : ∀ e, x = .error e → ∀ s', P.rely s s' → P.inv s' → E e s') :
    Ends P Q E (liftM x >>= f) s := SafeE.liftBind hok herror

theorem Ends.lift {x : Except ε α} (hok : ∀ a, x = .ok a → ∀ s', P.rely s s' → P.inv s' → Q a s')
    (herror : ∀ e, x = .error e → ∀ s', P.rely s s' → P.inv s' → E e s') :
    Ends P Q E (liftM x) s := SafeE.lift hok herror

/-- The outcome of a program is looked at, and the code goes on. -/
theorem Ends.runBind {Q : β → σ → Prop} {Q₁ : α → σ → Prop} {E₁ : ε → σ → Prop}
    {f : Except ε α → ExceptT ε (Program Op Res) β} (h : Ends P Q₁ E₁ p s)
    (hok : ∀ a s', P.rely s s' → P.inv s' → Q₁ a s' → Ends P Q E (f (.ok a)) s')
    (herror : ∀ e s', P.rely s s' → P.inv s' → E₁ e s' → Ends P Q E (f (.error e)) s') :
    Ends P Q E (ExceptT.lift p.run >>= f) s := by
  refine SafeE.bind (SafeE.liftP (Safe.mono (Safe.remember h) fun _ r s' hI hr => ?_))
  obtain ⟨hR, hr⟩ := hr.here hI
  cases r with
  | ok a => exact hok a s' hR hI hr
  | error e => exact herror e s' hR hI hr

end Ends

/-! ## Runs of one program -/

/-- The program makes these calls, with the states before and after each, and ends with a result.
Nothing is said about what others do between the calls. -/
inductive Runs (P : Protocol Op Res σ) : Program Op Res α → Calls σ → α → Prop where
  | done {a : α} : Runs P (.done a) [] a
  | call {op : Op} {next : Res op → Program Op Res α} {s s' : σ} {r : Res op}
      {calls : Calls σ} {a : α} (h : P.exec s op r s') (hrest : Runs P (next r) calls a) :
      Runs P (.call op next) ((s, s') :: calls) a

theorem Runs.done_iff {a b : α} {calls : Calls σ} :
    Runs P (.done a) calls b ↔ calls = [] ∧ b = a := by
  constructor
  · rintro ⟨⟩
    exact ⟨rfl, rfl⟩
  · rintro ⟨rfl, rfl⟩
    exact .done

theorem Runs.bind_inv {p : Program Op Res α} {f : α → Program Op Res β} {calls : Calls σ}
    {b : β} (h : Runs P (p >>= f) calls b) :
    ∃ first rest a, calls = first ++ rest ∧ Runs P p first a ∧ Runs P (f a) rest b := by
  induction p generalizing calls with
  | done a => exact ⟨[], calls, a, rfl, .done, h⟩
  | call op next ih =>
    rcases h with _ | @⟨_, _, s, s', r, calls, _, he, hrest⟩
    obtain ⟨first, rest, a, rfl, hp, hf⟩ := ih r hrest
    exact ⟨(s, s') :: first, rest, a, rfl, .call he hp, hf⟩

theorem Runs.bind {p : Program Op Res α} {f : α → Program Op Res β} {first rest : Calls σ}
    {a : α} {b : β} (hp : Runs P p first a) (hf : Runs P (f a) rest b) :
    Runs P (p >>= f) (first ++ rest) b := by
  induction hp with
  | done => exact hf
  | call he _ ih => exact .call he (ih hf)

theorem Runs.perform_inv {op : Op} {calls : Calls σ} {r : Res op}
    (h : Runs P (perform op) calls r) : ∃ s s', calls = [(s, s')] ∧ P.exec s op r s' := by
  rcases h with _ | @⟨_, _, s, s', r', calls, _, he, hrest⟩
  obtain ⟨rfl, rfl⟩ := Runs.done_iff.mp hrest
  exact ⟨s, s', rfl, he⟩

/-- A run of a program that can fail ends with the first error, or goes on. -/
theorem Runs.bindE_inv {p : ExceptT ε (Program Op Res) α}
    {f : α → ExceptT ε (Program Op Res) β} {calls : Calls σ} {b : Except ε β}
    (h : Runs P (p >>= f).run calls b) :
    (∃ e, b = .error e ∧ Runs P p.run calls (.error e)) ∨
      ∃ first rest a, calls = first ++ rest ∧ Runs P p.run first (.ok a) ∧
        Runs P (f a).run rest b := by
  obtain ⟨first, rest, r, rfl, hp, hf⟩ := Runs.bind_inv h
  cases r with
  | ok a => exact .inr ⟨first, rest, a, rfl, hp, hf⟩
  | error e =>
    obtain ⟨rfl, rfl⟩ := Runs.done_iff.mp hf
    exact .inl ⟨e, rfl, by rw [List.append_nil]; exact hp⟩

theorem Runs.bindE {p : ExceptT ε (Program Op Res) α} {f : α → ExceptT ε (Program Op Res) β}
    {first rest : Calls σ} {a : α} {b : Except ε β} (hp : Runs P p.run first (.ok a))
    (hf : Runs P (f a).run rest b) : Runs P (p >>= f).run (first ++ rest) b :=
  Runs.bind hp hf

/-- A pure check makes no call. -/
theorem Runs.lift_inv {x : Except ε α} {calls : Calls σ} {b : Except ε α}
    (h : Runs P (liftM x : ExceptT ε (Program Op Res) α).run calls b) : calls = [] ∧ b = x := by
  cases x <;> exact Runs.done_iff.mp h

/-- A run past a pure check is a run of the rest. -/
theorem Runs.liftBind_inv {x : Except ε α} {f : α → ExceptT ε (Program Op Res) β}
    {calls : Calls σ} {b : Except ε β} (h : Runs P (liftM x >>= f).run calls b) :
    (∃ e, x = .error e ∧ calls = [] ∧ b = .error e) ∨
      ∃ a, x = .ok a ∧ Runs P (f a).run calls b := by
  cases x with
  | ok a => exact .inr ⟨a, rfl, h⟩
  | error e =>
    obtain ⟨rfl, rfl⟩ := Runs.done_iff.mp h
    exact .inl ⟨e, rfl, rfl, rfl⟩

theorem Runs.liftBind {x : Except ε α} {f : α → ExceptT ε (Program Op Res) β}
    {calls : Calls σ} {a : α} {b : Except ε β} (hx : x = .ok a)
    (h : Runs P (f a).run calls b) : Runs P (liftM x >>= f).run calls b := by
  rw [hx]
  exact h

theorem Runs.adapt_inv {f : ε → ε'} {p : Program Op Res (Except ε α)} {calls : Calls σ}
    {b : Except ε' α} (h : Runs P (ExceptT.adapt f (ExceptT.mk p)).run calls b) :
    ∃ r, Runs P p calls r ∧ b = r.mapError f := by
  obtain ⟨first, rest, r, rfl, hp, hf⟩ := Runs.bind_inv h
  obtain ⟨rfl, rfl⟩ := Runs.done_iff.mp hf
  exact ⟨r, by rw [List.append_nil]; exact hp, rfl⟩

/-- What holds of every run holds of a safe program. -/
theorem Safe.runs {Q : Calls σ → α → σ → Prop} {R : Calls σ → α → Prop} {p : Program Op Res α}
    (h : Safe P Q p s) (hR : ∀ calls a, Runs P p calls a → R calls a) :
    Safe P (fun calls a s => R calls a ∧ Q calls a s) p s := by
  induction p generalizing s Q R with
  | done a => exact fun s' hrely hI => ⟨hR [] a .done, h s' hrely hI⟩
  | call op next ih =>
    intro s₁ hrely hI r s₂ he
    obtain ⟨hI₂, hR₂, hnext⟩ := h s₁ hrely hI r s₂ he
    exact ⟨hI₂, hR₂, ih r hnext fun calls a hruns => hR _ a (.call he hruns)⟩

/-- A safe program can end, where every call has an answer. -/
theorem Safe.ends {Q : Calls σ → α → σ → Prop} {p : Program Op Res α}
    (htotal : ∀ s op, ∃ r s', P.exec s op r s') (h : Safe P Q p s) (hI : P.inv s) :
    ∃ calls a s', Q calls a s' := by
  induction p generalizing s Q with
  | done a => exact ⟨[], a, s, h s (P.rely_refl s) hI⟩
  | call op next ih =>
    obtain ⟨r, s₂, he⟩ := htotal s op
    obtain ⟨hI₂, -, hnext⟩ := h s (P.rely_refl s) hI r s₂ he
    obtain ⟨calls, a, s', hQ⟩ := ih r hnext hI₂
    exact ⟨_, a, s', hQ⟩

/-! ## Alone -/

/-- Calls of which each begins in the state that the one before left. -/
def Chained : σ → Calls σ → σ → Prop
  | s, [], s' => s = s'
  | s, (s₁, s₂) :: calls, s' => s = s₁ ∧ Chained s₂ calls s'

/-- The result of a program that has the service for itself, where the service is a function, and
the state afterwards. -/
def alone (serve : σ → (op : Op) → Res op × σ) : Program Op Res α → σ → α × σ
  | done a, s => (a, s)
  | call op next, s => (next (serve s op).1).alone serve (serve s op).2

theorem alone_bind (serve : σ → (op : Op) → Res op × σ) (p : Program Op Res α)
    (f : α → Program Op Res β) (s : σ) :
    (p >>= f).alone serve s = (f (p.alone serve s).1).alone serve (p.alone serve s).2 := by
  induction p generalizing s with
  | done a => rfl
  | call op next ih => exact ih _ _

/-- A program that can fail goes on after a success. -/
theorem aloneE_bind (serve : σ → (op : Op) → Res op × σ) {p : ExceptT ε (Program Op Res) α}
    {f : α → ExceptT ε (Program Op Res) β} {s s' : σ} {a : α}
    (h : p.run.alone serve s = (.ok a, s')) :
    (p >>= f).run.alone serve s = (f a).run.alone serve s' := by
  rw [show (p >>= f).run = p.run >>= _ from rfl, alone_bind, h]
  rfl

/-- A program that is lifted has no error of its own. -/
theorem aloneP_bind (serve : σ → (op : Op) → Res op × σ) (p : Program Op Res α)
    (f : α → ExceptT ε (Program Op Res) β) (s : σ) :
    (ExceptT.lift p >>= f).run.alone serve s =
      (f (p.alone serve s).1).run.alone serve (p.alone serve s).2 := by
  refine aloneE_bind serve ?_
  rw [show (ExceptT.lift p : ExceptT ε (Program Op Res) α).run = p >>= fun a => done (.ok a) from rfl,
    alone_bind]
  rfl

/-- A program that can fail ends with its first error. -/
theorem aloneE_error (serve : σ → (op : Op) → Res op × σ) {p : ExceptT ε (Program Op Res) α}
    {f : α → ExceptT ε (Program Op Res) β} {s s' : σ} {e : ε}
    (h : p.run.alone serve s = (.error e, s')) :
    (p >>= f).run.alone serve s = (.error e, s') := by
  rw [show (p >>= f).run = p.run >>= _ from rfl, alone_bind, h]
  rfl

/-- How a program that can fail ends: with its first error, or later. -/
theorem aloneE_inv {serve : σ → (op : Op) → Res op × σ} {p : ExceptT ε (Program Op Res) α}
    {f : α → ExceptT ε (Program Op Res) β} {s s' : σ} {r : Except ε β}
    (h : (p >>= f).run.alone serve s = (r, s')) :
    (∃ e, p.run.alone serve s = (.error e, s') ∧ r = .error e) ∨
      ∃ a s₁, p.run.alone serve s = (.ok a, s₁) ∧ (f a).run.alone serve s₁ = (r, s') := by
  rcases hp : p.run.alone serve s with ⟨e | a, s₁⟩
  · rw [aloneE_error serve hp] at h
    obtain ⟨rfl, rfl⟩ := Prod.ext_iff.mp h
    exact .inl ⟨e, rfl, rfl⟩
  · rw [aloneE_bind serve hp] at h
    exact .inr ⟨a, s₁, rfl, h⟩

/-- The parts of a success. -/
theorem aloneE_ok {serve : σ → (op : Op) → Res op × σ} {p : ExceptT ε (Program Op Res) α}
    {f : α → ExceptT ε (Program Op Res) β} {s s' : σ} {b : β}
    (h : (p >>= f).run.alone serve s = (.ok b, s')) :
    ∃ a s₁, p.run.alone serve s = (.ok a, s₁) ∧ (f a).run.alone serve s₁ = (.ok b, s') := by
  rcases aloneE_inv h with ⟨e, -, he⟩ | hok
  · cases he
  · exact hok

theorem alone_adapt (serve : σ → (op : Op) → Res op × σ) (f : ε → ε')
    (p : ExceptT ε (Program Op Res) α) (s : σ) :
    (ExceptT.adapt f p).run.alone serve s =
      ((p.run.alone serve s).1.mapError f, (p.run.alone serve s).2) := by
  rw [show (ExceptT.adapt f p).run = p.run >>= fun r => done (r.mapError f) from rfl, alone_bind]
  rfl

/-- A program with calls of one kind only. -/
def Within (kind : Op → Prop) : Program Op Res α → Prop
  | done _ => True
  | call op next => kind op ∧ ∀ r, Within kind (next r)

section Within

variable {kind : Op → Prop}

theorem Within.bind {p : Program Op Res α} {f : α → Program Op Res β} (h : p.Within kind)
    (hf : ∀ a, (f a).Within kind) : (p >>= f).Within kind := by
  induction p with
  | done a => exact hf a
  | call op next ih => exact ⟨h.1, fun r => ih r (h.2 r)⟩

theorem Within.bindE {p : ExceptT ε (Program Op Res) α} {f : α → ExceptT ε (Program Op Res) β}
    (h : p.run.Within kind) (hf : ∀ a, (f a).run.Within kind) : (p >>= f).run.Within kind :=
  Within.bind h fun r => match r with
    | .ok a => hf a
    | .error _ => trivial

theorem Within.lift {p : Program Op Res α} (h : p.Within kind) :
    (ExceptT.lift p : ExceptT ε (Program Op Res) α).run.Within kind :=
  h.bind fun _ => trivial

theorem Within.adapt {f : ε → ε'} {p : ExceptT ε (Program Op Res) α} (h : p.run.Within kind) :
    (ExceptT.adapt f p).run.Within kind :=
  h.bind fun _ => trivial

/-- Calls that leave the state do so all together. -/
theorem Within.alone {serve : σ → (op : Op) → Res op × σ} {p : Program Op Res α}
    (h : p.Within kind) (hserve : ∀ s op, kind op → (serve s op).2 = s) (s : σ) :
    (p.alone serve s).2 = s := by
  induction p with
  | done a => rfl
  | call op next ih =>
    rw [Program.alone, hserve s op h.1]
    exact ih _ (h.2 _)

end Within

/-- Alone, a program makes a run in which every call begins where the one before ended. -/
theorem runs_alone {serve : σ → (op : Op) → Res op × σ}
    (hserve : ∀ s op, P.exec s op (serve s op).1 (serve s op).2) (p : Program Op Res α) (s : σ) :
    ∃ calls, Runs P p calls (p.alone serve s).1 ∧ Chained s calls (p.alone serve s).2 := by
  induction p generalizing s with
  | done a => exact ⟨[], .done, rfl⟩
  | call op next ih =>
    obtain ⟨calls, hruns, hchain⟩ := ih (serve s op).1 (serve s op).2
    exact ⟨_, .call (hserve s op) hruns, rfl, hchain⟩

/-! ## Embeddings -/

section Embed

universe u' v' w'

variable {Op' : Type u'} {Res' : Op' → Type v} {σ' : Type w'} {P' : Protocol Op' Res' σ'}

/-- A program of a service, as a program of a larger one. -/
def embed (f : Op → Op') (g : ∀ op, Res' (f op) → Res op) :
    Program Op Res α → Program Op' Res' α
  | done a => done a
  | call op next => call (f op) fun r => (next (g op r)).embed f g

/-- `embed`, of a program that can fail. -/
def embedE (f : Op → Op') (g : ∀ op, Res' (f op) → Res op) (p : ExceptT ε (Program Op Res) α) :
    ExceptT ε (Program Op' Res') α := ExceptT.mk (embed f g p.run)

/-- The larger service does what the smaller one does on its part of the state, and keeps its own
protocol if the smaller one keeps its. -/
structure Embeds (P : Protocol Op Res σ) (P' : Protocol Op' Res' σ') (part : σ' → σ)
    (f : Op → Op') (g : ∀ op, Res' (f op) → Res op) : Prop where
  inv : ∀ s, P'.inv s → P.inv (part s)
  rely : ∀ s s', P'.rely s s' → P.rely (part s) (part s')
  exec : ∀ s op r s', P'.exec s (f op) r s' → P.exec (part s) op (g op r) (part s')
  keeps : ∀ s op r s', P'.inv s → P'.exec s (f op) r s' → P.inv (part s') →
    P.rely (part s) (part s') → P'.inv s' ∧ P'.rely s s'

variable {part : σ' → σ} {f : Op → Op'} {g : ∀ op, Res' (f op) → Res op}

theorem Safe.embed {Q : Calls σ → α → σ → Prop} {p : Program Op Res α} {s : σ'}
    (hembeds : Embeds P P' part f g) (h : Safe P Q p (part s)) :
    Safe P' (fun calls a s => Q (calls.map (Prod.map part part)) a (part s)) (p.embed f g) s := by
  induction p generalizing s Q with
  | done a => exact fun s' hR hI => h _ (hembeds.rely _ _ hR) (hembeds.inv _ hI)
  | call op next ih =>
    intro s₁ hR hI r s₂ he
    obtain ⟨hI₂, hR₂, hnext⟩ :=
      h _ (hembeds.rely _ _ hR) (hembeds.inv _ hI) _ _ (hembeds.exec _ _ _ _ he)
    obtain ⟨hI₂', hR₂'⟩ := hembeds.keeps _ _ _ _ hI he hI₂ hR₂
    exact ⟨hI₂', hR₂', ih _ hnext⟩

theorem Ends.embed {Q : α → σ → Prop} {E : ε → σ → Prop} {p : ExceptT ε (Program Op Res) α}
    {s : σ'} (hembeds : Embeds P P' part f g) (h : Ends P Q E p (part s)) :
    Ends P' (fun a s => Q a (part s)) (fun e s => E e (part s)) (embedE f g p) s :=
  Safe.embed hembeds h

end Embed

/-! ## Guarantees -/

/-- Safety of a program that can fail, with what each of its calls does. -/
def Guarantees (P : Protocol Op Res σ) (G : σ × σ → Prop) (Q : α → σ → Prop) (E : ε → σ → Prop)
    (p : ExceptT ε (Program Op Res) α) (s : σ) : Prop :=
  SafeE P (fun calls a s => (∀ c ∈ calls, G c) ∧ Q a s)
    (fun calls e s => (∀ c ∈ calls, G c) ∧ E e s) p s

section Guarantees

variable {G : σ × σ → Prop} {Q Q' : α → σ → Prop} {E E' : ε → σ → Prop}
  {p : ExceptT ε (Program Op Res) α}

/-- A guarantee may be read off the runs of a program. -/
theorem Ends.guarantees (h : Ends P Q E p s)
    (hG : ∀ calls b, Runs P p.run calls b → ∀ c ∈ calls, G c) : Guarantees P G Q E p s :=
  Safe.mono (Safe.runs h hG) fun _ r _ hI hr => match r with
    | .ok _ => hr.here hI
    | .error _ => hr.here hI

theorem Guarantees.ends (h : Guarantees P G Q E p s) : Ends P Q E p s :=
  SafeE.mono h (fun _ _ _ hI hr => (hr.here hI).2) fun _ _ _ hI hr => (hr.here hI).2

theorem Guarantees.mono (h : Guarantees P G Q E p s)
    (hQ : ∀ a s, P.inv s → Lasting P (Q a) s → Q' a s)
    (hE : ∀ e s, P.inv s → Lasting P (E e) s → E' e s) : Guarantees P G Q' E' p s :=
  SafeE.mono h
    (fun _ a s hI hr => ⟨(hr.here hI).1, hQ a s hI fun s' hR hI' => (hr s' hR hI').2⟩)
    fun _ e s hI hr => ⟨(hr.here hI).1, hE e s hI fun s' hR hI' => (hr s' hR hI').2⟩

theorem Guarantees.weaken {G' : σ × σ → Prop} (h : Guarantees P G Q E p s)
    (hG : ∀ c, G c → G' c) : Guarantees P G' Q E p s :=
  SafeE.mono h
    (fun _ _ _ hI hr => ⟨fun c hc => hG c ((hr.here hI).1 c hc), (hr.here hI).2⟩)
    fun _ _ _ hI hr => ⟨fun c hc => hG c ((hr.here hI).1 c hc), (hr.here hI).2⟩

theorem Guarantees.remember (h : Guarantees P G Q E p s) :
    Guarantees P G (fun a s' => P.rely s s' ∧ Q a s') (fun e s' => P.rely s s' ∧ E e s') p s :=
  SafeE.mono (SafeE.remember h)
    (fun _ _ _ hI hr => ⟨(hr.here hI).2.1, (hr.here hI).1, (hr.here hI).2.2⟩)
    fun _ _ _ hI hr => ⟨(hr.here hI).2.1, (hr.here hI).1, (hr.here hI).2.2⟩

theorem Guarantees.bind {Q : β → σ → Prop} {f : α → ExceptT ε (Program Op Res) β}
    (h : Guarantees P G (fun a s => Guarantees P G Q E (f a) s) E p s) :
    Guarantees P G Q E (p >>= f) s := by
  refine SafeE.bind (SafeE.mono h (fun calls a s hI hr => ?_) fun _ _ _ hI hr => hr.here hI)
  obtain ⟨hcalls, hf⟩ := hr.here hI
  have happend {rest : Calls σ} (hrest : ∀ c ∈ rest, G c) : ∀ c ∈ calls ++ rest, G c := by
    intro c hc
    exact (List.mem_append.mp hc).elim (hcalls c) (hrest c)
  exact SafeE.mono hf (fun _ _ _ hI hr => ⟨happend (hr.here hI).1, (hr.here hI).2⟩)
    fun _ _ _ hI hr => ⟨happend (hr.here hI).1, (hr.here hI).2⟩

theorem Guarantees.pure {a : α} (h : Lasting P (Q a) s) : Guarantees P G Q E (Pure.pure a) s :=
  fun s' hR hI => ⟨by simp, h s' hR hI⟩

theorem Guarantees.throw {e : ε} (h : Lasting P (E e) s) : Guarantees P G Q E (throwThe ε e) s :=
  fun s' hR hI => ⟨by simp, h s' hR hI⟩

theorem Guarantees.lift {x : Except ε α} (hok : ∀ a, x = .ok a → Lasting P (Q a) s)
    (herror : ∀ e, x = .error e → Lasting P (E e) s) : Guarantees P G Q E (liftM x) s :=
  SafeE.lift (fun a hx s' hR hI => ⟨by simp, hok a hx s' hR hI⟩)
    fun e hx s' hR hI => ⟨by simp, herror e hx s' hR hI⟩

end Guarantees

end Program

/-! ## Pools -/

open Program

variable {Op : Type u} {Res : Op → Type v} {α : Type v} {σ : Type w} {ι : Type*}

/-- A program of a pool: what it is for, its calls so far, and what is left of it. -/
structure Process (Op : Type u) (Res : Op → Type v) (α : Type v) (σ : Type w) (ι : Type*) where
  label : ι
  /-- The states before and after each of its calls, latest last. -/
  calls : Calls σ
  rest : Program Op Res α

/-- A shared state and the programs that use it. -/
structure Pool (Op : Type u) (Res : Op → Type v) (α : Type v) (σ : Type w) (ι : Type*) where
  shared : σ
  processes : List (Process Op Res α σ ι)

namespace Pool

/-- The programs that may start, and what the environment may do. -/
structure Rules (P : Protocol Op Res σ) (α : Type v) (ι : Type*) where
  start : σ → ι → Program Op Res α → Prop
  env : σ → σ → Prop
  post : ι → Calls σ → α → σ → Prop
  start_safe : ∀ s i p, P.inv s → start s i p → Safe P (post i) p s
  env_keeps : ∀ s s', P.inv s → env s s' → P.inv s' ∧ P.rely s s'

variable {P : Protocol Op Res σ} {rules : Rules P α ι}

inductive Step (rules : Rules P α ι) : Pool Op Res α σ ι → Pool Op Res α σ ι → Prop where
  | call {s s' : σ} {before after : List (Process Op Res α σ ι)} {i : ι} {calls : Calls σ}
      {op : Op} {next : Res op → Program Op Res α} {r : Res op} (h : P.exec s op r s') :
      Step rules ⟨s, before ++ ⟨i, calls, .call op next⟩ :: after⟩
        ⟨s', before ++ ⟨i, calls ++ [(s, s')], next r⟩ :: after⟩
  | start {s : σ} {processes : List (Process Op Res α σ ι)} {i : ι} {p : Program Op Res α}
      (h : rules.start s i p) : Step rules ⟨s, processes⟩ ⟨s, processes ++ [⟨i, [], p⟩]⟩
  | env {s s' : σ} {processes : List (Process Op Res α σ ι)} (h : rules.env s s') :
      Step rules ⟨s, processes⟩ ⟨s', processes⟩

/-- The pools that steps reach from a shared state without programs. -/
def Reachable (rules : Rules P α ι) (s : σ) (pool : Pool Op Res α σ ι) : Prop :=
  Relation.ReflTransGen (Step rules) ⟨s, []⟩ pool

/-- The invariant holds and every program is safe. -/
structure Sound (rules : Rules P α ι) (pool : Pool Op Res α σ ι) : Prop where
  inv : P.inv pool.shared
  safe : ∀ p ∈ pool.processes,
    Safe P (fun rest => rules.post p.label (p.calls ++ rest)) p.rest pool.shared

/-- One step keeps soundness, and its change of the state is within `rely`. -/
theorem Step.sound {pool pool' : Pool Op Res α σ ι} (hstep : Step rules pool pool')
    (h : Sound rules pool) : Sound rules pool' ∧ P.rely pool.shared pool'.shared := by
  cases hstep with
  | @call s s' before after i calls op next r he =>
    obtain ⟨hI, hR, hnext⟩ :=
      h.safe ⟨i, calls, .call op next⟩ (by simp) s (P.rely_refl s) h.inv r s' he
    refine ⟨⟨hI, fun p hp => ?_⟩, hR⟩
    rcases List.mem_append.mp hp with hp | hp
    · exact (h.safe p (by simp [hp])).stable hR
    · rcases List.mem_cons.mp hp with rfl | hp
      · simpa only [List.append_assoc, List.singleton_append] using hnext
      · exact (h.safe p (by simp [hp])).stable hR
  | @start s processes i p hstart =>
    refine ⟨⟨h.inv, fun q hq => ?_⟩, P.rely_refl s⟩
    rcases List.mem_append.mp hq with hq | hq
    · exact h.safe q hq
    · obtain rfl := List.mem_singleton.mp hq
      exact rules.start_safe s i p h.inv hstart
  | @env s s' processes henv =>
    obtain ⟨hI, hR⟩ := rules.env_keeps s s' h.inv henv
    exact ⟨⟨hI, fun p hp => (h.safe p hp).stable hR⟩, hR⟩

/-- Steps keep soundness and stay within `rely`. -/
theorem Sound.run {pool pool' : Pool Op Res α σ ι} (h : Sound rules pool)
    (hrun : Relation.ReflTransGen (Step rules) pool pool') :
    Sound rules pool' ∧ P.rely pool.shared pool'.shared := by
  induction hrun with
  | refl => exact ⟨h, P.rely_refl _⟩
  | tail _ hstep ih =>
    obtain ⟨hsound, hR⟩ := hstep.sound ih.1
    exact ⟨hsound, P.rely_trans ih.2 hR⟩

/-- Every reachable pool is sound, if the first state satisfies the invariant. -/
theorem Reachable.sound {s : σ} {pool : Pool Op Res α σ ι} (hs : P.inv s)
    (h : Reachable rules s pool) : Sound rules pool :=
  (Sound.run ⟨hs, by simp⟩ h).1

/-- The state after a call is in the past of every later pool. -/
def Past (P : Protocol Op Res σ) (pool : Pool Op Res α σ ι) : Prop :=
  ∀ p ∈ pool.processes, ∀ c ∈ p.calls, P.rely c.2 pool.shared

theorem Step.past {pool pool' : Pool Op Res α σ ι} (hstep : Step rules pool pool')
    (hR : P.rely pool.shared pool'.shared) (h : Past P pool) : Past P pool' := by
  intro p hp c hc
  cases hstep with
  | @call s s' before after i calls op next r he =>
    have hother : p ∈ before ∨ p ∈ after → P.rely c.2 s' := fun hp =>
      P.rely_trans (h p (by rcases hp with hp | hp <;> simp [hp]) c hc) hR
    rcases List.mem_append.mp hp with hp | hp
    · exact hother (.inl hp)
    rcases List.mem_cons.mp hp with rfl | hp
    · rcases List.mem_append.mp hc with hc | hc
      · exact P.rely_trans (h ⟨i, calls, .call op next⟩ (by simp) c hc) hR
      · obtain rfl := List.mem_singleton.mp hc
        exact P.rely_refl s'
    · exact hother (.inr hp)
  | @start s processes i q hstart =>
    rcases List.mem_append.mp hp with hp | hp
    · exact h p hp c hc
    · obtain rfl := List.mem_singleton.mp hp
      simp at hc
  | env => exact P.rely_trans (h p hp c hc) hR

theorem Reachable.past {s : σ} {pool : Pool Op Res α σ ι} (hs : P.inv s)
    (h : Reachable rules s pool) : Past P pool := by
  induction h with
  | refl => intro p hp; simp at hp
  | tail hrun hstep ih => exact hstep.past (hstep.sound (Reachable.sound hs hrun)).2 ih

/-- What a postcondition says of the calls holds of those made so far, where every call has an
answer. -/
theorem Sound.calls {pool : Pool Op Res α σ ι} (h : Sound rules pool)
    (htotal : ∀ s op, ∃ r s', P.exec s op r s') {p : Process Op Res α σ ι}
    (hp : p ∈ pool.processes) : ∃ rest a s, rules.post p.label (p.calls ++ rest) a s :=
  (h.safe p hp).ends htotal h.inv

/-- A program that is done has a result that satisfies its postcondition. -/
theorem Sound.result {pool : Pool Op Res α σ ι} (h : Sound rules pool) {i : ι}
    {calls : Calls σ} {a : α} (hp : ⟨i, calls, .done a⟩ ∈ pool.processes) :
    rules.post i calls a pool.shared := by
  have hpost : rules.post i (calls ++ []) a pool.shared :=
    h.safe _ hp pool.shared (P.rely_refl _) h.inv
  rwa [List.append_nil] at hpost

/-- A program that has the service for itself. -/
theorem run_alone {p : Program Op Res α} {calls past : Calls σ} {a : α} {s s' : σ} (i : ι)
    (others : List (Process Op Res α σ ι)) (hruns : Runs P p calls a)
    (hchain : Chained s calls s') :
    Relation.ReflTransGen (Step rules) ⟨s, others ++ [⟨i, past, p⟩]⟩
      ⟨s', others ++ [⟨i, past ++ calls, .done a⟩]⟩ := by
  induction hruns generalizing s past with
  | done =>
    obtain rfl : s = s' := hchain
    simpa using Relation.ReflTransGen.refl
  | @call op next s₁ s₂ r calls a he _ ih =>
    obtain ⟨rfl, hchain⟩ := hchain
    have hstep : Step rules ⟨s, others ++ ⟨i, past, .call op next⟩ :: []⟩
        ⟨s₂, others ++ ⟨i, past ++ [(s, s₂)], next r⟩ :: []⟩ := .call he
    have happ : past ++ (s, s₂) :: calls = (past ++ [(s, s₂)]) ++ calls := by simp
    rw [happ]
    exact .head hstep (ih hchain)

/-- The first calls of a program that has the service for itself, what is left of it and the state
then, where the service is a function. -/
def advance (serve : σ → (op : Op) → Res op × σ) :
    Nat → Program Op Res α → σ → Calls σ × Program Op Res α × σ
  | 0, p, s => ([], p, s)
  | _, .done a, s => ([], .done a, s)
  | n + 1, .call op next, s =>
    let answer := serve s op
    let rest := advance serve n (next answer.1) answer.2
    ((s, answer.2) :: rest.1, rest.2)

theorem run_advance {serve : σ → (op : Op) → Res op × σ}
    (hserve : ∀ s op, P.exec s op (serve s op).1 (serve s op).2) (i : ι)
    (others : List (Process Op Res α σ ι)) (past : Calls σ) (n : Nat) (p : Program Op Res α)
    (s : σ) :
    Relation.ReflTransGen (Step rules) ⟨s, others ++ [⟨i, past, p⟩]⟩
      ⟨(advance serve n p s).2.2,
        others ++ [⟨i, past ++ (advance serve n p s).1, (advance serve n p s).2.1⟩]⟩ := by
  induction n generalizing p s past with
  | zero => simpa [advance] using Relation.ReflTransGen.refl
  | succ n ih =>
    cases p with
    | done a => simpa [advance] using Relation.ReflTransGen.refl
    | call op next =>
      have hstep : Step rules ⟨s, others ++ ⟨i, past, .call op next⟩ :: []⟩
          ⟨(serve s op).2,
            others ++ ⟨i, past ++ [(s, (serve s op).2)], next (serve s op).1⟩ :: []⟩ :=
        .call (hserve s op)
      have hrest := ih (past ++ [(s, (serve s op).2)]) (next (serve s op).1) (serve s op).2
      rw [List.append_assoc] at hrest
      exact .head hstep hrest

/-- Every program of a reachable pool has been started, and its calls lead from the program that was
started to what is left of it. -/
def Traced (rules : Rules P α ι) (pool : Pool Op Res α σ ι) : Prop :=
  ∀ p ∈ pool.processes, ∃ s q, rules.start s p.label q ∧
    ∀ rest a, Runs P p.rest rest a → Runs P q (p.calls ++ rest) a

theorem Step.traced {pool pool' : Pool Op Res α σ ι} (hstep : Step rules pool pool')
    (h : Traced rules pool) : Traced rules pool' := by
  intro p hp
  cases hstep with
  | @call s s' before after i calls op next r he =>
    rcases List.mem_append.mp hp with hp | hp
    · exact h p (by simp [hp])
    · rcases List.mem_cons.mp hp with rfl | hp
      · obtain ⟨s₀, q, hstart, hruns⟩ := h ⟨i, calls, .call op next⟩ (by simp)
        refine ⟨s₀, q, hstart, fun rest a hrest => ?_⟩
        rw [List.append_assoc]
        exact hruns _ a (.call he hrest)
      · exact h p (by simp [hp])
  | @start s processes i q hstart =>
    rcases List.mem_append.mp hp with hp | hp
    · exact h p hp
    · obtain rfl := List.mem_singleton.mp hp
      exact ⟨s, q, hstart, fun _ _ hrest => hrest⟩
  | env => exact h p hp

/-- A program of a reachable pool that is done has run from its start to its result. -/
theorem Reachable.runs {s : σ} {pool : Pool Op Res α σ ι} (h : Reachable rules s pool) {i : ι}
    {calls : Calls σ} {a : α} (hp : ⟨i, calls, .done a⟩ ∈ pool.processes) :
    ∃ s₀ q, rules.start s₀ i q ∧ Runs P q calls a := by
  have htraced : Traced rules pool := by
    clear hp
    induction h with
    | refl => intro p hp; simp at hp
    | tail _ hstep ih => exact hstep.traced ih
  obtain ⟨s₀, q, hstart, hruns⟩ := htraced _ hp
  exact ⟨s₀, q, hstart, by simpa using hruns [] a .done⟩

end Pool

end Lib
