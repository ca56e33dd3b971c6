import Rostfrei.Lib.Program

/-!
# Programs under arbitrary answers

`Answered p trace a`: the program makes the calls of `trace`, gets the answers that stand beside
them, and ends with `a`. The answers are arbitrary, so what holds of every such trace holds whatever
the service does. The inversion rules follow the program.
-/

namespace Lib

namespace Program

universe u v

variable {Op : Type u} {Res : Op → Type v} {α β ε ε' : Type v}

theorem bind_assoc' {γ : Type v} (p : Program Op Res α) (f : α → Program Op Res β)
    (g : β → Program Op Res γ) : p >>= f >>= g = p >>= fun a => f a >>= g := by
  induction p with
  | done a => rfl
  | call op next ih => exact congrArg (call op) (funext ih)

theorem bind_done (p : Program Op Res α) : p >>= done = p := by
  induction p with
  | done a => rfl
  | call op next ih => exact congrArg (call op) (funext ih)

instance : LawfulMonad (Program Op Res) :=
  LawfulMonad.mk' _ bind_done (fun _ _ => rfl) bind_assoc'

/-- A call with its answer. -/
abbrev Answer (Op : Type u) (Res : Op → Type v) := (op : Op) × Res op

/-- The calls of a program that has a service for itself, with their answers. -/
def heard {σ : Type*} (serve : σ → (op : Op) → Res op × σ) : Program Op Res α → σ →
    List (Answer Op Res)
  | .done _, _ => []
  | .call op next, s =>
    let (r, s') := serve s op
    ⟨op, r⟩ :: heard serve (next r) s'

inductive Answered : Program Op Res α → List (Answer Op Res) → α → Prop where
  | done {a : α} : Answered (.done a) [] a
  | call {op : Op} {next : Res op → Program Op Res α} {r : Res op} {trace : List (Answer Op Res)}
      {a : α} (h : Answered (next r) trace a) : Answered (.call op next) (⟨op, r⟩ :: trace) a

namespace Answered

theorem done_iff {a b : α} {trace : List (Answer Op Res)} :
    Answered (.done a) trace b ↔ trace = [] ∧ b = a := by
  constructor
  · rintro ⟨⟩
    exact ⟨rfl, rfl⟩
  · rintro ⟨rfl, rfl⟩
    exact .done

theorem bind_inv {p : Program Op Res α} {f : α → Program Op Res β} {trace : List (Answer Op Res)}
    {b : β} (h : Answered (p >>= f) trace b) :
    ∃ first rest a, trace = first ++ rest ∧ Answered p first a ∧ Answered (f a) rest b := by
  induction p generalizing trace with
  | done a => exact ⟨[], trace, a, rfl, .done, h⟩
  | call op next ih =>
    rcases h with _ | @⟨_, _, r, trace, _, hrest⟩
    obtain ⟨first, rest, a, rfl, hp, hf⟩ := ih r hrest
    exact ⟨⟨op, r⟩ :: first, rest, a, rfl, .call hp, hf⟩

theorem perform_inv {op : Op} {trace : List (Answer Op Res)} {r : Res op}
    (h : Answered (perform op) trace r) : trace = [⟨op, r⟩] := by
  rcases h with _ | @⟨_, _, r', trace, _, hrest⟩
  obtain ⟨rfl, rfl⟩ := done_iff.mp hrest
  rfl

/-- A program that can fail ends with its first error, or goes on. -/
theorem bindE_inv {p : ExceptT ε (Program Op Res) α} {f : α → ExceptT ε (Program Op Res) β}
    {trace : List (Answer Op Res)} {b : Except ε β} (h : Answered (p >>= f).run trace b) :
    (∃ e, b = .error e ∧ Answered p.run trace (.error e)) ∨
      ∃ first rest a, trace = first ++ rest ∧ Answered p.run first (.ok a) ∧
        Answered (f a).run rest b := by
  obtain ⟨first, rest, r, rfl, hp, hf⟩ := bind_inv h
  cases r with
  | ok a => exact .inr ⟨first, rest, a, rfl, hp, hf⟩
  | error e =>
    obtain ⟨rfl, rfl⟩ := done_iff.mp hf
    exact .inl ⟨e, rfl, by rwa [List.append_nil]⟩

/-- A pure check makes no call. -/
theorem lift_inv {x : Except ε α} {trace : List (Answer Op Res)} {b : Except ε α}
    (h : Answered (liftM x : ExceptT ε (Program Op Res) α).run trace b) : trace = [] ∧ b = x := by
  cases x <;> exact done_iff.mp h

theorem liftBind_inv {x : Except ε α} {f : α → ExceptT ε (Program Op Res) β}
    {trace : List (Answer Op Res)} {b : Except ε β} (h : Answered (liftM x >>= f).run trace b) :
    (∃ e, x = .error e ∧ trace = [] ∧ b = .error e) ∨
      ∃ a, x = .ok a ∧ Answered (f a).run trace b := by
  cases x with
  | ok a => exact .inr ⟨a, rfl, h⟩
  | error e =>
    obtain ⟨rfl, rfl⟩ := done_iff.mp h
    exact .inl ⟨e, rfl, rfl, rfl⟩

theorem adapt_inv {f : ε → ε'} {p : Program Op Res (Except ε α)} {trace : List (Answer Op Res)}
    {b : Except ε' α} (h : Answered (ExceptT.adapt f (ExceptT.mk p)).run trace b) :
    ∃ r, Answered p trace r ∧ b = r.mapError f := by
  obtain ⟨first, rest, r, rfl, hp, hf⟩ := bind_inv h
  obtain ⟨rfl, rfl⟩ := done_iff.mp hf
  exact ⟨r, by rwa [List.append_nil], rfl⟩

/-- A program that is lifted has no error of its own. -/
theorem liftP_inv {p : Program Op Res α} {f : α → ExceptT ε (Program Op Res) β}
    {trace : List (Answer Op Res)} {b : Except ε β}
    (h : Answered (ExceptT.lift p >>= f).run trace b) :
    ∃ first rest a, trace = first ++ rest ∧ Answered p first a ∧ Answered (f a).run rest b := by
  obtain ⟨first, rest, r, rfl, hp, hf⟩ := bind_inv h
  obtain ⟨first', rest', a, rfl, hp', hlift⟩ := bind_inv hp
  obtain ⟨rfl, rfl⟩ := done_iff.mp hlift
  exact ⟨first', rest, a, by rw [List.append_nil], hp', hf⟩

/-- The answers of a service that the program has for itself. -/
theorem alone {σ : Type*} (serve : σ → (op : Op) → Res op × σ) (p : Program Op Res α) (s : σ) :
    Answered p (p.heard serve s) (p.alone serve s).1 := by
  induction p generalizing s with
  | done a => exact .done
  | call op next ih => exact .call (ih _ _)

end Answered

end Program

end Lib
