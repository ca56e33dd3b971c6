import Rostfrei.Lib.Program

/-!
# Calls that depend on earlier calls

What one program of `Lib.Program` has called and been answered is its trace. `Monitored G Q` says
that each call of the program is permitted by the trace before it (`G`), whatever the answers, and
that a result comes with a trace that satisfies `Q`. The rules follow the program
(`Monitored.bind`, `Monitored.perform`); a call that is made keeps both the rest of the program
monitored and the trace obedient (`Obeys.snoc`).
-/

namespace Lib.Program

universe u v

variable {Op : Type u} {Res : Op → Type v} {α β ε : Type v}

/-- The calls of a program with their answers, latest last. -/
abbrev Trace (Op : Type u) (Res : Op → Type v) := List ((op : Op) × Res op)

/-- Every call was permitted by what went before. -/
def Obeys (G : Trace Op Res → Op → Prop) (trace : Trace Op Res) : Prop :=
  ∀ before event after, trace = before ++ event :: after → G before event.1

def Monitored (G : Trace Op Res → Op → Prop) (Q : Trace Op Res → α → Prop) :
    Program Op Res α → Trace Op Res → Prop
  | done a, trace => Q trace a
  | call op next, trace => G trace op ∧ ∀ r, Monitored G Q (next r) (trace ++ [⟨op, r⟩])

variable {G : Trace Op Res → Op → Prop} {Q Q' : Trace Op Res → α → Prop} {trace : Trace Op Res}

theorem obeys_nil : Obeys G [] := by
  intro before event after h
  simp at h

theorem Obeys.snoc (h : Obeys G trace) {op : Op} (hop : G trace op) (r : Res op) :
    Obeys G (trace ++ [⟨op, r⟩]) := by
  intro before event after heq
  rcases List.eq_nil_or_concat after with rfl | ⟨init, last, rfl⟩
  · obtain ⟨rfl, hevent⟩ := List.append_inj' heq rfl
    obtain rfl := (List.cons.inj hevent).1
    exact hop
  · have hsplit : trace ++ [⟨op, r⟩] = (before ++ event :: init) ++ [last] := by
      rw [heq, List.append_assoc, List.cons_append, List.concat_eq_append]
    exact h before event init (List.append_inj' hsplit rfl).1

/-- A call of an obedient trace, and what went before it. -/
theorem Obeys.of_mem (h : Obeys G trace) {event : (op : Op) × Res op} (hmem : event ∈ trace) :
    ∃ before after, trace = before ++ event :: after ∧ G before event.1 := by
  obtain ⟨before, after, rfl⟩ := List.append_of_mem hmem
  exact ⟨before, after, rfl, h before event after rfl⟩

theorem Monitored.bind {Q : Trace Op Res → β → Prop} {p : Program Op Res α}
    {f : α → Program Op Res β}
    (h : Monitored G (fun trace a => Monitored G Q (f a) trace) p trace) :
    Monitored G Q (p >>= f) trace := by
  induction p generalizing trace with
  | done a => exact h
  | call op next ih => exact ⟨h.1, fun r => ih r (h.2 r)⟩

theorem Monitored.perform {op : Op} {Q : Trace Op Res → Res op → Prop} (hop : G trace op)
    (h : ∀ r, Q (trace ++ [⟨op, r⟩]) r) : Monitored G Q (perform op) trace := ⟨hop, h⟩

theorem Monitored.mono {p : Program Op Res α} (h : Monitored G Q p trace)
    (hQ : ∀ trace a, Q trace a → Q' trace a) : Monitored G Q' p trace := by
  induction p generalizing trace with
  | done a => exact hQ trace a h
  | call op next ih => exact ⟨h.1, fun r => ih r (h.2 r)⟩

/-! ## Programs that can fail -/

/-- A failure needs no condition: what was called before it was permitted. -/
def MonitoredE (G : Trace Op Res → Op → Prop) (Q : Trace Op Res → α → Prop)
    (p : ExceptT ε (Program Op Res) α) (trace : Trace Op Res) : Prop :=
  Monitored G (fun trace r => ∀ a, r = .ok a → Q trace a) p.run trace

theorem MonitoredE.bind {Q : Trace Op Res → β → Prop} {p : ExceptT ε (Program Op Res) α}
    {f : α → ExceptT ε (Program Op Res) β}
    (h : MonitoredE G (fun trace a => MonitoredE G Q (f a) trace) p trace) :
    MonitoredE G Q (p >>= f) trace := by
  refine Monitored.bind (Monitored.mono h fun trace r hr => ?_)
  cases r with
  | ok a => exact hr a rfl
  | error e => exact fun b hb => by cases hb

theorem MonitoredE.pure {a : α} (h : Q trace a) :
    MonitoredE (ε := ε) G Q (Pure.pure a) trace := by
  intro b hb
  obtain rfl := Except.ok.inj hb
  exact h

theorem MonitoredE.throw {e : ε} :
    MonitoredE G Q (throwThe ε e : ExceptT ε (Program Op Res) α) trace :=
  fun b hb => by cases hb

theorem MonitoredE.perform {op : Op} {Q : Trace Op Res → Res op → Prop} (hop : G trace op)
    (h : ∀ r, Q (trace ++ [⟨op, r⟩]) r) :
    MonitoredE (ε := ε) G Q (ExceptT.lift (Program.perform op)) trace :=
  ⟨hop, fun r a ha => by
    obtain rfl := Except.ok.inj ha
    exact h r⟩

end Lib.Program
