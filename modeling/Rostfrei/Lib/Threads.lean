import Rostfrei.Lib.Machine
import Rostfrei.Lib.Program

/-!
# Threads that use locks

Any number of threads, each a `Program` whose operations act on one shared state; what an operation
does depends on the thread that performs it (a lock has a holder). The history records what has
happened (`Event`).

A `Discipline` is an invariant of the state and its history, a condition on operations (`permits`),
and, *for each thread*, how the state may change while the others act (`rely`). A thread that holds
a lock counts on more than one that does not, and may change what the others do not count on. This
is what distinguishes it from a `Protocol`, where all programs count on the same.

A program is `Safe` for a thread if, whatever the others do within its `rely`, each of its
operations is permitted, keeps the invariant and stays within the `rely` of every *other* thread. If
every program is safe when it begins (`Discipline.Sound`), the invariant holds in every reachable
state and every operation was permitted (`Sound.inv`, `Sound.permits`).
-/

namespace Lib

universe u v w x

/-- What programs there are, and what their operations do. -/
structure Threads (T : Type x) (C : Type x) (Op : Type u) (Res : Op → Type v) (R : Type v)
    (σ : Type w) where
  code : C → Program Op Res R
  /-- The state before, the operation of a thread, its answer and the state after. -/
  exec : T → σ → (op : Op) → Res op → σ → Prop
  /-- What happens on its own. -/
  env : σ → σ → Prop
  start : σ → Prop

namespace Threads

inductive Event (T : Type x) (C : Type x) (Op : Type u) (Res : Op → Type v) (R : Type v) where
  | began (t : T) (code : C)
  | did (t : T) (code : C) (op : Op) (answer : Res op)
  | returned (t : T) (code : C) (result : R)

/-- The shared state and what has happened, latest last. -/
structure World (T : Type x) (C : Type x) (Op : Type u) (Res : Op → Type v) (R : Type v)
    (σ : Type w) where
  shared : σ
  history : List (Event T C Op Res R)

variable {T C : Type x} {Op : Type u} {Res : Op → Type v} {R α β ε : Type v} {σ : Type w}

def World.note (w : World T C Op Res R σ) (shared : σ) (event : Event T C Op Res R) :
    World T C Op Res R σ := ⟨shared, w.history ++ [event]⟩

@[simp] theorem World.shared_note (w : World T C Op Res R σ) (s : σ) (e : Event T C Op Res R) :
    (w.note s e).shared = s := rfl

@[simp] theorem World.history_note (w : World T C Op Res R σ) (s : σ) (e : Event T C Op Res R) :
    (w.note s e).history = w.history ++ [e] := rfl

/-- The world and what is left of each program. -/
structure State (T : Type x) (C : Type x) (Op : Type u) (Res : Op → Type v) (R : Type v)
    (σ : Type w) where
  world : World T C Op Res R σ
  threads : T → Option (C × Program Op Res R)

/-- The thread has not begun. -/
def Fresh (t : T) (history : List (Event T C Op Res R)) : Prop :=
  ∀ c, Event.began t c ∉ history

variable [DecidableEq T] (S : Threads T C Op Res R σ)

inductive Step : State T C Op Res R σ → Option (Event T C Op Res R) → State T C Op Res R σ → Prop
  | begin {s : State T C Op Res R σ} {t : T} {c : C} (hfresh : Fresh t s.world.history) :
      Step s (some (.began t c)) ⟨s.world.note s.world.shared (.began t c),
        Function.update s.threads t (some (c, S.code c))⟩
  | act {s : State T C Op Res R σ} {t : T} {c : C} {op : Op} {next : Res op → Program Op Res R}
      {answer : Res op} {shared : σ} (hthread : s.threads t = some (c, .call op next))
      (hexec : S.exec t s.world.shared op answer shared) :
      Step s (some (.did t c op answer)) ⟨s.world.note shared (.did t c op answer),
        Function.update s.threads t (some (c, next answer))⟩
  | finish {s : State T C Op Res R σ} {t : T} {c : C} {result : R}
      (hthread : s.threads t = some (c, .done result)) :
      Step s (some (.returned t c result)) ⟨s.world.note s.world.shared (.returned t c result),
        Function.update s.threads t none⟩
  | env {s : State T C Op Res R σ} {shared : σ} (henv : S.env s.world.shared shared) :
      Step s none ⟨⟨shared, s.world.history⟩, s.threads⟩

def machine : Machine (State T C Op Res R σ) (Option (Event T C Op Res R)) where
  start s := S.start s.world.shared ∧ s.world.history = [] ∧ s.threads = fun _ => none
  step := Step S

/-- The history only grows. -/
theorem Step.history {S : Threads T C Op Res R σ} {s s' : State T C Op Res R σ}
    {label : Option (Event T C Op Res R)} (h : Step S s label s') :
    s'.world.history = s.world.history ++ label.toList := by
  cases h <;> simp

/-! ## One thread alone -/

/-- The first operations of a thread, where the answers are computed: what is left of its program,
and the world then. -/
def advance (serve : T → σ → (op : Op) → Option (Res op × σ)) (t : T) (c : C) :
    Nat → Program Op Res R → World T C Op Res R σ → Option (Program Op Res R × World T C Op Res R σ)
  | 0, p, w => some (p, w)
  | _, .done r, w => some (.done r, w)
  | n + 1, .call op next, w =>
    (serve t w.shared op).bind fun (answer, shared) =>
      advance serve t c n (next answer) (w.note shared (.did t c op answer))

/-- No thread has begun under that name. -/
def isFresh (t : T) (history : List (Event T C Op Res R)) : Bool :=
  history.all fun event => match event with
    | .began u _ => u ≠ t
    | _ => true

theorem isFresh_iff {t : T} {history : List (Event T C Op Res R)} :
    isFresh t history = true ↔ Fresh t history := by
  simp only [isFresh, List.all_eq_true, Fresh]
  constructor
  · intro h c hmem
    simpa using h _ hmem
  · intro h event hmem
    cases event with
    | began u c =>
      rw [decide_eq_true_eq]
      rintro rfl
      exact h c hmem
    | did | returned => rfl

/-- A call with its first `n` operations, and its return if it needs no more. -/
def callAlone (serve : T → σ → (op : Op) → Option (Res op × σ)) (t : T) (c : C) (n : Nat)
    (s : State T C Op Res R σ) : Option (State T C Op Res R σ) :=
  if isFresh t s.world.history ∧ (s.threads t).isNone then
    (advance serve t c n (S.code c) (s.world.note s.world.shared (.began t c))).map fun (p, w) =>
      match p with
      | .done r => ⟨w.note w.shared (.returned t c r), s.threads⟩
      | .call op next => ⟨w, Function.update s.threads t (some (c, .call op next))⟩
  else none

section Alone

variable {S} {serve : T → σ → (op : Op) → Option (Res op × σ)}
  (hserve : ∀ t s op answer s', serve t s op = some (answer, s') → S.exec t s op answer s')
include hserve

theorem run_advance {t : T} {c : C} {n : Nat} {p p' : Program Op Res R}
    {w w' : World T C Op Res R σ} (h : advance serve t c n p w = some (p', w'))
    {threads : T → Option (C × Program Op Res R)} (hthread : threads t = some (c, p)) :
    ∃ labels, S.machine.Run ⟨w, threads⟩ labels
      ⟨w', Function.update threads t (some (c, p'))⟩ := by
  have hidle : ∀ {q}, threads t = some (c, q) → Function.update threads t (some (c, q)) = threads :=
    fun hq => by rw [← hq, Function.update_eq_self]
  induction n generalizing p w threads with
  | zero =>
    obtain ⟨rfl, rfl⟩ := Prod.ext_iff.mp (Option.some.inj h)
    exact ⟨[], by rw [hidle hthread]; exact .nil _⟩
  | succ n ih =>
    cases p with
    | done r =>
      obtain ⟨rfl, rfl⟩ := Prod.ext_iff.mp (Option.some.inj h)
      exact ⟨[], by rw [hidle hthread]; exact .nil _⟩
    | call op next =>
      obtain ⟨⟨answer, shared⟩, hanswer, hrest⟩ := Option.bind_eq_some_iff.mp h
      obtain ⟨labels, hrun⟩ := ih hrest
        (Function.update_self (f := threads) t (some (c, next answer))) fun hq => by rw [← hq, Function.update_eq_self]
      rw [Function.update_idem] at hrun
      exact ⟨_, .cons (.act hthread (hserve _ _ _ _ _ hanswer)) hrun⟩

theorem run_callAlone {t : T} {c : C} {n : Nat} {s s' : State T C Op Res R σ}
    (h : callAlone S serve t c n s = some s') : ∃ labels, S.machine.Run s labels s' := by
  unfold callAlone at h
  split at h
  · next hnew =>
    have hthread : s.threads t = none := Option.isNone_iff_eq_none.mp hnew.2
    obtain ⟨⟨p, w⟩, hadvance, hend⟩ := Option.map_eq_some_iff.mp h
    obtain ⟨labels, hrun⟩ := run_advance hserve hadvance
      (Function.update_self (f := s.threads) t (some (c, S.code c)))
    rw [Function.update_idem] at hrun
    have hbegin := Step.begin (S := S) (s := s) (t := t) (c := c) (isFresh_iff.mp hnew.1)
    cases p with
    | call op next =>
      obtain rfl := hend
      exact ⟨_, .cons hbegin hrun⟩
    | done r =>
      obtain rfl := hend
      have hfinish := Step.finish (S := S)
        (s := ⟨w, Function.update s.threads t (some (c, .done r))⟩) (Function.update_self _ _ _)
      simp only [Function.update_idem] at hfinish
      rw [← hthread, Function.update_eq_self] at hfinish
      exact ⟨_, .cons hbegin (hrun.append (.cons hfinish (.nil _)))⟩
  · cases h

/-- Calls one after the other. -/
theorem run_calls {calls : List ((C × Nat) × T)} {s s' : State T C Op Res R σ}
    (h : calls.foldlM (fun s call => callAlone S serve call.2 call.1.1 call.1.2 s) s = some s') :
    ∃ labels, S.machine.Run s labels s' := by
  induction calls generalizing s with
  | nil =>
    obtain rfl := Option.some.inj h
    exact ⟨[], .nil _⟩
  | cons call calls ih =>
    rw [List.foldlM_cons] at h
    obtain ⟨s₁, hfirst, hrest⟩ := Option.bind_eq_some_iff.mp h
    obtain ⟨labels, hrun⟩ := run_callAlone hserve hfirst
    obtain ⟨more, hmore⟩ := ih hrest
    exact ⟨labels ++ more, hrun.append hmore⟩

end Alone

end Threads

open Threads

/-- What threads keep, and what each counts on while the others act. -/
structure Discipline {T C : Type x} {Op : Type u} {Res : Op → Type v} {R : Type v} {σ : Type w}
    (S : Threads T C Op Res R σ) where
  inv : World T C Op Res R σ → Prop
  permits : World T C Op Res R σ → T → C → Op → Prop
  rely : T → World T C Op Res R σ → World T C Op Res R σ → Prop
  rely_refl : ∀ t w, rely t w w
  rely_trans : ∀ {t w₁ w₂ w₃}, rely t w₁ w₂ → rely t w₂ w₃ → rely t w₁ w₃

namespace Discipline

variable {T C : Type x} {Op : Type u} {Res : Op → Type v} {R α β ε : Type v} {σ : Type w}
  {S : Threads T C Op Res R σ} (D : Discipline S) (t : T) (c : C)

/-- The world after an operation is within the discipline. -/
structure Keeps (w w' : World T C Op Res R σ) : Prop where
  inv : D.inv w'
  others : ∀ u, u ≠ t → D.rely u w w'

/-- Safe for a thread: while the others act within its `rely`, every operation is permitted and
within the discipline, and the result satisfies `Q` whenever it is looked at. -/
def Safe (Q : α → World T C Op Res R σ → Prop) :
    Program Op Res α → World T C Op Res R σ → Prop
  | .done a, w => ∀ w', D.rely t w w' → D.inv w' → Q a w'
  | .call op next, w => ∀ w₁, D.rely t w w₁ → D.inv w₁ → D.permits w₁ t c op ∧
      ∀ answer s, S.exec t w₁.shared op answer s →
        D.Keeps t w₁ (w₁.note s (.did t c op answer)) ∧
          Safe Q (next answer) (w₁.note s (.did t c op answer))

/-- The property holds at every later world. -/
def Lasting (Q : World T C Op Res R σ → Prop) (w : World T C Op Res R σ) : Prop :=
  ∀ w', D.rely t w w' → D.inv w' → Q w'

variable {D t c} {w w' : World T C Op Res R σ}

theorem Lasting.here {Q : World T C Op Res R σ → Prop} (h : D.Lasting t Q w) (hI : D.inv w) : Q w :=
  h w (D.rely_refl t w) hI

theorem Lasting.later {Q : World T C Op Res R σ → Prop} (h : D.Lasting t Q w)
    (hR : D.rely t w w') : D.Lasting t Q w' :=
  fun w₁ h₁ hI => h w₁ (D.rely_trans hR h₁) hI

section Safe

variable {Q Q' : α → World T C Op Res R σ → Prop} {p : Program Op Res α}

theorem Safe.mono (h : D.Safe t c Q p w)
    (hQ : ∀ a w, D.inv w → D.Lasting t (Q a) w → Q' a w) : D.Safe t c Q' p w := by
  induction p generalizing w with
  | done a => exact fun w' hR hI => hQ a w' hI (Lasting.later h hR)
  | call op next ih =>
    intro w₁ hR hI
    obtain ⟨hpermits, hanswers⟩ := h w₁ hR hI
    refine ⟨hpermits, fun answer s he => ?_⟩
    obtain ⟨hkeeps, hnext⟩ := hanswers answer s he
    exact ⟨hkeeps, ih answer hnext⟩

/-- What the others do does not spoil safety. -/
theorem Safe.stable (h : D.Safe t c Q p w) (hR : D.rely t w w') : D.Safe t c Q p w' := by
  cases p with
  | done a => exact fun w₁ h₁ hI => h w₁ (D.rely_trans hR h₁) hI
  | call op next => exact fun w₁ h₁ hI => h w₁ (D.rely_trans hR h₁) hI

/-- Safety may be shown at the later worlds where the invariant holds. -/
theorem Safe.of_later (h : ∀ w', D.rely t w w' → D.inv w' → D.Safe t c Q p w') :
    D.Safe t c Q p w := by
  cases p with
  | done a => exact fun w₁ h₁ hI => h w₁ h₁ hI w₁ (D.rely_refl t w₁) hI
  | call op next => exact fun w₁ h₁ hI => h w₁ h₁ hI w₁ (D.rely_refl t w₁) hI

theorem Safe.bind {Q : β → World T C Op Res R σ → Prop} {f : α → Program Op Res β}
    (h : D.Safe t c (fun a w => D.Safe t c Q (f a) w) p w) : D.Safe t c Q (p >>= f) w := by
  induction p generalizing w with
  | done a => exact .of_later h
  | call op next ih =>
    intro w₁ hR hI
    obtain ⟨hpermits, hanswers⟩ := h w₁ hR hI
    refine ⟨hpermits, fun answer s he => ?_⟩
    obtain ⟨hkeeps, hnext⟩ := hanswers answer s he
    exact ⟨hkeeps, ih answer hnext⟩

theorem Safe.pure {a : α} (h : D.Lasting t (Q a) w) : D.Safe t c Q (Pure.pure a) w := h

theorem Safe.perform (op : Op) {Q : Res op → World T C Op Res R σ → Prop}
    (h : ∀ w₁, D.rely t w w₁ → D.inv w₁ → D.permits w₁ t c op ∧
      ∀ answer s, S.exec t w₁.shared op answer s →
        D.Keeps t w₁ (w₁.note s (.did t c op answer)) ∧
          D.Lasting t (Q answer) (w₁.note s (.did t c op answer))) :
    D.Safe t c Q (Program.perform op) w := h

end Safe

/-! ## Programs that can fail -/

/-- Safety of a program that can fail. -/
def SafeE (D : Discipline S) (t : T) (c : C) (Q : α → World T C Op Res R σ → Prop)
    (E : ε → World T C Op Res R σ → Prop) (p : ExceptT ε (Program Op Res) α)
    (w : World T C Op Res R σ) : Prop :=
  D.Safe t c (fun r w => match r with
    | .ok a => Q a w
    | .error e => E e w) p.run w

section SafeE

variable {Q Q' : α → World T C Op Res R σ → Prop} {E E' : ε → World T C Op Res R σ → Prop}
  {p : ExceptT ε (Program Op Res) α}

theorem SafeE.mono (h : D.SafeE t c Q E p w)
    (hQ : ∀ a w, D.inv w → D.Lasting t (Q a) w → Q' a w)
    (hE : ∀ e w, D.inv w → D.Lasting t (E e) w → E' e w) : D.SafeE t c Q' E' p w :=
  Safe.mono h fun r w hI hr => match r with
    | .ok a => hQ a w hI hr
    | .error e => hE e w hI hr

theorem SafeE.of_later (h : ∀ w', D.rely t w w' → D.inv w' → D.SafeE t c Q E p w') :
    D.SafeE t c Q E p w := Safe.of_later h

theorem SafeE.bind {Q : β → World T C Op Res R σ → Prop} {f : α → ExceptT ε (Program Op Res) β}
    (h : D.SafeE t c (fun a w => D.SafeE t c Q E (f a) w) E p w) :
    D.SafeE t c Q E (p >>= f) w := by
  refine Safe.bind (Safe.mono h fun r w hI hr => ?_)
  cases r with
  | ok a => exact hr.here hI
  | error e => exact Safe.pure hr

/-- One program after the other. -/
theorem SafeE.seq {Q : β → World T C Op Res R σ → Prop} {f : α → ExceptT ε (Program Op Res) β}
    {M : α → World T C Op Res R σ → Prop} (h : D.SafeE t c M E p w)
    (hf : ∀ a w, D.inv w → M a w → D.SafeE t c Q E (f a) w) : D.SafeE t c Q E (p >>= f) w :=
  SafeE.bind (SafeE.mono h (fun a w hI ha => hf a w hI (ha.here hI)) fun _ _ hI he => he.here hI)

/-- A program that does not fail, whatever a failure would have to satisfy. -/
theorem SafeE.never (h : D.SafeE t c Q (fun _ _ => False) p w) : D.SafeE t c Q E p w :=
  SafeE.mono h (fun _ _ hI ha => ha.here hI) fun _ _ hI he => (he.here hI).elim

theorem SafeE.pure {a : α} (h : D.Lasting t (Q a) w) : D.SafeE t c Q E (Pure.pure a) w := h

theorem SafeE.throw {e : ε} (h : D.Lasting t (E e) w) : D.SafeE t c Q E (throwThe ε e) w := h

/-- A program that cannot fail, among those that can. -/
theorem SafeE.liftP {p : Program Op Res α} (h : D.Safe t c Q p w) :
    D.SafeE t c Q E (ExceptT.lift p) w := by
  refine Safe.bind (Safe.mono h fun a w _ ha => Safe.pure ha)

/-- A loop keeps what each of its rounds keeps. -/
theorem SafeE.forM {I : World T C Op Res R σ → Prop} {f : α → ExceptT ε (Program Op Res) PUnit}
    {items : List α} (hf : ∀ a ∈ items, ∀ w, D.inv w → D.Lasting t I w →
      D.SafeE t c (fun _ => I) E (f a) w) (h : D.Lasting t I w) :
    D.SafeE t c (fun _ => I) E (items.forM f) w := by
  induction items generalizing w with
  | nil => exact SafeE.pure h
  | cons a items ih =>
    refine SafeE.of_later fun w₁ hR hI => SafeE.bind ?_
    exact SafeE.mono (hf a List.mem_cons_self w₁ hI (h.later hR))
      (fun _ w _ hw => ih (fun b hb => hf b (List.mem_cons_of_mem _ hb)) hw)
      fun e w hI he => he.here hI

end SafeE

/-! ## Reachable states -/

variable (D) in
/-- Every program that begins is safe, and beginning, returning and the environment are within the
discipline. -/
structure Sound (post : T → C → R → World T C Op Res R σ → Prop) : Prop where
  start : ∀ s, S.start s → D.inv ⟨s, []⟩
  env : ∀ w s, D.inv w → S.env w.shared s →
    D.inv ⟨s, w.history⟩ ∧ ∀ t, D.rely t w ⟨s, w.history⟩
  begin : ∀ w t c, D.inv w → Fresh t w.history →
    D.Keeps t w (w.note w.shared (.began t c)) ∧
      D.Safe t c (post t c) (S.code c) (w.note w.shared (.began t c))
  finish : ∀ w t c r, D.inv w → post t c r w → D.Keeps t w (w.note w.shared (.returned t c r))

variable [DecidableEq T] {post : T → C → R → World T C Op Res R σ → Prop}
  {s s' : State T C Op Res R σ} {label : Option (Event T C Op Res R)}

/-- What is left of every program is safe. -/
structure AllSafe (D : Discipline S) (post : T → C → R → World T C Op Res R σ → Prop)
    (s : State T C Op Res R σ) : Prop where
  inv : D.inv s.world
  safe : ∀ t c p, s.threads t = some (c, p) → D.Safe t c (post t c) p s.world

/-- A step of one thread. -/
theorem AllSafe.update (h : AllSafe D post s) (hkeeps : D.Keeps t s.world w)
    {left : Option (C × Program Op Res R)}
    (hleft : ∀ c p, left = some (c, p) → D.Safe t c (post t c) p w) :
    AllSafe D post ⟨w, Function.update s.threads t left⟩ := by
  refine ⟨hkeeps.inv, fun u c p hu => ?_⟩
  by_cases hut : u = t
  · subst hut
    simp only [Function.update_self] at hu
    exact hleft c p hu
  · simp only [Function.update_of_ne hut] at hu
    exact (h.safe u c p hu).stable (hkeeps.others u hut)

theorem Sound.step (hD : D.Sound post) (hstep : Step S s label s') (h : AllSafe D post s) :
    AllSafe D post s' := by
  cases hstep with
  | @begin t c hfresh =>
    obtain ⟨hkeeps, hsafe⟩ := hD.begin s.world t c h.inv hfresh
    refine h.update hkeeps fun c' p hp => ?_
    obtain ⟨rfl, rfl⟩ := Prod.ext_iff.mp (Option.some.inj hp)
    exact hsafe
  | @act t c op next answer shared hthread hexec =>
    obtain ⟨-, hanswers⟩ := h.safe t c _ hthread s.world (D.rely_refl t _) h.inv
    obtain ⟨hkeeps, hnext⟩ := hanswers answer shared hexec
    refine h.update hkeeps fun c' p hp => ?_
    obtain ⟨rfl, rfl⟩ := Prod.ext_iff.mp (Option.some.inj hp)
    exact hnext
  | @finish t c r hthread =>
    have hpost := h.safe t c _ hthread s.world (D.rely_refl t _) h.inv
    exact h.update (hD.finish s.world t c r h.inv hpost) fun c' p hp => by cases hp
  | @env shared henv =>
    obtain ⟨hinv, hrely⟩ := hD.env s.world shared h.inv henv
    exact ⟨hinv, fun t c p hp => (h.safe t c p hp).stable (hrely t)⟩

theorem Sound.reachable (hD : D.Sound post) (hs : S.machine.Reachable s) : AllSafe D post s := by
  refine Machine.Invariant.reachable ⟨fun s hstart => ?_, fun s l s' h hstep => hD.step hstep h⟩ hs
  obtain ⟨hstart, hhistory, hthreads⟩ := hstart
  refine ⟨?_, fun t c p hp => by simp [hthreads] at hp⟩
  have hinv := hD.start _ hstart
  rwa [← hhistory] at hinv

/-- The invariant holds in every reachable state. -/
theorem Sound.inv (hD : D.Sound post) (hs : S.machine.Reachable s) : D.inv s.world :=
  (hD.reachable hs).inv

/-- Every operation is permitted. -/
theorem Sound.permits (hD : D.Sound post) (hs : S.machine.Reachable s) {op : Op} {answer : Res op}
    (hstep : Step S s (some (.did t c op answer)) s') : D.permits s.world t c op := by
  have h := hD.reachable hs
  cases hstep with
  | act hthread hexec => exact (h.safe t c _ hthread s.world (D.rely_refl t _) h.inv).1

end Discipline

end Lib
