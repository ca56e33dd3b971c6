import Rostfrei.Concrete
import Rostfrei.ReadModel.Safety

/-!
# Pools of deliveries

Any number of deliveries of committed events, in any order and any number of times, over one store:
in every reachable state the stored envelopes are materialized, and their positions never go back
(`deliveries_sound`). A delivery changes the store at most once, by its last call
(`domain_changes`); so one that fails leaves the store as it was, unless the answer to an applied
write was lost.
-/

namespace Rostfrei.ReadModel

open Lib

variable {M : Type} [Crates] [Inhabited M] (session : Session M)

omit [Crates] [Inhabited M] in
/-- A committed event can be delivered. -/
theorem delivered_of_mem {w : World M} (hstreams : ∀ s, IsHistory s (w.streams s))
    {event : RecordedEvent} (hmem : event ∈ w.streams event.streamId) : Delivered w event := by
  obtain ⟨i, hi, heq⟩ := List.mem_iff_getElem.mp hmem
  have hv := (hstreams event.streamId i hi).1
  rw [heq] at hv
  refine ⟨by omega, List.getElem?_eq_some_iff.mpr ⟨by omega, ?_⟩⟩
  simp only [hv, Nat.add_sub_cancel]
  exact heq

/-- Deliveries of committed events start at any time, and histories grow. -/
def deliveries [Crates.Lawful] :
    Pool.Rules (protocol session) (Except ReadModelProcessingError Unit) RecordedEvent where
  start w event p := event ∈ w.streams event.streamId ∧ p = (domain session event).run
  env w w' := w'.entries = w.entries ∧ w'.revisions = w.revisions ∧
    ∀ s, w.streams s <+: w'.streams s ∧ IsHistory s (w'.streams s)
  post _ _ _ _ := True
  start_safe w event p hI := by
    rintro ⟨hmem, rfl⟩
    exact Program.Safe.mono (domain_safe (delivered_of_mem hI.streams hmem)) fun _ _ _ _ _ =>
      trivial
  env_keeps w w' hI := by
    rintro ⟨hentries, hrevisions, hstreams⟩
    refine ⟨⟨fun s => (hstreams s).2, ?_, ?_⟩, ⟨fun s => (hstreams s).1, hrevisions.ge, ?_⟩⟩
    · rw [hentries, hrevisions]
      exact hI.revisions
    · rw [hentries]
      exact fun key entry hl => (hI.entries key entry hl).later fun s => (hstreams s).1
    · rw [hentries]
      exact fun key entry hl => ⟨entry, hl, le_rfl, fun _ => rfl, fun _ => le_rfl⟩

/-! ## The calls of one delivery -/

section Calls

variable {session} {resources : Resources M} {key : ReadModelKey} {calls : List (World M × World M)}
  {I : World M → Prop}

/-- No call changed the store, or the last one did, by a write for the delivered version. If the
delivery then failed, it is with the error of that write, and this is no conflict. -/
def ChangedOnce (key : ReadModelKey) (source : SourceName) (version : Nat)
    (calls : List (World M × World M)) (b : Except ReadModelProcessingError Unit) : Prop :=
  Program.Unchanged calls ∨ ∃ before w state, calls = before ++ [(w, w.put key state)] ∧
    Program.Unchanged before ∧ state.position source = version ∧
    ∀ e, b = .error e → ∃ lost, e = .storage lost ∧ lost.kind ≠ .conflict

omit [Crates] [Inhabited M] in
/-- A write is one call; if its answer is a conflict, it was not applied. -/
theorem write_runs {revision : Option Nat} {state : ReadModelState M}
    {b : Except ReadModelProcessingError (Except ReadModelError Nat)}
    (h : Program.Runs (guarded I) (write key revision state).run calls b) :
    ∃ w w' answer, calls = [(w, w')] ∧ b = .ok answer ∧
      (w' = w ∨ w' = w.put key state ∧ ∀ e, answer = .error e → e.kind ≠ .conflict) := by
  obtain ⟨first, rest, answer, rfl, hp, hf⟩ := Program.Runs.bind_inv h
  obtain ⟨rfl, rfl⟩ := Program.Runs.done_iff.mp hf
  have hack {n : Nat} (h : World.Acknowledged n answer) :
      ∀ e, answer = .error e → e.kind ≠ .conflict := by
    rintro e rfl
    obtain h | ⟨e', he', hne⟩ := h
    · cases h
    · obtain rfl := Except.error.inj he'
      exact hne
  cases revision with
  | none =>
    obtain ⟨w, w', rfl, he⟩ := Program.Runs.perform_inv hp
    refine ⟨w, w', answer, rfl, rfl, ?_⟩
    obtain ⟨rfl, -⟩ | ⟨-, rfl, hanswer⟩ := he
    · exact .inl rfl
    · exact .inr ⟨rfl, hack hanswer⟩
  | some revision =>
    obtain ⟨w, w', rfl, he⟩ := Program.Runs.perform_inv hp
    refine ⟨w, w', answer, rfl, rfl, ?_⟩
    obtain ⟨rfl, -⟩ | ⟨-, -, -, rfl, hanswer⟩ := he
    · exact .inl rfl
    · exact .inr ⟨rfl, hack hanswer⟩

/-- The tries of a delivery change the store at most once, by the last call. -/
theorem mutateLoop_runs {source : SourceName} {version : Nat} {apply : M → Nat → Delivery M M}
    (happly : ∀ m applied calls b,
      Program.Runs (guarded I) (apply m applied).run calls b → Program.Unchanged calls)
    {tries : Nat} {b : Except ReadModelProcessingError Unit}
    (h : Program.Runs (guarded I) (mutateLoop key source version apply tries).run calls b) :
    ChangedOnce key source version calls b := by
  induction tries generalizing calls with
  | zero =>
    obtain ⟨rfl, -⟩ := Program.Runs.done_iff.mp h
    exact .inl (by simp [Program.Unchanged])
  | succ tries ih =>
    obtain ⟨e, rfl, hread⟩ | ⟨first, rest₁, entry, rfl, hread, h₁⟩ := Program.Runs.bindE_inv h
    · exact .inl (read_runs hread)
    have hfirst := read_runs hread
    obtain ⟨_, -, rfl, -⟩ | ⟨_, -, h₂⟩ := Program.Runs.liftBind_inv h₁
    · exact .inl (hfirst.append (by simp [Program.Unchanged]))
    dsimp only at h₂
    split at h₂
    · obtain ⟨rfl, -⟩ := Program.Runs.done_iff.mp h₂
      exact .inl (hfirst.append (by simp [Program.Unchanged]))
    obtain ⟨e, rfl, hvalue⟩ | ⟨second, rest₃, value, rfl, hvalue, h₃⟩ :=
      Program.Runs.bindE_inv h₂
    · exact .inl (hfirst.append (happly _ _ _ _ hvalue))
    have hbefore := hfirst.append (happly _ _ _ _ hvalue)
    rw [← List.append_assoc]
    obtain ⟨e, rfl, hwrite⟩ | ⟨third, rest₄, answer, rfl, hwrite, h₄⟩ := Program.Runs.bindE_inv h₃
    · obtain ⟨_, _, _, -, h, -⟩ := write_runs hwrite
      cases h
    obtain ⟨w, w', _, rfl, hanswer, hw⟩ := write_runs hwrite
    obtain rfl := Except.ok.inj hanswer
    -- without a conflict the write is the last call
    have hlast (hrest : rest₄ = [])
        (hb : ∀ e, b = .error e → ∃ lost, e = .storage lost ∧ lost.kind ≠ .conflict) :
        ChangedOnce key source version ((first ++ second) ++ ([(w, w')] ++ rest₄)) b := by
      subst hrest
      obtain rfl | ⟨rfl, -⟩ := hw
      · exact .inl (hbefore.append (by simp [Program.Unchanged]))
      · exact .inr ⟨_, w, _, rfl, hbefore, by rw [position_advance, if_pos rfl], hb⟩
    cases answer with
    | ok =>
      obtain ⟨hrest, rfl⟩ := Program.Runs.done_iff.mp h₄
      exact hlast hrest (by rintro e ⟨⟩)
    | error e =>
      dsimp only at h₄
      split at h₄
      · next hconflict =>
        obtain rfl | ⟨-, hne⟩ := hw
        · have hbefore' : Program.Unchanged ((first ++ second) ++ [(w', w')]) :=
            hbefore.append (by simp [Program.Unchanged])
          rw [← List.append_assoc]
          obtain hsame | ⟨before, w, state, rfl, hunchanged, hpos⟩ := ih h₄
          · exact .inl (hbefore'.append hsame)
          · exact .inr ⟨_, w, state, (List.append_assoc ..).symm, hbefore'.append hunchanged, hpos⟩
        · exact absurd hconflict (hne e rfl)
      · next hother =>
        obtain ⟨hrest, rfl⟩ := Program.Runs.done_iff.mp h₄
        exact hlast hrest fun e' he' => ⟨e, (Except.error.inj he').symm, hother⟩

/-- A delivery changes the store at most once, by its last call: a write of the event's key. -/
theorem domain_runs {event : RecordedEvent} {b : Except ReadModelProcessingError Unit}
    (h : Program.Runs (protocol session) (domain session event).run calls b) :
    Program.Unchanged calls ∨ ∃ key, routed session key event ∧
      ChangedOnce key (sourceName session event.streamId) event.streamVersion calls b := by
  have hnil : Program.Unchanged ([] : List (World M × World M)) := by simp [Program.Unchanged]
  obtain ⟨_, -, rfl, -⟩ | ⟨resources, hres, h₁⟩ := Program.Runs.liftBind_inv h
  · exact .inl hnil
  obtain ⟨_, -, rfl, -⟩ | ⟨r, hred, h₂⟩ := Program.Runs.liftBind_inv h₁
  · exact .inl hnil
  obtain ⟨_, -, rfl, -⟩ | ⟨key, hkey, h₃⟩ := Program.Runs.liftBind_inv h₂
  · exact .inl hnil
  obtain ⟨_, -, rfl, -⟩ | ⟨_, -, h₄⟩ := Program.Runs.liftBind_inv h₃
  · exact .inl hnil
  obtain ⟨_, -, rfl, -⟩ | ⟨_, -, h₅⟩ := Program.Runs.liftBind_inv h₄
  · exact .inl hnil
  have hrouted : routed session key event := by
    simp [routed, reducer_eq (okOr_eq_ok.mp hres), okOr_eq_ok.mp hred, hkey]
  exact .inr ⟨key, hrouted, mutateLoop_runs (fun _ _ _ _ => domainMutation_runs) h₅⟩

end Calls

/-! ## All deliveries -/

/-- The state before any delivery: histories, and no envelope. -/
def World.start (streams : StreamId → List RecordedEvent) : World M := ⟨∅, 0, streams⟩

theorem inv_start {streams : StreamId → List RecordedEvent}
    (h : ∀ s, IsHistory s (streams s)) : (World.start streams : World M).Inv session where
  streams := h
  revisions _ _ hl := by simp [World.start] at hl
  entries _ _ hl := by simp [World.start] at hl

/-- Whatever deliveries run and in whatever order: every stored envelope is materialized; its
positions never go back; and a delivery that failed left the store as it was, unless its last call
was a write that was applied and whose answer was lost. -/
theorem deliveries_sound [Crates.Lawful] {streams : StreamId → List RecordedEvent}
    (hstreams : ∀ s, IsHistory s (streams s))
    {pool : Pool (Operation M) Answer (Except ReadModelProcessingError Unit) (World M)
      RecordedEvent}
    (h : Pool.Reachable (deliveries session) (.start streams) pool) :
    (∀ key entry, pool.shared.entries.lookup key = some entry →
      Materialized session pool.shared key entry.state) ∧
    (∀ pool', Relation.ReflTransGen (Pool.Step (deliveries session)) pool pool' →
      ∀ key entry, pool.shared.entries.lookup key = some entry →
        ∃ entry', pool'.shared.entries.lookup key = some entry' ∧
          ∀ s, streamPosition session entry.state s ≤ streamPosition session entry'.state s) ∧
    ∀ event calls e, ⟨event, calls, .done (.error e)⟩ ∈ pool.processes →
      Program.Unchanged calls ∨ ∃ key, routed session key event ∧
        ChangedOnce key (sourceName session event.streamId) event.streamVersion calls
          (.error e) := by
  have hsound := Pool.Reachable.sound (inv_start session hstreams) h
  refine ⟨hsound.inv.entries, fun pool' hrun key entry hl => ?_, fun event calls e hp => ?_⟩
  · obtain ⟨entry', hl', -, -, hpos⟩ := (hsound.run hrun).2.entries key entry hl
    exact ⟨entry', hl', fun s => hpos _⟩
  · obtain ⟨w, q, ⟨-, rfl⟩, hruns⟩ := h.runs hp
    exact domain_runs hruns

/-! ## A first delivery, with and without its answer -/

omit [Crates] in
/-- A first delivery for a new key: it reads, and creates the envelope. -/
theorem mutateLoop_runs_first {I : World M → Prop} {key : ReadModelKey} {source : SourceName}
    {version tries : Nat} {apply : M → Nat → Delivery M M} {value : M} {w : World M}
    {answer : Except ReadModelError Nat} (hversion : 0 < version) (htries : tries ≠ 0)
    (happly : Program.Runs (guarded I) (apply default 0).run [] (.ok value))
    (habsent : w.entries.lookup key = none)
    (hanswer : World.Acknowledged (w.revisions + 1) answer) :
    Program.Runs (guarded I) (mutateLoop key source version apply tries).run
      [(w, w), (w, w.put key (ReadModelState.default.advance source version value))]
      ((answer.mapError ReadModelProcessingError.storage).map fun _ => ()) := by
  obtain ⟨tries, rfl⟩ := Nat.exists_eq_succ_of_ne_zero htries
  have hread : Program.Runs (guarded I) (read key).run [(w, w)] (.ok none) := by
    have hanswer : w.exec (.read key) (.ok (w.entries.lookup key)) w := ⟨rfl, .inl rfl⟩
    rw [habsent] at hanswer
    exact .call hanswer .done
  have hwrite : w.exec (.create key (ReadModelState.default.advance source version value)) answer
      (w.put key (ReadModelState.default.advance source version value)) :=
    .inr ⟨habsent, rfl, hanswer⟩
  refine .bindE hread (.liftBind (a := ()) rfl ?_)
  have hzero : (ReadModelState.default : ReadModelState M).position source = 0 := rfl
  dsimp only [Option.elim_none, Option.map_none]
  rw [hzero, if_neg (by omega)]
  refine .bindE happly (.call hwrite ?_)
  cases answer with
  | ok => exact .done
  | error e =>
    have hne : e.kind ≠ .conflict := by
      obtain h | ⟨e', he', hne⟩ := hanswer
      · cases h
      · rwa [Except.error.inj he']
    show Program.Runs (guarded I) (if e.kind = .conflict then _ else throw _ :
      Delivery M Unit).run [] _
    rw [if_neg hne]
    exact .done

/-- The first delivery of a stream for a new key. -/
theorem first_delivery_runs {session : Session M} {resources : Resources M}
    {event : RecordedEvent} {r : DomainReducer M} {key : ReadModelKey} {value : M}
    {w : World M} {answer : Except ReadModelError Nat}
    (hres : session.resources = some resources) (hretries : session.retries ≠ 0)
    (hred : resources.reducer event = some r) (hkey : r.key event = .ok key)
    (hversion : event.streamVersion = 1) (happly : r.apply default event = .ok value)
    (habsent : w.entries.lookup key = none)
    (hanswer : World.Acknowledged (w.revisions + 1) answer) :
    Program.Runs (protocol session) (domain session event).run
      [(w, w), (w, w.put key
        (ReadModelState.default.advance (sourceName session event.streamId) 1 value))]
      ((answer.mapError ReadModelProcessingError.storage).map fun _ => ()) := by
  have hconnected : connected session = .ok resources := okOr_eq_ok.mpr hres
  have hmutation : Program.Runs (guarded (World.Inv session))
      (domainMutation resources r event key (default : M) 0).run [] (.ok value) := by
    have hnext : checkedAdd 0 1 = some event.streamVersion := by rw [hversion]; rfl
    rw [domainMutation, if_pos hnext, happly]
    exact .done
  refine .liftBind hconnected (.liftBind (okOr_eq_ok.mpr hred) (.liftBind hkey ?_))
  refine .liftBind (a := ()) (by simp [hversion]) (.liftBind hconnected ?_)
  rw [hversion]
  exact mutateLoop_runs_first Nat.one_pos hretries hmutation habsent hanswer

end Rostfrei.ReadModel

/-! ## A counter of events -/

namespace Rostfrei.ReadModel

open Lib

attribute [local instance] Crates.concrete

def totalKey : ReadModelKey := ⟨"total", by decide +kernel⟩

/-- Counts the events of accounts under one key. -/
def counter : DomainReducer Nat := ⟨fun _ => .ok totalKey, fun n _ => .ok (n + 1)⟩

def counterResources : Resources Nat := ⟨true, Finmap.singleton ("account", "opened") counter⟩

def counterSession : Session Nat := ⟨Sample.context, some counterResources, 3⟩

/-- The histories of the sample account. -/
def sampleStreams (s : StreamId) : List RecordedEvent :=
  if s = Sample.stream then [Sample.event] else []

theorem isHistory_sampleStreams (s : StreamId) : IsHistory s (sampleStreams s) := by
  unfold sampleStreams
  split
  · next h =>
    intro i hi
    obtain rfl : i = 0 := by simpa using hi
    exact ⟨rfl, h.symm⟩
  · intro i hi
    simp at hi

/-- The store before and after the delivery of the sample event. -/
def uncounted : World Nat := .start sampleStreams

def counted : World Nat := uncounted.put totalKey
  (ReadModelState.default.advance (sourceName counterSession Sample.stream) 1 1)

local instance : Crates.Lawful := Crates.concrete_lawful

/-- The delivery of the sample event is applied, whatever becomes of the answer. -/
theorem counted_reachable {answer : Except ReadModelError Nat}
    (hanswer : World.Acknowledged 1 answer) :
    Pool.Reachable (deliveries counterSession) uncounted
      ⟨counted, [⟨Sample.event, [(uncounted, uncounted), (uncounted, counted)],
        .done ((answer.mapError ReadModelProcessingError.storage).map fun _ => ())⟩]⟩ := by
  have hred : counterResources.reducer Sample.event = some counter :=
    Finmap.lookup_singleton_eq
  have hruns : Program.Runs (protocol counterSession) (domain counterSession Sample.event).run
      [(uncounted, uncounted), (uncounted, counted)]
      ((answer.mapError ReadModelProcessingError.storage).map fun _ => ()) :=
    first_delivery_runs rfl (by decide) hred rfl rfl rfl (Finmap.lookup_empty _) hanswer
  have hmem : Sample.event ∈ uncounted.streams Sample.event.streamId := by
    simp [uncounted, World.start, sampleStreams, Sample.event, RecordedEvent.fromNew]
  exact .head (.start ⟨hmem, rfl⟩) (Pool.run_alone Sample.event [] hruns ⟨rfl, rfl, rfl⟩)

/-- A delivery whose answer was lost fails, and has changed the store. -/
theorem failed_delivery_changes_store :
    ∃ pool, Pool.Reachable (deliveries counterSession) uncounted pool ∧
      (∃ calls e, pool.processes = [⟨Sample.event, calls, .done (.error e)⟩]) ∧
      uncounted.entries.lookup totalKey = none ∧
      (pool.shared.entries.lookup totalKey).map (·.state.value) = some 1 := by
  have hlost : World.Acknowledged 1
      (.error ⟨.unavailable, "lost persistence acknowledgement"⟩) :=
    .inr ⟨_, rfl, by decide⟩
  refine ⟨_, counted_reachable hlost, ⟨_, _, rfl⟩, Finmap.lookup_empty _, ?_⟩
  simp [counted, World.put, ReadModelState.advance]

/-- The delivery of the sample event, with its answer. -/
theorem deliveries_sound_counter :
    (∀ key entry, counted.entries.lookup key = some entry →
      Materialized counterSession counted key entry.state) ∧
    (∀ pool', Relation.ReflTransGen (Pool.Step (deliveries counterSession))
        ⟨counted, [⟨Sample.event, [(uncounted, uncounted), (uncounted, counted)], .done (.ok ())⟩]⟩
        pool' →
      ∀ key entry, counted.entries.lookup key = some entry →
        ∃ entry', pool'.shared.entries.lookup key = some entry' ∧
          ∀ s, streamPosition counterSession entry.state s ≤
            streamPosition counterSession entry'.state s) ∧
    ∀ event calls e, ⟨event, calls, .done (.error e)⟩ ∈
        [(⟨Sample.event, [(uncounted, uncounted), (uncounted, counted)], .done (.ok ())⟩ :
          Process (Operation Nat) Answer (Except ReadModelProcessingError Unit) (World Nat)
            RecordedEvent)] →
      Program.Unchanged calls ∨ ∃ key, routed counterSession key event ∧
        ChangedOnce key (sourceName counterSession event.streamId) event.streamVersion calls
          (.error e) :=
  deliveries_sound counterSession isHistory_sampleStreams (counted_reachable (.inl rfl))

end Rostfrei.ReadModel
