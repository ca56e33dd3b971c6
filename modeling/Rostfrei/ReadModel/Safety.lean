import Rostfrei.ReadModel.Runtime

/-!
# Read models under concurrent deliveries

The store and the event history that deliveries share (`World`), what their calls can do
(`World.exec`: a call may fail, and an applied write may be answered with an error), and the
protocol that every delivery keeps.

`Materialized` says what a stored envelope is: a fold of events in which every source stream
appears as its handled events of the key, in order and once each, up to the recorded position.
-/

namespace Rostfrei.ReadModel

open Lib

variable {M : Type}

/-! ## The shared state -/

/-- The stored envelopes, the number of writes, and the authoritative history of every stream. -/
structure World (M : Type) where
  entries : Map ReadModelKey (ReadModelEntry M)
  revisions : Nat
  streams : StreamId → List RecordedEvent

namespace World

/-- A write: the new envelope has a revision of its own. -/
def put (w : World M) (key : ReadModelKey) (state : ReadModelState M) : World M :=
  { w with
    entries := w.entries.insert key ⟨state, w.revisions + 1⟩
    revisions := w.revisions + 1 }

/-- The answers to a write that was applied: its revision, or an error if that answer was lost. A
conflict means that the write was not applied. -/
def Acknowledged (revision : Nat) (answer : Except ReadModelError Nat) : Prop :=
  answer = .ok revision ∨ ∃ e, answer = .error e ∧ e.kind ≠ .conflict

/-- What a call can do. Every call may fail; a creation is applied only to an absent key, an update
only to the revision it names. -/
def exec (w : World M) : (op : Operation M) → Answer op → World M → Prop
  | .read key, r, w' => w' = w ∧ (r = .ok (w.entries.lookup key) ∨ ∃ e, r = .error e)
  | .create key state, r, w' =>
    (w' = w ∧ ∃ e, r = .error e) ∨
      (w.entries.lookup key = none ∧ w' = w.put key state ∧ Acknowledged (w.revisions + 1) r)
  | .update key revision state, r, w' =>
    (w' = w ∧ ∃ e, r = .error e) ∨
      ∃ entry, w.entries.lookup key = some entry ∧ entry.revision = revision ∧
        w' = w.put key state ∧ Acknowledged (w.revisions + 1) r
  | .load streamId, r, w' => w' = w ∧ (r = .ok (w.streams streamId) ∨ ∃ e, r = .error e)

end World

/-- A history: the events of the stream, with versions from one on. -/
def IsHistory (streamId : StreamId) (events : List RecordedEvent) : Prop :=
  ∀ i (h : i < events.length), events[i].streamVersion = i + 1 ∧ events[i].streamId = streamId

/-! ## What a stored value is -/

variable (session : Session M)

/-- The reducer of an event. -/
def reducer (event : RecordedEvent) : Option (DomainReducer M) :=
  session.resources.bind (·.reducer event)

/-- The event is handled and its key is `key`. -/
def routed (key : ReadModelKey) (event : RecordedEvent) : Bool :=
  match reducer session event with
  | none => false
  | some r =>
    match r.key event with
    | .ok k => k = key
    | .error _ => false

/-- The change of an event. -/
def applyEvent (model : M) (event : RecordedEvent) : Except ReadModelProcessingError M :=
  match reducer session event with
  | some r => r.apply model event
  | none => .ok model

variable [Crates]

/-- The position of a stream in an envelope. -/
def streamPosition (state : ReadModelState M) (streamId : StreamId) : Nat :=
  state.position (sourceName session streamId)

/-- The value is the fold of a list of events that has, of every stream, exactly the events of the
key up to the recorded position, in order. -/
def Materialized [Inhabited M] (w : World M) (key : ReadModelKey) (state : ReadModelState M) :
    Prop :=
  ∃ events : List RecordedEvent, events.foldlM (applyEvent session) default = .ok state.value ∧
    ∀ streamId, streamPosition session state streamId ≤ (w.streams streamId).length ∧
      events.filter (·.streamId = streamId) =
        ((w.streams streamId).take (streamPosition session state streamId)).filter
          (routed session key)

/-! ## The protocol -/

/-- Histories are histories, revisions are in the past, and every envelope is materialized. -/
structure World.Inv [Inhabited M] (w : World M) : Prop where
  streams : ∀ s, IsHistory s (w.streams s)
  revisions : ∀ key entry, w.entries.lookup key = some entry → entry.revision ≤ w.revisions
  entries : ∀ key entry, w.entries.lookup key = some entry → Materialized session w key entry.state

omit [Crates] in
/-- Histories only grow; an envelope stays, and one that changes has a later revision and no
earlier position. -/
structure World.Grows (w w' : World M) : Prop where
  streams : ∀ s, w.streams s <+: w'.streams s
  revisions : w.revisions ≤ w'.revisions
  entries : ∀ key entry, w.entries.lookup key = some entry →
    ∃ entry', w'.entries.lookup key = some entry' ∧ entry.revision ≤ entry'.revision ∧
      (entry'.revision = entry.revision → entry' = entry) ∧
      ∀ source, entry.state.position source ≤ entry'.state.position source

omit [Crates] in
theorem World.Grows.refl (w : World M) : w.Grows w where
  streams _ := List.prefix_rfl
  revisions := le_rfl
  entries _ entry h := ⟨entry, h, le_rfl, fun _ => rfl, fun _ => le_rfl⟩

omit [Crates] in
theorem World.Grows.trans {w₁ w₂ w₃ : World M} (h : w₁.Grows w₂) (h' : w₂.Grows w₃) :
    w₁.Grows w₃ where
  streams s := (h.streams s).trans (h'.streams s)
  revisions := h.revisions.trans h'.revisions
  entries key entry₁ h₁ := by
    obtain ⟨entry₂, h₂, hrev, hsame, hpos⟩ := h.entries key entry₁ h₁
    obtain ⟨entry₃, h₃, hrev', hsame', hpos'⟩ := h'.entries key entry₂ h₂
    refine ⟨entry₃, h₃, hrev.trans hrev', fun heq => ?_, fun s => (hpos s).trans (hpos' s)⟩
    have hsecond := hsame' (by omega)
    rw [hsecond, hsame (by rw [hsecond] at heq; exact heq)]

/-- The store and the history under an invariant. -/
def guarded (I : World M → Prop) : Protocol (Operation M) Answer (World M) where
  exec := World.exec
  inv := I
  rely := World.Grows
  rely_refl := World.Grows.refl
  rely_trans := World.Grows.trans

def protocol [Inhabited M] : Protocol (Operation M) Answer (World M) where
  exec := World.exec
  inv := World.Inv session
  rely := World.Grows
  rely_refl := World.Grows.refl
  rely_trans := World.Grows.trans

/-! ## The change of a delivery -/

section Change

variable {session} {resources : Resources M} {key : ReadModelKey}

omit [Crates] in
theorem reducer_eq (hres : session.resources = some resources) (event : RecordedEvent) :
    reducer session event = resources.reducer event := by
  rw [reducer, hres, Option.bind_some]

omit [Crates] in
/-- A record of the catch-up changes the value only if it is of the key. -/
theorem applyRecord_ok (hres : session.resources = some resources) {record : RecordedEvent}
    {m m' : M} (h : applyRecord resources key m record = .ok m') :
    ([record].filter (routed session key)).foldlM (applyEvent session) m = .ok m' := by
  have hred := reducer_eq hres record
  unfold applyRecord at h
  rcases hr : resources.reducer record with _ | r
  · rw [hr] at h hred
    have hrouted : routed session key record = false := by simp [routed, hred]
    simpa [hrouted] using h
  · rw [hr] at h hred
    obtain ⟨k, hk, h⟩ := bind_eq_ok.mp h
    have hrouted : routed session key record = decide (k = key) := by simp [routed, hred, hk]
    by_cases hkey : k = key
    · rw [if_pos hkey] at h
      simp [hrouted, hkey, applyEvent, hred, h]
    · rw [if_neg hkey] at h
      simpa [hrouted, hkey] using h

omit [Crates] in
/-- A catch-up that succeeds applies the records of the key, in order. -/
theorem catchUp_ok (hres : session.resources = some resources) {event : RecordedEvent}
    {records : List RecordedEvent} {p q : Nat} {m m' : M}
    (h : catchUp resources event key p m records = .ok (q, m')) :
    (records.filter (routed session key)).foldlM (applyEvent session) m = .ok m' := by
  induction records generalizing p m with
  | nil =>
    obtain ⟨rfl, rfl⟩ := Prod.mk.inj (Except.ok.inj h)
    rfl
  | cons record rest ih =>
    simp only [catchUp, bind_eq_ok, okOr_eq_ok, rejectIf_eq_ok] at h
    obtain ⟨_, -, -, -, -, -, m₁, hm₁, h⟩ := h
    have hsplit : record :: rest = [record] ++ rest := rfl
    rw [hsplit, List.filter_append, List.foldlM_append, applyRecord_ok hres hm₁]
    exact ih h

omit [Crates] in
/-- In a history, the records between two versions are a segment. -/
theorem filter_versions {events : List RecordedEvent} (base a b : Nat)
    (h : ∀ i (hi : i < events.length), events[i].streamVersion = base + i + 1) :
    events.filter (fun e => a < e.streamVersion && e.streamVersion ≤ b) =
      (events.take (b - base)).drop (a - base) := by
  induction events generalizing base with
  | nil => simp
  | cons e es ih =>
    have he : e.streamVersion = base + 1 := h 0 (by simp)
    have hes := ih (base + 1) fun i hi => by
      have := h (i + 1) (by simpa using hi)
      simp only [List.getElem_cons_succ] at this
      omega
    rw [List.filter_cons, hes, he]
    by_cases hb : base + 1 ≤ b
    · obtain ⟨n, hn⟩ : ∃ n, b - base = n + 1 := ⟨b - base - 1, by omega⟩
      rw [hn, List.take_succ_cons, show b - (base + 1) = n by omega]
      by_cases ha : a < base + 1
      · simp [ha, hb, show a - base = 0 by omega, show a - (base + 1) = 0 by omega]
      · obtain ⟨k, hk⟩ : ∃ k, a - base = k + 1 := ⟨a - base - 1, by omega⟩
        simp [ha, hk, show a - (base + 1) = k by omega]
    · simp [hb, show b - base = 0 by omega, show b - (base + 1) = 0 by omega]

omit [Crates] in
theorem missing_eq {event : RecordedEvent} {s : StreamId} {events : List RecordedEvent}
    (h : IsHistory s events) (applied : Nat) :
    missing event applied events = (events.take event.streamVersion).drop applied := by
  have := filter_versions 0 applied event.streamVersion fun i hi => by simpa using (h i hi).1
  simpa [missing] using this

/-- The event is at its version in the history of its stream. -/
def Delivered (w : World M) (event : RecordedEvent) : Prop :=
  0 < event.streamVersion ∧
    (w.streams event.streamId)[event.streamVersion - 1]? = some event

omit [Crates] in
theorem Delivered.later {w w' : World M} {event : RecordedEvent} (h : Delivered w event)
    (hg : w.Grows w') : Delivered w' event := by
  refine ⟨h.1, ?_⟩
  obtain ⟨rest, hrest⟩ := hg.streams event.streamId
  have hlt : event.streamVersion - 1 < (w.streams event.streamId).length :=
    (List.getElem?_eq_some_iff.mp h.2).1
  rw [← hrest, List.getElem?_append_left hlt]
  exact h.2

omit [Crates] in
theorem Delivered.length_le {w : World M} {event : RecordedEvent} (h : Delivered w event) :
    event.streamVersion ≤ (w.streams event.streamId).length := by
  have := (List.getElem?_eq_some_iff.mp h.2).1
  have := h.1
  omega

omit [Crates] in
/-- The events of a stream between a position and the delivered version. -/
def segment (w : World M) (event : RecordedEvent) (applied : Nat) : List RecordedEvent :=
  ((w.streams event.streamId).take event.streamVersion).drop applied

omit [Crates] in
theorem segment_later {w w' : World M} {event : RecordedEvent} (h : Delivered w event)
    (hg : w.Grows w') (applied : Nat) : segment w' event applied = segment w event applied := by
  obtain ⟨rest, hrest⟩ := hg.streams event.streamId
  rw [segment, ← hrest, List.take_append_of_le_length h.length_le]
  rfl

omit [Crates] in
theorem segment_next {w : World M} {event : RecordedEvent} {applied : Nat}
    (h : Delivered w event) (hnext : applied + 1 = event.streamVersion) :
    segment w event applied = [event] := by
  have hget := h.2
  rw [← hnext, Nat.add_sub_cancel] at hget
  rw [segment, ← hnext, List.take_add_one, hget, List.drop_append_of_le_length]
  · simp
  · rw [List.length_take]
    have := (List.getElem?_eq_some_iff.mp hget).1
    omega

omit [Crates] in
theorem streamId_of_mem_segment {w : World M} {event e : RecordedEvent} {applied : Nat}
    (hhistory : ∀ s, IsHistory s (w.streams s)) (he : e ∈ segment w event applied) :
    e.streamId = event.streamId := by
  have hmem : e ∈ w.streams event.streamId := List.mem_of_mem_take (List.mem_of_mem_drop he)
  obtain ⟨i, hi, rfl⟩ := List.mem_iff_getElem.mp hmem
  exact (hhistory event.streamId i hi).2

/-- The new value is the old one with the events of the segment that are of the key. -/
def Advances (session : Session M) (key : ReadModelKey) (event : RecordedEvent) (applied : Nat)
    (m m' : M) (w : World M) : Prop :=
  ((segment w event applied).filter (routed session key)).foldlM (applyEvent session) m = .ok m'

omit [Crates] in
theorem Advances.later {event : RecordedEvent} {applied : Nat} {m m' : M} {w w' : World M}
    (h : Advances session key event applied m m' w) (hd : Delivered w event) (hg : w.Grows w') :
    Advances session key event applied m m' w' := by
  rw [Advances, segment_later hd hg]
  exact h

section Guarded

variable {I : World M → Prop}

omit [Crates] in
/-- A load gives the history of its moment. -/
theorem load_safe {streamId : StreamId} {Q : List RecordedEvent → World M → Prop}
    {w : World M} (h : ∀ w₁, w.Grows w₁ → I w₁ →
      Program.Lasting (guarded I) (Q (w₁.streams streamId)) w₁) :
    Program.SafeE (guarded I) (fun _ => Q) (fun _ _ _ => True) (load streamId) w := by
  refine Program.SafeE.adapt (Program.Safe.perform (Operation.load streamId) fun w₁ hg hI r w₂ he => ?_)
  obtain ⟨rfl, rfl | ⟨e, rfl⟩⟩ := he
  · exact ⟨hI, .refl w₂, fun w₃ hg₃ _ => (h w₂ hg hI).later hg₃⟩
  · exact ⟨hI, .refl w₂, fun _ _ _ _ _ _ => trivial⟩

omit [Crates] in
/-- A change of a delivered event gives the value of its version. -/
theorem domainMutation_safe (hhistory : ∀ w, I w → ∀ s, IsHistory s (w.streams s))
    (hres : session.resources = some resources)
    {event : RecordedEvent} {r : DomainReducer M} (hred : resources.reducer event = some r)
    (hkey : r.key event = .ok key) (m : M) (applied : Nat) {w : World M}
    (hd : Delivered w event) :
    Program.SafeE (guarded I) (fun _ m' w => Advances session key event applied m m' w)
      (fun _ _ _ => True) (domainMutation resources r event key m applied) w := by
  have hrouted : routed session key event = true := by
    simp [routed, reducer_eq hres, hred, hkey]
  unfold domainMutation
  by_cases hnext : checkedAdd applied 1 = some event.streamVersion
  · rw [if_pos hnext]
    refine Program.SafeE.lift (fun m' hm' w' hg _ => ?_) (fun _ _ _ _ _ => trivial)
    have hsucc : applied + 1 = event.streamVersion := (checkedAdd_eq_some.mp hnext).2
    rw [Advances, segment_next (hd.later hg) hsucc]
    simp [hrouted, applyEvent, reducer_eq hres, hred, hm']
  · rw [if_neg hnext]
    split
    · exact fun _ _ _ => trivial
    refine .bind (load_safe fun w₁ hg₁ hI₁ w₂ hg₂ _ => ?_)
    have hd₁ := hd.later hg₁
    refine .bind (.lift (fun ⟨q, m'⟩ hm' w₃ hg₃ _ => ?_) fun _ _ _ _ _ => trivial)
    have hadv : Advances session key event applied m m' w₁ := by
      have := catchUp_ok hres hm'
      rwa [missing_eq (hhistory w₁ hI₁ event.streamId)] at this
    have hadv₃ := hadv.later hd₁ (hg₂.trans hg₃)
    have hd₃ := hd₁.later (hg₂.trans hg₃)
    simp only
    split
    · exact fun _ _ _ => trivial
    · exact fun w₄ hg₄ _ => hadv₃.later hd₃ hg₄

/-! ## Calls that only read -/

omit [Crates] in
theorem load_runs {streamId : StreamId} {calls : Program.Calls (World M)}
    {b : Except ReadModelProcessingError (List RecordedEvent)}
    (h : Program.Runs (guarded I) (load streamId).run calls b) : Program.Unchanged calls := by
  obtain ⟨r, hr, -⟩ := Program.Runs.adapt_inv h
  obtain ⟨w, w', rfl, rfl, -⟩ := Program.Runs.perform_inv hr
  simp [Program.Unchanged]

omit [Crates] in
theorem read_runs {calls : Program.Calls (World M)}
    {b : Except ReadModelProcessingError (Option (ReadModelEntry M))}
    (h : Program.Runs (guarded I) (read key).run calls b) : Program.Unchanged calls := by
  obtain ⟨r, hr, -⟩ := Program.Runs.adapt_inv h
  obtain ⟨w, w', rfl, rfl, -⟩ := Program.Runs.perform_inv hr
  simp [Program.Unchanged]

omit [Crates] in
theorem domainMutation_runs {r : DomainReducer M} {event : RecordedEvent} {m : M} {applied : Nat}
    {calls : Program.Calls (World M)} {b : Except ReadModelProcessingError M}
    (h : Program.Runs (guarded I) (domainMutation resources r event key m applied).run calls
      b) : Program.Unchanged calls := by
  unfold domainMutation at h
  dsimp only at h
  split at h
  · obtain ⟨rfl, -⟩ := Program.Runs.lift_inv h
    simp [Program.Unchanged]
  split at h
  · obtain ⟨rfl, -⟩ := Program.Runs.done_iff.mp h
    simp [Program.Unchanged]
  obtain ⟨e, rfl, hload⟩ | ⟨first, rest, records, rfl, hload, hrest⟩ := Program.Runs.bindE_inv h
  · exact load_runs hload
  refine (load_runs hload).append ?_
  obtain ⟨_, -, rfl, -⟩ | ⟨⟨q, m'⟩, -, hend⟩ := Program.Runs.liftBind_inv hrest
  · simp [Program.Unchanged]
  · dsimp only at hend
    split at hend <;>
    · obtain ⟨rfl, -⟩ := Program.Runs.done_iff.mp hend
      simp [Program.Unchanged]

/-! ## The loop -/

omit [Crates] in
theorem position_advance (state : ReadModelState M) (source source' : SourceName) (version : Nat)
    (value : M) : (state.advance source version value).position source' =
      if source' = source then version else state.position source' := by
  unfold ReadModelState.position ReadModelState.advance
  split
  · next h => rw [h, Finmap.lookup_insert]; rfl
  · next h => rw [Finmap.lookup_insert_of_ne _ h]

omit [Crates] in
/-- The position of a source in the stored envelope of a key; zero if there is none. -/
def storedPosition (w : World M) (key : ReadModelKey) (source : SourceName) : Nat :=
  (w.entries.lookup key).elim 0 (·.state.position source)

omit [Crates] in
theorem storedPosition_eq [Inhabited M] (w : World M) (source : SourceName) :
    storedPosition w key source =
      ((w.entries.lookup key).elim ReadModelState.default (·.state)).position source := by
  unfold storedPosition
  cases w.entries.lookup key <;> rfl

omit [Crates] in
theorem World.Grows.storedPosition_le {w w' : World M} (h : w.Grows w') (source : SourceName) :
    storedPosition w key source ≤ storedPosition w' key source := by
  unfold storedPosition
  rcases hl : w.entries.lookup key with _ | entry
  · exact Nat.zero_le _
  · obtain ⟨entry', hl', -, -, hpos⟩ := h.entries key entry hl
    rw [hl']
    exact hpos source

omit [Crates] in
/-- A write that raises a position of the envelope that is there is within what others expect. -/
theorem put_grows [Inhabited M] {w : World M} {state : ReadModelState M} {source : SourceName}
    {version : Nat} {value : M}
    (hrevisions : ∀ key entry, w.entries.lookup key = some entry → entry.revision ≤ w.revisions)
    (hbase : (w.entries.lookup key).elim .default (·.state) = state)
    (hlt : state.position source < version) :
    w.Grows (w.put key (state.advance source version value)) := by
  refine ⟨fun _ => List.prefix_rfl, Nat.le_succ _, fun k entry hl => ?_⟩
  simp only [World.put]
  by_cases hk : k = key
  · subst hk
    have hrev := hrevisions k entry hl
    refine ⟨_, Finmap.lookup_insert _, hrev.trans (Nat.le_succ _), fun heq => ?_, fun source => ?_⟩
    · simp only at heq
      omega
    · rw [hl] at hbase
      simp only [Option.elim_some] at hbase
      rw [hbase, position_advance]
      split
      · next hs => rw [hs]; exact hlt.le
      · exact le_rfl
  · exact ⟨entry, by rw [Finmap.lookup_insert_of_ne _ hk]; exact hl, le_rfl, fun _ => rfl,
      fun _ => le_rfl⟩

omit [Crates] in
/-- What holds of the new envelope, and of the others as before, holds of all after a write. -/
theorem put_entries {w : World M} {state : ReadModelState M}
    {R : ReadModelKey → ReadModelEntry M → Prop} (hnew : R key ⟨state, w.revisions + 1⟩)
    (hold : ∀ k entry, w.entries.lookup k = some entry → R k entry) :
    ∀ k entry, (w.put key state).entries.lookup k = some entry → R k entry := by
  intro k entry hl
  simp only [World.put] at hl
  by_cases hk : k = key
  · rw [hk, Finmap.lookup_insert, Option.some.injEq] at hl
    rw [← hl, hk]
    exact hnew
  · rw [Finmap.lookup_insert_of_ne _ hk] at hl
    exact hold k entry hl

omit [Crates] in
/-- A read gives the entry of its moment. -/
theorem read_safe {Q : Option (ReadModelEntry M) → World M → Prop} {w : World M}
    (h : ∀ w₁, w.Grows w₁ → I w₁ →
      Program.Lasting (guarded I) (Q (w₁.entries.lookup key)) w₁) :
    Program.SafeE (guarded I) (fun _ => Q) (fun _ _ _ => True) (read key) w := by
  refine Program.SafeE.adapt (Program.Safe.perform (Operation.read key) fun w₁ hg hI r w₂ he => ?_)
  obtain ⟨rfl, rfl | ⟨e, rfl⟩⟩ := he
  · exact ⟨hI, .refl w₂, fun w₃ hg₃ _ => (h w₂ hg hI).later hg₃⟩
  · exact ⟨hI, .refl w₂, fun _ _ _ _ _ _ => trivial⟩

omit [Crates] in
/-- A write that is applied replaces the entry that was read; its positions are then there. `G` is
what such a call is. -/
theorem write_safe {state : ReadModelState M} {G : World M × World M → Prop} {w₁ w : World M}
    (hg : w₁.Grows w)
    (h : ∀ w₂, w.Grows w₂ → I w₂ → w₂.entries.lookup key = w₁.entries.lookup key →
      I (w₂.put key state) ∧ w₂.Grows (w₂.put key state) ∧ G (w₂, w₂.put key state)) :
    Program.Guarantees (guarded I) (fun c => c.2 = c.1 ∨ G c)
      (fun r w => ∀ n, r = .ok n → ∀ source,
        state.position source ≤ storedPosition w key source)
      (fun _ _ => True) (write key ((w₁.entries.lookup key).map (·.revision)) state) w := by
  have hthere : ∀ w₂ : World M, ∀ r : Except ReadModelError Nat, Program.Lasting (guarded I)
      (fun w => ∀ n, r = .ok n → ∀ source, state.position source ≤ storedPosition w key source)
      (w₂.put key state) := by
    intro w₂ r w₃ hg₃ _ n _ source
    refine Nat.le_trans ?_ (hg₃.storedPosition_le source)
    rw [storedPosition, World.put, Finmap.lookup_insert]
    exact le_rfl
  refine Program.SafeE.liftP ?_
  rcases hl : w₁.entries.lookup key with _ | entry
  · refine Program.Safe.perform (Operation.create key state) fun w₂ hg₂ hI₂ r w₃ he => ?_
    obtain ⟨rfl, e, rfl⟩ | ⟨hnone, rfl, -⟩ := he
    · exact ⟨hI₂, .refl _, fun _ _ _ => ⟨by simp, fun n hn => by cases hn⟩⟩
    · obtain ⟨hI₃, hg₃, hG⟩ := h w₂ hg₂ hI₂ (hnone.trans hl.symm)
      exact ⟨hI₃, hg₃, fun w₄ hg₄ hI₄ => ⟨by simp [hG], hthere w₂ r w₄ hg₄ hI₄⟩⟩
  · refine Program.Safe.perform (Operation.update key entry.revision state) fun w₂ hg₂ hI₂ r w₃ he => ?_
    obtain ⟨rfl, e, rfl⟩ | ⟨entry₂, hl₂, hrev, rfl, -⟩ := he
    · exact ⟨hI₂, .refl _, fun _ _ _ => ⟨by simp, fun n hn => by cases hn⟩⟩
    · -- the revision that was read is still there, so the entry is the one that was read
      obtain ⟨entry', hl', -, hsame, -⟩ := (hg.trans hg₂).entries key entry hl
      obtain rfl := Option.some.inj (hl'.symm.trans hl₂)
      obtain ⟨hI₃, hg₃, hG⟩ := h w₂ hg₂ hI₂ (by rw [hl₂, hsame hrev, hl])
      exact ⟨hI₃, hg₃, fun w₄ hg₄ hI₄ => ⟨by simp [hG], hthere w₂ r w₄ hg₄ hI₄⟩⟩

omit [Crates] in
/-- The call replaces the envelope that is there by one whose source is at a later version. -/
def Raises [Inhabited M] (key : ReadModelKey) (source : SourceName) (version : Nat)
    (A : M → Nat → M → World M → Prop) (c : World M × World M) : Prop :=
  ∃ state value, (c.1.entries.lookup key).elim .default (·.state) = state ∧
    state.position source < version ∧ A state.value (state.position source) value c.1 ∧
    c.2 = c.1.put key (state.advance source version value)

omit [Crates] in
/-- The tries of a delivery keep an invariant that its writes keep, and each of its calls changes
nothing or raises the source to the version; a delivery that succeeds leaves the source at its
version or later. `D` is what the delivery knows of the world, `A` what its change gives. -/
theorem mutateLoop_safe [Inhabited M] {source : SourceName} {version : Nat}
    {apply : M → Nat → Delivery M M} {D : World M → Prop} {A : M → Nat → M → World M → Prop}
    (hD : ∀ w w', D w → w.Grows w' → D w')
    (hruns : ∀ m applied calls b,
      Program.Runs (guarded I) (apply m applied).run calls b → Program.Unchanged calls)
    (happly : ∀ m applied w, D w → Program.SafeE (guarded I) (fun _ => A m applied)
      (fun _ _ _ => True) (apply m applied) w)
    (hput : ∀ w state value, I w → D w →
      (w.entries.lookup key).elim .default (·.state) = state → state.position source < version →
      A state.value (state.position source) value w →
        I (w.put key (state.advance source version value)) ∧
          w.Grows (w.put key (state.advance source version value)))
    (tries : Nat) {w : World M} (hd : D w) :
    Program.Guarantees (guarded I) (fun c => c.2 = c.1 ∨ Raises key source version A c)
      (fun _ w => version ≤ storedPosition w key source) (fun _ _ => True)
      (mutateLoop key source version apply tries) w := by
  have hreads {calls : Program.Calls (World M)} (h : Program.Unchanged calls) :
      ∀ c ∈ calls, c.2 = c.1 ∨ Raises key source version A c := fun c hc => .inl (h c hc)
  induction tries generalizing w with
  | zero => exact .throw fun _ _ _ => trivial
  | succ tries ih =>
    refine .bind (Program.Ends.guarantees (read_safe fun w₁ hg₁ hI₁ w₂ hg₂ _ => ?_)
      fun _ _ hr => hreads (read_runs hr))
    refine .bind (.lift (fun _ _ w₃ hg₃ _ => ?_) fun _ _ _ _ _ => trivial)
    set state := (w₁.entries.lookup key).elim ReadModelState.default (·.state) with hstate
    dsimp only
    split
    · next hle =>
      rw [hstate, ← storedPosition_eq] at hle
      exact .pure fun w₄ hg₄ _ => hle.trans ((hg₂.trans (hg₃.trans hg₄)).storedPosition_le source)
    next hlt =>
    have hd₃ := hD _ _ hd (hg₁.trans (hg₂.trans hg₃))
    have hmutation := Program.Ends.guarantees (happly state.value (state.position source) w₃ hd₃)
      fun _ _ hr => hreads (hruns _ _ _ _ hr)
    refine .bind (.mono hmutation.remember (fun value w₄ hI₄ hadv => ?_) fun _ _ _ _ => trivial)
    have hg₁₄ : w₁.Grows w₄ := hg₂.trans (hg₃.trans (hadv w₄ (.refl w₄) hI₄).1)
    refine .bind (.mono (Program.Guarantees.remember
      (write_safe hg₁₄ fun w₅ hg₅ hI₅ hsame => ?_)) (fun result w₆ hI₆ hr => ?_)
      fun _ _ _ _ => trivial)
    · have hbase : (w₅.entries.lookup key).elim .default (·.state) = state := by rw [hsame, hstate]
      have hlt := Nat.lt_of_not_le hlt
      have hadv₅ := (hadv w₅ hg₅ hI₅).2
      obtain ⟨hI, hg⟩ := hput w₅ state value hI₅ (hD _ _ hd (hg₁.trans (hg₁₄.trans hg₅))) hbase hlt
        hadv₅
      exact ⟨hI, hg, state, value, hbase, hlt, hadv₅, rfl⟩
    · have hd₆ := hD _ _ hd (hg₁.trans (hg₁₄.trans (hr w₆ (.refl w₆) hI₆).1))
      cases result with
      | ok n =>
        refine .pure fun w₇ hg₇ hI₇ => ?_
        have hpos := (hr w₇ hg₇ hI₇).2 n rfl source
        rwa [position_advance, if_pos rfl] at hpos
      | error e =>
        dsimp only
        split
        · exact ih hd₆
        · exact .throw fun _ _ _ => trivial

end Guarded

/-! ## The events of an envelope -/

/-- The list of events has, of every stream, exactly those of the key up to the position. -/
def Covers (session : Session M) (w : World M) (key : ReadModelKey) (state : ReadModelState M)
    (events : List RecordedEvent) : Prop :=
  ∀ streamId, streamPosition session state streamId ≤ (w.streams streamId).length ∧
    events.filter (·.streamId = streamId) =
      ((w.streams streamId).take (streamPosition session state streamId)).filter
        (routed session key)

theorem covers_default [Inhabited M] (w : World M) : Covers session w key .default [] := by
  intro s
  have hzero : streamPosition session (.default : ReadModelState M) s = 0 := rfl
  rw [hzero]
  exact ⟨Nat.zero_le _, rfl⟩

theorem Covers.later {w w' : World M} {state : ReadModelState M} {events : List RecordedEvent}
    (h : Covers session w key state events) (hg : ∀ s, w.streams s <+: w'.streams s) :
    Covers session w' key state events := by
  intro s
  obtain ⟨hle, hfilter⟩ := h s
  obtain ⟨rest, hrest⟩ := hg s
  rw [← hrest, List.take_append_of_le_length hle]
  exact ⟨hle.trans (by simp), hfilter⟩

/-- An envelope without events. -/
theorem materialized_default [Inhabited M] (w : World M) :
    Materialized session w key .default :=
  ⟨[], rfl, covers_default w⟩

theorem Materialized.later [Inhabited M] {w w' : World M} {state : ReadModelState M}
    (h : Materialized session w key state) (hg : ∀ s, w.streams s <+: w'.streams s) :
    Materialized session w' key state := by
  obtain ⟨events, hfold, hevents⟩ := h
  exact ⟨events, hfold, Covers.later hevents hg⟩

/-- Streams have different names. -/
theorem sourceName_inj [Crates.Lawful] {s t : StreamId}
    (h : sourceName session s = sourceName session t) : s = t := by
  have hfits : ∀ s : StreamId, (Json.arr [.str "domain", .str session.context.value,
      .str s.aggregateType.value, .str s.aggregateId.value]).Fits maxJsonDepth := by
    intro s
    simp [maxJsonDepth]
  have := toVec_inj (hfits s) (hfits t) h
  simp only [Json.arr.injEq, List.cons.injEq, Json.str.injEq, true_and, and_true] at this
  cases s
  cases t
  rw [StreamId.mk.injEq]
  exact ⟨CheckedString.ext this.1, CheckedString.ext this.2⟩

/-- The events of a delivery bring its stream to the delivered version. -/
theorem Covers.advance [Crates.Lawful] {w : World M} {state : ReadModelState M}
    {event : RecordedEvent} {value : M} {events : List RecordedEvent}
    (hevents : Covers session w key state events) (hhistory : ∀ s, IsHistory s (w.streams s))
    (hd : Delivered w event)
    (hlt : streamPosition session state event.streamId < event.streamVersion) :
    Covers session w key
      (state.advance (sourceName session event.streamId) event.streamVersion value)
      (events ++ (segment w event (streamPosition session state event.streamId)).filter
        (routed session key)) := by
  set p := streamPosition session state event.streamId
  intro s
  have hpos : streamPosition session
      (state.advance (sourceName session event.streamId) event.streamVersion value) s =
        if s = event.streamId then event.streamVersion else streamPosition session state s := by
    rw [streamPosition, position_advance]
    by_cases hs : s = event.streamId
    · simp [hs]
    · rw [if_neg hs, if_neg fun heq => hs (sourceName_inj heq)]
      rfl
  rw [hpos, List.filter_append]
  have hstream : ∀ e ∈ (segment w event p).filter (routed session key),
      e.streamId = event.streamId := fun e he =>
    streamId_of_mem_segment hhistory (List.mem_of_mem_filter he)
  by_cases hs : s = event.streamId
  · subst hs
    rw [if_pos rfl]
    refine ⟨hd.length_le, ?_⟩
    rw [(hevents event.streamId).2,
      List.filter_eq_self.mpr fun e he => decide_eq_true (hstream e he), ← List.filter_append,
      segment]
    congr 1
    conv_rhs => rw [← List.take_append_drop p (List.take event.streamVersion _)]
    rw [List.take_take, min_eq_left hlt.le]
  · rw [if_neg hs]
    refine ⟨(hevents s).1, ?_⟩
    have hnone : ((segment w event p).filter (routed session key)).filter (·.streamId = s) =
        [] := List.filter_eq_nil_iff.mpr fun e he => by
      rw [hstream e he, decide_eq_true_eq]
      exact fun h => hs h.symm
    rw [hnone, List.append_nil]
    exact (hevents s).2

/-- A write that was applied keeps the protocol, if it is based on the envelope that is there. -/
theorem put_keeps [Crates.Lawful] [Inhabited M] {w : World M} {state : ReadModelState M}
    {event : RecordedEvent} {value : M} (hI : w.Inv session) (hd : Delivered w event)
    (hbase : (w.entries.lookup key).elim .default (·.state) = state)
    (hlt : streamPosition session state event.streamId < event.streamVersion)
    (hadv : Advances session key event (streamPosition session state event.streamId) state.value
      value w) :
    (w.put key (state.advance (sourceName session event.streamId) event.streamVersion
      value)).Inv session ∧
    w.Grows (w.put key (state.advance (sourceName session event.streamId) event.streamVersion
      value)) := by
  have hmat : Materialized session w key state := by
    rw [← hbase]
    rcases hl : w.entries.lookup key with _ | entry
    · exact materialized_default w
    · exact hI.entries key entry hl
  obtain ⟨events, hfold, hevents⟩ := hmat
  have hmat' : Materialized session w key
      (state.advance (sourceName session event.streamId) event.streamVersion value) := by
    refine ⟨_, ?_, Covers.advance hevents hI.streams hd hlt⟩
    rw [List.foldlM_append, hfold]
    exact hadv
  refine ⟨⟨hI.streams, put_entries le_rfl fun k entry hl =>
    (hI.revisions k entry hl).trans (Nat.le_succ _), put_entries ?_ fun k entry hl => ?_⟩,
    put_grows hI.revisions hbase hlt⟩
  · exact hmat'.later fun _ => List.prefix_rfl
  · exact (hI.entries k entry hl).later fun _ => List.prefix_rfl

/-- Every delivery of a committed event keeps the protocol. -/
theorem domain_safe [Crates.Lawful] [Inhabited M] {event : RecordedEvent} {w : World M}
    (hd : Delivered w event) :
    Program.SafeE (protocol session) (fun _ _ _ => True) (fun _ _ _ => True) (domain session event)
      w := by
  refine .bind (.lift (fun resources hres w₁ hg₁ _ => ?_) fun _ _ _ _ _ => trivial)
  refine .bind (.lift (fun r hred w₂ hg₂ _ => ?_) fun _ _ _ _ _ => trivial)
  refine .bind (.lift (fun key hkey w₃ hg₃ _ => ?_) fun _ _ _ _ _ => trivial)
  refine .bind (.lift (fun _ _ w₄ hg₄ _ => ?_) fun _ _ _ _ _ => trivial)
  refine .bind (.lift (fun _ _ w₅ hg₅ _ => ?_) fun _ _ _ _ _ => trivial)
  refine Program.SafeE.mono (mutateLoop_safe (I := World.Inv session)
    (A := fun m applied m' w => Advances session key event applied m m' w)
    (fun _ _ => Delivered.later) (fun _ _ _ _ => domainMutation_runs) (fun m applied _ hd => ?_)
    (fun _ _ _ hI hd hbase hlt hadv => put_keeps hI hd hbase hlt hadv) session.retries
    (hd.later (hg₁.trans (hg₂.trans (hg₃.trans (hg₄.trans hg₅)))))).ends (fun _ _ _ _ _ => trivial)
    fun _ _ _ _ _ => trivial
  exact domainMutation_safe (fun _ hI => hI.streams) (okOr_eq_ok.mp hres) (okOr_eq_ok.mp hred) hkey
    m applied hd

end Change

end Rostfrei.ReadModel
