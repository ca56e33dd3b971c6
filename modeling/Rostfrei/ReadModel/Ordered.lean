import Rostfrei.ReadModel.Deliveries
import Rostfrei.ReadModel.Integration

/-!
# Read models under deliveries of both kinds

Deliveries of domain events and of integration events share the stored envelopes and their
positions. Position keys of different sources differ (`sourceName_ne_handler` and the lemmas before
it), so a delivery moves the position of its own source only.

`Reflects` says what an envelope is: a fold of a log, in which the domain events are those that
`Covers` asks for, and the versions of every integration source increase up to its position. Where
all handlers of a source are consecutive, these versions are `1, 2, …` without a gap. It holds in
every state that deliveries reach (`feeds_sound`).
-/

namespace Rostfrei.ReadModel

open Lib Messaging

variable {M : Type} [Crates]

/-! ## Position keys -/

section Names

variable [Crates.Lawful]

theorem brokerSource_inj {a b : ApplicationName} (h : brokerSource a = brokerSource b) : a = b := by
  have hjson := toVec_inj (by simp [maxJsonDepth]) (by simp [maxJsonDepth]) h
  simp only [Json.arr.injEq, List.cons.injEq, Json.str.injEq, true_and, and_true] at hjson
  exact CheckedString.ext hjson

theorem businessSource_inj {c c' : BoundedContextName} {s s' : String}
    (h : businessSource c s = businessSource c' s') : c = c' ∧ s = s' := by
  have hjson := toVec_inj (by simp [maxJsonDepth]) (by simp [maxJsonDepth]) h
  simp only [Json.arr.injEq, List.cons.injEq, Json.str.injEq, true_and, and_true] at hjson
  exact ⟨CheckedString.ext hjson.1, hjson.2⟩

theorem brokerSource_ne_businessSource (a : ApplicationName) (c : BoundedContextName) (s : String) :
    brokerSource a ≠ businessSource c s := by
  intro h
  have hjson := toVec_inj (by simp [maxJsonDepth]) (by simp [maxJsonDepth]) h
  simp at hjson

theorem sourceName_ne_brokerSource (session : Session M) (streamId : StreamId)
    (a : ApplicationName) : sourceName session streamId ≠ brokerSource a := by
  intro h
  have hjson := toVec_inj (by simp [maxJsonDepth]) (by simp [maxJsonDepth]) h
  simp at hjson

theorem sourceName_ne_businessSource (session : Session M) (streamId : StreamId)
    (c : BoundedContextName) (s : String) : sourceName session streamId ≠ businessSource c s := by
  intro h
  have hjson := toVec_inj (by simp [maxJsonDepth]) (by simp [maxJsonDepth]) h
  simp at hjson

end Names

/-! ## A model with its handlers -/

/-- A built read model. The builder refuses inputs of another application or traffic scope. -/
structure ReadModelRuntime (M : Type) where
  context : BoundedContext
  session : Session M
  inputs : List (IntegrationInput M)
  session_context : session.context = context.name
  inputs_scope : ∀ input ∈ inputs, input.context.application = context.application ∧
    input.context.trafficScope = context.trafficScope

/-- A handler of the model. -/
def ReadModelRuntime.Handles (r : ReadModelRuntime M) (h : IntegrationHandler M) : Prop :=
  ∃ input ∈ r.inputs, bind r.context input = .ok h

theorem source_of_bind {context : BoundedContext} {input : IntegrationInput M}
    {h : IntegrationHandler M} (hbind : bind context input = .ok h) :
    h.source = if input.order.isBrokerOrdered then brokerSource context.application
      else businessSource input.context.name input.order.source := by
  unfold bind at hbind
  split at hbind
  · cases hbind
  · cases hbind
    rfl

theorem sourceName_ne_handler [Crates.Lawful] {r : ReadModelRuntime M} {h : IntegrationHandler M}
    (hh : r.Handles h) (streamId : StreamId) : sourceName r.session streamId ≠ h.source := by
  obtain ⟨input, -, hbind⟩ := hh
  rw [source_of_bind hbind]
  split
  · exact sourceName_ne_brokerSource _ _ _
  · exact sourceName_ne_businessSource _ _ _ _

/-! ## The log of an envelope -/

/-- A processed integration event. -/
structure Processed (M : Type) where
  source : SourceName
  version : Nat
  change : M → Except ReadModelProcessingError M

inductive Entry (M : Type) where
  | domain (event : RecordedEvent)
  | integration (processed : Processed M)

namespace Entry

omit [Crates] in
def event? : Entry M → Option RecordedEvent
  | domain event => some event
  | integration _ => none

omit [Crates] in
def processed? : Entry M → Option (Processed M)
  | domain _ => none
  | integration processed => some processed

omit [Crates] in
/-- The change that an entry makes. -/
def apply (session : Session M) (m : M) : Entry M → Except ReadModelProcessingError M
  | domain event => applyEvent session m event
  | integration processed => processed.change m

end Entry

omit [Crates] in
/-- The versions of a source in a log. -/
def versions (log : List (Entry M)) (source : SourceName) : List Nat :=
  ((log.filterMap Entry.processed?).filter (·.source = source)).map (·.version)

/-- The versions increase, and the position is the greatest of them, or zero. -/
structure Tracked (versions : List Nat) (position : Nat) : Prop where
  increasing : versions.Pairwise (· < ·)
  le_position : ∀ v ∈ versions, v ≤ position
  position_mem : position = 0 ∨ position ∈ versions

omit [Crates] in
theorem Tracked.append {vs : List Nat} {p v : Nat} (h : Tracked vs p) (hlt : p < v) :
    Tracked (vs ++ [v]) v where
  increasing := by
    refine List.pairwise_append.mpr ⟨h.increasing, List.pairwise_singleton _ _, fun x hx y hy => ?_⟩
    obtain rfl := List.mem_singleton.mp hy
    exact Nat.lt_of_le_of_lt (h.le_position x hx) hlt
  le_position x hx := by
    rcases List.mem_append.mp hx with hx | hx
    · exact (h.le_position x hx).trans hlt.le
    · exact (List.mem_singleton.mp hx).le
  position_mem := .inr (by simp)

/-- All handlers of the source ask for the next version. -/
def ReadModelRuntime.Consecutive (r : ReadModelRuntime M) (source : SourceName) : Prop :=
  ∀ h, r.Handles h → h.source = source → h.isConsecutive

/-- The entry is of a delivery for the key by a handler of the model. -/
def ReadModelRuntime.Delivers (r : ReadModelRuntime M) (key : ReadModelKey) (p : Processed M) :
    Prop :=
  ∃ h delivery event, r.Handles h ∧ h.prepare delivery = .ok (key, event, p.version) ∧
    p.source = h.source ∧ p.change = fun m => h.change m event

/-- The envelope is the fold of the log. -/
structure Reflects [Inhabited M] (r : ReadModelRuntime M) (w : World M) (key : ReadModelKey)
    (state : ReadModelState M) (log : List (Entry M)) : Prop where
  value : log.foldlM (Entry.apply r.session) default = .ok state.value
  domain : Covers r.session w key state (log.filterMap Entry.event?)
  delivered : ∀ p ∈ log.filterMap Entry.processed?, r.Delivers key p
  tracked : ∀ h, r.Handles h → Tracked (versions log h.source) (state.position h.source)
  consecutive : ∀ h, r.Handles h → r.Consecutive h.source →
    versions log h.source = List.range' 1 (state.position h.source)

section Log

variable [Inhabited M] {r : ReadModelRuntime M} {w : World M} {key : ReadModelKey}
  {state : ReadModelState M} {log : List (Entry M)}

theorem reflects_default : Reflects r w key .default [] where
  value := rfl
  domain := covers_default w
  delivered := by simp
  tracked _ _ := ⟨List.Pairwise.nil, by simp [versions], .inl rfl⟩
  consecutive _ _ _ := rfl

theorem Reflects.later {w' : World M} (h : Reflects r w key state log)
    (hg : ∀ s, w.streams s <+: w'.streams s) : Reflects r w' key state log :=
  { h with domain := h.domain.later hg }

/-- A processed integration event moves the position of its source to its version. -/
theorem Reflects.integrated [Crates.Lawful] {h : IntegrationHandler M} {delivery : MessageDelivery}
    {event : h.Event} {version : Nat} {value : M} (hlog : Reflects r w key state log)
    (hh : r.Handles h) (hprepare : h.prepare delivery = .ok (key, event, version))
    (hlt : state.position h.source < version)
    (hnext : h.isConsecutive → state.position h.source + 1 = version)
    (hvalue : h.change state.value event = .ok value) :
    Reflects r w key (state.advance h.source version value)
      (log ++ [.integration ⟨h.source, version, fun m => h.change m event⟩]) := by
  have hversions : ∀ source, versions
      (log ++ [.integration ⟨h.source, version, fun m => h.change m event⟩]) source =
        versions log source ++ if h.source = source then [version] else [] := by
    intro source
    simp only [versions, List.filterMap_append, List.filter_append, List.map_append]
    congr 1
    by_cases hs : h.source = source <;> simp [Entry.processed?, hs]
  refine ⟨?_, fun s => ?_, ?_, fun h' hh' => ?_, fun h' hh' hall => ?_⟩
  · rw [List.foldlM_append, hlog.value]
    simp only [List.foldlM_cons, List.foldlM_nil, Entry.apply]
    show (h.change state.value event >>= pure) = _
    rw [hvalue]
    rfl
  · -- the positions of streams are elsewhere
    have hpos : streamPosition r.session (state.advance h.source version value) s =
        streamPosition r.session state s := by
      rw [streamPosition, position_advance, if_neg (sourceName_ne_handler hh s)]
      rfl
    have hnone : [Entry.integration (⟨h.source, version, fun m => h.change m event⟩ :
        Processed M)].filterMap Entry.event? = [] := rfl
    rw [hpos, List.filterMap_append, hnone, List.append_nil]
    exact hlog.domain s
  · rw [List.filterMap_append]
    intro p hp
    rcases List.mem_append.mp hp with hp | hp
    · exact hlog.delivered p hp
    · obtain rfl : p = ⟨h.source, version, fun m => h.change m event⟩ := by
        simpa [Entry.processed?] using hp
      exact ⟨h, delivery, event, hh, hprepare, rfl, rfl⟩
  · rw [hversions, position_advance]
    by_cases hs : h'.source = h.source
    · rw [if_pos hs, if_pos hs.symm, hs]
      exact (hlog.tracked h hh).append hlt
    · rw [if_neg hs, if_neg fun heq => hs heq.symm, List.append_nil]
      exact hlog.tracked h' hh'
  · rw [hversions, position_advance]
    by_cases hs : h'.source = h.source
    · have hsucc := hnext (hall h hh hs.symm)
      rw [if_pos hs, if_pos hs.symm, hlog.consecutive h' hh' hall, hs, ← hsucc,
        List.range'_1_concat, Nat.add_comm]
    · rw [if_neg hs, if_neg fun heq => hs heq.symm, List.append_nil]
      exact hlog.consecutive h' hh' hall

/-- The events of a domain delivery move the position of their stream to its version. -/
theorem Reflects.materialized [Crates.Lawful] {event : RecordedEvent} {value : M}
    (hlog : Reflects r w key state log) (hhistory : ∀ s, IsHistory s (w.streams s))
    (hd : Delivered w event)
    (hlt : streamPosition r.session state event.streamId < event.streamVersion)
    (hadv : Advances r.session key event (streamPosition r.session state event.streamId) state.value
      value w) :
    Reflects r w key (state.advance (sourceName r.session event.streamId) event.streamVersion value)
      (log ++ ((segment w event (streamPosition r.session state event.streamId)).filter
        (routed r.session key)).map .domain) := by
  set events := (segment w event (streamPosition r.session state event.streamId)).filter
    (routed r.session key) with hevents
  have hevent? : (events.map Entry.domain).filterMap (Entry.event? : Entry M → _) = events := by
    induction events <;> simp_all [Entry.event?]
  have hprocessed? : (events.map Entry.domain).filterMap (Entry.processed? : Entry M → _) = [] := by
    induction events <;> simp_all [Entry.processed?]
  have hversions : ∀ source, versions (log ++ events.map .domain) source = versions log source := by
    intro source
    simp only [versions, List.filterMap_append, hprocessed?, List.append_nil]
  have hposition : ∀ h, r.Handles h →
      (state.advance (sourceName r.session event.streamId) event.streamVersion value).position
        h.source = state.position h.source := by
    intro h hh
    rw [position_advance, if_neg fun heq => sourceName_ne_handler hh event.streamId heq.symm]
  refine ⟨?_, ?_, ?_, fun h hh => ?_, fun h hh hall => ?_⟩
  · rw [List.foldlM_append, hlog.value]
    show (events.map Entry.domain).foldlM (Entry.apply r.session) state.value = _
    rw [List.foldlM_map]
    exact hadv
  · rw [List.filterMap_append, hevent?]
    exact hlog.domain.advance hhistory hd hlt
  · rw [List.filterMap_append, hprocessed?, List.append_nil]
    exact hlog.delivered
  · rw [hversions, hposition h hh]
    exact hlog.tracked h hh
  · rw [hversions, hposition h hh]
    exact hlog.consecutive h hh hall

end Log

/-! ## The protocol -/

section Protocol

variable [Inhabited M] (r : ReadModelRuntime M)

/-- Histories are histories, revisions are in the past, and every envelope reflects some log. -/
structure Fed (w : World M) : Prop where
  streams : ∀ s, IsHistory s (w.streams s)
  revisions : ∀ key entry, w.entries.lookup key = some entry → entry.revision ≤ w.revisions
  entries : ∀ key entry, w.entries.lookup key = some entry →
    ∃ log, Reflects r w key entry.state log

variable {r} {key : ReadModelKey}

/-- The envelope that a delivery starts from. -/
theorem Fed.base {w : World M} (hI : Fed r w) {state : ReadModelState M}
    (hbase : (w.entries.lookup key).elim .default (·.state) = state) :
    ∃ log, Reflects r w key state log := by
  rw [← hbase]
  rcases hl : w.entries.lookup key with _ | entry
  · exact ⟨[], reflects_default⟩
  · exact hI.entries key entry hl

theorem Fed.put {w : World M} (hI : Fed r w) {state : ReadModelState M} {source : SourceName}
    {version : Nat} {value : M} (hbase : (w.entries.lookup key).elim .default (·.state) = state)
    (hlt : state.position source < version)
    (hnew : ∃ log, Reflects r w key (state.advance source version value) log) :
    Fed r (w.put key (state.advance source version value)) ∧
      w.Grows (w.put key (state.advance source version value)) := by
  have hstays : ∀ {k : ReadModelKey} {s : ReadModelState M}, (∃ log, Reflects r w k s log) →
      ∃ log, Reflects r (w.put key (state.advance source version value)) k s log := by
    rintro k s ⟨log, hlog⟩
    exact ⟨log, hlog.later fun _ => List.prefix_rfl⟩
  exact ⟨⟨hI.streams, put_entries le_rfl fun k entry hl =>
    (hI.revisions k entry hl).trans (Nat.le_succ _),
    put_entries (hstays hnew) fun k entry hl => hstays (hI.entries k entry hl)⟩,
    put_grows hI.revisions hbase hlt⟩

variable [Crates.Lawful]

/-- Every delivery of a committed event keeps the protocol. -/
theorem domain_fed {event : RecordedEvent} {w : World M} (hd : Delivered w event) :
    Program.SafeE (guarded (Fed r)) (fun _ _ _ => True) (fun _ _ _ => True)
      (domain r.session event) w := by
  refine .bind (.lift (fun resources hres w₁ hg₁ _ => ?_) fun _ _ _ _ _ => trivial)
  refine .bind (.lift (fun reducer hred w₂ hg₂ _ => ?_) fun _ _ _ _ _ => trivial)
  refine .bind (.lift (fun key hkey w₃ hg₃ _ => ?_) fun _ _ _ _ _ => trivial)
  refine .bind (.lift (fun _ _ w₄ hg₄ _ => ?_) fun _ _ _ _ _ => trivial)
  refine .bind (.lift (fun _ _ w₅ hg₅ _ => ?_) fun _ _ _ _ _ => trivial)
  refine Program.SafeE.mono (mutateLoop_safe (I := Fed r)
    (A := fun m applied m' w => Advances r.session key event applied m m' w)
    (fun _ _ => Delivered.later) (fun _ _ _ _ => domainMutation_runs) (fun m applied _ hd => ?_)
    (fun w state value hI hd hbase hlt hadv => ?_) r.session.retries
    (hd.later (hg₁.trans (hg₂.trans (hg₃.trans (hg₄.trans hg₅)))))).ends (fun _ _ _ _ _ => trivial)
    fun _ _ _ _ _ => trivial
  · exact domainMutation_safe (fun _ hI => hI.streams) (okOr_eq_ok.mp hres) (okOr_eq_ok.mp hred)
      hkey m applied hd
  · obtain ⟨log, hlog⟩ := hI.base hbase
    exact hI.put hbase hlt ⟨_, hlog.materialized hI.streams hd hlt hadv⟩

/-- What the change of an integration event gives. -/
def Changes (h : IntegrationHandler M) (event : h.Event) (version : Nat) (m : M) (applied : Nat)
    (m' : M) (_ : World M) : Prop :=
  (h.isConsecutive → applied + 1 = version) ∧ h.change m event = .ok m'

omit [Crates] [Inhabited M] [Crates.Lawful] in
theorem mutation_safe {I : World M → Prop} (h : IntegrationHandler M) (event : h.Event)
    (version : Nat) (m : M) (applied : Nat) (w : World M) :
    Program.SafeE (guarded I) (fun _ => Changes h event version m applied)
      (fun _ _ _ => True) (h.mutation event version m applied) w := by
  unfold IntegrationHandler.mutation
  split
  · exact fun _ _ _ => trivial
  · next hnext =>
    refine Program.SafeE.lift (fun m' hm' _ _ _ => ⟨fun hc => ?_, hm'⟩) fun _ _ _ _ _ => trivial
    have hsome : checkedAdd applied 1 = some version := by
      by_contra hne
      exact hnext ⟨hc, hne⟩
    exact (checkedAdd_eq_some.mp hsome).2

omit [Crates] [Inhabited M] [Crates.Lawful] in
theorem mutation_runs {I : World M → Prop} {h : IntegrationHandler M} {event : h.Event}
    {version : Nat} {m : M} {applied : Nat} {calls : Program.Calls (World M)}
    {b : Except ReadModelProcessingError M}
    (hruns : Program.Runs (guarded I) (h.mutation event version m applied).run calls b) :
    Program.Unchanged calls := by
  unfold IntegrationHandler.mutation at hruns
  split at hruns
  · obtain ⟨rfl, -⟩ := Program.Runs.done_iff.mp hruns
    exact .nil
  · obtain ⟨rfl, -⟩ := Program.Runs.lift_inv hruns
    exact .nil

/-- The call is the write of a delivery. -/
def Writes (h : IntegrationHandler M) (delivery : MessageDelivery) (c : World M × World M) : Prop :=
  ∃ key event version, h.prepare delivery = .ok (key, event, version) ∧
    Raises key h.source version (Changes h event version) c

omit [Crates.Lawful] in
theorem Writes.version {h : IntegrationHandler M} {delivery : MessageDelivery}
    {c : World M × World M} (hwrites : Writes h delivery c) {event : h.Event} {version : Nat}
    (hprepare : h.prepare delivery = .ok (key, event, version)) :
    storedPosition c.1 key h.source < version ∧
      (h.isConsecutive → storedPosition c.1 key h.source + 1 = version) ∧
      storedPosition c.2 key h.source = version := by
  obtain ⟨key', event', version', hprepare', state, value, rfl, hlt, ⟨hnext, -⟩, hc⟩ := hwrites
  obtain ⟨rfl, heq⟩ := Prod.mk.inj (Except.ok.inj (hprepare'.symm.trans hprepare))
  obtain ⟨-, rfl⟩ := Prod.mk.inj heq
  rw [← storedPosition_eq] at hlt hnext
  refine ⟨hlt, hnext, ?_⟩
  rw [hc, storedPosition, World.put, Finmap.lookup_insert, Option.elim_some, position_advance,
    if_pos rfl]

/-- Every delivery of an integration event keeps the protocol, and one that succeeds leaves its
source at its version or later. -/
theorem process_fed {h : IntegrationHandler M} (hh : r.Handles h) (delivery : MessageDelivery)
    (w : World M) :
    Program.Guarantees (guarded (Fed r)) (fun c => c.2 = c.1 ∨ Writes h delivery c)
      (fun _ w => ∃ key event version, h.prepare delivery = .ok (key, event, version) ∧
        version ≤ storedPosition w key h.source)
      (fun _ _ => True) (h.process r.session delivery) w := by
  refine .bind (.lift (fun prepared hprepare w₁ hg₁ _ => ?_) fun _ _ _ _ _ => trivial)
  obtain ⟨key, event, version⟩ := prepared
  refine .bind (.lift (fun _ _ w₂ hg₂ _ => ?_) fun _ _ _ _ _ => trivial)
  refine .bind (.lift (fun _ _ w₃ hg₃ _ => ?_) fun _ _ _ _ _ => trivial)
  have hloop : Program.Guarantees (guarded (Fed r))
      (fun c => c.2 = c.1 ∨ Raises key h.source version (Changes h event version) c)
      (fun _ w => version ≤ storedPosition w key h.source) (fun _ _ => True)
      (mutateLoop key h.source version (h.mutation event version) r.session.retries) w₃ := by
    refine mutateLoop_safe (D := fun _ => True) (fun _ _ _ _ => trivial)
      (fun _ _ _ _ => mutation_runs) (fun m applied w _ => mutation_safe h event version m applied w)
      (fun w state value hI _ hbase hlt hchanges => ?_) r.session.retries trivial
    obtain ⟨log, hlog⟩ := hI.base hbase
    exact hI.put hbase hlt ⟨_, hlog.integrated hh hprepare hlt hchanges.1 hchanges.2⟩
  exact (hloop.weaken fun c hc => hc.imp_right fun hc => ⟨key, event, version, hprepare, hc⟩).mono
    (fun _ w₄ hI₄ hle => ⟨key, event, version, hprepare, hle.here hI₄⟩) fun _ _ _ _ => trivial

end Protocol

/-! ## All deliveries -/

section Feeds

variable [Inhabited M] [Crates.Lawful]

/-- What a delivery was of: a domain event, or a message to a handler. -/
abbrev FeedLabel (M : Type) := RecordedEvent ⊕ IntegrationHandler M × MessageDelivery

/-- Deliveries of committed events, and of any messages to handlers of the model, start at any time;
histories grow. -/
def feeds (r : ReadModelRuntime M) :
    Pool.Rules (guarded (Fed r)) (Except ReadModelProcessingError Unit) (FeedLabel M) where
  start w label p :=
    match label with
    | .inl event => event ∈ w.streams event.streamId ∧ p = (domain r.session event).run
    | .inr (h, delivery) => r.Handles h ∧ p = (h.process r.session delivery).run
  env w w' := w'.entries = w.entries ∧ w'.revisions = w.revisions ∧
    ∀ s, w.streams s <+: w'.streams s ∧ IsHistory s (w'.streams s)
  post label calls b w :=
    match label with
    | .inl _ => True
    | .inr (h, delivery) => (∀ c ∈ calls, c.2 = c.1 ∨ Writes h delivery c) ∧
      (b = .ok () → ∃ key event version, h.prepare delivery = .ok (key, event, version) ∧
        version ≤ storedPosition w key h.source)
  start_safe w label p hI hstart := by
    match label, hstart with
    | .inl event, ⟨hmem, hp⟩ =>
      rw [hp]
      exact Program.Safe.mono (domain_fed (delivered_of_mem hI.streams hmem)) fun _ _ _ _ _ =>
        trivial
    | .inr (h, delivery), ⟨hh, hp⟩ =>
      rw [hp]
      refine Program.Safe.mono (process_fed hh delivery w) fun calls b w hI hr => ?_
      cases b with
      | ok => exact ⟨(hr.here hI).1, fun _ => (hr.here hI).2⟩
      | error => exact ⟨(hr.here hI).1, by rintro ⟨⟩⟩
  env_keeps w w' hI := by
    rintro ⟨hentries, hrevisions, hstreams⟩
    refine ⟨⟨fun s => (hstreams s).2, ?_, ?_⟩, ⟨fun s => (hstreams s).1, hrevisions.ge, ?_⟩⟩
    · rw [hentries, hrevisions]
      exact hI.revisions
    · rw [hentries]
      intro key entry hl
      obtain ⟨log, hlog⟩ := hI.entries key entry hl
      exact ⟨log, hlog.later fun s => (hstreams s).1⟩
    · rw [hentries]
      exact fun key entry hl => ⟨entry, hl, le_rfl, fun _ => rfl, fun _ => le_rfl⟩

omit [Crates] [Inhabited M] [Crates.Lawful] in
theorem exec_total (w : World M) (op : Operation M) : ∃ r w', w.exec op r w' := by
  let e : ReadModelError := ⟨.unavailable, ""⟩
  cases op with
  | read key => exact ⟨.error e, w, rfl, .inr ⟨e, rfl⟩⟩
  | create key state => exact ⟨.error e, w, .inl ⟨rfl, e, rfl⟩⟩
  | update key revision state => exact ⟨.error e, w, .inl ⟨rfl, e, rfl⟩⟩
  | load streamId =>
    let e : EventStoreError := .new .unavailable ""
    exact ⟨.error e, w, rfl, .inr ⟨e, rfl⟩⟩

omit [Crates.Lawful] in
theorem fed_start {r : ReadModelRuntime M} {streams : StreamId → List RecordedEvent}
    (h : ∀ s, IsHistory s (streams s)) : Fed r (World.start streams) where
  streams := h
  revisions _ _ hl := by simp [World.start] at hl
  entries _ _ hl := by simp [World.start] at hl

end Feeds

end Rostfrei.ReadModel

/-! ## A sum of numbered amounts -/

namespace Rostfrei.ReadModel

open Lib Messaging

attribute [local instance] Crates.concrete

def billing : BoundedContext := ⟨⟨"shop", by decide +kernel⟩, .normal, Sample.context⟩

/-- Amounts, each of which is its own version. -/
def amounts : IntegrationInput Nat where
  Event := UInt64
  encode amount := .num amount.toNat
  decode j := (j.uint? (2 ^ 64)).map UInt64.ofNat
  eventName := "paid"
  schemaVersion := 1
  context := billing
  order := ⟨"ledger", .consecutive id⟩
  key _ := "total"
  change total amount := .ok (total + amount.toNat)

def paidAddress : IntegrationEventAddress :=
  ⟨"shop.integration.billing.paid", "shop", .normal, "billing", "paid", by decide +kernel⟩

def amountsHandler : IntegrationHandler Nat where
  Event := UInt64
  encode := amounts.encode
  decode := amounts.decode
  schemaVersion := 1
  address := paidAddress
  source := businessSource Sample.context "ledger"
  ordering := .consecutive id
  key := amounts.key
  change := amounts.change

theorem bind_amounts : bind billing amounts = .ok amountsHandler := by
  have haddress : amounts.context.integrationEventAddress amounts.eventName = .ok paidAddress :=
    Address.newInScope_eq_ok.mpr (by decide +kernel)
  unfold bind
  rw [haddress]
  rfl

/-- The counter of events, which also adds amounts. -/
def sumModel : ReadModelRuntime Nat where
  context := billing
  session := counterSession
  inputs := [amounts]
  session_context := rfl
  inputs_scope := by simp [amounts]

/-- The first amount. -/
def paid : IntegrationEventEnvelope UInt64 where
  messageId := ⟨"m-1", by decide +kernel⟩
  schemaVersion := ⟨1, SchemaVersion.one_ne_zero⟩
  occurredAt := ⟨1, by decide⟩
  correlationId := ⟨"c-1", by decide +kernel⟩
  causationId := none
  payload := 1
  metadataVersion := none
  actor := none

def paidDelivery : MessageDelivery where
  address := paidAddress
  messageId := paid.messageId
  sourceSequence := 9
  payload := toVec (paid.toJson amounts.encode)

local instance : Crates.Lawful := Crates.concrete_lawful

theorem prepare_paid : amountsHandler.prepare paidDelivery = .ok (totalKey, (1 : UInt64), 1) := by
  have hread : (fromSlice paidDelivery.payload).bind
      (IntegrationEventEnvelope.ofJson? amountsHandler.encode amountsHandler.decode) = some paid := by
    have hslice : fromSlice paidDelivery.payload = some (paid.toJson amounts.encode) :=
      Crates.Lawful.fromSlice_toVec _ (by
        simp [IntegrationEventEnvelope.toJson, paid, amounts, Json.sparse, maxJsonDepth])
    rw [hslice]
    rfl
  unfold IntegrationHandler.prepare
  rw [hread]
  rfl

/-- The store after the delivery of the amount. -/
def summed : World Nat := uncounted.put totalKey
  (ReadModelState.default.advance amountsHandler.source 1 1)

theorem summed_reachable : Pool.Reachable (feeds sumModel) uncounted
    ⟨summed, [⟨.inr (amountsHandler, paidDelivery), [(uncounted, uncounted), (uncounted, summed)],
      .done (.ok ())⟩]⟩ := by
  have hhandles : sumModel.Handles amountsHandler := ⟨amounts, by simp [sumModel], bind_amounts⟩
  have hruns : Program.Runs (guarded (Fed sumModel))
      (amountsHandler.process counterSession paidDelivery).run
      [(uncounted, uncounted), (uncounted, summed)] (.ok ()) := by
    refine .liftBind prepare_paid (.liftBind (a := ()) rfl (.liftBind (a := counterResources) rfl ?_))
    exact @mutateLoop_runs_first _ _ _ _ _ _ _ _ _ _ (.ok 1) Nat.one_pos (by decide) .done
      (Finmap.lookup_empty _) (.inl rfl)
  let label : FeedLabel Nat := .inr (amountsHandler, paidDelivery)
  have hstart : (feeds sumModel).start uncounted label
      (amountsHandler.process counterSession paidDelivery).run := ⟨hhandles, rfl⟩
  exact .head (.start hstart) (Pool.run_alone label [] hruns ⟨rfl, rfl, rfl⟩)

end Rostfrei.ReadModel
