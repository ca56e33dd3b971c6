import Rostfrei.Executor.Retries

/-!
# What is collected from a handler

The acts of a handler on the aggregates that it loaded (`Acts`), in any order: loads, raises, raises
whose code panics, other instances in its handles, drops. The journal of a participant is either what
the raises on its instance make (`journalOf`), or it has an entry that was started and not completed,
and then nothing is collected from it (`Broken`).

`collected_exact` says what a handler's acts come to: where they are collected, every participant has
the encodings of the events raised on its aggregate, in order, and only a collected evaluation commits.
-/

namespace Rostfrei

open Lib Program

/-! ## Acts -/

/-- A call of a handler with its answer. -/
abbrev Act := Program.Answer HandlerCall HandlerCall.Answer

/-- A loaded aggregate of some model. -/
abbrev Handle := (A : Aggregate) × LoadedAggregate A

/-- An event with the instance it is raised on. -/
structure Raised where
  handle : Handle
  event : handle.1.Event

/-- The aggregates that were loaded, in order. -/
def loadedIn (acts : List Act) : List Handle :=
  acts.filterMap fun
    | ⟨.load A _, .ok loaded⟩ => some ⟨A, loaded⟩
    | _ => none

/-- The events that were raised on the instance of a participant, in order. -/
def raisedOn (participant : Nat) (acts : List Act) : List Raised :=
  acts.filterMap fun
    | ⟨.raise A loaded event, _⟩ =>
      if loaded.participant = participant then some ⟨⟨A, loaded⟩, event⟩ else none
    | _ => none

/-- A raise on the instance of a participant panicked. -/
def InterruptedOn (participant : Nat) (acts : List Act) : Prop :=
  ∃ pushed, (⟨.interrupt participant pushed, ()⟩ : Act) ∈ acts

section Acts

variable [Crates] (codecs : AggregateCodecs) (metadata : CommandExecutionMetadata)

/-- What a handler can have done: it acts on what it loaded, whatever the histories are. -/
inductive Acts : List Act → CommandExecution → Prop where
  | start : Acts [] .new
  | load {acts : List Act} {x x' : CommandExecution} {A : Aggregate} {aggregateId : String}
      {answer : Except CommandExecutionError (LoadedAggregate A)} (h : Acts acts x)
      (history : EventHistory Id)
      (hload : Id.run (x.load history codecs metadata A aggregateId) = (answer, x')) :
      Acts (acts ++ [⟨.load A aggregateId, answer⟩]) x'
  | raise {acts : List Act} {x : CommandExecution} {A : Aggregate} {loaded : LoadedAggregate A}
      (h : Acts acts x) (hloaded : ⟨A, loaded⟩ ∈ loadedIn acts) (event : A.Event) :
      Acts (acts ++ [⟨.raise A loaded event, ()⟩]) (x.raise metadata loaded event)
  | interrupt {acts : List Act} {x : CommandExecution} {participant : Nat} (h : Acts acts x)
      (hloaded : participant < (loadedIn acts).length) (pushed : Bool) :
      Acts (acts ++ [⟨.interrupt participant pushed, ()⟩]) (x.interrupt participant pushed)
  | replace {acts : List Act} {x : CommandExecution} {participant : Nat} (h : Acts acts x)
      (hloaded : participant < (loadedIn acts).length) (held : Option Nat) :
      Acts (acts ++ [⟨.replace participant held, ()⟩]) (x.replace participant held)
  | drop {acts : List Act} {x : CommandExecution} {participant : Nat} (h : Acts acts x)
      (hloaded : participant < (loadedIn acts).length) :
      Acts (acts ++ [⟨.drop participant, ()⟩]) (x.drop participant)

/-- The forms in which the events of an aggregate are to be appended, each under the identity of its
place. -/
def encodings (raised : List Raised) : List (Except CommandExecutionError NewEvent) :=
  raised.mapIdx fun ordinal r =>
    CommandExecution.encodeRaised metadata r.handle.2 ordinal r.event

/-! ## Journals -/

/-- The journal of raises that all came to their end. -/
def journalOf (raised : List Raised) : List JournalEntry :=
  (raised.mapIdx fun ordinal r => [.started ordinal,
    .completed ordinal (CommandExecution.encodeRaised metadata r.handle.2 ordinal r.event)]).flatten

theorem encodings_concat (raised : List Raised) (r : Raised) :
    encodings metadata (raised ++ [r]) = encodings metadata raised ++
      [CommandExecution.encodeRaised metadata r.handle.2 raised.length r.event] := by
  simp [encodings, List.mapIdx_append]

theorem journalOf_concat (raised : List Raised) (r : Raised) :
    journalOf metadata (raised ++ [r]) = journalOf metadata raised ++ [.started raised.length,
      .completed raised.length
        (CommandExecution.encodeRaised metadata r.handle.2 raised.length r.event)] := by
  simp [journalOf, List.mapIdx_append]

end Acts

/-- The journal has an entry that was started, and then no other or one more start. -/
def Broken (journal : List JournalEntry) : Prop :=
  (∃ before ordinal, journal = before ++ [.started ordinal]) ∨
    ∃ before ordinal next rest, journal = before ++ .started ordinal :: .started next :: rest

theorem Broken.append {journal entries : List JournalEntry} {ordinal : Nat} (h : Broken journal) :
    Broken (journal ++ .started ordinal :: entries) := by
  rcases h with ⟨before, n, rfl⟩ | ⟨before, n, next, rest, rfl⟩
  · exact .inr ⟨before, n, ordinal, entries, by simp⟩
  · exact .inr ⟨before, n, next, rest ++ .started ordinal :: entries, by simp⟩

namespace EnlistedParticipant

theorem collectJournal_append (first rest : List JournalEntry) (events : List NewEvent)
    (encoding : Option Nat) : collectJournal (first ++ rest) events encoding = (do
      let (events, encoding) ← collectJournal first events encoding
      collectJournal rest events encoding) := by
  induction first generalizing events encoding with
  | nil => rfl
  | cons entry first ih =>
    cases entry with
    | started ordinal =>
      rw [List.cons_append, collectJournal, collectJournal]
      split
      · exact ih _ _
      · rfl
    | completed ordinal event =>
      simp only [List.cons_append, collectJournal, ih, bind_assoc]

theorem not_ok_of_broken {journal : List JournalEntry} (h : Broken journal) (events : List NewEvent) :
    collectJournal journal [] none ≠ .ok (events, none) := by
  intro hok
  rcases h with ⟨before, ordinal, rfl⟩ | ⟨before, ordinal, next, rest, rfl⟩
  all_goals
    rw [collectJournal_append] at hok
    obtain ⟨⟨collected, encoding⟩, -, hok⟩ := bind_eq_ok.mp hok
    simp only [collectJournal] at hok
    split at hok
  · simp at hok
  · cases hok
  · split at hok
    · next hnext => simp at hnext
    · cases hok
  · cases hok

theorem collect_journalOf [Crates] {metadata : CommandExecutionMetadata} {raised : List Raised}
    {events : List NewEvent} {encoding : Option Nat}
    (h : collectJournal (journalOf metadata raised) [] none = .ok (events, encoding)) :
    encoding = none ∧ events.map Except.ok = encodings metadata raised := by
  induction raised using List.reverseRecOn generalizing events encoding with
  | nil =>
    simp only [journalOf, List.mapIdx_nil, List.flatten_nil, collectJournal, Except.ok.injEq,
      Prod.mk.injEq] at h
    obtain ⟨rfl, rfl⟩ := h
    exact ⟨rfl, rfl⟩
  | append_singleton raised r ih =>
    rw [journalOf_concat, collectJournal_append] at h
    obtain ⟨⟨before, encoding'⟩, hbefore, h⟩ := bind_eq_ok.mp h
    obtain ⟨rfl, hevents⟩ := ih hbefore
    simp only [collectJournal] at h
    split at h
    · obtain ⟨event, hevent, h⟩ := bind_eq_ok.mp h
      obtain ⟨-, -, h⟩ := bind_eq_ok.mp h
      simp only [Except.ok.injEq, Prod.mk.injEq] at h
      obtain ⟨rfl, rfl⟩ := h
      rw [List.map_append, hevents, encodings_concat, hevent]
      exact ⟨rfl, rfl⟩
    · cases h

/-- What is collected from a journal of raises, and that nothing is from a broken one. -/
theorem collect_ok {p : EnlistedParticipant} {c : CollectedParticipant} (h : p.collect = .ok c) :
    c.streamId = p.streamId ∧ c.baseVersion = p.baseVersion ∧
      collectJournal p.tracker.journal [] none = .ok (c.events, none) := by
  simp only [collect, bind_eq_ok, pure_eq_ok, rejectIf_eq_ok] at h
  obtain ⟨_, -, ⟨events, encoding⟩, hcollect, _, hencoding, _, -, rfl⟩ := h
  obtain rfl : encoding = none := by simpa using hencoding
  exact ⟨rfl, rfl, hcollect⟩

end EnlistedParticipant

/-! ## What acts leave -/

section Acts

variable [Crates] {codecs : AggregateCodecs} {metadata : CommandExecutionMetadata}

/-- What the journal of a participant says of the raises on its instance. -/
def Journaled (metadata : CommandExecutionMetadata) (participant : Nat) (acts : List Act)
    (p : EnlistedParticipant) : Prop :=
  Broken p.tracker.journal ∨ (¬ InterruptedOn participant acts ∧
    p.tracker.journal = journalOf metadata (raisedOn participant acts) ∧
      p.uncommitted = (raisedOn participant acts).length)

/-- An act that raises nothing leaves the journal. -/
theorem Journaled.concat {participant : Nat} {acts : List Act} {act : Act}
    {p p' : EnlistedParticipant} (h : Journaled metadata participant acts p)
    (hjournal : p'.tracker.journal = p.tracker.journal) (hcount : p'.uncommitted = p.uncommitted)
    (hraised : raisedOn participant [act] = []) (hquiet : ¬ InterruptedOn participant [act]) :
    Journaled metadata participant (acts ++ [act]) p' := by
  have heq : raisedOn participant (acts ++ [act]) = raisedOn participant acts :=
    List.filterMap_append.trans ((congrArg _ hraised).trans (List.append_nil _))
  rw [Journaled, hjournal, hcount, heq]
  refine h.imp_right fun ⟨hclean, hrest⟩ => ⟨?_, hrest⟩
  rintro ⟨pushed, hmem⟩
  exact (List.mem_append.mp hmem).elim (fun hmem => hclean ⟨pushed, hmem⟩)
    fun hmem => hquiet ⟨pushed, hmem⟩

/-- The participants after the acts of a handler. -/
structure Tracks (metadata : CommandExecutionMetadata) (acts : List Act) (x : CommandExecution) :
    Prop where
  length : x.participants.length = (loadedIn acts).length
  handle : ∀ (i : Nat) p handle, x.participants[i]? = some p → (loadedIn acts)[i]? = some handle →
    p.streamId = handle.2.streamId ∧ p.baseVersion = handle.2.baseVersion
  index : ∀ (i : Nat) handle, (loadedIn acts)[i]? = some handle → handle.2.participant = i
  journal : ∀ (i : Nat) p, x.participants[i]? = some p → Journaled metadata i acts p
  /-- Nothing is raised on what is not loaded. -/
  raised : ∀ i, ∀ r ∈ raisedOn i acts, (loadedIn acts)[i]? = some r.handle
  interrupted : ∀ i, InterruptedOn i acts → i < (loadedIn acts).length

/-- An act on one participant. -/
theorem Tracks.modify {acts : List Act} {act : Act} {x : CommandExecution}
    (h : Tracks metadata acts x) (i : Nat) {f : EnlistedParticipant → EnlistedParticipant}
    (hload : loadedIn [act] = []) (hi : i < (loadedIn acts).length)
    (hf : ∀ p, (f p).streamId = p.streamId ∧ (f p).baseVersion = p.baseVersion)
    (hother : ∀ j, j ≠ i → raisedOn j [act] = [] ∧ ¬ InterruptedOn j [act])
    (hjournal : ∀ p, x.participants[i]? = some p → Journaled metadata i acts p →
      Journaled metadata i (acts ++ [act]) (f p))
    (hraised : ∀ r ∈ raisedOn i [act], (loadedIn acts)[i]? = some r.handle) :
    Tracks metadata (acts ++ [act]) { x with participants := x.participants.modify i f } := by
  have hloaded : loadedIn (acts ++ [act]) = loadedIn acts := by
    rw [loadedIn, List.filterMap_append]
    exact (congrArg _ hload).trans (List.append_nil _)
  have hraisedOn : ∀ j, raisedOn j (acts ++ [act]) = raisedOn j acts ++ raisedOn j [act] := fun j =>
    List.filterMap_append
  have hinterrupted : ∀ j, InterruptedOn j (acts ++ [act]) → InterruptedOn j acts ∨
      InterruptedOn j [act] := by
    rintro j ⟨pushed, hmem⟩
    exact (List.mem_append.mp hmem).imp (fun hmem => ⟨pushed, hmem⟩) fun hmem => ⟨pushed, hmem⟩
  refine ⟨?_, ?_, ?_, ?_, ?_, ?_⟩
  · rw [hloaded, List.length_modify, h.length]
  · intro j p handle hp hhandle
    rw [hloaded] at hhandle
    rw [List.getElem?_modify, Option.map_eq_map] at hp
    obtain ⟨before, hbefore, rfl⟩ := Option.map_eq_some_iff.mp hp
    have hsame := h.handle j before handle hbefore hhandle
    split
    · exact ⟨(hf before).1.trans hsame.1, (hf before).2.trans hsame.2⟩
    · exact hsame
  · rw [hloaded]
    exact h.index
  · intro j p hp
    rw [List.getElem?_modify, Option.map_eq_map] at hp
    obtain ⟨before, hbefore, rfl⟩ := Option.map_eq_some_iff.mp hp
    split
    · next hij =>
      subst hij
      exact hjournal before hbefore (h.journal _ before hbefore)
    · next hij =>
      obtain ⟨hnone, hquiet⟩ := hother j fun heq => hij heq.symm
      refine (h.journal j before hbefore).imp_right ?_
      rintro ⟨hclean, hentries, hcount⟩
      rw [hraisedOn, hnone, List.append_nil]
      exact ⟨fun hint => (hinterrupted j hint).elim hclean hquiet, hentries, hcount⟩
  · intro j r hr
    rw [hloaded]
    rw [hraisedOn] at hr
    rcases List.mem_append.mp hr with hr | hr
    · exact h.raised j r hr
    · by_cases hij : j = i
      · subst hij
        exact hraised r hr
      · rw [(hother j hij).1] at hr
        cases hr
  · intro j hint
    rw [hloaded]
    rcases hinterrupted j hint with hint | hint
    · exact h.interrupted j hint
    · by_cases hij : j = i
      · exact hij ▸ hi
      · exact absurd hint (hother j hij).2

/-- A load leaves the participants, or adds one. -/
theorem CommandExecution.load_cases {x x' : CommandExecution} {A : Aggregate} {aggregateId : String}
    {answer : Except CommandExecutionError (LoadedAggregate A)} {history : EventHistory Id}
    (h : Id.run (x.load history codecs metadata A aggregateId) = (answer, x')) :
    (∃ e, answer = .error e ∧ x' = x) ∨ ∃ loaded : LoadedAggregate A,
      answer = .ok loaded ∧ loaded.participant = x.participants.length ∧
        x'.participants = x.participants ++ [⟨loaded.streamId, loaded.baseVersion, ⟨[], none⟩, 0,
          some x.participants.length⟩] := by
  unfold CommandExecution.load at h
  split at h
  · next e _ =>
    obtain ⟨rfl, rfl⟩ := Prod.ext_iff.mp h
    exact .inl ⟨e, rfl, rfl⟩
  next streamId _ =>
    simp only [Id.run_bind] at h
    split at h
    · next e _ =>
      obtain ⟨rfl, rfl⟩ := Prod.ext_iff.mp h
      exact .inl ⟨.store e, rfl, rfl⟩
    next events _ =>
      split at h
      · next e _ =>
        obtain ⟨rfl, rfl⟩ := Prod.ext_iff.mp h
        exact .inl ⟨e, rfl, rfl⟩
      next loaded enlisted henlist =>
        obtain ⟨rfl, rfl⟩ := Prod.ext_iff.mp h
        simp only [CommandExecution.enlist, bind_eq_ok, pure_eq_ok, Prod.mk.injEq] at henlist
        obtain ⟨_, -, codec, -, decoded, -, rfl, rfl⟩ := henlist
        exact .inr ⟨_, rfl, rfl, rfl⟩

omit [Crates] in
theorem loadedIn_concat_load (acts : List Act) {A : Aggregate} (aggregateId : String)
    (loaded : LoadedAggregate A) : loadedIn (acts ++ [⟨.load A aggregateId, .ok loaded⟩]) =
      loadedIn acts ++ [⟨A, loaded⟩] :=
  List.filterMap_append

omit [Crates] in
theorem getElem?_concat_eq_some {α : Type*} {l : List α} {a b : α} {i : Nat}
    (h : (l ++ [a])[i]? = some b) : l[i]? = some b ∨ i = l.length ∧ b = a := by
  rw [List.getElem?_append] at h
  split at h
  · exact .inl h
  · obtain ⟨hi, heq⟩ := List.getElem?_eq_some_iff.mp h
    have hlt : i - l.length < 1 := hi
    rw [List.getElem_singleton] at heq
    exact .inr ⟨by omega, heq.symm⟩

/-- A load, with or without a new participant. -/
theorem Tracks.load {acts : List Act} {x x' : CommandExecution} {A : Aggregate}
    {aggregateId : String} {answer : Except CommandExecutionError (LoadedAggregate A)}
    {history : EventHistory Id} (h : Tracks metadata acts x)
    (hload : Id.run (x.load history codecs metadata A aggregateId) = (answer, x')) :
    Tracks metadata (acts ++ [⟨.load A aggregateId, answer⟩]) x' := by
  have hraisedOn : ∀ j, raisedOn j (acts ++ [⟨.load A aggregateId, answer⟩]) = raisedOn j acts :=
    fun j => List.filterMap_append.trans (List.append_nil _)
  have hinterrupted : ∀ j, InterruptedOn j (acts ++ [⟨.load A aggregateId, answer⟩]) →
      InterruptedOn j acts := by
    rintro j ⟨pushed, hmem⟩
    rcases List.mem_append.mp hmem with hmem | hmem
    · exact ⟨pushed, hmem⟩
    · cases List.mem_singleton.mp hmem
  have hkept : ∀ j p, Journaled metadata j acts p →
      Journaled metadata j (acts ++ [⟨.load A aggregateId, answer⟩]) p := by
    intro j p hp
    refine hp.concat rfl rfl rfl ?_
    rintro ⟨pushed, hmem⟩
    cases List.mem_singleton.mp hmem
  rcases CommandExecution.load_cases hload with ⟨e, rfl, rfl⟩ | ⟨loaded, rfl, hindex, hparticipants⟩
  · have hloaded : loadedIn (acts ++ [⟨.load A aggregateId, .error e⟩]) = loadedIn acts :=
      List.filterMap_append.trans (List.append_nil _)
    refine ⟨?_, ?_, ?_, fun j p hp => hkept j p (h.journal j p hp), ?_, ?_⟩
    · rw [hloaded, h.length]
    · rw [hloaded]
      exact h.handle
    · rw [hloaded]
      exact h.index
    · intro j
      rw [hloaded, hraisedOn]
      exact h.raised j
    · intro j hint
      rw [hloaded]
      exact h.interrupted j (hinterrupted j hint)
  · have hfresh : raisedOn x.participants.length acts = [] := by
      refine List.eq_nil_iff_forall_not_mem.mpr fun r hr => ?_
      have hsome := h.raised _ r hr
      rw [h.length, List.getElem?_eq_none le_rfl] at hsome
      cases hsome
    have hquiet : ¬ InterruptedOn x.participants.length acts := fun hint =>
      absurd (h.interrupted _ hint) (by rw [h.length]; exact Nat.lt_irrefl _)
    have hkeep : ∀ (j : Nat) handle, (loadedIn acts)[j]? = some handle →
        (loadedIn acts ++ [⟨A, loaded⟩])[j]? = some handle := fun j handle hj =>
      (List.getElem?_append_left (List.getElem?_eq_some_iff.mp hj).1).trans hj
    refine ⟨?_, ?_, ?_, ?_, ?_, ?_⟩
    · rw [loadedIn_concat_load, hparticipants, List.length_append, List.length_append, h.length]
      rfl
    · intro j p handle hp hhandle
      rw [hparticipants] at hp
      rw [loadedIn_concat_load] at hhandle
      rcases getElem?_concat_eq_some hp with hp | ⟨hj, rfl⟩ <;>
      rcases getElem?_concat_eq_some hhandle with hhandle | ⟨hj', rfl⟩
      · exact h.handle j p handle hp hhandle
      · have hlt := (List.getElem?_eq_some_iff.mp hp).1
        rw [h.length] at hlt
        omega
      · have hlt := (List.getElem?_eq_some_iff.mp hhandle).1
        rw [← h.length] at hlt
        omega
      · exact ⟨rfl, rfl⟩
    · intro j handle hhandle
      rw [loadedIn_concat_load] at hhandle
      rcases getElem?_concat_eq_some hhandle with hhandle | ⟨hj, rfl⟩
      · exact h.index j handle hhandle
      · rw [hindex, hj, h.length]
    · intro j p hp
      rw [hparticipants] at hp
      rcases getElem?_concat_eq_some hp with hp | ⟨rfl, rfl⟩
      · exact hkept j p (h.journal j p hp)
      · refine hkept _ _ (.inr ⟨hquiet, ?_, ?_⟩)
        · rw [hfresh]
          rfl
        · rw [hfresh]
          rfl
    · intro j r hr
      rw [hraisedOn] at hr
      rw [loadedIn_concat_load]
      exact hkeep j r.handle (h.raised j r hr)
    · intro j hint
      rw [loadedIn_concat_load, List.length_append]
      exact Nat.lt_add_right 1 (h.interrupted j (hinterrupted j hint))

theorem Acts.follows {acts : List Act} {x : CommandExecution} (h : Acts codecs metadata acts x) :
    Tracks metadata acts x := by
  induction h with
  | start =>
    exact ⟨rfl, by simp [CommandExecution.new], by simp [loadedIn], by simp [CommandExecution.new],
      by simp [raisedOn], fun i ⟨pushed, hmem⟩ => by cases hmem⟩
  | load _ history hload ih => exact ih.load hload
  | @raise acts x A loaded _ hloaded event ih =>
    have hindex : (loadedIn acts)[loaded.participant]? = some ⟨A, loaded⟩ := by
      obtain ⟨i, hi⟩ := List.mem_iff_getElem?.mp hloaded
      rw [ih.index i _ hi]
      exact hi
    have hraised : ∀ j, raisedOn j [⟨.raise A loaded event, ()⟩] =
        if loaded.participant = j then [⟨⟨A, loaded⟩, event⟩] else [] := by
      intro j
      simp only [raisedOn, List.filterMap_cons, List.filterMap_nil]
      split <;> simp_all
    refine ih.modify loaded.participant rfl (List.getElem?_eq_some_iff.mp hindex).1
      (fun p => ⟨rfl, rfl⟩) (fun j hj => ⟨by rw [hraised, if_neg hj.symm], ?_⟩) ?_ ?_
    · rintro ⟨pushed, hmem⟩
      cases List.mem_singleton.mp hmem
    · rintro p hp (hbroken | ⟨hclean, hentries, hcount⟩)
      · exact .inl hbroken.append
      · refine .inr ⟨?_, ?_, ?_⟩
        · rintro ⟨pushed, hmem⟩
          rcases List.mem_append.mp hmem with hmem | hmem
          · exact hclean ⟨pushed, hmem⟩
          · cases List.mem_singleton.mp hmem
        · rw [raisedOn, List.filterMap_append]
          show p.tracker.journal ++ _ = journalOf metadata (raisedOn _ acts ++ raisedOn _ [_])
          rw [hraised, if_pos rfl, journalOf_concat, hentries, hcount]
        · rw [raisedOn, List.filterMap_append]
          show p.uncommitted + 1 = (raisedOn _ acts ++ raisedOn _ [_]).length
          rw [hraised, if_pos rfl, List.length_append, hcount]
          rfl
    · intro r hr
      rw [hraised, if_pos rfl] at hr
      rw [List.mem_singleton.mp hr]
      exact hindex
  | @interrupt acts x participant _ hloaded pushed ih =>
    refine ih.modify participant rfl hloaded (fun p => ⟨rfl, rfl⟩) (fun j hj => ⟨rfl, ?_⟩) ?_
      (by simp [raisedOn])
    · rintro ⟨pushed', hmem⟩
      cases List.mem_singleton.mp hmem
      exact hj rfl
    · intro p _ _
      exact .inl (.inl ⟨p.tracker.journal, p.uncommitted, rfl⟩)
  | @replace acts x participant _ hloaded held ih =>
    have hquiet : ∀ j, ¬ InterruptedOn j [⟨.replace participant held, ()⟩] := by
      rintro j ⟨pushed, hmem⟩
      cases List.mem_singleton.mp hmem
    exact ih.modify participant rfl hloaded (fun p => ⟨rfl, rfl⟩)
      (fun j _ => ⟨rfl, hquiet j⟩) (fun p _ hp => hp.concat rfl rfl rfl (hquiet participant))
      (by simp [raisedOn])
  | @drop acts x participant _ hloaded ih =>
    have hquiet : ∀ j, ¬ InterruptedOn j [⟨.drop participant, ()⟩] := by
      rintro j ⟨pushed, hmem⟩
      cases List.mem_singleton.mp hmem
    exact ih.modify participant rfl hloaded (fun p => ⟨rfl, rfl⟩)
      (fun j _ => ⟨rfl, hquiet j⟩) (fun p _ hp => hp.concat rfl rfl rfl (hquiet participant))
      (by simp [raisedOn])

/-! ## What is collected -/

/-- The encodings of a codec have the identities that they were given. -/
def EventCodec.KeepsIds {A : Aggregate} (codec : EventCodec A) : Prop :=
  ∀ event eventId encoded, codec.encode event eventId = .ok encoded → encoded.eventId = eventId

omit [Crates] in
theorem jsonEventCodec_keepsIds (A : Aggregate) : (jsonEventCodec A).KeepsIds := by
  intro event eventId encoded h
  obtain ⟨payload, -, h⟩ := bind_eq_ok.mp h
  exact (NewEvent.new_eq_ok (mapError_eq_ok.mp h)).1

/-- A participant with the events that were raised on its aggregate, each under the identity of its
place. -/
structure Collected (metadata : CommandExecutionMetadata) (handle : Handle) (raised : List Raised)
    (c : CollectedParticipant) : Prop where
  streamId : c.streamId = handle.2.streamId
  baseVersion : c.baseVersion = handle.2.baseVersion
  owner : ∀ r ∈ raised, r.handle = handle
  events : c.events.map Except.ok = encodings metadata raised
  ids : handle.2.codec.KeepsIds → ∀ (k : Nat) event, c.events[k]? = some event →
    event.eventId = deriveEventId (deriveCommitId handle.2.streamId metadata.operationId) k

theorem Acts.length_eq {acts : List Act} {x : CommandExecution} (h : Acts codecs metadata acts x) :
    x.participants.length = (loadedIn acts).length :=
  h.follows.length

theorem encodeRaised_id {A : Aggregate} {loaded : LoadedAggregate A} {ordinal : Nat} {event : A.Event}
    {encoded : NewEvent} (hcodec : loaded.codec.KeepsIds)
    (h : CommandExecution.encodeRaised metadata loaded ordinal event = .ok encoded) :
    encoded.eventId = deriveEventId (deriveCommitId loaded.streamId metadata.operationId) ordinal := by
  simp only [CommandExecution.encodeRaised, bind_eq_ok] at h
  obtain ⟨_, -, h⟩ := h
  exact hcodec _ _ _ (mapError_eq_ok.mp h)

/-- The `i`-th participant that is collected, with the raises on its aggregate. -/
theorem Acts.collected {acts : List Act} {x : CommandExecution} (h : Acts codecs metadata acts x)
    {i : Nat} {p : EnlistedParticipant} {handle : Handle} {c : CollectedParticipant}
    (hp : x.participants[i]? = some p) (hhandle : (loadedIn acts)[i]? = some handle)
    (hc : p.collect = .ok c) :
    ¬ InterruptedOn i acts ∧ Collected metadata handle (raisedOn i acts) c := by
  obtain ⟨hstream, hversion, hcollect⟩ := EnlistedParticipant.collect_ok hc
  have howner : ∀ r ∈ raisedOn i acts, r.handle = handle := by
    intro r hr
    have hsome := h.follows.raised i r hr
    rw [hhandle] at hsome
    exact (Option.some.inj hsome).symm
  obtain hbroken | ⟨hclean, hjournal, -⟩ := h.follows.journal i p hp
  · exact absurd hcollect (EnlistedParticipant.not_ok_of_broken hbroken _)
  rw [hjournal] at hcollect
  have hevents := (EnlistedParticipant.collect_journalOf hcollect).2
  have hsame := h.follows.handle i p handle hp hhandle
  refine ⟨hclean, hstream.trans hsame.1, hversion.trans hsame.2, howner, hevents, ?_⟩
  intro hcodec k event hevent
  have hk : (encodings metadata (raisedOn i acts))[k]? = some (.ok event) := by
    rw [← hevents, List.getElem?_map, hevent]
    rfl
  rw [encodings, List.getElem?_mapIdx, Option.map_eq_some_iff] at hk
  obtain ⟨r, hr, hencoded⟩ := hk
  obtain rfl := howner r (List.mem_of_getElem? hr)
  exact encodeRaised_id hcodec hencoded

omit [Crates] in
theorem forall₂_getElem? {α β : Type*} {R : α → β → Prop} {l : List α} {l' : List β}
    (h : List.Forall₂ R l l') {i : Nat} {b : β} (hb : l'[i]? = some b) :
    ∃ a, l[i]? = some a ∧ R a b := by
  obtain ⟨hi, rfl⟩ := List.getElem?_eq_some_iff.mp hb
  have hi' : i < l.length := h.length_eq ▸ hi
  exact ⟨l[i], List.getElem?_eq_getElem hi', h.get hi' hi⟩

/-! ## What is proposed -/

/-- The batch for the raises on an aggregate; there is none without them. -/
def Batched (metadata : CommandExecutionMetadata) (handle : Handle) (raised : List Raised) :
    Option EventBatch → Prop
  | none => raised = []
  | some batch => raised ≠ [] ∧
    batch.commitId = deriveCommitId handle.2.streamId metadata.operationId ∧
    batch.operationId = metadata.operationId ∧
    batch.events.map Except.ok = encodings metadata raised ∧
    (handle.2.codec.KeepsIds → ∀ (k : Nat) event, batch.events[k]? = some event →
      event.eventId = deriveEventId (deriveCommitId handle.2.streamId metadata.operationId) k)

/-- Every loaded aggregate takes part, at its loaded version. -/
structure Guarded (acts : List Act) (t : EventTransaction) : Prop where
  length : t.participants.length = (loadedIn acts).length
  participant : ∀ (i : Nat) p handle, t.participants[i]? = some p → (loadedIn acts)[i]? = some handle →
    p.streamId = handle.2.streamId ∧ p.expectedVersion = expectedVersion handle.2.baseVersion

/-- The transaction of an accepted command has all that was raised, each event with its aggregate. -/
structure Exact (metadata : CommandExecutionMetadata) (acts : List Act) (t : EventTransaction) : Prop
    extends Guarded acts t where
  uninterrupted : ∀ i, ¬ InterruptedOn i acts
  raised : ∀ A (loaded : LoadedAggregate A) event, ⟨.raise A loaded event, ()⟩ ∈ acts →
    (loadedIn acts)[loaded.participant]? = some ⟨A, loaded⟩
  owner : ∀ (i : Nat) handle, (loadedIn acts)[i]? = some handle →
    ∀ r ∈ raisedOn i acts, r.handle = handle
  batch : ∀ (i : Nat) p handle, t.participants[i]? = some p → (loadedIn acts)[i]? = some handle →
    Batched metadata handle (raisedOn i acts) p.batch

/-- What a transaction is made of: the acts of an accepted command, or the guards of a rejected one. -/
def Proposes (metadata : CommandExecutionMetadata) {Rejection : Type} (acts : List Act)
    (decision : Except CommandExecutionError (CommandDecision Rejection)) (t : EventTransaction) :
    Prop :=
  decision = .ok .accepted ∧ Exact metadata acts t ∨
    (∃ rejection, decision = .ok (.rejected rejection)) ∧ Guarded acts t ∧
      ∀ p ∈ t.participants, p.batch = none

theorem batched_of_collected {handle : Handle} {raised : List Raised} {c : CollectedParticipant}
    {batch : Option EventBatch} (h : Collected metadata handle raised c)
    (hbatch : prepareBatchForStream metadata c.streamId c.events = .ok batch) :
    Batched metadata handle raised batch := by
  have hlength : c.events.length = raised.length := by
    have := congrArg List.length h.events
    simpa [encodings] using this
  unfold prepareBatchForStream at hbatch
  split at hbatch
  · next hnil =>
    obtain rfl := Except.ok.inj hbatch
    rw [hnil, List.length_nil] at hlength
    exact List.length_eq_zero_iff.mp hlength.symm
  · next hne =>
    obtain ⟨b, hb, rfl⟩ := by simpa only [bind_eq_ok, pure_eq_ok] using hbatch
    obtain ⟨hcommit, hoperation, -, hevents⟩ := EventBatch.new_eq_ok (mapError_eq_ok.mp hb)
    refine ⟨?_, hcommit.trans (by rw [h.streamId]), hoperation, ?_, ?_⟩
    · rintro rfl
      exact hne (List.length_eq_zero_iff.mp hlength)
    · exact (congrArg _ hevents).trans h.events
    · intro hcodec k event hevent
      exact h.ids hcodec k event (hevents ▸ hevent)

theorem participants_of_prepare {participants : List CollectedParticipant}
    {rejection : Option EncodedRejection} {t : EventTransaction}
    (h : prepareTransaction metadata participants rejection = .ok t) :
    List.Forall₂ (fun c p => p.streamId = c.streamId ∧
      p.expectedVersion = expectedVersion c.baseVersion ∧
        prepareBatchForStream metadata c.streamId c.events = .ok p.batch)
      participants t.participants := by
  simp only [prepareTransaction, bind_eq_ok, pure_eq_ok] at h
  obtain ⟨ps, hps, context, -, rfl⟩ := h
  refine (mapM_eq_ok.mp hps).imp fun c p hp => ?_
  simp only [prepareParticipant, bind_eq_ok, pure_eq_ok] at hp
  obtain ⟨batch, hbatch, rfl⟩ := hp
  exact ⟨rfl, rfl, hbatch⟩

/-- The transaction of an accepted command. -/
theorem Acts.exact {acts : List Act} {x : CommandExecution} (h : Acts codecs metadata acts x)
    {participants : List CollectedParticipant} {t : EventTransaction}
    (hfinish : x.finish = .ok participants)
    (hprepare : prepareTransaction metadata participants none = .ok t) : Exact metadata acts t := by
  have hps := participants_of_prepare hprepare
  have hcs : List.Forall₂ (fun p c => p.collect = .ok c) x.participants participants :=
    mapM_eq_ok.mp hfinish
  have hcollected : ∀ (i : Nat) p handle, t.participants[i]? = some p →
      (loadedIn acts)[i]? = some handle → ∃ c, Collected metadata handle (raisedOn i acts) c ∧
        p.streamId = c.streamId ∧ p.expectedVersion = expectedVersion c.baseVersion ∧
          prepareBatchForStream metadata c.streamId c.events = .ok p.batch := by
    intro i p handle hp hhandle
    obtain ⟨c, hc, hprepared⟩ := forall₂_getElem? hps hp
    obtain ⟨enlisted, henlisted, hcollect⟩ := forall₂_getElem? hcs hc
    exact ⟨c, (h.collected henlisted hhandle hcollect).2, hprepared⟩
  have hlength : x.participants.length = t.participants.length := hcs.length_eq.trans hps.length_eq
  refine { length := hlength.symm.trans h.length_eq, participant := ?_, uninterrupted := ?_,
           raised := ?_, owner := ?_, batch := ?_ }
  · intro i p handle hp hhandle
    obtain ⟨c, hc, hstream, hversion, -⟩ := hcollected i p handle hp hhandle
    exact ⟨hstream.trans hc.streamId, hversion.trans (by rw [hc.baseVersion])⟩
  · intro i hint
    have hi := h.follows.interrupted i hint
    have hi' : i < x.participants.length := h.length_eq ▸ hi
    have hi'' : i < participants.length := hcs.length_eq ▸ hi'
    exact (h.collected (List.getElem?_eq_getElem hi') (List.getElem?_eq_getElem hi)
      (hcs.get hi' hi'')).1 hint
  · intro A loaded event hmem
    exact h.follows.raised loaded.participant ⟨⟨A, loaded⟩, event⟩
      (List.mem_filterMap.mpr ⟨_, hmem, by simp⟩)
  · intro i handle hhandle r hr
    have hsome := h.follows.raised i r hr
    rw [hhandle] at hsome
    exact (Option.some.inj hsome).symm
  · intro i p handle hp hhandle
    obtain ⟨c, hc, -, -, hbatch⟩ := hcollected i p handle hp hhandle
    exact batched_of_collected hc hbatch

/-- The guards of a rejected command. -/
theorem Acts.guarded {acts : List Act} {x : CommandExecution} (h : Acts codecs metadata acts x)
    {participants : List CollectedParticipant} {rejection : Option EncodedRejection}
    {t : EventTransaction} (hfinish : x.finishRejected = .ok participants)
    (hprepare : prepareTransaction metadata participants rejection = .ok t) :
    Guarded acts t ∧ ∀ p ∈ t.participants, p.batch = none := by
  have hps := participants_of_prepare hprepare
  have hcs : List.Forall₂ (fun p c => c.streamId = p.streamId ∧ c.baseVersion = p.baseVersion ∧
      c.events = []) x.participants participants := by
    refine (mapM_eq_ok.mp hfinish).imp fun p c hc => ?_
    simp only [EnlistedParticipant.discard, bind_eq_ok, pure_eq_ok] at hc
    obtain ⟨_, -, rfl⟩ := hc
    exact ⟨rfl, rfl, rfl⟩
  have hlength : x.participants.length = t.participants.length := hcs.length_eq.trans hps.length_eq
  refine ⟨⟨hlength.symm.trans h.length_eq, fun i p handle hp hhandle => ?_⟩, fun p hp => ?_⟩
  · obtain ⟨c, hc, hstream, hversion, -⟩ := forall₂_getElem? hps hp
    obtain ⟨enlisted, henlisted, hstream', hversion', -⟩ := forall₂_getElem? hcs hc
    have hsame := h.follows.handle i enlisted handle henlisted hhandle
    exact ⟨hstream.trans (hstream'.trans hsame.1),
      hversion.trans (by rw [hversion', hsame.2])⟩
  · obtain ⟨i, hi⟩ := List.mem_iff_getElem?.mp hp
    obtain ⟨c, hc, -, -, hbatch⟩ := forall₂_getElem? hps hi
    obtain ⟨_, -, -, -, hnil⟩ := forall₂_getElem? hcs hc
    rw [prepareBatchForStream, if_pos hnil] at hbatch
    exact (Except.ok.inj hbatch).symm

theorem Acts.proposes {Rejection : Type} {codec : RejectionCodec Rejection} {acts : List Act}
    {x : CommandExecution} (h : Acts codecs metadata acts x)
    {decision : Except CommandExecutionError (CommandDecision Rejection)}
    {participants : List CollectedParticipant} {rejection : Option EncodedRejection}
    {t : EventTransaction} (hsettle : settle codec decision x = .ok (participants, rejection))
    (hprepare : prepareTransaction metadata participants rejection = .ok t) :
    Proposes metadata acts decision t := by
  simp only [settle, bind_eq_ok] at hsettle
  obtain ⟨decided, rfl, hsettle⟩ := hsettle
  cases decided with
  | accepted =>
    simp only [bind_eq_ok, pure_eq_ok, Prod.mk.injEq] at hsettle
    obtain ⟨ps, hfinish, rfl, rfl⟩ := hsettle
    exact .inl ⟨rfl, h.exact hfinish hprepare⟩
  | rejected rejection =>
    simp only [bind_eq_ok, pure_eq_ok, Prod.mk.injEq] at hsettle
    obtain ⟨ps, hfinish, _, -, _, -, _, -, rfl, rfl⟩ := hsettle
    exact .inr ⟨⟨rejection, rfl⟩, h.guarded hfinish hprepare⟩

/-! ## Handlers -/

/-- A handle is in its place. -/
theorem Acts.participant_lt {acts : List Act} {x : CommandExecution} (h : Acts codecs metadata acts x)
    {participant : Nat} (hhandle : ∃ handle ∈ loadedIn acts, handle.2.participant = participant) :
    participant < (loadedIn acts).length := by
  obtain ⟨handle, hmem, rfl⟩ := hhandle
  obtain ⟨i, hi⟩ := List.mem_iff_getElem?.mp hmem
  rw [h.follows.index i handle hi]
  exact (List.getElem?_eq_some_iff.mp hi).1

/-- A handler acts on the handles that it was given: it can make none of its own. -/
def Handler.OwnsHandles {Rejection : Type} : List Handle → Handler Rejection → Prop
  | _, .done _ => True
  | handles, .call (.load A _) next =>
    (∀ loaded, OwnsHandles (handles ++ [⟨A, loaded⟩]) (next (.ok loaded))) ∧
      ∀ e, OwnsHandles handles (next (.error e))
  | handles, .call (.raise A loaded _) next => ⟨A, loaded⟩ ∈ handles ∧ OwnsHandles handles (next ())
  | handles, .call (.interrupt participant _) next =>
    (∃ handle ∈ handles, handle.2.participant = participant) ∧ OwnsHandles handles (next ())
  | handles, .call (.replace participant _) next =>
    (∃ handle ∈ handles, handle.2.participant = participant) ∧ OwnsHandles handles (next ())
  | handles, .call (.drop participant) next =>
    (∃ handle ∈ handles, handle.2.participant = participant) ∧ OwnsHandles handles (next ())

end Acts

namespace ExecutionStore

variable [Crates] {authority : CommandAuthority} {codecs : AggregateCodecs}
  {metadata : CommandExecutionMetadata} {Rejection : Type} {trace : List Exchange}

/-- A load reads the history that its store answers. -/
theorem load_history {A : Aggregate} {aggregateId : String} {x : CommandExecution}
    {r : Except CommandExecutionError (LoadedAggregate A) × CommandExecution}
    (h : Answered (x.load (calls authority).load codecs metadata A aggregateId) trace r) :
    ∃ history : EventHistory Id, Id.run (x.load history codecs metadata A aggregateId) = r := by
  unfold CommandExecution.load at h ⊢
  split at h
  · next e _ =>
    obtain ⟨-, rfl⟩ := Answered.done_iff.mp h
    exact ⟨fun _ => .ok [], rfl⟩
  · next streamId _ =>
    obtain ⟨first, rest, answer, rfl, -, hrest⟩ := Answered.bind_inv h
    refine ⟨fun _ => (pure answer : Id _), ?_⟩
    dsimp only
    rw [pure_bind]
    cases answer with
    | error e =>
      obtain ⟨-, rfl⟩ := Answered.done_iff.mp hrest
      rfl
    | ok events =>
      cases henlist : x.enlist codecs A streamId events with
      | error e =>
        simp only [henlist] at hrest ⊢
        obtain ⟨-, rfl⟩ := Answered.done_iff.mp hrest
        rfl
      | ok enlisted =>
        simp only [henlist] at hrest ⊢
        obtain ⟨-, rfl⟩ := Answered.done_iff.mp hrest
        rfl

/-- The acts of a handler, whatever the histories are. -/
theorem acts_of_handle (handler : Handler Rejection) {acts : List Act} {x : CommandExecution}
    (hacts : Acts codecs metadata acts x) (hown : handler.OwnsHandles (loadedIn acts))
    {r : Except CommandExecutionError (CommandDecision Rejection) × CommandExecution}
    (h : Answered (CommandExecution.handle (calls authority).load codecs metadata handler x) trace r) :
    ∃ more, Answered handler more r.1 ∧ Acts codecs metadata (acts ++ more) r.2 := by
  induction handler generalizing acts x trace with
  | done decision =>
    obtain ⟨-, rfl⟩ := Answered.done_iff.mp h
    exact ⟨[], .done, by rwa [List.append_nil]⟩
  | call call next ih =>
    have hstep : ∀ {answer : call.Answer} {x' : CommandExecution} {rest : List Exchange},
        Acts codecs metadata (acts ++ [⟨call, answer⟩]) x' →
        Handler.OwnsHandles (loadedIn (acts ++ [⟨call, answer⟩])) (next answer) →
        Answered (CommandExecution.handle (calls authority).load codecs metadata (next answer) x')
          rest r →
        ∃ more, Answered (.call call next) more r.1 ∧ Acts codecs metadata (acts ++ more) r.2 := by
      intro answer x' rest hacts' hown' hrest
      obtain ⟨more, hmore, hend⟩ := ih answer hacts' hown' hrest
      rw [List.append_assoc] at hend
      exact ⟨_, .call hmore, hend⟩
    have hsame : ∀ {act : Act} {handler : Handler Rejection}, loadedIn [act] = [] →
        handler.OwnsHandles (loadedIn acts) → handler.OwnsHandles (loadedIn (acts ++ [act])) := by
      intro act handler hact hown
      have heq : loadedIn (acts ++ [act]) = loadedIn acts :=
        List.filterMap_append.trans ((congrArg _ hact).trans (List.append_nil _))
      rwa [heq]
    cases call with
    | load A aggregateId =>
      obtain ⟨first, rest, ⟨answer, x'⟩, rfl, hload, hrest⟩ := Answered.bind_inv h
      obtain ⟨history, hhistory⟩ := load_history hload
      refine hstep (.load hacts history hhistory) ?_ hrest
      cases answer with
      | ok loaded =>
        rw [loadedIn_concat_load]
        exact hown.1 loaded
      | error e =>
        exact hsame rfl (hown.2 e)
    | raise A loaded event => exact hstep (.raise hacts hown.1 event) (hsame rfl hown.2) h
    | interrupt participant pushed =>
      exact hstep (.interrupt hacts (hacts.participant_lt hown.1) pushed) (hsame rfl hown.2) h
    | replace participant held =>
      exact hstep (.replace hacts (hacts.participant_lt hown.1) held) (hsame rfl hown.2) h
    | drop participant =>
      exact hstep (.drop hacts (hacts.participant_lt hown.1)) (hsame rfl hown.2) h

/-- One attempt of a command: its handler, and the commit of what is collected from it. -/
def attempt (store : ExecutionStore ExecutionProgram) (metadata : CommandExecutionMetadata)
    (codecs : AggregateCodecs) (codec : RejectionCodec Rejection) (handler : Handler Rejection) :
    ExceptT CommandExecutionError ExecutionProgram PersistenceAttempt := do
  let (participants, rejection) ← store.evaluate metadata codecs codec handler
  store.appendTransaction metadata participants rejection

/-- What the acts of a handler make of a command. -/
def Made (codecs : AggregateCodecs) (metadata : CommandExecutionMetadata)
    (handler : Handler Rejection) (t : EventTransaction) : Prop :=
  ∃ acts decision x, Answered handler acts decision ∧ Acts codecs metadata acts x ∧
    Proposes metadata acts decision t

/-- An attempt commits nothing and fails, or commits once, and then what its handler did. -/
theorem attempt_exact {codec : RejectionCodec Rejection} {handler : Handler Rejection}
    (hown : handler.OwnsHandles []) {r : Except CommandExecutionError PersistenceAttempt}
    (h : Answered (attempt (calls authority) metadata codecs codec handler).run trace r) :
    ((∃ e, r = .error e) ∧ ∀ exchange ∈ trace, exchange.IsLoad) ∨
      ∃ loads t answer, trace = loads ++ [⟨.commitOutcome t, answer⟩] ∧
        (∀ exchange ∈ loads, exchange.IsLoad) ∧ Made codecs metadata handler t := by
  rcases Answered.bindE_inv h with ⟨e, rfl, hfirst⟩ | ⟨first, rest, collected, rfl, hfirst, hrest⟩
  · exact .inl ⟨⟨e, rfl⟩, evaluate_inv hfirst⟩
  rcases appendTransaction_inv hrest with ⟨rfl, e, rfl⟩ | ⟨t, answer, rfl, ht, -⟩
  · rw [List.append_nil]
    exact .inl ⟨⟨e, rfl⟩, evaluate_inv hfirst⟩
  · refine .inr ⟨first, t, answer, rfl, evaluate_inv hfirst, ?_⟩
    obtain ⟨loads, rest, ⟨decision, x⟩, -, hhandle, hsettle⟩ := Answered.liftP_inv hfirst
    obtain ⟨acts, hacts, hx⟩ := acts_of_handle handler .start hown hhandle
    exact ⟨acts, decision, x, hacts, hx, hx.proposes (Answered.lift_inv hsettle).2.symm ht⟩

/-- A turn of the loop is an attempt, between questions for the outcome. -/
theorem executeLoop_cons {executor : CommandExecutor} {codec : RejectionCodec Rejection}
    {handler : Handler Rejection} {attempts : List (Handler Rejection)} {evaluations : Nat} :
    (calls authority).executeLoop metadata executor codec (handler :: attempts) evaluations = (do
      let winner ← (calls authority).lookupCompleted metadata
      match winner with
      | some outcome => return some (.exactReplay outcome)
      | none =>
        ExceptT.adapt CommandExecutionError.store (ExceptT.mk (calls authority).beginCommand)
        let attempt ← attempt (calls authority) metadata executor.codecs codec handler
        match attempt with
        | .completed commit =>
          let context ← liftM (metadata.requiredBoundedContext.mapError CommandExecutionError.store)
          liftM (validateCompleted commit.outcome ((calls authority).outcomeKey metadata context)
            metadata)
          return some commit
        | .conflict e =>
          let winner ← (calls authority).lookupCompleted metadata
          match winner with
          | some outcome => return some (.exactReplay outcome)
          | none =>
            if e.kind ≠ .conflict then throwThe CommandExecutionError (.store e)
            else
              match executor.conflictRetryPolicy (saturatingSucc evaluations) e with
              | .stop => throwThe CommandExecutionError (.store e)
              | .retryNow | .retryAfter _ =>
                (calls authority).executeLoop metadata executor codec attempts
                  (saturatingSucc evaluations)) := by
  rw [executeLoop]
  refine congrArg _ (funext fun winner => ?_)
  cases winner with
  | some outcome => rfl
  | none =>
    exact bind_congr fun _ => (bind_assoc _ _ _).symm

/-- Every commit is in an attempt of one of the handlers. -/
theorem attempt_of_commit {executor : CommandExecutor} {codec : RejectionCodec Rejection}
    {attempts : List (Handler Rejection)} {evaluations : Nat}
    {r : Except CommandExecutionError (Option CompletedCommit)} {t : EventTransaction}
    {answer : Except EventStoreError CompletedCommit}
    (h : Answered ((calls authority).executeLoop metadata executor codec attempts evaluations).run
      trace r) (hcommit : ⟨.commitOutcome t, answer⟩ ∈ trace) :
    ∃ handler ∈ attempts, ∃ part r',
      Answered (attempt (calls authority) metadata executor.codecs codec handler).run part r' ∧
        ⟨.commitOutcome t, answer⟩ ∈ part := by
  have hlookup : ∀ {part : List Exchange} {r : Except CommandExecutionError (Option CompletedOutcome)},
      Answered ((calls authority).lookupCompleted metadata).run part r →
      (⟨.commitOutcome t, answer⟩ : Exchange) ∉ part := by
    intro part r hpart hmem
    rcases lookupCompleted_inv hpart with ⟨rfl, -⟩ | ⟨key, found, rfl, -⟩
    · cases hmem
    · cases List.mem_singleton.mp hmem
  have hnil : (⟨.commitOutcome t, answer⟩ : Exchange) ∉ [] := List.not_mem_nil
  induction attempts generalizing evaluations trace with
  | nil =>
    obtain ⟨rfl, -⟩ := Answered.done_iff.mp h
    cases hcommit
  | cons handler attempts ih =>
    rw [executeLoop_cons] at h
    rcases Answered.bindE_inv h with ⟨e, rfl, hfirst⟩ | ⟨first, rest, winner, rfl, hfirst, hrest⟩
    · exact absurd hcommit (hlookup hfirst)
    replace hcommit := (List.mem_append.mp hcommit).resolve_left (hlookup hfirst)
    cases winner with
    | some outcome =>
      obtain ⟨rfl, -⟩ := Answered.done_iff.mp hrest
      cases hcommit
    | none =>
      have hbegin : ∀ {part : List Exchange} {r : Except CommandExecutionError Unit},
          Answered (ExceptT.adapt CommandExecutionError.store
            (ExceptT.mk (calls authority).beginCommand)).run part r →
          (⟨.commitOutcome t, answer⟩ : Exchange) ∉ part := by
        intro part r hpart hmem
        obtain ⟨begun, hcall, -⟩ := Answered.adapt_inv hpart
        obtain rfl := Answered.perform_inv hcall
        cases List.mem_singleton.mp hmem
      rcases Answered.bindE_inv hrest with ⟨e, rfl, hbegun⟩ | ⟨begun, rest, _, rfl, hbegun, hrest⟩
      · exact absurd hcommit (hbegin hbegun)
      replace hcommit := (List.mem_append.mp hcommit).resolve_left (hbegin hbegun)
      rcases Answered.bindE_inv hrest with ⟨e, rfl, hattempt⟩ | ⟨part, rest, done, rfl, hattempt, hrest⟩
      · exact ⟨handler, List.mem_cons_self, _, _, hattempt, hcommit⟩
      rcases List.mem_append.mp hcommit with hcommit | hcommit
      · exact ⟨handler, List.mem_cons_self, _, _, hattempt, hcommit⟩
      cases done with
      | completed commit =>
        rcases Answered.liftBind_inv hrest with ⟨e, -, rfl, -⟩ | ⟨context, -, hrest⟩
        · cases hcommit
        · rcases Answered.liftBind_inv hrest with ⟨e, -, rfl, -⟩ | ⟨_, -, hrest⟩
          · cases hcommit
          · obtain ⟨rfl, -⟩ := Answered.done_iff.mp hrest
            cases hcommit
      | conflict e =>
        rcases Answered.bindE_inv hrest with ⟨e', rfl, hagain⟩ | ⟨again, rest, winner, rfl, hagain, hrest⟩
        · exact absurd hcommit (hlookup hagain)
        replace hcommit := (List.mem_append.mp hcommit).resolve_left (hlookup hagain)
        cases winner with
        | some outcome =>
          obtain ⟨rfl, -⟩ := Answered.done_iff.mp hrest
          cases hcommit
        | none =>
          dsimp only at hrest
          split at hrest
          · obtain ⟨rfl, -⟩ := Answered.done_iff.mp hrest
            cases hcommit
          split at hrest
          · obtain ⟨rfl, -⟩ := Answered.done_iff.mp hrest
            cases hcommit
          all_goals
            obtain ⟨handler', hmem, hpart⟩ := ih hrest hcommit
            exact ⟨handler', List.mem_cons_of_mem _ hmem, hpart⟩

end ExecutionStore

/-! ## An account that is opened -/

namespace Sample

attribute [local instance] Crates.concrete

/-- An account, whose one event has no content. -/
def account : Aggregate where
  boundedContext := "billing"
  aggregateType := "account"
  State := Unit
  Event := Unit
  initial _ := ()
  apply _ _ := ()
  eventType _ := "opened"
  schemaVersion _ := 1
  encodeJson _ := .ok [123, 125]
  decodeJson _ := .ok ()

/-- The account is loaded and opened. -/
def opens : Handler Unit :=
  .call (.load account "7") fun
    | .ok loaded => .call (.raise account loaded ()) fun _ => .call (.drop loaded.participant) fun _ =>
      .done (.ok .accepted)
    | .error e => .done (.error e)

theorem opens_ownsHandles : opens.OwnsHandles [] := by
  refine ⟨fun loaded => ⟨by simp, ⟨_, List.mem_singleton_self _, rfl⟩, trivial⟩, fun _ => trivial⟩

/-- A command that opens the account. -/
def starting : Execution := { persistent with attempts := [opens] }

/-- What the account's command commits. -/
def proposed : List Exchange → Option EventTransaction
  | [] => none
  | ⟨.commitOutcome t, _⟩ :: _ => some t
  | _ :: rest => proposed rest

theorem mem_of_proposed {trace : List Exchange} {t : EventTransaction} (h : proposed trace = some t) :
    ∃ answer, ⟨.commitOutcome t, answer⟩ ∈ trace := by
  fun_induction proposed trace with
  | case1 => cases h
  | case2 t' answer rest =>
    obtain rfl := Option.some.inj h
    exact ⟨answer, List.mem_cons_self⟩
  | case3 x rest _ ih => exact (ih h).imp fun _ hmem => List.mem_cons_of_mem _ hmem

end Sample

end Rostfrei
