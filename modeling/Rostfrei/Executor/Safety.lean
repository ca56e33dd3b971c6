import Rostfrei.Executor.Serial

/-!
# Concurrent executions are serial

Any number of executions that share one store, each interleaved with the others at every call.
`executeLoop_safe` shows that each of them makes only steps of the serial machine: its reads change
nothing, and the one call that can change the store makes a `Decision`, because every aggregate the
handler loaded takes part in the transaction with the version that was loaded.
-/

namespace Rostfrei

open Lib Memory Program

variable [Crates]

/-- The store, shared by executions: in every state there is a serial run that leads to it. -/
def executions (store : InMemoryEventStore) (issued : Execution → Prop) :
    Protocol StoreCall StoreCall.Answer State where
  exec st call answer st' := store.serve st call = (answer, st')
  inv st := ∃ log, SerialRun store issued .empty log st
  rely st st' := ∃ log, SerialRun store issued st log st'
  rely_refl _ := ⟨[], rfl⟩
  rely_trans := fun ⟨_, h⟩ ⟨_, h'⟩ => ⟨_, h.append h'⟩

variable {store : InMemoryEventStore} {issued : Execution → Prop} {s s' : State}

/-! ## States of executions -/

theorem executions_wellFormed (h : (executions store issued).inv s) : store.WellFormed s := by
  obtain ⟨log, hrun⟩ := h
  exact (hrun.invariant InMemoryEventStore.invariant_empty).wellFormed

omit [Crates] in
/-- The version of a history that is numbered from one. -/
theorem historyVersion_eq {history : List RecordedEvent}
    (h : history.map (·.streamVersion) = List.range' 1 history.length) :
    historyVersion history = history.length := by
  rcases List.eq_nil_or_concat history with rfl | ⟨init, last, rfl⟩
  · rfl
  · have hlast : last.streamVersion = init.length + 1 := by
      simpa [List.getLast?_range'] using congrArg List.getLast? h
    simp [historyVersion, hlast]

/-- A stream that has the version of an earlier moment is the stream of that moment. -/
theorem stream_eq_of_version (hs : (executions store issued).inv s)
    (hs' : (executions store issued).inv s') (hrely : (executions store issued).rely s s')
    {streamId : StreamId} (hversion : s'.currentVersion streamId = historyVersion (s.stream streamId)) :
    s'.stream streamId = s.stream streamId := by
  obtain ⟨log, hrun⟩ := hrely
  have hgrow := hrun.stream streamId
  have hlen : (s'.stream streamId).length = (s.stream streamId).length := by
    rw [← historyVersion_eq ((executions_wellFormed hs).versions streamId),
      ← historyVersion_eq ((executions_wellFormed hs').versions streamId)]
    exact hversion
  have hnil : log.flatMap (·.events streamId) = [] := by
    rw [hgrow, List.length_append] at hlen
    exact List.length_eq_zero_iff.mp (by omega)
  rw [hgrow, hnil, List.append_nil]

/-! ## Handlers -/

namespace CommandExecution

omit [Crates] in
/-- The streams of the participants with the versions that were loaded. -/
def versions (x : CommandExecution) : List (StreamId × Nat) :=
  x.participants.map fun p => (p.streamId, p.baseVersion)

omit [Crates] in
/-- Every loaded version is the version of the state. -/
def Current (x : CommandExecution) (st : State) : Prop :=
  ∀ v ∈ x.versions, st.currentVersion v.1 = v.2

omit [Crates] in
theorem Current.mono {x y : CommandExecution} {st : State} (h : y.Current st)
    (hsub : x.versions <+: y.versions) : x.Current st := fun v hv => h v (hsub.subset hv)

omit [Crates] in
/-- Tracking events does not change what was loaded. -/
theorem map_modify_versions (ps : List EnlistedParticipant) (i : Nat)
    {f : EnlistedParticipant → EnlistedParticipant}
    (hf : ∀ p, (f p).streamId = p.streamId ∧ (f p).baseVersion = p.baseVersion) :
    ((ps.modify i f).map fun p => (p.streamId, p.baseVersion)) =
      ps.map fun p => (p.streamId, p.baseVersion) := by
  induction ps generalizing i with
  | nil => simp
  | cons p ps ih =>
    cases i with
    | zero => simp [hf p]
    | succ i => simp [ih i]

theorem versions_raise {A : Aggregate} (x : CommandExecution) (m : CommandExecutionMetadata)
    (loaded : LoadedAggregate A) (event : A.Event) :
    (x.raise m loaded event).versions = x.versions :=
  map_modify_versions _ _ fun _ => ⟨rfl, rfl⟩

omit [Crates] in
theorem versions_interrupt (x : CommandExecution) (i : Nat) (pushed : Bool) :
    (x.interrupt i pushed).versions = x.versions :=
  map_modify_versions _ _ fun _ => ⟨rfl, rfl⟩

omit [Crates] in
theorem versions_replace (x : CommandExecution) (i : Nat) (held : Option Nat) :
    (x.replace i held).versions = x.versions :=
  map_modify_versions _ _ fun _ => ⟨rfl, rfl⟩

omit [Crates] in
theorem versions_drop (x : CommandExecution) (i : Nat) : (x.drop i).versions = x.versions :=
  map_modify_versions _ _ fun _ => ⟨rfl, rfl⟩

theorem enlist_ok {x x' : CommandExecution} {codecs : AggregateCodecs} {A : Aggregate}
    {streamId : StreamId} {history : List RecordedEvent} {loaded : LoadedAggregate A}
    (h : x.enlist codecs A streamId history = .ok (loaded, x')) :
    x'.versions = x.versions ++ [(streamId, historyVersion history)] := by
  simp only [enlist, bind_eq_ok, pure_eq_ok, Prod.mk.injEq] at h
  obtain ⟨_, -, _, -, _, -, -, rfl⟩ := h
  simp [versions]

end CommandExecution

/-- What a load or a handler found stays true as long as every loaded version is current: made in
one later state, it finds the same. -/
def Repeatable {α : Type} (store : InMemoryEventStore) (issued : Execution → Prop)
    (x : CommandExecution) (again : State → α × CommandExecution) (calls : Calls State)
    (r : α × CommandExecution) (s : State) : Prop :=
  Unchanged calls ∧ x.versions <+: r.2.versions ∧
    ∀ s', (executions store issued).rely s s' → (executions store issued).inv s' →
      r.2.Current s' → again s' = r

theorem Repeatable.later {α : Type} {x : CommandExecution} {again : State → α × CommandExecution}
    {calls : Calls State} {r : α × CommandExecution}
    (h : Repeatable store issued x again calls r s) (hR : (executions store issued).rely s s') :
    Repeatable store issued x again calls r s' :=
  ⟨h.1, h.2.1, fun s₁ h₁ => h.2.2 s₁ ((executions store issued).rely_trans hR h₁)⟩

theorem history_safe (streamId : StreamId) :
    Safe (executions store issued)
      (fun calls r s' => Unchanged calls ∧ ∃ s₁, (executions store issued).inv s₁ ∧
        (executions store issued).rely s₁ s' ∧ r = .ok (s₁.stream streamId))
      (Session.history streamId) s := by
  refine Safe.bind (Safe.perform (StoreCall.load streamId) fun s₁ _ hI r s₂ he => ?_)
  obtain ⟨rfl, rfl⟩ := Prod.mk.inj he
  refine ⟨hI, ⟨[], rfl⟩, fun s₃ h₃ _ => Safe.pure fun s₄ h₄ _ => ?_⟩
  exact ⟨by simp [Unchanged], s₁, hI, (executions store issued).rely_trans h₃ h₄, rfl⟩

namespace CommandExecution

variable {x : CommandExecution} {codecs : AggregateCodecs} {A : Aggregate} {streamId : StreamId}
  {history more : List RecordedEvent}

/-- A valid history loads if its events can be decoded. -/
theorem enlist_eq {codec : EventCodec A} (hvalid : validateHistory streamId history = .ok ())
    (hcodec : codecs.resolve A = .ok codec) :
    x.enlist codecs A streamId history =
      match history.mapM codec.decode with
      | .error e => .error (.codec e)
      | .ok events => .ok
        (⟨x.participants.length, streamId, events.foldl A.apply (A.initial streamId),
            historyVersion history, codec⟩,
          ⟨insert streamId x.loadedStreams,
            x.participants ++ [⟨streamId, historyVersion history, ⟨[], none⟩, 0, some x.participants.length⟩]⟩) := by
  unfold enlist
  rw [hvalid, hcodec]
  show ((history.mapM codec.decode).mapError _ >>= _) = _
  cases history.mapM codec.decode <;> rfl

/-- A load in one state. -/
theorem load_history {m : CommandExecutionMetadata} {aggregateId : String} (st : State)
    (hprepare : x.prepareLoad m A aggregateId = .ok streamId) :
    Id.run (x.load st.history codecs m A aggregateId) =
      match x.enlist codecs A streamId (st.stream streamId) with
      | .error e => (.error e, x)
      | .ok (loaded, x') => (.ok loaded, x') := by
  rw [load, hprepare]
  have hhistory : st.history streamId = (pure (.ok (st.stream streamId)) : Id _) := rfl
  dsimp only
  rw [hhistory, pure_bind]
  dsimp only
  cases x.enlist codecs A streamId (st.stream streamId) <;> rfl

/-- A history that is longer now fails to load as before. -/
theorem enlist_error {e : CommandExecutionError}
    (h : x.enlist codecs A streamId history = .error e)
    (hvalid : validateHistory streamId history = .ok ())
    (hvalid' : validateHistory streamId (history ++ more) = .ok ()) :
    x.enlist codecs A streamId (history ++ more) = .error e := by
  cases hcodec : codecs.resolve A with
  | error e' =>
    unfold enlist at h ⊢
    rw [hvalid, hcodec] at h
    rw [hvalid', hcodec]
    exact h
  | ok codec =>
    rw [enlist_eq hvalid hcodec] at h
    rw [enlist_eq hvalid' hcodec, List.mapM_append]
    cases hd : history.mapM codec.decode with
    | error e' => rw [hd] at h; exact h
    | ok events => rw [hd] at h; cases h

end CommandExecution

theorem load_safe (x : CommandExecution) (codecs : AggregateCodecs) (m : CommandExecutionMetadata)
    (A : Aggregate) (aggregateId : String) :
    Safe (executions store issued)
      (Repeatable store issued x fun s' =>
        Id.run (x.load s'.history codecs m A aggregateId))
      (x.load Session.history codecs m A aggregateId) s := by
  cases hprepare : x.prepareLoad m A aggregateId with
  | error e =>
    unfold CommandExecution.load
    rw [hprepare]
    exact Safe.pure fun _ _ _ => ⟨.nil, List.prefix_rfl, fun _ _ _ _ => rfl⟩
  | ok streamId =>
    simp only [CommandExecution.load_history _ hprepare]
    unfold CommandExecution.load
    rw [hprepare]
    refine Safe.bind (Safe.mono (history_safe streamId) fun calls r s₂ hI₂ hr => ?_)
    obtain ⟨hcalls, s₁, hI₁, hR₁, rfl⟩ := hr.here hI₂
    clear hr
    have hvalid := (executions_wellFormed hI₁).history streamId
    dsimp only
    cases henlist : x.enlist codecs A streamId (s₁.stream streamId) with
    | error e =>
      refine Safe.pure fun s₃ hR₃ _ => ⟨by simpa using hcalls, List.prefix_rfl, ?_⟩
      intro s' hR' hI' _
      obtain ⟨log, hrun⟩ := (executions store issued).rely_trans hR₁
        ((executions store issued).rely_trans hR₃ hR')
      have hvalid' := (executions_wellFormed hI').history streamId
      dsimp only
      rw [hrun.stream] at hvalid' ⊢
      rw [CommandExecution.enlist_error henlist hvalid hvalid']
    | ok answer =>
      obtain ⟨loaded, x'⟩ := answer
      have hversions := CommandExecution.enlist_ok henlist
      refine Safe.pure fun s₃ hR₃ _ => ⟨by simpa using hcalls, ?_, ?_⟩
      · show x.versions <+: x'.versions
        exact hversions ▸ List.prefix_append _ _
      · intro s' hR' hI' hcurrent
        have hmem : (streamId, historyVersion (s₁.stream streamId)) ∈ x'.versions := by
          simp [hversions]
        have hsame := stream_eq_of_version hI₁ hI' ((executions store issued).rely_trans hR₁
          ((executions store issued).rely_trans hR₃ hR')) (hcurrent _ hmem)
        dsimp only at hsame ⊢
        rw [hsame, henlist]

/-- A handler that runs among others gives what it gives in one moment, at any later moment at which
the loaded versions are current. -/
theorem handle_safe {Rejection : Type} (codecs : AggregateCodecs) (m : CommandExecutionMetadata)
    (handler : Handler Rejection) (x : CommandExecution) :
    Safe (executions store issued)
      (Repeatable store issued x fun s' =>
        Id.run (CommandExecution.handle s'.history codecs m handler x))
      (CommandExecution.handle Session.history codecs m handler x) s := by
  induction handler generalizing x s with
  | done decision => exact Safe.pure fun _ _ _ => ⟨.nil, List.prefix_rfl, fun _ _ _ _ => rfl⟩
  | call call next ih =>
    cases call with
    | load A aggregateId =>
      refine Safe.bind (Safe.mono (load_safe x codecs m A aggregateId) fun calls r s₁ hI₁ hr => ?_)
      obtain ⟨hcalls, hinitial, hload⟩ := hr.here hI₁
      refine Safe.mono (Safe.remember (ih r.1 r.2)) fun rest r' s₂ hI₂ hr' => ?_
      obtain ⟨hR₂, hrest, hinitial', hagain⟩ := hr'.here hI₂
      refine ⟨hcalls.append hrest, hinitial.trans hinitial', fun s' hR' hI' hcurrent => ?_⟩
      have hfirst := hload s' ((executions store issued).rely_trans hR₂ hR') hI'
        (hcurrent.mono hinitial')
      have hsecond := hagain s' hR' hI' hcurrent
      simp only [CommandExecution.handle, Id.run_bind, hfirst, hsecond]
    | raise A loaded event =>
      refine Safe.mono (ih () (x.raise m loaded event)) fun calls r s₁ hI₁ hr => ?_
      obtain ⟨hcalls, hinitial, hagain⟩ := hr.here hI₁
      exact ⟨hcalls, by rwa [CommandExecution.versions_raise] at hinitial, hagain⟩
    | interrupt i pushed =>
      refine Safe.mono (ih () (x.interrupt i pushed)) fun calls r s₁ hI₁ hr => ?_
      obtain ⟨hcalls, hinitial, hagain⟩ := hr.here hI₁
      exact ⟨hcalls, by rwa [CommandExecution.versions_interrupt] at hinitial, hagain⟩
    | replace i held =>
      refine Safe.mono (ih () (x.replace i held)) fun calls r s₁ hI₁ hr => ?_
      obtain ⟨hcalls, hinitial, hagain⟩ := hr.here hI₁
      exact ⟨hcalls, by rwa [CommandExecution.versions_replace] at hinitial, hagain⟩
    | drop i =>
      refine Safe.mono (ih () (x.drop i)) fun calls r s₁ hI₁ hr => ?_
      obtain ⟨hcalls, hinitial, hagain⟩ := hr.here hI₁
      exact ⟨hcalls, by rwa [CommandExecution.versions_drop] at hinitial, hagain⟩

/-! ## Outcomes -/

/-- The outcome is that of a known decision for the operation. -/
def Answers (store : InMemoryEventStore) (issued : Execution → Prop) (context : BoundedContextName)
    (op : OperationId) (outcome : CompletedOutcome) (s : State) : Prop :=
  ∃ d : Decision, d.Known store issued s ∧ d.key = (context, op) ∧ outcome = d.outcome store

theorem Answers.later {context : BoundedContextName} {op : OperationId} {outcome : CompletedOutcome}
    (h : Answers store issued context op outcome s) (hR : (executions store issued).rely s s') :
    Answers store issued context op outcome s' := by
  obtain ⟨d, hd, hkey, ho⟩ := h
  obtain ⟨log, hrun⟩ := hR
  exact ⟨d, hd.later hrun, hkey, ho⟩

/-- A record in a state of executions is that of a known decision. -/
theorem known_of_record (hI : (executions store issued).inv s) {context : BoundedContextName}
    {op : OperationId} {stored : StoredTransaction}
    (h : s.transactions.lookup (some context, op) = some stored) :
    ∃ d : Decision, d.Known store issued s ∧ d.key = (context, op) ∧
      stored = .scoped (d.marker store) := by
  obtain ⟨log, hrun⟩ := hI
  obtain ⟨d, hmem, hkey, hstored⟩ := hrun.of_record h
  exact ⟨d, hrun.known hmem, hkey, hstored⟩

section Lookups

variable [Crates.Lawful] (hhot : store.hot = memoryDetails)

include hhot

/-- The details of a known decision are read back. -/
theorem resolveMarker_safe {d : Decision} (hd : d.Known store issued s) :
    SafeE (executions store issued)
      (fun calls outcome _ => Unchanged calls ∧ outcome = d.outcome store) (fun _ _ _ => False)
      (Session.resolveMarker (d.marker store)) s := by
  refine .bind (.liftP (Safe.perform (StoreCall.lifecycle _) fun s₁ ⟨_, h₁⟩ hI₁ r s₂ he => ?_))
  obtain ⟨rfl, rfl⟩ := Prod.mk.inj he
  refine ⟨hI₁, ⟨[], rfl⟩, fun s₂ ⟨_, h₂⟩ _ => ?_⟩
  rw [(hd.later h₁).details]
  refine .bind (Safe.perform (StoreCall.details _) fun s₃ ⟨_, h₃⟩ hI₃ r s₄ he => ?_)
  obtain ⟨rfl, rfl⟩ := Prod.mk.inj he
  have hknown := (hd.later h₁).later (h₂.append h₃)
  have hread : resolveDetails (d.marker store).reference
      (store.hot s₃ (d.marker store).reference)
      (store.cold.map fun reader => reader s₃ (d.marker store).reference) =
      .ok (.available ⟨(d.marker store).reference, d.transaction.completion⟩) := by
    have hdecode : EncodedOutcomeDetails.decode (d.marker store).reference d.bytes =
        .ok ⟨(d.marker store).reference, d.transaction.completion⟩ :=
      EncodedOutcomeDetails.decode_encode hknown.valid.recorded.valid
        hknown.valid.recorded.encode
    simp [resolveDetails, resolveReads, hhot, memoryDetails, hknown.details, hdecode]
  rw [hread]
  refine ⟨hI₃, ⟨[], rfl⟩, fun s₄ _ _ => ?_⟩
  refine .lift (fun outcome houtcome s₅ _ _ => ?_) fun e he => ?_
  · refine ⟨by simp [Unchanged], ?_⟩
    simpa [CompletedOutcome.new, validateDetailBinding, rejectIf, Except.mapError,
      Decision.outcome, eq_comm] using houtcome
  · simp [CompletedOutcome.new, validateDetailBinding, rejectIf, Except.mapError] at he


/-- A lookup finds the outcome of a known decision, or none. -/
theorem lookupOutcome_safe (context : BoundedContextName) (op : OperationId) :
    SafeE (executions store issued)
      (fun calls found s' => Unchanged calls ∧ ∀ outcome, found = .completed outcome →
        Answers store issued context op outcome s')
      (fun calls _ _ => Unchanged calls)
      (Session.lookupOutcome store ⟨store.authority, context, op⟩) s := by
  refine .bind (.lift (fun _ _ s₁ _ _ => ?_) fun _ _ _ _ _ => .nil)
  refine .bind (.liftP (Safe.perform (StoreCall.transaction context op)
    fun s₂ _ hI₂ r s₃ he => ?_))
  obtain ⟨rfl, rfl⟩ := Prod.mk.inj he
  refine ⟨hI₂, ⟨[], rfl⟩, fun s₃ ⟨_, h₃⟩ _ => ?_⟩
  rcases hrecord : s₂.transactions.lookup (some context, op) with _ | stored
  · exact .pure fun _ _ _ => ⟨by simp [Unchanged], by simp⟩
  · obtain ⟨d, hd, hkey, rfl⟩ := known_of_record hI₂ hrecord
    refine .bind (.adapt (Safe.mono (resolveMarker_safe hhot (hd.later h₃)).remember
      fun calls r s₄ hI₄ hr => ?_))
    cases r with
    | error e => exact (hr.here hI₄).2.elim
    | ok outcome =>
      obtain ⟨⟨_, h₄⟩, hcalls, rfl⟩ := hr.here hI₄
      refine fun s₅ ⟨_, h₅⟩ _ => .pure fun s₆ ⟨_, h₆⟩ _ => ⟨?_, ?_⟩
      · simpa [Unchanged] using hcalls
      · rintro _ ⟨⟩
        exact ⟨d, hd.later (h₃.append (h₄.append (h₅.append h₆))), hkey, rfl⟩

/-- The outcome of a completed lookup is that of the operation. -/
theorem lookupCompleted_safe {m : CommandExecutionMetadata} {context : BoundedContextName}
    (hcontext : m.boundedContext = some context) :
    SafeE (executions store issued)
      (fun calls found s' => Unchanged calls ∧ ∀ outcome, found = some outcome →
        Answers store issued context m.operationId outcome s')
      (fun calls _ _ => Unchanged calls) (lookupCompleted store m) s := by
  refine .bind (.lift (fun context' hcontext' s₁ _ _ => ?_) fun _ _ _ _ _ => .nil)
  obtain rfl : context' = context := by
    simpa [CommandExecutionMetadata.requiredBoundedContext, hcontext, okOr, Except.mapError,
      eq_comm] using hcontext'
  refine .bind (.adapt (Safe.mono (lookupOutcome_safe hhot context' m.operationId)
    fun calls r s₂ hI₂ hr => ?_))
  cases r with
  | error e => exact fun s₃ _ _ => by simpa using hr.here hI₂
  | ok found =>
    obtain ⟨hcalls, hfound⟩ := hr.here hI₂
    refine fun s₃ hR₃ _ => ?_
    cases found with
    | missing => exact .pure fun _ _ _ => ⟨by simpa using hcalls, by simp⟩
    | completed outcome =>
      refine .bind (.lift (fun _ _ s₄ hR₄ _ => ?_) fun _ _ _ _ _ => by simpa using hcalls)
      refine .pure fun s₅ hR₅ _ => ⟨by simpa using hcalls, ?_⟩
      rintro _ ⟨⟩
      exact (hfound outcome rfl).later ((executions store issued).rely_trans hR₃
        ((executions store issued).rely_trans hR₄ hR₅))

end Lookups

/-! ## Commits -/

/-- One of the calls makes the decision, and no other changes the store. -/
def MakesDecision (store : InMemoryEventStore) (d : Decision) (calls : Calls State) : Prop :=
  ∃ before after, calls = before ++ (d.before, d.after store) :: after ∧
    Unchanged before ∧ Unchanged after

theorem MakesDecision.prepend {d : Decision} {calls rest : Calls State} (hcalls : Unchanged calls)
    (h : MakesDecision store d rest) : MakesDecision store d (calls ++ rest) := by
  obtain ⟨before, after, rfl, hbefore, hafter⟩ := h
  exact ⟨calls ++ before, after, by simp, hcalls.append hbefore, hafter⟩

theorem MakesDecision.extend {d : Decision} {calls rest : Calls State}
    (h : MakesDecision store d calls) (hrest : Unchanged rest) :
    MakesDecision store d (calls ++ rest) := by
  obtain ⟨before, after, rfl, hbefore, hafter⟩ := h
  exact ⟨before, after ++ rest, by simp, hbefore, hafter.append hrest⟩

/-- A fresh commit is made by the execution itself; any other answers with a known decision. -/
def Commits (store : InMemoryEventStore) (issued : Execution → Prop) (e : Execution)
    (context : BoundedContextName) (op : OperationId) (calls : Calls State)
    (commit : CompletedCommit) (s : State) : Prop :=
  match commit with
  | .appended outcome => ∃ d : Decision, d.execution = e ∧ d.Known store issued s ∧
      d.key = (context, op) ∧ outcome = d.outcome store ∧ MakesDecision store d calls
  | .exactReplay outcome => Unchanged calls ∧ Answers store issued context op outcome s

theorem Commits.prepend {e : Execution} {context : BoundedContextName} {op : OperationId}
    {calls rest : Calls State} {commit : CompletedCommit} (hcalls : Unchanged calls)
    (h : Commits store issued e context op rest commit s) :
    Commits store issued e context op (calls ++ rest) commit s := by
  cases commit with
  | appended outcome =>
    obtain ⟨d, he, hd, hkey, ho, hmakes⟩ := h
    exact ⟨d, he, hd, hkey, ho, hmakes.prepend hcalls⟩
  | exactReplay outcome => exact ⟨hcalls.append h.1, h.2⟩

theorem Commits.later {e : Execution} {context : BoundedContextName} {op : OperationId}
    {calls : Calls State} {commit : CompletedCommit}
    (h : Commits store issued e context op calls commit s)
    (hR : (executions store issued).rely s s') :
    Commits store issued e context op calls commit s' := by
  cases commit with
  | appended outcome =>
    obtain ⟨d, he, hd, hkey, ho, hmakes⟩ := h
    obtain ⟨log, hrun⟩ := hR
    exact ⟨d, he, hd.later hrun, hkey, ho, hmakes⟩
  | exactReplay outcome => exact ⟨h.1, h.2.later hR⟩

/-- What a commit of the store decides. -/
theorem decision_of_commits {e : Execution} {handler : Handler e.Rejection} {t : EventTransaction}
    {context : BoundedContextName} {stored : StoredTransaction}
    {detail : Option (OutcomeDetailReference × DetailState)} (hissued : issued e)
    (hattempt : handler ∈ e.attempts) (hcontext : t.boundedContext = some context)
    (hproposed : e.proposal s handler = .ok t) (hc : store.Commits s t stored detail) :
    ∃ d : Decision, d.execution = e ∧ d.Valid store issued ∧ d.key = (context, t.operationId) ∧
      d.transaction = t ∧ d.before = s ∧ stored = .scoped (d.marker store) ∧
      InMemoryEventStore.committed s t stored detail = d.after store := by
  obtain ⟨context', bytes, hcontext', -, -, rfl, rfl⟩ | ⟨hnone, -, -⟩ :=
    InMemoryEventStore.prepareStored_ok hc.prepared
  · obtain rfl := Option.some.inj (hcontext.symm.trans hcontext')
    exact ⟨⟨e, handler, s, t, context, bytes⟩, rfl, ⟨hissued, hattempt, hcontext, hproposed, hc⟩,
      rfl, rfl, rfl, rfl, rfl⟩
  · rw [hcontext] at hnone
    cases hnone

/-- A commit of a transaction that is the proposal of an attempt, at every later moment with the
versions that it expects. -/
theorem commitOutcome_safe [Crates.Lawful] (hhot : store.hot = memoryDetails) {e : Execution}
    {handler : Handler e.Rejection} {t : EventTransaction} {context : BoundedContextName}
    (hissued : issued e) (hattempt : handler ∈ e.attempts)
    (hcontext : t.boundedContext = some context)
    (hproposed : ∀ s', (executions store issued).rely s s' → (executions store issued).inv s' →
      (∀ p ∈ t.participants,
        validateExpectedVersion p.expectedVersion (s'.currentVersion p.streamId) = .ok ()) →
      e.proposal s' handler = .ok t) :
    SafeE (executions store issued)
      (fun calls commit s' => Commits store issued e context t.operationId calls commit s' ∧
        ∀ outcome, commit = .appended outcome → ∃ d : Decision, d.Valid store issued ∧
          d.transaction = t ∧ d.context = context ∧ outcome = d.outcome store)
      (fun calls _ _ => Unchanged calls) (Session.commitOutcome t) s := by
  refine .bind (.lift (fun _ _ s₁ h₁ _ => ?_) fun _ _ _ _ _ => .nil)
  refine .bind (Safe.perform (StoreCall.append t) fun s₂ h₂ hI₂ r s₃ he => ?_)
  have hR₂ := (executions store issued).rely_trans h₁ h₂
  replace he : store.serve s₂ (.append t) = (r, s₃) := he
  rw [InMemoryEventStore.serve] at he
  cases hinner : store.appendTransactionInner t s₂ with
  | error e' st' =>
    obtain rfl := InMemoryEventStore.appendTransactionInner_error hinner
    rw [hinner] at he
    obtain ⟨rfl, rfl⟩ := Prod.mk.inj he
    exact ⟨hI₂, ⟨[], rfl⟩, fun _ _ _ => by simp [Unchanged]⟩
  | ok committed st' =>
    obtain ⟨stored, replay⟩ := committed
    rw [hinner] at he
    obtain ⟨rfl, rfl⟩ := Prod.mk.inj he
    obtain ⟨rfl, rfl, hrecord, -⟩ | ⟨rfl, detail, hc, rfl⟩ :=
      InMemoryEventStore.appendTransactionInner_ok hinner
    · -- the operation has been decided with this very content
      rw [hcontext] at hrecord
      obtain ⟨d, hd, hkey, rfl⟩ := known_of_record hI₂ hrecord
      refine ⟨hI₂, ⟨[], rfl⟩, fun s₃ hrely₃ _ => ?_⟩
      obtain ⟨_, h₃⟩ := hrely₃
      refine .bind (.adapt (Safe.mono (resolveMarker_safe hhot (hd.later h₃)).remember
        fun calls r s₄ hI₄ hr => ?_))
      cases r with
      | error e => exact (hr.here hI₄).2.elim
      | ok outcome =>
        obtain ⟨⟨_, h₄⟩, hcalls, rfl⟩ := hr.here hI₄
        refine fun s₅ hrely₅ _ => .pure fun s₆ hrely₆ _ => ⟨⟨?_, ?_⟩, by simp⟩
        · simpa [Unchanged] using hcalls
        · obtain ⟨_, h₅⟩ := hrely₅
          obtain ⟨_, h₆⟩ := hrely₆
          exact ⟨d, hd.later (h₃.append (h₄.append (h₅.append h₆))), hkey, rfl⟩
    · obtain ⟨d, hexec, hd, hkey, ht, rfl, rfl, hafter⟩ := decision_of_commits hissued hattempt
        hcontext (hproposed _ hR₂ hI₂ hc.expected) hc
      rw [hafter]
      have hstep := SerialRun.single hd
      obtain ⟨log, hlog⟩ := hI₂
      refine ⟨⟨_, hlog.append hstep⟩, ⟨_, hstep⟩, fun s₃ hrely₃ _ => ?_⟩
      obtain ⟨_, h₃⟩ := hrely₃
      refine .bind (.adapt (Safe.mono (resolveMarker_safe hhot (hd.known.later h₃)).remember
        fun calls r s₄ hI₄ hr => ?_))
      cases r with
      | error e => exact (hr.here hI₄).2.elim
      | ok outcome =>
        obtain ⟨⟨_, h₄⟩, hcalls, rfl⟩ := hr.here hI₄
        refine fun s₅ hrely₅ _ => .pure fun s₆ hrely₆ _ => ⟨?_, ?_⟩
        · obtain ⟨_, h₅⟩ := hrely₅
          obtain ⟨_, h₆⟩ := hrely₆
          refine ⟨d, hexec, hd.known.later (h₃.append (h₄.append (h₅.append h₆))), hkey, rfl, ?_⟩
          exact ⟨[], calls, by simp, .nil, hcalls⟩
        · rintro _ ⟨⟩
          exact ⟨d, hd, ht, (Prod.mk.inj hkey).1, rfl⟩

/-! ## Attempts -/

omit [Crates] in
/-- Every loaded aggregate is collected, with its version. -/
theorem settle_ok {Rejection : Type} {codec : RejectionCodec Rejection}
    {decision : Except CommandExecutionError (CommandDecision Rejection)} {x : CommandExecution}
    {participants : List CollectedParticipant} {rejection : Option EncodedRejection}
    (h : settle codec decision x = .ok (participants, rejection)) :
    (participants.map fun p => (p.streamId, p.baseVersion)) = x.versions := by
  have hmap : ∀ {f : EnlistedParticipant → Except CommandExecutionError CollectedParticipant}
      {ps : List EnlistedParticipant} {qs : List CollectedParticipant},
      (∀ p q, f p = .ok q → (q.streamId, q.baseVersion) = (p.streamId, p.baseVersion)) →
      ps.mapM f = .ok qs → (qs.map fun q => (q.streamId, q.baseVersion)) =
        ps.map fun p => (p.streamId, p.baseVersion) := by
    intro f ps qs hf hqs
    rw [mapM_eq_ok] at hqs
    induction hqs with
    | nil => rfl
    | cons hpq _ ih => simp only [List.map_cons, ih, hf _ _ hpq]
  simp only [settle, bind_eq_ok] at h
  obtain ⟨decided, -, h⟩ := h
  cases decided with
  | accepted =>
    simp only [bind_eq_ok, pure_eq_ok, Prod.mk.injEq] at h
    obtain ⟨ps, hfinish, rfl, -⟩ := h
    refine hmap (fun p q hpq => ?_) hfinish
    simp only [EnlistedParticipant.collect, bind_eq_ok, pure_eq_ok] at hpq
    obtain ⟨_, -, _, -, _, -, _, -, rfl⟩ := hpq
    rfl
  | rejected r =>
    simp only [bind_eq_ok, pure_eq_ok, Prod.mk.injEq] at h
    obtain ⟨ps, hfinish, _, -, _, -, _, -, rfl, -⟩ := h
    refine hmap (fun p q hpq => ?_) hfinish
    simp only [EnlistedParticipant.discard, bind_eq_ok, pure_eq_ok] at hpq
    obtain ⟨_, -, rfl⟩ := hpq
    rfl

/-- The transaction of an attempt has the metadata of the command, and a participant for every
collected one. -/
theorem prepareTransaction_ok {m : CommandExecutionMetadata}
    {participants : List CollectedParticipant} {rejection : Option EncodedRejection}
    {t : EventTransaction} (h : prepareTransaction m participants rejection = .ok t) :
    ∃ context ps, m.boundedContext = some context ∧
      t = ⟨m.actor, m.securityScope, some (.new m.outcomeEvidence rejection), some context,
        m.operationId, m.operationFingerprint, m.correlationId, m.causationId, ps⟩ ∧
      (ps.map fun p => (p.streamId, p.expectedVersion)) =
        participants.map fun p => (p.streamId, expectedVersion p.baseVersion) := by
  simp only [prepareTransaction, bind_eq_ok, pure_eq_ok,
    CommandExecutionMetadata.requiredBoundedContext, okOr_eq_ok] at h
  obtain ⟨ps, hps, context, hcontext, rfl⟩ := h
  refine ⟨context, ps, hcontext, rfl, ?_⟩
  rw [mapM_eq_ok] at hps
  induction hps with
  | nil => rfl
  | cons hpq _ ih =>
    simp only [prepareParticipant, bind_eq_ok, pure_eq_ok] at hpq
    obtain ⟨_, -, rfl⟩ := hpq
    simp only [List.map_cons, ih]

omit [Crates] in
/-- The expectation of a loaded version holds at that version only. -/
theorem version_of_expected {base current : Nat}
    (h : validateExpectedVersion (expectedVersion base) current = .ok ()) : current = base := by
  rw [validateExpectedVersion_eq_ok] at h
  unfold expectedVersion at h
  split at h <;> split at h <;> simp_all

/-- If the versions that the transaction expects are those of a later moment, then the attempt
proposes it at that moment. -/
theorem proposal_of_expected {e : Execution} {m : CommandExecutionMetadata}
    {handler : Handler e.Rejection} {calls : Calls State}
    {r : Except CommandExecutionError (CommandDecision e.Rejection) × CommandExecution}
    {participants : List CollectedParticipant} {rejection : Option EncodedRejection}
    {t : EventTransaction} (hm : e.metadata = .ok m)
    (hr : Repeatable store issued .new (fun s' =>
      Id.run (CommandExecution.handle s'.history e.executor.codecs m handler .new)) calls r s)
    (hsettle : settle e.codec r.1 r.2 = .ok (participants, rejection))
    (hprepare : prepareTransaction m participants rejection = .ok t)
    (hR : (executions store issued).rely s s') (hI : (executions store issued).inv s')
    (hexpected : ∀ p ∈ t.participants,
      validateExpectedVersion p.expectedVersion (s'.currentVersion p.streamId) = .ok ()) :
    e.proposal s' handler = .ok t := by
  obtain ⟨context, ps, -, rfl, hps⟩ := prepareTransaction_ok hprepare
  have hcurrent : r.2.Current s' := by
    intro v hv
    rw [← settle_ok hsettle] at hv
    obtain ⟨q, hq, rfl⟩ := List.mem_map.mp hv
    have hmem : (q.streamId, expectedVersion q.baseVersion) ∈
        ps.map fun p => (p.streamId, p.expectedVersion) := hps ▸ List.mem_map_of_mem hq
    obtain ⟨p, hp, heq⟩ := List.mem_map.mp hmem
    obtain ⟨hstream, hversion⟩ := Prod.mk.inj heq
    have hpass := hexpected p hp
    rw [hstream, hversion] at hpass
    exact version_of_expected hpass
  have hagain : CommandExecution.handle s'.history e.executor.codecs m handler .new = r :=
    hr.2.2 s' hR hI hcurrent
  rw [Execution.proposal, hm]
  show (settle e.codec _ _ >>= _) = _
  rw [hagain, hsettle]
  show (prepareTransaction m participants rejection).mapError _ = _
  rw [hprepare]
  rfl

/-- The outcome of its own decision is valid for the command. -/
theorem validateCompleted_own {d : Decision} {m : CommandExecutionMetadata}
    {participants : List CollectedParticipant} {rejection : Option EncodedRejection}
    (hd : d.Valid store issued)
    (hprepare : prepareTransaction m participants rejection = .ok d.transaction) :
    validateCompleted (d.outcome store) ⟨store.authority, d.context, m.operationId⟩ m =
      .ok () := by
  obtain ⟨context, ps, hcontext, ht, -⟩ := prepareTransaction_ok hprepare
  have hintegrity : (d.marker store).integrity.validateIntegrity = .ok () := by
    obtain ⟨_, _, -, hvalid, -⟩ | ⟨hnone, -, -⟩ :=
      InMemoryEventStore.prepareStored_ok hd.commits.prepared
    · exact TransactionReceipt.valid_integrity hvalid
    · rw [hd.context] at hnone
      cases hnone
  have hevidence : evidenceMatches (d.marker store).evidence m.outcomeEvidence := by
    rcases he : m.outcomeEvidence with _ | evidence <;>
      simp [Decision.marker, OutcomeMarker.ofDetails, ht, CommandCompletion.new, he,
        evidenceMatches, OutcomeEvidence.sameIdentity]
  have hkey : (d.outcome store).marker.validateKey ⟨store.authority, d.context, m.operationId⟩ =
      .ok () := by
    simp [OutcomeMarker.validateKey, Decision.outcome, Decision.marker, OutcomeMarker.ofDetails,
      detailReference, ht]
  have hidentity : (d.outcome store).marker.validateIdentity m = .ok () := by
    rw [OutcomeMarker.validateIdentity, rejectIf_eq_ok]
    simpa [Decision.outcome, hcontext, ht, Decision.marker, OutcomeMarker.ofDetails,
      detailReference, InMemoryEventStore.receiptIn, stagedReceipt,
      TransactionReceipt.withoutCompletion] using hevidence
  have hbinding : validateDetailBinding (d.marker store) (d.outcome store).details = .ok () := by
    simp [validateDetailBinding, Decision.outcome]
  have hfor : (d.outcome store).validateFor ⟨store.authority, d.context, m.operationId⟩ m =
      .ok () := by
    rw [CompletedOutcome.validateFor, hkey, ok_bind, hidentity, ok_bind]
    show ((d.marker store).integrity.validateIntegrity >>= _) = _
    rw [hintegrity, ok_bind]
    show (validateDetailBinding (d.marker store) (d.outcome store).details).mapError _ = _
    rw [hbinding]
    rfl
  rw [validateCompleted, hfor]
  rfl

/-- The commit of an attempt: a conflict has changed nothing, and its own decision is valid. -/
theorem appendTransaction_safe [Crates.Lawful] (hhot : store.hot = memoryDetails) {e : Execution}
    {m : CommandExecutionMetadata} {handler : Handler e.Rejection} {calls : Calls State}
    {r : Except CommandExecutionError (CommandDecision e.Rejection) × CommandExecution}
    {participants : List CollectedParticipant} {rejection : Option EncodedRejection}
    {context : BoundedContextName} (hissued : issued e) (hattempt : handler ∈ e.attempts)
    (hm : e.metadata = .ok m) (hcontext : m.boundedContext = some context)
    (hr : Repeatable store issued .new (fun s' =>
      Id.run (CommandExecution.handle s'.history e.executor.codecs m handler .new)) calls r s)
    (hsettle : settle e.codec r.1 r.2 = .ok (participants, rejection)) :
    SafeE (executions store issued)
      (fun calls attempt s' => match attempt with
        | .completed commit => Commits store issued e context m.operationId calls commit s' ∧
            ∀ outcome, commit = .appended outcome →
              validateCompleted outcome ⟨store.authority, context, m.operationId⟩ m = .ok ()
        | .conflict _ => Unchanged calls)
      (fun calls _ _ => Unchanged calls) (appendTransaction m participants rejection) s := by
  refine .bind (.lift (fun t ht s₁ hR₁ _ => ?_) fun _ _ _ _ _ => .nil)
  have hprepare := mapError_eq_ok.mp ht
  obtain ⟨context', ps, hcontext', hfields, -⟩ := prepareTransaction_ok hprepare
  obtain rfl := Option.some.inj (hcontext.symm.trans hcontext')
  have htcontext : t.boundedContext = some context := by rw [hfields]
  have htop : t.operationId = m.operationId := by rw [hfields]
  refine .bind (.liftP (Safe.mono (commitOutcome_safe hhot hissued hattempt htcontext
    fun s' hR' => proposal_of_expected hm (hr.later hR₁) hsettle hprepare hR')
    fun calls answer s₂ hI₂ ha => ?_))
  cases answer with
  | ok commit =>
    obtain ⟨hcommit, hown⟩ := ha.here hI₂
    rw [htop] at hcommit
    refine .pure fun s₃ hR₃ _ => ⟨?_, fun outcome houtcome => ?_⟩
    · simpa using hcommit.later hR₃
    · obtain ⟨d, hd, rfl, rfl, rfl⟩ := hown outcome houtcome
      exact validateCompleted_own hd hprepare
  | error error =>
    have hcalls : Unchanged calls := ha.here hI₂
    have hend : Unchanged ([] ++ (calls ++ [])) := by simpa using hcalls
    dsimp only
    split
    · exact .pure fun _ _ _ => hend
    · split
      · exact .throw fun _ _ _ => hend
      · split <;> exact .throw fun _ _ _ => hend

/-! ## The loop -/

/-- What an execution ends with. One that has no result, or an error, has changed nothing. -/
def Concludes (store : InMemoryEventStore) (issued : Execution → Prop) (e : Execution)
    (calls : Calls State) (result : Option CompletedCommit) (s : State) : Prop :=
  match result with
  | none => Unchanged calls
  | some commit => ∃ context, e.request.boundedContext = some context ∧
      Commits store issued e context e.request.operationId calls commit s

theorem Concludes.prepend {e : Execution} {calls rest : Calls State}
    {result : Option CompletedCommit} (hcalls : Unchanged calls)
    (h : Concludes store issued e rest result s) :
    Concludes store issued e (calls ++ rest) result s := by
  cases result with
  | none => exact hcalls.append h
  | some commit =>
    obtain ⟨context, hcontext, hcommit⟩ := h
    exact ⟨context, hcontext, hcommit.prepend hcalls⟩

/-- Calls that changed nothing may come before. -/
theorem concludes_prepend {e : Execution} {calls : Calls State}
    {p : ExceptT CommandExecutionError StoreProgram (Option CompletedCommit)}
    (hcalls : Unchanged calls)
    (h : SafeE (executions store issued) (Concludes store issued e)
      (fun calls _ _ => Unchanged calls) p s) :
    SafeE (executions store issued) (fun rest => Concludes store issued e (calls ++ rest))
      (fun rest _ _ => Unchanged (calls ++ rest)) p s :=
  h.mono (fun _ _ _ hI hq => Concludes.prepend hcalls (hq.here hI))
    fun _ _ _ hI he => hcalls.append (he.here hI)

omit [Crates] in
/-- The executor keeps the context and the operation of the caller. -/
theorem metadata_identity {e : Execution} {m : CommandExecutionMetadata} (h : e.metadata = .ok m) :
    m.boundedContext = e.request.boundedContext ∧ m.operationId = e.request.operationId := by
  simp only [Execution.metadata, CommandExecutionMetadata.normalized, bind_eq_ok, pure_eq_ok] at h
  obtain ⟨m', hm', -, -, rfl⟩ := h
  have hkeep : (e.request.withDefaultOutcomeEvidence e.commandType).boundedContext =
        e.request.boundedContext ∧
      (e.request.withDefaultOutcomeEvidence e.commandType).operationId = e.request.operationId := by
    unfold CommandExecutionMetadata.withDefaultOutcomeEvidence
    split <;> exact ⟨rfl, rfl⟩
  simp only [mapError_eq_ok, bind_eq_ok, pure_eq_ok] at hm'
  obtain ⟨_, -, rfl⟩ := hm'
  exact hkeep

theorem executeLoop_safe [Crates.Lawful] (hhot : store.hot = memoryDetails) {e : Execution}
    {m : CommandExecutionMetadata} (hissued : issued e) (hm : e.metadata = .ok m)
    {attempts : List (Handler e.Rejection)} (hattempts : ∀ h ∈ attempts, h ∈ e.attempts)
    (evaluations : Nat) :
    SafeE (executions store issued) (Concludes store issued e) (fun calls _ _ => Unchanged calls)
      (executeLoop store e.executor m e.codec attempts evaluations) s := by
  induction attempts generalizing s evaluations with
  | nil => exact .pure fun _ _ _ => .nil
  | cons handler attempts ih =>
    obtain ⟨hcontext, hop⟩ := metadata_identity hm
    rcases hctx : m.boundedContext with _ | context
    · -- without a context the lookup fails before its first call
      refine .bind (.bind (.lift (fun context hc => ?_) fun _ _ _ _ _ => .nil))
      rw [CommandExecutionMetadata.requiredBoundedContext, hctx] at hc
      cases hc
    have hconclude : ∀ calls commit s, Commits store issued e context m.operationId calls commit
        s → Concludes store issued e calls (some commit) s := fun _ _ _ h =>
      ⟨context, by rw [← hcontext, hctx], by rwa [← hop]⟩
    refine .bind (.mono (lookupCompleted_safe hhot hctx) (fun calls found s₁ hI₁ hr => ?_)
      fun calls error s₁ hI₁ hr => hr.here hI₁)
    obtain ⟨hcalls, hfound⟩ := hr.here hI₁
    refine concludes_prepend hcalls ?_
    cases found with
    | some outcome =>
      exact .pure fun s₂ hR₂ _ => hconclude [] (.exactReplay outcome) s₂
        ⟨.nil, (hfound outcome rfl).later hR₂⟩
    | none =>
      refine .bind (.liftP (Safe.mono (handle_safe e.executor.codecs m handler .new)
        fun calls₂ r s₂ hI₂ hr₂ => ?_))
      have hrepeat := hr₂.here hI₂
      refine concludes_prepend hrepeat.1 ?_
      refine .bind (.lift (fun collected hsettle s₃ hR₃ _ => ?_) fun _ _ _ _ _ => .nil)
      obtain ⟨participants, rejection⟩ := collected
      refine .bind (.mono (appendTransaction_safe hhot hissued (hattempts handler (by simp)) hm hctx
        (hrepeat.later hR₃) hsettle) (fun calls₃ attempt s₄ hI₄ ha => ?_)
        fun calls₃ error s₄ hI₄ he => he.here hI₄)
      cases attempt with
      | completed commit =>
        obtain ⟨hcommit, hvalid⟩ := ha.here hI₄
        refine .bind (.lift (fun context' hc s₅ hR₅ _ => ?_) fun _ hc => ?_)
        · obtain rfl : context' = context := by
            simpa [CommandExecutionMetadata.requiredBoundedContext, hctx, eq_comm] using
              mapError_eq_ok.mp hc
          refine .bind (.lift (fun _ _ s₆ hR₆ _ => .pure fun s₇ hR₇ _ => hconclude _ _ _ ?_)
            fun error herror s₆ hR₆ _ => ?_)
          · simpa using hcommit.later ((executions store issued).rely_trans hR₅
              ((executions store issued).rely_trans hR₆ hR₇))
          · cases commit with
            | appended outcome =>
              rw [CompletedCommit.outcome, hvalid outcome rfl] at herror
              cases herror
            | exactReplay outcome => simpa using hcommit.1
        · rw [CommandExecutionMetadata.requiredBoundedContext, hctx] at hc
          cases hc
      | conflict error =>
        have hcalls₃ : Unchanged calls₃ := ha.here hI₄
        refine concludes_prepend hcalls₃ ?_
        refine .bind (.mono (lookupCompleted_safe hhot hctx) (fun calls₄ found s₅ hI₅ hr => ?_)
          fun calls₄ error s₅ hI₅ hr => hr.here hI₅)
        obtain ⟨hcalls₄, hfound⟩ := hr.here hI₅
        refine concludes_prepend hcalls₄ ?_
        cases found with
        | some outcome =>
          exact .pure fun s₆ hR₆ _ => hconclude [] (.exactReplay outcome) s₆
            ⟨.nil, (hfound outcome rfl).later hR₆⟩
        | none =>
          dsimp only
          split
          · exact .throw fun _ _ _ => .nil
          · split
            · exact .throw fun _ _ _ => .nil
            · exact ih (fun h hh => hattempts h (by simp [hh])) _
            · exact ih (fun h hh => hattempts h (by simp [hh])) _

theorem program_safe [Crates.Lawful] (hhot : store.hot = memoryDetails) {e : Execution}
    (hissued : issued e) :
    SafeE (executions store issued) (Concludes store issued e) (fun calls _ _ => Unchanged calls)
      (e.program store) s := by
  refine .bind (.lift (fun m hm s₁ _ _ => ?_) fun _ _ _ _ _ => .nil)
  exact executeLoop_safe hhot hissued hm (fun _ h => h) 0

end Rostfrei
