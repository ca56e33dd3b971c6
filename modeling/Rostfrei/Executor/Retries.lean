import Rostfrei.Concrete
import Rostfrei.Executor.AnyStore

/-!
# Bounded retries

The loop of the executor, call by call, whatever its store answers. A turn of the loop asks for the
outcome, begins a session, loads what the handler asks for and commits; after a conflict it asks for
the outcome again. `turn_cases` says how a turn ends, and `execute_bounded` what that makes of a whole
run under `BoundedConflictRetries`.
-/

namespace Rostfrei

open Lib Program

/-- The handler is called after this. -/
def Exchange.begins : Exchange → Bool
  | ⟨.beginCommand, .ok ()⟩ => true
  | _ => false

/-- The answer that an operation has no outcome. -/
def Exchange.Undecided (x : Exchange) : Prop := ∃ key, x = ⟨.lookupOutcome key, .ok .missing⟩

/-- A history that was asked for. -/
def Exchange.IsLoad (x : Exchange) : Prop := ∃ streamId answer, x = ⟨.load streamId, answer⟩

theorem Exchange.IsLoad.not_begins {x : Exchange} (h : x.IsLoad) : x.begins = false := by
  obtain ⟨_, _, rfl⟩ := h
  rfl

namespace ExecutionStore

variable [Crates] {authority : CommandAuthority} {metadata : CommandExecutionMetadata}
  {Rejection : Type} {trace : List Exchange}

/-! ## The parts of a turn -/

theorem load_inv {codecs : AggregateCodecs} {A : Aggregate} {aggregateId : String}
    {x : CommandExecution} {r : Except CommandExecutionError (LoadedAggregate A) × CommandExecution}
    (h : Answered (x.load (calls authority).load codecs metadata A aggregateId) trace r) :
    ∀ exchange ∈ trace, exchange.IsLoad := by
  unfold CommandExecution.load at h
  split at h
  · obtain ⟨rfl, -⟩ := Answered.done_iff.mp h
    simp
  · next streamId _ =>
    obtain ⟨first, rest, answer, rfl, hcall, hrest⟩ := Answered.bind_inv h
    obtain rfl := Answered.perform_inv hcall
    have hnil : rest = [] := by
      split at hrest
      · exact (Answered.done_iff.mp hrest).1
      · split at hrest <;> exact (Answered.done_iff.mp hrest).1
    subst hnil
    simpa using ⟨streamId, answer, rfl⟩

theorem handle_inv {codecs : AggregateCodecs} (handler : Handler Rejection) (x : CommandExecution)
    {r : Except CommandExecutionError (CommandDecision Rejection) × CommandExecution}
    (h : Answered (CommandExecution.handle (calls authority).load codecs metadata handler x) trace r) :
    ∀ exchange ∈ trace, exchange.IsLoad := by
  induction handler generalizing x trace with
  | done decision =>
    obtain ⟨rfl, -⟩ := Answered.done_iff.mp h
    simp
  | call call next ih =>
    cases call with
    | load A aggregateId =>
      obtain ⟨first, rest, r, rfl, hload, hrest⟩ := Answered.bind_inv h
      intro exchange hexchange
      rcases List.mem_append.mp hexchange with hmem | hmem
      · exact load_inv hload exchange hmem
      · exact ih r.1 r.2 hrest exchange hmem
    | raise A loaded event => exact ih () _ h
    | interrupt participant pushed => exact ih () _ h
    | replace participant held => exact ih () _ h
    | drop participant => exact ih () _ h

theorem evaluate_inv {codecs : AggregateCodecs} {codec : RejectionCodec Rejection}
    {handler : Handler Rejection}
    {r : Except CommandExecutionError (List CollectedParticipant × Option EncodedRejection)}
    (h : Answered ((calls authority).evaluate metadata codecs codec handler).run trace r) :
    ∀ exchange ∈ trace, exchange.IsLoad := by
  obtain ⟨first, rest, ⟨decision, x⟩, rfl, hhandle, hsettle⟩ := Answered.liftP_inv h
  obtain ⟨rfl, -⟩ := Answered.lift_inv hsettle
  rw [List.append_nil]
  exact handle_inv handler .new hhandle

/-- The outcome is asked for once, if the key can be made. -/
theorem lookupCompleted_inv {r : Except CommandExecutionError (Option CompletedOutcome)}
    (h : Answered ((calls authority).lookupCompleted metadata).run trace r) :
    (trace = [] ∧ ∃ e, r = .error e) ∨
      ∃ key answer, trace = [⟨.lookupOutcome key, answer⟩] ∧ (answer = .ok .missing ↔ r = .ok none) := by
  rcases Answered.liftBind_inv h with ⟨e, -, rfl, rfl⟩ | ⟨context, -, h⟩
  · exact .inl ⟨rfl, e, rfl⟩
  refine .inr ⟨(calls authority).outcomeKey metadata context, ?_⟩
  rcases Answered.bindE_inv h with ⟨e, rfl, hlookup⟩ | ⟨first, rest, found, rfl, hlookup, hrest⟩
  · obtain ⟨answer, hcall, heq⟩ := Answered.adapt_inv hlookup
    obtain rfl := Answered.perform_inv hcall
    refine ⟨answer, rfl, ⟨fun hanswer => ?_, fun hr => by cases hr⟩⟩
    subst hanswer
    cases heq
  · obtain ⟨answer, hcall, heq⟩ := Answered.adapt_inv hlookup
    obtain rfl := Answered.perform_inv hcall
    obtain rfl : answer = .ok found := by
      cases answer with
      | ok found' => exact congrArg _ (Except.ok.inj heq).symm
      | error e => cases heq
    cases found with
    | missing =>
      obtain ⟨rfl, rfl⟩ := Answered.done_iff.mp hrest
      exact ⟨.ok .missing, rfl, fun _ => rfl, fun _ => rfl⟩
    | completed outcome =>
      refine ⟨.ok (.completed outcome), ?_, (fun hanswer => by cases hanswer), ?_⟩
      · rcases Answered.liftBind_inv hrest with ⟨e, -, rfl, -⟩ | ⟨-, -, hdone⟩
        · rfl
        · obtain ⟨rfl, -⟩ := Answered.done_iff.mp hdone
          rfl
      · rintro rfl
        rcases Answered.liftBind_inv hrest with ⟨e, -, -, hr⟩ | ⟨-, -, hdone⟩
        · cases hr
        · cases (Answered.done_iff.mp hdone).2

/-- What is committed, at most once, decides how the turn goes on. -/
theorem appendTransaction_inv {participants : List CollectedParticipant}
    {rejection : Option EncodedRejection} {r : Except CommandExecutionError PersistenceAttempt}
    (h : Answered ((calls authority).appendTransaction metadata participants rejection).run trace r) :
    (trace = [] ∧ ∃ e, r = .error e) ∨
      ∃ t answer, trace = [⟨.commitOutcome t, answer⟩] ∧
        prepareTransaction metadata participants rejection = .ok t ∧
        (∀ e, r = .ok (.conflict e) → answer = .error e) := by
  rcases Answered.liftBind_inv h with ⟨e, -, rfl, rfl⟩ | ⟨t, ht, h⟩
  · exact .inl ⟨rfl, e, rfl⟩
  obtain ⟨first, rest, answer, rfl, hcall, hrest⟩ := Answered.liftP_inv h
  obtain rfl := Answered.perform_inv hcall
  have ht' : prepareTransaction metadata participants rejection = .ok t := by
    cases hprepare : prepareTransaction metadata participants rejection with
    | ok t' => rw [hprepare] at ht; exact congrArg _ (Except.ok.inj ht)
    | error e => rw [hprepare] at ht; cases ht
  refine .inr ⟨t, answer, ?_⟩
  cases answer with
  | ok commit =>
    obtain ⟨rfl, rfl⟩ := Answered.done_iff.mp hrest
    exact ⟨rfl, ht', by simp⟩
  | error e =>
    dsimp only at hrest
    split at hrest
    · obtain ⟨rfl, rfl⟩ := Answered.done_iff.mp hrest
      refine ⟨rfl, ht', fun e' he => ?_⟩
      cases he
      rfl
    · have herror : rest = [] ∧ ∃ e', r = .error e' := by
        split at hrest
        · exact ⟨(Answered.done_iff.mp hrest).1, _, (Answered.done_iff.mp hrest).2⟩
        · split at hrest <;>
          exact ⟨(Answered.done_iff.mp hrest).1, _, (Answered.done_iff.mp hrest).2⟩
      obtain ⟨rfl, e', rfl⟩ := herror
      exact ⟨rfl, ht', by simp⟩

/-! ## Turns -/

/-- A turn that ended in a conflict, which nobody has decided. -/
def Conflicted (turn : List Exchange) (e : EventStoreError) : Prop :=
  ∃ key loads t key', (∀ exchange ∈ loads, exchange.IsLoad) ∧
    turn = ⟨.lookupOutcome key, .ok .missing⟩ :: ⟨.beginCommand, .ok ()⟩ ::
      (loads ++ [⟨.commitOutcome t, .error e⟩, ⟨.lookupOutcome key', .ok .missing⟩])

/-- What holds of the last turn: there is a result, at most one evaluation, and an error that nobody
has decided is returned. -/
structure LastTurn (trace : List Exchange)
    (r : Except CommandExecutionError (Option CompletedCommit)) : Prop where
  result : r ≠ .ok none
  begins : trace.countP Exchange.begins ≤ 1
  first : ∀ before after, trace = before ++ ⟨.beginCommand, .ok ()⟩ :: after →
    ∃ key, before = [⟨.lookupOutcome key, .ok .missing⟩]
  conflict : ∀ before t e key,
    trace = before ++ [⟨.commitOutcome t, .error e⟩, ⟨.lookupOutcome key, .ok .missing⟩] →
      r = .error (.store e)

section LastTurn

variable {r : Except CommandExecutionError (Option CompletedCommit)}

omit [Crates] in
theorem LastTurn.conflict_of_last (hlast : ∀ x ∈ trace.getLast?, ¬ Exchange.Undecided x)
    (before : List Exchange) (t : EventTransaction) (e : EventStoreError) (key : OutcomeKey)
    (h : trace = before ++ [⟨.commitOutcome t, .error e⟩, ⟨.lookupOutcome key, .ok .missing⟩]) :
    r = .error (.store e) :=
  absurd ⟨key, rfl⟩ (hlast ⟨.lookupOutcome key, .ok .missing⟩ (by simp [h]))

omit [Crates] in
/-- A turn that is over before its session begins. -/
theorem LastTurn.of_quiet (hr : r ≠ .ok none) (h : ∀ x ∈ trace, x.begins = false)
    (hlast : ∀ x ∈ trace.getLast?, ¬ Exchange.Undecided x) : LastTurn trace r where
  result := hr
  begins := by
    rw [List.countP_eq_zero.mpr fun x hx => by simp [h x hx]]
    exact Nat.zero_le 1
  first before after heq := by
    have := h ⟨.beginCommand, .ok ()⟩ (by simp [heq])
    cases this
  conflict := conflict_of_last hlast

omit [Crates] in
/-- The one session of a turn. -/
theorem begun_first {key : OutcomeKey} {answer : ExecutionCall.beginCommand.Answer}
    {rest before after : List Exchange} (h : ∀ x ∈ rest, Exchange.begins x = false)
    (heq : ⟨.lookupOutcome key, .ok .missing⟩ :: ⟨.beginCommand, answer⟩ :: rest =
      before ++ ⟨.beginCommand, .ok ()⟩ :: after) :
    before = [⟨.lookupOutcome key, .ok .missing⟩] := by
  rcases before with _ | ⟨a, _ | ⟨b, before⟩⟩
  · cases (List.cons.inj heq).1
  · obtain ⟨rfl, -⟩ := List.cons.inj heq
    rfl
  · have hrest : rest = before ++ ⟨.beginCommand, .ok ()⟩ :: after :=
      (List.cons.inj (List.cons.inj heq).2).2
    have := h ⟨.beginCommand, .ok ()⟩ (by simp [hrest])
    cases this

omit [Crates] in
theorem begun_count {key : OutcomeKey} {answer : ExecutionCall.beginCommand.Answer}
    {rest : List Exchange} (h : ∀ x ∈ rest, Exchange.begins x = false) :
    List.countP Exchange.begins
      (⟨.lookupOutcome key, .ok .missing⟩ :: ⟨.beginCommand, answer⟩ :: rest) ≤ 1 := by
  have hrest : rest.countP Exchange.begins = 0 :=
    List.countP_eq_zero.mpr fun x hx => by simp [h x hx]
  have hlookup : Exchange.begins ⟨.lookupOutcome key, .ok .missing⟩ = false := rfl
  rw [List.countP_cons, List.countP_cons, hrest, hlookup]
  split <;> simp

omit [Crates] in
/-- A turn with a session. -/
theorem LastTurn.of_begun {key : OutcomeKey} {answer : ExecutionCall.beginCommand.Answer}
    {rest : List Exchange} (hr : r ≠ .ok none) (h : ∀ x ∈ rest, x.begins = false)
    (hconflict : ∀ before t e key', ⟨.lookupOutcome key, .ok .missing⟩ :: ⟨.beginCommand, answer⟩ ::
      rest = before ++ [⟨.commitOutcome t, .error e⟩, ⟨.lookupOutcome key', .ok .missing⟩] →
        r = .error (.store e)) :
    LastTurn (⟨.lookupOutcome key, .ok .missing⟩ :: ⟨.beginCommand, answer⟩ :: rest) r where
  result := hr
  begins := begun_count h
  first _ _ heq := ⟨key, begun_first h heq⟩
  conflict := hconflict

end LastTurn

omit [Crates] in
theorem not_undecided_of_isLoad {x : Exchange} (h : x.IsLoad) : ¬ Exchange.Undecided x := by
  obtain ⟨_, _, rfl⟩ := h
  rintro ⟨key, heq⟩
  cases heq

omit [Crates] in
theorem not_undecided_of_answer {key : OutcomeKey} {answer : Except EventStoreError Memory.OutcomeLookup}
    (h : answer ≠ .ok .missing) : ¬ Exchange.Undecided ⟨.lookupOutcome key, answer⟩ := by
  rintro ⟨key', heq⟩
  cases heq
  exact h rfl

omit [Crates] in
theorem not_undecided_commit {t : EventTransaction} {answer : Except EventStoreError CompletedCommit} :
    ¬ Exchange.Undecided ⟨.commitOutcome t, answer⟩ := by
  rintro ⟨key, heq⟩
  cases heq

/-- An operation that was looked for has a context. -/
theorem context_of_lookup {r : Except CommandExecutionError (Option CompletedOutcome)} {x : Exchange}
    (h : Answered ((calls authority).lookupCompleted metadata).run (x :: trace) r) :
    ∃ context, metadata.requiredBoundedContext = .ok context := by
  rcases Answered.liftBind_inv h with ⟨e, -, htrace, -⟩ | ⟨context, hcontext, -⟩
  · cases htrace
  · exact ⟨context, mapError_eq_ok.mp hcontext⟩

/-- The outcome is looked for first. -/
theorem lookupCompleted_ne_nil {context : BoundedContextName}
    (hcontext : metadata.requiredBoundedContext = .ok context)
    {r : Except CommandExecutionError (Option CompletedOutcome)} :
    ¬ Answered ((calls authority).lookupCompleted metadata).run [] r := by
  intro h
  rcases Answered.liftBind_inv h with ⟨e, he, -⟩ | ⟨context, -, h⟩
  · rw [hcontext] at he
    cases he
  · rcases Answered.bindE_inv h with ⟨e, -, hlookup⟩ | ⟨first, rest, found, hnil, hlookup, -⟩
    · obtain ⟨answer, hcall, -⟩ := Answered.adapt_inv hlookup
      cases Answered.perform_inv hcall
    · obtain ⟨answer, hcall, -⟩ := Answered.adapt_inv hlookup
      obtain rfl := Answered.perform_inv hcall
      cases hnil

theorem lookupCompleted_quiet {r : Except CommandExecutionError (Option CompletedOutcome)}
    (h : Answered ((calls authority).lookupCompleted metadata).run trace r) :
    ∀ x ∈ trace, Exchange.begins x = false := by
  rcases lookupCompleted_inv h with ⟨rfl, -⟩ | ⟨key, answer, rfl, -⟩
  · simp
  · rintro x hx
    obtain rfl := List.mem_singleton.mp hx
    rfl

theorem lookupCompleted_decided {r : Except CommandExecutionError (Option CompletedOutcome)}
    (h : Answered ((calls authority).lookupCompleted metadata).run trace r) (hr : r ≠ .ok none) :
    ∀ x ∈ trace.getLast?, ¬ Exchange.Undecided x := by
  rcases lookupCompleted_inv h with ⟨rfl, -⟩ | ⟨key, answer, rfl, hanswer⟩
  · simp
  · intro x hx
    obtain rfl : ⟨.lookupOutcome key, answer⟩ = x := by simpa using hx
    exact not_undecided_of_answer fun heq => hr (hanswer.mp heq)

/-- What follows a session that has begun. -/
theorem session_cases {executor : CommandExecutor} {codec : RejectionCodec Rejection}
    {handler : Handler Rejection} {attempts : List (Handler Rejection)} {evaluations : Nat}
    {key : OutcomeKey} {r : Except CommandExecutionError (Option CompletedCommit)}
    (h : Answered (do
      let (participants, rejection) ←
        (calls authority).evaluate metadata executor.codecs codec handler
      let attempt ← (calls authority).appendTransaction metadata participants rejection
      match attempt with
      | .completed commit =>
        let context ← liftM (metadata.requiredBoundedContext.mapError CommandExecutionError.store)
        liftM (validateCompleted commit.outcome ((calls authority).outcomeKey metadata context)
          metadata)
        return some commit
      | .conflict e =>
        let winner ← (calls authority).lookupCompleted metadata
        match winner with
        | some outcome => return some (.exactReplay outcome)
        | none =>
          if e.kind ≠ .conflict then throwThe CommandExecutionError (.store e)
          else
            match executor.conflictRetryPolicy evaluations e with
            | .stop => throwThe CommandExecutionError (.store e)
            | .retryNow | .retryAfter _ =>
              (calls authority).executeLoop metadata executor codec attempts evaluations
      : ExceptT CommandExecutionError ExecutionProgram (Option CompletedCommit)).run trace r) :
    LastTurn (⟨.lookupOutcome key, .ok .missing⟩ :: ⟨.beginCommand, .ok ()⟩ :: trace) r ∨
    ∃ loads t e key' rest, (∀ x ∈ loads, Exchange.IsLoad x) ∧ trace = loads ++
        [⟨.commitOutcome t, .error e⟩, ⟨.lookupOutcome key', .ok .missing⟩] ++ rest ∧
      e.kind = .conflict ∧ executor.conflictRetryPolicy evaluations e ≠ .stop ∧
      Answered ((calls authority).executeLoop metadata executor codec attempts evaluations).run
        rest r := by
  -- a turn that ends without an undecided conflict
  have hquiet : ∀ {trace : List Exchange}, r ≠ .ok none → (∀ x ∈ trace, Exchange.begins x = false) →
      (∀ x ∈ trace.getLast?, ¬ Exchange.Undecided x) →
      LastTurn (⟨.lookupOutcome key, .ok .missing⟩ :: ⟨.beginCommand, .ok ()⟩ :: trace) r := by
    intro trace hr hbegins hlast
    refine .of_begun hr hbegins (LastTurn.conflict_of_last ?_)
    cases trace with
    | nil =>
      rintro x hx ⟨key, rfl⟩
      cases hx
    | cons y trace => simpa using hlast
  rcases Answered.bindE_inv h with ⟨e, rfl, heval⟩ | ⟨loads, rest, ⟨participants, rejection⟩, rfl, heval, hsession⟩
  · have hloads := evaluate_inv heval
    exact .inl (hquiet (by simp) (fun x hx => (hloads x hx).not_begins)
      fun x hx => not_undecided_of_isLoad (hloads x (List.mem_of_mem_getLast? hx)))
  have hloads := evaluate_inv heval
  have hloads' : ∀ x ∈ loads, Exchange.begins x = false := fun x hx => (hloads x hx).not_begins
  rcases Answered.bindE_inv hsession with ⟨e, rfl, hcommit⟩ |
    ⟨first, rest, attempt, rfl, hcommit, hattempt⟩
  · refine .inl (hquiet (by simp) ?_ ?_)
    · rcases appendTransaction_inv hcommit with ⟨rfl, -⟩ | ⟨t, answer, rfl, -, -⟩
      · simpa using hloads'
      · simpa using fun x hx => hx.elim (hloads' x) fun heq => heq ▸ rfl
    · rcases appendTransaction_inv hcommit with ⟨rfl, -⟩ | ⟨t, answer, rfl, -, -⟩
      · rw [List.append_nil]
        exact fun x hx => not_undecided_of_isLoad (hloads x (List.mem_of_mem_getLast? hx))
      · simpa using not_undecided_commit
  obtain ⟨t, answer, rfl, hanswer⟩ : ∃ t answer, first = [⟨.commitOutcome t, answer⟩] ∧
      ∀ e, attempt = .conflict e → answer = .error e := by
    rcases appendTransaction_inv hcommit with ⟨-, e, he⟩ | ⟨t, answer, rfl, -, hanswer⟩
    · cases he
    · exact ⟨t, answer, rfl, fun e he => hanswer e (congrArg _ he)⟩
  have hbegins : ∀ {rest : List Exchange}, (∀ x ∈ rest, Exchange.begins x = false) →
      ∀ x ∈ loads ++ (⟨.commitOutcome t, answer⟩ :: rest), Exchange.begins x = false := by
    intro rest hrest x hx
    rcases List.mem_append.mp hx with hx | hx
    · exact hloads' x hx
    · rcases List.mem_cons.mp hx with rfl | hx
      · rfl
      · exact hrest x hx
  have hend : ∀ {rest : List Exchange}, (∀ x ∈ rest.getLast?, ¬ Exchange.Undecided x) →
      ∀ x ∈ (loads ++ (⟨.commitOutcome t, answer⟩ :: rest)).getLast?, ¬ Exchange.Undecided x := by
    intro rest hrest
    cases rest with
    | nil => simpa using not_undecided_commit
    | cons y rest => simpa using hrest
  cases attempt with
  | completed commit =>
    obtain ⟨rfl, hr⟩ : rest = [] ∧ r ≠ .ok none := by
      rcases Answered.liftBind_inv hattempt with ⟨e, -, rfl, rfl⟩ | ⟨context, -, hvalidate⟩
      · exact ⟨rfl, by simp⟩
      · rcases Answered.liftBind_inv hvalidate with ⟨e, -, rfl, rfl⟩ | ⟨-, -, hdone⟩
        · exact ⟨rfl, by simp⟩
        · obtain ⟨rfl, rfl⟩ := Answered.done_iff.mp hdone
          exact ⟨rfl, by simp⟩
    exact .inl (hquiet hr (hbegins (by simp)) (hend (by simp)))
  | conflict e =>
    obtain rfl := hanswer e rfl
    rcases Answered.bindE_inv hattempt with ⟨e, rfl, hlookup⟩ |
      ⟨first, rest, winner, rfl, hlookup, hdecide⟩
    · exact .inl (hquiet (by simp) (hbegins (lookupCompleted_quiet hlookup))
        (hend (lookupCompleted_decided hlookup (by simp))))
    cases winner with
    | some outcome =>
      obtain ⟨rfl, rfl⟩ := Answered.done_iff.mp hdecide
      rw [List.append_nil]
      exact .inl (hquiet (by simp) (hbegins (lookupCompleted_quiet hlookup))
        (hend (lookupCompleted_decided hlookup (by simp))))
    | none =>
      rcases lookupCompleted_inv hlookup with ⟨-, e, he⟩ | ⟨key', answer, rfl, hmissing⟩
      · cases he
      obtain rfl := hmissing.mpr rfl
      -- nobody has decided: the conflict is returned, or the policy goes on
      have hgiveUp : rest = [] → r = .error (.store e) →
          LastTurn (⟨.lookupOutcome key, .ok .missing⟩ :: ⟨.beginCommand, .ok ()⟩ ::
            (loads ++ ([⟨.commitOutcome t, .error e⟩] ++
              ([⟨.lookupOutcome key', .ok .missing⟩] ++ rest)))) r := by
        rintro rfl rfl
        refine .of_begun (by simp) (hbegins (by rintro x hx; obtain rfl := List.mem_singleton.mp hx; rfl)) ?_
        intro before t' e' key'' heq
        have hsplit : (⟨.lookupOutcome key, .ok .missing⟩ :: ⟨.beginCommand, .ok ()⟩ :: loads) ++
            [⟨.commitOutcome t, .error e⟩, ⟨.lookupOutcome key', .ok .missing⟩] =
            before ++ [⟨.commitOutcome t', .error e'⟩, ⟨.lookupOutcome key'', .ok .missing⟩] := by
          simpa using heq
        obtain ⟨-, htail⟩ := List.append_inj' hsplit rfl
        cases htail
        rfl
      dsimp only at hdecide
      split at hdecide
      · obtain ⟨hrest, hr⟩ := Answered.done_iff.mp hdecide
        exact .inl (hgiveUp hrest hr)
      · next hkind =>
        split at hdecide
        · obtain ⟨hrest, hr⟩ := Answered.done_iff.mp hdecide
          exact .inl (hgiveUp hrest hr)
        · next hpolicy =>
          exact .inr ⟨loads, t, e, key', rest, hloads, by simp, by simpa using hkind,
            by simp [hpolicy], hdecide⟩
        · next hpolicy =>
          exact .inr ⟨loads, t, e, key', rest, hloads, by simp, by simpa using hkind,
            by simp [hpolicy], hdecide⟩

/-- A turn is the last one, or ends in a conflict after which the policy goes on. -/
theorem turn_cases {executor : CommandExecutor} {codec : RejectionCodec Rejection}
    {handler : Handler Rejection} {attempts : List (Handler Rejection)} {evaluations : Nat}
    {r : Except CommandExecutionError (Option CompletedCommit)}
    (h : Answered ((calls authority).executeLoop metadata executor codec (handler :: attempts)
      evaluations).run trace r) :
    LastTurn trace r ∨ ∃ turn rest e, trace = turn ++ rest ∧ Conflicted turn e ∧
      e.kind = .conflict ∧ executor.conflictRetryPolicy (saturatingSucc evaluations) e ≠ .stop ∧
      (∃ context, metadata.requiredBoundedContext = .ok context) ∧
      Answered ((calls authority).executeLoop metadata executor codec attempts
        (saturatingSucc evaluations)).run rest r := by
  rcases Answered.bindE_inv h with ⟨e, rfl, hlookup⟩ | ⟨first, rest, winner, rfl, hlookup, hturn⟩
  · refine .inl (.of_quiet (by simp) (lookupCompleted_quiet hlookup) ?_)
    exact lookupCompleted_decided hlookup (by simp)
  cases winner with
  | some outcome =>
    obtain ⟨rfl, rfl⟩ := Answered.done_iff.mp hturn
    rw [List.append_nil]
    refine .inl (.of_quiet (by simp) (lookupCompleted_quiet hlookup) ?_)
    exact lookupCompleted_decided hlookup (by simp)
  | none =>
    rcases lookupCompleted_inv hlookup with ⟨-, e, he⟩ | ⟨key, answer, rfl, hanswer⟩
    · cases he
    obtain rfl := hanswer.mpr rfl
    rcases Answered.bindE_inv hturn with ⟨e, rfl, hbegin⟩ | ⟨second, rest, ⟨⟩, rfl, hbegin, hsession⟩
    · obtain ⟨answer, hcall, heq⟩ := Answered.adapt_inv hbegin
      obtain rfl := Answered.perform_inv hcall
      refine .inl (.of_begun (by simp) (by simp) (LastTurn.conflict_of_last ?_))
      rintro x hx ⟨key, rfl⟩
      cases hx
    · obtain ⟨answer, hcall, heq⟩ := Answered.adapt_inv hbegin
      obtain rfl := Answered.perform_inv hcall
      obtain rfl : answer = .ok () := by
        cases answer with
        | ok _ => rfl
        | error e => cases heq
      rcases session_cases hsession with hlast | ⟨loads, t, e, key', rest, hloads, rfl, he, hpolicy, hrest⟩
      · exact .inl hlast
      · exact .inr ⟨_, rest, e, by simp, ⟨key, loads, t, key', hloads, rfl⟩, he, hpolicy,
          context_of_lookup hlookup, hrest⟩

/-! ## Runs -/

/-- What holds of a run of the loop with a limit to its evaluations: it ends, an evaluation after the
first follows a conflict that nobody had decided, and such a conflict at the end is returned. -/
structure BoundedRun (limit : Nat) (trace : List Exchange)
    (r : Except CommandExecutionError (Option CompletedCommit)) : Prop where
  result : r ≠ .ok none
  begins : trace.countP Exchange.begins ≤ limit
  again : ∀ before after, trace = before ++ ⟨.beginCommand, .ok ()⟩ :: after →
    (∃ key, before = [⟨.lookupOutcome key, .ok .missing⟩]) ∨
      ∃ earlier t e key key', before = earlier ++ [⟨.commitOutcome t, .error e⟩,
        ⟨.lookupOutcome key, .ok .missing⟩, ⟨.lookupOutcome key', .ok .missing⟩] ∧ e.kind = .conflict
  gaveUp : ∀ before t e key,
    trace = before ++ [⟨.commitOutcome t, .error e⟩, ⟨.lookupOutcome key, .ok .missing⟩] →
      r = .error (.store e)

omit [Crates] in
theorem LastTurn.bounded {limit : Nat} {r : Except CommandExecutionError (Option CompletedCommit)}
    (h : LastTurn trace r) (hlimit : 1 ≤ limit) : BoundedRun limit trace r where
  result := h.result
  begins := h.begins.trans hlimit
  again before after heq := .inl (h.first before after heq)
  gaveUp := h.conflict

omit [Crates] in
/-- A turn that ended in a conflict, before the rest of the run. -/
theorem BoundedRun.turn {limit : Nat} {turn rest : List Exchange} {e : EventStoreError}
    {r : Except CommandExecutionError (Option CompletedCommit)} (h : BoundedRun limit rest r)
    (hturn : Conflicted turn e) (he : e.kind = .conflict) (hne : rest ≠ []) :
    BoundedRun (limit + 1) (turn ++ rest) r := by
  obtain ⟨key, loads, t, key', hloads, rfl⟩ := hturn
  have hquiet : ∀ x ∈ loads ++
      [⟨.commitOutcome t, .error e⟩, ⟨.lookupOutcome key', .ok .missing⟩], Exchange.begins x = false := by
    intro x hx
    rcases List.mem_append.mp hx with hx | hx
    · exact (hloads x hx).not_begins
    · rcases List.mem_pair.mp hx with rfl | rfl <;> rfl
  refine ⟨h.result, ?_, fun before after heq => ?_, fun before t' e' key'' heq => ?_⟩
  · have := @begun_count key (.ok ()) _ hquiet
    have := h.begins
    rw [List.countP_append]
    omega
  · rcases List.append_eq_append_iff.mp heq with ⟨before', rfl, hrest⟩ | ⟨after', hturn, hafter⟩
    · rcases h.again before' after hrest with ⟨key₁, rfl⟩ | ⟨earlier, t₁, e₁, key₁, key₂, rfl, he₁⟩
      · refine .inr ⟨⟨.lookupOutcome key, .ok .missing⟩ :: ⟨.beginCommand, .ok ()⟩ :: loads,
          t, e, key', key₁, by simp, he⟩
      · exact .inr ⟨_, t₁, e₁, key₁, key₂, by rw [← List.append_assoc], he₁⟩
    · rcases after' with _ | ⟨a, after'⟩
      · -- the rest would begin with a session
        rcases h.again [] after (by simpa using hafter.symm) with ⟨key₁, hnil⟩ | ⟨_, _, _, _, _, hnil, -⟩
        · cases hnil
        · simp at hnil
      · obtain ⟨rfl, -⟩ := List.cons.inj hafter
        exact .inl ⟨key, begun_first hquiet hturn⟩
  · rcases List.append_eq_append_iff.mp heq with ⟨before', rfl, hrest⟩ | ⟨after', hturn, hafter⟩
    · exact h.gaveUp before' t' e' key'' hrest
    · rcases after' with _ | ⟨a, _ | ⟨b, after'⟩⟩
      · exact h.gaveUp [] t' e' key'' hafter.symm
      · -- the turn ends with a lookup, not with a commit
        obtain ⟨rfl, -⟩ := List.cons.inj hafter
        have hsplit : (⟨.lookupOutcome key, .ok .missing⟩ :: ⟨.beginCommand, .ok ()⟩ ::
            (loads ++ [⟨.commitOutcome t, .error e⟩])) ++ [⟨.lookupOutcome key', .ok .missing⟩] =
            before ++ [⟨.commitOutcome t', .error e'⟩] := by
          simpa using hturn
        cases (List.append_inj' hsplit rfl).2
      · have hrest : after' ++ rest = [] := (List.cons.inj (List.cons.inj hafter).2).2.symm
        exact absurd (List.append_eq_nil_iff.mp hrest).2 hne

theorem executeLoop_bounded {maximum evaluations : Nat} (hmaximum : maximum < 2 ^ 64 - 1)
    {executor : CommandExecutor} (hpolicy : executor.conflictRetryPolicy = boundedConflictRetries maximum)
    {codec : RejectionCodec Rejection} {attempts : List (Handler Rejection)}
    (hevaluations : evaluations ≤ maximum) (hattempts : maximum < evaluations + attempts.length)
    {r : Except CommandExecutionError (Option CompletedCommit)}
    (h : Answered ((calls authority).executeLoop metadata executor codec attempts evaluations).run
      trace r) : BoundedRun (maximum + 1 - evaluations) trace r := by
  induction attempts generalizing trace evaluations with
  | nil =>
    rw [List.length_nil] at hattempts
    omega
  | cons handler attempts ih =>
    rcases turn_cases h with hlast | ⟨turn, rest, e, rfl, hturn, he, hgo, ⟨context, hcontext⟩, hrest⟩
    · exact hlast.bounded (by omega)
    · have hsucc : saturatingSucc evaluations = evaluations + 1 := by
        unfold saturatingSucc
        omega
      have hle : evaluations + 1 ≤ maximum := by
        by_contra hlt
        exact hgo (by rw [hpolicy, hsucc]; exact if_neg hlt)
      rw [hsucc] at hrest
      rw [List.length_cons] at hattempts
      have hbounded := ih hle (by omega) hrest
      have hne : rest ≠ [] := by
        rintro rfl
        obtain ⟨handler', attempts, rfl⟩ : ∃ handler' attempts', attempts = handler' :: attempts' := by
          refine List.exists_cons_of_ne_nil fun hnil => ?_
          rw [hnil, List.length_nil] at hattempts
          omega
        rcases Answered.bindE_inv hrest with ⟨e, -, hlookup⟩ | ⟨first, rest, winner, hnil, hlookup, -⟩
        · exact lookupCompleted_ne_nil hcontext hlookup
        · obtain ⟨rfl, -⟩ := List.append_eq_nil_iff.mp hnil.symm
          exact lookupCompleted_ne_nil hcontext hlookup
      have hlimit : maximum + 1 - evaluations = maximum + 1 - (evaluations + 1) + 1 := by omega
      rw [hlimit]
      exact hbounded.turn hturn he hne

/-- Under `BoundedConflictRetries`, an execution ends after one evaluation and as many more as there
may be retries. -/
theorem execute_bounded {maximum : Nat} (hmaximum : maximum < 2 ^ 64 - 1) (e : Execution)
    (hpolicy : e.executor.conflictRetryPolicy = boundedConflictRetries maximum)
    (hattempts : maximum < e.attempts.length)
    {r : Except CommandExecutionError (Option CompletedCommit)}
    (h : Answered ((calls authority).execute e).run trace r) : BoundedRun (maximum + 1) trace r := by
  rcases Answered.liftBind_inv h with ⟨error, -, rfl, rfl⟩ | ⟨metadata, -, hloop⟩
  · exact ⟨by simp, by simp, by simp, by simp⟩
  · exact executeLoop_bounded hmaximum hpolicy (Nat.zero_le _) (by omega) hloop

end ExecutionStore

/-! ## A store that always conflicts -/

namespace Sample

attribute [local instance] Crates.concrete

/-- No history, no outcome, and a conflict for every commit. -/
def refuse : Unit → (op : ExecutionCall) → op.Answer × Unit
  | _, .lookupOutcome _ => (.ok .missing, ())
  | _, .beginCommand => (.ok (), ())
  | _, .load _ => (.ok [], ())
  | _, .commitOutcome _ => (.error ⟨.conflict, "guard", .backend⟩, ())

/-- A command that is evaluated again once. -/
def persistent : Execution where
  Rejection := Unit
  executor := ⟨⟨fun _ => none⟩, boundedConflictRetries 1⟩
  request := ⟨none, none, none, some context, operation, fingerprint, none, none⟩
  commandType := "Decide"
  codec := ⟨fun _ => .ok ⟨"unit", 1, []⟩, fun _ => .ok ()⟩
  attempts := [.done (.ok .accepted), .done (.ok .accepted), .done (.ok .accepted)]

theorem execute_bounded_refused : ∃ trace, ExecutionStore.BoundedRun 2 trace
    (.error (.store ⟨.conflict, "guard", .backend⟩)) := by
  have h := Answered.alone refuse ((ExecutionStore.calls authority).execute persistent).run ()
  exact ⟨_, ExecutionStore.execute_bounded (by decide) persistent rfl (by decide) h⟩

end Sample

end Rostfrei
