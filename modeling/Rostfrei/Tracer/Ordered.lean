import Rostfrei.Lib.Machine
import Rostfrei.Tracer.Observed

/-!
# The numbers of a series

Messages and outcomes of a series get their numbers from one counter. `Numbered` says what that
leaves in the two lists; it holds of every series that insertions build (`reachable_numbered`), and
a numbered series is what the insertions of its observations build, in the order of their numbers
(`Numbered.insertions`).
-/

namespace Rostfrei.Tracer

open Lib Messaging

/-- What is inserted into a series. -/
inductive Observation where
  | message (message : ObservedMessageNode)
  | outcome (outcome : ObservedCommandOutcome)

namespace Observation

def order : Observation → Nat
  | message m => m.observationOrder
  | outcome o => o.observationOrder

def message? : Observation → Option ObservedMessageNode
  | message m => some m
  | outcome _ => none

def outcome? : Observation → Option ObservedCommandOutcome
  | message _ => none
  | outcome o => some o

end Observation

namespace ObservedMessageSeries

/-- One insertion. -/
def observe (s : ObservedMessageSeries) : Observation →
    Except ObservedMessageSeriesError (MessageSeriesInsertOutcome × ObservedMessageSeries)
  | .message m => s.insertMessage m
  | .outcome o => s.insertCommandOutcome o

/-- The series after an insertion, which may have failed. -/
def after (s : ObservedMessageSeries) (item : Observation) : ObservedMessageSeries :=
  match s.observe item with
  | .ok (_, s') => s'
  | .error _ => s

/-- Insertions of any observations. -/
def machine : Machine ObservedMessageSeries Observation where
  start s := s = .empty
  step s item s' := s' = s.after item

/-- Insertions that add their observations. -/
def insertions : Machine ObservedMessageSeries Observation where
  start s := s = .empty
  step s item s' := s.observe item = .ok (.inserted, s')

variable {s s' : ObservedMessageSeries} {items : List Observation}

theorem machine_run_of_insertions (h : insertions.Run s items s') : machine.Run s items s' := by
  induction h with
  | nil => exact .nil _
  | cons hstep _ ih =>
    refine .cons ?_ ih
    have hstep : ObservedMessageSeries.observe _ _ = _ := hstep
    simp only [machine, after, hstep]

/-- Series of the same lists and the same counter are equal. -/
theorem ext_lists (hmessages : s.messages.nodes = s'.messages.nodes)
    (houtcomes : s.commandOutcomes = s'.commandOutcomes)
    (hnext : s.nextObservationOrder = s'.nextObservationOrder) : s = s' := by
  obtain ⟨⟨nodes, _, _⟩, outcomes, next, _, _⟩ := s
  obtain ⟨⟨nodes', _, _⟩, outcomes', next', _, _⟩ := s'
  obtain rfl : nodes = nodes' := hmessages
  obtain rfl : outcomes = outcomes' := houtcomes
  obtain rfl : next = next' := hnext
  rfl

/-- The observations of a series are valid, and their numbers are those below the next one, in the
order of each list. -/
structure Numbered (s : ObservedMessageSeries) : Prop where
  messages : ∀ m ∈ s.messages.nodes, validateObservedMessage m = .ok ()
  outcomes : ∀ o ∈ s.commandOutcomes, validateObservedOutcome o = .ok ()
  outcomes_le : s.commandOutcomes.length ≤ maxMessageSeriesNodes
  messages_increase : s.messages.nodes.Pairwise (·.observationOrder < ·.observationOrder)
  outcomes_increase : s.commandOutcomes.Pairwise (·.observationOrder < ·.observationOrder)
  orders : (s.messages.nodes.map (·.observationOrder) ++
    s.commandOutcomes.map (·.observationOrder)).Perm (List.range s.nextObservationOrder)

theorem numbered_empty : Numbered .empty where
  messages := nofun
  outcomes := nofun
  outcomes_le := Nat.zero_le _
  messages_increase := .nil
  outcomes_increase := .nil
  orders := .refl _

/-! ## Insertions keep the numbers -/

theorem Numbered.message_lt (h : s.Numbered) {m : ObservedMessageNode}
    (hm : m ∈ s.messages.nodes) : m.observationOrder < s.nextObservationOrder :=
  List.mem_range.mp (h.orders.subset (List.mem_append_left _ (List.mem_map_of_mem hm)))

theorem Numbered.outcome_lt (h : s.Numbered) {o : ObservedCommandOutcome}
    (ho : o ∈ s.commandOutcomes) : o.observationOrder < s.nextObservationOrder :=
  List.mem_range.mp (h.orders.subset (List.mem_append_right _ (List.mem_map_of_mem ho)))

/-- There are as many numbers as observations. -/
theorem Numbered.next_eq (h : s.Numbered) :
    s.nextObservationOrder = s.messages.nodes.length + s.commandOutcomes.length := by
  have := h.orders.length_eq
  simp only [List.length_append, List.length_map, List.length_range] at this
  exact this.symm

/-- The counter is far from its bound. -/
theorem Numbered.next_lt (h : s.Numbered) : s.nextObservationOrder + 1 < 2 ^ 64 := by
  have hnext := h.next_eq
  have hmessages := s.messages.nodes_le
  have houtcomes := h.outcomes_le
  simp only [maxMessageSeriesNodes] at hmessages houtcomes
  omega

theorem Numbered.insert_message (h : s.Numbered) {m : ObservedMessageNode}
    {r : MessageSeriesInsertOutcome} (hinsert : s.insertMessage m = .ok (r, s')) :
    s'.Numbered := by
  obtain ⟨hvalid, hinserts⟩ := insertMessage_eq_ok hinsert
  cases hinserts with
  | duplicate => exact h
  | inserted _ _ hnodes houtcomes hnext =>
    exact {
      messages := by
        rw [hnodes]
        refine List.forall_mem_append.mpr ⟨h.messages, List.forall_mem_singleton.mpr ?_⟩
        rw [ObservedMessageNode.validate_setObservationOrder, hvalid]
      outcomes := houtcomes ▸ h.outcomes
      outcomes_le := houtcomes ▸ h.outcomes_le
      messages_increase := by
        rw [hnodes, List.pairwise_append]
        refine ⟨h.messages_increase, List.pairwise_singleton _ _, fun a ha b hb => ?_⟩
        rw [List.mem_singleton.mp hb, ObservedMessageNode.observationOrder_setObservationOrder]
        exact h.message_lt ha
      outcomes_increase := houtcomes ▸ h.outcomes_increase
      orders := by
        rw [hnodes, houtcomes, hnext, List.map_append, List.range_succ, List.append_assoc]
        have hswap := @List.perm_append_comm _ [s.nextObservationOrder]
          (s.commandOutcomes.map (·.observationOrder))
        simp only [List.map_singleton, ObservedMessageNode.observationOrder_setObservationOrder]
        refine (hswap.append_left _).trans ?_
        rw [← List.append_assoc]
        exact h.orders.append_right _ }

theorem Numbered.insert_outcome (h : s.Numbered) {o : ObservedCommandOutcome}
    {r : MessageSeriesInsertOutcome} (hinsert : s.insertCommandOutcome o = .ok (r, s')) :
    s'.Numbered := by
  obtain ⟨hvalid, hinserts⟩ := insertCommandOutcome_eq_ok hinsert h.outcomes_le
  cases hinserts with
  | duplicate => exact h
  | inserted hroom hmessages houtcomes hnext =>
    exact {
      messages := hmessages ▸ h.messages
      outcomes := by
        rw [houtcomes]
        exact List.forall_mem_append.mpr ⟨h.outcomes, List.forall_mem_singleton.mpr hvalid⟩
      outcomes_le := by
        rw [houtcomes, List.length_append, List.length_singleton]
        exact hroom
      messages_increase := hmessages ▸ h.messages_increase
      outcomes_increase := by
        rw [houtcomes, List.pairwise_append]
        refine ⟨h.outcomes_increase, List.pairwise_singleton _ _, fun a ha b hb => ?_⟩
        rw [List.mem_singleton.mp hb]
        exact h.outcome_lt ha
      orders := by
        rw [hmessages, houtcomes, hnext, List.map_append, List.range_succ, ← List.append_assoc]
        exact h.orders.append_right _ }

/-- Every series that insertions build is numbered. -/
theorem machine_numbered : machine.Invariant Numbered where
  start := by
    rintro s rfl
    exact numbered_empty
  step s item s' h hstep := by
    obtain rfl : s' = s.after item := hstep
    unfold after
    cases item with
    | message m =>
      cases hinsert : s.insertMessage m with
      | ok r => simpa only [observe, hinsert] using h.insert_message hinsert
      | error e => simpa only [observe, hinsert] using h
    | outcome o =>
      cases hinsert : s.insertCommandOutcome o with
      | ok r => simpa only [observe, hinsert] using h.insert_outcome hinsert
      | error e => simpa only [observe, hinsert] using h

/-! ## Numbered series are built by insertions -/

/-- In a list with increasing numbers below `n + 1`, the number `n` is the last one. -/
theorem exists_last {α : Type} {f : α → Nat} {l : List α} {n : Nat}
    (hincrease : l.Pairwise (f · < f ·)) (hbound : ∀ a ∈ l, f a < n + 1) (hmem : n ∈ l.map f) :
    ∃ front last, l = front ++ [last] ∧ f last = n := by
  obtain ⟨a, ha, hfa⟩ := List.mem_map.mp hmem
  rcases List.eq_nil_or_concat l with rfl | ⟨front, last, rfl⟩
  · cases ha
  rw [List.concat_eq_append] at *
  refine ⟨front, last, rfl, ?_⟩
  have hlast := hbound last (by simp)
  rcases List.mem_append.mp ha with hfront | hlast'
  · have := (List.pairwise_append.mp hincrease).2.2 a hfront last (by simp)
    omega
  · rw [← List.mem_singleton.mp hlast', hfa]

/-- A series whose last number is a message's, before that message. -/
theorem Numbered.before_message {n : Nat} (h : s.Numbered) (hn : s.nextObservationOrder = n + 1)
    (hmem : n ∈ s.messages.nodes.map (·.observationOrder)) :
    ∃ (before : ObservedMessageSeries) (last : ObservedMessageNode), before.Numbered ∧
      before.nextObservationOrder = n ∧ last.observationOrder = n ∧
      before.insertMessage last = .ok (.inserted, s) ∧
      s.messages.nodes = before.messages.nodes ++ [last] ∧
      s.commandOutcomes = before.commandOutcomes := by
  obtain ⟨front, last, hnodes, hlast⟩ := exists_last h.messages_increase
    (fun a ha => hn ▸ h.message_lt ha) hmem
  have hnodup := s.messages.ids_nodup
  rw [hnodes, List.map_append, List.nodup_append] at hnodup
  have hlength := s.messages.nodes_le
  rw [hnodes, List.length_append, List.length_singleton] at hlength
  let before : ObservedMessageSeries := { s with
    messages := ⟨front, hnodup.1, Nat.le_of_succ_le hlength⟩
    nextObservationOrder := n }
  have hbefore : before.Numbered := {
    messages := fun m hm => h.messages m (hnodes ▸ List.mem_append_left _ hm)
    outcomes := h.outcomes
    outcomes_le := h.outcomes_le
    messages_increase := by
      have := h.messages_increase
      rw [hnodes, List.pairwise_append] at this
      exact this.1
    outcomes_increase := h.outcomes_increase
    orders := by
      have horders := h.orders
      rw [hn, hnodes, List.map_append, List.range_succ, List.append_assoc] at horders
      have hswap := @List.perm_append_comm _ [last.observationOrder]
        (s.commandOutcomes.map (·.observationOrder))
      have := ((hswap.append_left (front.map (·.observationOrder))).symm.trans horders)
      rw [← List.append_assoc, hlast] at this
      exact (List.perm_append_right_iff _).mp this }
  have hlastmem : last ∈ s.messages.nodes := by rw [hnodes]; simp
  have hget : before.messages.get last.messageId = none := by
    refine List.find?_eq_none.mpr fun m hm => ?_
    have hne : messageId m ≠ messageId last :=
      hnodup.2.2 _ (List.mem_map_of_mem hm) _ (List.mem_map_of_mem List.mem_cons_self)
    exact fun heq => hne (of_decide_eq_true heq)
  obtain ⟨s', hinsert⟩ := insertMessage_new (h.messages last hlastmem) hget
    (Nat.ne_of_lt hlength) hbefore.next_lt
  have heq : s' = s := by
    obtain ⟨-, hinserts⟩ := insertMessage_eq_ok hinsert
    cases hinserts with
    | inserted _ _ hnodes' houtcomes' hnext' =>
      refine ext_lists ?_ houtcomes' (hnext'.trans hn.symm)
      have hself : last.setObservationOrder n = last :=
        hlast ▸ last.setObservationOrder_self
      rw [hnodes', hnodes]
      exact congrArg (front ++ [·]) hself
  exact ⟨before, last, hbefore, rfl, hlast, heq ▸ hinsert, hnodes, rfl⟩

/-- A series whose last number is an outcome's, before that outcome. -/
theorem Numbered.before_outcome {n : Nat} (h : s.Numbered) (hn : s.nextObservationOrder = n + 1)
    (hmem : n ∈ s.commandOutcomes.map (·.observationOrder)) :
    ∃ (before : ObservedMessageSeries) (last : ObservedCommandOutcome), before.Numbered ∧
      before.nextObservationOrder = n ∧ last.observationOrder = n ∧
      before.insertCommandOutcome last = .ok (.inserted, s) ∧
      s.messages.nodes = before.messages.nodes ∧
      s.commandOutcomes = before.commandOutcomes ++ [last] := by
  obtain ⟨front, last, houtcomes, hlast⟩ := exists_last h.outcomes_increase
    (fun a ha => hn ▸ h.outcome_lt ha) hmem
  have hcommands := s.commands_nodup
  have hresponses := s.responses_nodup
  rw [houtcomes, List.map_append, List.nodup_append] at hcommands hresponses
  have hlength := h.outcomes_le
  rw [houtcomes, List.length_append, List.length_singleton] at hlength
  let before : ObservedMessageSeries := { s with
    commandOutcomes := front
    nextObservationOrder := n
    commands_nodup := hcommands.1
    responses_nodup := hresponses.1 }
  have hbefore : before.Numbered := {
    messages := h.messages
    outcomes := fun o ho => h.outcomes o (houtcomes ▸ List.mem_append_left _ ho)
    outcomes_le := Nat.le_of_succ_le hlength
    messages_increase := h.messages_increase
    outcomes_increase := by
      have := h.outcomes_increase
      rw [houtcomes, List.pairwise_append] at this
      exact this.1
    orders := by
      have horders := h.orders
      rw [hn, houtcomes, List.map_append, List.range_succ, ← List.append_assoc,
        List.map_singleton, hlast] at horders
      exact (List.perm_append_right_iff _).mp horders }
  have hlastmem : last ∈ s.commandOutcomes := by rw [houtcomes]; simp
  obtain ⟨s', hinsert⟩ := @insertCommandOutcome_new before last (h.outcomes last hlastmem)
    (fun o ho => hcommands.2.2 _ (List.mem_map_of_mem ho) _ (List.mem_map_of_mem List.mem_cons_self))
    (fun o ho => hresponses.2.2 _ (List.mem_map_of_mem ho) _
      (List.mem_map_of_mem List.mem_cons_self))
    (Nat.ne_of_lt hlength) hbefore.next_lt
  have heq : s' = s := by
    obtain ⟨-, hinserts⟩ := insertCommandOutcome_eq_ok hinsert hbefore.outcomes_le
    cases hinserts with
    | inserted _ hmessages' houtcomes' hnext' =>
      refine ext_lists (congrArg MessageSeries.nodes hmessages') ?_ (hnext'.trans hn.symm)
      have hself : last.setObservationOrder n = last := hlast ▸ rfl
      rw [houtcomes', houtcomes]
      exact congrArg (front ++ [·]) hself
  exact ⟨before, last, hbefore, rfl, hlast, heq ▸ hinsert, rfl, houtcomes⟩

/-- A numbered series is built by the insertions of its observations, in the order of their
numbers. -/
theorem Numbered.insertions (h : s.Numbered) : ∃ items : List Observation,
    items.map Observation.order = List.range s.nextObservationOrder ∧
      items.filterMap Observation.message? = s.messages.nodes ∧
      items.filterMap Observation.outcome? = s.commandOutcomes ∧
      ObservedMessageSeries.insertions.Run .empty items s := by
  generalize hn : s.nextObservationOrder = n
  induction n generalizing s with
  | zero =>
    have hlength := h.next_eq
    rw [hn] at hlength
    have hnodes : s.messages.nodes = [] := List.eq_nil_of_length_eq_zero (by omega)
    have houtcomes : s.commandOutcomes = [] := List.eq_nil_of_length_eq_zero (by omega)
    obtain rfl : s = .empty := ext_lists hnodes houtcomes hn
    exact ⟨[], rfl, rfl, rfl, .nil _⟩
  | succ n ih =>
    have hmem : n ∈ s.messages.nodes.map (·.observationOrder) ++
        s.commandOutcomes.map (·.observationOrder) :=
      h.orders.symm.subset (hn ▸ List.mem_range.mpr (Nat.lt_succ_self n))
    rcases List.mem_append.mp hmem with hmessage | houtcome
    · obtain ⟨before, last, hbefore, hnext, hlast, hinsert, hnodes, houtcomes⟩ :=
        h.before_message hn hmessage
      obtain ⟨items, horders, hmessages, houtcomes', hrun⟩ := ih hbefore hnext
      have hstep : ObservedMessageSeries.insertions.step before (.message last) s := hinsert
      refine ⟨items ++ [.message last], ?_, ?_, ?_, hrun.append (.cons hstep (.nil _))⟩
      · rw [List.map_append, horders, List.range_succ, ← hlast]
        rfl
      · rw [List.filterMap_append, hmessages, hnodes]
        rfl
      · rw [List.filterMap_append, houtcomes', houtcomes]
        exact List.append_nil _
    · obtain ⟨before, last, hbefore, hnext, hlast, hinsert, hnodes, houtcomes⟩ :=
        h.before_outcome hn houtcome
      obtain ⟨items, horders, hmessages, houtcomes', hrun⟩ := ih hbefore hnext
      have hstep : ObservedMessageSeries.insertions.step before (.outcome last) s := hinsert
      refine ⟨items ++ [.outcome last], ?_, ?_, ?_, hrun.append (.cons hstep (.nil _))⟩
      · rw [List.map_append, horders, List.range_succ, ← hlast]
        rfl
      · rw [List.filterMap_append, hmessages, hnodes]
        exact List.append_nil _
      · rw [List.filterMap_append, houtcomes', houtcomes]
        rfl

end ObservedMessageSeries

end Rostfrei.Tracer
