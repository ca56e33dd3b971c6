import Rostfrei.AgentTools.Transaction

/-!
# The commit of a skills transaction

Whatever renames fail, a commit that answers an error has put everything back, and one that answers
none has replaced the managed names and no others (`commit_exact`).

The invariant of the loop is `Saved`: the backup holds what stood at the names applied so far, and the
other names are as they were.
-/

namespace Rostfrei.AgentTools

variable {α : Type} {original : String → Option α} {applied : List (String × Bool)}
  {places places' : Places α} {name : String}

/-! ## Renames -/

theorem rename_eq_some {source target source' target' : String → Option α}
    (h : rename name source target = some (source', target')) :
    (source name).isSome = true ∧ target name = none ∧ source' = Function.update source name none ∧
      target' = Function.update target name (source name) := by
  rw [rename] at h
  split at h
  · next tree hsource htarget =>
    obtain ⟨rfl, rfl⟩ := Prod.mk.inj (Option.some.inj h)
    exact ⟨by rw [hsource, Option.isSome_some], htarget, rfl, by rw [hsource]⟩
  · cases h

theorem rename_of_some {source target : String → Option α} {tree : α} (hsource : source name = some tree)
    (htarget : target name = none) :
    rename name source target =
      some (Function.update source name none, Function.update target name (some tree)) := by
  rw [rename, hsource, htarget]

/-! ## Rollback -/

/-- The backup holds what stood at the applied names, and the other names are as they were. -/
structure Saved (original : String → Option α) (applied : List (String × Bool)) (places : Places α) :
    Prop where
  backedUp : ∀ name existed, (name, existed) ∈ applied →
    existed = (original name).isSome ∧ places.backup name = original name
  untouched : ∀ name, name ∉ applied.map (·.1) →
    places.destination name = original name ∧ places.backup name = none

theorem Saved.start (original next : String → Option α) :
    Saved original [] ⟨original, next, fun _ => none⟩ where
  backedUp := by simp
  untouched := fun _ _ => ⟨rfl, rfl⟩

/-- Rolling back restores the destination. -/
theorem Saved.rollback (h : Saved original applied places) (hnodup : (applied.map (·.1)).Nodup) :
    (AgentTools.rollback applied places).1 = .ok () ∧
      (AgentTools.rollback applied places).2.destination = original := by
  induction applied generalizing places with
  | nil => exact ⟨rfl, funext fun name => (h.untouched name (by simp)).1⟩
  | cons entry applied ih =>
    obtain ⟨name, existed⟩ := entry
    rw [List.map_cons, List.nodup_cons] at hnodup
    obtain ⟨hexisted, hbackup⟩ := h.backedUp name existed List.mem_cons_self
    -- the other applied names are still backed up
    have hothers : ∀ other existed, (other, existed) ∈ applied → other ≠ name := by
      rintro other existed hmem rfl
      exact hnodup.1 (List.mem_map.mpr ⟨_, hmem, rfl⟩)
    have hrest : ∀ other, other ≠ name → other ∉ applied.map (·.1) →
        places.destination other = original other ∧ places.backup other = none := by
      intro other hne hother
      exact h.untouched other (by simp [hne, hother])
    cases horiginal : original name with
    | none =>
      rw [horiginal] at hexisted hbackup
      subst hexisted
      rw [AgentTools.rollback, if_neg (by simp)]
      refine ih ⟨?_, ?_⟩ hnodup.2
      · exact fun other existed hmem => h.backedUp other existed (List.mem_cons_of_mem _ hmem)
      · intro other hother
        dsimp only
        by_cases hne : other = name
        · subst hne
          exact ⟨by rw [Function.update_self, horiginal], hbackup⟩
        · rw [Function.update_of_ne hne]
          exact hrest other hne hother
    | some tree =>
      rw [horiginal] at hexisted hbackup
      subst hexisted
      have hrename := rename_of_some hbackup (Function.update_self name none places.destination)
      rw [AgentTools.rollback, if_pos (by simp), hrename]
      refine ih ⟨?_, ?_⟩ hnodup.2
      · intro other existed hmem
        dsimp only
        rw [Function.update_of_ne (hothers other existed hmem)]
        exact h.backedUp other existed (List.mem_cons_of_mem _ hmem)
      · intro other hother
        dsimp only
        by_cases hne : other = name
        · subst hne
          rw [Function.update_self, Function.update_self, horiginal]
          exact ⟨rfl, rfl⟩
        · rw [Function.update_of_ne hne, Function.update_of_ne hne, Function.update_of_ne hne]
          exact hrest other hne hother

theorem rolledBack_ok (message : String) {outcome : Except ToolError Unit × Places α}
    (h : outcome.1 = .ok ()) :
    rolledBack message outcome = (.error (error message), outcome.2) := by
  obtain ⟨answer, places⟩ := outcome
  subst h
  rfl

/-! ## One name -/

/-- A name that is backed up is saved. -/
theorem Saved.backUp {faults : Faults} (h : Saved original applied places)
    (hname : name ∉ applied.map (·.1)) (hbackUp : backUp faults name places = some places') :
    Saved original ((name, true) :: applied) places' ∧ places'.destination name = none ∧
      places'.next = places.next ∧
      ∀ other, other ≠ name → places'.destination other = places.destination other := by
  rw [AgentTools.backUp] at hbackUp
  split at hbackUp
  · cases hbackUp
  · obtain ⟨⟨destination, backup⟩, hrename, rfl⟩ := Option.map_eq_some_iff.mp hbackUp
    obtain ⟨hsome, -, rfl, rfl⟩ := rename_eq_some hrename
    obtain ⟨hdestination, -⟩ := h.untouched name hname
    refine ⟨⟨?_, ?_⟩, Function.update_self .., rfl, fun _ hne => Function.update_of_ne hne _ _⟩
    · intro other existed hmem
      dsimp only
      rcases List.mem_cons.mp hmem with heq | hin
      · obtain ⟨rfl, rfl⟩ := Prod.mk.inj heq
        rw [Function.update_self, ← hdestination]
        exact ⟨hsome.symm, rfl⟩
      · have hne : other ≠ name := by
          rintro rfl
          exact hname (List.mem_map.mpr ⟨_, hin, rfl⟩)
        rw [Function.update_of_ne hne]
        exact h.backedUp other existed hin
    · intro other hother
      simp only [List.map_cons, List.mem_cons, not_or] at hother
      dsimp only
      rw [Function.update_of_ne hother.1, Function.update_of_ne hother.1]
      exact h.untouched other hother.2

/-- A name at which nothing stands needs no backup. -/
theorem Saved.absent (h : Saved original applied places) (hname : name ∉ applied.map (·.1))
    (habsent : places.destination name = none) : Saved original ((name, false) :: applied) places where
  backedUp := by
    intro other existed hmem
    rcases List.mem_cons.mp hmem with heq | hmem
    · obtain ⟨rfl, rfl⟩ := Prod.mk.inj heq
      obtain ⟨hdestination, hbackup⟩ := h.untouched other hname
      rw [← hdestination, habsent]
      exact ⟨rfl, hbackup⟩
    · exact h.backedUp other existed hmem
  untouched := by
    intro other hother
    simp only [List.map_cons, List.mem_cons, not_or] at hother
    exact h.untouched other hother.2

/-- A replaced name stays saved, and holds what was staged for it. -/
theorem Saved.replace {faults : Faults} {existed : Bool}
    (h : Saved original ((name, existed) :: applied) places)
    (hreplace : replace faults name places = some places') :
    Saved original ((name, existed) :: applied) places' ∧ (places.next name).isSome = true ∧
      places'.destination = Function.update places.destination name (places.next name) ∧
      places'.next = Function.update places.next name none := by
  rw [AgentTools.replace] at hreplace
  split at hreplace
  · cases hreplace
  · obtain ⟨⟨next, destination⟩, hrename, rfl⟩ := Option.map_eq_some_iff.mp hreplace
    obtain ⟨hsome, -, rfl, rfl⟩ := rename_eq_some hrename
    refine ⟨⟨h.backedUp, ?_⟩, hsome, rfl, rfl⟩
    intro other hother
    have hne : other ≠ name := by
      rintro rfl
      exact hother (by simp)
    dsimp only
    rw [Function.update_of_ne hne]
    exact h.untouched other hother

/-! ## The loop -/

variable {staged : String → Option α}

/-- What the loop has replaced: the applied names hold what was staged for them, and the others are
still staged. -/
structure Replaced (staged : String → Option α) (applied : List (String × Bool)) (places : Places α) :
    Prop where
  placed : ∀ name ∈ applied.map (·.1), places.destination name = staged name ∧
    (staged name).isSome = true
  waiting : ∀ name, name ∉ applied.map (·.1) → places.next name = staged name

/-- The result of the loop: an error and the original, or what was staged at every name. -/
theorem commitLoop_exact (faults : Faults) (names : List String) (hsaved : Saved original applied places)
    (hreplaced : Replaced staged applied places)
    (hnodup : (names.reverse ++ applied.map (·.1)).Nodup) :
    (∃ failure, (commitLoop faults names applied places).1 = .error failure ∧
      (commitLoop faults names applied places).2.destination = original) ∨
    ((commitLoop faults names applied places).1 = .ok () ∧
      ∀ name, (name ∈ names ∨ name ∈ applied.map (·.1) →
          (commitLoop faults names applied places).2.destination name = staged name ∧
            (staged name).isSome = true) ∧
        (name ∉ names → name ∉ applied.map (·.1) →
          (commitLoop faults names applied places).2.destination name = original name)) := by
  induction names generalizing applied places with
  | nil =>
    refine .inr ⟨rfl, fun name => ⟨?_, fun _ hname => (hsaved.untouched name hname).1⟩⟩
    rintro (hname | hname)
    · cases hname
    · exact hreplaced.placed name hname
  | cons name names ih =>
    have hnames : (names.reverse ++ name :: applied.map (·.1)).Nodup := by
      simpa using hnodup
    have happlied : (name :: applied.map (·.1)).Nodup := hnames.of_append_right
    obtain ⟨hname, hnodup'⟩ := List.nodup_cons.mp happlied
    -- the places with the name out of the way
    have hclear : ∀ saved, (if (places.destination name).isSome then backUp faults name places
        else some places) = some saved →
        Saved original ((name, (places.destination name).isSome) :: applied) saved ∧
          saved.next = places.next ∧
          ∀ other, other ≠ name → saved.destination other = places.destination other := by
      intro saved hsome
      cases hdestination : places.destination name with
      | none =>
        rw [hdestination] at hsome
        obtain rfl := Option.some.inj hsome
        exact ⟨hsaved.absent hname hdestination, rfl, fun _ _ => rfl⟩
      | some tree =>
        rw [hdestination] at hsome
        obtain ⟨hsaved', -, hnext, hothers⟩ := hsaved.backUp hname hsome
        exact ⟨hsaved', hnext, hothers⟩
    rw [commitLoop]
    split
    · obtain ⟨hok, hdestination⟩ := hsaved.rollback hnodup'
      rw [rolledBack_ok _ hok]
      exact .inl ⟨_, rfl, hdestination⟩
    · next saved hsome =>
      obtain ⟨hsaved', hnext, hothers⟩ := hclear saved hsome
      split
      · obtain ⟨hok, hdestination⟩ := hsaved'.rollback happlied
        rw [rolledBack_ok _ hok]
        exact .inl ⟨_, rfl, hdestination⟩
      · next replaced hsome' =>
        obtain ⟨hsaved'', hpresent, hdestination, hnext'⟩ := hsaved'.replace hsome'
        rw [hnext, hreplaced.waiting name hname] at hpresent hdestination
        rw [hnext] at hnext'
        have hreplaced' : Replaced staged ((name, (places.destination name).isSome) :: applied)
            replaced := by
          refine ⟨?_, ?_⟩
          · intro other hother
            by_cases hne : other = name
            · subst hne
              rw [hdestination, Function.update_self]
              exact ⟨rfl, hpresent⟩
            · rw [hdestination, Function.update_of_ne hne, hothers other hne]
              rw [List.map_cons, List.mem_cons] at hother
              exact hreplaced.placed other (hother.resolve_left hne)
          · intro other hother
            rw [List.map_cons, List.mem_cons, not_or] at hother
            rw [hnext', Function.update_of_ne hother.1]
            exact hreplaced.waiting other hother.2
        rcases ih hsaved'' hreplaced' (by simpa using hnames) with herror | ⟨hok, hall⟩
        · exact .inl herror
        · refine .inr ⟨hok, fun other => ⟨?_, ?_⟩⟩
          · intro hother
            refine (hall other).1 ?_
            rw [List.map_cons, List.mem_cons]
            rcases hother with hother | hother
            · rcases List.mem_cons.mp hother with rfl | hother
              · exact .inr (.inl rfl)
              · exact .inl hother
            · exact .inr (.inr hother)
          · intro hother hother'
            rw [List.mem_cons, not_or] at hother
            refine (hall other).2 hother.2 ?_
            rw [List.map_cons, List.mem_cons, not_or]
            exact ⟨hother.1, hother'⟩

theorem managedNames_nodup : managedNames.Nodup := by decide

theorem commit_exact (faults : Faults) (destination next : String → Option α) :
    (∃ failure, (commit faults destination next).1 = .error failure ∧
      (commit faults destination next).2.destination = destination) ∨
    ((commit faults destination next).1 = .ok () ∧
      ∀ name, (name ∈ managedNames → (commit faults destination next).2.destination name = next name ∧
          (next name).isSome = true) ∧
        (name ∉ managedNames →
          (commit faults destination next).2.destination name = destination name)) := by
  have hreplaced : Replaced next [] ⟨destination, next, fun _ => none⟩ :=
    ⟨by simp, fun _ _ => rfl⟩
  have hexact := commitLoop_exact faults managedNames (Saved.start destination next) hreplaced
    (by simpa using managedNames_nodup)
  simpa [commit] using hexact

end Rostfrei.AgentTools
