import Rostfrei.AgentTools.Commit
import Rostfrei.Lib.Fallible

/-!
# What is staged

The tree that the transaction stages, entry by entry (`stage_eq`), when the planned directories are
plain: their parts are names without a backslash, which the source takes for a separator.
-/

namespace Rostfrei.AgentTools

open Std Lib

/-! ## Plain paths -/

/-- A name that the source's paths give back. -/
def PlainName (name : String) : Prop := ValidName name ∧ hasBackslash name = false

def Key.IsPlain (key : Key) : Prop := ∀ part ∈ key, PlainName part

theorem Key.IsPlain.of_prefix {key : Key} {below : Key} (h : key.IsPlain) (hbelow : below <+: key) :
    below.IsPlain :=
  fun part hpart => h part (hbelow.subset hpart)

theorem isPassed_eq_false {name : String} (h : ValidName name) : isPassed name = false := by
  simp [isPassed, h.nonempty, h.not_dot]

theorem trimRight_eq {key : Key} (h : ∀ part ∈ key, ValidName part) : trimRight key = key := by
  rcases List.eq_nil_or_concat key with rfl | ⟨init, last, rfl⟩
  · rfl
  · have hlast := isPassed_eq_false (h last (by simp))
    simp [trimRight, hlast]

theorem Key.parent_eq {key : Key} (h : ∀ part ∈ key, ValidName part) : key.parent = key.dropLast := by
  rw [Key.parent, trimRight_eq h, trimRight_eq]
  exact fun part hpart => h part (List.mem_of_mem_dropLast hpart)

theorem replaceBackslash_eq {key : Key} (h : key.IsPlain) : replaceBackslash key = key := by
  have hpart : ∀ part ∈ key, (part.toList.splitOn '\\').map String.ofList = [part] := by
    intro part hpart
    have hplain : '\\' ∉ part.toList := by simpa [hasBackslash] using (h part hpart).2
    rw [List.splitOn_eq_singleton hplain]
    simp
  rw [replaceBackslash, List.flatMap_congr hpart]
  simp

theorem resolve_eq {key : Key} (h : ∀ part ∈ key, ValidName part) : resolve key = key := by
  have hfold : ∀ (rest below : Key), (∀ part ∈ rest, ValidName part) →
      rest.foldl (fun below name => if isPassed name then below
        else if name = ".." then below.dropLast else below ++ [name]) below = below ++ rest := by
    intro rest
    induction rest with
    | nil => simp
    | cons part rest ih =>
      intro below hrest
      have hvalid := hrest part List.mem_cons_self
      rw [List.foldl_cons, isPassed_eq_false hvalid]
      simp only [Bool.false_eq_true, if_false, if_neg hvalid.not_dots]
      rw [ih _ fun other hother => hrest other (List.mem_cons_of_mem _ hother)]
      simp
  simpa [resolve] using hfold key [] h

/-- The paths strictly above another. -/
theorem mem_parentsWithin {rounds : Nat} {key above : Key} (hrounds : key.length ≤ rounds)
    (hvalid : ∀ part ∈ key, ValidName part) (hplain : Key.IsPlain key.dropLast) :
    above ∈ parentsWithin rounds key ↔ above ≠ [] ∧ above <+: key ∧ above ≠ key := by
  induction rounds generalizing key with
  | zero =>
    obtain rfl := List.length_eq_zero_iff.mp (Nat.le_zero.mp hrounds)
    simp [parentsWithin]
  | succ rounds ih =>
    rw [parentsWithin, Key.parent_eq hvalid]
    rcases List.eq_nil_or_concat key with rfl | ⟨init, last, rfl⟩
    · simp
    · rw [List.concat_eq_append] at hvalid hplain hrounds ⊢
      rw [List.dropLast_concat] at hplain ⊢
      rw [replaceBackslash_eq hplain, List.prefix_concat_iff]
      split
      · next hnil =>
        subst hnil
        simp only [List.not_mem_nil, List.nil_append, List.prefix_nil, false_iff]
        rintro ⟨hne, rfl | rfl, hother⟩
        · exact hother rfl
        · exact hne rfl
      · next hne =>
        have hinit : init.length ≤ rounds := by simpa using hrounds
        rw [List.mem_cons, ih hinit (fun part hpart => hvalid part (by simp [hpart]))
          (hplain.of_prefix (List.dropLast_prefix init))]
        constructor
        · rintro (rfl | ⟨hne, hinitial, -⟩)
          · exact ⟨hne, .inr (List.prefix_refl _), by simp⟩
          · refine ⟨hne, .inr hinitial, ?_⟩
            rintro rfl
            simpa using hinitial.length_le
        · rintro ⟨hne, hinitial, hother⟩
          by_cases heq : above = init
          · exact .inl heq
          · exact .inr ⟨hne, hinitial.resolve_left hother, heq⟩

theorem mem_parents {key above : Key} (hvalid : ∀ part ∈ key, ValidName part)
    (hplain : Key.IsPlain key.dropLast) :
    above ∈ parents key ↔ above ≠ [] ∧ above <+: key ∧ above ≠ key :=
  mem_parentsWithin le_rfl hvalid hplain

/-! ## Directories -/

section Staging

variable {M : Type} {defaults : Defaults M} {message : String} {area area' area'' : Tree M}

@[simp] theorem compare_key_eq {key other : Key} : compare key other = .eq ↔ key = other :=
  compare_eq_iff_eq

/-- The paths of a set that were absent have become directories, and nothing else has changed. -/
structure Made (defaults : Defaults M) (S : Key → Prop) (area area' : Tree M) : Prop where
  made : ∀ key, S key → area'[key]? = some (area[key]?.getD (.directory defaults.directory))
  kept : ∀ key, ¬ S key → area'[key]? = area[key]?

theorem Made.refl (area : Tree M) : Made defaults (fun _ => False) area area := ⟨by simp, by simp⟩

theorem Made.trans {S T : Key → Prop} (h : Made defaults S area area')
    (h' : Made defaults T area' area'') : Made defaults (fun key => S key ∨ T key) area area'' where
  made := by
    intro key hkey
    by_cases hT : T key
    · rw [h'.made key hT]
      by_cases hS : S key
      · rw [h.made key hS, Option.getD_some]
      · rw [h.kept key hS]
    · rw [h'.kept key hT, h.made key (hkey.resolve_right hT)]
  kept := by
    intro key hkey
    rw [not_or] at hkey
    rw [h'.kept key hkey.2, h.kept key hkey.1]

theorem Made.congr {S T : Key → Prop} (h : Made defaults S area area') (hST : ∀ key, S key ↔ T key) :
    Made defaults T area area' :=
  ⟨fun key hkey => h.made key ((hST key).mpr hkey), fun key hkey => h.kept key (mt (hST key).mp hkey)⟩

theorem made_createDir {key : Key} (h : createDir defaults message area key = .ok area') :
    Made defaults (· = key) area area' := by
  rw [createDir] at h
  split at h
  · next hnone =>
    obtain rfl := Except.ok.inj h
    refine ⟨?_, ?_⟩
    · rintro other rfl
      rw [ExtTreeMap.getElem?_insert_self, hnone, Option.getD_none]
    · intro other hother
      rw [ExtTreeMap.getElem?_insert, if_neg (by simpa using Ne.symm hother)]
  · next mode hsome =>
    obtain rfl := Except.ok.inj h
    refine ⟨?_, fun _ _ => rfl⟩
    rintro other rfl
    rw [hsome, Option.getD_some]
  · cases h

/-- Steps that each make some directories make all of them. -/
theorem Made.foldlM {ι : Type} {step : Tree M → ι → Except ToolError (Tree M)} {S : ι → Key → Prop}
    {items : List ι}
    (hstep : ∀ area, ∀ i ∈ items, ∀ area', step area i = .ok area' → Made defaults (S i) area area')
    (h : items.foldlM step area = .ok area') :
    Made defaults (fun key => ∃ i ∈ items, S i key) area area' := by
  induction items generalizing area with
  | nil =>
    obtain rfl := Except.ok.inj h
    exact (Made.refl area).congr (by simp)
  | cons i items ih =>
    rw [List.foldlM_cons] at h
    cases hfirst : step area i with
    | error failure =>
      rw [hfirst] at h
      cases h
    | ok next =>
      rw [hfirst] at h
      have hrest := ih (fun area other hother => hstep area other (List.mem_cons_of_mem _ hother)) h
      exact ((hstep area i List.mem_cons_self next hfirst).trans hrest).congr (by simp)

theorem made_createDirAll {key : Key} (hvalid : ∀ part ∈ key, ValidName part)
    (h : createDirAll defaults message area key = .ok area') :
    Made defaults (fun above => above ≠ [] ∧ above <+: key) area area' := by
  rw [createDirAll, resolve_eq hvalid] at h
  have hstep : ∀ area, ∀ above ∈ key.inits.tail, ∀ area',
      createDir defaults message area above = .ok area' → Made defaults (· = above) area area' :=
    fun _ _ _ _ => made_createDir
  refine (Made.foldlM hstep h).congr fun above => ?_
  have htail : above ∈ key.inits.tail ↔ above ≠ [] ∧ above <+: key := by
    cases key with
    | nil => simp
    | cons part key =>
      rw [List.inits_cons, List.tail_cons, List.mem_map]
      constructor
      · rintro ⟨below, hbelow, rfl⟩
        simpa using hbelow
      · rintro ⟨hne, hinitial⟩
        cases above with
        | nil => exact absurd rfl hne
        | cons first above =>
          obtain ⟨rfl, hinitial⟩ := List.cons_prefix_cons.mp hinitial
          exact ⟨above, by simpa using hinitial, rfl⟩
  simp [htail]

/-! ## Files -/

/-- The directories that a transaction plans, and where its files lie in them. -/
structure Layout (desired : Resources) (directories : ExtTreeSet Key compare) : Prop where
  nonempty : [] ∉ directories
  plain : ∀ key ∈ directories, key.IsPlain
  closed : ∀ key ∈ directories, ∀ above, above ≠ [] → above <+: key → above ∈ directories
  valid : ∀ key ∈ desired, ∀ part ∈ key, ValidName part
  parent : ∀ key ∈ desired, key.dropLast ∈ directories
  disjoint : ∀ key ∈ desired, key ∉ directories
  files_state : [STATE] ∉ desired
  directories_state : [STATE] ∉ directories

variable {desired original : Resources} {directories : ExtTreeSet Key compare}
  {destination : Area M}

/-- The planned directories are made. -/
theorem Layout.made (layout : Layout desired directories)
    (h : directories.toList.foldlM (createDirAll defaults message) ∅ = .ok area) (key : Key) :
    area[key]? = if key ∈ directories then some (.directory defaults.directory) else none := by
  have hmade := Made.foldlM (fun _ other hother _ hok => made_createDirAll
    (fun part hpart => (layout.plain other (ExtTreeSet.mem_toList.mp hother) part hpart).1) hok) h
  by_cases hkey : key ∈ directories
  · have hne : key ≠ [] := by
      rintro rfl
      exact layout.nonempty hkey
    rw [if_pos hkey, hmade.made key ⟨key, ExtTreeSet.mem_toList.mpr hkey, hne, List.prefix_refl _⟩]
    simp
  · rw [if_neg hkey, hmade.kept key]
    · simp
    · rintro ⟨other, hother, hne, hinitial⟩
      exact hkey (layout.closed other (ExtTreeSet.mem_toList.mp hother) key hne hinitial)

/-- A file is staged in a directory that is there. -/
theorem Layout.stageFile (layout : Layout desired directories)
    (harea : ∀ key ∈ directories, area[key]? = some (.directory defaults.directory)) {file : Key × Bytes}
    (hfile : file.1 ∈ desired)
    (h : stageFile defaults destination original area file = .ok area') (key : Key) :
    area'[key]? = if file.1 = key then
      some (.file file.2 (stagedMode defaults destination original file.1)) else area[key]? := by
  obtain ⟨made, hmade, h⟩ := bind_eq_ok.mp h
  have hparent := layout.parent _ hfile
  have hsame : ∀ key : Key, made[key]? = area[key]? := by
    have hcreated := made_createDirAll (fun part hpart => (layout.plain _ hparent part hpart).1) hmade
    intro key
    by_cases hkey : key ≠ [] ∧ key <+: file.1.dropLast
    · rw [hcreated.made key hkey, harea key (layout.closed _ hparent key hkey.1 hkey.2),
        Option.getD_some]
    · exact hcreated.kept key hkey
  split at h
  · cases h
  · obtain rfl := Except.ok.inj h
    rw [ExtTreeMap.getElem?_insert, hsame]
    simp only [compare_key_eq]

/-- The planned files are staged, and nothing else has changed. -/
theorem Layout.stageFiles (layout : Layout desired directories) {items : List (Key × Bytes)}
    (hitems : ∀ file ∈ items, file.1 ∈ desired) (hdistinct : (items.map (·.1)).Nodup)
    (harea : ∀ key ∈ directories, area[key]? = some (.directory defaults.directory))
    (h : items.foldlM (AgentTools.stageFile defaults destination original) area = .ok area') :
    (∀ file ∈ items, area'[file.1]? =
        some (.file file.2 (stagedMode defaults destination original file.1))) ∧
      ∀ key : Key, key ∉ items.map (·.1) → area'[key]? = area[key]? := by
  induction items generalizing area with
  | nil =>
    obtain rfl := Except.ok.inj h
    simp
  | cons file items ih =>
    rw [List.foldlM_cons] at h
    obtain ⟨next, hnext, h⟩ := bind_eq_ok.mp h
    have hfirst := layout.stageFile harea (hitems file List.mem_cons_self) hnext
    rw [List.map_cons, List.nodup_cons] at hdistinct
    have hdirectories : ∀ key ∈ directories, next[key]? = some (.directory defaults.directory) := by
      intro key hkey
      have hne : file.1 ≠ key := by
        rintro rfl
        exact layout.disjoint _ (hitems file List.mem_cons_self) hkey
      rw [hfirst key, if_neg hne, harea key hkey]
    obtain ⟨hfiles, hothers⟩ := ih (fun other hother => hitems other (List.mem_cons_of_mem _ hother))
      hdistinct.2 hdirectories h
    refine ⟨?_, ?_⟩
    · intro other hother
      rcases List.mem_cons.mp hother with rfl | hother
      · rw [hothers _ hdistinct.1, hfirst, if_pos rfl]
      · exact hfiles other hother
    · intro key hkey
      rw [List.map_cons, List.mem_cons, not_or] at hkey
      rw [hothers key hkey.2, hfirst key, if_neg (Ne.symm hkey.1)]

/-- An entry with its mode restored. -/
def Entry.restored (modes : Modes M) (key : Key) : Entry M → Entry M
  | .directory mode => .directory (modes[key]?.getD mode)
  | entry => entry

theorem Entry.restored_restored (modes : Modes M) (key : Key) (entry : Entry M) :
    (entry.restored modes key).restored modes key = entry.restored modes key := by
  cases entry with
  | directory mode => cases hmode : modes[key]? <;> simp [restored, hmode]
  | _ => rfl

theorem restoreMode_eq {modes : Modes M} {key : Key} (hvalid : ∀ part ∈ key, ValidName part)
    (other : Key) : (restoreMode modes area key)[other]? =
      if key = other then area[other]?.map (Entry.restored modes key) else area[other]? := by
  rw [restoreMode, resolve_eq hvalid]
  split
  · next mode previous hmode hentry =>
    rw [ExtTreeMap.getElem?_insert]
    simp only [compare_key_eq]
    split
    · next heq =>
      subst heq
      rw [hentry, Option.map_some, Entry.restored, hmode, Option.getD_some]
    · rfl
  · next hnone =>
    split
    · next heq =>
      subst heq
      cases hentry : area[key]? with
      | none => rfl
      | some entry =>
        cases entry with
        | directory previous =>
          cases hmode : modes[key]? with
          | none => simp [Entry.restored, hmode]
          | some mode => exact absurd hentry (hnone mode previous hmode)
        | _ => rfl
    · rfl

/-- The modes are restored at every path of a list. -/
theorem restoreModes_eq {modes : Modes M} {items : List Key}
    (hitems : ∀ key ∈ items, ∀ part ∈ key, ValidName part) (key : Key) :
    (items.foldl (restoreMode modes) area)[key]? =
      if key ∈ items then area[key]?.map (Entry.restored modes key) else area[key]? := by
  induction items generalizing area with
  | nil => simp
  | cons first items ih =>
    rw [List.foldl_cons, ih fun other hother => hitems other (List.mem_cons_of_mem _ hother),
      restoreMode_eq (hitems first List.mem_cons_self)]
    by_cases hfirst : first = key
    · subst hfirst
      by_cases hrest : first ∈ items
      · rw [if_pos hrest, if_pos rfl, if_pos List.mem_cons_self, Option.map_map]
        congr 1
        exact funext fun entry => Entry.restored_restored modes first entry
      · rw [if_neg hrest, if_pos rfl, if_pos List.mem_cons_self]
    · rw [if_neg hfirst]
      by_cases hrest : key ∈ items
      · rw [if_pos hrest, if_pos (List.mem_cons_of_mem _ hrest)]
      · rw [if_neg hrest, if_neg (by simpa using ⟨Ne.symm hfirst, hrest⟩)]

/-- The entry that a transaction plans at a path. -/
def planned (defaults : Defaults M) (destination : Area M) (original : Resources) (modes : Modes M)
    (desired : Resources) (directories : ExtTreeSet Key compare) (key : Key) : Option (Entry M) :=
  match desired[key]? with
  | some bytes => some (.file bytes (stagedMode defaults destination original key))
  | none =>
    if key ∈ directories then some (.directory (modes[key]?.getD defaults.directory)) else none

/-- The staged tree: the plan, and the baseline. -/
theorem stage_eq {modes : Modes M} {metadata : Bytes} (layout : Layout desired directories)
    (h : stage defaults destination original modes desired directories metadata = .ok area) (key : Key) :
    area[key]? = if key = [STATE] then some (.file metadata defaults.file)
      else planned defaults destination original modes desired directories key := by
  obtain ⟨made, hmade, h⟩ := bind_eq_ok.mp h
  obtain ⟨filled, hfilled, h⟩ := bind_eq_ok.mp h
  obtain rfl := Except.ok.inj h
  have hdirectories := layout.made hmade
  have hkeys : desired.toList.map (·.1) = desired.keys := ExtTreeMap.map_fst_toList_eq_keys
  have hdesired : ∀ file ∈ desired.toList, file.1 ∈ desired := by
    intro file hfile
    rw [← ExtTreeMap.mem_keys, ← hkeys]
    exact List.mem_map_of_mem hfile
  have hnodup : (desired.toList.map (·.1)).Nodup := by
    rw [hkeys]
    exact ExtTreeMap.distinct_keys.imp (by simp)
  obtain ⟨hfiles, hothers⟩ := layout.stageFiles hdesired hnodup
    (fun key hkey => by rw [hdirectories key, if_pos hkey]) hfilled
  rw [restoreModes_eq (by
    intro other hother part hpart
    rw [List.mem_reverse, ExtTreeSet.mem_toList] at hother
    exact (layout.plain other hother part hpart).1)]
  simp only [List.mem_reverse, ExtTreeSet.mem_toList, ExtTreeMap.getElem?_insert, compare_key_eq,
    eq_comm (a := [STATE])]
  by_cases hstate : key = [STATE]
  · subst hstate
    rw [if_neg layout.directories_state, if_pos rfl, if_pos rfl]
  · rw [if_neg hstate, if_neg hstate, planned]
    cases hbytes : desired[key]? with
    | some bytes =>
      have hmem := ExtTreeMap.mem_toList_iff_getElem?_eq_some.mpr hbytes
      have hnot := layout.disjoint key (hdesired _ hmem)
      rw [if_neg hnot, hfiles _ hmem]
    | none =>
      have hnot : key ∉ desired.toList.map (·.1) := by
        rw [hkeys, ExtTreeMap.mem_keys, ExtTreeMap.mem_iff_isSome_getElem?, hbytes]
        simp
      rw [hothers key hnot, hdirectories key]
      by_cases hkey : key ∈ directories
      · simp [hkey, Entry.restored]
      · simp [hkey]

end Staging

namespace Sample

/-- A skill of one file. -/
def skillFile : Key := ["rostfrei-tracer", "SKILL.md"]

def skillDirectory : Key := ["rostfrei-tracer"]

def desired : Resources := ExtTreeMap.ofList [(skillFile, ([35] : Bytes))]

def directories : ExtTreeSet Key compare := ExtTreeSet.ofList [skillDirectory]

theorem mem_desired {key : Key} : key ∈ desired ↔ key = skillFile := by
  simpa [desired] using eq_comm

theorem mem_directories {key : Key} : key ∈ directories ↔ key = skillDirectory := by
  simpa [directories] using eq_comm

theorem plainName_tracer : PlainName "rostfrei-tracer" :=
  ⟨⟨by decide, by decide, by decide, by decide⟩, by decide⟩

theorem validName_skill : ValidName "SKILL.md" := ⟨by decide, by decide, by decide, by decide⟩

theorem layout_skill : Layout desired directories where
  nonempty := by simp [mem_directories, skillDirectory]
  plain := by
    intro key hkey part hpart
    rw [mem_directories.mp hkey, skillDirectory, List.mem_singleton] at hpart
    exact hpart ▸ plainName_tracer
  closed := by
    intro key hkey above hne habove
    rw [mem_directories.mp hkey, skillDirectory] at habove
    rw [mem_directories, skillDirectory]
    cases above with
    | nil => exact absurd rfl hne
    | cons part above =>
      obtain ⟨rfl, hrest⟩ := List.cons_prefix_cons.mp habove
      rw [List.prefix_nil.mp hrest]
  valid := by
    intro key hkey part hpart
    rw [mem_desired.mp hkey, skillFile] at hpart
    rcases List.mem_cons.mp hpart with rfl | hpart
    · exact plainName_tracer.1
    · exact List.mem_singleton.mp hpart ▸ validName_skill
  parent := by
    intro key hkey
    rw [mem_desired.mp hkey, mem_directories]
    rfl
  disjoint := by
    intro key hkey
    rw [mem_desired.mp hkey, mem_directories]
    decide
  files_state := by
    rw [mem_desired]
    decide
  directories_state := by
    rw [mem_directories]
    decide

/-- The skill is staged for a consumer that has none. -/
theorem stage_eq_skill : ∃ area : Tree Nat,
    stage ⟨420, 493⟩ (fun _ => none) ∅ ∅ desired directories [123, 125] = .ok area ∧
      ∀ key, area[key]? = if key = [STATE] then some (.file [123, 125] 420)
        else planned ⟨420, 493⟩ (fun _ => none) ∅ ∅ desired directories key := by
  have hstaged : (stage (⟨420, 493⟩ : Defaults Nat) (fun _ => none) ∅ ∅ desired directories
      [123, 125]).isOk = true := by decide +kernel
  obtain ⟨area, harea⟩ := exists_of_isOk hstaged
  exact ⟨area, harea, stage_eq layout_skill harea⟩

end Sample

end Rostfrei.AgentTools
