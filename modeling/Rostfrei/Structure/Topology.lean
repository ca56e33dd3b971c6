import Mathlib.Data.List.Induction
import Rostfrei.Structure.Rules

/-!
# What an accepted tree compiles

The module topology is checked one directory at a time, and only in the directories that hold a Rust
file themselves. `Reached` is the compiler's reading of the same declarations, over whole paths. In
production the rule on roles puts a file into every directory. Below `tests` nothing does, so a
directory without a Rust file of its own hides what is below it (`checkDomainRoot_exact`).
-/

namespace Rostfrei.Structure

variable {R : Type}

/-! ## Modules -/

/-- The files that the compiler looks for. The `r#` of a raw identifier is not part of their names. -/
def ModuleDeclaration.targets (module : ModuleDeclaration) (directory : Path) : List Path :=
  [directory.join (module.ident.word ++ ".rs"), (directory.join module.ident.word).join "mod.rs"]

/-- A declaration of a `mod.rs` resolves to a file. -/
structure ResolvesTo (tree : DomainTree R) (directory : Path) (module : ModuleDeclaration)
    (path : Path) : Prop where
  outOfLine : module.isInline = false
  unnamed : module.hasPathOverride = false
  target : path ∈ module.targets directory
  file : tree.isFile path = true

/-- The files that are compiled: the root's `mod.rs`, and what the `mod.rs` of a compiled directory
declares. -/
inductive Reached (tree : DomainTree R) : Path → Prop
  | root : tree.isFile (tree.root.join "mod.rs") = true → Reached tree (tree.root.join "mod.rs")
  | declared {directory path : Path} {facts : SourceFileFacts R} {module : ModuleDeclaration} :
    Reached tree (directory.join "mod.rs") → tree.parse (directory.join "mod.rs") = .ok facts →
    module ∈ facts.modules → ResolvesTo tree directory module path → Reached tree path

/-- No source is left out. -/
structure Compiled (tree : DomainTree R) : Prop where
  reached : ∀ path, tree.RustFile path → Reached tree path
  resolved : ∀ (directory : Path) facts, tree.parse (directory.join "mod.rs") = .ok facts →
    ∀ module ∈ facts.modules, ∃! path, ResolvesTo tree directory module path

/-- A test directory above a Rust file has a `mod.rs`, and no module has a raw name. -/
structure Closed (tree : DomainTree R) : Prop where
  bridged : ∀ (directory : Path) (name : String) (rest : Path),
    directory.startsWith (tree.root.join "tests") = true →
    tree.RustFile (directory ++ name :: rest) → tree.isFile (directory.join "mod.rs") = true
  plain : ∀ (directory : Path) facts, tree.parse (directory.join "mod.rs") = .ok facts →
    ∀ module ∈ facts.modules, module.ident.raw = false

/-! ## What the rules check -/

theorem modRs_extension (directory : Path) : (directory.join "mod.rs").extension = some "rs" := by
  rw [Path.extension_join]
  decide +kernel

theorem anchor_extension (directory : Path) (role : Hierarchy.DirectoryRole) :
    (directory.join role.anchor).extension = some "rs" := by
  rw [Path.extension_join]
  cases role <;> decide +kernel

/-- The facts of the parsed files. -/
theorem parseSources_eq {tree : DomainTree R} {paths : List Path}
    (h : (parseSources tree paths).2 = []) :
    (∀ path ∈ paths, ∃ facts, tree.parse path = .ok facts) ∧
      ((parseSources tree paths).1.map (·.1) = paths) ∧
      ∀ path facts, (parseSources tree paths).1.lookup path = some facts ↔
        path ∈ paths ∧ tree.parse path = .ok facts := by
  induction paths with
  | nil => simp [parseSources]
  | cons path paths ih =>
    rw [parseSources] at h ⊢
    cases hparse : tree.parse path with
    | error error =>
      rw [hparse] at h
      cases h
    | ok fileFacts =>
      rw [hparse] at h
      obtain ⟨hall, hkeys, hlookup⟩ := ih h
      refine ⟨?_, by simpa using hkeys, ?_⟩
      · intro other hother
        rcases List.mem_cons.mp hother with rfl | hother
        · exact ⟨fileFacts, hparse⟩
        · exact hall other hother
      · intro other facts
        simp only [List.lookup_cons, List.mem_cons]
        by_cases heq : other = path
        · subst heq
          simp [hparse]
        · have hne : (other == path) = false := by simpa using heq
          simp [hne, heq, hlookup]

/-- A role is given where there is exactly one anchor. -/
theorem Hierarchy.exists_anchor {tree : DomainTree R} {directories : List Path} {roles : Roles}
    (h : (assignRoles tree directories roles).2 = []) :
    ∀ directory ∈ directories, ∃ role : DirectoryRole,
      tree.isFile (directory.join role.anchor) = true := by
  induction directories generalizing roles with
  | nil => simp
  | cons directory directories ih =>
    rw [assignRoles] at h
    split at h
    · next role hrole =>
      intro other hother
      rcases List.mem_cons.mp hother with rfl | hother
      · have hmem : role ∈ anchorsIn tree other := by simp [hrole]
        exact ⟨role, (List.mem_filter.mp hmem).2⟩
      · exact ih h other hother
    · cases h
    · cases h

namespace Modules

/-- A declaration without a diagnostic is not skipped, and is neither inline nor has it a path. -/
theorem rejectUnsupportedModule_eq {root directory modPath : Path} {module : ModuleDeclaration}
    (h : (rejectUnsupportedModule root directory modPath module).2 = []) :
    rejectUnsupportedModule root directory modPath module = (false, []) ∧
      module.isInline = false ∧ module.hasPathOverride = false := by
  rw [rejectUnsupportedModule] at h ⊢
  by_cases hinline : module.isInline = true
  · simp [hinline] at h
  · by_cases hoverride : module.hasPathOverride = true
    · simp [hinline, hoverride] at h
    · rw [if_neg hinline, if_neg hoverride] at h ⊢
      split at h
      · cases h
      · next hgate =>
        rw [if_neg hgate]
        exact ⟨rfl, by simpa using hinline, by simpa using hoverride⟩

/-- A target without a diagnostic is the only one of the two. -/
theorem registerModuleTarget_eq {directory modPath : Path} {facts : Facts R}
    {module : ModuleDeclaration}
    (h : (registerModuleTarget directory modPath module facts).2 = []) :
    ((registerModuleTarget directory modPath module facts).1 =
          some (directory.join (module.name ++ ".rs")) ∧
        facts.containsKey (directory.join (module.name ++ ".rs")) = true ∧
        facts.containsKey ((directory.join module.name).join "mod.rs") = false) ∨
      ((registerModuleTarget directory modPath module facts).1 =
          some ((directory.join module.name).join "mod.rs") ∧
        facts.containsKey (directory.join (module.name ++ ".rs")) = false ∧
        facts.containsKey ((directory.join module.name).join "mod.rs") = true) := by
  simp only [registerModuleTarget] at h ⊢
  cases hfile : facts.containsKey (directory.join (module.name ++ ".rs")) <;>
    cases hdirectory : facts.containsKey ((directory.join module.name).join "mod.rs") <;>
      simp_all

/-- A declaration without a diagnostic is registered for the only one of its two targets. -/
theorem registerModule_eq {root directory : Path} {facts : Facts R} {module : ModuleDeclaration}
    (h : (registerModule root directory facts module).2 = []) :
    module.isInline = false ∧ module.hasPathOverride = false ∧
      (((registerModule root directory facts module).1 =
            some (directory.join (module.name ++ ".rs")) ∧
          facts.containsKey (directory.join (module.name ++ ".rs")) = true ∧
          facts.containsKey ((directory.join module.name).join "mod.rs") = false) ∨
        ((registerModule root directory facts module).1 =
            some ((directory.join module.name).join "mod.rs") ∧
          facts.containsKey (directory.join (module.name ++ ".rs")) = false ∧
          facts.containsKey ((directory.join module.name).join "mod.rs") = true)) := by
  have hreject : (rejectUnsupportedModule root directory (directory.join "mod.rs") module).2 = [] := by
    rw [registerModule] at h
    split at h
    · next heq => rw [heq]; exact h
    · next heq => rw [heq]; exact (List.append_eq_nil_iff.mp h).1
  obtain ⟨heq, hinline, hoverride⟩ := rejectUnsupportedModule_eq hreject
  simp only [registerModule, heq, List.nil_append] at h ⊢
  exact ⟨hinline, hoverride, registerModuleTarget_eq h⟩

theorem mem_immediateModuleTargets {directory path : Path} {facts : Facts R} :
    path ∈ immediateModuleTargets directory facts ↔ path ∈ facts.map (·.1) ∧
      ((∃ name, name ≠ "mod.rs" ∧ path = directory.join name) ∨
        ∃ name, path = (directory.join name).join "mod.rs") := by
  rw [immediateModuleTargets, List.mem_filter]
  refine and_congr_right fun _ => ?_
  rcases List.eq_nil_or_concat path with rfl | ⟨parent, name, rfl⟩
  · simp [Path.parent, Path.join]
  · rw [List.concat_eq_append, ← Path.join]
    simp only [Path.parent_join, Path.fileName_join, Path.join_inj, Option.any_some,
      decide_eq_true_eq, Bool.or_eq_true, Bool.and_eq_true, Bool.decide_or, Bool.decide_and]
    constructor
    · rintro (⟨rfl, hname⟩ | ⟨rfl, hparent⟩)
      · exact .inl ⟨name, by simpa using hname, rfl, rfl⟩
      · obtain ⟨other, rfl⟩ := Path.parent_eq_some hparent
        exact .inr ⟨other, rfl, rfl⟩
    · rintro (⟨other, hother, rfl, rfl⟩ | ⟨other, rfl, rfl⟩)
      · exact .inl ⟨rfl, by simpa using hother⟩
      · exact .inr ⟨rfl, Path.parent_join _ _⟩

/-- A directory without a diagnostic: its `mod.rs` declares what lies directly in it or is the
`mod.rs` of a directory in it. -/
theorem checkDirectory_eq {root directory : Path} {facts : Facts R}
    (h : checkDirectory root directory facts = []) :
    ∃ modFacts, facts.lookup (directory.join "mod.rs") = some modFacts ∧
      (∀ module ∈ modFacts.modules, (registerModule root directory facts module).2 = []) ∧
      ∀ path ∈ immediateModuleTargets directory facts, ∃ module ∈ modFacts.modules,
        (registerModule root directory facts module).1 = some path := by
  rw [checkDirectory] at h
  cases hlookup : facts.lookup (directory.join "mod.rs") with
  | none =>
    rw [hlookup] at h
    cases h
  | some modFacts =>
    rw [hlookup] at h
    obtain ⟨hregistered, hundeclared⟩ := List.append_eq_nil_iff.mp h
    refine ⟨modFacts, rfl, ?_, ?_⟩
    · intro module hmodule
      exact List.flatMap_eq_nil_iff.mp hregistered _ (List.mem_map_of_mem hmodule)
    · intro path hpath
      have hdeclared := List.filter_eq_nil_iff.mp (List.map_eq_nil_iff.mp hundeclared) path hpath
      simpa using hdeclared

/-- The directories that hold a Rust file are checked. -/
theorem checkDirectory_of_check {root : Path} {facts : Facts R} (h : check root facts = [])
    {directory : Path} {name : String} (hfile : directory.join name ∈ facts.map (·.1)) :
    checkDirectory root directory facts = [] := by
  refine List.flatMap_eq_nil_iff.mp h directory (List.mem_dedup.mpr ?_)
  obtain ⟨entry, hentry, heq⟩ := List.mem_map.mp hfile
  exact List.mem_filterMap.mpr ⟨entry, hentry, by rw [heq, Path.parent_join]⟩

end Modules

/-- What a tree without a diagnostic has passed, with the facts of its files. -/
structure Accepted (tree : DomainTree R) (facts : Facts R) : Prop where
  dir : tree.isDir tree.root = true
  root : tree.isFile (tree.root.join "mod.rs") = true
  tests : tree.isFile ((tree.root.join "tests").join "mod.rs") = true
  parsed : ∀ path, tree.RustFile path → ∃ fileFacts, tree.parse path = .ok fileFacts
  lookup : ∀ path fileFacts, facts.lookup path = some fileFacts ↔
    tree.RustFile path ∧ tree.parse path = .ok fileFacts
  keys : ∀ path, path ∈ facts.map (·.1) ↔ tree.RustFile path
  modules : Modules.check tree.root facts = []
  anchored : ∀ directory : Path, tree.isDir directory = true → directory ≠ tree.root →
    directory.startsWith (tree.root.join "tests") = false →
    ∃ role : Hierarchy.DirectoryRole, tree.isFile (directory.join role.anchor) = true

theorem checkRequired_eq {tree : DomainTree R} {diagnostics : List Diagnostic}
    (h : checkRequired tree = (true, diagnostics)) (hnone : diagnostics = []) :
    tree.isDir tree.root = true ∧ tree.isFile (tree.root.join "mod.rs") = true ∧
      tree.isFile ((tree.root.join "tests").join "mod.rs") = true := by
  subst hnone
  rw [checkRequired] at h
  cases hdir : tree.isDir tree.root with
  | false => simp [hdir] at h
  | true =>
    cases hmod : tree.isFile (tree.root.join "mod.rs") <;>
      cases htests : tree.isFile ((tree.root.join "tests").join "mod.rs") <;>
        simp_all

theorem exists_accepted {contentRules : ContentRules R} {tree : DomainTree R}
    (h : checkDomainRoot contentRules tree = []) : ∃ facts, Accepted tree facts := by
  rw [checkDomainRoot] at h
  split at h
  · next diagnostics hrequired =>
    subst h
    rw [checkRequired] at hrequired
    split at hrequired <;> simp at hrequired
  · next diagnostics hrequired =>
    have hnone := Lib.sortBy_eq_nil.mp h
    simp only [List.append_eq_nil_iff] at hnone
    obtain ⟨⟨⟨⟨⟨hdiagnostics, hunparsed⟩, -⟩, hmodules⟩, hhierarchy⟩, -⟩ := hnone
    obtain ⟨hdir, hroot, htests⟩ := checkRequired_eq hrequired hdiagnostics
    obtain ⟨hall, hkeys, hlookup⟩ := parseSources_eq hunparsed
    refine ⟨(parseSources tree tree.collect.rustFiles).1, hdir, hroot, htests, ?_, ?_, ?_, hmodules, ?_⟩
    · exact fun path hpath => hall path (tree.mem_rustFiles.mpr hpath)
    · intro path fileFacts
      rw [hlookup, tree.mem_rustFiles]
    · intro path
      rw [hkeys, tree.mem_rustFiles]
    · intro directory hisDir hne hproduction
      simp only [Hierarchy.check, List.append_eq_nil_iff] at hhierarchy
      refine Hierarchy.exists_anchor hhierarchy.1.1.1 directory ?_
      rw [List.mem_filter, tree.mem_directories]
      exact ⟨hisDir, by simp [hne, hproduction]⟩

namespace Accepted

variable {tree : DomainTree R} {facts : Facts R}

theorem containsKey_iff (accepted : Accepted tree facts) (path : Path) :
    facts.containsKey path = true ↔ tree.RustFile path := by
  rw [Facts.containsKey, Option.isSome_iff_exists]
  constructor
  · rintro ⟨fileFacts, hlookup⟩
    exact ((accepted.lookup path fileFacts).mp hlookup).1
  · intro hfile
    obtain ⟨fileFacts, hparse⟩ := accepted.parsed path hfile
    exact ⟨fileFacts, (accepted.lookup path fileFacts).mpr ⟨hfile, hparse⟩⟩

/-- A directory that holds a Rust file has a `mod.rs` that passed. -/
theorem directory (accepted : Accepted tree facts) {directory : Path} {name : String}
    (hfile : tree.RustFile (directory.join name)) :
    ∃ modFacts, tree.parse (directory.join "mod.rs") = .ok modFacts ∧
      (∀ module ∈ modFacts.modules,
        (Modules.registerModule tree.root directory facts module).2 = []) ∧
      ∀ path ∈ Modules.immediateModuleTargets directory facts, ∃ module ∈ modFacts.modules,
        (Modules.registerModule tree.root directory facts module).1 = some path := by
  have hcheck := Modules.checkDirectory_of_check accepted.modules
    ((accepted.keys (directory.join name)).mpr hfile)
  obtain ⟨modFacts, hlookup, hregistered, hdeclared⟩ := Modules.checkDirectory_eq hcheck
  exact ⟨modFacts, ((accepted.lookup _ modFacts).mp hlookup).2, hregistered, hdeclared⟩

/-- What is checked is below the root. -/
theorem below (accepted : Accepted tree facts) {directory : Path} {name : String}
    (hfile : tree.isFile (directory.join name) = true) :
    ∃ below, directory = tree.root ++ below := by
  obtain ⟨parsed, hget⟩ := tree.isFile_iff.mp hfile
  obtain ⟨rest, hpath, hnode⟩ := tree.get_eq_some hget
  rcases List.eq_nil_or_concat rest with rfl | ⟨below, last, rfl⟩
  · -- the root is a directory
    obtain ⟨entries, hdir⟩ := tree.isDir_iff.mp accepted.dir
    rw [List.append_nil] at hpath
    rw [← hpath, hget] at hdir
    cases hdir
  · rw [List.concat_eq_append, ← List.append_assoc] at hpath
    exact ⟨below, (Path.join_inj.mp hpath).1⟩

end Accepted

/-! ## What the compiler reaches -/

namespace Reached

variable {tree : DomainTree R} {path : Path}

/-- Every directory above a compiled file has a `mod.rs`. -/
theorem above (h : Reached tree path) {directory : Path} (hroot : tree.root <+: directory)
    (hdirectory : directory <+: path) (hne : directory ≠ path) :
    tree.isFile (directory.join "mod.rs") = true := by
  have hlonger : ∀ {parent : Path} (name : String), directory <+: parent →
      directory ≠ parent.join name := by
    intro parent name hinitial heq
    have hlength := hinitial.length_le
    simp [heq, Path.join] at hlength
  induction h with
  | root hfile =>
    obtain rfl | hinitial := List.prefix_concat_iff.mp hdirectory
    · exact absurd rfl hne
    · have heq : tree.root = directory := hroot.eq_of_length_le hinitial.length_le
      exact heq ▸ hfile
  | @declared parent path facts module _ _ _ hresolves ih =>
    -- above the declaring `mod.rs`, or the directory of the target
    have hparent : directory <+: parent → tree.isFile (directory.join "mod.rs") = true :=
      fun hinitial => ih (hinitial.trans (List.prefix_append _ _)) (hlonger _ hinitial)
    have htarget := hresolves.target
    simp only [ModuleDeclaration.targets, List.mem_cons, List.not_mem_nil, or_false] at htarget
    rcases htarget with rfl | rfl
    · obtain rfl | hinitial := List.prefix_concat_iff.mp hdirectory
      · exact absurd rfl hne
      · exact hparent hinitial
    · obtain rfl | hinitial := List.prefix_concat_iff.mp hdirectory
      · exact absurd rfl hne
      · obtain rfl | hinitial := List.prefix_concat_iff.mp hinitial
        · exact hresolves.file
        · exact hparent hinitial

/-- Below the root, the path of a compiled file has no `#`. -/
theorem plain (h : Reached tree path) : ∃ (below : Path) (name : String),
    path = Path.join (tree.root ++ below) name ∧ '#' ∉ name.toList ∧ ∀ c ∈ below, '#' ∉ c.toList := by
  have hmod : '#' ∉ "mod.rs".toList := by decide +kernel
  induction h with
  | root _ => exact ⟨[], "mod.rs", by rw [List.append_nil], hmod, by simp⟩
  | @declared parent path facts module _ _ _ hresolves ih =>
    obtain ⟨below, name, hpath, -, hbelow⟩ := ih
    obtain ⟨rfl, -⟩ := Path.join_inj.mp hpath
    have hword := module.ident.plain
    have htarget := hresolves.target
    simp only [ModuleDeclaration.targets, List.mem_cons, List.not_mem_nil, or_false] at htarget
    rcases htarget with rfl | rfl
    · refine ⟨below, _, rfl, ?_, hbelow⟩
      simp [String.toList_append, hword]
    · refine ⟨below ++ [module.ident.word], _, by simp [Path.join], hmod, ?_⟩
      intro c hc
      rcases List.mem_append.mp hc with hc | hc
      · exact hbelow c hc
      · rw [List.mem_singleton.mp hc]
        exact hword

end Reached

namespace Accepted

variable {tree : DomainTree R} {facts : Facts R}

/-- A compiled tree is closed. -/
theorem closed (accepted : Accepted tree facts) (compiled : Compiled tree) : Closed tree where
  bridged := by
    intro directory name rest htests hfile
    obtain ⟨below, rfl⟩ := Path.startsWith_iff.mp htests
    refine (compiled.reached _ hfile).above ?_ (List.prefix_append _ _) ?_
    · rw [Path.join, List.append_assoc]
      exact List.prefix_append _ _
    · intro heq
      simpa using congrArg List.length heq
  plain := by
    intro directory fileFacts hparse module hmodule
    by_contra hraw
    rw [Bool.not_eq_false] at hraw
    have hmod := tree.isFile_of_parse hparse
    obtain ⟨modFacts, hparse', hregistered, -⟩ :=
      accepted.directory ⟨hmod, modRs_extension directory⟩
    rw [hparse] at hparse'
    obtain rfl := Except.ok.inj hparse'
    have hname : '#' ∈ module.name.toList := by
      simp [ModuleDeclaration.name, Ident.toString, hraw, String.toList_append]
    obtain ⟨-, -, ⟨-, hfile, -⟩ | ⟨-, -, hfile⟩⟩ :=
      Modules.registerModule_eq (hregistered module hmodule)
    all_goals
      have hreached := compiled.reached _ ((accepted.containsKey_iff _).mp hfile)
      obtain ⟨below, name, hpath, hplain, hbelow⟩ := hreached.plain
      obtain ⟨hdirectory, hlast⟩ := Path.join_inj.mp hpath
    · -- the registered file has the `#` in its name
      rw [← hlast] at hplain
      simp [String.toList_append, hname] at hplain
    · -- the registered directory has it
      obtain ⟨prior, rfl⟩ := accepted.below hmod
      rw [Path.join, List.append_assoc] at hdirectory
      obtain rfl := List.append_cancel_left hdirectory
      exact hbelow module.name (by simp) hname

/-- A closed tree has a `mod.rs` above every `mod.rs`. -/
theorem parent_modRs (accepted : Accepted tree facts) (closed : Closed tree) {below : Path}
    {name : String}
    (hfile : tree.isFile ((Path.join (tree.root ++ below) name).join "mod.rs") = true) :
    tree.isFile (Path.join (tree.root ++ below) "mod.rs") = true := by
  by_cases hroot : tree.root ++ below = tree.root
  · rw [hroot]
    exact accepted.root
  have hrest : (Path.join (tree.root ++ below) name).join "mod.rs" =
      (tree.root ++ below) ++ name :: ["mod.rs"] := by simp [Path.join]
  cases htests : Path.startsWith (tree.root ++ below) (tree.root.join "tests") with
  | true =>
    refine closed.bridged _ name ["mod.rs"] htests ?_
    rw [← hrest]
    exact ⟨hfile, modRs_extension _⟩
  | false =>
    -- a production directory holds the anchor of its role
    obtain ⟨parsed, hget⟩ := tree.isFile_iff.mp hfile
    have hdir := DomainTree.isDir_of_get rfl (hrest ▸ hget)
    obtain ⟨role, hanchor⟩ := accepted.anchored _ hdir hroot htests
    obtain ⟨modFacts, hparse, -, -⟩ := accepted.directory ⟨hanchor, anchor_extension _ role⟩
    exact tree.isFile_of_parse hparse

/-- A registered declaration resolves to its target. -/
theorem resolvesTo (accepted : Accepted tree facts) {directory target : Path}
    {module : ModuleDeclaration} (hplain : module.ident.raw = false)
    (hregistered : (Modules.registerModule tree.root directory facts module).2 = [])
    (htarget : (Modules.registerModule tree.root directory facts module).1 = some target) :
    ResolvesTo tree directory module target := by
  have hname : module.name = module.ident.word := by
    simp [ModuleDeclaration.name, Ident.toString, hplain]
  obtain ⟨hinline, hoverride, hkind⟩ := Modules.registerModule_eq hregistered
  rw [htarget, hname] at hkind
  rcases hkind with ⟨heq, hfile, -⟩ | ⟨heq, -, hfile⟩
  all_goals
    obtain rfl := Option.some.inj heq
    exact ⟨hinline, hoverride, by simp [ModuleDeclaration.targets],
      ((accepted.containsKey_iff _).mp hfile).1⟩

/-- What a compiled directory holds is compiled. -/
theorem reached_of_target (accepted : Accepted tree facts) (closed : Closed tree)
    {directory path : Path} (hreached : Reached tree (directory.join "mod.rs"))
    (hmod : tree.isFile (directory.join "mod.rs") = true) (hfile : tree.RustFile path)
    (hpath : (∃ name, name ≠ "mod.rs" ∧ path = directory.join name) ∨
      ∃ name, path = (directory.join name).join "mod.rs") : Reached tree path := by
  obtain ⟨modFacts, hparse, hregistered, hdeclared⟩ :=
    accepted.directory ⟨hmod, modRs_extension directory⟩
  have himmediate := Modules.mem_immediateModuleTargets.mpr
    ⟨(accepted.keys path).mpr hfile, hpath⟩
  obtain ⟨module, hmodule, htarget⟩ := hdeclared path himmediate
  exact hreached.declared hparse hmodule (accepted.resolvesTo
    (closed.plain directory modFacts hparse module hmodule) (hregistered module hmodule) htarget)

theorem reached_modRs (accepted : Accepted tree facts) (closed : Closed tree) (below : Path)
    (hfile : tree.isFile (Path.join (tree.root ++ below) "mod.rs") = true) :
    Reached tree (Path.join (tree.root ++ below) "mod.rs") := by
  induction below using List.reverseRecOn with
  | nil =>
    rw [List.append_nil] at hfile ⊢
    exact .root hfile
  | append_singleton below name ih =>
    rw [← List.append_assoc, ← Path.join] at hfile ⊢
    have hparent := accepted.parent_modRs closed hfile
    exact accepted.reached_of_target closed (ih hparent) hparent ⟨hfile, modRs_extension _⟩
      (.inr ⟨name, rfl⟩)

/-- A closed tree is compiled. -/
theorem compiled (accepted : Accepted tree facts) (closed : Closed tree) : Compiled tree where
  reached := by
    intro path hfile
    obtain ⟨name, hname, -⟩ := Option.bind_eq_some_iff.mp hfile.2
    obtain ⟨directory, rfl⟩ := Path.exists_join_of_fileName hname
    obtain ⟨below, rfl⟩ := accepted.below hfile.1
    obtain ⟨modFacts, hparse, -, -⟩ := accepted.directory hfile
    have hmod := tree.isFile_of_parse hparse
    have hreached := accepted.reached_modRs closed below hmod
    by_cases heq : name = "mod.rs"
    · exact heq ▸ hreached
    · exact accepted.reached_of_target closed hreached hmod hfile (.inl ⟨name, heq, rfl⟩)
  resolved := by
    intro directory fileFacts hparse module hmodule
    have hmod := tree.isFile_of_parse hparse
    obtain ⟨modFacts, hparse', hregistered, -⟩ :=
      accepted.directory ⟨hmod, modRs_extension directory⟩
    rw [hparse] at hparse'
    obtain rfl := Except.ok.inj hparse'
    have hplain := closed.plain directory fileFacts hparse module hmodule
    have hname : module.name = module.ident.word := by
      simp [ModuleDeclaration.name, Ident.toString, hplain]
    -- a file at a target is Rust source, so it is among the facts
    have hsource : ∀ path ∈ module.targets directory, tree.isFile path = true →
        facts.containsKey path = true := by
      intro path htarget hfile
      refine (accepted.containsKey_iff path).mpr ⟨hfile, ?_⟩
      simp only [ModuleDeclaration.targets, List.mem_cons, List.not_mem_nil, or_false] at htarget
      rcases htarget with rfl | rfl
      · rw [Path.extension_join, Path.splitAtDot_rs module.ident.nonempty]
      · exact modRs_extension _
    have hkind := (Modules.registerModule_eq (hregistered module hmodule)).2.2
    rw [hname] at hkind
    rcases hkind with ⟨htarget, -, hother⟩ | ⟨htarget, hother, -⟩
    all_goals
      refine ⟨_, accepted.resolvesTo hplain (hregistered module hmodule) htarget, ?_⟩
      intro path hresolves
      have hkey := hsource path hresolves.target hresolves.file
      have hpath := hresolves.target
      simp only [ModuleDeclaration.targets, List.mem_cons, List.not_mem_nil, or_false] at hpath
      rcases hpath with rfl | rfl
      all_goals
        first
        | rfl
        | rw [hother] at hkey; cases hkey

end Accepted

namespace Sample

/-- `mod word;`. -/
def declares (word : String) (hnonempty : word ≠ "" := by decide)
    (hplain : '#' ∉ word.toList := by decide +kernel) : ModuleDeclaration :=
  ⟨⟨false, word, hnonempty, hplain⟩, 1, false, false, false⟩

/-- A file of which the rules here read nothing but its modules. -/
def file (modules : List ModuleDeclaration) : Node Unit := .file (.ok ⟨modules, [], [], ()⟩)

def directory (entries : List (String × Node Unit)) : Node Unit :=
  .directory (entries.foldr (fun entry rest => .cons entry.1 entry.2 rest) .nil)

def aggregate : Node Unit :=
  .file (.ok ⟨[], [⟨some "AggregateDefinition", [⟨some "RentalFleetEvents", 11⟩], 8⟩], [], ()⟩)

def eventSet : Node Unit :=
  .file (.ok ⟨[], [], [⟨some "RentalFleetEvents", [.aggregateEvents], .enum⟩], ()⟩)

/-- A bounded context with one aggregate. -/
def bikeRental : Node Unit := directory
  [("mod.rs", file [declares "context", declares "rental_fleet"]), ("context.rs", file []),
    ("rental_fleet", directory
      [("mod.rs", file [declares "aggregate", declares "event_set", declares "identity"]),
        ("aggregate.rs", aggregate), ("event_set.rs", eventSet), ("identity.rs", file [])])]

/-- The tests of the aggregate's identity. -/
def fleetTests : Node Unit := directory
  [("mod.rs", file [declares "identity"]), ("identity.rs", file [])]

def domain (tests : Node Unit) : Node Unit := directory
  [("mod.rs", file [declares "bike_rental", declares "model",
      { declares "tests" with isTestGate := true }]),
    ("model.rs", file []), ("bike_rental", bikeRental), ("tests", tests)]

/-- Every test directory has a `mod.rs`. -/
def mirrored : DomainTree Unit where
  root := ["domain"]
  node := domain (directory [("mod.rs", file [declares "bike_rental"]),
    ("bike_rental", directory [("mod.rs", file [declares "rental_fleet"]),
      ("rental_fleet", fleetTests)])])
  distinct := by
    simp [domain, directory, bikeRental, fleetTests, file, aggregate, eventSet, Node.Distinct,
      Entries.Distinct, Entries.find]

/-- The test directory of the bounded context holds a directory and nothing else. -/
def gap : DomainTree Unit where
  root := ["domain"]
  node := domain (directory [("mod.rs", file []),
    ("bike_rental", directory [("rental_fleet", fleetTests)])])
  distinct := by
    simp [domain, directory, bikeRental, fleetTests, file, aggregate, eventSet, Node.Distinct,
      Entries.Distinct, Entries.find]

/-- Rules on contents that find nothing. -/
def silent : ContentRules Unit := fun _ _ _ => []

end Sample

end Rostfrei.Structure
