import Mathlib.Data.List.Dedup
import Rostfrei.Structure.Tree

/-!
# The rules on a domain tree

`check_domain_root` of `rules/mod.rs`, with the rules on the layout of the tree: the module topology
(`modules.rs`), the roles of the directories (`hierarchy.rs`) and the mirror of the tests
(`test_mirror.rs`). The rules on the contents of the files are a parameter.
-/

namespace Rostfrei.Structure

variable {R : Type}

/-! ## Required files -/

/-- `check_required`. The flag is whether the check goes on. -/
def checkRequired (tree : DomainTree R) : Bool × List Diagnostic :=
  if !tree.isDir tree.root then
    (false, [.new .invalidStructure tree.root 1 "configured domain root is not a directory"])
  else
    let missing := [tree.root.join "mod.rs", tree.root.join "model.rs"].filter (!tree.isFile ·)
    let testsModule := (tree.root.join "tests").join "mod.rs"
    (true, missing.map (.new .invalidStructure · 1 "typed domain root requires this source file") ++
      if tree.isFile testsModule then []
      else [.new .invalidStructure testsModule 1
        "typed domain root requires a sibling `tests/` module tree"])

/-- `parse_sources`. -/
def parseSources (tree : DomainTree R) : List Path → Facts R × List Diagnostic
  | [] => ([], [])
  | path :: paths =>
    let (facts, diagnostics) := parseSources tree paths
    match tree.parse path with
    | .ok fileFacts => ((path, fileFacts) :: facts, diagnostics)
    | .error error =>
      (facts, .new .sourceParse path error.line
        ("unable to parse Rust source: " ++ error.message) :: diagnostics)

/-! ## Module topology -/

namespace Modules

/-- `reject_unsupported_module`. The flag is whether the declaration is skipped. -/
def rejectUnsupportedModule (root directory modPath : Path) (module : ModuleDeclaration) :
    Bool × List Diagnostic :=
  if module.isInline then
    (true, [.new .moduleTopology modPath module.line
      ("inline module `" ++ module.name ++ "` is not supported")])
  else if module.hasPathOverride then
    (true, [.new .moduleTopology modPath module.line
      ("#[path] is not supported for module `" ++ module.name ++ "`")])
  else if module.isTestGate ∧ ¬(directory = root ∧ module.name = "tests") then
    (false, [.new .moduleTopology modPath module.line
      "#[cfg(test)] is only allowed on the root `mod tests;` declaration"])
  else (false, [])

/-- `register_module_target`: the file that the declaration is registered for, if any. -/
def registerModuleTarget (directory modPath : Path) (module : ModuleDeclaration) (facts : Facts R) :
    Option Path × List Diagnostic :=
  let fileTarget := directory.join (module.name ++ ".rs")
  let directoryTarget := (directory.join module.name).join "mod.rs"
  match facts.containsKey fileTarget, facts.containsKey directoryTarget with
  | false, false => (none, [.new .moduleTopology modPath module.line
      ("module `" ++ module.name ++ "` has no matching source file")])
  | true, false => (some fileTarget, [])
  | false, true => (some directoryTarget, [])
  | true, true => (none, [.new .moduleTopology modPath module.line
      ("module `" ++ module.name ++ "` is ambiguous: both file and directory forms exist")])

/-- One declaration of a `mod.rs`. -/
def registerModule (root directory : Path) (facts : Facts R) (module : ModuleDeclaration) :
    Option Path × List Diagnostic :=
  let modPath := directory.join "mod.rs"
  match rejectUnsupportedModule root directory modPath module with
  | (true, diagnostics) => (none, diagnostics)
  | (false, diagnostics) =>
    let (target, others) := registerModuleTarget directory modPath module facts
    (target, diagnostics ++ others)

/-- `immediate_module_targets`. -/
def immediateModuleTargets (directory : Path) (facts : Facts R) : List Path :=
  (facts.map (·.1)).filter fun path =>
    match path.parent with
    | none => false
    | some parent =>
      (parent = directory ∧ path.fileName.any (· ≠ "mod.rs")) ∨
        (path.fileName.any (· = "mod.rs") ∧ parent.parent = some directory)

/-- `check_directory`. -/
def checkDirectory (root directory : Path) (facts : Facts R) : List Diagnostic :=
  match facts.lookup (directory.join "mod.rs") with
  | none =>
    [(Diagnostic.new .moduleTopology directory 1
      "a directory containing Rust domain source must have a mod.rs").withHelp
        "add a composition-only `mod.rs`"]
  | some modFacts =>
    let registered := modFacts.modules.map (registerModule root directory facts)
    let declared := registered.filterMap (·.1)
    registered.flatMap (·.2) ++
      ((immediateModuleTargets directory facts).filter (· ∉ declared)).map fun path =>
        (Diagnostic.new .moduleTopology path 1 "Rust source is not declared by mod.rs").withHelp
          "add the corresponding `mod name;` declaration"

/-- `modules::check`. -/
def check (root : Path) (facts : Facts R) : List Diagnostic :=
  (facts.filterMap (·.1.parent)).dedup.flatMap (checkDirectory root · facts)

end Modules

/-! ## Roles of directories -/

namespace Hierarchy

inductive DirectoryRole where
  | boundedContext
  | aggregate
  | domainService
  | entity
  | valueObject
  | action
  | policy
  | query
  | invariant
  | lifecycle
deriving DecidableEq, Repr

namespace DirectoryRole

/-- `DirectoryRole::ALL`. -/
def all : List DirectoryRole := [boundedContext, aggregate, domainService, entity, valueObject, action,
  policy, query, invariant, lifecycle]

def anchor : DirectoryRole → String
  | boundedContext => "context.rs"
  | aggregate => "aggregate.rs"
  | domainService => "service.rs"
  | entity => "entity.rs"
  | valueObject => "value.rs"
  | action => "action.rs"
  | policy => "policy.rs"
  | query => "query.rs"
  | invariant => "contract.rs"
  | lifecycle => "lifecycle.rs"

def label : DirectoryRole → String
  | boundedContext => "bounded context"
  | aggregate => "aggregate"
  | domainService => "domain service"
  | entity => "entity"
  | valueObject => "value object"
  | action => "action"
  | policy => "policy"
  | query => "query"
  | invariant => "invariant"
  | lifecycle => "lifecycle"

def allowedChildren : DirectoryRole → List DirectoryRole
  | boundedContext => [aggregate, domainService, valueObject]
  | aggregate => [entity, action, policy, query, invariant, lifecycle, valueObject]
  | domainService => [action, policy]
  | entity => [action, policy, invariant, lifecycle, valueObject]
  | valueObject => [action, policy, invariant]
  | action | policy | query | invariant | lifecycle => []

end DirectoryRole

open DirectoryRole

/-- The roles of the directories that have exactly one anchor. -/
abbrev Roles := List (Path × DirectoryRole)

/-- `expected_anchors`. -/
def expectedAnchors (parent : DirectoryRole) : String :=
  if parent.allowedChildren = [] then
    "no nested concepts below a " ++ parent.label ++ " directory"
  else ", ".intercalate (parent.allowedChildren.map fun role => "`" ++ role.anchor ++ "`")

/-- `expected_children`. -/
def expectedChildren (parent : DirectoryRole) : String :=
  if parent.allowedChildren = [] then "no nested domain concept"
  else ", ".intercalate
    (parent.allowedChildren.map fun role => role.label ++ " (`" ++ role.anchor ++ "`)")

/-- `missing_anchor`. -/
def missingAnchor (root directory : Path) (roles : Roles) : Diagnostic :=
  let expected :=
    if directory.parent = some root then "`context.rs`"
    else match directory.parent.bind (roles.lookup ·) with
      | none => "one supported role anchor"
      | some role => expectedAnchors role
  .new .invalidStructure directory 1
    ("domain directory has no role anchor; expected exactly one of " ++ expected)

/-- `multiple_anchors`. -/
def multipleAnchors (directory : Path) (anchors : List DirectoryRole) : Diagnostic :=
  let actual := ", ".intercalate
    (anchors.map fun role => "`" ++ role.anchor ++ "` (" ++ role.label ++ ")")
  .new .invalidStructure directory 1
    ("domain directory must have exactly one role anchor; found " ++ actual)

/-- `wrong_parent`. -/
def wrongParent (directory : Path) (role : DirectoryRole) (parent : Path)
    (parentRole : Option DirectoryRole) : Diagnostic :=
  let expected := match parentRole with
    | none => "bounded context directory anchored by `context.rs`"
    | some parentRole => expectedChildren parentRole
  let actualParent := match parentRole with
    | none => "domain root"
    | some parentRole => parentRole.label
  .new .invalidStructure (directory.join role.anchor) 1
    ("expected " ++ expected ++ " under " ++ actualParent ++ " `" ++ parent.display ++ "`; found " ++
      role.label ++ " directory anchored by `" ++ role.anchor ++ "`")

/-- `anchors_in`. -/
def anchorsIn (tree : DomainTree R) (directory : Path) : List DirectoryRole :=
  DirectoryRole.all.filter fun role => tree.isFile (directory.join role.anchor)

/-- The loop of `check` that gives the directories their roles. -/
def assignRoles (tree : DomainTree R) : List Path → Roles → Roles × List Diagnostic
  | [], roles => (roles, [])
  | directory :: directories, roles =>
    match anchorsIn tree directory with
    | [role] => assignRoles tree directories (roles ++ [(directory, role)])
    | [] =>
      let (final, diagnostics) := assignRoles tree directories roles
      (final, missingAnchor tree.root directory roles :: diagnostics)
    | anchors =>
      let (final, diagnostics) := assignRoles tree directories roles
      (final, multipleAnchors directory anchors :: diagnostics)

/-- The loop of `check` over the parents of the roles. -/
def checkParent (root : Path) (roles : Roles) (directory : Path) (role : DirectoryRole) :
    List Diagnostic :=
  match directory.parent with
  | none => []
  | some parent =>
    let parentRole := roles.lookup parent
    let allowed :=
      if parent = root then some [boundedContext] else parentRole.map allowedChildren
    match allowed with
    | none => []
    | some allowed => if role ∈ allowed then [] else [wrongParent directory role parent parentRole]

/-- `aggregate_event_set_name`. -/
def aggregateEventSetName (file : SourceFileFacts R) : Option String :=
  let declarations := file.topLevelItems.filter fun item =>
    item.nominalShape = .enum ∧ .aggregateEvents ∈ item.primaries
  match declarations with
  | [declaration] => declaration.name
  | _ => none

/-- `check_aggregate_event_type`. -/
def checkAggregateEventType (directory eventSetPath : Path) (facts : Facts R) : List Diagnostic :=
  let aggregatePath := directory.join "aggregate.rs"
  match facts.lookup aggregatePath with
  | none => []
  | some aggregateFacts =>
    let definitions := aggregateFacts.traitImplementations.filter fun implementation =>
      implementation.traitName = some "AggregateDefinition"
    match definitions with
    | [definition] =>
      match definition.associatedEventTypes with
      | [eventType] =>
        match eventType.name, (facts.lookup eventSetPath).bind aggregateEventSetName with
        | none, _ => [.new .invalidStructure aggregatePath eventType.line
            "AggregateDefinition::Event must be one direct unqualified type identifier"]
        | some _, none => []
        | some actual, some expected =>
          if actual = expected then []
          else [(Diagnostic.new .invalidStructure aggregatePath eventType.line
            ("AggregateDefinition::Event names `" ++ actual ++ "`, but `event_set.rs` declares `" ++
              expected ++ "`")).withHelp ("use `type Event = " ++ expected ++ ";`")]
      | _ => [.new .invalidStructure aggregatePath definition.line
          "AggregateDefinition must declare exactly one associated `Event` type"]
    | _ => []

/-- `check_aggregate_event_sets`, of one directory. -/
def checkAggregateEventSet (facts : Facts R) (directory : Path) (role : DirectoryRole) :
    List Diagnostic :=
  let eventSet := directory.join "event_set.rs"
  if role = aggregate then
    if facts.containsKey eventSet then checkAggregateEventType directory eventSet facts
    else [.new .invalidStructure eventSet 1 "aggregate directory requires `event_set.rs`"]
  else if facts.containsKey eventSet then
    [.new .invalidStructure eventSet 1
      "`event_set.rs` must belong directly to an aggregate directory"]
  else []

/-- `check_state_transition_companions`, of one directory. -/
def checkStateTransitionCompanion (facts : Facts R) (directory : Path) (role : DirectoryRole) :
    List Diagnostic :=
  let transition := directory.join "transition.rs"
  if role ≠ lifecycle ∧ facts.containsKey transition then
    [.new .invalidStructure transition 1
      "`transition.rs` must be a companion in a lifecycle directory"]
  else []

/-- `hierarchy::check`. -/
def check (tree : DomainTree R) (directories : List Path) (facts : Facts R) : List Diagnostic :=
  let testsRoot := tree.root.join "tests"
  let production := directories.filter fun directory =>
    directory ≠ tree.root ∧ !directory.startsWith testsRoot
  let (roles, diagnostics) := assignRoles tree production []
  diagnostics ++ roles.flatMap (fun (directory, role) => checkParent tree.root roles directory role) ++
    roles.flatMap (fun (directory, role) => checkAggregateEventSet facts directory role) ++
    roles.flatMap (fun (directory, role) => checkStateTransitionCompanion facts directory role)

end Hierarchy

/-! ## Mirror of the tests -/

namespace TestMirror

/-- `check_directories`, of one test directory: the diagnostic if it is invalid. -/
def checkDirectory (root testsRoot : Path) (sourceFiles production : List Path)
    (testDirectory : Path) : Option Diagnostic :=
  let testModule := testDirectory.join "mod.rs"
  if testModule ∉ sourceFiles then none
  else match testDirectory.stripPrefix testsRoot with
    | none => none
    | some relative =>
      let expectedModule := (root ++ relative).join "mod.rs"
      if expectedModule ∈ production then none
      else some ((Diagnostic.new .invalidTestMirror testModule 1
        "test directory does not mirror a domain directory").withHelp
          ("expected a matching domain module at `" ++ expectedModule.display ++ "`"))

/-- `concept_target`. -/
def conceptTarget (root relativeTestFile : Path) : Option Path :=
  relativeTestFile.fileStem.map fun stem =>
    ((root ++ relativeTestFile.dropLast).join stem).join "mod.rs"

/-- `missing_target_help`. -/
def missingTargetHelp (fileTarget : Path) : Option Path → String
  | none => "expected `" ++ fileTarget.display ++ "`"
  | some conceptTarget =>
    "expected `" ++ fileTarget.display ++ "` or `" ++ conceptTarget.display ++ "`"

/-- `check_files`, of one test file. -/
def checkFile (root testsRoot : Path) (production invalidDirectories : List Path)
    (testFile : Path) : List Diagnostic :=
  if testFile.fileName = some "mod.rs" then []
  else if invalidDirectories.any (testFile.startsWith ·) then []
  else match testFile.stripPrefix testsRoot with
    | none => []
    | some relative =>
      let fileTarget := root ++ relative
      let concept := conceptTarget root relative
      match decide (fileTarget ∈ production), concept.filter (· ∈ production) with
      | true, none | false, some _ => []
      | false, none =>
        [(Diagnostic.new .invalidTestMirror testFile 1
          "test source does not mirror a domain source file or concept directory").withHelp
            (missingTargetHelp fileTarget concept)]
      | true, some conceptTarget =>
        [(Diagnostic.new .invalidTestMirror testFile 1
          "test source ambiguously mirrors both a domain source file and concept directory").withHelp
            ("keep one matching target: `" ++ fileTarget.display ++ "` or `" ++
              conceptTarget.display ++ "`")]

/-- `test_mirror::check`. -/
def check (root : Path) (directories rustFiles : List Path) : List Diagnostic :=
  let testsRoot := root.join "tests"
  let production := rustFiles.filter (!Path.startsWith · testsRoot)
  let testDirectories := directories.filter fun path =>
    path.startsWith testsRoot ∧ path ≠ testsRoot
  let invalid := testDirectories.filter fun directory =>
    (checkDirectory root testsRoot rustFiles production directory).isSome
  testDirectories.filterMap (checkDirectory root testsRoot rustFiles production) ++
    (rustFiles.filter (Path.startsWith · testsRoot)).flatMap
      (checkFile root testsRoot production invalid)

end TestMirror

/-! ## The check -/

/-- The rules on the contents of the files: `files`, `action_ownership`, `event_raising`,
`evaluation_ownership`, `query_ownership` and `content`. They read the root, the directories and the
facts. -/
abbrev ContentRules (R : Type) := Path → List Path → Facts R → List Diagnostic

/-- `check_domain_root`. -/
def checkDomainRoot (contentRules : ContentRules R) (tree : DomainTree R) : List Diagnostic :=
  match checkRequired tree with
  | (false, diagnostics) => diagnostics
  | (true, diagnostics) =>
    let sources := tree.collect
    let (facts, unparsed) := parseSources tree sources.rustFiles
    let found := diagnostics ++ unparsed ++ contentRules tree.root sources.directories facts ++
      Modules.check tree.root facts ++ Hierarchy.check tree sources.directories facts ++
      TestMirror.check tree.root sources.directories sources.rustFiles
    Lib.sortBy Diagnostic.key found

end Rostfrei.Structure
