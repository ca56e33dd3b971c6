import Rostfrei.AgentTools.Baseline
import Rostfrei.Lib.Hex

/-!
# The skills transaction

`apply` of `agent_tools/transaction.rs`: the plan of an installation over what the previous baseline
owns, the staging of its result, and the commit that replaces the managed names one by one and rolls
back when a rename fails.

Nothing else writes to the destination meanwhile, so the check for that before the commit passes and
is left out. The rollback's own steps succeed.
-/

namespace Rostfrei.AgentTools

open Std Lib

variable [Crates] {M : Type}

/-! ## Kits -/

/-- A kit as `bundled` and `external` give it: its files lie in the skills of its release. -/
structure Kit where
  release : Release
  files : Resources
  release_skills : release.skills = skills
  files_valid : ∀ key ∈ files, ∃ skill ∈ skills, ∃ rest, key = skill :: rest ∧ rest ≠ [] ∧
    ∀ part ∈ rest, ValidName part

/-- `hash`. -/
def hash (bytes : Bytes) : String := lowerHex (sha256 bytes).toList

def isHexDigit (c : Char) : Bool :=
  ('0' ≤ c ∧ c ≤ '9') || ('a' ≤ c ∧ c ≤ 'f') || ('A' ≤ c ∧ c ≤ 'F')

/-- The check of one entry in `validate_state`. -/
def isManagedResource (key : Key) (digest : String) : Bool :=
  skills.any (fun skill => key.head? = some skill && decide (1 < key.length)) && !key.contains ".." &&
    !key.any hasBackslash && digest.utf8ByteSize = 64 && digest.toList.all isHexDigit

/-- `validate_state`. -/
def validateState (state : Baseline) : Except ToolError Unit :=
  if state.stateVersion ≠ 1 ∨ state.release.skills ≠ skills then
    .error (error "Unsupported managed skills baseline")
  else if state.sha256.toList.all fun entry => isManagedResource entry.1 entry.2 then .ok ()
  else .error (error "Invalid managed resource baseline")

/-! ## The plan -/

structure Plan where
  files : Resources
  managedDirectories : ExtTreeSet Key compare

/-- The loop of `plan` over the resources that the previous baseline owns. -/
def planOwned (kit : Kit) (current : Resources) : List (Key × String) → Resources →
    Except ToolError Resources
  | [], desired => .ok desired
  | (key, oldHash) :: owned, desired =>
    let actual := current[key]?
    let next := kit.files[key]?
    if actual ≠ next ∧ actual.all (hash · ≠ oldHash) then .error (conflict key)
    else planOwned kit current owned (if next = none then desired.erase key else desired)

/-- The loop of `plan` over the kit's resources. -/
def planIncoming (state : Baseline) (current : Resources) : List (Key × Bytes) → Except ToolError Unit
  | [] => .ok ()
  | (key, bytes) :: incoming =>
    if key ∉ state.sha256 ∧ current[key]?.any (· ≠ bytes) then .error (conflict key)
    else planIncoming state current incoming

/-- The resources of a skill. -/
def ofSkill (resources : Resources) (skill : String) : Resources :=
  resources.filter fun key _ => key.head? = some skill && decide (1 < key.length)

/-- The loop of `plan` over the skills, without a baseline. -/
def planUnowned (kit : Kit) (current : Resources) : List String → Except ToolError Unit
  | [] => .ok ()
  | skill :: others =>
    let existing := ofSkill current skill
    if existing ≠ ∅ ∧ existing ≠ ofSkill kit.files skill then .error (conflict [skill])
    else planUnowned kit current others

/-- `plan`. -/
def plan (kit : Kit) (current : Resources) (previous : Option Bytes)
    (update : Bool) : Except ToolError Plan :=
  match previous with
  | some bytes =>
    match Baseline.decode bytes with
    | none => .error (error "Invalid managed skills baseline; preserving all resources")
    | some state => do
      validateState state
      let managedDirectories := ExtTreeSet.ofList (state.sha256.keys.flatMap parents)
      let incoming := kit.files.map fun _ bytes => hash bytes
      if !update ∧ (state.release ≠ kit.release ∨ state.sha256 ≠ incoming) then
        .error (error
          "Installed skills target a different build; run cargo rostfrei skills update")
      else do
        let desired ← planOwned kit current state.sha256.toList current
        planIncoming state current kit.files.toList
        return ⟨desired ∪ kit.files, managedDirectories⟩
  | none => do
    planUnowned kit current skills
    return ⟨current ∪ kit.files, ∅⟩

/-- `directory_layout`. -/
def directoryLayout (files : Resources) (existing : Modes M) (managed : ExtTreeSet Key compare) :
    Except ToolError (ExtTreeSet Key compare) :=
  let kept := existing.keys.filter (· ∉ managed)
  let directories := ExtTreeSet.ofList
    (files.keys.flatMap parents ++ kept.flatMap fun key => key :: parents key)
  match files.keys.find? (· ∈ directories) with
  | some key => .error (conflict key)
  | none => .ok directories

/-! ## Staging -/

section Staging

/-- The permissions of new files and directories. -/
structure Defaults (M : Type) where
  file : M
  directory : M

variable (defaults : Defaults M)

/-- What a path leads to, below the staging area. -/
def resolve (key : Key) : Key :=
  key.foldl (fun below name =>
    if isPassed name then below else if name = ".." then below.dropLast else below ++ [name]) []

/-- The step of `fs::create_dir_all` at one of the directories on the way. -/
def createDir (message : String) (area : Tree M) (key : Key) : Except ToolError (Tree M) :=
  match area[key]? with
  | none => .ok (area.insert key (.directory defaults.directory))
  | some (.directory _) => .ok area
  | some _ => .error (error message)

/-- `fs::create_dir_all`. -/
def createDirAll (message : String) (area : Tree M) (key : Key) : Except ToolError (Tree M) :=
  (resolve key).inits.tail.foldlM (createDir defaults message) area

/-- The permissions of a staged file: those of the file it stands for, if there is one. -/
def stagedMode (destination : Area M) (original : Resources) (key : Key) : M :=
  match original[key]?, destination.entry key with
  | some _, some (.file _ mode) => mode
  | _, _ => defaults.file

/-- The staging of one resource. -/
def stageFile (destination : Area M) (original : Resources) (area : Tree M) (file : Key × Bytes) :
    Except ToolError (Tree M) := do
  let area ← createDirAll defaults "Could not stage resource directory" area file.1.dropLast
  match area[file.1]? with
  | some (.directory _) => .error (error "Could not stage skill resource")
  | _ => return area.insert file.1 (.file file.2 (stagedMode defaults destination original file.1))

/-- `fs::set_permissions` on a staged directory, if it existed. -/
def restoreMode (modes : Modes M) (area : Tree M) (key : Key) : Tree M :=
  match modes[key]?, area[resolve key]? with
  | some mode, some (.directory _) => area.insert (resolve key) (.directory mode)
  | _, _ => area

/-- The part of `apply` that stages its result. -/
def stage (destination : Area M) (original : Resources) (modes : Modes M) (desired : Resources)
    (directories : ExtTreeSet Key compare) (metadata : Bytes) : Except ToolError (Tree M) := do
  let area ← directories.toList.foldlM
    (createDirAll defaults "Could not stage consumer directories") ∅
  let area ← desired.toList.foldlM (stageFile defaults destination original) area
  let area := area.insert [STATE] (.file metadata defaults.file)
  return directories.toList.reverse.foldl (restoreMode modes) area

/-- The names of a staged tree. -/
def Area.ofTree (tree : Tree M) : Area M := fun name =>
  if [name] ∈ tree then some (tree.filter fun key _ => key.head? = some name) else none

end Staging

/-! ## The commit -/

section Commit

variable {α : Type}

/-- Which renames fail: the one that backs a name up, and the one that puts its replacement there. -/
structure Faults where
  backup : String → Bool
  replace : String → Bool
  /-- The error of the step before the renames that fails, if one does. -/
  preparation : Option ToolError

/-- The directories of a commit, by what stands at their names. -/
structure Places (α : Type) where
  destination : String → Option α
  next : String → Option α
  backup : String → Option α

/-- `fs::rename` of a name, from one directory into another that does not have it. -/
def rename (name : String) (source target : String → Option α) :
    Option ((String → Option α) × (String → Option α)) :=
  match source name, target name with
  | some tree, none =>
    some (Function.update source name none, Function.update target name (some tree))
  | _, _ => none

/-- The rename of a target into the backup. -/
def backUp (faults : Faults) (name : String) (places : Places α) : Option (Places α) :=
  if faults.backup name then none
  else (rename name places.destination places.backup).map fun (destination, backup) =>
    { places with destination, backup }

/-- The rename of a staged name to its target. -/
def replace (faults : Faults) (name : String) (places : Places α) : Option (Places α) :=
  if faults.replace name then none
  else (rename name places.next places.destination).map fun (next, destination) =>
    { places with next, destination }

/-- `rollback`, with the last applied name first. -/
def rollback : List (String × Bool) → Places α → Except ToolError Unit × Places α
  | [], places => (.ok (), places)
  | (name, existed) :: applied, places =>
    let removed := Function.update places.destination name none
    if existed then
      match rename name places.backup removed with
      | none => (.error (error "Skills rollback failed"), { places with destination := removed })
      | some (backup, destination) => rollback applied { places with backup, destination }
    else rollback applied { places with destination := removed }

/-- What `commit` answers after a rollback. -/
def rolledBack (message : String) (outcome : Except ToolError Unit × Places α) :
    Except ToolError Unit × Places α :=
  match outcome with
  | (.error failure, places) => (.error failure, places)
  | (.ok (), places) => (.error (error message), places)

/-- The loop of `commit`, with the last applied name first. -/
def commitLoop (faults : Faults) : List String → List (String × Bool) → Places α →
    Except ToolError Unit × Places α
  | [], _, places => (.ok (), places)
  | name :: names, applied, places =>
    let existed := (places.destination name).isSome
    match if existed then backUp faults name places else some places with
    | none => rolledBack "Could not replace skills; previous transaction state restored"
        (rollback applied places)
    | some saved =>
      match replace faults name saved with
      | none => rolledBack "Could not commit skills; previous transaction state restored"
          (rollback ((name, existed) :: applied) saved)
      | some replaced => commitLoop faults names ((name, existed) :: applied) replaced

/-- The names that a commit replaces. -/
def managedNames : List String := skills ++ [STATE]

/-- `commit`. -/
def commit (faults : Faults) (destination next : String → Option α) :
    Except ToolError Unit × Places α :=
  commitLoop faults managedNames [] ⟨destination, next, fun _ => none⟩

end Commit

/-! ## The transaction -/

/-- What `apply` has read and planned before it writes anything. -/
structure Preflight (M : Type) where
  original : Resources
  modes : Modes M
  previous : Option Bytes
  plan : Plan
  directories : ExtTreeSet Key compare

/-- The part of `apply` that plans. -/
def preflight (kit : Kit) (destination : Area M) (update : Bool) :
    Except ToolError (Preflight M) := do
  let original ← snapshot destination
  let modes ← directoryModes destination
  let previous ← stateBytes destination
  let plan ← plan kit original previous update
  let directories ← directoryLayout plan.files modes plan.managedDirectories
  return ⟨original, modes, previous, plan, directories⟩

/-- The baseline of a kit. -/
def baseline (kit : Kit) : Baseline := ⟨1, kit.release, kit.files.map fun _ bytes => hash bytes⟩

/-- `apply`. The name of the staging directory is `recovery`. -/
def apply (pretty : Pretty) (defaults : Defaults M) (faults : Faults) (recovery : String)
    (kit : Kit) (destination : Area M) (update : Bool) : Except ToolError Unit × Area M :=
  match preflight kit destination update with
  | .error failure => (.error failure, destination)
  | .ok ⟨original, modes, previous, plan, directories⟩ =>
    let metadata := pretty.encode (baseline kit)
    if plan.files = original ∧ previous = some metadata ∧ directories.toList = modes.keys then
      (.ok (), destination)
    else
      match faults.preparation with
      | some failure => (.error failure, destination)
      | none =>
        match stage defaults destination original modes plan.files directories metadata with
        | .error failure => (.error failure, destination)
        | .ok tree =>
          match commit faults destination (Area.ofTree tree) with
          | (.ok (), places) => (.ok (), places.destination)
          | (.error failure, places) =>
            (.error (failure.detail "recoveryDirectory" recovery), places.destination)

end Rostfrei.AgentTools
