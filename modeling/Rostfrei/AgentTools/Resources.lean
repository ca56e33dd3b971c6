import Mathlib.Data.List.Lex
import Mathlib.Data.String.Basic
import Rostfrei.Lib.Bytes

/-!
# Skill resources

The files that `agent_tools/transaction.rs` manages, and what it reads of a destination: the resources
of the managed skills, the modes of their directories and the baseline.

A resource path is a text that the source cuts at its slashes; here it is the list of the parts. An
area of the file system is what stands at its names, each with the entries at and below it.
-/

namespace Rostfrei.AgentTools

open Std Lib

/-! ## Errors -/

/-- A `ToolError` of the installation phase. -/
structure ToolError where
  message : String
  details : List (String × String)
deriving DecidableEq, Repr

/-- `install::error`. -/
def error (message : String) : ToolError := ⟨message, []⟩

def ToolError.detail (toolError : ToolError) (name value : String) : ToolError :=
  { toolError with details := toolError.details ++ [(name, value)] }

/-! ## Paths -/

/-- The parts of a resource path. -/
abbrev Key := List String

def Key.display (key : Key) : String := "/".intercalate key

/-- `conflict`. -/
def conflict (key : Key) : ToolError :=
  (error "Preserving modified or unowned skill resource; resolve the conflict before updating").detail
    "path" key.display

/-- `SKILLS`. -/
def skills : List String := ["rostfrei-develop-feature", "rostfrei-tracer"]

/-- `STATE`. -/
def STATE : String := ".rostfrei-managed.json"

/-- A part that is a name in a directory. -/
structure ValidName (name : String) : Prop where
  nonempty : name ≠ ""
  not_dot : name ≠ "."
  not_dots : name ≠ ".."
  no_slash : '/' ∉ name.toList

/-- `name.contains('\\')`. -/
def hasBackslash (name : String) : Bool := '\\' ∈ name.toList

/-- `path.replace('\\', "/")`. -/
def replaceBackslash (key : Key) : Key :=
  key.flatMap fun name => (name.toList.splitOn '\\').map String.ofList

/-- A part that `Path::components` passes over. -/
def isPassed (name : String) : Bool := name = "" || name = "."

def trimRight (key : Key) : Key := (key.reverse.dropWhile isPassed).reverse

/-- `Path::new(path).parent()`. The empty list stands for a path that has none. -/
def Key.parent (key : Key) : Key := trimRight (trimRight key).dropLast

/-- The loop of `parents`, with a bound on its rounds. -/
def parentsWithin : Nat → Key → List Key
  | 0, _ => []
  | rounds + 1, key =>
    if key.parent = [] then [] else replaceBackslash key.parent :: parentsWithin rounds key.parent

/-- `parents`. -/
def parents (key : Key) : List Key := parentsWithin key.length key

/-! ## Areas -/

/-- The entry at a path, with its permissions. -/
inductive Entry (M : Type) where
  | file (bytes : Bytes) (mode : M)
  | directory (mode : M)
  | symlink
  /-- Neither a file nor a directory nor a link. -/
  | special
deriving DecidableEq, Repr

/-- A map collected from a list that says one thing about each key. -/
theorem getElem?_ofList {β : Type} {entries : List (Key × β)} {f : Key → Option β}
    (h : ∀ entry ∈ entries, f entry.1 = some entry.2) (key : Key) (value : β) :
    (ExtTreeMap.ofList entries)[key]? = some value ↔ (key, value) ∈ entries := by
  have hfold : ∀ map : ExtTreeMap Key β compare,
      (entries.foldl (fun map (key, value) => map.insert key value) map)[key]? =
        if key ∈ entries.map (·.1) then f key else map[key]? := by
    induction entries with
    | nil => simp
    | cons entry entries ih =>
      intro map
      rw [List.foldl_cons, ih fun other hother => h other (List.mem_cons_of_mem _ hother)]
      by_cases hrest : key ∈ entries.map (·.1)
      · rw [if_pos hrest, if_pos (by simp [hrest])]
      · rw [if_neg hrest, ExtTreeMap.getElem?_insert]
        by_cases hkey : entry.1 = key
        · subst hkey
          simp [h entry List.mem_cons_self]
        · rw [if_neg (by simpa using hkey), if_neg]
          rw [List.map_cons, List.mem_cons, not_or]
          exact ⟨Ne.symm hkey, hrest⟩
  rw [ExtTreeMap.ofList_eq_insertMany_empty, ExtTreeMap.insertMany_list_eq_foldl, hfold]
  constructor
  · intro hvalue
    split at hvalue
    · next hkey =>
      obtain ⟨entry, hentry, rfl⟩ := List.mem_map.mp hkey
      rw [h entry hentry] at hvalue
      obtain rfl := Option.some.inj hvalue
      exact hentry
    · simp at hvalue
  · intro hmem
    rw [if_pos (List.mem_map_of_mem hmem), h _ hmem]

/-- The entries at and below a name, by their paths from that name on. -/
abbrev Tree (M : Type) := ExtTreeMap Key (Entry M) compare

/-- What stands at the names of a directory. -/
abbrev Area (M : Type) := String → Option (Tree M)

variable {M : Type}

namespace Area

/-- The entry at a path. -/
def entry (area : Area M) : Key → Option (Entry M)
  | [] => none
  | name :: rest => (area name).bind fun tree => tree[name :: rest]?

end Area

/-- The entries at and below a name, as a file system has them. -/
structure IsTree (name : String) (tree : Tree M) : Prop where
  root : [name] ∈ tree
  keys : ∀ key ∈ tree, ∃ rest, key = name :: rest ∧ ∀ part ∈ rest, ValidName part
  closed : ∀ (key : Key) (part : String), key ≠ [] → key ++ [part] ∈ tree →
    ∃ mode, tree[key]? = some (.directory mode)

def Area.IsValid (area : Area M) : Prop := ∀ name tree, area name = some tree → IsTree name tree

/-! ## What is read of a destination -/

/-- What `files` keeps of an entry of a skill. -/
def visit : Key × Entry M → Except ToolError (Option (Key × Bytes))
  | (_, .symlink) => .error
      (error "Preserving symlink: kit and skill resources must be regular files/directories")
  | (_, .special) => .error (error "Preserving non-regular kit/skill resource")
  | (_, .directory _) => .ok none
  | (key, .file bytes _) =>
    if key.length ≤ 1 then .error (error "Expected a skill directory") else .ok (some (key, bytes))

/-- `files`. Reading a file or a directory succeeds. -/
def files (tree : Tree M) : Except ToolError (List (Key × Bytes)) := do
  let found ← tree.toList.mapM visit
  return found.filterMap id

/-- The resources of a destination or a kit, by path. -/
abbrev Resources := ExtTreeMap Key Bytes compare

/-- `snapshot`. -/
def snapshot (destination : Area M) : Except ToolError Resources := do
  let parts ← skills.mapM fun name =>
    match destination name with
    | none => .ok []
    | some tree => files tree
  return ExtTreeMap.ofList parts.flatten

/-- `state_bytes`. -/
def stateBytes (destination : Area M) : Except ToolError (Option Bytes) :=
  match destination STATE with
  | none => .ok none
  | some tree =>
    match tree[[STATE]]? with
    | some (.file bytes _) => .ok (some bytes)
    | _ => .error (conflict [STATE])

def Entry.directoryMode : Entry M → Option M
  | .directory mode => some mode
  | _ => none

/-- The modes of directories, by path. -/
abbrev Modes (M : Type) := ExtTreeMap Key M compare

/-- `directory_modes`. -/
def directoryModes (destination : Area M) : Except ToolError (Modes M) := do
  let parts ← skills.mapM fun name =>
    match destination name with
    | none => .ok []
    | some tree =>
      match tree[[name]]? with
      | some (.directory _) =>
        .ok (tree.toList.filterMap fun (key, entry) => entry.directoryMode.map (key, ·))
      | _ => .error (conflict [name])
  return ExtTreeMap.ofList parts.flatten

end Rostfrei.AgentTools
