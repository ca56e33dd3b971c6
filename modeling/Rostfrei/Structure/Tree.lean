import Mathlib.Data.List.Lex
import Mathlib.Data.Prod.Lex
import Mathlib.Data.String.Basic
import Rostfrei.Lib.Sort

/-!
# Domain source trees

The part of the file system that `rostfrei-structure` reads, the facts it keeps of a parsed source
file, and the diagnostics it reports (`source/facts.rs`, `rules/root.rs`, `diagnostic/`).

A path is the list of its components. Of the facts of a file, those that the modelled rules read are
fields; what the other rules read is a parameter.
-/

namespace Rostfrei.Structure

/-! ## Paths -/

abbrev Path := List String

namespace Path

/-- `path.join(name)`. -/
def join (directory : Path) (name : String) : Path := directory ++ [name]

/-- `path.parent()`: the root of the file system has none. -/
def parent (path : Path) : Option Path :=
  if path = [] then none else some path.dropLast

/-- `path.file_name()`. -/
def fileName (path : Path) : Option String := path.getLast?

/-- `path.starts_with(base)`. -/
def startsWith (path base : Path) : Bool := base.isPrefixOf path

/-- `path.strip_prefix(base)`. -/
def stripPrefix (path base : Path) : Option Path := path.dropPrefix? base

/-- `path.display()`. -/
def display (path : Path) : String := "/" ++ "/".intercalate path

/-- A file name at its last dot, as `rsplit_file_at_dot`. A name whose only dot comes first has no
extension. -/
def splitAtDot (name : String) : String × Option String :=
  let after := name.toList.reverse.takeWhile (· ≠ '.')
  match name.toList.reverse.dropWhile (· ≠ '.') with
  | [] | [_] => (name, none)
  | _ :: before => (String.ofList before.reverse, some (String.ofList after.reverse))

/-- `path.file_stem()`. -/
def fileStem (path : Path) : Option String := path.fileName.map (splitAtDot · |>.1)

/-- `path.extension()`. -/
def extension (path : Path) : Option String := path.fileName.bind (splitAtDot · |>.2)

@[simp] theorem parent_join (directory : Path) (name : String) :
    (directory.join name).parent = some directory := by
  simp [join, parent]

@[simp] theorem fileName_join (directory : Path) (name : String) :
    (directory.join name).fileName = some name := by
  simp [join, fileName]

@[simp] theorem join_inj {directory directory' : Path} {name name' : String} :
    directory.join name = directory'.join name' ↔ directory = directory' ∧ name = name' := by
  simp [join]

theorem extension_join (directory : Path) (name : String) :
    (directory.join name).extension = (splitAtDot name).2 := by
  simp [extension]

/-- A path with a file name is that name in its parent. -/
theorem exists_join_of_fileName {path : Path} {name : String} (h : path.fileName = some name) :
    ∃ directory : Path, path = directory.join name := by
  refine ⟨path.dropLast, ?_⟩
  exact (List.dropLast_append_getLast? name h).symm

theorem parent_eq_some {path directory : Path} (h : path.parent = some directory) :
    ∃ name, path = directory.join name := by
  rcases List.eq_nil_or_concat path with rfl | ⟨init, name, rfl⟩
  · cases h
  · rw [List.concat_eq_append] at h ⊢
    obtain rfl := Option.some.inj ((parent_join init name).symm.trans h)
    exact ⟨name, rfl⟩

theorem stripPrefix_eq_some {path base rest : Path} :
    path.stripPrefix base = some rest ↔ path = base ++ rest := by
  simp [stripPrefix, List.dropPrefix?_eq_some_iff]

/-- A name with the extension `rs`. -/
theorem splitAtDot_rs {name : String} (h : name ≠ "") :
    (splitAtDot (name ++ ".rs")).2 = some "rs" := by
  have hname : name.toList.reverse ≠ [] := by simpa using h
  obtain ⟨c, cs, hcs⟩ := List.exists_cons_of_ne_nil hname
  simp [splitAtDot, hcs, List.takeWhile, List.dropWhile]

theorem startsWith_iff {path base : Path} : path.startsWith base = true ↔ ∃ rest, path = base ++ rest := by
  rw [startsWith, List.isPrefixOf_iff_prefix]
  exact ⟨fun ⟨rest, h⟩ => ⟨rest, h.symm⟩, fun ⟨rest, h⟩ => ⟨rest, h.symm⟩⟩

end Path

/-! ## Diagnostics -/

inductive DiagnosticCode where
  | sourceParse
  | invalidStructure
  | impureModule
  | wrongPlacement
  | invalidCardinality
  | testPlacement
  | moduleTopology
  | unexpectedRoleContent
  | invalidTestMirror
  | missingDomainCheckTarget
  | compiledDomainCheckFailed
  | eventRaisingOutsideAction
deriving DecidableEq, Repr

structure Diagnostic where
  code : DiagnosticCode
  path : Path
  line : Nat
  message : String
  help : Option String
deriving DecidableEq, Repr

/-- `Diagnostic::new`. -/
def Diagnostic.new (code : DiagnosticCode) (path : Path) (line : Nat) (message : String) :
    Diagnostic :=
  ⟨code, path, line, message, none⟩

def Diagnostic.withHelp (diagnostic : Diagnostic) (help : String) : Diagnostic :=
  { diagnostic with help := some help }

/-- What diagnostics are sorted by: path, line, code and message. -/
def Diagnostic.key (diagnostic : Diagnostic) : Path ×ₗ (Nat ×ₗ (Nat ×ₗ String)) :=
  toLex (diagnostic.path, toLex (diagnostic.line, toLex (diagnostic.code.ctorIdx, diagnostic.message)))

/-! ## Facts of source files -/

/-- An identifier. The word of a raw one is what stands after `r#`. -/
structure Ident where
  raw : Bool
  word : String
  nonempty : word ≠ ""
  plain : '#' ∉ word.toList
deriving DecidableEq

/-- `ident.to_string()`. -/
def Ident.toString (ident : Ident) : String :=
  if ident.raw then "r#" ++ ident.word else ident.word

/-- A `mod` item. -/
structure ModuleDeclaration where
  ident : Ident
  line : Nat
  isInline : Bool
  hasPathOverride : Bool
  isTestGate : Bool
deriving DecidableEq

/-- The `name` of the source's record. -/
def ModuleDeclaration.name (module : ModuleDeclaration) : String := module.ident.toString

inductive PrimaryKind where
  | model
  | boundedContext
  | aggregate
  | aggregateEvents
  | entity
  | identity
  | valueObject
  | domainService
  | action
  | command
  | event
  | rejection
  | policy
  | policyOutcome
  | query
  | invariant
  | lifecycle
  | stateTransition
deriving DecidableEq, Repr

inductive NominalShape where
  | enum
  | unitStruct
  | other
deriving DecidableEq, Repr

structure AssociatedTypeReference where
  name : Option String
  line : Nat

structure TraitImplementation where
  traitName : Option String
  associatedEventTypes : List AssociatedTypeReference
  line : Nat

structure TopLevelItem where
  name : Option String
  primaries : List PrimaryKind
  nominalShape : NominalShape

structure SourceFileFacts (R : Type) where
  modules : List ModuleDeclaration
  traitImplementations : List TraitImplementation
  topLevelItems : List TopLevelItem
  /-- What the rules outside this model read. -/
  rest : R

/-- The facts of the parsed files, by path. -/
abbrev Facts (R : Type) := List (Path × SourceFileFacts R)

def Facts.containsKey {R : Type} (facts : Facts R) (path : Path) : Bool :=
  (facts.lookup path).isSome

/-! ## Trees -/

/-- A `syn::Error`. -/
structure ParseError where
  line : Nat
  message : String

mutual

/-- A file, with what `source::parse` answers for it, or a directory. -/
inductive Node (R : Type) where
  | file (parsed : Except ParseError (SourceFileFacts R))
  | directory (entries : Entries R)

inductive Entries (R : Type) where
  | nil
  | cons (name : String) (node : Node R) (rest : Entries R)

end

variable {R : Type}

def Entries.find : Entries R → String → Option (Node R)
  | .nil, _ => none
  | .cons name node rest, wanted => if name = wanted then some node else rest.find wanted

/-- The node at a path below a node. -/
def Node.get : Node R → Path → Option (Node R)
  | node, [] => some node
  | .directory entries, name :: path => (entries.find name).bind (·.get path)
  | .file _, _ :: _ => none

mutual

/-- No directory lists a name twice. -/
def Node.Distinct : Node R → Prop
  | .file _ => True
  | .directory entries => entries.Distinct

def Entries.Distinct : Entries R → Prop
  | .nil => True
  | .cons name node rest => rest.find name = none ∧ node.Distinct ∧ rest.Distinct

end

/-- A domain root with what is below it. -/
structure DomainTree (R : Type) where
  root : Path
  node : Node R
  distinct : node.Distinct

namespace DomainTree

/-- The node at an absolute path. -/
def get (tree : DomainTree R) (path : Path) : Option (Node R) :=
  (path.stripPrefix tree.root).bind tree.node.get

/-- `path.is_file()`. -/
def isFile (tree : DomainTree R) (path : Path) : Bool :=
  match tree.get path with
  | some (.file _) => true
  | _ => false

/-- `path.is_dir()`. -/
def isDir (tree : DomainTree R) (path : Path) : Bool :=
  match tree.get path with
  | some (.directory _) => true
  | _ => false

/-- `source::parse`. -/
def parse (tree : DomainTree R) (path : Path) : Except ParseError (SourceFileFacts R) :=
  match tree.get path with
  | some (.file parsed) => parsed
  | _ => .error ⟨1, "could not read " ++ path.display⟩

variable {tree : DomainTree R} {path : Path}

theorem isFile_iff : tree.isFile path = true ↔ ∃ parsed, tree.get path = some (.file parsed) := by
  rw [isFile]
  cases tree.get path with
  | none => simp
  | some node => cases node <;> simp

theorem isDir_iff : tree.isDir path = true ↔ ∃ entries, tree.get path = some (.directory entries) := by
  rw [isDir]
  cases tree.get path with
  | none => simp
  | some node => cases node <;> simp

theorem get_append (rest : Path) : tree.get (tree.root ++ rest) = tree.node.get rest := by
  rw [get, Path.stripPrefix_eq_some.mpr rfl, Option.bind_some]

/-- What is there is below the root. -/
theorem get_eq_some {node : Node R} (h : tree.get path = some node) :
    ∃ rest, path = tree.root ++ rest ∧ tree.node.get rest = some node := by
  rw [get, Option.bind_eq_some_iff] at h
  obtain ⟨rest, hrest, hnode⟩ := h
  exact ⟨rest, Path.stripPrefix_eq_some.mp hrest, hnode⟩

theorem isFile_of_parse {facts : SourceFileFacts R} (h : tree.parse path = .ok facts) :
    tree.isFile path = true := by
  rw [parse] at h
  split at h
  · next parsed heq => exact tree.isFile_iff.mpr ⟨parsed, heq⟩
  · cases h

end DomainTree

theorem Node.get_append (path rest : Path) (node : Node R) :
    node.get (path ++ rest) = (node.get path).bind (·.get rest) := by
  induction path generalizing node with
  | nil => simp [Node.get]
  | cons name path ih =>
    cases node with
    | file parsed => simp [Node.get]
    | directory entries =>
      simp only [List.cons_append, Node.get]
      cases entries.find name with
      | none => rfl
      | some child => exact ih child

/-- What has something below it is a directory. -/
theorem DomainTree.isDir_of_get {tree : DomainTree R} {directory : Path} {name : String} {rest : Path}
    {node : Node R} {below : Path} (hbelow : directory = tree.root ++ below)
    (h : tree.get (directory ++ name :: rest) = some node) : tree.isDir directory = true := by
  subst hbelow
  rw [List.append_assoc, tree.get_append, Node.get_append, Option.bind_eq_some_iff] at h
  obtain ⟨parent, hparent, hnode⟩ := h
  rw [tree.isDir_iff, tree.get_append]
  cases parent with
  | file parsed => cases hnode
  | directory entries => exact ⟨entries, hparent⟩

/-! ## Collection -/

structure DomainSources where
  rustFiles : List Path
  directories : List Path

mutual

/-- What an entry adds to the sources. -/
def Node.collect (path : Path) : Node R → DomainSources
  | .file _ => ⟨if path.extension = some "rs" then [path] else [], []⟩
  | .directory entries =>
    let sources := entries.collectDirectory path
    ⟨sources.rustFiles, path :: sources.directories⟩

/-- `collect_directory`. Reading a directory succeeds, and its order does not matter: `collect`
sorts. -/
def Entries.collectDirectory (directory : Path) : Entries R → DomainSources
  | .nil => ⟨[], []⟩
  | .cons name node rest =>
    let sources := node.collect (directory.join name)
    let others := rest.collectDirectory directory
    ⟨sources.rustFiles ++ others.rustFiles, sources.directories ++ others.directories⟩

end

/-- `collect`. Paths are compared by their components. -/
def DomainTree.collect (tree : DomainTree R) : DomainSources :=
  let sources := tree.node.collect tree.root
  ⟨Lib.sortBy id sources.rustFiles, Lib.sortBy id sources.directories⟩

/-! The sources are the files with the extension `rs`, and all directories. -/

section Collection

variable {P : Option (Node R) → Prop}

/-- Something below the entries of a directory: below the first one, or below one of the others. -/
theorem Entries.exists_cons (base path : Path) {first : String} {node : Node R} {entries : Entries R}
    (hfirst : entries.find first = none) :
    (∃ name other rest, path = base ++ name :: rest ∧
        (Entries.cons first node entries).find name = some other ∧ P (other.get rest)) ↔
      (∃ rest, path = base.join first ++ rest ∧ P (node.get rest)) ∨
        ∃ name other rest, path = base ++ name :: rest ∧ entries.find name = some other ∧
          P (other.get rest) := by
  constructor
  · rintro ⟨name, other, rest, rfl, hother, hget⟩
    rw [Entries.find] at hother
    split at hother
    · next heq =>
      subst heq
      obtain rfl := Option.some.inj hother
      exact .inl ⟨rest, by simp [Path.join], hget⟩
    · exact .inr ⟨name, other, rest, rfl, hother, hget⟩
  · rintro (⟨rest, rfl, hget⟩ | ⟨name, other, rest, rfl, hother, hget⟩)
    · exact ⟨first, node, rest, by simp [Path.join], by simp [Entries.find], hget⟩
    · refine ⟨name, other, rest, rfl, ?_, hget⟩
      have hne : first ≠ name := by
        rintro rfl
        rw [hfirst] at hother
        cases hother
      rw [Entries.find, if_neg hne, hother]

/-- Something at or below a directory. -/
theorem Node.exists_directory (base path : Path) (entries : Entries R) (hnone : ¬ P none) :
    (∃ rest, path = base ++ rest ∧ P ((Node.directory entries).get rest)) ↔
      (path = base ∧ P (some (.directory entries))) ∨
        ∃ name other rest, path = base ++ name :: rest ∧ entries.find name = some other ∧
          P (other.get rest) := by
  constructor
  · rintro ⟨rest, rfl, hget⟩
    cases rest with
    | nil => exact .inl ⟨List.append_nil base, hget⟩
    | cons name rest =>
      rw [Node.get] at hget
      cases hfind : entries.find name with
      | none =>
        rw [hfind] at hget
        exact absurd hget hnone
      | some other =>
        rw [hfind] at hget
        exact .inr ⟨name, other, rest, rfl, hfind, hget⟩
  · rintro (⟨rfl, hget⟩ | ⟨name, other, rest, rfl, hother, hget⟩)
    · exact ⟨[], (List.append_nil path).symm, hget⟩
    · exact ⟨name :: rest, rfl, by rw [Node.get, hother, Option.bind_some]; exact hget⟩

end Collection

/-- A lookup found a file. -/
def IsFile (node : Option (Node R)) : Prop := ∃ parsed, node = some (.file parsed)

/-- A lookup found a directory. -/
def IsDirectory (node : Option (Node R)) : Prop := ∃ entries, node = some (.directory entries)

theorem isFile_get_file (parsed : Except ParseError (SourceFileFacts R)) (rest : Path) :
    IsFile ((Node.file parsed).get rest) ↔ rest = [] := by
  cases rest <;> simp [IsFile, Node.get]

theorem not_isDirectory_get_file (parsed : Except ParseError (SourceFileFacts R)) (rest : Path) :
    ¬ IsDirectory ((Node.file parsed).get rest) := by
  cases rest <;> simp [IsDirectory, Node.get]

mutual

theorem Node.mem_collect (base path : Path) (node : Node R) (h : node.Distinct) :
    (path ∈ (node.collect base).rustFiles ↔ path.extension = some "rs" ∧
      ∃ rest, path = base ++ rest ∧ IsFile (node.get rest)) ∧
    (path ∈ (node.collect base).directories ↔
      ∃ rest, path = base ++ rest ∧ IsDirectory (node.get rest)) := by
  cases node with
  | file parsed =>
    simp only [Node.collect, isFile_get_file, not_isDirectory_get_file]
    by_cases hext : base.extension = some "rs" <;> aesop
  | directory entries =>
    obtain ⟨hfiles, hdirectories⟩ := Entries.mem_collectDirectory base path entries h
    rw [Node.exists_directory base path entries (by simp [IsFile]),
      Node.exists_directory base path entries (by simp [IsDirectory])]
    simp only [Node.collect, hfiles, List.mem_cons, hdirectories]
    simp [IsFile, IsDirectory]

theorem Entries.mem_collectDirectory (base path : Path) (entries : Entries R) (h : entries.Distinct) :
    (path ∈ (entries.collectDirectory base).rustFiles ↔ path.extension = some "rs" ∧
      ∃ name node rest, path = base ++ name :: rest ∧ entries.find name = some node ∧
        IsFile (node.get rest)) ∧
    (path ∈ (entries.collectDirectory base).directories ↔
      ∃ name node rest, path = base ++ name :: rest ∧ entries.find name = some node ∧
        IsDirectory (node.get rest)) := by
  cases entries with
  | nil => simp [Entries.collectDirectory, Entries.find]
  | cons first node entries =>
    obtain ⟨hfirst, hnode, hentries⟩ := h
    have hhead := Node.mem_collect (base.join first) path node hnode
    have hrest := Entries.mem_collectDirectory base path entries hentries
    rw [Entries.exists_cons base path hfirst, Entries.exists_cons base path hfirst, and_or_left]
    simp only [Entries.collectDirectory, List.mem_append]
    exact ⟨or_congr hhead.1 hrest.1, or_congr hhead.2 hrest.2⟩

end

namespace DomainTree

variable {tree : DomainTree R} {path : Path}

/-- A file that `collect` takes for Rust source. -/
def RustFile (tree : DomainTree R) (path : Path) : Prop :=
  tree.isFile path = true ∧ path.extension = some "rs"

theorem exists_get_iff {P : Option (Node R) → Prop} (hnone : ¬ P none) :
    (∃ rest, path = tree.root ++ rest ∧ P (tree.node.get rest)) ↔ P (tree.get path) := by
  constructor
  · rintro ⟨rest, rfl, hget⟩
    rwa [tree.get_append]
  · intro hget
    cases hnode : tree.get path with
    | none =>
      rw [hnode] at hget
      exact absurd hget hnone
    | some node =>
      obtain ⟨rest, hpath, hrest⟩ := tree.get_eq_some hnode
      exact ⟨rest, hpath, by rwa [hrest, ← hnode]⟩

theorem mem_rustFiles : path ∈ tree.collect.rustFiles ↔ tree.RustFile path := by
  rw [collect, Lib.mem_sortBy, (Node.mem_collect tree.root path tree.node tree.distinct).1,
    tree.exists_get_iff (by simp [IsFile]), RustFile, tree.isFile_iff, and_comm]
  rfl

theorem mem_directories : path ∈ tree.collect.directories ↔ tree.isDir path = true := by
  rw [collect, Lib.mem_sortBy, (Node.mem_collect tree.root path tree.node tree.distinct).2,
    tree.exists_get_iff (by simp [IsDirectory]), tree.isDir_iff]
  rfl

end DomainTree

end Rostfrei.Structure
