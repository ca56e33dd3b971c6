import Rostfrei.AgentTools.Resources
import Rostfrei.Crates

/-!
# Releases and baselines

What a kit says of itself, and what an installation leaves behind of it, with their documents
(`release.rs`, and `Baseline` of `transaction.rs`). A baseline is read back from its document
(`Baseline.ofJson?_toJson`).
-/

namespace Rostfrei.AgentTools

open Std Lib

/-! ## Releases -/

theorem toNat_lt_u64 (n : UInt32) : n.toNat < 2 ^ 64 := by
  have hlt := n.toNat_lt
  omega

structure Contracts where
  catalog : UInt32
  behavioralTest : UInt32
  messageSeries : UInt32
  fixture : UInt32
deriving DecidableEq

namespace Contracts

def fields (contracts : Contracts) : List (String × Option Json) :=
  [("catalog", some (.num contracts.catalog.toNat)),
    ("behavioralTest", some (.num contracts.behavioralTest.toNat)),
    ("messageSeries", some (.num contracts.messageSeries.toNat)),
    ("fixture", some (.num contracts.fixture.toNat))]

def toJson (contracts : Contracts) : Json := .obj (Json.sparse contracts.fields)

def keys : List String := ["catalog", "behavioralTest", "messageSeries", "fixture"]

def ofJson? (j : Json) : Option Contracts := do
  let fields ← j.struct? keys
  return {
    catalog := ← Json.required fields "catalog" Json.uint32?
    behavioralTest := ← Json.required fields "behavioralTest" Json.uint32?
    messageSeries := ← Json.required fields "messageSeries" Json.uint32?
    fixture := ← Json.required fields "fixture" Json.uint32? }

theorem keys_nodup : keys.Nodup := by decide

@[simp] theorem ofJson?_toJson (contracts : Contracts) : ofJson? contracts.toJson = some contracts := by
  have hlookup : ∀ key, (Json.sparse contracts.fields).lookup key = (contracts.fields.lookup key).join :=
    Json.lookup_sparse keys_nodup
  unfold ofJson? toJson
  rw [Json.struct?_sparse keys_nodup rfl, Option.bind_eq_bind, Option.bind_some]
  simp only [Json.required, hlookup]
  simp (disch := decide) only [fields, List.lookup_cons_self, Json.lookup_cons_of_ne, Option.join_some,
    Option.bind_some, Json.uint32?_num]
  rfl

theorem fits_toJson (contracts : Contracts) (d : Nat) : contracts.toJson.Fits (d + 1) := by
  refine Json.fits_sparse ?_
  simpa [fields] using ⟨toNat_lt_u64 contracts.catalog, toNat_lt_u64 contracts.behavioralTest,
    toNat_lt_u64 contracts.messageSeries, toNat_lt_u64 contracts.fixture⟩

end Contracts

structure Release where
  kitVersion : UInt32
  frameworkVersion : String
  sourceRevision : String
  sourceTreeDirty : Bool
  sourceFingerprint : Option String
  contracts : Contracts
  skills : List String
deriving DecidableEq

namespace Release

def fields (release : Release) : List (String × Option Json) :=
  [("kitVersion", some (.num release.kitVersion.toNat)),
    ("frameworkVersion", some (.str release.frameworkVersion)),
    ("sourceRevision", some (.str release.sourceRevision)),
    ("sourceTreeDirty", some (.bool release.sourceTreeDirty)),
    ("sourceFingerprint", release.sourceFingerprint.map .str),
    ("contracts", some release.contracts.toJson),
    ("skills", some (.arr (release.skills.map .str)))]

def toJson (release : Release) : Json := .obj (Json.sparse release.fields)

def keys : List String := ["kitVersion", "frameworkVersion", "sourceRevision", "sourceTreeDirty",
  "sourceFingerprint", "contracts", "skills"]

def ofJson? (j : Json) : Option Release := do
  let fields ← j.struct? keys
  return {
    kitVersion := ← Json.required fields "kitVersion" Json.uint32?
    frameworkVersion := ← Json.required fields "frameworkVersion" Json.str?
    sourceRevision := ← Json.required fields "sourceRevision" Json.str?
    sourceTreeDirty := ← Json.required fields "sourceTreeDirty" Json.bool?
    sourceFingerprint := ← Json.optional fields "sourceFingerprint" Json.str?
    contracts := ← Json.required fields "contracts" Contracts.ofJson?
    skills := ← Json.required fields "skills" (Json.array? Json.str?) }

theorem keys_nodup : keys.Nodup := by decide

@[simp] theorem ofJson?_toJson (release : Release) : ofJson? release.toJson = some release := by
  have hlookup : ∀ key, (Json.sparse release.fields).lookup key = (release.fields.lookup key).join :=
    Json.lookup_sparse keys_nodup
  have hfingerprint := Json.optionalOf_map release.sourceFingerprint (fun s _ => Json.str?_str s)
    fun _ => Json.noConfusion
  have hskills : Json.array? Json.str? (.arr (release.skills.map .str)) = some release.skills :=
    Json.array?_map fun s _ => Json.str?_str s
  unfold ofJson? toJson
  rw [Json.struct?_sparse keys_nodup rfl, Option.bind_eq_bind, Option.bind_some]
  simp only [Json.required, Json.optional, hlookup]
  simp (disch := decide) only [fields, List.lookup_cons_self, Json.lookup_cons_of_ne, Option.join_some,
    Option.bind_some, Json.uint32?_num, Json.str?_str, Json.bool?_bool, Contracts.ofJson?_toJson,
    hfingerprint, hskills]
  rfl

theorem fits_toJson (release : Release) (d : Nat) : release.toJson.Fits (d + 2) := by
  refine Json.fits_sparse ?_
  simpa [fields, Contracts.fits_toJson] using toNat_lt_u64 release.kitVersion

end Release

/-! ## Baselines -/

structure Baseline where
  stateVersion : UInt32
  release : Release
  sha256 : ExtTreeMap Key String compare
deriving DecidableEq

namespace Baseline

def resources (sha256 : ExtTreeMap Key String compare) : Json :=
  .obj (sha256.toList.map fun (key, digest) => (key.display, .str digest))

def fields (state : Baseline) : List (String × Option Json) :=
  [("stateVersion", some (.num state.stateVersion.toNat)), ("release", some state.release.toJson),
    ("sha256", some (resources state.sha256))]

def toJson (state : Baseline) : Json := .obj (Json.sparse state.fields)

def keys : List String := ["stateVersion", "release", "sha256"]

/-- The parts of a resource path. -/
def parts (path : String) : Key := (path.toList.splitOn '/').map String.ofList

/-- A map of texts. Of a repeated key the last value counts. -/
def resources? : Json → Option (ExtTreeMap Key String compare)
  | .obj fields => do
    let entries ← fields.mapM fun (path, value) => (Json.str? value).map (parts path, ·)
    return ExtTreeMap.ofList entries
  | _ => none

def ofJson? (j : Json) : Option Baseline := do
  let fields ← j.struct? keys
  return {
    stateVersion := ← Json.required fields "stateVersion" Json.uint32?
    release := ← Json.required fields "release" Release.ofJson?
    sha256 := ← Json.required fields "sha256" resources? }

theorem keys_nodup : keys.Nodup := by decide

/-- The paths are texts cut at their slashes. -/
def WellSpelled (state : Baseline) : Prop :=
  ∀ key ∈ state.sha256, key ≠ [] ∧ ∀ part ∈ key, '/' ∉ part.toList

theorem parts_display {key : Key} (hne : key ≠ []) (hkey : ∀ part ∈ key, '/' ∉ part.toList) :
    parts key.display = key := by
  have htext : key.display.toList = ['/'].intercalate (key.map String.toList) := by
    simp [Key.display, String.toList_intercalate]
  rw [parts, htext, List.splitOn_intercalate '/' (by simpa using hkey) (by simpa using hne)]
  simp

theorem resources?_resources {sha256 : ExtTreeMap Key String compare}
    (h : ∀ key ∈ sha256, key ≠ [] ∧ ∀ part ∈ key, '/' ∉ part.toList) :
    resources? (resources sha256) = some sha256 := by
  have hmem : ∀ entry ∈ sha256.toList, sha256[entry.1]? = some entry.2 :=
    fun entry hentry => ExtTreeMap.mem_toList_iff_getElem?_eq_some.mp hentry
  have hall : ∀ entries : List (Key × String),
      (∀ entry ∈ entries, entry.1 ≠ [] ∧ ∀ part ∈ entry.1, '/' ∉ part.toList) →
      (entries.map fun (key, digest) => (key.display, Json.str digest)).mapM
        (fun (path, value) => (Json.str? value).map (parts path, ·)) = some entries := by
    intro entries hentries
    induction entries with
    | nil => rfl
    | cons entry entries ih =>
      obtain ⟨hne, hslash⟩ := hentries entry List.mem_cons_self
      have hrest := ih fun other hother => hentries other (List.mem_cons_of_mem _ hother)
      simp [List.mapM_cons, parts_display hne hslash, hrest]
  rw [resources, resources?, hall sha256.toList fun entry hentry => h entry.1 (by
    rw [ExtTreeMap.mem_iff_isSome_getElem?, hmem entry hentry, Option.isSome_some])]
  refine congrArg some (ExtTreeMap.ext_getElem? fun key => Option.ext fun digest => ?_)
  rw [getElem?_ofList hmem, ExtTreeMap.mem_toList_iff_getElem?_eq_some]

theorem ofJson?_toJson {state : Baseline} (h : state.WellSpelled) :
    ofJson? state.toJson = some state := by
  have hlookup : ∀ key, (Json.sparse state.fields).lookup key = (state.fields.lookup key).join :=
    Json.lookup_sparse keys_nodup
  unfold ofJson? toJson
  rw [Json.struct?_sparse keys_nodup rfl, Option.bind_eq_bind, Option.bind_some]
  simp only [Json.required, hlookup]
  simp (disch := decide) only [fields, List.lookup_cons_self, Json.lookup_cons_of_ne, Option.join_some,
    Option.bind_some, Json.uint32?_num, Release.ofJson?_toJson, resources?_resources h]
  rfl

theorem fits_toJson (state : Baseline) : state.toJson.Fits maxJsonDepth := by
  have hresources : (resources state.sha256).Fits 126 := by
    rw [resources, Json.fits_obj]
    intro field hfield
    obtain ⟨entry, -, rfl⟩ := List.mem_map.mp hfield
    exact Json.fits_str _ _
  refine Json.fits_sparse ?_
  simpa [fields, Release.fits_toJson state.release 124, hresources] using
    toNat_lt_u64 state.stateVersion

end Baseline

/-- `to_vec_pretty` of `serde_json`. It reads what it writes. -/
structure Pretty [Crates] where
  toVecPretty : Json → Bytes
  fromSlice_toVecPretty : ∀ j : Json, j.Fits maxJsonDepth → fromSlice (toVecPretty j) = some j

namespace Pretty

variable [Crates]

/-- `serde_json::to_vec_pretty` of a baseline. -/
def encode (pretty : Pretty) (state : Baseline) : Bytes := pretty.toVecPretty state.toJson

end Pretty

variable [Crates]

/-- `serde_json::from_slice` of a baseline. -/
def Baseline.decode (bytes : Bytes) : Option Baseline := (fromSlice bytes).bind Baseline.ofJson?

theorem Pretty.decode_encode (pretty : Pretty) {state : Baseline} (h : state.WellSpelled) :
    Baseline.decode (pretty.encode state) = some state := by
  rw [Baseline.decode, Pretty.encode, pretty.fromSlice_toVecPretty _ state.fits_toJson, Option.bind_some,
    Baseline.ofJson?_toJson h]

end Rostfrei.AgentTools
