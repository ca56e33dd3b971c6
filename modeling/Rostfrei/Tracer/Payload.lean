import Rostfrei.Concrete
import Rostfrei.Fixtures.Fixture
import Rostfrei.Lib.JsonCompact
import Rostfrei.Runtime.Canonical

/-!
# Three canonical writers

The runtime (`canonical_json_bytes`), the tracer (`write_canonical_json` of `transport.rs`) and the
fixtures (`write_canonical_json`) each write a document with the keys of its objects sorted. The
three differ in how they count the entries, in whether a scalar is written by `to_writer` or through
its `Display` text, and in the literals that the fixtures write themselves.

`canonical_writers_exact`: they write the same bytes; the bytes are those of another document if and
only if the two are equal up to the order of keys, and they are read back up to that order; and the
tracer's execution fingerprint is that of the runtime.
-/

namespace Rostfrei

open Lib

/-! ## The loops -/

/-- A loop over the entries with their indices. -/
def writeIndexed (entries : List (Bytes → Bytes)) (output : Bytes) : Bytes :=
  entries.zipIdx.foldl (fun output entry =>
    entry.1 (if entry.2 > 0 then output ++ [0x2c] else output)) output

/-- A loop over the entries with a flag for the first one. -/
def writeFlagged (entries : List (Bytes → Bytes)) (output : Bytes) : Bytes :=
  (entries.foldl (fun state entry =>
    (false, entry (if state.1 then state.2 else state.2 ++ [0x2c]))) (true, output)).2

/-- From the second entry on, both loops put a comma before each. -/
theorem writeIndexed_pieces (pieces : List Bytes) (output : Bytes) :
    writeIndexed (pieces.map fun piece output => output ++ piece) output =
      output ++ joinComma pieces := by
  have htail : ∀ (pieces : List Bytes) (index : Nat) (output : Bytes), index > 0 →
      ((pieces.map fun piece (output : Bytes) => output ++ piece).zipIdx index).foldl
        (fun output entry => entry.1 (if entry.2 > 0 then output ++ [0x2c] else output)) output =
          output ++ pieces.flatMap (0x2c :: ·) := by
    intro pieces
    induction pieces with
    | nil => simp
    | cons piece pieces ih =>
      intro index output hindex
      rw [List.map_cons, List.zipIdx_cons, List.foldl_cons, if_pos hindex, ih _ _ (by omega)]
      simp
  cases pieces with
  | nil => simp [writeIndexed, joinComma]
  | cons piece pieces =>
    rw [writeIndexed, List.map_cons, List.zipIdx_cons, List.foldl_cons, if_neg (by simp),
      htail _ _ _ (by omega), joinComma, List.append_assoc]

theorem writeFlagged_pieces (pieces : List Bytes) (output : Bytes) :
    writeFlagged (pieces.map fun piece output => output ++ piece) output =
      output ++ joinComma pieces := by
  have htail : ∀ (pieces : List Bytes) (output : Bytes),
      (pieces.map fun piece (output : Bytes) => output ++ piece).foldl (fun state entry =>
        (false, entry (if state.1 then state.2 else state.2 ++ [0x2c]))) (false, output) =
          (false, output ++ pieces.flatMap (0x2c :: ·)) := by
    intro pieces
    induction pieces with
    | nil => simp
    | cons piece pieces ih =>
      intro output
      rw [List.map_cons, List.foldl_cons, if_neg Bool.false_ne_true, ih]
      simp
  cases pieces with
  | nil => simp [writeFlagged, joinComma]
  | cons piece pieces =>
    rw [writeFlagged, List.map_cons, List.foldl_cons, if_pos rfl, htail, joinComma,
      List.append_assoc]

section Writers

variable [Crates]

/-! ## The writers -/

/-- `write_value` of `canonical_json_bytes`. -/
def Runtime.writeValueTo : Json → Bytes → Bytes :=
  Json.writeTo writeIndexed toVec fun name => toVec (.str name)

/-- `command_execution_fingerprint`. -/
def Runtime.commandExecutionFingerprint (boundedContext command : String) (schemaVersion : UInt32)
    (payload : Json) : ContentFingerprint :=
  routedCommandExecutionFingerprint boundedContext ⟨command, schemaVersion, payload, false⟩ none

/-- `write_canonical_json` of the tracer, for a `Display` text of values. -/
def Tracer.writeCanonicalJson (display : Json → String) : Json → Bytes → Bytes :=
  Json.writeTo writeIndexed (fun value => utf8 (display value)) fun name => utf8 (display (.str name))

/-- `canonical_json_payload`. -/
def Tracer.canonicalJsonPayload (display : Json → String) (value : Json) : Bytes :=
  writeCanonicalJson display value []

/-- `framed_fingerprint` of the tracer. -/
def Tracer.framedFingerprint (values : List Bytes) : ContentFingerprint :=
  .digest (values.foldl (fun framed value => framed ++ beBytes 8 value.length ++ value) [])

/-- `command_execution_fingerprint` of the tracer. -/
def Tracer.commandExecutionFingerprint (display : Json → String) (context command : String)
    (schemaVersion : UInt32) (payload : Json) : ContentFingerprint :=
  framedFingerprint [utf8 "rostfrei:command-execution:v2", utf8 context, utf8 command,
    beBytes 4 schemaVersion.toNat, canonicalJsonPayload display payload, [0]]

/-- A scalar as the fixtures write it. -/
def Fixtures.writeScalar (display : Json → String) : Json → Bytes
  | .null => utf8 "null"
  | .bool value => utf8 (if value then "true" else "false")
  | .str value => toVec (.str value)
  | value => utf8 (display value)

/-- `write_canonical_json` of the fixtures. -/
def Fixtures.writeCanonicalJson (display : Json → String) : Json → Bytes → Bytes :=
  Json.writeTo writeFlagged (writeScalar display) fun name => toVec (.str name)

/-- What the writers rely on where `serde_json` prints a scalar: `to_string` and `to_writer` print
the same text, `null`, `true` and `false` are the literals, and the texts can be told apart. -/
structure Scalars (display : Json → String) : Prop where
  display : ∀ j : Json, j.IsScalar → utf8 (display j) = toVec j
  null : toVec .null = utf8 "null"
  bool : ∀ b, toVec (.bool b) = utf8 (if b then "true" else "false")
  readable : Json.Readable toVec

/-- A JSON value without floating-point numbers. -/
structure JsonValue where
  document : Json
  distinct : document.Distinct
  fits : document.Fitting

/-! ## One text -/

/-- What the runtime writes is the compact text of the canonical document. -/
theorem Runtime.writeValue_eq_compact (j : Json) :
    writeValue j = Json.compact toVec j.canonical := by
  induction j using Json.induct with
  | harr items ih =>
    rw [writeValue, writeItems_eq, Json.canonical_arr, Json.compact_arr, List.map_map,
      List.map_congr_left ih]
    rfl
  | hobj fields ih =>
    have hmap : (fields.map fun f => (f.1, writeValue f.2)) =
        fields.map fun f => (f.1, Json.compact toVec f.2.canonical) :=
      List.map_congr_left fun f hf => congrArg (Prod.mk f.1) (ih f hf)
    rw [writeValue, writeFields_eq, hmap,
      Json.sortByKey_map (fun j => Json.compact toVec (Json.canonical j)), Json.canonical_obj,
      Json.compact_obj, List.map_map, List.map_map]
    rfl
  | hnull => rw [writeValue, Json.canonical, Json.compact]
  | hbool b => rw [writeValue, Json.canonical, Json.compact]
  | hnum n => rw [writeValue, Json.canonical, Json.compact]
  | hneg n => rw [writeValue, Json.canonical, Json.compact]
  | hstr s => rw [writeValue, Json.canonical, Json.compact]

/-- The loop of the runtime writes the same. -/
theorem Runtime.writeValueTo_eq (j : Json) (output : Bytes) :
    writeValueTo j output = output ++ canonicalJsonBytes j := by
  rw [canonicalJsonBytes, writeValue_eq_compact]
  exact Json.writeTo_eq (fun _ _ => rfl) (fun _ => rfl) writeIndexed_pieces j output

section Scalars

variable {display : Json → String}

theorem Tracer.canonicalJsonPayload_eq (hscalars : Scalars display) (j : Json) :
    canonicalJsonPayload display j = Runtime.canonicalJsonBytes j := by
  rw [Runtime.canonicalJsonBytes, Runtime.writeValue_eq_compact]
  exact Json.writeTo_eq hscalars.display (fun s => hscalars.display _ (by trivial))
    writeIndexed_pieces j []

theorem Fixtures.writeScalar_eq (hscalars : Scalars display) (j : Json) (h : j.IsScalar) :
    writeScalar display j = toVec j := by
  cases j with
  | null => exact hscalars.null.symm
  | bool b => exact (hscalars.bool b).symm
  | str s => rfl
  | num n => exact hscalars.display (.num n) h
  | neg n => exact hscalars.display (.neg n) h
  | arr | obj => exact h.elim

theorem Fixtures.writeCanonicalJson_eq (hscalars : Scalars display) (j : Json) :
    writeCanonicalJson display j [] = Runtime.canonicalJsonBytes j := by
  rw [Runtime.canonicalJsonBytes, Runtime.writeValue_eq_compact]
  exact Json.writeTo_eq (writeScalar_eq hscalars) (fun _ => rfl) writeFlagged_pieces j []

theorem Tracer.framedFingerprint_eq (values : List Bytes) :
    framedFingerprint values = Runtime.framedFingerprint values := by
  have hfold : ∀ (values : List Bytes) (framed : Bytes),
      values.foldl (fun framed value => framed ++ beBytes 8 value.length ++ value) framed =
        framed ++ frames values := by
    intro values
    induction values with
    | nil => simp
    | cons value values ih =>
      intro framed
      rw [List.foldl_cons, ih, frames_cons, frame]
      simp only [List.append_assoc]
  rw [framedFingerprint, Runtime.framedFingerprint, hfold, List.nil_append]

theorem Tracer.commandExecutionFingerprint_eq (hscalars : Scalars display) (context command : String)
    (schemaVersion : UInt32) (payload : Json) :
    commandExecutionFingerprint display context command schemaVersion payload =
      Runtime.commandExecutionFingerprint context command schemaVersion payload := by
  rw [commandExecutionFingerprint, framedFingerprint_eq, canonicalJsonPayload_eq hscalars]
  rfl

theorem Runtime.canonicalJsonBytes_eq_iff (hscalars : Scalars display) (i j : JsonValue) :
    canonicalJsonBytes i.document = canonicalJsonBytes j.document ↔
      Json.Reordered i.document j.document := by
  rw [← Json.canonical_eq_iff_reordered i.distinct]
  constructor
  · intro h
    rw [canonicalJsonBytes, canonicalJsonBytes, writeValue_eq_compact, writeValue_eq_compact] at h
    obtain ⟨d, hd⟩ := i.fits
    obtain ⟨e, he⟩ := j.fits
    exact Json.compact_inj hscalars.readable ⟨d, (Json.fits_canonical d _).mpr hd⟩
      ⟨e, (Json.fits_canonical e _).mpr he⟩ h
  · intro h
    rw [canonicalJsonBytes, canonicalJsonBytes, writeValue_eq_compact, writeValue_eq_compact, h]

/-- A reader of a nesting reads the compact text of every document as it is, up to the order of
keys. -/
def Reads (parse : Bytes → Option Json) (depth : Nat) : Prop :=
  ∀ k : Json, k.Fits depth → k.Distinct →
    ∃ k', parse (k.compact toVec) = some k' ∧ Json.Reordered k k'

/-- The bytes are the compact text of the canonical form, which is read back. -/
theorem Runtime.canonicalJsonBytes_read {parse : Bytes → Option Json} {depth : Nat}
    (hparse : Reads parse depth) (i : JsonValue) (hi : i.document.Fits depth) :
    ∃ k, parse (canonicalJsonBytes i.document) = some k ∧ Json.Reordered i.document k := by
  obtain ⟨k, hk, hreordered⟩ := hparse i.document.canonical ((Json.fits_canonical depth _).mpr hi)
    (Json.distinct_canonical i.distinct)
  rw [canonicalJsonBytes, writeValue_eq_compact]
  refine ⟨k, hk, Json.reordered_of_canonical_eq ?_⟩
  rw [← Json.canonical_eq_of_reordered (Json.distinct_canonical i.distinct) hreordered,
    Json.canonical_canonical]

theorem compact_toVec [Crates.Compact] (j : Json) : j.compact toVec = toVec j := by
  induction j using Json.induct with
  | harr items ih =>
    rw [Json.compact_arr, List.map_congr_left ih, Crates.Compact.toVec_arr]
  | hobj fields ih =>
    have hfields : fields.map (Json.compactField toVec) =
        fields.map fun f => toVec (.str f.1) ++ 0x3a :: toVec f.2 :=
      List.map_congr_left fun f hf => by rw [Json.compactField, ih f hf]
    rw [Json.compact_obj, hfields, Crates.Compact.toVec_obj]
  | hnull => rw [Json.compact]
  | hbool b => rw [Json.compact]
  | hnum n => rw [Json.compact]
  | hneg n => rw [Json.compact]
  | hstr s => rw [Json.compact]

/-- `from_slice` is a reader of its nesting limit. -/
theorem reads_fromSlice [Crates.Compact] [Crates.Lawful] : Reads fromSlice maxJsonDepth := by
  intro k hk _
  rw [compact_toVec, Crates.Lawful.fromSlice_toVec k hk]
  exact ⟨k, rfl, Json.reordered_of_canonical_eq rfl⟩

end Scalars

/-- The canonical bytes of two values are equal if and only if the values are, up to the order of
keys at every depth. A reader of documents as nested as the value reads it back up to that order. The
three writers write the same bytes, onto any output, and the fingerprints of an execution agree. -/
theorem canonical_writers_exact {display : Json → String} (hscalars : Scalars display)
    (i j : JsonValue) :
    (Runtime.canonicalJsonBytes i.document = Runtime.canonicalJsonBytes j.document ↔
      Json.Reordered i.document j.document) ∧
    (∀ (parse : Bytes → Option Json) (depth : Nat), Reads parse depth → i.document.Fits depth →
      ∃ k, parse (Runtime.canonicalJsonBytes i.document) = some k ∧
        Json.Reordered i.document k) ∧
    Runtime.writeValueTo i.document [] = Runtime.canonicalJsonBytes i.document ∧
    Tracer.canonicalJsonPayload display i.document = Runtime.canonicalJsonBytes i.document ∧
    Fixtures.writeCanonicalJson display i.document [] = Runtime.canonicalJsonBytes i.document ∧
    ∀ context command schemaVersion,
      Tracer.commandExecutionFingerprint display context command schemaVersion i.document =
        Runtime.commandExecutionFingerprint context command schemaVersion i.document :=
  ⟨Runtime.canonicalJsonBytes_eq_iff hscalars i j,
    fun _ _ hparse hi => Runtime.canonicalJsonBytes_read hparse i hi,
    Runtime.writeValueTo_eq _ [], Tracer.canonicalJsonPayload_eq hscalars _,
    Fixtures.writeCanonicalJson_eq hscalars _,
    fun context command schemaVersion =>
      Tracer.commandExecutionFingerprint_eq hscalars context command schemaVersion _⟩

end Writers

namespace Sample

attribute [local instance] Crates.concrete Crates.concrete_lawful Crates.concrete_compact

/-- The printer's text of a value. -/
def display (j : Json) : String := String.ofList j.print

theorem scalars_display : Scalars display where
  display j _ := utf8_ofList _
  null := by decide +kernel
  bool b := by cases b <;> decide +kernel
  readable := Json.readable_print

/-- Limits, and the same with its keys in another order. -/
def limits (swapped : Bool) : JsonValue where
  document := if swapped then .obj [("owner", .str "clerk"), ("limits", .obj [("day", .num 5),
      ("all", .null)])]
    else .obj [("limits", .obj [("all", .null), ("day", .num 5)]), ("owner", .str "clerk")]
  distinct := by cases swapped <;> simp [Json.distinct_obj, Json.Distinct, Json.DistinctFields]
  fits := ⟨2, by cases swapped <;> simp⟩

theorem canonical_writers_exact_swapped :
    Runtime.canonicalJsonBytes (limits true).document =
        Runtime.canonicalJsonBytes (limits false).document ∧
      ∃ k, fromSlice (Runtime.canonicalJsonBytes (limits true).document) = some k ∧
        Json.Reordered (limits true).document k := by
  obtain ⟨hiff, hread, -⟩ := canonical_writers_exact scalars_display (limits true) (limits false)
  refine ⟨hiff.mpr (Json.reordered_of_canonical_eq (by decide +kernel)),
    hread fromSlice maxJsonDepth reads_fromSlice ?_⟩
  simp [limits, maxJsonDepth]

end Sample

end Rostfrei
