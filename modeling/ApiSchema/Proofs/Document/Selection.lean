/-
Selecting the listed schemas.

A document lists its component schemas by the names of their keys, and a name is
looked up as a text.  The reference to a name is read back as the name, whatever
characters it has, so a schema whose key is a text selects itself.  A key that is
no text has a name as well, but under the name stands the schema of another key,
or none.
-/
import ApiSchema.Conversion
import ApiSchema.Proofs.Document.Components
import ApiSchema.Proofs.KeyOrder
import ApiSchema.Proofs.Pointer
import ApiSchema.Proofs.Reference.Graph
import ApiSchema.Proofs.Yaml.DistinctKeys

namespace ApiSchema

namespace Document

variable {root schemas : Entries} {name : String}

/-! ### The reference to a name -/

/-- The text of a reference, cut where its pointer has slashes. -/
theorem toList_schemaReference (name : String) :
    (schemaReference name).toList =
      '#' :: '/' :: ("components".toList ++ '/' ::
        ("schemas".toList ++ '/' :: Pointer.encode name.toList)) := by
  have hstart : "#/components/schemas/".toList =
      '#' :: '/' :: ("components".toList ++ '/' :: ("schemas".toList ++ ['/'])) := by simp
  unfold schemaReference
  simp only [Pointer.escape, String.toList_append, String.toList_ofList, hstart,
    List.cons_append, List.append_assoc, List.nil_append]

/-- A name is read back from the reference to it. -/
theorem parse?_schemaReference (name : String) :
    Pointer.parse? (schemaReference name) =
      some ⟨schemaReference name, ["components", "schemas", name]⟩ := by
  have hpieces : Text.pieces '/' ("components".toList ++ '/' ::
      ("schemas".toList ++ '/' :: Pointer.encode name.toList)) =
      ["components".toList, "schemas".toList, Pointer.encode name.toList] := by
    rw [Text.pieces_append_separator (by decide), Text.pieces_append_separator (by decide),
      Text.pieces_of_not_mem (Pointer.slash_not_mem_encode _)]
  have hcomponents : Pointer.decode "components".toList = "components".toList := by decide
  have hschemas : Pointer.decode "schemas".toList = "schemas".toList := by decide
  simp only [Pointer.parse?, toList_schemaReference, hpieces, List.map_cons, List.map_nil,
    hcomponents, hschemas, Pointer.decode_encode, String.ofList_toList]

theorem supportedPointer_schemaReference (name : String) :
    supportedPointer defaultAreas (schemaReference name) =
      .ok ⟨schemaReference name, ["components", "schemas", name]⟩ := by
  have hareas : defaultAreas.mapM localPointer =
      .ok [⟨"#/components/schemas", ["components", "schemas"]⟩] := rfl
  have hbelow : Pointer.isBelow ⟨schemaReference name, ["components", "schemas", name]⟩
      ⟨"#/components/schemas", ["components", "schemas"]⟩ = true := rfl
  have hpointer : localPointer (schemaReference name) =
      .ok ⟨schemaReference name, ["components", "schemas", name]⟩ := by
    rw [localPointer, parse?_schemaReference]
  refine bind_eq_ok.mpr ⟨_, hpointer, bind_eq_ok.mpr ⟨_, hareas, ?_⟩⟩
  rw [List.any_cons, hbelow, Bool.true_or, if_pos rfl]
  rfl

/-! ### What stands under a name -/

/-- The reference to a name leads to what stands under the name, as a text, among the component
schemas. -/
theorem resolve_schemaReference (hschemas : componentSchemas? root = some schemas) (name : String) :
    resolve (.mapping root) defaultAreas (.reference (schemaReference name)) =
      (follow (.mapping schemas) ["components", "schemas"] [name]).mapError
        (.missing (schemaReference name)) := by
  obtain ⟨components, hcomponents, hentries⟩ := componentSchemas?_eq_some_iff.mp hschemas
  have hfollow : follow (.mapping root) [] ["components", "schemas", name] =
      follow (.mapping schemas) ["components", "schemas"] [name] := by
    simp only [follow, Value.child?, hcomponents, hentries]
    rfl
  rw [resolve_reference, resolveText, supportedPointer_schemaReference]
  simp only [bind, Except.bind, hfollow]
  cases follow (.mapping schemas) ["components", "schemas"] [name] <;> rfl

/-- In a document with distinct keys, a schema whose key is a text selects itself. -/
theorem resolve_of_mem (hroot : DistinctKeys (.mapping root))
    (hschemas : componentSchemas? root = some schemas) {v : Value}
    (hmem : (.str name, v) ∈ schemas) :
    resolve (.mapping root) defaultAreas (.reference (schemaReference name)) = .ok v := by
  obtain ⟨components, hcomponents, hentries⟩ := componentSchemas?_eq_some_iff.mp hschemas
  have hdistinct : DistinctKeys (.mapping schemas) :=
    DistinctKeys.hereditary.get? (DistinctKeys.hereditary.get? hroot hcomponents) hentries
  have hchild : (Value.mapping schemas).child? name = some v := hdistinct.distinct.get?_of_mem hmem
  rw [resolve_schemaReference hschemas]
  simp only [follow, hchild, mapError_ok]

theorem resolve_of_not_mem (hschemas : componentSchemas? root = some schemas)
    (hnone : ∀ w, (.str name, w) ∉ schemas) :
    resolve (.mapping root) defaultAreas (.reference (schemaReference name)) =
      .error (.missing (schemaReference name) ["components", "schemas", name]) := by
  have hchild : (Value.mapping schemas).child? name = none := by
    cases hw : (Value.mapping schemas).child? name with
    | none => rfl
    | some w => exact absurd (Entries.mem_of_get? hw) (hnone w)
  rw [resolve_schemaReference hschemas]
  simp only [follow, hchild, mapError_error, List.cons_append, List.nil_append]

end Document

namespace Conversion

open Document

variable {text : String} {root schemas : Entries} {document v : Value} {name : String}
  {settings : ReferenceSettings}

/-! ### Converting all of them -/

/-- Converts the schema that a name has selected. -/
def convertValue (document : Value) (settings : ReferenceSettings) (name : String) (v : Value) :
    Except (Failure ConversionError) ConvertedSchema := do
  let inlined := if settings.inline then (inline document settings.areas v).result else .ok v
  let schema ← inlined.mapError (Failure.map .reference)
  let entries ← (mapLogged name schema).result
  return ⟨name, .mapping entries⟩

theorem result_convertSchema
    (h : resolve document settings.areas (.reference (schemaReference name)) = .ok v) :
    (convertSchema document settings name).result = convertValue document settings name v := by
  have hlogged := result_resolveLogged_eq_ok_iff.mpr h
  simp only [convertSchema, Traced.result_bind, Traced.mapError, hlogged]
  rw [convertValue]
  cases settings.inline <;> rfl

/-- **A listed schema whose key is a text selects itself**, whatever characters the text has, and a
conversion of all schemas converts each of them under its key.  A key that is no text selects the
schema of the text that is its name, or none. -/
theorem converts_listed [Loader] [LawfulLoader] (hload : Loader.load text = .ok (.mapping root))
    (hschemas : componentSchemas? root = some schemas) :
    (∀ k v, (k, v) ∈ schemas →
      (k.isText = true →
        resolve (.mapping root) defaultAreas (.reference (schemaReference k.name)) = .ok v) ∧
      (k.isText = false →
        (∃ w, (.str k.name, w) ∈ schemas ∧
          resolve (.mapping root) defaultAreas (.reference (schemaReference k.name)) = .ok w) ∨
        (∀ w, (.str k.name, w) ∉ schemas) ∧
          resolve (.mapping root) defaultAreas (.reference (schemaReference k.name)) =
            .error (.missing (schemaReference k.name) ["components", "schemas", k.name]))) ∧
    ∀ settings : ReferenceSettings, settings.areas = defaultAreas →
      (∀ k ∈ Entries.keys schemas, k.isText = true) →
        ((schemaNames root).mapM (convertSchema (.mapping root) settings)).result =
          schemas.mapM fun e => convertValue (.mapping root) settings e.1.name e.2 := by
  have hroot : DistinctKeys (.mapping root) := LawfulLoader.distinctKeys hload
  have htext (k : Scalar) (v : Value) (hmem : (k, v) ∈ schemas) (hk : k.isText = true) :
      resolve (.mapping root) defaultAreas (.reference (schemaReference k.name)) = .ok v :=
    resolve_of_mem hroot hschemas (Scalar.eq_str_name hk ▸ hmem)
  refine ⟨fun k v hmem => ⟨htext k v hmem, fun _ => ?_⟩, fun settings hareas hkeys => ?_⟩
  · by_cases hother : ∃ w, (.str k.name, w) ∈ schemas
    · obtain ⟨w, hw⟩ := hother
      exact .inl ⟨w, hw, resolve_of_mem hroot hschemas hw⟩
    · have hnone (w : Value) : (.str k.name, w) ∉ schemas := fun hw => hother ⟨w, hw⟩
      exact .inr ⟨hnone, resolve_of_not_mem hschemas hnone⟩
  · have hnames : schemaNames root = schemas.map fun e => e.1.name := by
      rw [schemaNames, schemaKeys, hschemas]
      exact List.map_map
    rw [Traced.result_mapM, hnames, List.mapM_map]
    refine mapM_congr fun e he => result_convertSchema ?_
    rw [hareas]
    exact htext e.1 e.2 he (hkeys e.1 (List.mem_map_of_mem he))

/-- A document that has nothing but component schemas. -/
def rootOf (schemas : Entries) : Entries :=
  [(.str "components", .mapping [(.str "schemas", .mapping schemas)])]

/-- Two schemas, one whose name is full of marks and one with an empty name. -/
def markedSchemas : Entries :=
  [(.str "a/b~1", .mapping [(.str "type", .str "object")]), (.str "", .mapping [])]

/-- Their document as it is written. -/
def markedText : String :=
  "components: \x7bschemas: \x7b'a/b~1': \x7btype: object\x7d, '': \x7b\x7d\x7d\x7d"

theorem converts_listed_marked :
    resolve (.mapping (rootOf markedSchemas)) defaultAreas
          (.reference "#/components/schemas/a~1b~01") =
        .ok (.mapping [(.str "type", .str "object")]) ∧
      ((schemaNames (rootOf markedSchemas)).mapM
          (convertSchema (.mapping (rootOf markedSchemas)) {})).result =
        markedSchemas.mapM fun e =>
          convertValue (.mapping (rootOf markedSchemas)) {} e.1.name e.2 := by
  have hload : Loader.load markedText = .ok (.mapping (rootOf markedSchemas)) :=
    toOption_eq_some_iff.mp (by decide +kernel)
  have hschemas : componentSchemas? (rootOf markedSchemas) = some markedSchemas := rfl
  obtain ⟨hselects, hconverts⟩ := converts_listed hload hschemas
  have hfirst : (.str "a/b~1", .mapping [(.str "type", .str "object")]) ∈ markedSchemas := by
    simp [markedSchemas]
  exact ⟨(hselects _ _ hfirst).1 rfl, hconverts {} rfl (by decide)⟩

/-- Two schemas with the same name, one under a number and one under a text. -/
def numberedSchemas : Entries :=
  [(.int 1, .mapping [(.str "type", .str "integer")]),
    (.str "1", .mapping [(.str "type", .str "string")])]

/-- Their document as it is written. -/
def numberedText : String :=
  "components: \x7bschemas: \x7b1: \x7btype: integer\x7d, '1': \x7btype: string\x7d\x7d\x7d"

/-- Both names are listed, and both select the schema of the text. -/
theorem selects_other_numbered :
    Yaml.read numberedText = .ok (.mapping (rootOf numberedSchemas)) ∧
      schemaNames (rootOf numberedSchemas) = ["1", "1"] ∧
      (Scalar.int 1, Value.mapping [(.str "type", .str "integer")]) ∈ numberedSchemas ∧
      resolve (.mapping (rootOf numberedSchemas)) defaultAreas
          (.reference (schemaReference (Scalar.int 1).name)) =
        .ok (.mapping [(.str "type", .str "string")]) := by
  have hread : Yaml.read numberedText = .ok (.mapping (rootOf numberedSchemas)) :=
    toOption_eq_some_iff.mp (by decide +kernel)
  have hname : (Scalar.int 1).name = "1" := by decide +kernel
  have hfirst : (Scalar.int 1, Value.mapping [(.str "type", .str "integer")]) ∈
      numberedSchemas := by
    simp [numberedSchemas]
  have hsecond : (.str (Scalar.int 1).name, .mapping [(.str "type", .str "string")]) ∈
      numberedSchemas := by
    simp [hname, numberedSchemas]
  exact ⟨hread, by decide +kernel, hfirst,
    resolve_of_mem (Yaml.distinctKeys_read hread) rfl hsecond⟩

end Conversion

end ApiSchema
