import InfinityOS.Graph.Types

/-!
# Reading the wire format

`FlowGraphSchema::from_json` parses a text and compares the version of the schema that it gets
with the supported one. The schemas within the subgraphs carry versions too, which nothing
looks at. The parser of `serde_json` is a parameter.
-/

namespace InfinityOS

namespace Graph

/-- `FlowGraphError` with `SchemaMismatch`, which only the reader gives. -/
inductive FromJsonError where
  | schemaMismatch (expected found : UInt32)
  | graph (error : FlowGraphError)
  deriving DecidableEq

def FromJsonError.display : FromJsonError → String
  | schemaMismatch expected found =>
      "schema version mismatch: expected " ++ toString expected ++ ", found " ++ toString found
  | graph error => error.display

/-- `FlowGraphSchema::from_json`, where `fromStr` is `serde_json::from_str` with the text of
its errors. -/
def FlowGraphSchema.fromJson (fromStr : String → Except String FlowGraphSchema) (json : String) :
    Except FromJsonError FlowGraphSchema :=
  match fromStr json with
  | .error e => .error (.graph (.invalidPatch e))
  | .ok schema =>
      if schema.schemaVersion ≠ graphSchemaVersion then
        .error (.schemaMismatch graphSchemaVersion schema.schemaVersion)
      else .ok schema

/-- A schema that is found in these subgraphs below `depth` others. -/
inductive NestedAt : ℕ → List (Uuid × Subgraph) → InnerSchema → Prop
  | here {subgraphs : List (Uuid × Subgraph)} {id : Uuid} {subgraph : Subgraph}
      (hmem : (id, subgraph) ∈ subgraphs) : NestedAt 0 subgraphs subgraph.inner
  | within {subgraphs : List (Uuid × Subgraph)} {id : Uuid} {subgraph : Subgraph} {depth : ℕ}
      {nested : InnerSchema} (hmem : (id, subgraph) ∈ subgraphs)
      (hnested : NestedAt depth subgraph.inner.subgraphs nested) :
      NestedAt (depth + 1) subgraphs nested

/-- Every schema in these subgraphs, at any depth, has the supported version. -/
def Supported (subgraphs : List (Uuid × Subgraph)) : Prop :=
  ∀ depth nested, NestedAt depth subgraphs nested → nested.schemaVersion = graphSchemaVersion

/-- The versions are right in what is accepted, and what has a nested schema of another version
is rejected for it. -/
structure VersionsChecked (fromStr : String → Except String FlowGraphSchema) (json : String) :
    Prop where
  accepted : ∀ schema, FlowGraphSchema.fromJson fromStr json = .ok schema →
    schema.schemaVersion = graphSchemaVersion ∧ Supported schema.subgraphs.toList
  rejected : ∀ schema, fromStr json = .ok schema → ¬ Supported schema.subgraphs.toList →
    ∃ found, FlowGraphSchema.fromJson fromStr json =
      .error (.schemaMismatch graphSchemaVersion found)

section Reader

variable {fromStr : String → Except String FlowGraphSchema} {json : String}
  {schema : FlowGraphSchema}

theorem fromJson_eq_ok_iff : FlowGraphSchema.fromJson fromStr json = .ok schema ↔
    fromStr json = .ok schema ∧ schema.schemaVersion = graphSchemaVersion := by
  rw [FlowGraphSchema.fromJson]
  cases fromStr json with
  | error e => simp
  | ok parsed =>
      dsimp only
      split
      · next hversion =>
          constructor
          · intro h
            cases h
          · rintro ⟨hparsed, hsupported⟩
            cases hparsed
            exact absurd hsupported hversion
      · next hversion =>
          rw [not_not] at hversion
          constructor
          · intro h
            cases h
            exact ⟨rfl, hversion⟩
          · rintro ⟨hparsed, -⟩
            cases hparsed
            rfl

theorem fromJson_of_other_version (hparsed : fromStr json = .ok schema)
    (hversion : schema.schemaVersion ≠ graphSchemaVersion) :
    FlowGraphSchema.fromJson fromStr json =
      .error (.schemaMismatch graphSchemaVersion schema.schemaVersion) := by
  rw [FlowGraphSchema.fromJson, hparsed]
  exact if_pos hversion

/-- The versions are checked unless the text has a schema of the supported version with another
version in its subgraphs. -/
theorem versionsChecked_iff (fromStr : String → Except String FlowGraphSchema) (json : String) :
    VersionsChecked fromStr json ↔ ∀ schema, fromStr json = .ok schema →
      schema.schemaVersion = graphSchemaVersion → Supported schema.subgraphs.toList := by
  constructor
  · intro h schema hparsed hversion
    exact (h.accepted schema (fromJson_eq_ok_iff.mpr ⟨hparsed, hversion⟩)).2
  · intro h
    refine ⟨?_, ?_⟩
    · intro schema haccepted
      obtain ⟨hparsed, hversion⟩ := fromJson_eq_ok_iff.mp haccepted
      exact ⟨hversion, h schema hparsed hversion⟩
    · intro schema hparsed hnested
      refine ⟨schema.schemaVersion, fromJson_of_other_version hparsed fun hversion => ?_⟩
      exact hnested (h schema hparsed hversion)

end Reader

/-! ## A macro of another release -/

def schemaText (version subgraphs : String) : String :=
  "\x7b\"schema_version\":" ++ version ++
    ",\"graph_id\":\"00000000-0000-0000-0000-000000000001\"" ++
    ",\"dimension_id\":\"00000000-0000-0000-0000-000000000002\"" ++
    ",\"nodes\":\x7b\x7d,\"links\":\x7b\x7d,\"groups\":\x7b\x7d,\"subgraphs\":\x7b" ++
    subgraphs ++ "\x7d\x7d"

def macroText : String :=
  schemaText "1" ("\"00000000-0000-0000-0000-000000000003\":" ++
    "\x7b\"id\":\"00000000-0000-0000-0000-000000000003\",\"version\":1,\"name\":\"macro\"" ++
    ",\"description\":\"\",\"exposed_inputs\":\x7b\x7d,\"exposed_outputs\":\x7b\x7d,\"inner\":" ++
    schemaText "2" "" ++ "\x7d")

/-- What `macroText` says. -/
def macroSchema : FlowGraphSchema :=
  { FlowGraphSchema.new 1 2 with
    subgraphs := (∅ : BTreeMap Uuid Subgraph).insert 3
      { id := 3, version := 1, name := "macro", description := "", exposedInputs := ∅,
        exposedOutputs := ∅,
        inner :=
          { schemaVersion := 2, graphId := 1, dimensionId := 2, nodes := [], links := [],
            groups := [], subgraphs := [], relations := [] } } }

theorem macro_accepted :
    FlowGraphSchema.fromJson (fun text =>
      if text = macroText then .ok macroSchema else .error "expected value at line 1 column 1")
      macroText = .ok macroSchema ∧
    ¬ VersionsChecked (fun text =>
      if text = macroText then .ok macroSchema else .error "expected value at line 1 column 1")
      macroText := by
  have haccepted : FlowGraphSchema.fromJson (fun text =>
      if text = macroText then .ok macroSchema else .error "expected value at line 1 column 1")
      macroText = .ok macroSchema :=
    fromJson_eq_ok_iff.mpr ⟨if_pos rfl, rfl⟩
  refine ⟨haccepted, fun h => ?_⟩
  have hmem : (3, _) ∈ macroSchema.subgraphs.toList :=
    Std.ExtTreeMap.mem_toList_iff_getElem?_eq_some.mpr Std.ExtTreeMap.getElem?_insert_self
  exact absurd ((h.accepted macroSchema haccepted).2 0 _ (.here hmem)) (by decide)

end Graph

end InfinityOS
