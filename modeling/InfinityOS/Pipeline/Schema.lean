import InfinityOS.Core.Checks
import InfinityOS.Core.Maps
import InfinityOS.Core.Types

/-!
# Schemas of records

`infer` reads a schema off a sample, `validate` checks a record against a schema. A record is
a JSON object, and the sample that is one satisfies the schema inferred from it; any other
sample is taken for the field `value` of a record.
-/

namespace InfinityOS

namespace Pipeline

inductive FieldType where
  | string
  | integer
  | float
  | boolean
  | array
  | object
  | null
  | unknown
  deriving DecidableEq

namespace FieldType

/-- `n.is_i64() || n.is_u64()`. -/
def isInteger : JsonNumber → Bool
  | .posInt _ => true
  | .negInt _ => true
  | .float _ => false

def fromJson : Json → FieldType
  | .string _ => string
  | .number n => if isInteger n then integer else float
  | .bool _ => boolean
  | .array _ => array
  | .object _ => object
  | .null => null

/-- The derived debug text. -/
def debug : FieldType → String
  | string => "String"
  | integer => "Integer"
  | float => "Float"
  | boolean => "Boolean"
  | array => "Array"
  | object => "Object"
  | null => "Null"
  | unknown => "Unknown"

end FieldType

structure FieldSchema where
  name : String
  fieldType : FieldType
  nullable : Bool
  description : Option String

structure DataSchema where
  id : Uuid
  name : String
  version : UInt32
  fields : List FieldSchema
  createdAtMs : UInt64

/-- `matches!(v, Value::Null)`. -/
def isNull : Json → Bool
  | .null => true
  | _ => false

def asObject : Json → Option (BTreeMap String Json)
  | .object members => some (.ofList members)
  | _ => none

/-- The field of the inferred schema for the value `v` under `key`. -/
def inferField (key : String) (v : Json) : FieldSchema :=
  { name := key, fieldType := .fromJson v, nullable := isNull v, description := none }

/-- `SchemaInferrer::infer` with the generated id, at the time `nowMs`. -/
def SchemaInferrer.infer (name : String) (sample : Json) (id : Uuid) (nowMs : UInt64) :
    DataSchema :=
  let fields :=
    match asObject sample with
    | some map => map.toList.map fun entry => inferField entry.1 entry.2
    | none => [inferField "value" sample]
  { id, name, version := 1, fields, createdAtMs := nowMs }

inductive SchemaError where
  | schemaValidationFailed (message : String)
  deriving DecidableEq

def checkField (obj : BTreeMap String Json) (field : FieldSchema) : Except SchemaError Unit :=
  match obj[field.name]? with
  | none =>
      .error (.schemaValidationFailed ("required field '" ++ field.name ++ "' is missing"))
  | some v =>
      if isNull v && !field.nullable then
        .error (.schemaValidationFailed
          ("field '" ++ field.name ++ "' is null but the schema marks it as non-nullable"))
      else
        let actual := FieldType.fromJson v
        if actual ≠ .null ∧ actual ≠ field.fieldType then
          .error (.schemaValidationFailed
            ("field '" ++ field.name ++ "' has type " ++ actual.debug ++
              " but schema expects " ++ field.fieldType.debug))
        else .ok ()

def SchemaValidator.validate (record : Json) (schema : DataSchema) : Except SchemaError Unit :=
  match asObject record with
  | none => .error (.schemaValidationFailed "record is not a JSON object")
  | some obj => schema.fields.forM (checkField obj)

/-! ## A sample and its schema -/

theorem asObject_eq_none {v : Json} : asObject v = none ↔ ∀ members, v ≠ .object members := by
  cases v <;> simp [asObject]

theorem checkField_inferField {obj : BTreeMap String Json} {key : String} {v : Json}
    (hget : obj[key]? = some v) : checkField obj (inferField key v) = .ok () := by
  unfold checkField inferField
  rw [hget]
  dsimp only
  rw [Bool.and_not_self, if_neg Bool.false_ne_true, if_neg fun h => h.2 rfl]

/-- An object satisfies the schema inferred from it. Any other value is rejected, and the
record that has it as its field `value` is accepted. -/
theorem inference_sound (name : String) (v : Json) (id : Uuid) (nowMs : UInt64) :
    ((∃ members, v = .object members) →
        SchemaValidator.validate v (SchemaInferrer.infer name v id nowMs) = .ok ()) ∧
      ((∀ members, v ≠ .object members) →
        SchemaValidator.validate v (SchemaInferrer.infer name v id nowMs) =
            .error (.schemaValidationFailed "record is not a JSON object") ∧
          SchemaValidator.validate (.object [("value", v)])
            (SchemaInferrer.infer name v id nowMs) = .ok ()) := by
  constructor
  · rintro ⟨members, rfl⟩
    rw [SchemaValidator.validate, SchemaInferrer.infer]
    refine Checks.forM_eq_ok.mpr fun field hfield => ?_
    obtain ⟨⟨key, value⟩, hmem, rfl⟩ := List.mem_map.mp hfield
    exact checkField_inferField (Maps.mem_toList.mp hmem)
  · intro hscalar
    have hnone : asObject v = none := asObject_eq_none.mpr hscalar
    rw [SchemaInferrer.infer, hnone]
    constructor
    · rw [SchemaValidator.validate, hnone]
    · rw [SchemaValidator.validate]
      refine Checks.forM_eq_ok.mpr fun field hfield => ?_
      rw [List.mem_singleton.mp hfield]
      exact checkField_inferField (by simp)

/-- A number does not satisfy the schema inferred from it. -/
theorem number_rejected :
    ¬ SchemaValidator.validate (.number (.posInt 5))
      (SchemaInferrer.infer "row" (.number (.posInt 5)) 1 0) = .ok () := by
  intro h
  cases h

end Pipeline

end InfinityOS
