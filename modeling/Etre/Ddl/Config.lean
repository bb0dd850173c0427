import Etre.Go
import Mathlib.Data.List.Nodup

/-! The schema configuration of `schema/config.go`: entities, their optional schema, fields, case rules and
    index declarations, with the constants and sentinel errors of the DDL code that reads them.

    Go's nil is kept where the code tells it apart from an empty value: `EntitySchema.Schema` and `Field.Case`
    are pointers and `Field.Enum` is a slice compared with nil, so all three are `Option`s. `Config.Entities`
    is a Go map, so its keys are distinct; the structure carries that as a field. `Field.Description` is read
    by nothing in the modelled code and is left out. -/

namespace Etre.Ddl
open Etre.Go

/-- `Case`: whether the case rule is strict, and its type (only `lower` is acted on). -/
structure Case where
  strict : Bool
  type : String
  deriving DecidableEq, Repr

/-- `Field`: one property of the JSON schema. -/
structure Field where
  name : String
  type : String
  required : Bool
  pattern : String
  case : Option Case
  enum : Option (List String)
  dependents : List String
  deriving DecidableEq, Repr

/-- `Index`: keys in order, per-key directions (empty means ascending), and the two flags. -/
structure Index where
  keys : List String
  unique : Bool
  direction : List Int
  sparse : Bool
  deriving DecidableEq, Repr

/-- `Schema`: the fields, the `additionalProperties` flag, the indexes and the validation level. -/
structure Schema where
  fields : List Field
  additionalProperties : Bool
  indexes : List Index
  validationLevel : String
  deriving DecidableEq, Repr

/-- `EntitySchema`: a nil schema means the entity opts out of schema management. -/
structure EntitySchema where
  schema : Option Schema
  deriving DecidableEq, Repr

/-- `Global.SchemaValidationConfig`: the global default case rule. -/
structure SchemaValidationConfig where
  case : Case
  deriving DecidableEq, Repr

/-- `Global`. -/
structure Global where
  schemaValidationConfig : SchemaValidationConfig
  deriving DecidableEq, Repr

/-- `Config`: the entity map (distinct keys, as in a Go map) and the global settings. -/
structure Config where
  entities : List (String × EntitySchema)
  global : Global
  entities_nodup : (entities.map Prod.fst).Nodup

/-- The schema configured for `entity`, if the entity is configured at all. -/
def Config.lookup (cfg : Config) (entity : String) : Option EntitySchema :=
  (cfg.entities.find? (·.1 == entity)).map (·.2)

/-- Keys are distinct, so an entry of the map is what a lookup of its key returns. -/
theorem Config.lookup_of_mem {cfg : Config} {e : String} {es : EntitySchema} (h : (e, es) ∈ cfg.entities) :
    cfg.lookup e = some es := by
  obtain ⟨x, hx, hxe⟩ : ∃ x, cfg.entities.find? (·.1 == e) = some x ∧ x.1 = e := by
    cases hf : cfg.entities.find? (·.1 == e) with
    | none => exact absurd h (by simpa using List.find?_eq_none.mp hf (e, es))
    | some x => exact ⟨x, rfl, by simpa using List.find?_some hf⟩
  have hmem := List.mem_of_find?_eq_some hx
  have : x = (e, es) := List.inj_on_of_nodup_map cfg.entities_nodup hmem h (by simpa using hxe)
  simp [lookup, hx, this]

/-- A lookup returns an entry of the map. -/
theorem Config.mem_of_lookup {cfg : Config} {e : String} {es : EntitySchema} (h : cfg.lookup e = some es) :
    (e, es) ∈ cfg.entities := by
  obtain ⟨⟨e', es'⟩, hx, rfl⟩ := Option.map_eq_some'.mp h
  have he : e' = e := by simpa using List.find?_some hx
  exact he ▸ List.mem_of_find?_eq_some hx

/-! ### Constants and sentinel errors of the DDL code -/

/-- `defaultJSONSchemaValidationLevel`. -/
def defaultJSONSchemaValidationLevel : String := "moderate"

/-- `defaultIndexDirection`. -/
def defaultIndexDirection : Int := 1

/-- `regexLowerCase`, as the source writes it. -/
def regexLowerCase : String := "^[a-z0-9\\W_]+$"

/-- `regexRFC3339`, as the source writes it. -/
def regexRFC3339 : String := "^\\d{4}-\\d{2}-\\d{2}T\\d{2}:\\d{2}:\\d{2}(\\.\\d+)?([+-]\\d{2}:\\d{2}|Z)$"

/-- `regexInt64`, as the source writes it. -/
def regexInt64 : String := "^(-?(0|[1-9]\\d{0,18})|922337203685477580[0-7]|-9223372036854775808)$"

def errNoKeysForIndex : GoError := .new "no keys defined for index"
def errTooManyKeysForIndex : GoError := .new "too many keys defined for index; max is 30"
def errKeysAndDirectionsDoNotMatch : GoError := .new "number of keys and directions do not match for index"
def errInvalidIndexDirection : GoError := .new "invalid direction for key(s) in index; must be 1 or -1"
def errIndexSparseAndUnique : GoError := .new "index cannot be both sparse and unique"
def errInvalidFieldType : GoError :=
  .new "unsupported field type; only string, int, bool, object are supported"
def errEnumNotString : GoError := .new "enums are only supported for string types"
def errFieldNameEmpty : GoError := .new "field name cannot be empty"

/-- `Index.String()`: `Index{Keys: [..], Unique: .., Direction: [..]}`. -/
def Index.toString (i : Index) : String :=
  "Index\x7bKeys: " ++ sliceString i.keys ++ ", Unique: " ++ (if i.unique then "true" else "false") ++
    ", Direction: " ++ sliceString (i.direction.map ToString.toString) ++ "\x7d"

end Etre.Ddl
