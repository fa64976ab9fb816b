import Mathlib.Tactic

/-!
# JSON values and the schema keywords the wire contract uses

A JSON number is an integer or a float; every finite float is a rational, and
Python's reader also accepts the three non-finite ones.  An object is its
list of fields.  `Schema` has one constructor for each keyword of the
contract's schema files, read as JSON Schema reads it: a keyword about one
kind of value says nothing about the others.
-/

namespace JsonSchema

inductive Float
  | finite (value : ℚ)
  | infinity (negative : Bool)
  | nan
  deriving DecidableEq

inductive Json
  | null
  | bool (value : Bool)
  | int (value : ℤ)
  | float (value : Float)
  | str (value : String)
  | arr (items : List Json)
  | obj (fields : List (String × Json))

abbrev Dict := List (String × Json)

namespace Dict

/-- `dict.get(key)`, with Python's `None` as JSON's `null`. -/
def get (dict : Dict) (key : String) : Json :=
  (dict.lookup key).getD .null

def getD (dict : Dict) (key : String) (default : Json) : Json :=
  (dict.lookup key).getD default

def set : Dict → String → Json → Dict
  | [], key, value => [(key, value)]
  | (name, old) :: rest, key, value =>
      if name = key then (name, value) :: rest
      else (name, old) :: set rest key value

end Dict

def Json.truthy : Json → Bool
  | .null => false
  | .bool value => value
  | .int value => value != 0
  | .float (.finite value) => value != 0
  | .float _ => true
  | .str value => value != ""
  | .arr items => !items.isEmpty
  | .obj fields => !fields.isEmpty

inductive JsonType
  | null | boolean | integer | number | string | array | object
  deriving DecidableEq

/-- JSON Schema's `type`; a number with zero fraction is an integer. -/
def JsonType.Matches : JsonType → Json → Prop
  | .null, .null => True
  | .boolean, .bool _ => True
  | .integer, .int _ => True
  | .integer, .float (.finite value) => value.den = 1
  | .number, .int _ => True
  | .number, .float _ => True
  | .string, .str _ => True
  | .array, .arr _ => True
  | .object, .obj _ => True
  | _, _ => False

namespace JsonType

@[simp] theorem matches_bool (value : Bool) : boolean.Matches (.bool value) := trivial

@[simp] theorem matches_int (value : ℤ) : integer.Matches (.int value) := trivial

@[simp] theorem matches_str (value : String) : string.Matches (.str value) := trivial

@[simp] theorem matches_obj (fields : List (String × Json)) :
    object.Matches (.obj fields) := trivial

end JsonType

def Json.number? : Json → Option ℚ
  | .int value => some value
  | .float (.finite value) => some value
  | _ => none

inductive Schema
  | any
  | both (left right : Schema)
  | type (types : List JsonType)
  | const (value : String)
  | enum (values : List String)
  | minimum (bound : ℚ)
  | maximum (bound : ℚ)
  | minLength (bound : ℕ)
  | items (schema : Schema)
  | property (key : String) (schema : Schema)
  | required (keys : List String)
  | noAdditional (keys : List String)

def Schema.keywords (schemas : List Schema) : Schema :=
  schemas.foldr .both .any

def Schema.Valid : Schema → Json → Prop
  | .any, _ => True
  | .both left right, value => left.Valid value ∧ right.Valid value
  | .type types, value => ∃ kind ∈ types, kind.Matches value
  | .const expected, value => value = .str expected
  | .enum values, value => ∃ expected ∈ values, value = .str expected
  | .minimum bound, value => ∀ number ∈ value.number?, bound ≤ number
  | .maximum bound, value => ∀ number ∈ value.number?, number ≤ bound
  | .minLength bound, .str text => bound ≤ text.length
  | .minLength _, _ => True
  | .items schema, .arr entries => ∀ entry ∈ entries, schema.Valid entry
  | .items _, _ => True
  | .property key schema, .obj fields =>
      ∀ value ∈ fields.lookup key, schema.Valid value
  | .property _ _, _ => True
  | .required keys, .obj fields => ∀ key ∈ keys, (fields.lookup key).isSome
  | .required _, _ => True
  | .noAdditional keys, .obj fields => ∀ field ∈ fields, field.1 ∈ keys
  | .noAdditional _, _ => True

@[simp] theorem Schema.valid_keywords_nil (value : Json) :
    (Schema.keywords []).Valid value ↔ True := by
  simp [Schema.keywords, Schema.Valid]

@[simp] theorem Schema.valid_keywords_cons
    (schema : Schema) (schemas : List Schema) (value : Json) :
    (Schema.keywords (schema :: schemas)).Valid value ↔
      schema.Valid value ∧ (Schema.keywords schemas).Valid value := by
  simp [Schema.keywords, Schema.Valid]

theorem Dict.get_set_ne (dict : Dict) {key other : String} (value : Json)
    (hne : other ≠ key) : (dict.set key value).get other = dict.get other := by
  induction dict with
  | nil =>
      have hbeq : (other == key) = false := by simpa using hne
      simp [Dict.set, Dict.get, List.lookup_cons, hbeq]
  | cons field rest ih =>
      obtain ⟨name, old⟩ := field
      by_cases hname : name = key
      · subst hname
        have hbeq : (other == name) = false := beq_eq_false_iff_ne.mpr hne
        simp [Dict.set, Dict.get, List.lookup_cons, hbeq]
      · cases hbeq : other == name with
        | false => simpa [Dict.set, Dict.get, hname, List.lookup_cons, hbeq] using ih
        | true => simp [Dict.set, Dict.get, hname, List.lookup_cons, hbeq]

end JsonSchema
