import ExtensionSdkMongodb.Data.Bson

/-!
# JSON values

The values of `serde_json`. An object keeps its fields in insertion order. A number is an unsigned
integer, a negative integer or a finite double, and it carries the proof that it is of its kind.

`Bson.image` maps the BSON values that have a JSON value of the same structure to it.
-/

set_option autoImplicit false

namespace ExtensionSdkMongodb

/-! ## Values -/

/-- A number of a JSON value. -/
inductive JsonNumber where
  | posInt (n : UInt64)
  | negInt (n : Int64) (negative : n < 0)
  | float (v : Double) (finite : v.isFinite = true)
  deriving DecidableEq

/-- A value of `serde_json`. -/
inductive Json where
  | null
  | bool (value : Bool)
  | number (value : JsonNumber)
  | string (value : String)
  | array (items : List Json)
  | object (fields : List (String × Json))

namespace JsonNumber

/-- `Number::from` of an `i64`. -/
def ofInt64 (n : Int64) : JsonNumber :=
  if negative : n < 0 then .negInt n negative else .posInt n.toUInt64

/-- `Number::from_f64`. -/
def ofDouble (v : Double) : Option JsonNumber :=
  if finite : v.isFinite = true then some (.float v finite) else none

/-- `Number::as_f64`. -/
def asF64 : JsonNumber → Double
  | .posInt n => .ofInt n.toNat
  | .negInt n _ => .ofInt n.toInt
  | .float v _ => v

/-- `Number::as_u64`. -/
def asU64 : JsonNumber → Option UInt64
  | .posInt n => some n
  | .negInt .. | .float .. => none

end JsonNumber

namespace Json

/-- `Value::get` with a key. -/
def get (key : String) : Json → Option Json
  | .object fields => (fields.find? fun field => field.1 == key).map Prod.snd
  | _ => none

/-- `Value::pointer`, on tokens that are no array indices. -/
def pointer : List String → Json → Option Json
  | [], value => some value
  | token :: tokens, value => (value.get token).bind (pointer tokens)

def asArray : Json → Option (List Json)
  | .array items => some items
  | _ => none

def asStr : Json → Option String
  | .string value => some value
  | _ => none

def asBool : Json → Option Bool
  | .bool value => some value
  | _ => none

def asF64 : Json → Option Double
  | .number value => some value.asF64
  | _ => none

def asU64 : Json → Option UInt64
  | .number value => value.asU64
  | _ => none

/-- The value of an integer. -/
def int (n : Int64) : Json := .number (.ofInt64 n)

end Json

/-! ## The JSON image of a BSON value -/

namespace Bson

mutual

/-- The JSON value of the same structure, for strings, booleans, integers, finite doubles,
and arrays and documents of such values. -/
def image : Bson → Option Json
  | .string value => some (.string value)
  | .boolean value => some (.bool value)
  | .int32 value => some (.int value.toInt64)
  | .int64 value => some (.int value)
  | .double value => (JsonNumber.ofDouble value).map Json.number
  | .array items => (imageItems items).map Json.array
  | .document fields => (imageFields fields).map Json.object
  | _ => none

/-- The image of the items of an array. -/
def imageItems : List Bson → Option (List Json)
  | [] => some []
  | item :: items => do
    let item ← image item
    let items ← imageItems items
    return item :: items

/-- The image of the fields of a document. -/
def imageFields : List (String × Bson) → Option (List (String × Json))
  | [] => some []
  | (key, value) :: fields => do
    let value ← image value
    let fields ← imageFields fields
    return (key, value) :: fields

end

example : image (.document [("a", .int32 (-1)), ("b", .array [.boolean true])]) =
    some (.object [("a", .number (.negInt (-1) (by decide))), ("b", .array [.bool true])]) := by
  rfl

/-- The value has an image. -/
def HasImage (value : Bson) : Prop := ∃ json, image value = some json

theorem hasImage_double {v : Double} (finite : v.isFinite = true) : HasImage (.double v) :=
  ⟨.number (.float v finite), by simp [image, JsonNumber.ofDouble, finite]⟩

theorem exists_imageItems {items : List Bson} (images : ∀ item ∈ items, HasImage item) :
    ∃ jsons, imageItems items = some jsons := by
  induction items with
  | nil => exact ⟨[], rfl⟩
  | cons item items ih =>
      obtain ⟨json, head⟩ := images item List.mem_cons_self
      obtain ⟨jsons, tail⟩ := ih fun other member => images other (List.mem_cons_of_mem _ member)
      exact ⟨json :: jsons, by simp [imageItems, head, tail]⟩

/-- An array of values with images has an image. -/
theorem hasImage_array {items : List Bson} (images : ∀ item ∈ items, HasImage item) :
    HasImage (.array items) := by
  obtain ⟨jsons, image⟩ := exists_imageItems images
  exact ⟨.array jsons, by simp [Bson.image, image]⟩

theorem exists_imageFields {fields : List (String × Bson)}
    (images : ∀ field ∈ fields, HasImage field.2) :
    ∃ jsons, imageFields fields = some jsons := by
  induction fields with
  | nil => exact ⟨[], rfl⟩
  | cons field fields ih =>
      obtain ⟨key, value⟩ := field
      obtain ⟨json, head⟩ := images (key, value) List.mem_cons_self
      obtain ⟨jsons, tail⟩ := ih fun other member => images other (List.mem_cons_of_mem _ member)
      exact ⟨(key, json) :: jsons, by simp [imageFields, head, tail]⟩

/-- A document of values with images has an image, and the image is an object. -/
theorem exists_image_document {fields : List (String × Bson)}
    (images : ∀ field ∈ fields, HasImage field.2) :
    ∃ jsons, image (.document fields) = some (.object jsons) := by
  obtain ⟨jsons, fieldImages⟩ := exists_imageFields images
  exact ⟨jsons, by simp [image, fieldImages]⟩

end Bson

end ExtensionSdkMongodb
