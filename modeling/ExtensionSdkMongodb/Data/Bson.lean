import Mathlib.Algebra.Ring.Nat
import Mathlib.Data.List.Basic

/-!
# BSON values and documents

The values of the `bson` crate. A document keeps its fields in insertion order, so it is a
list of fields, and a lookup finds the first field with the name. A double is its bit pattern:
whether it is finite and the integer it truncates to are read off the bits.
-/

set_option autoImplicit false

namespace ExtensionSdkMongodb

/-- A byte string, as in `Vec<u8>`. -/
abbrev Bytes := List UInt8

/-! ## Doubles -/

/-- An IEEE 754 double, by its bits. -/
structure Double where
  bits : UInt64
  deriving DecidableEq, Repr

namespace Double

def exponent (d : Double) : ℕ := d.bits.toNat / 2 ^ 52 % 2048

def fraction (d : Double) : ℕ := d.bits.toNat % 2 ^ 52

def negative (d : Double) : Bool := 2 ^ 63 ≤ d.bits.toNat

/-- `f64::is_finite`. -/
def isFinite (d : Double) : Bool := d.exponent != 2047

/-- The integer part of the magnitude of a finite double. -/
def truncatedMagnitude (d : Double) : ℕ :=
  -- Subnormal doubles have no implicit bit and the exponent of the smallest normal ones.
  let mantissa := if d.exponent = 0 then d.fraction else d.fraction + 2 ^ 52
  let scale := max d.exponent 1
  if 1075 ≤ scale then mantissa * 2 ^ (scale - 1075) else mantissa / 2 ^ (1075 - scale)

/-- `v as i64` for a finite double: truncation toward zero, saturating at the range. -/
def asI64 (d : Double) : Int64 :=
  let magnitude := d.truncatedMagnitude
  if d.negative then
    if 2 ^ 63 ≤ magnitude then Int64.minValue else Int64.ofInt (-magnitude)
  else
    if 2 ^ 63 ≤ magnitude then Int64.maxValue else Int64.ofInt magnitude

/-- The bits of the double nearest to a positive integer, ties to the even one. -/
def roundedBits (n : ℕ) : ℕ :=
  let e := n.log2
  let mantissa :=
    if e ≤ 52 then n * 2 ^ (52 - e)
    else
      let quotient := n / 2 ^ (e - 52)
      let remainder := n % 2 ^ (e - 52)
      let half := 2 ^ (e - 53)
      if half < remainder ∨ (remainder = half ∧ quotient % 2 = 1) then quotient + 1 else quotient
  -- The implicit bit of the mantissa adds one to the exponent field, as does a carry.
  (e + 1022) * 2 ^ 52 + mantissa

/-- The conversion `n as f64` of an integer. -/
def ofInt (n : Int) : Double :=
  if n = 0 then ⟨0⟩
  else if n < 0 then ⟨UInt64.ofNat (2 ^ 63 + roundedBits n.natAbs)⟩
  else ⟨UInt64.ofNat (roundedBits n.natAbs)⟩

example : (ofInt 7).bits = 0x401C000000000000 ∧ (ofInt (-1)).bits = 0xBFF0000000000000 ∧
    (⟨0xC008CCCCCCCCCCCD⟩ : Double).asI64 = -3 := by decide

end Double

/-! ## Values -/

/-- A value of the `bson` crate. -/
inductive Bson where
  | double (value : Double)
  | string (value : String)
  | array (items : List Bson)
  | document (fields : List (String × Bson))
  | boolean (value : Bool)
  | null
  | regularExpression (pattern options : String)
  | javaScriptCode (code : String)
  | javaScriptCodeWithScope (code : String) (scope : List (String × Bson))
  | int32 (value : Int32)
  | int64 (value : Int64)
  | timestamp (time increment : UInt32)
  | binary (subtype : UInt8) (bytes : Bytes)
  | objectId (bytes : Bytes)
  | dateTime (millis : Int64)
  | symbol (value : String)
  | decimal128 (bytes : Bytes)
  | undefined
  | maxKey
  | minKey
  | dbPointer (nspace : String) (id : Bytes)

/-- A document: its fields in insertion order. -/
abbrev Document := List (String × Bson)

namespace Bson

def asDocument : Bson → Option Document
  | .document fields => some fields
  | _ => none

def asArray : Bson → Option (List Bson)
  | .array items => some items
  | _ => none

def asStr : Bson → Option String
  | .string value => some value
  | _ => none

end Bson

namespace Document

/-- `Document::get`. -/
def get (d : Document) (key : String) : Option Bson :=
  (d.find? fun field => field.1 == key).map Prod.snd

/-- `Document::get_str`. -/
def getStr (d : Document) (key : String) : Option String :=
  (d.get key).bind Bson.asStr

/-- `Document::get_bool`. -/
def getBool (d : Document) (key : String) : Option Bool :=
  match d.get key with
  | some (.boolean value) => some value
  | _ => none

/-- `Document::contains_key`. -/
def containsKey (d : Document) (key : String) : Bool := (d.get key).isSome

/-- `Document::keys`. -/
def keys (d : Document) : List String := d.map Prod.fst

/-- `Document::insert`: a field that exists keeps its place. -/
def insert (d : Document) (key : String) (value : Bson) : Document :=
  if d.containsKey key then d.map fun field => if field.1 == key then (key, value) else field
  else d ++ [(key, value)]

/-- What `Document::remove` leaves. -/
def erase (d : Document) (key : String) : Document := d.filter fun field => field.1 != key

@[simp] theorem get_nil (key : String) : Document.get [] key = none := rfl

@[simp] theorem get_cons (field : String × Bson) (rest : Document) (key : String) :
    Document.get (field :: rest) key =
      if field.1 = key then some field.2 else Document.get rest key := by
  by_cases same : field.1 = key <;> simp [Document.get, same]

theorem get_append (first second : Document) (key : String) :
    Document.get (first ++ second) key = (first.get key).or (Document.get second key) := by
  induction first with
  | nil => rfl
  | cons field rest ih =>
      rw [List.cons_append, get_cons, get_cons, ih]
      split <;> rfl

theorem get_replace (d : Document) (key : String) (value : Bson) (k : String) :
    Document.get (d.map fun field => if field.1 == key then (key, value) else field) k =
      if k = key then (d.get key).map fun _ => value else d.get k := by
  induction d with
  | nil => simp
  | cons field rest ih =>
      rw [List.map_cons, get_cons, ih, get_cons, get_cons]
      by_cases here : field.1 = key
      · by_cases same : k = key
        · simp [here, same]
        · simp [here, same, Ne.symm same]
      · by_cases same : k = key
        · simp [here, same]
        · simp [here, same]

/-- Inserting replaces the value of the key and of no other. -/
theorem get_insert (d : Document) (key : String) (value : Bson) (k : String) :
    (d.insert key value).get k = if k = key then some value else d.get k := by
  unfold insert
  by_cases present : d.containsKey key = true
  · obtain ⟨old, found⟩ := Option.isSome_iff_exists.mp present
    rw [if_pos present, get_replace, found]
    rfl
  · rw [if_neg present, get_append]
    have absent : d.get key = none := by simpa [containsKey] using present
    by_cases same : k = key
    · simp [same, absent]
    · simp [same, Ne.symm same]

theorem mem_of_get {d : Document} {key : String} {value : Bson} (found : d.get key = some value) :
    (key, value) ∈ d := by
  obtain ⟨field, first, rfl⟩ := Option.map_eq_some_iff.mp found
  have named : field.1 = key := by simpa using List.find?_some first
  rw [← named]
  exact List.mem_of_find?_eq_some first

theorem mem_keys_iff {d : Document} {key : String} : key ∈ d.keys ↔ (d.get key).isSome := by
  induction d with
  | nil => simp [keys]
  | cons field rest ih =>
      rw [get_cons, keys, List.map_cons, List.mem_cons, ← keys, ih]
      by_cases here : field.1 = key
      · simp [here]
      · simp [here, Ne.symm here]

/-- The keys after inserting are those before and the new one. -/
theorem mem_keys_insert {d : Document} {key : String} {value : Bson} {k : String} :
    k ∈ (d.insert key value).keys ↔ k = key ∨ k ∈ d.keys := by
  rw [mem_keys_iff, mem_keys_iff, get_insert]
  by_cases same : k = key <;> simp [same]

end Document

/-! ## The BSON crate's encoder and decoder -/

/-- `Document::to_writer` and `Document::from_reader`. They are third-party code, so they
are parameters; a failure carries the crate's message. -/
structure BsonCodec where
  encode : Document → Except String Bytes
  decode : Bytes → Except String Document

/-- Encoding the document succeeds and decoding the bytes gives it back. -/
def BsonCodec.RoundTrips (codec : BsonCodec) (d : Document) : Prop :=
  ∃ bytes, codec.encode d = .ok bytes ∧ codec.decode bytes = .ok d

/-- Whatever is encoded can be decoded. -/
def BsonCodec.Lawful (codec : BsonCodec) : Prop :=
  ∀ d bytes, codec.encode d = .ok bytes → codec.decode bytes = .ok d

end ExtensionSdkMongodb
