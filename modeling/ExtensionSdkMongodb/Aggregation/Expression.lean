import ExtensionSdkMongodb.Data.Bson
import ExtensionSdkMongodb.Data.Text

/-!
# Aggregation expressions of MongoDB

The expressions with `$split`, `$reduce`, `$map`, `$cond`, `$type`, `$getField`, `$ifNull`, `$eq`
and `$allElementsTrue`. `parse` reads an expression off its BSON, and `eval` gives its value in
an environment of variables. The evaluator has a result where MongoDB has one and the
operands are of the kinds below; elsewhere it says nothing. When two values compare equal is a
parameter.

A `$reduce` whose body has a value for every element is a fold (`eval_reduce`), and a `$map` of
this kind is a map (`eval_map`).
-/

set_option autoImplicit false

namespace ExtensionSdkMongodb.Aggregation

/-! ## Values -/

/-- The value of an expression; `none` is a missing value. -/
abbrev Value := Option Bson

/-- Null, undefined or missing. -/
def nullish : Value → Bool
  | none | some .null | some .undefined => true
  | some _ => false

/-- The value, or null in place of null, undefined or missing. -/
def ifNull : Value → Bson
  | none | some .null | some .undefined => .null
  | some value => value

/-- The name of the type of a value. -/
def typeName : Value → String
  | none => "missing"
  | some (.double _) => "double"
  | some (.string _) => "string"
  | some (.array _) => "array"
  | some (.document _) => "object"
  | some (.boolean _) => "bool"
  | some .null => "null"
  | some (.regularExpression ..) => "regex"
  | some (.javaScriptCode _) => "javascript"
  | some (.javaScriptCodeWithScope ..) => "javascriptWithScope"
  | some (.int32 _) => "int"
  | some (.int64 _) => "long"
  | some (.timestamp ..) => "timestamp"
  | some (.binary ..) => "binData"
  | some (.objectId _) => "objectId"
  | some (.dateTime _) => "date"
  | some (.symbol _) => "symbol"
  | some (.decimal128 _) => "decimal"
  | some .undefined => "undefined"
  | some .maxKey => "maxKey"
  | some .minKey => "minKey"
  | some (.dbPointer ..) => "dbPointer"

/-- The values of variables. -/
abbrev Env := String → Value

/-- The environment with one more variable. -/
def Env.set (env : Env) (name : String) (value : Value) : Env :=
  fun other => if other = name then value else env other

/-- The environment of a document. -/
def Env.root (d : Document) : Env :=
  fun name => if name = "ROOT" ∨ name = "CURRENT" then some (.document d) else none

/-! ## Syntax -/

/-- An expression. -/
inductive Expr where
  | literal (value : Bson)
  | variable (name : String) (path : List String)
  | split (input : Expr) (separator : Char)
  | reduce (input initialValue body : Expr)
  | map (input : Expr) (name : String) (body : Expr)
  | cond (test ifTrue ifFalse : Expr)
  | type (input : Expr)
  | getField (field input : Expr)
  | ifNull (input replacement : Expr)
  | eq (left right : Expr)
  | allElementsTrue (input : Expr)

/-- The argument of an operator. -/
inductive Argument where
  | one (e : Expr)
  | list (es : List Expr)
  | named (fields : List (String × Expr))

/-- The expression under a name. -/
def namedExpr (fields : List (String × Expr)) (name : String) : Option Expr :=
  (fields.find? fun field => field.1 == name).map Prod.snd

/-- An operator applied to its argument. -/
def operator (op : String) (argument : Argument) : Option Expr :=
  match op, argument with
  | "$split", .list [input, .literal (.string separator)] =>
    match separator.toList with
    | [c] => some (.split input c)
    | _ => none
  | "$reduce", .named fields => do
    let input ← namedExpr fields "input"
    let initialValue ← namedExpr fields "initialValue"
    let body ← namedExpr fields "in"
    return .reduce input initialValue body
  | "$map", .named fields => do
    let input ← namedExpr fields "input"
    let name ← namedExpr fields "as"
    let body ← namedExpr fields "in"
    match name with
    | .literal (.string name) => return .map input name body
    | _ => none
  | "$cond", .list [test, ifTrue, ifFalse] => some (.cond test ifTrue ifFalse)
  | "$type", .one input => some (.type input)
  | "$getField", .named fields => do
    let field ← namedExpr fields "field"
    let input ← namedExpr fields "input"
    return .getField field input
  | "$ifNull", .list [input, replacement] => some (.ifNull input replacement)
  | "$eq", .list [left, right] => some (.eq left right)
  | "$allElementsTrue", .list [input] => some (.allElementsTrue input)
  | _, _ => none

/-- A string: a variable with a path, a path of the current document, or a literal. -/
def parseString (s : String) : Expr :=
  match s.toList with
  | '$' :: '$' :: rest =>
    match splitAt '.' (.ofList rest) with
    | name :: path => .variable name path
    | [] => .literal (.string s)
  | '$' :: rest => .variable "CURRENT" (splitAt '.' (.ofList rest))
  | _ => .literal (.string s)

/-- An argument by name, which is an expression. -/
def namedArgument : String × Argument → Option (String × Expr)
  | (name, .one e) => some (name, e)
  | (_, .list _) | (_, .named _) => none

/-- A document of parsed fields: one operator, or arguments by name. -/
def parseFields (fields : List (String × Argument)) : Option Argument :=
  match fields with
  | [(op, argument)] => (operator op argument).map .one
  | _ => (fields.mapM namedArgument).map .named

mutual

/-- What a BSON value says as the argument of an operator. -/
def parseArgument : Bson → Option Argument
  | .string s => some (.one (parseString s))
  | .null => some (.one (.literal .null))
  | .array items => (parseItems items).map .list
  | .document fields => (parseArguments fields).bind parseFields
  | _ => none

def parseItems : List Bson → Option (List Expr)
  | [] => some []
  | item :: items => do
    match ← parseArgument item with
    | .one e =>
      let es ← parseItems items
      return e :: es
    | .list _ | .named _ => none

def parseArguments : List (String × Bson) → Option (List (String × Argument))
  | [] => some []
  | (key, value) :: fields => do
    let argument ← parseArgument value
    let arguments ← parseArguments fields
    return (key, argument) :: arguments

end

/-- The expression that a BSON value says. -/
def parse (b : Bson) : Option Expr :=
  match parseArgument b with
  | some (.one e) => some e
  | _ => none

/-! ## Evaluation -/

/-- The value at a path of embedded documents. -/
def valueAt : List String → Value → Option Value
  | [], value => some value
  | name :: path, some (.document d) => valueAt path (Document.get d name)
  | _ :: _, some (.array _) => none
  | _ :: _, _ => some none

/-- Whether all elements are true, when they are booleans. -/
def allTrue : List Bson → Option Bool
  | [] => some true
  | .boolean b :: items => (allTrue items).map (b && ·)
  | _ :: _ => none

/-- An operator on an array that is null on null, undefined and missing. -/
def onArray (value : Value) (f : List Bson → Option Value) : Option Value :=
  match value with
  | some (.array items) => f items
  | other => if nullish other then some (some .null) else none

/-- The value of an expression. -/
def Expr.eval (equal : Value → Value → Bool) : Expr → Env → Option Value
  | .literal value, _ => some (some value)
  | .variable name path, env => valueAt path (env name)
  | .split input separator, env => do
    match ← input.eval equal env with
    | some (.string s) => return some (.array ((splitAt separator s).map Bson.string))
    | other => if nullish other then some (some .null) else none
  | .reduce input initialValue body, env => do
    let source ← input.eval equal env
    onArray source fun items => do
      let start ← initialValue.eval equal env
      items.foldlM (fun value item =>
        body.eval equal ((env.set "this" (some item)).set "value" value)) start
  | .map input name body, env => do
    let source ← input.eval equal env
    onArray source fun items => do
      let values ← items.mapM fun item => body.eval equal (env.set name (some item))
      return some (.array (values.map fun value => value.getD .null))
  | .cond test ifTrue ifFalse, env => do
    match ← test.eval equal env with
    | some (.boolean true) => ifTrue.eval equal env
    | some (.boolean false) => ifFalse.eval equal env
    | _ => none
  | .type input, env => do
    let value ← input.eval equal env
    return some (.string (typeName value))
  | .getField field input, env => do
    match ← field.eval equal env, ← input.eval equal env with
    | some (.string name), some (.document d) => return Document.get d name
    | some (.string _), none => return none
    | some (.string _), some other => return if nullish (some other) then some .null else none
    | _, _ => none
  | .ifNull input replacement, env => do
    let value ← input.eval equal env
    if nullish value then replacement.eval equal env else return value
  | .eq left right, env => do
    let x ← left.eval equal env
    let y ← right.eval equal env
    return some (.boolean (equal x y))
  | .allElementsTrue input, env => do
    match ← input.eval equal env with
    | some (.array items) => (allTrue items).map fun b => some (.boolean b)
    | _ => none

/-- The value of the expression that a BSON value says. -/
def evaluate (equal : Value → Value → Bool) (b : Bson) (env : Env) : Option Value :=
  (parse b).bind fun e => e.eval equal env

/-! ## Rules -/

section Rules

variable {equal : Value → Value → Bool} {env : Env}

@[simp] theorem set_self (name : String) (value : Value) : env.set name value name = value := by
  simp [Env.set]

theorem set_other {name other : String} (different : other ≠ name) (value : Value) :
    env.set name value other = env other := by
  simp [Env.set, different]

variable {α : Type} {items : List α} {element : α → Bson}

/-- **A `$reduce` whose body has a value for every element is a fold.** -/
theorem eval_reduce {input initialValue body : Expr} {start : Value} {step : Value → α → Value}
    (source : input.eval equal env = some (some (.array (items.map element))))
    (initial : initialValue.eval equal env = some start)
    (steps : ∀ value, ∀ item ∈ items,
      body.eval equal ((env.set "this" (some (element item))).set "value" value) =
        some (step value item)) :
    (Expr.reduce input initialValue body).eval equal env = some (items.foldl step start) := by
  simp only [Expr.eval, source, initial, onArray, Option.bind_eq_bind, Option.bind_some]
  clear source initial
  induction items generalizing start with
  | nil => rfl
  | cons item items ih =>
      rw [List.map_cons, List.foldlM_cons, steps start item List.mem_cons_self,
        Option.bind_eq_bind, Option.bind_some]
      exact ih fun value other member => steps value other (List.mem_cons_of_mem _ member)

/-- **A `$map` whose body has a value that is there for every element is a map.** -/
theorem eval_map {input body : Expr} {name : String} {f : α → Bson}
    (source : input.eval equal env = some (some (.array (items.map element))))
    (bodies : ∀ item ∈ items,
      body.eval equal (env.set name (some (element item))) = some (some (f item))) :
    (Expr.map input name body).eval equal env = some (some (.array (items.map f))) := by
  have values : ((items.map element).mapM fun item =>
      body.eval equal (env.set name (some item))) = some (items.map fun item => some (f item)) := by
    clear source
    induction items with
    | nil => rfl
    | cons item items ih =>
        rw [List.map_cons, List.mapM_cons, bodies item List.mem_cons_self,
          ih fun other member => bodies other (List.mem_cons_of_mem _ member)]
        rfl
  simp [Expr.eval, source, onArray, values]

/-- A `$ifNull` with null. -/
theorem eval_ifNull {input : Expr} {value : Value} (found : input.eval equal env = some value) :
    (Expr.ifNull input (.literal .null)).eval equal env = some (some (ifNull value)) := by
  rcases value with _ | value
  · simp [Expr.eval, found, nullish, ifNull]
  · cases value <;> simp [Expr.eval, found, nullish, ifNull]

theorem eval_eq {left right : Expr} {x y : Value} (first : left.eval equal env = some x)
    (second : right.eval equal env = some y) :
    (Expr.eq left right).eval equal env = some (some (.boolean (equal x y))) := by
  simp [Expr.eval, first, second]

theorem allTrue_map (holds : α → Bool) (items : List α) :
    allTrue (items.map fun item => .boolean (holds item)) = some (items.all holds) := by
  induction items with
  | nil => rfl
  | cons item items ih => simp [allTrue, ih]

/-- All elements of an array of booleans are true when each of them is. -/
theorem eval_allElementsTrue {input : Expr} {holds : α → Bool}
    (source : input.eval equal env =
      some (some (.array (items.map fun item => .boolean (holds item))))) :
    (Expr.allElementsTrue input).eval equal env = some (some (.boolean (items.all holds))) := by
  simp [Expr.eval, source, allTrue_map]

end Rules

end ExtensionSdkMongodb.Aggregation
