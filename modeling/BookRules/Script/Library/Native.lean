import BookRules.Script.Library.Collection

/-!
# The functions of the language

Functions that take no function value, looked up by name and arguments.  A
function may be called on its first argument.
-/

namespace BookRules.Script.Library

open Value

/-- Functions on values of any kind. -/
def ofAny (name : String) (arguments : List Value) : Option Reply :=
  match name, arguments with
  | "type_of", [v] => some { value := .text v.typeName }
  | "to_string", [v] => some { value := ofChars v.plain }
  | "to_debug", [v] => some { value := ofChars v.quoted }
  | "print", [_] => some { value := .unit }
  | "print", [] => some { value := .unit }
  | "debug", [_] => some { value := .unit }
  | "debug", [] => some { value := .unit }
  | "PI", [] => some { value := .float 3.141592653589793 }
  | "E", [] => some { value := .float 2.718281828459045 }
  | "range", [.range first last closed, .int step] =>
    match Library.ofInt "range" first [.int (if closed then last + step.sign else last), .int step] with
    | some reply => some reply
    | none => none
  | _, _ => none

/-- The function of a name for some arguments. -/
def call (name : String) (arguments : List Value) : Option Reply :=
  let special := match arguments with
    | .int n :: rest => ofInt name n rest
    | .float x :: rest => ofFloat name x rest
    | .char c :: rest => ofCharacter name c rest
    | .text s :: rest => ofText name s rest
    | .list items :: rest => ofList name items rest
    | .map members :: rest => ofMap name members rest
    | .range first last closed :: rest => ofRange name first last closed rest
    | _ => none
  let contained := match name, arguments with
    | "contains", [whole, part] => (contains? whole part).map fun b => { value := .bool b }
    | _, _ => none
  ((special.or (mixedExtreme name arguments)).or contained).or (ofAny name arguments)

/-- A value that is read like a member. -/
def property? (object : Value) (name : String) : Option Value :=
  let readable := ["len", "is_empty", "bytes", "is_zero", "is_odd", "is_even", "floor", "ceiling",
    "round", "int", "fraction", "start", "end", "is_inclusive", "is_exclusive", "name",
    "is_nan", "is_finite", "is_infinite"]
  match object with
  | .map members => some ((member? name members).getD .unit)
  | .function code _ =>
    match name, code with
    | "name", code => some (ofChars (codeName code))
    | "is_anonymous", .anonymous _ _ => some (.bool true)
    | "is_anonymous", .named _ => some (.bool false)
    | _, _ => none
  | object => if readable.contains name then (call name [object]).map (·.value) else none

/-- Set a member. -/
def setProperty? (object : Value) (name : String) (v : Value) : Option Value :=
  match object with
  | .map members => some (.map (setMember name v members))
  | _ => none

end BookRules.Script.Library
