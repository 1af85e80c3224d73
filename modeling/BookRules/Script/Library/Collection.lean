import BookRules.Script.Library.Text

/-!
# Functions on lists and maps

Functions that take no function value.  Places behave as in texts: negative ones
count from the end, and a part that reaches beyond the end is cut.
-/

namespace BookRules.Script.Library

open Value

/-- The order of two values of one kind; `none` when they have no order. -/
def lessOrEqual? : Value → Value → Option Bool
  | .int a, .int b => some (a ≤ b)
  | .float a, .float b => some !(b < a)
  | .text a, .text b => some (a ≤ b)
  | .char a, .char b => some (a ≤ b)
  | .bool a, .bool b => some (!a || b)
  | .unit, .unit => some true
  | _, _ => none

/-- Items in order; all of them have to be of one kind. -/
def sorted? (items : List Value) : Option (List Value) :=
  match items with
  | [] => some []
  | [v] => some [v]
  | first :: rest =>
    if rest.all fun v => v.typeName == first.typeName then
      some (items.mergeSort fun a b => (lessOrEqual? a b).getD true)
    else none

/-- Items without those that equal the item before them. -/
def withoutRepeats : List Value → List Value
  | [] => []
  | [v] => [v]
  | v :: w :: rest =>
    if same v w then
      match withoutRepeats (w :: rest) with
      | _ :: more => v :: more
      | [] => [v]
    else v :: withoutRepeats (w :: rest)

/-- Where an item is put in; a place beyond the end is the end. -/
def insertion (count : Nat) (n : Int) : Nat :=
  if n < 0 then count - n.natAbs else min n.toNat count

/-- Functions of a list alone. -/
def ofListAlone (name : String) (items : List Value) : Option Reply :=
  match name with
  | "len" => some { value := .int items.length }
  | "is_empty" => some { value := .bool items.isEmpty }
  | "clear" => some (.change (.list []))
  | "reverse" => some (.change (.list items.reverse))
  | "sort" => (sorted? items).map fun sorted => .change (.list sorted)
  | "sort_desc" => (sorted? items).map fun sorted => .change (.list sorted.reverse)
  | "order" => (sorted? items).map fun sorted => { value := .list sorted }
  | "order_desc" => (sorted? items).map fun sorted => { value := .list sorted.reverse }
  | "dedup" => some (.change (.list (withoutRepeats items)))
  | "pop" =>
    some { value := items.getLast?.getD .unit, changed := some (.list items.dropLast) }
  | "shift" => some { value := items.head?.getD .unit, changed := some (.list items.tail) }
  | _ => none

/-- Functions of a list and a place. -/
def ofListAndPlace (name : String) (items : List Value) (n : Int) : Option Reply :=
  match name with
  | "get" =>
    some { value := ((place? items.length n).bind fun i => items[i]?).getD .unit }
  | "remove" =>
    match place? items.length n with
    | some i => some
      { value := items[i]?.getD .unit, changed := some (.list (items.eraseIdx i)) }
    | none => some { value := .unit, changed := some (.list items) }
  | "truncate" => some (.change (.list (items.take n.toNat)))
  | "chop" => some (.change (.list (items.drop (items.length - n.toNat))))
  | "split" =>
    let (offset, _) := part items.length n 0
    some { value := .list (items.drop offset), changed := some (.list (items.take offset)) }
  | _ => none

/-- Functions of a list and a part of it. -/
def ofListPart (name : String) (items : List Value) (offset count : Nat) : Option Reply :=
  let chosen := (items.drop offset).take count
  let others := items.take offset ++ items.drop (offset + count)
  match name with
  | "extract" => some { value := .list chosen }
  | "drain" => some { value := .list chosen, changed := some (.list others) }
  | "retain" => some { value := .list others, changed := some (.list chosen) }
  | _ => none

/-- Functions of a list and any values. -/
def ofListAndMore (name : String) (items : List Value) (arguments : List Value) : Option Reply :=
  match name, arguments with
  | "push", [v] => some (.change (.list (items ++ [v])))
  | "append", [.list more] => some (.change (.list (items ++ more)))
  | "contains", [v] => some { value := .bool (items.any fun item => same item v) }
  | "index_of", [v] =>
    some { value := .int (((items.findIdx? fun item => same item v).map
      fun (i : Nat) => (i : Int)).getD (-1)) }
  | "index_of", [v, .int start] =>
    let (offset, _) := part items.length start 0
    some { value := .int ((((items.drop offset).findIdx? fun item => same item v).map
      fun (i : Nat) => ((offset + i : Nat) : Int)).getD (-1)) }
  | "insert", [.int n, v] => some (.change (.list (items.insertIdx (insertion items.length n) v)))
  | "set", [.int n, v] =>
    some (.change (.list (match place? items.length n with
      | some i => items.set i v
      | none => items)))
  | "pad", [.int length, v] =>
    if (Limits.scriptOperations : Int) < length then none
    else some (.change (.list (items ++ List.replicate (length.toNat - items.length) v)))
  | "splice", [.int start, .int length, .list more] =>
    let (offset, count) := part items.length start length
    some (.change (.list (items.take offset ++ more ++ items.drop (offset + count))))
  | "splice", [.range first last closed, .list more] =>
    let (start, length) := rangePart first last closed
    let (offset, count) := part items.length start length
    some (.change (.list (items.take offset ++ more ++ items.drop (offset + count))))
  | _, _ => none

def ofList (name : String) (items : List Value) (arguments : List Value) : Option Reply :=
  let byPart := (partOf? items.length arguments).bind fun (offset, count) =>
    ofListPart name items offset count
  let direct := match arguments with
    | [] => ofListAlone name items
    | [.int n] => ofListAndPlace name items n
    | _ => none
  (byPart.or direct).or (ofListAndMore name items arguments)

def ofMap (name : String) (members : List (String × Value)) (arguments : List Value) :
    Option Reply :=
  match name, arguments with
  | "len", [] => some { value := .int members.length }
  | "is_empty", [] => some { value := .bool members.isEmpty }
  | "clear", [] => some (.change (.map []))
  | "keys", [] => some { value := .list (members.map fun (k, _) => .text k) }
  | "values", [] => some { value := .list (members.map (·.2)) }
  | "to_json", [] =>
    ((Value.map members).toJson?).map fun doc => { value := .text (Json.compact doc) }
  | "contains", [.text k] => some { value := .bool (member? k members).isSome }
  | "get", [.text k] => some { value := (member? k members).getD .unit }
  | "set", [.text k, v] => some (.change (.map (setMember k v members)))
  | "remove", [.text k] =>
    some { value := (member? k members).getD .unit,
           changed := some (.map (members.filter fun p => p.1 != k)) }
  | "mixin", [.map more] => some (.change (.map (mergeMembers members more)))
  | "fill_with", [.map more] => some (.change (.map (mergeMembers more members)))
  | _, _ => none

end BookRules.Script.Library
