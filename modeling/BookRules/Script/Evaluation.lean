import BookRules.Script.Parser
import BookRules.Script.Run

/-!
# Evaluation of scripts

Arguments are evaluated before the object they are used on, and the right side of
an assignment before its target.  A function that changes its first argument
changes the variable, member or item it was called on.  Every statement,
expression, operation and turn of a loop costs one operation; the depth of
evaluation is bounded as well.
-/

namespace BookRules.Script

open Value Run

/-- What is selected from an object. -/
inductive Step
  | property (name : String) (safe : Bool)
  | index (position : Value) (safe : Bool)
  | method (name : String) (arguments : List Value) (safe : Bool)

/-- The object at the root of a selection. -/
def Expr.root : Expr → Expr
  | .property object _ _ => object.root
  | .index object _ _ => object.root
  | .method object _ _ _ => object.root
  | e => e

/-- The new value of a target under an assignment. -/
def assigned (op : Option Operator) (old v : Value) : Option Value :=
  match op with
  | none => some v
  | some .add =>
    match old, v with
    | .list items, .list more => some (.list (items ++ more))
    | .list items, v => some (.list (items ++ [v]))
    | .text s, v => some (.text (s ++ String.ofList v.plain))
    | old, v => operate .add old v
  | some op => operate op old v

/-- How many arguments a function still takes. -/
def arity? (env : Surroundings) : Value → Option Nat
  | .function (.anonymous parameters _) bound => some (parameters.length - bound.length)
  | .function (.named name) bound =>
    (env.functions.find? fun f => f.name == name).map fun f =>
      f.parameters.length - bound.length
  | _ => none

/-- The receiver and the arguments for a function that takes `count` of them.
An item is given as the receiver, or as the argument at place `at_`, and further
arguments only to functions that take them. -/
def adapted (count : Nat) (item : Option Value) (at_ : Nat) (arguments extra : List Value) :
    Option (Option Value × List Value) :=
  let given := arguments.length
  let moved := arguments.take at_ ++ item.toList ++ arguments.drop at_
  if count == given then some (item, arguments)
  else if item.isSome && count == given + 1 then some (none, moved)
  else if item.isSome && count == given + 1 + extra.length then some (none, moved ++ extra)
  else if count == given + extra.length then some (item, arguments ++ extra)
  else none

/-- Whether a value is an order in which the first of two items may stay first. -/
def keepsOrder : Value → Bool
  | .int n => n ≤ 0
  | .bool b => b
  | _ => true

/-- The truth of a value; only truth values have one. -/
def truth : Value → Run Bool
  | .bool b => return b
  | _ => Run.fault

/-- A constant pattern takes a value of the same kind. -/
def Expr.takes (v : Value) : Expr → Bool
  | .unit => same v .unit
  | .bool b => same v (.bool b)
  | .int n => v.typeName == "i64" && same v (.int n)
  | .float x => v.typeName == "f64" && same v (.float x)
  | .char c => v.typeName == "char" && same v (.char c)
  | .text s => v.typeName == "string" && same v (.text s)
  | _ => false

/-- A range as a pattern. -/
def Expr.covers (v : Value) : Expr → Bool
  | .range (.int first) (.int last) closed =>
    match v with
    | .int n => first ≤ n && (if closed then n ≤ last else n < last)
    | .float x =>
      floatOfInt first ≤ x && (if closed then x ≤ floatOfInt last else x < floatOfInt last)
    | _ => false
  | _ => false

def Case.patterns : Case → List Expr
  | .mk patterns _ _ => patterns

/-- The cases a value may go to, in the order in which they are tried: those
with the value itself, those with a range around it, and those for every
value. -/
def candidates (v : Value) (cases : List Case) : List Case :=
  (cases.filter fun c => c.patterns.any (Expr.takes v)) ++
    (cases.filter fun c => c.patterns.any (Expr.covers v)) ++
    cases.filter fun c => c.patterns.isEmpty

mutual

def eval (env : Surroundings) : Nat → Expr → Run Value
  | 0, _ => throw .exhausted
  | fuel + 1, e => do
    spend 1
    match e with
    | .unit => return .unit
    | .bool b => return .bool b
    | .int n => return .int n
    | .float x => return .float x
    | .char c => return .char c
    | .text s => return .text s
    | .joined parts =>
      let values ← parts.mapM (eval env fuel)
      bounded (ofChars (values.flatMap plain))
    | .list items => return .list (← items.mapM (eval env fuel))
    | .map members =>
      let values ← members.mapM fun (name, e) => return (name, ← eval env fuel e)
      return .map (mergeMembers [] values)
    | .variable name => variable_ name
    | .call name arguments => callNamed env fuel name arguments
    | .property _ _ _ | .index _ _ _ | .method _ _ _ _ => selection env fuel e none
    | .not e => return .bool !(← truth (← eval env fuel e))
    | .negate e => need (negative? (← eval env fuel e))
    | .binary op left right =>
      let a ← eval env fuel left
      let b ← eval env fuel right
      spend 1
      bounded (← need (operate op a b))
    | .and left right =>
      if ← truth (← eval env fuel left) then return .bool (← truth (← eval env fuel right))
      else return .bool false
    | .or left right =>
      if ← truth (← eval env fuel left) then return .bool true
      else return .bool (← truth (← eval env fuel right))
    | .orElse left right =>
      match ← eval env fuel left with
      | .unit => eval env fuel right
      | v => return v
    | .range first last closed =>
      match ← eval env fuel first, ← eval env fuel last with
      | .int a, .int b => return .range a b closed
      | _, _ => Run.fault
    | .closure parameters mentions body =>
      let outer := mentions.eraseDups.filter fun name => !parameters.contains name
      let shared ← outer.mapM fun name => return (name, ← share name)
      let kept := shared.filterMap fun (name, v?) => v?.map fun v => (name, v)
      return .function (.anonymous (kept.map (·.1) ++ parameters) body) (kept.map (·.2))
    | .statement s => exec env fuel s

def exec (env : Surroundings) : Nat → Statement → Run Value
  | 0, _ => throw .exhausted
  | fuel + 1, s => do
    spend 1
    match s with
    | .expression e => eval env fuel e
    | .declare name e constant =>
      declare name (← eval env fuel e) constant
      return .unit
    | .assign (.variable name) op e =>
      let v ← eval env fuel e
      spend 1
      let old ← variable_ name
      store name (← bounded (← need (assigned op old v)))
      return .unit
    | .assign target op e =>
      let v ← eval env fuel e
      selection env fuel target (some (op, v))
    | .branch condition yes no =>
      if ← truth (← eval env fuel condition) then enclosed (execAll env fuel yes)
      else enclosed (execAll env fuel no)
    | .whileLoop condition body =>
      let step : Run (Option Value) := do
        if ← truth (← eval env fuel condition) then
          turn do let _ ← execAll env fuel body
        else return some .unit
      loop step (Limits.scriptOperations + 1)
    | .doLoop body condition goOn =>
      let step : Run (Option Value) := do
        match ← turn (do let _ ← execAll env fuel body) with
        | some v => return some v
        | none =>
          if (← truth (← eval env fuel condition)) == goOn then return none
          else return some .unit
      loop step (Limits.scriptOperations + 1)
    | .forLoop name counter source body =>
      let v ← eval env fuel source
      let values ← need (elements? (Limits.scriptOperations + 1) v)
      let step (v : Value) (i : Nat) : Run (Option Value) := turn do
        match counter with
        | some counter => declare counter (.int i) false
        | none => pure ()
        declare name v false
        let _ ← execAll env fuel body
      loopOver step 0 values
    | .switch subject cases =>
      let v ← eval env fuel subject
      firstCase env fuel (candidates v cases)
    | .block body => enclosed (execAll env fuel body)
    | .breakLoop e => throw (.breakLoop (← eval env fuel e))
    | .continueLoop => throw .continueLoop
    | .giveBack e => throw (.giveBack (← eval env fuel e))
    | .throw e => throw (.fault (← eval env fuel e))
    | .attempt body error handler =>
      match ← outcome (enclosed (execAll env fuel body)) with
      | .error (.fault thrown) =>
        enclosed do
          match error with
          | some name => declare name thrown false
          | none => pure ()
          let _ ← execAll env fuel handler
        return .unit
      | result => resume result

/-- The value of the last of some statements. -/
def execAll (env : Surroundings) : Nat → List Statement → Run Value
  | 0, _ => throw .exhausted
  | _ + 1, [] => return .unit
  | fuel + 1, [s] => exec env fuel s
  | fuel + 1, s :: rest => do
    let _ ← exec env fuel s
    execAll env fuel rest

/-- The value of the first case whose condition holds. -/
def firstCase (env : Surroundings) : Nat → List Case → Run Value
  | 0, _ => throw .exhausted
  | _ + 1, [] => return .unit
  | fuel + 1, .mk _ condition body :: rest => do
    let holds ← match condition with
      | some e => truth (← eval env fuel e)
      | none => pure true
    if holds then exec env fuel body else firstCase env fuel rest

/-- What is selected from the root of an expression, or the assignment to it. -/
def selection (env : Surroundings) : Nat → Expr → Option (Option Operator × Value) → Run Value
  | 0, _, _ => throw .exhausted
  | fuel + 1, e, assignment => do
    let path ← steps env fuel e
    match e.root with
    | .variable name =>
      let object ← variable_ name
      let (v, changed) ← walk env fuel object path assignment
      match changed with
      | some object => store name object
      | none => pure ()
      return v
    | root =>
      let object ← eval env fuel root
      let (v, _) ← walk env fuel object path assignment
      return v

/-- The steps of a selection, their arguments evaluated from left to right. -/
def steps (env : Surroundings) : Nat → Expr → Run (List Step)
  | 0, _ => throw .exhausted
  | fuel + 1, e => do
    match e with
    | .property object name safe =>
      return (← steps env fuel object) ++ [.property name safe]
    | .index object position safe =>
      let before ← steps env fuel object
      return before ++ [.index (← eval env fuel position) safe]
    | .method object name arguments safe =>
      let before ← steps env fuel object
      return before ++ [.method name (← arguments.mapM (eval env fuel)) safe]
    | _ => return []

/-- Take steps from an object; gives the value and, if it was changed, the
object. -/
def walk (env : Surroundings) : Nat → Value → List Step → Option (Option Operator × Value) →
    Run (Value × Option Value)
  | 0, _, _, _ => throw .exhausted
  | _ + 1, object, [], none => return (object, none)
  | _ + 1, object, [], some (op, v) => do
    return (.unit, some (← bounded (← need (assigned op object v))))
  | fuel + 1, object, step :: rest, assignment => do
    spend 1
    match step, object with
    | .property _ true, .unit | .index _ true, .unit | .method _ _ true, .unit =>
      return (.unit, none)
    | .property name _, object =>
      let old ← need (Library.property? object name)
      let (v, changed) ← walk env fuel old rest assignment
      match changed with
      | none => return (v, none)
      | some new =>
        match Library.setProperty? object name new with
        | some object => return (v, some object)
        | none => if assignment.isSome then Run.fault else return (v, none)
    | .index position _, object =>
      let old ← need (item? object position)
      let (v, changed) ← walk env fuel old rest assignment
      match changed with
      | none => return (v, none)
      | some new =>
        match setItem? object position new with
        | some object => return (v, some (← bounded object))
        | none => if assignment.isSome then Run.fault else return (v, none)
    | .method name arguments _, object =>
      let (v, changed) ← callMethod env fuel name object arguments
      let (v, _) ← walk env fuel v rest assignment
      return (v, changed)

/-- Call a function of the script. -/
def invoke (env : Surroundings) : Nat → List String → List Statement → List Value →
    Option Value → Run (Value × Option Value)
  | 0, _, _, _, _ => throw .exhausted
  | fuel + 1, parameters, body, arguments, receiver => do
    let before ← get
    if Limits.scriptCalls ≤ before.level then throw .exhausted
    let scope := (parameters.zip arguments).map fun (name, value) => ({ name, value } : Slot)
    set { before with scope, level := before.level + 1, receiver }
    let result ← outcome (execAll env fuel body)
    let after ← get
    set { after with scope := before.scope, level := before.level, receiver := before.receiver }
    match result with
    | .ok v | .error (.giveBack v) => return (v, after.receiver)
    | .error e => throw e

/-- Call a function value. -/
def callValue (env : Surroundings) : Nat → Value → List Value → Option Value →
    Run (Value × Option Value)
  | 0, _, _, _ => throw .exhausted
  | fuel + 1, f, arguments, receiver => do
    match f with
    | .function (.anonymous parameters body) bound =>
      let arguments := bound ++ arguments
      if arguments.length != parameters.length then Run.fault
      invoke env fuel parameters [body] arguments receiver
    | .function (.named name) bound =>
      let arguments := bound ++ arguments
      match env.functions.find? fun f =>
          f.name == name && f.parameters.length == arguments.length with
      | some f => invoke env fuel f.parameters f.body arguments receiver
      | none =>
        match ← native env fuel name (receiver.toList ++ arguments) with
        | some reply => return (reply.value, receiver.bind fun _ => reply.changed)
        | none => Run.fault
    | _ => Run.fault

/-- Call a function value with an item, in the way it takes it. -/
def callAdapted (env : Surroundings) : Nat → Value → Option Value → Nat → List Value →
    List Value → Run (Value × Option Value)
  | 0, _, _, _, _, _ => throw .exhausted
  | fuel + 1, f, item, at_, arguments, extra => do
    match arity? env f with
    | some count =>
      let (receiver, arguments) ← need (adapted count item at_ arguments extra)
      callValue env fuel f arguments receiver
    | none => callValue env fuel f (arguments.take at_ ++ item.toList ++ arguments.drop at_) none

/-- Call a function by name. -/
def callNamed (env : Surroundings) : Nat → String → List Expr → Run Value
  | 0, _, _ => throw .exhausted
  | fuel + 1, name, arguments => do
    let values ← arguments.mapM (eval env fuel)
    spend 1
    match env.functions.find? fun f =>
        f.name == name && f.parameters.length == values.length with
    | some f => return (← invoke env fuel f.parameters f.body values none).1
    | none =>
      match name, values with
      | "Fn", [.text f] => return .function (.named f) []
      | "call", f :: rest => return (← callValue env fuel f rest none).1
      | "curry", .function code bound :: rest => return .function code (bound ++ rest)
      | "is_def_var", [.text x] => return .bool (← slot? x).isSome
      | "is_def_fn", [.text f, .int count] =>
        return .bool (env.functions.any fun g => g.name == f && g.parameters.length == count.toNat)
      | "exit", [] => throw (.finish .unit)
      | "exit", [v] => throw (.finish v)
      | _, _ =>
        let reply ← need (← native env fuel name values)
        match reply.changed, arguments with
        | some object, .variable x :: _ => if ← isFree x then store x (← bounded object)
        | _, _ => pure ()
        bounded reply.value

/-- Call a method; gives the value and, if it was changed, the object. -/
def callMethod (env : Surroundings) : Nat → String → Value → List Value →
    Run (Value × Option Value)
  | 0, _, _, _ => throw .exhausted
  | fuel + 1, name, object, arguments => do
    let own := match object with
      | .map members => (member? name members).filter fun v => v.typeName == "Fn"
      | _ => none
    match own, env.functions.find? (fun f =>
        f.name == name && f.parameters.length == arguments.length) with
    | some f, _ => callValue env fuel f arguments (some object)
    | none, some f => invoke env fuel f.parameters f.body arguments (some object)
    | none, none =>
      match name, object with
      | "call", .function _ _ => callValue env fuel object arguments none
      | "curry", .function code bound => return (.function code (bound ++ arguments), none)
      | _, _ =>
        let reply ← need (← native env fuel name (object :: arguments))
        match reply.changed with
        | some object => return (← bounded reply.value, some (← bounded object))
        | none => return (← bounded reply.value, none)

/-- Call a function of the language, if there is one. -/
def native (env : Surroundings) : Nat → String → List Value → Run (Option Reply)
  | 0, _, _ => throw .exhausted
  | fuel + 1, name, arguments => do
    match name, arguments with
    | "get", [.text key] => return some { value := .text (env.textOf key) }
    | _, .list items :: .function code bound :: rest =>
      match ← overList env fuel name items (.function code bound) rest with
      | some reply => return some reply
      | none => return Library.call name arguments
    | _, .map members :: [.function code bound] =>
      match ← overMap env fuel name members (.function code bound) with
      | some reply => return some reply
      | none => return Library.call name arguments
    | _, _ => return Library.call name arguments

/-- Functions that apply a function to the items of a list. -/
def overList (env : Surroundings) : Nat → String → List Value → Value → List Value →
    Run (Option Reply)
  | 0, _, _, _, _ => throw .exhausted
  | fuel + 1, name, items, f, rest => do
    let result (v : Value) (i : Nat) : Run Value := do
      return (← callAdapted env fuel f (some v) 0 [] [.int i]).1
    let holds (v : Value) (i : Nat) : Run Bool := do
      match ← result v i with
      | .bool b => return b
      | _ => return false
    let marked (start : Nat) : Run (List (Value × Nat × Bool)) :=
      (items.drop start).zipIdx start |>.mapM fun (v, i) => return (v, i, ← holds v i)
    let first? (start : Nat) (wanted : Bool) : Run (Option (Value × Nat)) := do
      ((items.drop start).zipIdx start).findM? fun (v, i) => return (← holds v i) == wanted
    let fold (items : List (Value × Nat)) (start : Value) : Run Value :=
      items.foldlM (fun done (v, i) =>
        return (← callAdapted env fuel f none 0 [done, v] [.int i]).1) start
    let sorted : Run (List Value) :=
      Run.sort (fun a b => return keepsOrder (← callValue env fuel f [a, b] none).1)
        (items.length + 1) items
    match name, rest with
    | "map", [] => return some { value := .list (← items.zipIdx.mapM fun (v, i) => result v i) }
    | "filter", [] =>
      return some { value := .list ((← marked 0).filterMap fun (v, _, b) => if b then some v else none) }
    | "retain", [] =>
      let all ← marked 0
      return some
        { value := .list (all.filterMap fun (v, _, b) => if b then none else some v),
          changed := some (.list (all.filterMap fun (v, _, b) => if b then some v else none)) }
    | "drain", [] =>
      let all ← marked 0
      return some
        { value := .list (all.filterMap fun (v, _, b) => if b then some v else none),
          changed := some (.list (all.filterMap fun (v, _, b) => if b then none else some v)) }
    | "for_each", [] =>
      let new ← items.zipIdx.mapM fun (v, i) => do
        let (_, changed) ← callAdapted env fuel f (some v) 0 [] [.int i]
        return changed.getD v
      return some (.change (.list new))
    | "some", [] => return some { value := .bool (← first? 0 true).isSome }
    | "all", [] => return some { value := .bool (← first? 0 false).isNone }
    | "find", [] => return some { value := ((← first? 0 true).map (·.1)).getD .unit }
    | "find", [.int start] =>
      let (offset, _) := part items.length start 0
      return some { value := ((← first? offset true).map (·.1)).getD .unit }
    | "index_of", [] =>
      return some { value := .int (((← first? 0 true).map fun p => (p.2 : Int)).getD (-1)) }
    | "index_of", [.int start] =>
      let (offset, _) := part items.length start 0
      return some { value := .int (((← first? offset true).map fun p => (p.2 : Int)).getD (-1)) }
    | "find_map", [] =>
      let found ← items.zipIdx.findSomeM? fun (v, i) => do
        match ← result v i with
        | .unit => return none
        | w => return some w
      return some { value := found.getD .unit }
    | "reduce", [] => return some { value := ← fold items.zipIdx .unit }
    | "reduce", [start] => return some { value := ← fold items.zipIdx start }
    | "reduce_rev", [] => return some { value := ← fold items.zipIdx.reverse .unit }
    | "reduce_rev", [start] => return some { value := ← fold items.zipIdx.reverse start }
    | "sort", [] | "sort_by", [] => return some (.change (.list (← sorted)))
    | "order", [] | "order_by", [] => return some { value := .list (← sorted) }
    | "dedup", [] =>
      let kept ← items.foldlM (fun done v => do
        match done with
        | [] => return [v]
        | last :: _ =>
          match (← callValue env fuel f [v, last] none).1 with
          | .bool true => return done
          | _ => return v :: done) ([] : List Value)
      return some (.change (.list kept.reverse))
    | _, _ => return none

/-- Functions that apply a function to the members of a map. -/
def overMap (env : Surroundings) : Nat → String → List (String × Value) → Value →
    Run (Option Reply)
  | 0, _, _, _ => throw .exhausted
  | fuel + 1, name, members, f => do
    if !(["filter", "retain", "drain"].contains name) then return none
    let marked ← members.mapM fun (key, v) => do
      match (← callAdapted env fuel f (some v) 1 [.text key] []).1 with
      | .bool b => return (key, v, b)
      | _ => return (key, v, false)
    let chosen := Value.map (marked.filterMap fun (key, v, b) => if b then some (key, v) else none)
    let others := Value.map (marked.filterMap fun (key, v, b) => if b then none else some (key, v))
    match name with
    | "filter" => return some { value := chosen }
    | "retain" => return some { value := others, changed := some chosen }
    | _ => return some { value := chosen, changed := some others }

end

/-- How deep evaluation may go; calls and the nesting of expressions are bounded
by limits that come first. -/
def evaluationDepth : Nat := 60000

/-- The value of a script, if it has one. -/
def Program.run (program : Program) (textOf : String → String) (scope : List Slot) :
    Option Value :=
  let env : Surroundings := { functions := program.functions, textOf }
  let body := execAll env evaluationDepth program.body
  match (body.run.run { scope }).1 with
  | .ok v => some v
  | .error (.giveBack v) => some v
  | .error (.finish v) => some v
  | .error _ => none

end BookRules.Script
