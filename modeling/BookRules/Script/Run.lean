import BookRules.Limits
import BookRules.Script.Library.Native

/-!
# Runs of scripts

What a run keeps: the variables in sight, the variables that functions share
with their surroundings, and how much it may still do.  A run leaves its place
early when something fails, when a limit is reached, or when the script says so;
only a failure can be caught.
-/

namespace BookRules.Script

/-- Why a run leaves its place. -/
inductive Exit
  | fault (thrown : Value)
  /-- A limit is reached. -/
  | exhausted
  | breakLoop (v : Value)
  | continueLoop
  /-- The function ends with a value. -/
  | giveBack (v : Value)
  /-- The script ends with a value. -/
  | finish (v : Value)

/-- A variable in sight. -/
structure Slot where
  name : String
  value : Value
  constant : Bool := false

structure State where
  /-- Variables in sight, the newest first. -/
  scope : List Slot
  /-- Shared variables. -/
  cells : Array Value := #[]
  /-- How many operations are left. -/
  operations : Nat := Limits.scriptOperations
  /-- How many calls are open. -/
  level : Nat := 0
  /-- The object a method was called on. -/
  receiver : Option Value := none

/-- What a script can call: its own functions, and the texts of names. -/
structure Surroundings where
  functions : List Function
  textOf : String → String

abbrev Run := ExceptT Exit (StateM State)

namespace Run

def fault {α : Type} : Run α :=
  throw (.fault (.map []))

/-- A value that may be missing. -/
def need {α : Type} : Option α → Run α
  | some a => return a
  | none => fault

/-- Use up operations. -/
def spend (n : Nat) : Run Unit := do
  let s ← get
  if s.operations < n then throw .exhausted
  set { s with operations := s.operations - n }

/-- How a run ends. -/
def outcome {α : Type} (body : Run α) : Run (Except Exit α) :=
  ExceptT.lift (ExceptT.run body)

/-- Go on with a run that ended. -/
def resume {α : Type} : Except Exit α → Run α
  | .ok a => return a
  | .error e => throw e

/-- Texts may grow only so long. -/
def bounded (v : Value) : Run Value :=
  match v with
  | .text s => if Limits.scriptTextBytes < s.utf8ByteSize then throw .exhausted else return v
  | v => return v

/-- The variables that are declared inside are forgotten at the end. -/
def enclosed {α : Type} (body : Run α) : Run α := do
  let size := (← get).scope.length
  let result ← outcome body
  modify fun s => { s with scope := s.scope.drop (s.scope.length - size) }
  resume result

/-- The value behind a shared variable. -/
def content (v : Value) : Run Value := do
  match v with
  | .cell id => need (← get).cells[id]?
  | v => return v

def slot? (name : String) : Run (Option Slot) :=
  return (← get).scope.find? fun slot => slot.name == name

def variable_ (name : String) : Run Value := do
  if name == "this" then need (← get).receiver
  else content (← need (← slot? name)).value

def declare (name : String) (v : Value) (constant : Bool) : Run Unit :=
  modify fun s => { s with scope := { name, value := v, constant } :: s.scope }

/-- Change the newest slot with a name. -/
def changeSlot (name : String) (v : Value) : List Slot → List Slot
  | [] => []
  | slot :: rest =>
    if slot.name == name then { slot with value := v } :: rest
    else slot :: changeSlot name v rest

/-- Give a variable a new value. -/
def store (name : String) (v : Value) : Run Unit := do
  if name == "this" then modify fun s => { s with receiver := some v }
  else
    let slot ← need (← slot? name)
    if slot.constant then fault
    match slot.value with
    | .cell id => modify fun s => { s with cells := s.cells.setIfInBounds id v }
    | _ => modify fun s => { s with scope := changeSlot name v s.scope }

/-- Whether a variable may be changed. -/
def isFree (name : String) : Run Bool := do
  if name == "this" then return true
  return (← slot? name).any fun slot => !slot.constant

/-- Share a variable in sight; gives what stands for it. -/
def share (name : String) : Run (Option Value) := do
  match ← slot? name with
  | none => return none
  | some slot =>
    match slot.value with
    | .cell id => return some (.cell id)
    | v =>
      let id := (← get).cells.size
      modify fun s => { s with
        cells := s.cells.push v, scope := changeSlot name (.cell id) s.scope }
      return some (.cell id)

/-- One turn of a loop: the value the loop ends with, or nothing when it goes
on. -/
def turn (body : Run Unit) : Run (Option Value) := do
  match ← outcome (enclosed body) with
  | .ok _ => return none
  | .error (.breakLoop v) => return some v
  | .error .continueLoop => return none
  | .error e => throw e

/-- Turn by turn, up to the one that ends the loop.  Every turn costs an
operation, so the number of turns is bounded. -/
def loop (body : Run (Option Value)) : Nat → Run Value
  | 0 => throw .exhausted
  | fuel + 1 => do
    spend 1
    match ← body with
    | some v => return v
    | none => loop body fuel

/-- One turn for each value. -/
def loopOver (body : Value → Nat → Run (Option Value)) : Nat → List Value → Run Value
  | _, [] => return .unit
  | i, v :: rest => do
    spend 1
    match ← body v i with
    | some v => return v
    | none => loopOver body (i + 1) rest

/-- Merge two sorted lists; `keeps a b` tells that `a` may stand before `b`. -/
def merge (keeps : Value → Value → Run Bool) : Nat → List Value → List Value →
    Run (List Value)
  | 0, as, bs => return as ++ bs
  | _, [], bs => return bs
  | _, as, [] => return as
  | fuel + 1, a :: as, b :: bs => do
    if ← keeps a b then return a :: (← merge keeps fuel as (b :: bs))
    else return b :: (← merge keeps fuel (a :: as) bs)

/-- Sort by a comparison that is a run. -/
def sort (keeps : Value → Value → Run Bool) : Nat → List Value → Run (List Value)
  | 0, items => return items
  | fuel + 1, items => do
    if items.length ≤ 1 then return items
    let half := items.length / 2
    let left ← sort keeps fuel (items.take half)
    let right ← sort keeps fuel (items.drop half)
    merge keeps (items.length + 1) left right

end Run

end BookRules.Script
