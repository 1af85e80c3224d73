/-!
# Scripts

A script is a list of statements; its value is the value of the last one.
Statements with blocks are expressions too.
-/

namespace BookRules.Script

/-- Operators between two values. -/
inductive Operator
  | add
  | sub
  | mul
  | div
  | rem
  | pow
  | shiftLeft
  | shiftRight
  | bitAnd
  | bitOr
  | bitXor
  | eq
  | ne
  | lt
  | le
  | gt
  | ge
  | inside
  deriving DecidableEq, Repr

mutual

inductive Expr
  | unit
  | bool (b : Bool)
  | int (n : Int)
  | float (x : Float)
  | char (c : Char)
  | text (s : String)
  /-- Texts and values, put together. -/
  | joined (parts : List Expr)
  | list (items : List Expr)
  | map (members : List (String × Expr))
  | variable (name : String)
  | call (name : String) (arguments : List Expr)
  /-- `safe` lets a missing object give nothing. -/
  | property (object : Expr) (name : String) (safe : Bool)
  | index (object position : Expr) (safe : Bool)
  | method (object : Expr) (name : String) (arguments : List Expr) (safe : Bool)
  | not (e : Expr)
  | negate (e : Expr)
  | binary (op : Operator) (left right : Expr)
  | and (left right : Expr)
  | or (left right : Expr)
  /-- The left value, or the right one when the left is nothing. -/
  | orElse (left right : Expr)
  | range (first last : Expr) (closed : Bool)
  /-- `mentions` are the words in the body. -/
  | closure (parameters mentions : List String) (body : Statement)
  | statement (s : Statement)

inductive Statement
  | expression (e : Expr)
  | declare (name : String) (value : Expr) (constant : Bool)
  | assign (target : Expr) (op : Option Operator) (value : Expr)
  | branch (condition : Expr) (yes no : List Statement)
  | whileLoop (condition : Expr) (body : List Statement)
  /-- The body is run again as long as the condition has the value `goOn`. -/
  | doLoop (body : List Statement) (condition : Expr) (goOn : Bool)
  | forLoop (name : String) (counter : Option String) (source : Expr) (body : List Statement)
  | switch (subject : Expr) (cases : List Case)
  | block (body : List Statement)
  | breakLoop (value : Expr)
  | continueLoop
  /-- The value of the function, or of the script. -/
  | giveBack (value : Expr)
  | throw (value : Expr)
  | attempt (body : List Statement) (error : Option String) (handler : List Statement)

/-- A case of a switch; without patterns it takes every value. -/
inductive Case
  | mk (patterns : List Expr) (condition : Option Expr) (body : Statement)

end

/-- A function of a script. -/
structure Function where
  name : String
  parameters : List String
  body : List Statement

/-- A script with its functions. -/
structure Program where
  functions : List Function
  body : List Statement

end BookRules.Script
