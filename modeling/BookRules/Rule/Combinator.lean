/-!
# Combinators

A rule may be put together from fragments.  `&&` concatenates the results of
the fragments, `||` takes the first result that is not empty, and `%%` deals
the results out in turn.  `@` chains the steps of one navigation and merges
like `&&`.  Fragments are evaluated on demand: `||` asks for no fragment after
the one it takes.
-/

namespace BookRules.Rule

/-- How the fragments of a rule are merged. -/
inductive Combinator
  | none
  | and
  | or
  | combine
  | chain
  deriving DecidableEq, Repr

namespace Combinator

/-- The three tokens that separate fragments, in the order they are tried. -/
def tokens : List String :=
  ["&&", "||", "%%"]

/-- The combinator a token stands for. -/
def ofToken (token : String) : Combinator :=
  if token = "&&" then .and
  else if token = "||" then .or
  else if token = "%%" then .combine
  else if token = "@" then .chain
  else .none

variable {ι α : Type}

/-- Deal the columns out: a round takes the next item of every column that still
has one. -/
def rounds : Nat → List (List α) → List α
  | 0, _ => []
  | n + 1, columns => columns.filterMap List.head? ++ rounds n (columns.map List.tail)

/-- Item by item, as many rounds as the first list has items. -/
def interleave (results : List (List α)) : List α :=
  rounds (results.headD []).length results

/-- The first list that is not empty, and how many lists were looked at. -/
def firstNonempty (eval : ι → List α) : List ι → List α × Nat
  | [] => ([], 0)
  | x :: xs =>
    let result := eval x
    if result.isEmpty then
      let (found, asked) := firstNonempty eval xs
      (found, asked + 1)
    else
      (result, 1)

/-- The merged results of the fragments `xs`, with the number of fragments that
had to be evaluated. -/
def mergeCounting (kind : Combinator) (eval : ι → List α) (xs : List ι) : List α × Nat :=
  match kind with
  | .or => firstNonempty eval xs
  | .combine => (interleave (xs.map eval), xs.length)
  | .none | .and | .chain => (xs.flatMap eval, xs.length)

/-- The merged results of the fragments `xs`. -/
def merge (kind : Combinator) (eval : ι → List α) (xs : List ι) : List α :=
  (mergeCounting kind eval xs).1

end Combinator

end BookRules.Rule
