import BookRules.Json.Value

/-!
# Bindings

Names with their texts, ordered by name, each name once.
-/

namespace BookRules

/-- Names with their texts, in the order of the names. -/
abbrev Bindings :=
  List (String × String)

namespace Bindings

/-- The text of a name. -/
def get? (name : String) : Bindings → Option String
  | [] => none
  | (k, v) :: rest => if k = name then some v else get? name rest

/-- Give a name a text; a name that is bound gets the new one. -/
def set (name text : String) : Bindings → Bindings
  | [] => [(name, text)]
  | (k, v) :: rest =>
    if k = name then (name, text) :: rest
    else if name < k then (name, text) :: (k, v) :: rest
    else (k, v) :: set name text rest

/-- Bind one name after the other. -/
def setAll (pairs : List (String × String)) (bindings : Bindings) : Bindings :=
  pairs.foldl (fun bindings (name, text) => set name text bindings) bindings

/-- Bindings from pairs in any order; the last text of a name counts. -/
def ofPairs (pairs : List (String × String)) : Bindings :=
  setAll pairs []

end Bindings

end BookRules
