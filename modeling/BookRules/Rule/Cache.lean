import BookRules.Limits
import BookRules.Rule.Pipeline

/-!
# Remembered pipelines

A pipeline is remembered by its rule and the content it was read for, so that it
is read once.  A full cache is emptied before the next pipeline is added.  Every
pipeline that was read has a number of its own, which tells whether two answers
are the same pipeline or two that were read from the same rule.
-/

namespace BookRules.Rule

/-- A pipeline that was read. -/
structure Remembered where
  content : Content
  rule : String
  stages : List Stage
  /-- How many pipelines were read before. -/
  number : Nat
  stages_eq : stages = pipeline content rule

/-- The pipelines that are remembered. -/
structure Cache where
  entries : List Remembered := []
  /-- How many pipelines were read. -/
  read : Nat := 0

namespace Cache

/-- The pipeline that is remembered for a rule. -/
def find? (cache : Cache) (content : Content) (rule : String) : Option Remembered :=
  cache.entries.find? fun e => e.content = content && e.rule = rule

/-- The pipeline of a rule, read when it is not remembered. -/
def fetch (cache : Cache) (content : Content) (rule : String) : Remembered × Cache :=
  match cache.find? content rule with
  | some entry => (entry, cache)
  | none =>
    let entry : Remembered :=
      { content, rule, stages := pipeline content rule, number := cache.read, stages_eq := rfl }
    let kept := if Limits.cachedPipelines ≤ cache.entries.length then [] else cache.entries
    (entry, { entries := entry :: kept, read := cache.read + 1 })

end Cache

end BookRules.Rule
