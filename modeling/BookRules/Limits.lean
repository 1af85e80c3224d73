/-!
# Limits

Sources are written by third parties, so every evaluation is bounded: scripts by
their number of operations, rules by their nesting, paths by their matches, and
walks over pages by the number of pages.
-/

namespace BookRules.Limits

/-- Operations one script may perform. -/
def scriptOperations : Nat := 100000

/-- Nesting of expressions in a script. -/
def scriptDepth : Nat := 64

/-- Calls that may be open in a script. -/
def scriptCalls : Nat := 64

/-- Bytes of a text inside a script. -/
def scriptTextBytes : Nat := 4 * 1024 * 1024

/-- Nesting of rules inside rules. -/
def ruleDepth : Nat := 16

/-- Pipelines that are remembered. -/
def cachedPipelines : Nat := 256

/-- Matches of one step of a JSON path. -/
def jsonMatches : Nat := 100000

/-- Depth of elements whose text is gathered. -/
def textDepth : Nat := 256

/-- Requests of a search that may be open at once. -/
def openRequests : Nat := 8

/-- Pages of a list of chapters. -/
def tocPages : Nat := 100

def chapterPages : Nat := 20

end BookRules.Limits
