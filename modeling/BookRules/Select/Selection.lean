import BookRules.Node
import BookRules.Rule.Mode
import BookRules.Select.JsonRule
import BookRules.Select.XPathRule

/-!
# Selection by mode

A rule for pages starts from the page or element of a node, a rule for JSON from
its value.  The modes that are no selectors select nothing.
-/

namespace BookRules.Select

/-- The texts a rule extracts from a node. -/
def strings (mode : Rule.Mode) (rule : String) (node : Node) : List String :=
  match mode with
  | .css => CssRule.strings [node.page] rule
  | .xpath => XPathRule.strings [node.page] rule
  | .jsonPath => JsonRule.strings node.value rule
  | .script | .template => []

/-- The nodes a rule selects from a node. -/
def nodes (mode : Rule.Mode) (rule : String) (node : Node) : List Node :=
  match mode with
  | .css => (CssRule.elements [node.page] rule).map .element
  | .xpath => (XPathRule.elements [node.page] rule).map .element
  | .jsonPath => (JsonRule.values node.value rule).map .json
  | .script | .template => []

end BookRules.Select
