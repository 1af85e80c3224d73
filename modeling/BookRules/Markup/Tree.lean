import BookRules.Text.Blank
import BookRules.Limits

/-!
# Document trees

A document is a tree of elements, texts and comments.  The content of a
template hangs below the template as a fragment, so it is written out and
searched like other content, but no element is the parent of what it holds at
its top.

An `Element` is an element at its place: it carries the way up to the document,
and for every level the siblings on both sides.
-/

namespace BookRules.Markup

/-- The vocabulary an element belongs to. -/
inductive Vocabulary
  | html
  | svg
  | math
  deriving DecidableEq, Repr

/-- The vocabulary an attribute belongs to; most have none. -/
inductive AttributeSpace
  | none
  | xlink
  | xml
  | xmlns
  deriving DecidableEq, Repr

structure Attribute where
  space : AttributeSpace
  name : String
  value : String
  deriving DecidableEq, Repr

namespace Attribute

/-- The name as it is written. -/
def fullName (a : Attribute) : String :=
  match a.space with
  | .none => a.name
  | .xlink => "xlink:" ++ a.name
  | .xml => "xml:" ++ a.name
  | .xmlns => if a.name = "xmlns" then a.name else "xmlns:" ++ a.name

/-- Attributes without a space come first, by name; then the ones with a space,
by space and name. -/
def rank (a : Attribute) : Nat :=
  match a.space with
  | .none => 0
  | .xlink => 2
  | .xml => 3
  | .xmlns => if a.name = "xmlns" then 1 else 4

/-- The order in which attributes are kept. -/
def precedes (a b : Attribute) : Bool :=
  a.rank < b.rank || (a.rank == b.rank && a.name < b.name)

/-- Put an attribute at its place. -/
def insert (a : Attribute) : List Attribute → List Attribute
  | [] => [a]
  | b :: rest => if a.precedes b then a :: b :: rest else b :: insert a rest

end Attribute

/-- The name of an element and its attributes in order. -/
structure Tag where
  vocabulary : Vocabulary
  name : String
  attributes : List Attribute
  deriving DecidableEq, Repr

namespace Tag

/-- The value of a plain attribute. -/
def value? (tag : Tag) (name : String) : Option String :=
  (tag.attributes.find? fun a => a.space == .none && a.name == name).map (·.value)

end Tag

inductive Tree
  | element (tag : Tag) (children : List Tree)
  | text (content : String)
  | comment (content : String)
  | doctype (name : String)
  | fragment (children : List Tree)

/-- What a node hangs below. -/
inductive Parent
  | document
  | fragment
  | element (tag : Tag)
  deriving DecidableEq, Repr

/-- One level of the way up: the parent and the siblings on both sides, the
nearest first. -/
structure Level where
  parent : Parent
  before : List Tree
  after : List Tree

/-- An element at its place in a document. -/
structure Element where
  tag : Tag
  children : List Tree
  above : List Level

namespace Element

/-- The position on every level; it tells elements of one document apart. -/
def address (e : Element) : List Nat :=
  e.above.map (·.before.length)

/-- Two places in one document are the same. -/
def samePlace (a b : Element) : Bool :=
  a.address == b.address

/-- The elements among some siblings, each at its place. -/
def amongSiblings (parent : Parent) (above : List Level) (before : List Tree) :
    List Tree → List Element
  | [] => []
  | tree :: rest =>
    match tree with
    | .element tag children =>
      { tag, children, above := { parent, before, after := rest } :: above } ::
        amongSiblings parent above (tree :: before) rest
    | _ => amongSiblings parent above (tree :: before) rest

/-- The elements directly inside an element. -/
def childElements (e : Element) : List Element :=
  amongSiblings (.element e.tag) e.above [] e.children

mutual

/-- The elements in a tree, in document order, in front of `tail`. -/
def inTree (level : Level) (above : List Level) (tail : List Element) : Tree → List Element
  | .element tag children =>
    { tag, children, above := level :: above } ::
      inTrees (.element tag) (level :: above) [] tail children
  | .fragment children => inTrees .fragment (level :: above) [] tail children
  | _ => tail

def inTrees (parent : Parent) (above : List Level) (before : List Tree) (tail : List Element) :
    List Tree → List Element
  | [] => tail
  | tree :: rest =>
    inTree { parent, before, after := rest } above
      (inTrees parent above (tree :: before) tail rest) tree

end

/-- The elements inside an element, in document order. -/
def descendants (e : Element) : List Element :=
  inTrees (.element e.tag) e.above [] [] e.children

/-- The element directly around an element, at its place. -/
def parent? (e : Element) : Option Element :=
  match e.above with
  | [] => none
  | level :: above =>
    match level.parent with
    | .element tag =>
      some { tag, above,
             children := level.before.reverse ++ .element e.tag e.children :: level.after }
    | _ => none

/-- The nearest element among siblings that start with the nearest one. -/
def nearest? (rebuild : List Tree → Tree → List Tree → Level) (above : List Level)
    (passed : List Tree) : List Tree → Option Element
  | [] => none
  | .element tag children :: rest =>
    some { tag, children, above := rebuild passed (.element tag children) rest :: above }
  | tree :: rest => nearest? rebuild above (tree :: passed) rest

/-- The element before an element under the same parent. -/
def previous? (e : Element) : Option Element :=
  match e.above with
  | [] => none
  | level :: above =>
    nearest? (fun passed _ rest =>
        { parent := level.parent, before := rest,
          after := passed ++ .element e.tag e.children :: level.after })
      above [] level.before

/-- The element after an element under the same parent. -/
def next? (e : Element) : Option Element :=
  match e.above with
  | [] => none
  | level :: above =>
    nearest? (fun passed _ rest =>
        { parent := level.parent, after := rest,
          before := passed ++ .element e.tag e.children :: level.before })
      above [] level.after

end Element

end BookRules.Markup
