import BookRules.Rule.Stage

/-!
# Pipelines

A rule is a pipeline of stages.  Scripts stand in `<script>…</script>` or
`<js>…</js>`, or behind `@script:` or `@js:` to the end; the text between them
makes up the other stages.  A span in tags ends at the nearest closing tag, and
the letters of the marks may have either case.
-/

namespace BookRules.Rule

/-- A script inside a rule: its marks as they are written, and its source. -/
structure ScriptSpan where
  opening : List Char
  source : List Char
  closing : List Char
  deriving DecidableEq, Repr

/-- A piece of a rule. -/
inductive Piece
  | text (cs : List Char)
  | script (span : ScriptSpan)
  deriving DecidableEq, Repr

namespace Piece

/-- The piece as it is written. -/
def source : Piece → List Char
  | .text cs => cs
  | .script span => span.opening ++ span.source ++ span.closing

/-- Read up to a closing tag: what stands before it, the tag, and what
follows. -/
def upToTag? (tag : List Char) (before : List Char) :
    List Char → Option (List Char × List Char × List Char)
  | [] => none
  | c :: rest =>
    match Unicode.afterFolded? tag (c :: rest) with
    | some after => some (before.reverse, (c :: rest).take tag.length, after)
    | none => upToTag? tag (c :: before) rest

/-- Read a script in tags. -/
def tagged? (opening closing : List Char) (cs : List Char) : Option (ScriptSpan × List Char) :=
  match Unicode.afterFolded? opening cs with
  | none => none
  | some rest =>
    (upToTag? closing [] rest).map fun (source, tag, after) =>
      (⟨cs.take opening.length, source, tag⟩, after)

/-- Read a script that goes on to the end. -/
def tail? (opening : List Char) (cs : List Char) : Option (ScriptSpan × List Char) :=
  (Unicode.afterFolded? opening cs).map fun source =>
    (⟨cs.take opening.length, source, []⟩, [])

/-- Read a script, with what follows it. -/
def script? (cs : List Char) : Option (ScriptSpan × List Char) :=
  (tagged? "<script>".toList "</script>".toList cs).or <|
    (tagged? "<js>".toList "</js>".toList cs).or <|
      (tail? "@script:".toList cs).or (tail? "@js:".toList cs)

/-- Cut a rule at its scripts.  `gap` holds the piece that is being read, in
reverse, and `skip` characters belong to the script read last. -/
def cutFrom : Nat → List Char → List Char → List Piece
  | _, gap, [] => [.text gap.reverse]
  | skip + 1, gap, _ :: rest => cutFrom skip gap rest
  | 0, gap, c :: rest =>
    match script? (c :: rest) with
    | some (span, after) =>
      .text gap.reverse :: .script span :: cutFrom (rest.length - after.length) [] rest
    | none => cutFrom 0 (c :: gap) rest

def cut (rule : List Char) : List Piece :=
  cutFrom 0 [] rule

/-- The stage a piece stands for; blank pieces stand for none. -/
def stage? (content : Content) : Piece → Option Stage
  | .text cs =>
    let cs := Text.trim cs
    if cs.isEmpty then none else some (Stage.parse content cs)
  | .script span =>
    if (Text.trim span.source).isEmpty then none else some (Stage.ofScript span.source)

end Piece

def pipeline (content : Content) (rule : String) : List Stage :=
  (Piece.cut rule.toList).filterMap (Piece.stage? content)

end BookRules.Rule
