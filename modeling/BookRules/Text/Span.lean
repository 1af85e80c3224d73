/-!
# Replacing spans

A recogniser looks at the front of a text; where it recognises a span it gives
the replacement and what follows the span.  Spans are looked for from left to
right and do not overlap, and a replacement is not looked at again.
-/

namespace BookRules.Text

/-- What a span is replaced by, and what follows it. -/
abbrev Recogniser :=
  List Char → Option (List Char × List Char)

/-- Replace the spans; `skip` characters of the span found last are still to be
passed over. -/
def replaceSpansFrom (recognise : Recogniser) : Nat → List Char → List Char
  | _, [] => []
  | skip + 1, _ :: rest => replaceSpansFrom recognise skip rest
  | 0, c :: rest =>
    match recognise (c :: rest) with
    | some (replacement, after) =>
      replacement ++ replaceSpansFrom recognise (rest.length - after.length) rest
    | none => c :: replaceSpansFrom recognise 0 rest

def replaceSpans (recognise : Recogniser) (cs : List Char) : List Char :=
  replaceSpansFrom recognise 0 cs

/-- The first span's replacement, if there is a span. -/
def firstSpan? (recognise : Recogniser) : List Char → Option (List Char)
  | [] => none
  | c :: rest =>
    match recognise (c :: rest) with
    | some (replacement, _) => some replacement
    | none => firstSpan? recognise rest

end BookRules.Text
