import BookRules.Url.Basic
import BookRules.Url.Encoding

/-!
# Paths

Reading the path of a URL segment by segment: segments of one and two dots are
resolved, a drive letter stays at the front of the path of a file, and what comes
behind the path is cut off.
-/

namespace BookRules

namespace Url

/-- The segments of a path that starts with a slash. -/
def segmentsOf (path : List Char) : List (List Char) :=
  (path.splitOnP (· == '/')).drop 1

/-- The path of segments in reverse. -/
def pathOf (segments : List (List Char)) : List Char :=
  segments.reverse.flatMap ('/' :: ·)

/-- A letter and a colon or bar. -/
def isDrive (segment : List Char) : Bool :=
  match segment with
  | [c, d] => c.isAlpha && (d == ':' || d == '|')
  | _ => false

/-- A letter and a colon. -/
def isNormalDrive (segment : List Char) : Bool :=
  isDrive segment && segment.getLast? == some ':'

/-- The reference starts with a drive. -/
def startsWithDrive (cs : List Char) : Bool :=
  isDrive (cs.take 2) &&
    match cs.drop 2 with
    | [] => true
    | c :: _ => c == '/' || c == '\\' || c == '?' || c == '#'

/-- Drop the last segment, but not a drive. -/
def dropSegment (kind : Kind) (segments : List (List Char)) : List (List Char) :=
  match segments with
  | [segment] => if kind == .file && isNormalDrive segment then [segment] else []
  | _ => segments.drop 1

def isSingleDot (segment : List Char) : Bool :=
  let s := Text.lowerAscii segment
  s == ['.'] || s == ['%', '2', 'e']

def isDoubleDot (segment : List Char) : Bool :=
  ["..", ".%2e", "%2e.", "%2e%2e"].contains (String.ofList (Text.lowerAscii segment))

/-- Add a segment that was read; `slash` says whether a slash follows. -/
def addSegment (kind : Kind) (slash : Bool) (segment : List Char)
    (segments : List (List Char)) : List (List Char) :=
  if isDoubleDot segment then
    let shorter := dropSegment kind segments
    if slash then shorter else [] :: shorter
  else if isSingleDot segment then
    if slash then segments else [] :: segments
  else if kind == .file && segments.isEmpty && isDrive segment then
    (segment.take 1 ++ [':']) :: segments
  else segment :: segments

/-- Read a path up to a query or a fragment.  `segments` and `segment` hold what
was read, in reverse. -/
def readPath (kind : Kind) (segments : List (List Char)) (segment : List Char) :
    List Char → List (List Char) × List Char
  | [] => (addSegment kind false segment.reverse segments, [])
  | c :: rest =>
    if c == '/' || (c == '\\' && kind.isSpecial) then
      readPath kind (addSegment kind true segment.reverse segments) [] rest
    else if c == '?' || c == '#' then
      (addSegment kind false segment.reverse segments, c :: rest)
    else
      let encoded := percentChar keepPath c
      if kind == .file && segments.isEmpty && isNormalDrive segment.reverse then
        readPath kind [segment.reverse] encoded.reverse rest
      else readPath kind segments (encoded.reverse ++ segment) rest

/-- The path behind segments in reverse.  Paths of files have no empty segments
in front. -/
def finishPath (kind : Kind) (segments : List (List Char)) : List Char :=
  let path := pathOf segments
  if kind == .file then '/' :: path.dropWhile (· == '/') else path

/-- Read a query and a fragment. -/
def readTail (kind : Kind) (cs : List Char) : Option (List Char) × Option (List Char) :=
  let (query, cs) := match cs with
    | '?' :: rest =>
      let keep := if kind.isSpecial then keepSpecialQuery else keepQuery
      (some ((rest.takeWhile (· != '#')).flatMap (percentChar keep)), rest.dropWhile (· != '#'))
    | _ => (none, cs)
  (query, match cs with
    | '#' :: rest => some (rest.flatMap (percentChar keepFragment))
    | _ => none)

/-- The front of a URL with a path that continues some segments, in reverse. -/
def withPath (scheme : List Char) (authority : Option (List Char))
    (segments : List (List Char)) (cs : List Char) : Url :=
  let kind := kindOf scheme
  let (segments, rest) := readPath kind segments [] cs
  let (query, fragment) := readTail kind rest
  { scheme, authority, path := finishPath kind segments, query, fragment }

end Url

end BookRules
