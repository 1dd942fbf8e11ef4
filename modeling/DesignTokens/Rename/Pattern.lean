import DesignTokens.Fault
import DesignTokens.Text.Scan

/-!
# Patterns of rename rules

A pattern is matched against a name whose segments are divided by slashes. `*` stands for one or
more characters of a segment, `**` for any number of segments, and everything else for itself up to
case. What each wildcard stands for is captured, in the order of the wildcards; a wildcard takes as
much as it can.
-/

namespace DesignTokens

/-- A part of a pattern. -/
inductive GlobPart where
  /-- One character, up to case. -/
  | literal (c : Char)
  /-- One or more characters other than slashes. -/
  | star
  /-- Any characters other than line breaks. -/
  | globstar
  /-- A first segment `**` with segments after it: any characters and a slash, or nothing. -/
  | leading
  /-- A later segment `**`: a slash and any characters, or nothing. -/
  | trailing
deriving DecidableEq, Repr

namespace Glob

/-- The parts of a segment; two stars in a row are taken together. -/
def segmentParts : List Char → List GlobPart
  | [] => []
  | '*' :: '*' :: rest => .globstar :: segmentParts rest
  | '*' :: rest => .star :: segmentParts rest
  | c :: rest => .literal c :: segmentParts rest

/-- The segment that stands for any number of segments. -/
def isGlobstar (segment : List Char) : Bool :=
  segment = ['*', '*']

/-- The parts of the segments after the first one. A segment brings the slash before it; the segment
right after a leading `**` does not, as that brings its own. -/
def laterParts (afterLeading : Bool) : List (List Char) → List GlobPart
  | [] => []
  | segment :: rest =>
    if isGlobstar segment then .trailing :: laterParts false rest
    else
      (if afterLeading then [] else [.literal '/']) ++ segmentParts segment ++
        laterParts false rest

/-- The parts of a pattern given by its segments. -/
def partsOf : List (List Char) → List GlobPart
  | [] => []
  | [segment] => if isGlobstar segment then [.globstar] else segmentParts segment
  | segment :: rest =>
    if isGlobstar segment then .leading :: laterParts true rest
    else segmentParts segment ++ laterParts false rest

/-- The parts of a pattern; a blank pattern has none. -/
def compile (pattern : String) : Except Fault (List GlobPart) :=
  if Text.isBlank pattern then .error .blankPattern
  else .ok (partsOf (pattern.toList.splitOn '/'))

/-- All ways to cut a run of characters of a class off the front of a text, the longest first. -/
def cuts (p : Char → Bool) (cs : List Char) : List (List Char × List Char) :=
  let longest := (cs.takeWhile p).length
  (List.range (longest + 1)).reverse.map fun n => (cs.take n, cs.drop n)

/-- A character of a segment. -/
def inSegment (c : Char) : Bool := c != '/'

/-- A character of a line. -/
def inLine (c : Char) : Bool := c != '\n'

/-- What the wildcards of a pattern stand for in a text, if the pattern describes it. -/
def matchParts : List GlobPart → List Char → Option (List (List Char))
  | [], cs => if cs.isEmpty then some [] else none
  | .literal l :: parts, cs => match cs with
    | c :: rest => if Text.sameLetter l c then matchParts parts rest else none
    | [] => none
  | .star :: parts, cs => (cuts inSegment cs).findSome? fun (taken, rest) =>
    if taken.isEmpty then none else (matchParts parts rest).map (taken :: ·)
  | .globstar :: parts, cs => (cuts inLine cs).findSome? fun (taken, rest) =>
    (matchParts parts rest).map (taken :: ·)
  | .leading :: parts, cs =>
    let present := (cuts inLine cs).findSome? fun (taken, rest) =>
      match rest with
      | '/' :: rest => (matchParts parts rest).map (taken :: ·)
      | _ => none
    present <|> (matchParts parts cs).map ([] :: ·)
  | .trailing :: parts, cs =>
    let present := match cs with
      | '/' :: rest => (cuts inLine rest).findSome? fun (taken, rest) =>
        (matchParts parts rest).map (taken :: ·)
      | _ => none
    present <|> (matchParts parts cs).map ([] :: ·)

/-- What the wildcards of a pattern stand for in a name, if the pattern describes it. -/
def captures (pattern name : String) : Except Fault (Option (List String)) := do
  let parts ← compile pattern
  return (matchParts parts name.toList).map (·.map String.ofList)

end Glob

end DesignTokens
