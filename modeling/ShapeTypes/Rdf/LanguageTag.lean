/-!
# Language tags

The well-formed tags of BCP 47, in lower case.

* `LanguageTag.Stage` — how far the subtags of a tag have been read;
* `LanguageTag.step?` — the stage after one more subtag;
* `LanguageTag.isWellFormed` — whether the subtags of a text make a tag, or it is registered as a whole.
-/

namespace ShapeTypes.Rdf.LanguageTag

/-- The tags that are registered as a whole. -/
def registered : List String := [
  "art-lojban", "cel-gaulish", "en-gb-oed", "i-ami", "i-bnn", "i-default", "i-enochian", "i-hak",
  "i-klingon", "i-lux", "i-mingo", "i-navajo", "i-pwn", "i-tao", "i-tay", "i-tsu", "no-bok", "no-nyn",
  "sgn-be-fr", "sgn-be-nl", "sgn-ch-de", "zh-guoyu", "zh-hakka", "zh-min", "zh-min-nan", "zh-xiang"]

/-- How far a tag has been read. A short language may have up to three extensions of its own; an extension
and a private part need a subtag after their letter. -/
inductive Stage where
  | start
  | language (extensions : Nat)
  | languageClosed
  | script
  | region
  | extension (awaited : Bool)
  | personal (awaited : Bool)
  deriving DecidableEq

/-- Whether a tag can end here. -/
def Stage.isComplete : Stage → Bool
  | start => false
  | extension awaited => !awaited
  | personal awaited => !awaited
  | _ => true

def isLetters (s : List Char) : Bool := s.all Char.isAlpha

def isDigits (s : List Char) : Bool := s.all Char.isDigit

/-- Whether a subtag is that of a region: two letters, or three digits. -/
def isRegion (s : List Char) : Bool := (s.length = 2 && isLetters s) || (s.length = 3 && isDigits s)

/-- Whether a subtag is a variant: five characters or more, or four or more after a leading digit. -/
def isVariant (s : List Char) : Bool :=
  match s with
  | [] => false
  | c :: _ => if c.isDigit then 4 ≤ s.length else 5 ≤ s.length

/-- The stage after a subtag that follows the language, the script or the region. -/
def Stage.further? (stage : Stage) (s : List Char) : Option Stage :=
  match stage with
  | language n =>
    if s.length = 3 && isLetters s then (if n < 3 then some (language (n + 1)) else none)
    else if s.length = 4 && isLetters s then some script
    else if isRegion s || isVariant s then some region
    else none
  | languageClosed =>
    if s.length = 4 && isLetters s then some script
    else if isRegion s || isVariant s then some region
    else none
  | script => if isRegion s || isVariant s then some region else none
  | region => if isVariant s then some region else none
  | _ => none

/-- The stage after one more subtag. -/
def step? (stage : Stage) (s : List Char) : Option Stage :=
  if s.isEmpty || 8 < s.length || !s.all Char.isAlphanum then none
  else
    match stage with
    | .start =>
      if s.length < 2 || !isLetters s then none
      else some (if s.length < 4 then .language 0 else .languageClosed)
    | .personal _ => some (.personal false)
    | _ =>
      if s.length = 1 then
        if stage = .extension true then none
        else some (if s = ['x'] then .personal true else .extension true)
      else if stage = .extension true || stage = .extension false then some (.extension false)
      else stage.further? s

/-- Whether subtags make a tag from a stage on. -/
def isTagFrom (stage : Stage) : List (List Char) → Bool
  | [] => stage.isComplete
  | s :: rest =>
    match step? stage s with
    | some next => isTagFrom next rest
    | none => false

/-- Whether a text in lower case is a well-formed language tag. The parts of a tag that is private as a whole
may be of any length. -/
def isWellFormed (tag : String) : Bool :=
  registered.contains tag ||
    match tag.toList with
    | 'x' :: '-' :: rest => !rest.isEmpty && rest.all fun c => c.isAlphanum || c == '-'
    | cs => isTagFrom .start (cs.splitOn '-')

end ShapeTypes.Rdf.LanguageTag
