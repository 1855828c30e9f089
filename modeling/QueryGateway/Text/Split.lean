/-!
# Splitting and joining

A text is split at every occurrence of a separator: `n` separators give `n + 1` parts, empty ones
included, and joining the parts with the separator gives the text back.
-/

namespace QueryGateway.Text

/-- **The parts between separators.** A text without separator is its own single part. -/
def splitChars (separator : Char) : List Char → List (List Char)
  | [] => [[]]
  | c :: cs =>
    if c = separator then [] :: splitChars separator cs
    else
      match splitChars separator cs with
      | part :: parts => (c :: part) :: parts
      | [] => [[c]]

/-- The parts of a text between separators. -/
def split (separator : Char) (s : String) : List String :=
  (splitChars separator s.toList).map String.ofList

/-- The texts with the separator between them. -/
def join (separator : String) : List String → String
  | [] => ""
  | [s] => s
  | s :: t :: rest => s ++ separator ++ join separator (t :: rest)

/-- The part before the first separator and the part after it, if there is one. -/
def cutAt (separator : Char) (cs : List Char) : List Char × Option (List Char) :=
  match cs.dropWhile (· != separator) with
  | [] => (cs, none)
  | _ :: rest => (cs.takeWhile (· != separator), some rest)

end QueryGateway.Text
