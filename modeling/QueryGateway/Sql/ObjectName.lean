import QueryGateway.Sql.Marker

/-!
# Object names

The names of procedures and tables: one to three components with single points between them. A
component is a plain identifier, or anything at all in double quotes in which quotes are doubled.
The names of arguments are plain identifiers.
-/

namespace QueryGateway.Sql

/-- The rest after a quoted body and its closing quote. A quote that is doubled belongs to the body,
and a body without an end has no rest. -/
def skipQuotedBody? : List Char → Option (List Char)
  | [] => none
  | ['"'] => some []
  | '"' :: '"' :: cs => skipQuotedBody? cs
  | '"' :: cs => some cs
  | _ :: cs => skipQuotedBody? cs

/-- The rest after a component of a name. A quoted body is not empty. -/
def skipComponent? : List Char → Option (List Char)
  | [] => none
  | '"' :: cs =>
    match cs with
    -- a doubled quote right behind the opening one is a character of the body
    | '"' :: '"' :: rest => skipQuotedBody? rest
    | '"' :: _ => none
    | _ => skipQuotedBody? cs
  | c :: cs => if isNameStart c then some (cs.dropWhile isNameChar) else none

/-- Whether the characters are a component and at most the given number of further ones. -/
def isNameOf : Nat → List Char → Bool
  | further, cs =>
    match skipComponent? cs with
    | none => false
    | some [] => true
    | some ('.' :: rest) =>
      match further with
      | 0 => false
      | n + 1 => isNameOf n rest
    | some _ => false

/-- **Names of objects.** -/
def isObjectName (cs : List Char) : Bool :=
  isNameOf 2 cs

/-- **Names of arguments.** -/
def isArgumentName : List Char → Bool
  | [] => false
  | c :: cs => isNameStart c && cs.all fun c => c.isAlphanum || c = '_'

end QueryGateway.Sql
