import QueryGateway.Number.Shortest
import QueryGateway.Text.Split

/-!
# JSON values

JSON values and their compact text: no blanks, members in the order in which they are held. In a
string only the quote, the backslash and the control characters below the space are escaped.
-/

namespace QueryGateway

open Text Number

/-- **A JSON value,** as the gateway writes it. Whole numbers and floating-point numbers are told
apart, since they are written in different ways. -/
inductive Json where
  | null
  | bool (b : Bool)
  | integer (n : Int)
  | float (x : Double)
  | string (s : String)
  | array (items : List Json)
  | object (members : List (String × Json))

namespace Json

/-! ### Strings -/

/-- The escape of a character in a string. Only what has to be escaped is, so that letters of any
script stay as they are. -/
def escapeChar (c : Char) : List Char :=
  if c = '"' then ['\\', '"']
  else if c = '\\' then ['\\', '\\']
  else if c = '\n' then ['\\', 'n']
  else if c = '\r' then ['\\', 'r']
  else if c = '\t' then ['\\', 't']
  else if c.toNat = 0x08 then ['\\', 'b']
  else if c.toNat = 0x0C then ['\\', 'f']
  else if c.toNat < 0x20 then '\\' :: 'u' :: hexDigits 4 c.toNat
  else [c]

/-- A string with its quotes. -/
def quote (s : String) : String :=
  "\"" ++ String.ofList (s.toList.flatMap escapeChar) ++ "\""

/-! ### Numbers -/

/-- The decimal exponents of the numbers that are written without one. -/
def isPositional (exponent : Int) : Bool :=
  -5 ≤ exponent && exponent ≤ 15

/-- The text of `significand * 10 ^ power`. A number without an exponent has at least one digit
after its point. -/
def decimalText (significand : Nat) (power : Int) : List Char :=
  let ds := digits significand
  let exponent := power + ds.length - 1
  if isPositional exponent then
    let text := positional significand power
    if '.' ∈ text then text else text ++ ['.', '0']
  else
    let mantissa :=
      match ds with
      | [] => []
      | [d] => [d]
      | d :: rest => d :: '.' :: rest
    mantissa ++ 'e' :: (if exponent < 0 then '-' else '+') :: paddedDigits 2 exponent.natAbs

/-- The text of a finite positive number: its shortest form. -/
def positiveText (x : Double) : List Char :=
  let form := shortest .even x
  decimalText form.1 form.2

/-- The text of a floating-point number. What is no number is null, and so is an infinite one; a
zero keeps its sign. -/
def floatText (x : Double) : String :=
  if x.isNaN || x.isInfinite then "null"
  else
    let sign := if x.isNegative then "-" else ""
    if x.magnitude = 0 then sign ++ "0.0" else sign ++ String.ofList (positiveText x)

/-! ### Values -/

mutual

/-- **The compact text of a value,** without spaces. Members stand in the order in which the object
has them. -/
def render : Json → String
  | .null => "null"
  | .bool b => if b then "true" else "false"
  | .integer n => integerText n
  | .float x => floatText x
  | .string s => quote s
  | .array items => "[" ++ join "," (renderItems items) ++ "]"
  | .object members => "\x7b" ++ join "," (renderMembers members) ++ "\x7d"

/-- The texts of the items of an array. -/
def renderItems : List Json → List String
  | [] => []
  | item :: rest => item.render :: renderItems rest

/-- The texts of the members of an object. -/
def renderMembers : List (String × Json) → List String
  | [] => []
  | (name, value) :: rest => (quote name ++ ":" ++ value.render) :: renderMembers rest

end

end Json

end QueryGateway
