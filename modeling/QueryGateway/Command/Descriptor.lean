import QueryGateway.Text.Blank
import QueryGateway.Text.LowerCase
import QueryGateway.Value.Target

/-!
# Command descriptors

What a descriptor document says about a command: its kind, its text, its timeout and its parameters.
A descriptor is compiled once and shared by all requests; a request binds values to it without
changing it.

Parameters are compared by their keys: the name without the markers in front, in lower case.
-/

namespace QueryGateway

open Text

/-! ### Names -/

/-- The character that may stand in front of the name of a parameter. -/
def marker : Char := '@'

/-- A name without the markers in front. -/
def stripMarkers (name : String) : String :=
  String.ofList (name.toList.dropWhile (· = marker))

/-- **The key of a name,** by which parameters and values find each other. -/
def parameterKey (name : String) : String :=
  lower (stripMarkers name)

/-! ### Declared types -/

/-- **The types a descriptor can declare.** There are more of them than there are targets: several
words mean one type to the database, though descriptors tell them apart. -/
inductive DeclaredType where
  | bigInt
  | int
  | smallInt
  | tinyInt
  | bit
  | char
  | nChar
  | varChar
  | nVarChar
  | text
  | nText
  | xml
  | date
  | dateTime
  | dateTime2
  | smallDateTime
  | dateTimeOffset
  | time
  | decimal
  | money
  | smallMoney
  | float
  | real
  | uniqueIdentifier
deriving DecidableEq

namespace DeclaredType

/-- The words for the declared types. They are compared without regard to the case of letters, as
all words of a descriptor are. -/
def tokens : List (String × DeclaredType) :=
  [("bigint", .bigInt), ("int", .int), ("smallint", .smallInt), ("tinyint", .tinyInt),
    ("bit", .bit), ("char", .char), ("nchar", .nChar), ("varchar", .varChar),
    ("nvarchar", .nVarChar), ("text", .text), ("ntext", .nText), ("xml", .xml), ("date", .date),
    ("datetime", .dateTime), ("datetime2", .dateTime2), ("smalldatetime", .smallDateTime),
    ("datetimeoffset", .dateTimeOffset), ("time", .time), ("decimal", .decimal),
    ("money", .money), ("smallmoney", .smallMoney), ("float", .float), ("real", .real),
    ("uniqueidentifier", .uniqueIdentifier)]

/-- The declared type of a word in any case. -/
def ofToken? (token : String) : Option DeclaredType :=
  (tokens.find? fun entry => equalAsciiCase entry.1 (trim token)).map (·.2)

/-- **The target of a declared type:** which rule converts the values of a parameter, and which type
is announced for it. Words for text come to one target, and so do those for days and times without
offset. -/
def target : DeclaredType → Target
  | .bigInt => .bigInt
  | .int => .int
  | .smallInt => .smallInt
  | .tinyInt => .tinyInt
  | .bit => .bool
  | .char | .nChar | .varChar | .nVarChar | .text | .nText | .xml => .text
  | .date | .dateTime | .dateTime2 | .smallDateTime => .dateTime
  | .dateTimeOffset => .offsetDateTime
  | .time => .time
  | .decimal | .money | .smallMoney => .decimal
  | .float => .float
  | .real => .real
  | .uniqueIdentifier => .uuid

end DeclaredType

/-! ### Directions and kinds -/

/-- **Which way a parameter travels.** Parameters that go to the database are bound to values; those
that only come back from it have no slot in a statement. -/
inductive Direction where
  | input
  | output
  | inputOutput
  | returnValue
deriving DecidableEq

namespace Direction

/-- The direction of a word in any case, with blanks around it. An unknown word has none, and the
descriptor then falls back on its default. -/
def ofToken? (token : String) : Option Direction :=
  let word := asciiLower (trim token)
  if word = "input" then some .input
  else if word = "output" then some .output
  else if word = "inputoutput" then some .inputOutput
  else if word = "returnvalue" then some .returnValue
  else none

/-- Whether a value travels to the database. -/
def isBound : Direction → Bool
  | .input => true
  | .inputOutput => true
  | _ => false

end Direction

/-- **What the text of a command is:** a statement to be run as it is, or a name that a statement is
made around. -/
inductive CommandKind where
  /-- A statement with references to parameters. -/
  | text
  /-- The name of a procedure. -/
  | storedProcedure
  /-- The name of a table. -/
  | tableDirect
deriving DecidableEq

/-- The kind of a word in any case, with blanks around it. What is no such word leaves the command a
text, as an absent attribute does. -/
def CommandKind.ofToken? (token : String) : Option CommandKind :=
  let word := asciiLower (trim token)
  if word = "text" then some .text
  else if word = "storedprocedure" then some .storedProcedure
  else if word = "tabledirect" then some .tableDirect
  else none

/-! ### Descriptors -/

/-- **What a parameter holds during a request.** A null is a value that was asked for, and tells the
database so; a parameter that is unset got none and may not do without. -/
inductive BoundValue where
  /-- A parameter that needs a value has none. -/
  | unset
  | null
  | value (v : SqlValue)
deriving DecidableEq

/-- The value that a parameter holds, if it holds one. -/
def BoundValue.value? : BoundValue → Option SqlValue
  | .value v => some v
  | _ => none

/-- **A parameter of a command,** as its element declares it. What binding needs beyond the declared
fields is derived from them: the key from the name, and the target from the type. -/
structure ParameterDescriptor where
  /-- The name as it is declared. -/
  name : String
  /-- The declared type. -/
  declaredType : DeclaredType
  /-- The direction. -/
  direction : Direction
  /-- Whether the parameter may be null. -/
  isNullable : Bool
  /-- The declared size, if it is positive. -/
  size : Option Nat
  /-- The declared precision, if it is positive. -/
  precision : Option Nat
  /-- The declared scale, if it is positive. -/
  scale : Option Nat
  /-- The declared value, if it converts to the target. -/
  defaultValue : Option SqlValue
deriving DecidableEq

namespace ParameterDescriptor

/-- The key of a parameter. -/
def key (p : ParameterDescriptor) : String :=
  parameterKey p.name

/-- The target of a parameter. -/
def target (p : ParameterDescriptor) : Target :=
  p.declaredType.target

/-- **What a parameter holds before any value is bound:** its default; without one null, if it may
be null. -/
def initialValue (p : ParameterDescriptor) : BoundValue :=
  match p.defaultValue with
  | some v => .value v
  | none => if p.isNullable then .null else .unset

end ParameterDescriptor

/-- **A compiled command:** what a document says about a command, checked once. It holds nothing of
a request, so it can be kept and shared between requests. -/
structure CommandDescriptor where
  /-- The seconds a statement may take. -/
  timeoutSeconds : Nat
  /-- What the text is. -/
  kind : CommandKind
  /-- The text of the command. -/
  text : String
  /-- The parameters, as declared. -/
  parameters : List ParameterDescriptor
deriving DecidableEq

/-- Whether a command equals itself: all its defaults do. -/
def CommandDescriptor.isComparable (d : CommandDescriptor) : Bool :=
  d.parameters.all fun p => p.defaultValue.all (·.isComparable)

/-- The index of the parameter with the key of a name. -/
def CommandDescriptor.position? (d : CommandDescriptor) (name : String) : Option Nat :=
  d.parameters.findIdx? fun p => p.key = parameterKey name

end QueryGateway
