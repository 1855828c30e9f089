import QueryGateway.Xml.Content
import QueryGateway.Xml.Namespaces

/-!
# Reading XML

A document is a prolog, one element and what may follow it. The reader is not validating: it takes
no document type, and refuses what is not well formed.

`Token.read?` takes one tag or one piece of text from the front of the content of an element;
`readElement?` takes tokens until the element that was opened first is closed; `parse?` reads a
whole document.
-/

namespace QueryGateway.Xml

/-! ### Names and attributes -/

/-- The qualified name at the front: at most one colon, with a name on the right of it and nothing
or a name on its left. -/
def takeQName? (cs : List Char) : Option (QName × List Char) :=
  let isPart := fun c => isNameChar c && c != ':'
  let first := cs.takeWhile isPart
  let startsName := fun (part : List Char) => part.head?.all isNameStart
  match cs.dropWhile isPart with
  | ':' :: cs =>
    let second := cs.takeWhile isPart
    let rest := cs.dropWhile isPart
    if second.isEmpty || rest.head? = some ':' then none
    else if startsName first && startsName second then
      some (⟨String.ofList first, String.ofList second⟩, rest)
    else none
  | rest =>
    if !first.isEmpty && startsName first then some (⟨"", String.ofList first⟩, rest) else none

/-- The attribute at the front, with its value as it is written. Either kind of quote may be used,
and spaces may stand around the sign between the two. -/
def takeAttribute? (cs : List Char) : Option ((QName × List Char) × List Char) := do
  let (name, cs) ← takeQName? cs
  let cs ← skip? ['='] (skipSpaces cs)
  match skipSpaces cs with
  | quote :: cs =>
    if quote = '"' || quote = '\x27' then
      let (value, cs) ← takeAllowed? (fun c => c != quote && c != '<') cs
      return ((name, value), ← skip? [quote] cs)
    else none
  | [] => none

/-- The attributes of a tag up to its end, whether the tag closes its own element, and the rest. The
count bounds the number of attributes. -/
def takeAttributes? : Nat → List Char → Option (List (QName × String) × Bool × List Char)
  | 0, _ => none
  | n + 1, cs =>
    match skipSpaces cs with
    | '/' :: '>' :: rest => some ([], true, rest)
    | '>' :: rest => some ([], false, rest)
    | inner =>
      -- a blank has to stand before an attribute, though not before the end of the tag
      if cs.head?.any isSpace then do
        let ((name, written), rest) ← takeAttribute? inner
        let value ← value? written
        let (attributes, closed, rest) ← takeAttributes? n rest
        return ((name, value) :: attributes, closed, rest)
      else none

/-! ### Tokens -/

/-- What the content of an element is made of. Tags, text and what is passed over are read one token
at a time, so nested elements need no recursion. -/
inductive Token where
  /-- A tag that opens an element, or one that stands for a whole empty element. -/
  | opening (name : QName) (attributes : List (QName × String)) (closed : Bool)
  /-- A tag that closes an element. -/
  | closing (name : QName)
  | text (s : String)
  /-- A comment or a processing instruction. -/
  | aside

/-- The rest after a comment, which is behind its opening mark. -/
def skipComment? (cs : List Char) : Option (List Char) := do
  let (inner, rest) ← takeUntil? ['-', '-', '>'] cs
  let twoHyphens := (inner.zip (inner.drop 1)).any fun p => p.1 = '-' && p.2 = '-'
  if twoHyphens || inner.getLast? = some '-' then none else some rest

/-- The rest after a processing instruction, which is behind its opening mark. The declaration of a
document is none. -/
def skipInstruction? (cs : List Char) : Option (List Char) := do
  if ['x', 'm', 'l', ' '].isPrefixOf cs then none
  else
    -- a target that only begins like a declaration is a target
    let (_, cs) ← takeName? cs
    let (_, rest) ← takeUntil? ['?', '>'] (skipSpaces cs)
    return rest

/-- The mark that opens a section of literal text. -/
def literalMark : List Char := "[CDATA[".toList

/-- The mark that closes a section of literal text, and that no other text may hold. -/
def literalEnd : List Char := "]]>".toList

/-- Whether a mark stands somewhere in the characters. -/
def holds (mark : List Char) : List Char → Bool
  | [] => mark.isEmpty
  | c :: cs => mark.isPrefixOf (c :: cs) || holds mark cs

/-- **The token at the front** of the content of an element, and the rest. -/
def Token.read? (cs : List Char) : Option (Token × List Char) :=
  match cs with
  | [] => none
  | '<' :: '!' :: '-' :: '-' :: cs => (skipComment? cs).map fun rest => (.aside, rest)
  | '<' :: '!' :: cs => do
    let cs ← skip? literalMark cs
    let (inner, rest) ← takeUntil? literalEnd cs
    return (.text (literalText inner), rest)
  | '<' :: '?' :: cs => (skipInstruction? cs).map fun rest => (.aside, rest)
  | '<' :: '/' :: cs => do
    let (name, cs) ← takeQName? cs
    return (.closing name, ← skip? ['>'] (skipSpaces cs))
  | '<' :: cs => do
    let (name, cs) ← takeQName? cs
    let (attributes, closed, rest) ← takeAttributes? (cs.length + 1) cs
    return (.opening name attributes closed, rest)
  | cs => do
    let (inner, rest) ← takeAllowed? (· != '<') cs
    if holds literalEnd inner then none else return (.text (← text? inner), rest)

/-! ### Elements -/

/-- An element whose end has not been read. A stack of these is all that reading carries along, in
place of a recursion over elements. -/
structure OpenElement where
  /-- Its name as it is written, which its end has to repeat. -/
  written : QName
  /-- Its expanded name. -/
  name : Name
  /-- Its attributes. -/
  attributes : List (Name × String)
  /-- The bindings in force inside it. -/
  scope : Scope
  /-- Its children so far, the last first. -/
  children : List Node

/-- The element with the children read so far. -/
def OpenElement.close (e : OpenElement) : Node :=
  .element e.name e.attributes e.children.reverse

/-- The element with one more child. -/
def OpenElement.add (e : OpenElement) (child : Node) : OpenElement :=
  { e with children := child :: e.children }

/-- The tokens of the open elements, the innermost first, up to the end of the outermost; its node
and the rest of the document. The count bounds the number of tokens. -/
def readContent? : Nat → OpenElement → List OpenElement → List Char → Option (Node × List Char)
  | 0, _, _, _ => none
  | n + 1, e, outer, cs =>
    match Token.read? cs with
    | none => none
    | some (.aside, rest) => readContent? n e outer rest
    | some (.text s, rest) => readContent? n (e.add (.text s)) outer rest
    | some (.closing name, rest) =>
      if name != e.written then none
      else
        match outer with
        | [] => some (e.close, rest)
        | parent :: outer => readContent? n (parent.add e.close) outer rest
    | some (.opening written attributes closed, rest) =>
      match e.scope.expand? written attributes with
      | none => none
      | some (scope, name, attributes) =>
        let inner : OpenElement := ⟨written, name, attributes, scope, []⟩
        if closed then readContent? n (e.add inner.close) outer rest
        else readContent? n inner (e :: outer) rest

/-- **The element at the front,** and the rest of the document. One that is closed in its own tag
has no content; any other is read until its end. -/
def readElement? (cs : List Char) : Option (Node × List Char) :=
  match cs with
  | '<' :: _ =>
    match Token.read? cs with
    | some (.opening written attributes closed, rest) => do
      let (scope, name, attributes) ← Scope.expand? [] written attributes
      let e : OpenElement := ⟨written, name, attributes, scope, []⟩
      if closed then return (e.close, rest) else readContent? rest.length e [] rest
    | _ => none
  | _ => none

/-! ### Documents -/

/-- The rest after the byte order mark, if there is one. -/
def skipByteOrderMark (cs : List Char) : List Char :=
  if cs.head? = some '\uFEFF' then cs.drop 1 else cs

/-- The rest after blanks, which have to stand there unless the declaration ends. -/
def skipDeclarationSpaces? (cs : List Char) : Option (List Char) :=
  if cs.head?.all isSpace || ['?', '>'].isPrefixOf cs then some (skipSpaces cs) else none

/-- The rest after an attribute of the declaration and the blanks behind it, if its name begins with
the given word. -/
def skipOptional? (word : String) (cs : List Char) : Option (List Char) :=
  if word.toList.isPrefixOf cs then (takeAttribute? cs).bind fun (_, rest) =>
    skipDeclarationSpaces? rest
  else some cs

/-- The rest after the declaration of the document, if there is one: a version, an optional encoding
and an optional statement on independence. -/
def skipDeclaration? (cs : List Char) : Option (List Char) :=
  if "<?xml ".toList.isPrefixOf cs then do
    let cs := skipSpaces (cs.drop 5)
    if "version".toList.isPrefixOf cs then
      let (_, cs) ← takeAttribute? cs
      let cs ← skipOptional? "encoding" (← skipDeclarationSpaces? cs)
      let cs ← if "standalone".toList.isPrefixOf cs then (takeAttribute? cs).map (·.2) else some cs
      skip? ['?', '>'] (skipSpaces cs)
    else none
  else some cs

/-- The rest after the blanks, comments and processing instructions at the front. The count bounds
their number. -/
def skipMisc? : Nat → List Char → Option (List Char)
  | 0, _ => none
  | n + 1, cs =>
    match skipSpaces cs with
    | '<' :: '!' :: '-' :: '-' :: cs => (skipComment? cs).bind (skipMisc? n)
    | '<' :: '?' :: cs => (skipInstruction? cs).bind (skipMisc? n)
    | rest => some rest

/-- **Reading a document:** the element at its root. A declaration may stand before it, comments and
instructions on both sides, and nothing else. -/
def parse? (s : String) : Option Node := do
  let cs ← skipDeclaration? (skipByteOrderMark s.toList)
  let (root, rest) ← readElement? (← skipMisc? (cs.length + 1) cs)
  match ← skipMisc? (rest.length + 1) rest with
  | [] => some root
  | _ => none

end QueryGateway.Xml
