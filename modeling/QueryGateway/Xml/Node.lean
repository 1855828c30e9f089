/-!
# XML trees

An element has a name, attributes and children; a child is an element or a piece of text. Comments
and processing instructions leave no trace in the tree. Names are expanded: the namespace is the
identifier it was bound to.
-/

namespace QueryGateway.Xml

/-- An expanded name: two names are the same if the namespaces are, whatever was written before the
colon. -/
structure Name where
  /-- The identifier of the namespace, if the name is in one. -/
  space : Option String
  /-- The name within its namespace. -/
  localName : String
deriving DecidableEq

/-- **A node of a document.** -/
inductive Node where
  | element (name : Name) (attributes : List (Name × String)) (children : List Node)
  | text (s : String)

namespace Node

/-- The local name of an element. -/
def tag? : Node → Option String
  | .element name _ _ => some name.localName
  | .text _ => none

/-- Whether the node is an element with the given local name, in whatever namespace. -/
def hasTag (node : Node) (tag : String) : Bool :=
  node.tag? = some tag

/-- The children of an element. -/
def children : Node → List Node
  | .element _ _ children => children
  | .text _ => []

/-- The first child element with the given local name. -/
def child? (node : Node) (tag : String) : Option Node :=
  node.children.find? (·.hasTag tag)

/-- The value of an attribute that is in no namespace. -/
def attribute? (node : Node) (name : String) : Option String :=
  match node with
  | .element _ attributes _ => (attributes.find? fun a => a.1 = ⟨none, name⟩).map (·.2)
  | .text _ => none

mutual

/-- **The text of a node:** all text below it, in document order. -/
def innerText : Node → String
  | .element _ _ children => innerTexts children
  | .text s => s

/-- The text of nodes one after the other. -/
def innerTexts : List Node → String
  | [] => ""
  | node :: rest => node.innerText ++ innerTexts rest

end

end Node

end QueryGateway.Xml
