import QueryGateway.Xml.Node

/-!
# Namespaces

Names in a document are qualified: a qualifier before a colon stands for the namespace that an
attribute of an enclosing element has bound to it. `Scope.expand?` takes the attributes of an
element apart into bindings and attributes proper, refuses what the rules of namespaces forbid, and
expands the names.
-/

namespace QueryGateway.Xml

/-- A name as it is written. What it means depends on the bindings where it stands, so ends of
elements are compared in this form. -/
structure QName where
  /-- What stands before the colon; empty if nothing does. -/
  qualifier : String
  /-- What stands after the colon. -/
  localName : String
deriving DecidableEq

/-- The namespace that is always bound to the qualifier `xml`. -/
def xmlSpace : String := "http://www.w3.org/XML/1998/namespace"

/-- The namespace of the attributes that bind qualifiers. -/
def xmlnsSpace : String := "http://www.w3.org/2000/xmlns/"

/-- **The bindings in force** at an element, the nearest first. The empty qualifier is bound to the
namespace of elements without one. -/
abbrev Scope := List (String × String)

namespace Scope

/-- The namespace of a qualifier. An unbound empty qualifier means no namespace. -/
def space? (scope : Scope) (qualifier : String) : Option (Option String) :=
  match scope.find? (·.1 = qualifier) with
  | some binding => some (some binding.2)
  | none => if qualifier.isEmpty then some none else none

/-- The binding that an attribute makes of a qualifier, given those of the same element before
it. -/
def bindQualifier? (own : Scope) (qualifier value : String) : Option Scope :=
  if value = xmlnsSpace then none
  else if (qualifier = "xml") != (value = xmlSpace) then none
  else if own.any (·.1 = qualifier) then none
  -- the qualifier `xml` is bound anyway
  else if value = xmlSpace then some own
  else some (own ++ [(qualifier, value)])

/-- The binding that an attribute makes of the empty qualifier. -/
def bindDefault? (own : Scope) (value : String) : Option Scope :=
  if value = xmlSpace || value = xmlnsSpace then none else some (own ++ [("", value)])

/-- The bindings among the attributes of an element, and the attributes proper. Bindings count for
the element's own name too, so all are taken before any name is expanded. -/
def partition? : List (QName × String) → Scope → Option (Scope × List (QName × String))
  | [], own => some (own, [])
  | (name, value) :: rest, own =>
    if name.qualifier = "xmlns" then do partition? rest (← bindQualifier? own name.localName value)
    else if name.localName = "xmlns" then do partition? rest (← bindDefault? own value)
    else (partition? rest own).map fun (own, attributes) => (own, (name, value) :: attributes)

/-- The expanded name of an attribute. An attribute without a qualifier is in no namespace. -/
def attributeName? (scope : Scope) (name : QName) : Option Name :=
  if name.qualifier = "xml" then some ⟨some xmlSpace, name.localName⟩
  else if name.qualifier.isEmpty then some ⟨none, name.localName⟩
  else (scope.space? name.qualifier).map fun space => ⟨space, name.localName⟩

/-- The attributes with their names expanded, no two of one name. -/
def attributes? (scope : Scope) (attributes : List (QName × String)) :
    Option (List (Name × String)) := do
  let expanded ← attributes.mapM fun a => (scope.attributeName? a.1).map fun name => (name, a.2)
  if (expanded.map (·.1)).Nodup then some expanded else none

/-- **Expanding the names of an element:** its scope, its name and its attributes. -/
def expand? (scope : Scope) (name : QName) (attributes : List (QName × String)) :
    Option (Scope × Name × List (Name × String)) := do
  if name.qualifier = "xmlns" then none
  else
    let (own, proper) ← partition? attributes []
    let scope := own ++ scope
    let expanded ← scope.attributes? proper
    let space ← scope.space? name.qualifier
    return (scope, ⟨space, name.localName⟩, expanded)

end Scope

end QueryGateway.Xml
