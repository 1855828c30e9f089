import QueryGateway.Command.Descriptor
import QueryGateway.Error
import QueryGateway.Value.Coercion
import QueryGateway.Xml.Reader

/-!
# Descriptor documents

Compiling descriptor documents. The root is a `Command` element, or a `SqlCommand` in older
documents, with attributes for the timeout and the kind; it holds a `CommandText` element with the
text and a `Parameters` element with the `Parameter` elements.

Attributes are read leniently: one that does not convert counts as absent. Only a missing name, an
unknown type and a repeated name are errors, and the first offending parameter is the one reported.
-/

namespace QueryGateway

open Text Xml

/-- The tags that the root of a document may have. -/
def rootTags : List String := ["Command", "SqlCommand"]

/-- The timeout of a command that states none, or none that is positive. -/
def defaultTimeoutSeconds : Nat := 30

/-- The type of a parameter that states none. -/
def defaultDeclaredType : DeclaredType := .nVarChar

/-- The value of an attribute as an untyped value. -/
def rawAttribute (e : Node) (name : String) : RawValue :=
  match e.attribute? name with
  | some s => .text s
  | none => .null

/-- The positive integer of an attribute, if it has one in the range of the rule. -/
def positiveAttribute? {α : Type} (rule : Rule α) (toInt : α → Int) (e : Node) (name : String) :
    Option Nat :=
  let n := rule.evaluate false (rawAttribute e name)
  match n with
  | .value a => if 0 < toInt a then some (toInt a).toNat else none
  | _ => none

/-- **Compiling a parameter element.** The name and the type are checked here, in this order;
whether another parameter has the same key is a matter of the list, and is checked there. -/
def ParameterDescriptor.compile (e : Node) : Except DescriptorError ParameterDescriptor := do
  let name := trim ((e.attribute? "name").getD "")
  if (stripMarkers name).isEmpty then
    throw (.malformed .namelessParameter)
  let declaredType ←
    match e.attribute? "type" with
    | none => pure defaultDeclaredType
    | some token =>
      match DeclaredType.ofToken? token with
      | some type => pure type
      | none => throw (.unresolvedType name token)
  return {
    name
    declaredType
    direction := ((e.attribute? "direction").bind Direction.ofToken?).getD .input
    isNullable := Rule.bool.lenient (rawAttribute e "isNullable") true
    size := positiveAttribute? Rule.int Int32.toInt e "size"
    precision := positiveAttribute? Rule.tinyInt (fun n => n.toNat) e "precision"
    scale := positiveAttribute? Rule.tinyInt (fun n => n.toNat) e "scale"
    defaultValue :=
      (e.attribute? "value").bind fun s => declaredType.target.coerce (.text s) none }

/-- The parameters of the elements, none of which may have one of the keys seen before it. -/
def compileParameters (seen : List String) :
    List Node → Except DescriptorError (List ParameterDescriptor)
  | [] => .ok []
  | e :: rest => do
    let p ← ParameterDescriptor.compile e
    if p.key ∈ seen then
      throw (.malformed (.duplicateParameter p.name))
    return p :: (← compileParameters (p.key :: seen) rest)

/-- The parameter elements below the root. -/
def parameterElements (root : Node) : List Node :=
  match root.child? "Parameters" with
  | some block => block.children.filter (·.hasTag "Parameter")
  | none => []

/-- The text of a command below the root. The name of an object has no blanks around it. -/
def commandText (root : Node) (kind : CommandKind) : String :=
  let text := ((root.child? "CommandText").map Node.innerText).getD ""
  match kind with
  | .text => text
  | _ => trim text

/-- **Compiling the root element.** What is not declared has a default, and so has what is declared
in a way that cannot be read; only the tag of the root and the parameters can fail. -/
def CommandDescriptor.compileRoot (root : Node) : Except DescriptorError CommandDescriptor := do
  let tag := root.tag?.getD ""
  if tag ∉ rootTags then
    throw (.malformed (.wrongRoot tag))
  let kind := ((root.attribute? "type").bind CommandKind.ofToken?).getD .text
  let parameters ← compileParameters [] (parameterElements root)
  return {
    timeoutSeconds := (positiveAttribute? Rule.int Int32.toInt root "timeout").getD
      defaultTimeoutSeconds
    kind
    text := commandText root kind
    parameters }

/-- **Compiling a document.** -/
def CommandDescriptor.compile (source : String) : Except DescriptorError CommandDescriptor :=
  match Xml.parse? source with
  | some root => compileRoot root
  | none => .error (.malformed .notWellFormed)

end QueryGateway
