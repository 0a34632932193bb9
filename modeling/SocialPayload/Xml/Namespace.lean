import SocialPayload.Xml.Name
import SocialPayload.Xml.Tree

namespace SocialPayload.Xml

/-- The namespace of the qualifier `xml`. -/
def xmlNamespace : String := "http://www.w3.org/XML/1998/namespace"

/-- The namespace of declarations. No name may be put into it. -/
def xmlnsNamespace : String := "http://www.w3.org/2000/xmlns/"

/-- Namespaces by qualifier. The default namespace stands under the empty qualifier, and of two
entries for one qualifier the first holds. -/
abbrev Scope := List (String × String)

/-- An attribute of a start tag, with its value decoded and the place where its name begins. -/
structure Attribute where
  name : QName
  value : String
  place : Nat
deriving DecidableEq, Repr

/-- The attributes of a start tag: the namespaces they declare, and those that declare nothing. -/
structure Attributes where
  declared : Scope := []
  others : List Attribute := []
deriving DecidableEq, Repr

namespace Attributes

def declare (found : Attributes) (qualifier uri : String) : Attributes :=
  { found with declared := found.declared ++ [(qualifier, uri)] }

/-- Declares the namespace of a qualifier. Declaring `xml` as what it is changes nothing. -/
def declareQualifier (found : Attributes) (a : Attribute) : Except Fault Attributes :=
  let qualifier := a.name.localPart
  if a.value == xmlnsNamespace then .error (.xmlnsNamespaceDeclared a.place)
  else if qualifier == "xml" then
    if a.value == xmlNamespace then .ok found else .error (.xmlPrefixMisbound a.place)
  else if a.value == xmlNamespace then .error (.xmlNamespaceMisused a.place)
  else if (found.declared.lookup qualifier).isSome then
    .error (.duplicateNamespace qualifier a.place)
  else .ok (found.declare qualifier a.value)

/-- Declares the default namespace. A second declaration is allowed and changes nothing. -/
def declareDefault (found : Attributes) (a : Attribute) : Except Fault Attributes :=
  if a.value == xmlNamespace then .error (.xmlNamespaceMisused a.place)
  else if a.value == xmlnsNamespace then .error (.xmlnsNamespaceDeclared a.place)
  else .ok (found.declare "" a.value)

/-- Adds an attribute. One whose local part is `xmlns` declares the default namespace, whatever its
qualifier. -/
def add (found : Attributes) (a : Attribute) : Except Fault Attributes :=
  if a.name.qualifier == "xmlns" then found.declareQualifier a
  else if a.name.localPart == "xmlns" then found.declareDefault a
  else .ok { found with others := found.others ++ [a] }

end Attributes

namespace Scope

/-- The namespace that a qualifier stands for. Only the empty one may stand for none. -/
def resolve (scope : Scope) (qualifier : String) (place : Nat) :
    Except Fault (Option String) :=
  match scope.lookup qualifier with
  | some uri => .ok (some uri)
  | none => if qualifier.isEmpty then .ok none else .error (.unknownNamespace qualifier place)

/-- The namespace of an attribute. The default namespace is not for attributes. -/
def resolveAttribute (scope : Scope) (a : Attribute) : Except Fault (Option String) :=
  if a.name.qualifier == "xml" then .ok (some xmlNamespace)
  else if a.name.qualifier.isEmpty then .ok none
  else scope.resolve a.name.qualifier a.place

/-- Checks that every attribute has a namespace known or none, and that no two have one name. -/
def checkAttributes (scope : Scope) (seen : List ExpandedName) :
    List Attribute → Except Fault Unit
  | [] => .ok ()
  | a :: rest => do
    let uri ← scope.resolveAttribute a
    if seen.contains ⟨uri, a.name.localPart⟩ then
      .error (.duplicateAttribute a.name.localPart a.place)
    else scope.checkAttributes (⟨uri, a.name.localPart⟩ :: seen) rest

end Scope

end SocialPayload.Xml
