namespace SocialPayload.Xml

/-- A name with its namespace. The empty namespace is a namespace, and differs from none. -/
structure ExpandedName where
  namespaceUri : Option String
  localPart : String
deriving DecidableEq, Repr

/-- What an element holds. Attributes are checked while a document is read and not kept, and runs of
text stay apart where markup parts them. -/
inductive Node where
  | element (name : ExpandedName) (content : List Node)
  | text (characters : String)
  | comment (body : String)
  | instruction (target body : String)

/-- A node that is an element. -/
structure Element where
  name : ExpandedName
  content : List Node

structure Document where
  root : Element

namespace Node

def element? : Node → Option Element
  | .element name content => some ⟨name, content⟩
  | _ => none

/-- The characters of a run of text; other nodes have none of their own. -/
def characters : Node → List Char
  | .text characters => characters.toList
  | _ => []

mutual

/-- The elements of a node in the order of their start tags. -/
def elements : Node → List Element
  | .element name content => ⟨name, content⟩ :: elementsOf content
  | _ => []

/-- The elements of a list of nodes in the order of their start tags. -/
def elementsOf : List Node → List Element
  | [] => []
  | n :: rest => n.elements ++ elementsOf rest

end

end Node

namespace Element

def toNode (e : Element) : Node :=
  .element e.name e.content

/-- The elements directly inside. -/
def children (e : Element) : List Element :=
  e.content.filterMap Node.element?

/-- The element itself and all elements inside it, in the order of their start tags. -/
def elements (e : Element) : List Element :=
  e.toNode.elements

/-- The characters directly inside, without those of elements inside. -/
def text (e : Element) : String :=
  String.ofList (e.content.flatMap Node.characters)

end Element

end SocialPayload.Xml
