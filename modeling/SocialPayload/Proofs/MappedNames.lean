import SocialPayload.Proofs.Views

namespace SocialPayload

open Xml (Element ExpandedName)

namespace Xml

namespace Node

mutual

/-- The same tree with other names. Nothing else changes. -/
def mapNames (f : ExpandedName → ExpandedName) : Node → Node
  | .element name content => .element (f name) (mapNamesOf f content)
  | .text characters => .text characters
  | .comment body => .comment body
  | .instruction target body => .instruction target body

def mapNamesOf (f : ExpandedName → ExpandedName) : List Node → List Node
  | [] => []
  | n :: rest => n.mapNames f :: mapNamesOf f rest

end

end Node

def Element.mapNames (f : ExpandedName → ExpandedName) (e : Element) : Element :=
  ⟨f e.name, Node.mapNamesOf f e.content⟩

variable {f : ExpandedName → ExpandedName}

namespace Node

theorem mapNamesOf_eq (content : List Node) : mapNamesOf f content = content.map (mapNames f) := by
  induction content with
  | nil => rfl
  | cons n rest ih => rw [mapNamesOf, ih, List.map_cons]

theorem element?_mapNames (n : Node) :
    (n.mapNames f).element? = n.element?.map (Element.mapNames f) := by
  cases n <;> rfl

theorem characters_mapNames (n : Node) : (n.mapNames f).characters = n.characters := by
  cases n <;> rfl

theorem mapNames_of_element? {n : Node} (h : n.element? = none) : n.mapNames f = n := by
  cases n with
  | element name content => cases h
  | text | comment | instruction => rfl

mutual

theorem mapNames_id : ∀ n : Node, n.mapNames id = n
  | .element name content => by rw [mapNames, mapNamesOf_id content, id]
  | .text _ | .comment _ | .instruction _ _ => rfl

theorem mapNamesOf_id : ∀ content : List Node, mapNamesOf id content = content
  | [] => rfl
  | n :: rest => by rw [mapNamesOf, mapNames_id n, mapNamesOf_id rest]

end

theorem mapNames_toNode (e : Element) : e.toNode.mapNames f = (e.mapNames f).toNode := rfl

end Node

namespace Element

theorem children_mapNames (e : Element) :
    (e.mapNames f).children = e.children.map (mapNames f) := by
  simp only [children, mapNames, Node.mapNamesOf_eq, List.filterMap_map, List.map_filterMap,
    Function.comp_def, Node.element?_mapNames]

theorem text_mapNames (e : Element) : (e.mapNames f).text = e.text := by
  simp only [text, mapNames, Node.mapNamesOf_eq, List.flatMap_map, Node.characters_mapNames]

/-- Maps that agree on the names in an element give the same element. -/
theorem mapNames_congr {g : ExpandedName → ExpandedName} {e : Element}
    (h : ∀ d ∈ e.elements, f d.name = g d.name) : e.mapNames f = e.mapNames g := by
  induction e using Element.induction with
  | step e ih =>
    have hnode : ∀ n ∈ e.content, n.mapNames f = n.mapNames g := by
      intro n hn
      cases hchild : n.element? with
      | none => rw [Node.mapNames_of_element? hchild, Node.mapNames_of_element? hchild]
      | some c =>
        have hc : c ∈ e.children := List.mem_filterMap.mpr ⟨n, hn, hchild⟩
        have hinside := ih c hc fun d hd => h d (mem_elements.mpr (.inr ⟨c, hc, hd⟩))
        rw [Node.eq_toNode hchild, Node.mapNames_toNode, hinside, Node.mapNames_toNode]
    rw [mapNames, mapNames, Node.mapNamesOf_eq, Node.mapNamesOf_eq, List.map_congr_left hnode,
      h e e.self_mem_elements]

theorem mapNames_id (e : Element) : e.mapNames id = e := by
  rw [mapNames, Node.mapNamesOf_id, id]

/-- Where every name stays, so does the element. -/
theorem mapNames_eq_self {e : Element} (h : ∀ d ∈ e.elements, f d.name = d.name) :
    e.mapNames f = e :=
  (mapNames_congr h).trans e.mapNames_id

end Element

end Xml

/-- Where new names mean what the old ones meant, a tree with the new names is a view of the old. -/
theorem mapNames_isView {config config' : Config} {f : ExpandedName → ExpandedName}
    (h : ∀ name e, config'.isNamed .openSocial name (Element.mapNames f e) =
      config.isNamed .openSocial name e) :
    IsView config config' (fun _ => true) (Element.mapNames f) where
  named := h
  text _ _ e _ := e.text_mapNames
  children e := by rw [List.filter_eq_self.mpr fun _ _ => rfl, e.children_mapNames]
  left _ hleft := by cases hleft

theorem mapNames_showsRecipients {config config' : Config} {f : ExpandedName → ExpandedName}
    (h : ∀ e, config'.isNamed .osapi "recipient" (Element.mapNames f e) =
      config.isNamed .osapi "recipient" e) :
    ShowsRecipients config config' (fun _ => true) (Element.mapNames f) where
  named := h
  text e _ := e.text_mapNames
  left _ hleft := by cases hleft

/-- Where that is so in both vocabularies, the same record is read. -/
theorem Record.ofRoot_mapNames {config config' : Config} {f : ExpandedName → ExpandedName}
    (h : ∀ vocabulary name e, config'.isNamed vocabulary name (Element.mapNames f e) =
      config.isNamed vocabulary name e) (kind : EntityKind) (root : Element) :
    Record.ofRoot kind config' (root.mapNames f) = Record.ofRoot kind config root := by
  apply (mapNames_isView (h .openSocial)).ofRoot
  intro _
  exact mapNames_showsRecipients (h .osapi "recipient")

end SocialPayload
