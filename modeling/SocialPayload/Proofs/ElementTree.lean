import SocialPayload.Xml.Tree

namespace SocialPayload.Xml

namespace Node

@[simp] theorem element?_toNode (e : Element) : e.toNode.element? = some e := rfl

@[simp] theorem element?_text (characters : String) : (Node.text characters).element? = none := rfl

@[simp] theorem characters_text (characters : String) :
    (Node.text characters).characters = characters.toList := rfl

@[simp] theorem characters_toNode (e : Element) : e.toNode.characters = [] := rfl

theorem elements_of_element? {n : Node} :
    n.elements = (n.element?.map Element.elements).getD [] := by
  cases n <;> rfl

theorem elementsOf_eq (content : List Node) :
    elementsOf content = (content.filterMap element?).flatMap Element.elements := by
  induction content with
  | nil => rfl
  | cons n rest ih =>
    rw [elementsOf, ih, elements_of_element?, List.filterMap_cons]
    cases n.element? <;> simp

theorem elementsOf_append (content content' : List Node) :
    elementsOf (content ++ content') = elementsOf content ++ elementsOf content' := by
  simp only [elementsOf_eq, List.filterMap_append, List.flatMap_append]

theorem elementsOf_around (before after : List Node) (e : Element) :
    elementsOf (before ++ e.toNode :: after) =
      elementsOf before ++ (e.elements ++ elementsOf after) := by
  rw [elementsOf_append, elementsOf]
  rfl

theorem eq_toNode {n : Node} {e : Element} (h : n.element? = some e) : n = e.toNode := by
  cases n with
  | element name content =>
    cases h
    rfl
  | text | comment | instruction => cases h

end Node

namespace Element

@[simp] theorem children_mk (name : ExpandedName) (es : List Element) :
    (⟨name, es.map toNode⟩ : Element).children = es := by
  simp [children, List.filterMap_map, Function.comp_def]

@[simp] theorem text_mk (name : ExpandedName) (es : List Element) :
    (⟨name, es.map toNode⟩ : Element).text = "" := by
  simp [text, List.flatMap_map]

/-- The start tag of an element comes first, then those of its children, child by child. -/
theorem elements_eq (e : Element) : e.elements = e :: e.children.flatMap elements := by
  rw [elements, toNode, Node.elements, Node.elementsOf_eq]
  rfl

theorem mem_elements {d e : Element} :
    d ∈ e.elements ↔ d = e ∨ ∃ c ∈ e.children, d ∈ c.elements := by
  rw [elements_eq, List.mem_cons, List.mem_flatMap]

theorem self_mem_elements (e : Element) : e ∈ e.elements :=
  mem_elements.mpr (.inl rfl)

/-- Where a child stands among the other children, its node stands in the content. -/
theorem exists_content {e c : Element} {earlier later : List Element}
    (h : e.children = earlier ++ c :: later) : ∃ before after,
      e.content = before ++ c.toNode :: after ∧ before.filterMap Node.element? = earlier := by
  obtain ⟨before, rest, hcontent, hbefore, hrest⟩ := List.filterMap_eq_append_iff.mp h
  obtain ⟨between, n, after, rfl, hbetween, hn, -⟩ := List.filterMap_eq_cons_iff.mp hrest
  refine ⟨before ++ between, after, ?_, ?_⟩
  · rw [hcontent, Node.eq_toNode hn, List.append_assoc]
  · rw [List.filterMap_append, hbefore, List.filterMap_eq_nil_iff.mpr hbetween, List.append_nil]

theorem sizeOf_lt_of_mem_children {c e : Element} (h : c ∈ e.children) : sizeOf c < sizeOf e := by
  obtain ⟨n, hn, hc⟩ := List.mem_filterMap.mp h
  have hlt := List.sizeOf_lt_of_mem hn
  cases n with
  | element name content =>
    simp only [Node.element?, Option.some.injEq] at hc
    subst hc
    obtain ⟨name', content'⟩ := e
    simp only [mk.sizeOf_spec, Node.element.sizeOf_spec] at hlt ⊢
    omega
  | text | comment | instruction => simp [Node.element?] at hc

/-- What holds of an element whenever it holds of its children holds of every element. -/
theorem induction {motive : Element → Prop}
    (step : ∀ e : Element, (∀ c ∈ e.children, motive c) → motive e) (e : Element) : motive e :=
  step e fun c _ => induction step c
termination_by sizeOf e
decreasing_by exact sizeOf_lt_of_mem_children (by assumption)

end Element

end SocialPayload.Xml
