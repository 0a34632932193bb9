import SocialPayload.Xml.Document
import SocialPayload.Proofs.WrittenMarkup
import SocialPayload.Proofs.WrittenTags

namespace SocialPayload.Xml

/-- An element as it is written: a start tag with declarations, the content, and an end tag. -/
def writeElement (n : QName) (declared : Scope) (content : List Char) : List Char :=
  '<' :: n.chars ++ writeDeclarations declared ++ '>' :: content ++ '<' :: '/' :: n.chars ++ ['>']

/-- A qualifier that a scope gives a name its namespace by. -/
structure Scope.Names (scope : Scope) (qualifier : String) (name : ExpandedName) : Prop where
  isWritable : (⟨qualifier, name.localPart⟩ : QName).IsWritable
  notXmlns : qualifier ≠ "xmlns"
  resolves : ∀ place, scope.resolve qualifier place = .ok name.namespaceUri

theorem readContent_leaf {inner : OpenElement} {outer : List OpenElement} {s rest : List Char}
    {n : Node} (h : readItem inner.tag.scope s = .ok (some (.leaf n, rest))) :
    readContent inner outer s = readContent (inner.push n) outer rest := by
  rw [readContent]
  split <;> simp_all

theorem readContent_opening {inner : OpenElement} {outer : List OpenElement} {s rest : List Char}
    {tag : StartTag} (h : readItem inner.tag.scope s = .ok (some (.opening tag, rest)))
    (ht : tag.isEmpty = false) :
    readContent inner outer s = readContent { tag } (inner :: outer) rest := by
  rw [readContent]
  split <;> simp_all

theorem readContent_closing {inner parent : OpenElement} {outer : List OpenElement}
    {s rest : List Char} {place : Nat}
    (h : readItem inner.tag.scope s = .ok (some (.closing inner.tag.written place, rest))) :
    readContent inner (parent :: outer) s =
      readContent (parent.push inner.close.toNode) outer rest := by
  rw [readContent]
  split <;> simp_all

theorem readContent_end {inner : OpenElement} {s rest : List Char} {place : Nat}
    (h : readItem inner.tag.scope s = .ok (some (.closing inner.tag.written place, rest))) :
    readContent inner [] s = .ok (inner.close, rest) := by
  rw [readContent]
  split <;> simp_all

theorem readItem_startTag {scope : Scope} {qualifier : String} {name : ExpandedName}
    (h : scope.Names qualifier name) (rest : List Char) :
    readItem scope ('<' :: (QName.mk qualifier name.localPart).chars ++ '>' :: rest) =
      .ok (some (.opening ⟨⟨qualifier, name.localPart⟩, name, scope, false⟩, rest)) := by
  obtain ⟨c, s, hcs, hc⟩ := h.isWritable.begins
  have hnone : ∀ d ∈ ([] : Scope), IsDeclarable d := by simp
  have htag := readStartTag_written scope h.isWritable h.notXmlns hnone (by simp) h.resolves rest
  have hbang : '!' ≠ c := ne_of_isNameStart hc (by decide)
  have hquery : '?' ≠ c := ne_of_isNameStart hc (by decide)
  have hslash : '/' ≠ c := ne_of_isNameStart hc (by decide)
  simp only [writeDeclarations, List.flatMap_nil, List.append_nil, List.nil_append, hcs,
    List.cons_append] at htag
  simp [readItem, readMarkup, hcs, commentOpen, cdataOpen, instructionOpen, hbang, hquery, hslash,
    List.isPrefixOf, htag, Except.map]

theorem readItem_endTag (scope : Scope) {n : QName} (hn : n.IsWritable) (rest : List Char) :
    ∃ place, readItem scope ('<' :: '/' :: (n.chars ++ '>' :: rest)) =
      .ok (some (.closing n place, rest)) := by
  have htag := readEndTag_written hn rest
  refine ⟨('<' :: '/' :: (n.chars ++ '>' :: rest)).length, ?_⟩
  simp [readItem, readMarkup, commentOpen, cdataOpen, instructionOpen, List.isPrefixOf, htag,
    Except.map]

/-- The nodes go after those that the element already has. -/
def OpenElement.add (e : OpenElement) (nodes : List Node) : OpenElement :=
  { e with content := nodes.reverse ++ e.content }

/-- Content that is read as some nodes, in whatever element it stands. -/
def Reads (scope : Scope) (content : List Char) (nodes : List Node) : Prop :=
  ∀ inner outer rest, inner.tag.scope = scope →
    readContent inner outer (content ++ '<' :: '/' :: rest) =
      readContent (inner.add nodes) outer ('<' :: '/' :: rest)

theorem Reads.nil (scope : Scope) : Reads scope [] [] := by
  intro inner outer rest _
  rfl

/-- An element inside another is read whole, and nothing after it is looked at. -/
theorem Reads.element {scope : Scope} {qualifier : String} {name : ExpandedName}
    {content : List Char} {nodes : List Node} (hn : scope.Names qualifier name)
    (h : Reads scope content nodes) {inner : OpenElement} (hi : inner.tag.scope = scope)
    (outer : List OpenElement) (rest : List Char) :
    readContent inner outer (writeElement ⟨qualifier, name.localPart⟩ [] content ++ rest) =
      readContent (inner.push (.element name nodes)) outer rest := by
  subst hi
  let tag : StartTag := ⟨⟨qualifier, name.localPart⟩, name, inner.tag.scope, false⟩
  have hwrite : writeElement ⟨qualifier, name.localPart⟩ [] content ++ rest =
      '<' :: (QName.mk qualifier name.localPart).chars ++ '>' ::
        (content ++ '<' :: '/' :: ((QName.mk qualifier name.localPart).chars ++ '>' :: rest)) := by
    simp [writeElement, writeDeclarations]
  obtain ⟨place, hclose⟩ := readItem_endTag inner.tag.scope hn.isWritable rest
  rw [hwrite, readContent_opening (readItem_startTag hn _) rfl]
  rw [h { tag } (inner :: outer) _ rfl]
  have hinner := @readContent_closing (OpenElement.add { tag } nodes) inner outer _ rest place hclose
  rw [hinner]
  simp [OpenElement.add, OpenElement.close, Element.toNode, tag]

theorem Reads.cons {scope : Scope} {qualifier : String} {name : ExpandedName}
    {content content' : List Char} {nodes nodes' : List Node} (hn : scope.Names qualifier name)
    (h : Reads scope content nodes) (h' : Reads scope content' nodes') :
    Reads scope (writeElement ⟨qualifier, name.localPart⟩ [] content ++ content')
      (.element name nodes :: nodes') := by
  intro inner outer rest hi
  rw [List.append_assoc, h.element hn hi, h' (inner.push (.element name nodes)) outer rest hi]
  simp [OpenElement.add, OpenElement.push]

/-- A run of text up to the next markup is one node, whatever place the reader has come to. -/
theorem readContent_run {content : List Char} {value : String} (hne : content ≠ [])
    (hchars : ∀ c ∈ content, c ≠ '<' ∧ isXmlChar c = true) (hend : ¬ cdataClose <:+: content)
    (hrun : ∀ after, ∃ run, readPieces after content = .ok run ∧ runText run = value)
    (inner : OpenElement) (outer : List OpenElement) (rest : List Char) :
    readContent inner outer (content ++ '<' :: rest) =
      readContent (inner.push (.text value)) outer ('<' :: rest) := by
  have htext : ∀ c ∈ content, (c != '<') = true := fun c hc => by simpa using (hchars c hc).1
  have hread : readWhile (· != '<') (content ++ '<' :: rest) = .ok (content, '<' :: rest) := by
    rw [readWhile_eq_ok, List.takeWhile_append_of_pos htext, List.dropWhile_append_of_pos htext]
    simpa using fun c hc => (hchars c hc).2
  obtain ⟨run, hpieces, rfl⟩ := hrun ('<' :: rest).length
  obtain ⟨c, s, rfl⟩ := List.exists_cons_of_ne_nil hne
  have hc : c ≠ '<' := (hchars c List.mem_cons_self).1
  apply readContent_leaf
  rw [List.cons_append, readItem]
  simp only [beq_iff_eq, hc, if_false, readCharacters, ← List.cons_append, hread]
  simp only [bind, Except.bind, holdsMark_eq_false hend, Bool.false_eq_true, if_false, hpieces, pure,
    Except.pure, Except.map, leafOf]

/-- Content that stands for a text. Markup in it, if any, is not made of elements. -/
def Spells (content : List Char) (value : String) : Prop :=
  ∃ nodes, (∀ scope, Reads scope content nodes) ∧ nodes.filterMap Node.element? = [] ∧
    String.ofList (nodes.flatMap Node.characters) = value

theorem readProlog_element {c : Char} (hbang : '!' ≠ c) (hquery : '?' ≠ c) (s : List Char) :
    readProlog ('<' :: c :: s) = .ok ('<' :: c :: s) := by
  have hmisc : readMisc ('<' :: c :: s) = .ok ('<' :: c :: s) := by
    have hitem : readMiscItem ('<' :: c :: s) = .ok none := by
      simp [readMiscItem, commentOpen, instructionOpen, List.isPrefixOf, hbang, hquery]
    rw [readMisc, skipSpaces_cons (by decide)]
    split <;> simp_all
  simp [readProlog, skipByteOrderMark, declarationOpen, doctypeOpen, List.isPrefixOf, hbang, hquery,
    hmisc, bind, Except.bind, pure, Except.pure]

theorem readEpilog_nil : readEpilog [] = .ok () := by
  have hmisc : readMisc [] = .ok [] := by
    rw [readMisc]
    simp [skipSpaces, readMiscItem, commentOpen, instructionOpen]
  simp [readEpilog, hmisc, bind, Except.bind, pure, Except.pure]

theorem readRoot_element {declared : Scope} {qualifier : String} {name : ExpandedName}
    {content : List Char} {nodes : List Node} (hn : declared.Names qualifier name)
    (hd : ∀ d ∈ declared, IsDeclarable d) (hnew : (declared.map Prod.fst).Nodup)
    (h : Reads declared content nodes) :
    readRoot (writeElement ⟨qualifier, name.localPart⟩ declared content) =
      .ok (some ⟨name, nodes⟩, []) := by
  let tag : StartTag := ⟨⟨qualifier, name.localPart⟩, name, declared, false⟩
  have hwrite : writeElement ⟨qualifier, name.localPart⟩ declared content =
      '<' :: ((QName.mk qualifier name.localPart).chars ++ writeDeclarations declared ++ '>' ::
        (content ++ '<' :: '/' :: ((QName.mk qualifier name.localPart).chars ++ '>' :: []))) := by
    simp [writeElement]
  have hresolves : ∀ place, (declared ++ []).resolve qualifier place = .ok name.namespaceUri := by
    simpa using hn.resolves
  have htag := readStartTag_written [] hn.isWritable hn.notXmlns hd hnew hresolves
    (content ++ '<' :: '/' :: ((QName.mk qualifier name.localPart).chars ++ '>' :: []))
  obtain ⟨place, hclose⟩ := readItem_endTag declared hn.isWritable []
  have hcontent := h { tag } [] ((QName.mk qualifier name.localPart).chars ++ '>' :: []) rfl
  rw [@readContent_end (OpenElement.add { tag } nodes) _ _ place hclose] at hcontent
  rw [hwrite, readRoot, if_pos (by rfl), List.drop_one, List.tail_cons, htag]
  simp only [List.append_nil, bind, Except.bind, Bool.false_eq_true, if_false]
  rw [hcontent]
  simp [OpenElement.add, OpenElement.close, tag, pure, Except.pure]

theorem parse_writeElement {declared : Scope} {qualifier : String} {name : ExpandedName}
    {content : List Char} {nodes : List Node} (hn : declared.Names qualifier name)
    (hd : ∀ d ∈ declared, IsDeclarable d) (hnew : (declared.map Prod.fst).Nodup)
    (h : Reads declared content nodes) :
    Document.parse (String.ofList (writeElement ⟨qualifier, name.localPart⟩ declared content)) =
      .ok ⟨⟨name, nodes⟩⟩ := by
  obtain ⟨c, s, hcs, hc⟩ := hn.isWritable.begins
  have hprolog : readProlog (writeElement ⟨qualifier, name.localPart⟩ declared content) =
      .ok (writeElement ⟨qualifier, name.localPart⟩ declared content) := by
    simp only [writeElement, hcs, List.cons_append]
    exact readProlog_element (ne_of_isNameStart hc (by decide)) (ne_of_isNameStart hc (by decide)) _
  rw [Document.parse, String.toList_ofList, readDocument, hprolog]
  simp only [bind, Except.bind, readRoot_element hn hd hnew h, readEpilog_nil]
  rfl

end SocialPayload.Xml
