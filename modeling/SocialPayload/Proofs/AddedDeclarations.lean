import SocialPayload.Proofs.DefaultNamespaces
import SocialPayload.Proofs.WrittenElements

namespace SocialPayload.Xml

variable {uri : String} {s rest : List Char}

/-- Attributes like others, but with a default namespace declared among them. -/
structure Attributes.Defaults (uri : String) (found found' : Attributes) : Prop where
  scope : found.declared.Defaults uri found'.declared
  others : found'.others.map Attribute.unplaced = found.others.map Attribute.unplaced

namespace Attributes

variable {found found' added other : Attributes}

theorem declared_add {a : Attribute} (h : found.add a = .ok added) :
    ∃ more, added.declared = found.declared ++ more := by
  unfold add declareQualifier declareDefault at h
  dsimp only at h
  split_ifs at h <;> cases h
  · exact ⟨[], (List.append_nil _).symm⟩
  · exact ⟨_, rfl⟩
  · exact ⟨_, rfl⟩
  · exact ⟨[], (List.append_nil _).symm⟩

theorem declared_readAttributes {isEmpty : Bool} {read : Attributes}
    (h : readAttributes found s = .ok (some ((read, isEmpty), rest))) :
    ∃ more, read.declared = found.declared ++ more := by
  fun_induction readAttributes found s with
  | case1 => cases h
  | case2 => cases h
  | case3 found s _ isEmpty' tail hitem =>
    cases h
    exact ⟨[], (List.append_nil _).symm⟩
  | case4 => cases h
  | case5 found s _ a tail hitem added hadd ih =>
    obtain ⟨more, hmore⟩ := ih h
    obtain ⟨first, hfirst⟩ := declared_add hadd
    exact ⟨first ++ more, by rw [hmore, hfirst, List.append_assoc]⟩

/-- A qualifier that is not declared in the end was not declared before. -/
theorem lookup_eq_none_of_append {scope scope' : Scope} {qualifier : String}
    (h : ∃ more, scope' = scope ++ more) (hnone : scope'.lookup qualifier = none) :
    scope.lookup qualifier = none := by
  obtain ⟨more, rfl⟩ := h
  rw [List.lookup_append, Option.or_eq_none_iff] at hnone
  exact hnone.1

theorem Defaults.declare (h : Defaults uri found found') {qualifier value : String}
    (hne : qualifier ≠ "") : Defaults uri (found.declare qualifier value)
      (found'.declare qualifier value) := by
  refine ⟨⟨?_, ?_⟩, h.others⟩
  · have hnone : [(qualifier, value)].lookup "" = none := by
      rw [List.lookup_cons, beq_false_of_ne hne.symm]
      rfl
    simp only [Attributes.declare, List.lookup_append, h.scope.default, hnone, Option.or_none]
  · intro other hother
    simp only [Attributes.declare, List.lookup_append, h.scope.others other hother]

theorem lookup_declare_ne_none (found : Attributes) (qualifier value : String) :
    (found.declare qualifier value).declared.lookup qualifier ≠ none := by
  simp [Attributes.declare, List.lookup_append]

theorem Defaults.declareQualifier (h : Defaults uri found found') {a : Attribute}
    (hadd : found.declareQualifier a = .ok added) (hnone : added.declared.lookup "" = none) :
    ∃ added', found'.declareQualifier a = .ok added' ∧ Defaults uri added added' := by
  unfold Attributes.declareQualifier at hadd ⊢
  dsimp only at hadd ⊢
  by_cases hempty : a.name.localPart = ""
  · rw [hempty] at hadd
    split_ifs at hadd <;> cases hadd
    · cases ‹("" == "xml") = true›
    · exact absurd hnone (lookup_declare_ne_none found "" a.value)
  · rw [h.scope.others _ hempty]
    split_ifs at hadd ⊢ <;> cases hadd
    · exact ⟨found', rfl, h⟩
    · exact ⟨_, rfl, h.declare hempty⟩

theorem Defaults.add (h : Defaults uri found found') {a : Attribute} (hadd : found.add a = .ok added)
    (hnone : added.declared.lookup "" = none) :
    ∃ added', found'.add a = .ok added' ∧ Defaults uri added added' := by
  unfold Attributes.add at hadd ⊢
  split_ifs at hadd ⊢
  · exact h.declareQualifier hadd hnone
  · unfold declareDefault at hadd
    split_ifs at hadd
    cases hadd
    exact absurd hnone (lookup_declare_ne_none found "" a.value)
  · cases hadd
    exact ⟨_, rfl, h.scope, by simp [h.others]⟩

theorem Defaults.readAttributes (h : Defaults uri found found') {isEmpty : Bool} {read : Attributes}
    (hread : readAttributes found s = .ok (some ((read, isEmpty), rest)))
    (hnone : read.declared.lookup "" = none) :
    ∃ read', Xml.readAttributes found' s = .ok (some ((read', isEmpty), rest)) ∧
      Defaults uri read read' := by
  fun_induction Xml.readAttributes found s generalizing found' with
  | case1 => cases hread
  | case2 => cases hread
  | case3 found s hs isEmpty' tail hitem =>
    cases hread
    exact ⟨found', readAttributes_finish hitem, h⟩
  | case4 => cases hread
  | case5 found s hs a tail hitem added hadd ih =>
    obtain ⟨added', hadd', hadded⟩ :=
      h.add hadd (lookup_eq_none_of_append (declared_readAttributes hread) hnone)
    obtain ⟨read', hread', hdefaults⟩ := ih hadded hread
    exact ⟨read', by rw [readAttributes_item hitem hadd', hread'], hdefaults⟩

end Attributes

theorem Scope.Defaults.of_declare {scope : Scope} (h : scope.lookup "" = none) :
    scope.Defaults uri (scope ++ [("", uri)]) := by
  constructor
  · rw [List.lookup_append, h]
    rfl
  · intro qualifier hne
    rw [List.lookup_append, List.lookup_cons, beq_false_of_ne hne, List.lookup_nil, Option.or_none]

/-- Other default namespaces further out do not matter. -/
theorem Scope.Defaults.append {scope scope' outer : Scope} (h : scope.Defaults uri scope')
    (houter : ∀ qualifier, qualifier ≠ "" → outer.lookup qualifier = none) :
    scope.Defaults uri (scope' ++ outer) := by
  constructor
  · rw [List.lookup_append, h.default]
    rfl
  · intro qualifier hne
    rw [List.lookup_append, h.others qualifier hne, houter qualifier hne, Option.or_none]

/-- A text that is read as one attribute, whatever comes after it. -/
def IsAttribute (written : List Char) : Prop :=
  ∃ a, ∀ after, ∃ b, readTagItem (written ++ after) = .ok (.next b, after) ∧ b.unplaced = a

theorem exists_add_of_readAttributes {found : Attributes} {a : Attribute}
    {read : (Attributes × Bool) × List Char} (hitem : readTagItem s = .ok (.next a, rest))
    (h : readAttributes found s = .ok (some read)) :
    ∃ added, found.add a = .ok added ∧ readAttributes added rest = .ok (some read) := by
  cases hadd : found.add a with
  | ok added => exact ⟨added, rfl, readAttributes_item hitem hadd ▸ h⟩
  | error fault =>
    rw [readAttributes] at h
    split at h
    · cases h
    · split at h <;> simp_all

/-- A declaration of a default namespace may be added after any of the attributes of a tag. Those
before it are read as they were, but for their places in the text. -/
theorem readAttributes_declaring {attributes : List (List Char)}
    (hattributes : ∀ a ∈ attributes, IsAttribute a) (huri : IsDeclarableUri uri)
    {found other read : Attributes} (hother : other.unplaced = found.unplaced) {isEmpty : Bool}
    (h : readAttributes found (attributes.flatten ++ s) = .ok (some ((read, isEmpty), rest)))
    (hnone : read.declared.lookup "" = none) :
    ∃ read', readAttributes other (attributes.flatten ++ (writeDeclaration ("", uri) ++ s)) =
        .ok (some ((read', isEmpty), rest)) ∧ read.Defaults uri read' := by
  induction attributes generalizing found other with
  | nil =>
    have hdeclared := congrArg Attributes.declared hother
    change other.declared = found.declared at hdeclared
    have hnew : other.declared.lookup "" = none := by
      rw [hdeclared]
      exact Attributes.lookup_eq_none_of_append (Attributes.declared_readAttributes h) hnone
    have hdeclarable : IsDeclarable ("", uri) := ⟨.inl rfl, huri⟩
    obtain ⟨place, hitem⟩ := readTagItem_declaration hdeclarable s
    have hadd := Attributes.add_declaration hdeclarable hnew place
    have hdefaults : found.Defaults uri (other.declare "" uri) := by
      refine ⟨?_, congrArg Attributes.others hother⟩
      exact hdeclared ▸ Scope.Defaults.of_declare hnew
    rw [List.flatten_nil, List.nil_append, readAttributes_item hitem hadd]
    exact hdefaults.readAttributes h hnone
  | cons written attributes ih =>
    rw [List.flatten_cons, List.append_assoc] at h
    rw [List.flatten_cons, List.append_assoc]
    obtain ⟨a, ha⟩ := hattributes written List.mem_cons_self
    obtain ⟨b, hitem, hb⟩ := ha (attributes.flatten ++ s)
    obtain ⟨b', hitem', hb'⟩ := ha (attributes.flatten ++ (writeDeclaration ("", uri) ++ s))
    obtain ⟨added, hadd, hread⟩ := exists_add_of_readAttributes hitem h
    obtain ⟨added', hadd', hadded⟩ := Attributes.add_ahead hother (hb'.trans hb.symm) hadd
    rw [readAttributes_item hitem' hadd']
    exact ih (fun a ha => hattributes a (List.mem_cons_of_mem _ ha)) hadded hread

/-- The outermost open element is the one that is read. -/
theorem name_of_readContent {inner : OpenElement} {outer : List OpenElement} {root : Element}
    (h : readContent inner outer s = .ok (root, rest)) :
    root.name = (outer.getLastD inner).tag.name := by
  have hpush : ∀ (e : OpenElement) (n : Node) (outer : List OpenElement),
      (outer.getLastD (e.push n)).tag = (outer.getLastD e).tag := by
    intro e n outer
    cases outer <;> rfl
  fun_induction readContent inner outer s with
  | case1 => cases h
  | case2 => cases h
  | case3 inner outer s n tail hitem ih => rw [ih h, hpush]
  | case4 inner outer s tag tail hitem hempty ih => rw [ih h, hpush]
  | case5 inner outer s tag tail hitem hempty ih => rw [ih h, List.getLastD_cons]
  | case6 => cases h
  | case7 inner s n place tail hitem hname =>
    cases h
    rfl
  | case8 inner s n place tail hitem hname parent outer ih =>
    rw [ih h, hpush, List.getLastD_cons]

theorem name_of_readRoot {root : Element} {tag : StartTag} {tail : List Char}
    (htag : readStartTag [] s = .ok (some (tag, tail)))
    (h : readRoot ('<' :: s) = .ok (some root, rest)) : root.name = tag.name := by
  rw [readRoot_startTag htag] at h
  split at h
  · cases h
    rfl
  · obtain ⟨⟨root, rest⟩, hcontent, h⟩ := map_eq_ok.mp h
    cases h
    exact name_of_readContent hcontent

/-- Where the name of a tag has no namespace, the tag declares no default one. -/
theorem StartTag.lookup_eq_none {outer : Scope} {written : QName} {found : Attributes}
    {isEmpty : Bool} {place : Nat} {tag : StartTag}
    (h : resolve outer written found isEmpty place = .ok tag)
    (hnone : tag.name.namespaceUri = none) : found.declared.lookup "" = none := by
  simp only [resolve, bind_eq_ok, pure_eq_ok] at h
  obtain ⟨-, -, uri, hresolve, rfl⟩ := h
  cases hnone
  unfold Scope.resolve at hresolve
  split at hresolve
  · cases hresolve
  · rename_i hlookup
    split at hresolve
    · rename_i hempty
      rw [String.isEmpty_iff.mp hempty] at hlookup
      exact Attributes.lookup_eq_none_of_append ⟨outer, rfl⟩ hlookup
    · cases hresolve

/-- The text of an element, parted after some of the attributes of its outermost start tag. -/
structure ElementText where
  name : List Char
  attributes : List (List Char)
  rest : List Char
  nameChars : ∀ c ∈ name, isNameChar c = true
  nameEnds : ∀ c ∈ (attributes.flatten ++ rest).head?, isNameChar c = false
  areAttributes : ∀ a ∈ attributes, IsAttribute a

namespace ElementText

def write (text : ElementText) : List Char :=
  '<' :: (text.name ++ (text.attributes.flatten ++ text.rest))

/-- The same text with a declaration of the default namespace where it is parted. -/
def declaring (text : ElementText) (uri : String) : List Char :=
  '<' :: (text.name ++
    (text.attributes.flatten ++ (writeDeclaration ("", uri) ++ text.rest)))

/-- Every text that is read as an element can be parted after its name. -/
theorem exists_write_eq {root : Element} (h : readRoot s = .ok (some root, rest)) :
    ∃ text : ElementText, text.write = s := by
  obtain ⟨s, tag, tail, rfl, -⟩ := exists_startTag_of_readRoot h
  have hends : ∀ c ∈ (([] : List (List Char)).flatten ++ s.dropWhile isNameChar).head?,
      isNameChar c = false := by
    intro c hc
    have hhead := List.head?_dropWhile_not isNameChar s
    rw [List.flatten_nil, List.nil_append, Option.mem_def] at hc
    simpa [hc] using hhead
  refine ⟨⟨s.takeWhile isNameChar, [], s.dropWhile isNameChar,
    List.all_eq_true.mp List.all_takeWhile, hends, nofun⟩, ?_⟩
  simp [write]

variable {text : ElementText}

theorem readQualifiedName_name {s s' : List Char} {n : QName}
    (hs : ∀ c ∈ s.head?, isNameChar c = false) (h : readQualifiedName (text.name ++ s) = .ok (n, s'))
    {after : List Char} (hafter : ∀ c ∈ after.head?, isNameChar c = false) :
    s' = s ∧ readQualifiedName (text.name ++ after) = .ok (n, after) := by
  have hparts : ∀ after : List Char, (∀ c ∈ after.head?, isNameChar c = false) →
      (text.name ++ after).takeWhile isNameChar = text.name ∧
        (text.name ++ after).dropWhile isNameChar = after := by
    intro after hafter
    rw [List.takeWhile_append_of_pos text.nameChars, List.dropWhile_append_of_pos text.nameChars]
    cases after <;> simp_all
  rw [readQualifiedName, (hparts s hs).1, (hparts s hs).2] at h
  rw [readQualifiedName, (hparts after hafter).1, (hparts after hafter).2]
  split at h <;> cases h
  simp_all

theorem readStartTag_declaring {root : Element} (h : readRoot text.write = .ok (some root, []))
    (hnone : root.name.namespaceUri = none) (huri : IsDeclarableUri uri) {outer : Scope}
    (houter : ∀ qualifier, qualifier ≠ "" → outer.lookup qualifier = none) :
    ∃ tag tag' tail, readStartTag [] text.write.tail = .ok (some (tag, tail)) ∧
      readStartTag outer (text.declaring uri).tail = .ok (some (tag', tail)) ∧
      tag.Defaults uri tag' := by
  obtain ⟨s, tag, tail, hs, hread⟩ := exists_startTag_of_readRoot h
  have hname := name_of_readRoot hread (hs ▸ h)
  obtain rfl := (List.cons.inj hs).2
  obtain ⟨written, after, found, isEmpty, hwritten, hxmlns, hfound, htag⟩ :=
    readStartTag_eq_ok.mp hread
  have hdeclared := StartTag.lookup_eq_none htag (hname ▸ hnone)
  have hends : ∀ c ∈ (text.attributes.flatten ++
      (writeDeclaration ("", uri) ++ text.rest)).head?, isNameChar c = false := by
    have hwhole := text.nameEnds
    cases hflat : text.attributes.flatten with
    | nil =>
      intro c hc
      cases hc
      decide
    | cons d flat =>
      rw [hflat] at hwhole
      exact hwhole
  obtain ⟨rfl, hwritten'⟩ := readQualifiedName_name text.nameEnds hwritten hends
  obtain ⟨found', hfound', hdefaults⟩ :=
    readAttributes_declaring text.areAttributes huri rfl hfound hdeclared
  have hscope : Scope.Defaults uri (found.declared ++ []) (found'.declared ++ outer) := by
    rw [List.append_nil]
    exact hdefaults.scope.append houter
  obtain ⟨tag', htag', htags⟩ := StartTag.resolve_defaults hscope hdefaults.others htag _
  exact ⟨tag, tag', tail, hread, readStartTag_eq_ok.mpr
    ⟨written, _, found', isEmpty, hwritten', hxmlns, hfound', htag'⟩, htags⟩

/-- What follows the outermost start tag is read, in whatever element it stands, up to its end. -/
theorem readContent_declaring {s tail : List Char} {root : Element} {tag tag' : StartTag}
    (h : readRoot ('<' :: s) = .ok (some root, []))
    (htag : readStartTag [] s = .ok (some (tag, tail))) (htags : tag.Defaults uri tag') :
    (tag'.isEmpty = true ∧ tail = [] ∧ root.mapNames (·.qualify uri) = ⟨tag'.name, []⟩) ∨
    (tag'.isEmpty = false ∧ ∀ outer rest, readContent { tag := tag' } outer (tail ++ rest) =
      readAfter (root.mapNames (·.qualify uri)) rest outer) := by
  rw [readRoot_startTag htag] at h
  rw [htags.isEmpty, htags.name]
  split at h
  · rename_i hempty
    cases h
    exact .inl ⟨hempty, rfl, rfl⟩
  · rename_i hempty
    obtain ⟨⟨root, rest⟩, hcontent, h⟩ := map_eq_ok.mp h
    cases h
    obtain ⟨front, rfl, hread⟩ := readContent_ahead hcontent
    refine .inr ⟨by simpa using hempty, ?_⟩
    intro outer rest
    have hinner : OpenElement.Defaults uri { tag } { tag := tag' } := ⟨htags, rfl⟩
    have hcontent' := readContent_defaults (hread rest) hinner .nil outer
    simpa using hcontent'

variable {root : Element} (h : readRoot text.write = .ok (some root, []))
  (hnone : root.name.namespaceUri = none) (huri : IsDeclarableUri uri)

include h hnone huri

theorem readRoot_declaring :
    readRoot (text.declaring uri) = .ok (some (root.mapNames (·.qualify uri)), []) := by
  have houter : ∀ qualifier, qualifier ≠ "" → ([] : Scope).lookup qualifier = none :=
    fun _ _ => rfl
  obtain ⟨tag, tag', tail, htag, htag', htags⟩ := readStartTag_declaring h hnone huri houter
  have hroot := readRoot_startTag htag'
  rw [show '<' :: (text.declaring uri).tail = text.declaring uri from rfl] at hroot
  rcases readContent_declaring h htag htags with ⟨hempty, rfl, hname⟩ | ⟨hempty, hcontent⟩
  · rw [hroot, hempty, hname]
    rfl
  · have hread := hcontent [] []
    rw [List.append_nil] at hread
    rw [hroot, hempty, hread]
    rfl

/-- Inside another element only a default namespace may have been declared. -/
theorem reads_declaring {scope : Scope}
    (hscope : ∀ qualifier, qualifier ≠ "" → scope.lookup qualifier = none) :
    Reads scope (text.declaring uri) [(root.mapNames (·.qualify uri)).toNode] := by
  obtain ⟨tag, tag', tail, htag, htag', htags⟩ := readStartTag_declaring h hnone huri hscope
  obtain ⟨c, front, hc, hwritten, hread⟩ := readStartTag_ahead htag'
  intro inner outer rest hinner
  subst hinner
  have hitem : readItem inner.tag.scope (text.declaring uri ++ '<' :: '/' :: rest) =
      .ok (some (.opening tag', tail ++ '<' :: '/' :: rest)) := by
    have hdeclaring : text.declaring uri ++ '<' :: '/' :: rest =
        '<' :: c :: (front ++ '>' :: (tail ++ '<' :: '/' :: rest)) := by
      rw [show text.declaring uri = '<' :: (text.declaring uri).tail from rfl, hwritten]
      simp
    have hopened := hread (tail ++ '<' :: '/' :: rest)
    rw [List.cons_append] at hopened
    rw [hdeclaring, readItem, if_pos (by rfl), readMarkup_startTag _ hc, hopened]
    rfl
  rcases readContent_declaring h htag htags with ⟨hempty, rfl, hname⟩ | ⟨hempty, hcontent⟩
  · rw [readContent_empty hitem hempty, hname]
    rfl
  · rw [readContent_opening hitem hempty, hcontent]
    rfl

end ElementText

theorem parse_of_readRoot {root : Element} (h : readRoot s = .ok (some root, [])) :
    Document.parse (String.ofList s) = .ok ⟨root⟩ := by
  obtain ⟨s, tag, tail, rfl, htag⟩ := exists_startTag_of_readRoot h
  obtain ⟨c, front, hc, rfl, -⟩ := readStartTag_ahead htag
  have hprolog := readProlog_element (ne_of_isNameChar hc (by decide))
    (ne_of_isNameChar hc (by decide)) (front ++ '>' :: tail)
  rw [Document.parse_eq_ok, String.toList_ofList, readDocument_eq_ok]
  exact ⟨_, [], hprolog, h, readEpilog_nil⟩

end SocialPayload.Xml
