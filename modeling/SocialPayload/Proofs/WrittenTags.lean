import SocialPayload.Proofs.Escapes
import SocialPayload.Proofs.WrittenNames

namespace SocialPayload.Xml

def declarationName (qualifier : String) : QName :=
  if qualifier = "" then ⟨"", "xmlns"⟩ else ⟨"xmlns", qualifier⟩

def writeDeclaration (declared : String × String) : List Char :=
  ' ' :: (declarationName declared.1).chars ++ '=' :: '"' ::
    EscapeTable.forValue.escape declared.2 ++ ['"']

def writeDeclarations (declared : Scope) : List Char :=
  declared.flatMap writeDeclaration

structure IsDeclarableUri (uri : String) : Prop where
  characters : ∀ c ∈ uri.toList, isXmlChar c = true
  notXml : uri ≠ xmlNamespace
  notXmlns : uri ≠ xmlnsNamespace

/-- A declaration that a start tag may hold: of a namespace for a qualifier. -/
structure IsDeclarable (declared : String × String) : Prop where
  qualifier : declared.1 = "" ∨
    isPlainName declared.1 = true ∧ declared.1 ≠ "xml" ∧ declared.1 ≠ "xmlns"
  uri : IsDeclarableUri declared.2

theorem IsDeclarable.isWritable {declared : String × String} (h : IsDeclarable declared) :
    (declarationName declared.1).IsWritable := by
  unfold declarationName
  split
  · exact ⟨.inl rfl, by decide⟩
  · rename_i hne
    exact ⟨.inr (show isPlainName "xmlns" = true by decide), (h.qualifier.resolve_left hne).1⟩

theorem isSpace_of_isNameStart {c : Char} (h : isNameStart c = true) : isSpace c = false := by
  rw [Bool.eq_false_iff]
  intro hspace
  simpa [isNameChar_of_isNameStart h] using isNameChar_of_isSpace hspace

theorem ne_of_isNameStart {c d : Char} (hc : isNameStart c = true) (hd : isNameStart d = false) :
    d ≠ c := by
  intro heq
  rw [← heq, hd] at hc
  cases hc

theorem skipSpaces_cons {c : Char} (h : isSpace c = false) (s : List Char) :
    skipSpaces (c :: s) = c :: s := by
  simp [skipSpaces, h]

theorem readWhile_value {value : String} (h : ∀ c ∈ value.toList, isXmlChar c = true)
    (rest : List Char) :
    readWhile (fun c => c != '"' && c != '<') (EscapeTable.forValue.escape value ++ '"' :: rest) =
      .ok (EscapeTable.forValue.escape value, '"' :: rest) := by
  have hchars : ∀ d ∈ EscapeTable.forValue.escape value, (d != '"' && d != '<') = true := by
    intro d hd
    rcases (EscapeTable.mem_escape h hd).1 with rfl | hnone
    · decide
    · simp only [Bool.and_eq_true, bne_iff_ne, ne_eq]
      constructor <;> intro heq <;> subst heq <;> exact absurd hnone (by decide)
  rw [readWhile_eq_ok, List.takeWhile_append_of_pos hchars, List.dropWhile_append_of_pos hchars]
  simpa using fun d hd => (EscapeTable.mem_escape h hd).2

theorem readAttribute_declaration {declared : String × String} (h : IsDeclarable declared)
    (rest : List Char) :
    readAttribute ((declarationName declared.1).chars ++ '=' :: '"' ::
        EscapeTable.forValue.escape declared.2 ++ '"' :: rest) =
      .ok ((declarationName declared.1, EscapeTable.forValue.escape declared.2), rest) := by
  have hname := readQualifiedName_chars h.isWritable (c := '=') (by decide)
    ('"' :: (EscapeTable.forValue.escape declared.2 ++ '"' :: rest))
  simp only [readAttribute, List.append_assoc, List.cons_append]
  simp only [bind, Except.bind, hname, skipSpaces_cons (c := '=') (by decide), expectChar,
    beq_self_eq_true, if_true, skipSpaces_cons (c := '"') (by decide), openingQuote,
    Bool.or_true]
  rw [readWhile_value h.uri.characters]
  simp [pure, Except.pure]

theorem readTagItem_declaration {declared : String × String} (h : IsDeclarable declared)
    (rest : List Char) :
    ∃ place, readTagItem (writeDeclaration declared ++ rest) =
      .ok (.next ⟨declarationName declared.1, declared.2, place⟩, rest) := by
  obtain ⟨c, s, hcs, hc⟩ := h.isWritable.begins
  have hread := readAttribute_declaration h rest
  obtain ⟨run, hrun, hvalue⟩ := readPieces_forValue (rest.length + 1) declared.2
  have hskip : skipSpaces (writeDeclaration declared ++ rest) =
      (declarationName declared.1).chars ++ '=' :: '"' ::
        EscapeTable.forValue.escape declared.2 ++ '"' :: rest := by
    have hspace : isSpace ' ' = true := by decide
    simp [writeDeclaration, skipSpaces, hcs, hspace, isSpace_of_isNameStart hc]
  refine ⟨(skipSpaces (writeDeclaration declared ++ rest)).length, ?_⟩
  unfold readTagItem
  rw [hskip]
  have hgt : '>' ≠ c := ne_of_isNameStart hc (by decide)
  have hslash : '/' ≠ c := ne_of_isNameStart hc (by decide)
  split
  · simp_all
  · simp_all
  · simp_all
  · rename_i heq
    rw [← heq, if_pos (by simp [writeDeclaration, isSpace]), readDecodedAttribute]
    simp only [bind, Except.bind, hread, hrun, hvalue, pure, Except.pure, Except.map]

theorem Attributes.add_declaration {found : Attributes} {declared : String × String}
    (h : IsDeclarable declared) (hnew : found.declared.lookup declared.1 = none) (place : Nat) :
    found.add ⟨declarationName declared.1, declared.2, place⟩ =
      .ok (found.declare declared.1 declared.2) := by
  unfold declarationName Attributes.add
  split
  · rename_i hempty
    simp [declareDefault, h.uri.notXml, h.uri.notXmlns, hempty]
  · rename_i hne
    simp [declareQualifier, h.uri.notXml, h.uri.notXmlns, hnew, (h.qualifier.resolve_left hne).2.1]

/-- The declarations of a start tag are read in their order, up to its end. -/
theorem readAttributes_declarations {declared : Scope} (hd : ∀ d ∈ declared, IsDeclarable d)
    (found : Attributes) (hnew : (found.declared ++ declared).map Prod.fst |>.Nodup)
    (rest : List Char) :
    readAttributes found (writeDeclarations declared ++ '>' :: rest) =
      .ok (some (({ found with declared := found.declared ++ declared }, false), rest)) := by
  induction declared generalizing found with
  | nil =>
    have hitem : readTagItem ('>' :: rest) = .ok (.finish false, rest) := by
      rw [readTagItem, skipSpaces_cons (by decide)]
      rfl
    have hwrite : writeDeclarations [] ++ '>' :: rest = '>' :: rest := rfl
    rw [hwrite, readAttributes, if_neg (by simp)]
    split <;> simp_all
  | cons d declared ih =>
    have hdd := hd d List.mem_cons_self
    have hlookup : found.declared.lookup d.1 = none := by
      rw [List.lookup_eq_none_iff]
      intro e he
      simp only [bne_iff_ne, ne_eq]
      intro heq
      simp only [List.map_append, List.map_cons, List.nodup_append] at hnew
      exact hnew.2.2 e.1 (List.mem_map_of_mem he) d.1 List.mem_cons_self heq.symm
    obtain ⟨place, hitem⟩ := readTagItem_declaration hdd (writeDeclarations declared ++ '>' :: rest)
    have hnext := ih (fun e he => hd e (List.mem_cons_of_mem _ he)) (found.declare d.1 d.2)
      (by simpa [Attributes.declare] using hnew)
    have hwrite : writeDeclarations (d :: declared) ++ '>' :: rest =
        writeDeclaration d ++ (writeDeclarations declared ++ '>' :: rest) := by
      simp [writeDeclarations]
    rw [hwrite, readAttributes, if_neg (by simp [writeDeclaration])]
    split
    · simp_all
    · simp_all
    · rename_i a tail heq
      rw [hitem] at heq
      cases heq
      rw [Attributes.add_declaration hdd hlookup]
      simpa [Attributes.declare] using hnext

/-- The scope inside a start tag that declares namespaces, and the namespace of its own name. -/
theorem readStartTag_written (outer : Scope) {declared : Scope} {n : QName} (hn : n.IsWritable)
    (hxmlns : n.qualifier ≠ "xmlns") (hd : ∀ d ∈ declared, IsDeclarable d)
    (hnew : (declared.map Prod.fst).Nodup) {uri : Option String}
    (huri : ∀ place, (declared ++ outer).resolve n.qualifier place = .ok uri) (rest : List Char) :
    readStartTag outer (n.chars ++ writeDeclarations declared ++ '>' :: rest) =
      .ok (some (⟨n, ⟨uri, n.localPart⟩, declared ++ outer, false⟩, rest)) := by
  obtain ⟨c, s, hcs, hc⟩ : ∃ c s, writeDeclarations declared ++ '>' :: rest = c :: s ∧
      isNameChar c = false := by
    cases declared with
    | nil => exact ⟨'>', rest, rfl, by decide⟩
    | cons d declared =>
      exact ⟨' ', _, by simp [writeDeclarations, writeDeclaration]; rfl, by decide⟩
  have hname := readQualifiedName_chars hn hc s
  have hattributes := readAttributes_declarations hd {} (by simpa using hnew) rest
  rw [List.append_assoc, readStartTag, hcs, hname]
  simp only [bind, Except.bind, beq_iff_eq, hxmlns, if_false, ← hcs, hattributes,
    StartTag.resolve, List.nil_append, Scope.checkAttributes, huri, pure, Except.pure]

theorem readEndTag_written {n : QName} (hn : n.IsWritable) (rest : List Char) :
    readEndTag (n.chars ++ '>' :: rest) = .ok (n, rest) := by
  rw [readEndTag, readQualifiedName_chars hn (by decide)]
  simp [bind, Except.bind, skipSpaces_cons (c := '>') (by decide), expectChar, pure, Except.pure]

end SocialPayload.Xml
