import SocialPayload.Proofs.ElementTree
import SocialPayload.Proofs.WrittenElements
import SocialPayload.Proofs.WrittenReferences

namespace SocialPayload.Xml

/-- A part of the content of an element: characters as they are, a reference to a character, or
markup without elements. It holds only characters that a document may hold. -/
inductive Chunk where
  | raw (run : List Char) (chars : ∀ c ∈ run, isXmlChar c = true)
      (plain : '&' ∉ run ∧ '<' ∉ run ∧ '\r' ∉ run)
  | named (name : List Char) (c : Char) (known : (name, c) ∈ namedCharacters)
  | numeric (radix : Radix) (digits : List Char) (c : Char)
      (known : ∀ d ∈ digits, d ∈ radix.digits) (number : radix.number digits = c.toNat)
      (char : isXmlChar c = true)
  | cdata (run : List Char) (chars : ∀ c ∈ run, isXmlChar c = true) (plain : '\r' ∉ run)
      (unclosed : ¬ cdataClose <:+: run)
  | comment (body : List Char) (chars : ∀ c ∈ body, isXmlChar c = true)
      (hyphens : ¬ ['-', '-'] <:+: body) (ends : body.getLast? ≠ some '-')
  | instruction (target body : List Char)
      (name : beginsName target = true ∧ ∀ c ∈ target, isNameChar c = true)
      (unreserved : target ≠ ['x', 'm', 'l']) (parted : ∀ c ∈ body.head?, isSpace c = true)
      (chars : ∀ c ∈ body, isXmlChar c = true) (unclosed : ¬ instructionClose <:+: body)

namespace Chunk

def write : Chunk → List Char
  | raw run .. => run
  | named name .. => '&' :: name ++ [';']
  | numeric radix digits .. => '&' :: radix.opening ++ digits ++ [';']
  | cdata run .. => cdataOpen ++ run ++ cdataClose
  | comment body .. => commentOpen ++ body ++ commentClose
  | instruction target body .. => instructionOpen ++ target ++ body ++ instructionClose

/-- The characters that a chunk stands for. Comments and instructions stand for none. -/
def value : Chunk → List Char
  | raw run .. | cdata run .. => run
  | named _ c .. | numeric _ _ c .. => [c]
  | comment .. | instruction .. => []

/-- Whether a chunk is read as a part of the text around it. -/
def isText : Chunk → Bool
  | raw .. | named .. | numeric .. => true
  | cdata .. | comment .. | instruction .. => false

variable {chunk : Chunk}

theorem readsPlain (h : chunk.isText = true) : ReadsPlain ['\r'] chunk.write chunk.value := by
  cases chunk with
  | raw run chars plain =>
    obtain ⟨hamp, -, hcr⟩ := plain
    have hchar : ∀ c ∈ run, ReadsPlain ['\r'] [c] [c] := by
      intro c hc
      apply ReadsPlain.literal
      · rintro rfl
        exact hamp hc
      · rw [List.mem_singleton]
        rintro rfl
        exact hcr hc
    have hread := ReadsPlain.flatMap hchar
    rwa [List.flatMap_singleton'] at hread
  | named name c known =>
    simp only [write, List.cons_append]
    apply ReadsPlain.reference
    intro rest
    rw [List.append_assoc]
    exact readReference_named known rest
  | numeric radix digits c known number char =>
    simp only [write, List.cons_append]
    apply ReadsPlain.reference
    intro rest
    rw [List.append_assoc]
    exact readReference_numeric known number char rest
  | cdata | comment | instruction => cases h

theorem mem_reference {inner : List Char} (h : ∀ c ∈ inner, c ≠ '<' ∧ isXmlChar c = true) :
    ∀ c ∈ '&' :: inner ++ [';'], c ≠ '<' ∧ isXmlChar c = true := by
  simp only [List.forall_mem_append, List.forall_mem_cons]
  exact ⟨⟨by decide, h⟩, by decide, by simp⟩

theorem mem_write (h : chunk.isText = true) : ∀ c ∈ chunk.write, c ≠ '<' ∧ isXmlChar c = true := by
  cases chunk with
  | raw run chars plain =>
    intro c hc
    refine ⟨?_, chars c hc⟩
    rintro rfl
    exact plain.2.1 hc
  | named name c known =>
    have hall : (namedCharacters.all fun e => e.1.all fun d => d != '<' && isXmlChar d) = true := by
      decide
    have hname := List.all_eq_true.mp hall _ known
    exact mem_reference (by simpa only [List.all_eq_true, Bool.and_eq_true, bne_iff_ne] using hname)
  | numeric radix digits c known number char =>
    have hall : ((radix.opening ++ radix.digits).all fun d => d != '<' && isXmlChar d) = true := by
      cases radix <;> decide
    simp only [List.all_eq_true, Bool.and_eq_true, bne_iff_ne] at hall
    obtain ⟨hopening, hdigits⟩ := List.forall_mem_append.mp hall
    rw [write, List.cons_append]
    exact mem_reference (List.forall_mem_append.mpr ⟨hopening, fun d hd => hdigits d (known d hd)⟩)
  | cdata | comment | instruction => cases h

theorem write_of_markup (h : chunk.isText = false) : ∃ s, chunk.write = '<' :: s := by
  cases chunk with
  | raw | named | numeric => cases h
  | cdata | comment | instruction => exact ⟨_, rfl⟩

/-- A chunk of markup is read as one node, which is no element. -/
theorem readItem_write (h : chunk.isText = false) :
    ∃ n : Node, n.element? = none ∧ n.characters = chunk.value ∧
      ∀ scope rest, readItem scope (chunk.write ++ rest) = .ok (some (.leaf n, rest)) := by
  cases chunk with
  | raw | named | numeric => cases h
  | cdata run chars plain unclosed =>
    refine ⟨.text (String.ofList run), rfl, String.toList_ofList, fun scope rest => ?_⟩
    have hread := readCdata_written chars plain unclosed rest
    simp [write, cdataOpen, readItem, readMarkup, commentOpen, List.isPrefixOf, hread, Except.map,
      leafOf]
  | comment body chars hyphens ends =>
    refine ⟨.comment (String.ofList body), rfl, rfl, fun scope rest => ?_⟩
    have hread := readComment_written chars hyphens ends rest
    simp [write, readItem, readMarkup, commentOpen, List.isPrefixOf, hread, Except.map, leafOf]
  | instruction target body name unreserved parted chars unclosed =>
    refine ⟨.instruction (String.ofList target) (String.ofList (skipSpaces body)), rfl, rfl,
      fun scope rest => ?_⟩
    have hread := readInstruction_written name unreserved parted chars unclosed rest
    simp [write, readItem, readMarkup, commentOpen, cdataOpen, instructionOpen, List.isPrefixOf,
      hread, Except.map, leafOf]

end Chunk

/-- Content that is read, up to the next markup, as nodes other than elements. They hold the
characters that it stands for. -/
def StandsFor (content value : List Char) : Prop :=
  ∃ nodes : List Node, nodes.filterMap Node.element? = [] ∧ nodes.flatMap Node.characters = value ∧
    ∀ inner outer rest, readContent inner outer (content ++ '<' :: rest) =
      readContent (inner.add nodes) outer ('<' :: rest)

namespace StandsFor

theorem nil : StandsFor [] [] :=
  ⟨[], rfl, rfl, fun _ _ _ => rfl⟩

/-- Chunks of text in a row are one run of text, in which no CDATA section may seem to end. -/
theorem texts {chunks : List Chunk} (htext : ∀ chunk ∈ chunks, chunk.isText = true)
    (hclose : ¬ cdataClose <:+: chunks.flatMap Chunk.write) :
    StandsFor (chunks.flatMap Chunk.write) (chunks.flatMap Chunk.value) := by
  have hplain : ReadsPlain ['\r'] (chunks.flatMap Chunk.write) (chunks.flatMap Chunk.value) :=
    .flatMap fun chunk hchunk => Chunk.readsPlain (htext chunk hchunk)
  by_cases hne : chunks.flatMap Chunk.write = []
  · obtain ⟨run, hread, hchars, -⟩ := hplain.readPieces 0
    rw [hne, readPieces, Except.ok.injEq] at hread
    rw [hne, ← hchars, ← hread]
    exact nil
  · have hmem : ∀ c ∈ chunks.flatMap Chunk.write, c ≠ '<' ∧ isXmlChar c = true := by
      intro c hc
      obtain ⟨chunk, hchunk, hc⟩ := List.mem_flatMap.mp hc
      exact Chunk.mem_write (htext chunk hchunk) c hc
    refine ⟨[.text (String.ofList (chunks.flatMap Chunk.value))], rfl, by simp, ?_⟩
    exact readContent_run hne hmem hclose hplain.runText

theorem append {content content' value value' : List Char} (h : StandsFor content value)
    (h' : StandsFor ('<' :: content') value') :
    StandsFor (content ++ '<' :: content') (value ++ value') := by
  obtain ⟨nodes, hnone, hvalue, hread⟩ := h
  obtain ⟨nodes', hnone', hvalue', hread'⟩ := h'
  refine ⟨nodes ++ nodes', ?_, ?_, fun inner outer rest => ?_⟩
  · rw [List.filterMap_append, hnone, hnone', List.append_nil]
  · rw [List.flatMap_append, hvalue, hvalue']
  · rw [List.append_assoc, List.cons_append, hread, ← List.cons_append, hread']
    simp [OpenElement.add]

theorem markup {chunk : Chunk} (h : chunk.isText = false) {content value : List Char}
    (h' : StandsFor content value) : StandsFor (chunk.write ++ content) (chunk.value ++ value) := by
  obtain ⟨n, hnone, hvalue, hitem⟩ := Chunk.readItem_write h
  obtain ⟨nodes, hnone', hvalue', hread⟩ := h'
  refine ⟨n :: nodes, by simp [hnone, hnone'], by simp [hvalue, hvalue'], fun inner outer rest => ?_⟩
  rw [List.append_assoc, readContent_leaf (hitem _ _), hread]
  simp [OpenElement.add, OpenElement.push]

/-- The induction is on the chunks after a run of text that has not ended yet. -/
theorem chunks {pending chunks : List Chunk} (htext : ∀ chunk ∈ pending, chunk.isText = true)
    (hclose : ∀ texts ∈ (pending ++ chunks).splitOnP (!·.isText),
      ¬ cdataClose <:+: texts.flatMap Chunk.write) :
    StandsFor ((pending ++ chunks).flatMap Chunk.write) ((pending ++ chunks).flatMap Chunk.value) := by
  have hpending : ∀ chunk ∈ pending, (!chunk.isText) = false := fun chunk hchunk => by
    simp [htext chunk hchunk]
  induction chunks generalizing pending with
  | nil =>
    rw [List.append_nil, List.splitOnP_eq_singleton hpending] at hclose
    rw [List.append_nil]
    exact texts htext (hclose pending List.mem_cons_self)
  | cons chunk chunks ih =>
    cases hchunk : chunk.isText with
    | true =>
      have hgrown : ∀ c ∈ pending ++ [chunk], c.isText = true :=
        List.forall_mem_append.mpr ⟨htext, by simpa using hchunk⟩
      have hrest := ih hgrown (by simpa using hclose) (fun c hc => by simp [hgrown c hc])
      simpa using hrest
    | false =>
      rw [List.splitOnP_append_cons_of_forall_mem hpending chunk (by simp [hchunk])] at hclose
      obtain ⟨hfirst, hlater⟩ := List.forall_mem_cons.mp hclose
      have hrest := markup hchunk (@ih [] (by simp) hlater (by simp))
      obtain ⟨s, hs⟩ := Chunk.write_of_markup hchunk
      rw [hs, List.cons_append] at hrest
      have hall := (texts htext hfirst).append hrest
      rw [← List.cons_append, ← hs] at hall
      simpa using hall

end StandsFor

/-- The content of an element that holds a text and no elements. -/
structure SpelledText where
  chunks : List Chunk
  /-- The mark that ends a CDATA section stands only in markup. -/
  unclosed : ∀ texts ∈ chunks.splitOnP (!·.isText), ¬ cdataClose <:+: texts.flatMap Chunk.write

namespace SpelledText

def write (t : SpelledText) : List Char :=
  t.chunks.flatMap Chunk.write

/-- The text that the content spells. -/
def value (t : SpelledText) : String :=
  String.ofList (t.chunks.flatMap Chunk.value)

theorem spells (t : SpelledText) : Spells t.write t.value := by
  obtain ⟨nodes, hnone, hvalue, hread⟩ := @StandsFor.chunks [] t.chunks (by simp) t.unclosed
  refine ⟨nodes, ?_, hnone, congrArg String.ofList hvalue⟩
  intro scope inner outer rest _
  exact hread inner outer ('/' :: rest)

theorem isXmlChar_value (t : SpelledText) : ∀ c ∈ t.value.toList, isXmlChar c = true := by
  intro c hc
  rw [value, String.toList_ofList] at hc
  obtain ⟨chunk, -, hc⟩ := List.mem_flatMap.mp hc
  cases chunk with
  | raw run chars | cdata run chars => exact chars c hc
  | named name d known =>
    have hall : ∀ e ∈ namedCharacters, isXmlChar e.2 = true := by decide
    rw [List.mem_singleton.mp hc]
    exact hall _ known
  | numeric radix digits d known number char =>
    rw [List.mem_singleton.mp hc]
    exact char
  | comment | instruction => cases hc

end SpelledText

theorem Chunk.exists_escapeChar {c : Char} (hc : isXmlChar c = true) : ∃ chunk : Chunk,
    chunk.isText = true ∧ chunk.write = EscapeTable.forText.escapeChar c ∧ chunk.value = [c] := by
  unfold EscapeTable.escapeChar
  cases hlookup : EscapeTable.forText.entries.lookup c with
  | some reference =>
    have hentry := mem_of_lookup hlookup
    simp only [EscapeTable.forText, List.mem_cons, List.not_mem_nil, or_false, Prod.mk.injEq]
      at hentry
    rcases hentry with ⟨rfl, rfl⟩ | ⟨rfl, rfl⟩ | ⟨rfl, rfl⟩ | ⟨rfl, rfl⟩
    · exact ⟨.named ['a', 'm', 'p'] '&' (by decide), rfl, rfl, rfl⟩
    · exact ⟨.named ['l', 't'] '<' (by decide), rfl, rfl, rfl⟩
    · exact ⟨.named ['g', 't'] '>' (by decide), rfl, rfl, rfl⟩
    · have hdigits : ∀ d ∈ ['1', '3'], d ∈ Radix.decimal.digits := by
        simp only [List.forall_mem_cons]
        exact ⟨by decide, by decide, by simp⟩
      exact ⟨.numeric .decimal ['1', '3'] '\r' hdigits (by decide) (by decide), rfl, rfl, rfl⟩
  | none =>
    have hplain : ∀ d, (EscapeTable.forText.entries.lookup d).isSome = true → d ∉ [c] := by
      intro d hd hmem
      rw [List.mem_singleton.mp hmem, hlookup] at hd
      cases hd
    refine ⟨.raw [c] (by simpa using hc) ⟨?_, ?_, ?_⟩, rfl, rfl, rfl⟩
    all_goals exact hplain _ (by decide)

theorem Chunk.exists_escape {s : List Char} (hs : ∀ c ∈ s, isXmlChar c = true) :
    ∃ chunks : List Chunk, (∀ chunk ∈ chunks, chunk.isText = true) ∧
      chunks.flatMap Chunk.write = s.flatMap EscapeTable.forText.escapeChar ∧
      chunks.flatMap Chunk.value = s := by
  induction s with
  | nil => exact ⟨[], by simp, rfl, rfl⟩
  | cons c s ih =>
    obtain ⟨hc, hrest⟩ := List.forall_mem_cons.mp hs
    obtain ⟨chunk, hchunk, hwrite, hvalue⟩ := Chunk.exists_escapeChar hc
    obtain ⟨chunks, hchunks, hwrites, hvalues⟩ := ih hrest
    refine ⟨chunk :: chunks, List.forall_mem_cons.mpr ⟨hchunk, hchunks⟩, ?_, ?_⟩
    · rw [List.flatMap_cons, hwrite, hwrites, List.flatMap_cons]
    · rw [List.flatMap_cons, hvalue, hvalues, List.singleton_append]

/-- Escaping the characters of a text is a way to spell it. -/
theorem SpelledText.exists_escape {v : String} (hv : ∀ c ∈ v.toList, isXmlChar c = true) :
    ∃ t : SpelledText, t.write = EscapeTable.forText.escape v ∧ t.value = v := by
  obtain ⟨chunks, htext, hwrite, hvalue⟩ := Chunk.exists_escape hv
  have hclose : ¬ cdataClose <:+: EscapeTable.forText.escape v := by
    intro hmark
    have hmem : '>' ∈ EscapeTable.forText.escape v := hmark.subset (by decide)
    exact absurd (EscapeTable.mem_escape hv hmem).1 (by decide)
  refine ⟨⟨chunks, ?_⟩, hwrite, by rw [value, hvalue, String.ofList_toList]⟩
  rw [List.splitOnP_eq_singleton fun chunk hchunk => by simp [htext chunk hchunk]]
  intro texts hmem
  rw [List.mem_singleton.mp hmem, hwrite]
  exact hclose

end SocialPayload.Xml
