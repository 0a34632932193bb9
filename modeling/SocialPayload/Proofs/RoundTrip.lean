import SocialPayload.Proofs.ShownRecords

namespace SocialPayload

open Xml (Draft ExpandedName IsDeclarable Scope isPlainName)

namespace Spelling

variable {config : Config} {kind : EntityKind} {spelling : Spelling}

theorem isUsable_default {q : String}
    (h : isPlainName q = true ∧ q ≠ "xml" ∧ q ≠ "xmlns" ∧ q ≠ osapiQualifier) :
    (qualified q).IsUsable {} kind where
  accepted := nofun
  declarable _ := ⟨List.all_eq_true.mp (by decide), by decide, by decide⟩
  qualifier q' hq := by
    cases hq
    exact h
  osapi _ := ⟨List.all_eq_true.mp (by decide), by decide, by decide⟩

theorem declared_declarable (h : spelling.IsUsable config kind) :
    ∀ d ∈ spelling.declared config kind, IsDeclarable d := by
  intro d hd
  rcases List.mem_append.mp hd with hd | hd
  · cases spelling with
    | unqualified => simp [namespaceUri?] at hd
    | byDefault =>
      rw [List.mem_singleton.mp hd]
      exact ⟨.inl rfl, h.declarable (by simp)⟩
    | qualified q =>
      obtain ⟨hname, hxml, hxmlns, -⟩ := h.qualifier q rfl
      rw [List.mem_singleton.mp hd]
      exact ⟨.inr ⟨hname, hxml, hxmlns⟩, h.declarable (by simp)⟩
  · split at hd
    · rename_i hkind
      have hname : isPlainName osapiQualifier = true := by decide
      rw [List.mem_singleton.mp hd]
      exact ⟨.inr ⟨hname, by simp [osapiQualifier]⟩, h.osapi hkind⟩
    · simp at hd

theorem declared_nodup (h : spelling.IsUsable config kind) :
    ((spelling.declared config kind).map Prod.fst).Nodup := by
  cases spelling with
  | unqualified => by_cases hk : kind = .messages <;> simp [declared, namespaceUri?, hk]
  | byDefault =>
    by_cases hk : kind = .messages <;>
      simp [declared, namespaceUri?, qualifier, osapiQualifier, hk]
  | qualified q =>
    have hq := (h.qualifier q rfl).2.2.2
    by_cases hk : kind = .messages <;> simp [declared, namespaceUri?, qualifier, hk, hq]

/-- In the scope of the root the elements of a spelling are OpenSocial ones. -/
theorem names (h : spelling.IsUsable config kind) {name : String}
    (hname : isPlainName name = true) :
    (spelling.declared config kind).Names spelling.qualifier
      ⟨spelling.namespaceUri? config, name⟩ := by
  cases spelling with
  | unqualified =>
    refine ⟨⟨.inl rfl, hname⟩, by simp [qualifier], fun place => ?_⟩
    by_cases hk : kind = .messages <;>
      simp [declared, namespaceUri?, qualifier, osapiQualifier, Scope.resolve, hk]
  | byDefault =>
    refine ⟨⟨.inl rfl, hname⟩, by simp [qualifier], fun place => ?_⟩
    simp [declared, namespaceUri?, qualifier, Scope.resolve]
  | qualified q =>
    obtain ⟨hq, -, hxmlns, -⟩ := h.qualifier q rfl
    refine ⟨⟨.inr hq, hname⟩, hxmlns, fun place => ?_⟩
    simp [declared, namespaceUri?, qualifier, Scope.resolve]

theorem names_recipient (h : spelling.IsUsable config .messages) :
    (spelling.declared config .messages).Names osapiQualifier
      ⟨some config.namespaces.osapi, "recipient"⟩ := by
  have hqualifier : isPlainName osapiQualifier = true := by decide
  have hname : isPlainName "recipient" = true := by decide
  have hlookup : (spelling.declared config .messages).lookup osapiQualifier =
      some config.namespaces.osapi := by
    cases spelling with
    | unqualified => simp [declared, namespaceUri?]
    | byDefault =>
      simp [declared, namespaceUri?, qualifier, osapiQualifier, List.lookup_cons]
    | qualified q =>
      have hq : (osapiQualifier == q) = false := by simpa using Ne.symm (h.qualifier q rfl).2.2.2
      simp [declared, namespaceUri?, qualifier, List.lookup_cons, hq]
  exact ⟨⟨.inr hqualifier, hname⟩, by decide, fun place => by rw [Scope.resolve, hlookup]⟩

theorem fits_text (h : spelling.IsUsable config kind) {name : String}
    (hname : isPlainName name = true) (value : String) :
    (spelling.text config name value).Fits (spelling.declared config kind) :=
  names h hname

theorem fits_group (h : spelling.IsUsable config kind) {name : String}
    (hname : isPlainName name = true) (content : List Draft) :
    (spelling.group config name content).Fits (spelling.declared config kind) ↔
      Draft.FitAll (spelling.declared config kind) content :=
  and_iff_right (names h hname)

theorem fits_field (h : spelling.IsUsable config kind) {name : String}
    (hname : isPlainName name = true) (value : Option String) :
    Draft.FitAll (spelling.declared config kind) (spelling.field config name value) := by
  cases value with
  | none => trivial
  | some v => exact ⟨fits_text h hname v, trivial⟩

theorem fits_part {α : Type} (h : spelling.IsUsable config kind) {name : String}
    (hname : isPlainName name = true) (content : α → List Draft) (part : Option α) :
    Draft.FitAll (spelling.declared config kind)
      (part.map fun a => spelling.group config name (content a)).toList ↔
      ∀ a ∈ part, Draft.FitAll (spelling.declared config kind) (content a) := by
  cases part <;> simp [Draft.FitAll, fits_group h hname]

theorem fits_parts {α : Type} (h : spelling.IsUsable config kind) {name : String}
    (hname : isPlainName name = true) (content : α → List Draft) (parts : List α) :
    Draft.FitAll (spelling.declared config kind)
      (parts.map fun a => spelling.group config name (content a)) ↔
      ∀ a ∈ parts, Draft.FitAll (spelling.declared config kind) (content a) := by
  simp only [Draft.fitAll_iff, List.forall_mem_map, fits_group h hname]

end Spelling

section

variable {config : Config} {spelling : Spelling} {kind : EntityKind}

theorem MediaItem.fits (h : spelling.IsUsable config kind) (item : MediaItem) :
    Draft.FitAll (spelling.declared config kind) (item.layout config spelling) := by
  simp (disch := decide) only [layout, Draft.fitAll_append, Spelling.fits_field h, and_self]

theorem Activity.fits (h : spelling.IsUsable config kind) (activity : Activity) :
    Draft.FitAll (spelling.declared config kind) (activity.layout config spelling) := by
  simp (disch := decide) only [layout, Draft.fitAll_append, Spelling.fits_field h,
    Spelling.fits_part h, Spelling.fits_parts h, true_and]
  intro items _ item _
  exact item.fits h

theorem Message.fits (h : spelling.IsUsable config .messages) (message : Message) :
    Draft.FitAll (spelling.declared config .messages) (message.layout config spelling) := by
  simp (disch := decide) only [layout, Draft.fitAll_append, Spelling.fits_field h, true_and]
  apply Draft.fitAll_iff.mpr
  intro d hd
  obtain ⟨recipient, -, rfl⟩ := List.mem_map.mp hd
  exact Spelling.names_recipient h

theorem AppData.fits (h : spelling.IsUsable config kind) (entries : List (String × String)) :
    Draft.FitAll (spelling.declared config kind)
      (entries.map (AppData.layoutEntry config spelling)) := by
  apply Draft.fitAll_iff.mpr
  intro d hd
  obtain ⟨entry, -, rfl⟩ := List.mem_map.mp hd
  simp (disch := decide) only [layoutEntry, Spelling.fits_group h, Draft.FitAll,
    Spelling.fits_text h, and_self]

theorem PersonName.fits (h : spelling.IsUsable config kind) (name : PersonName) :
    Draft.FitAll (spelling.declared config kind) (name.layout config spelling) := by
  simp (disch := decide) only [layout, Draft.fitAll_append, Spelling.fits_field h, and_self]

theorem Person.fits (h : spelling.IsUsable config kind) (person : Person) :
    Draft.FitAll (spelling.declared config kind) (person.layout config spelling) := by
  simp (disch := decide) only [layout, Draft.fitAll_append, Spelling.fits_field h,
    Spelling.fits_part h, and_true, true_and]
  intro name _
  exact name.fits h

theorem LocationText.fits (h : spelling.IsUsable config kind) (texts : LocationText) :
    Draft.FitAll (spelling.declared config kind) (texts.layout config spelling) := by
  simp (disch := decide) only [layout, Draft.fitAll_append, Spelling.fits_field h, and_self]

theorem Album.fits (h : spelling.IsUsable config kind) (album : Album)
    (location : Option LocationText) :
    Draft.FitAll (spelling.declared config kind) (album.layout config spelling location) := by
  simp (disch := decide) only [layout, Draft.fitAll_append, Spelling.fits_field h,
    Spelling.fits_part h, true_and]
  intro texts _
  exact texts.fits h

/-- The root declares what the names of a layout need. -/
theorem Record.HasLayout.fits {record : Record} {d : Draft}
    (hlayout : record.HasLayout config spelling d)
    (h : spelling.IsUsable config record.kind) :
    d.Fits (spelling.declared config record.kind) := by
  cases hlayout with
  | activity a => exact (Spelling.fits_group h (by decide) _).mpr (a.fits h)
  | appData data entries order => exact (Spelling.fits_group h (by decide) _).mpr (AppData.fits h _)
  | message m => exact (Spelling.fits_group h (by decide) _).mpr (m.fits h)
  | person p => exact (Spelling.fits_group h (by decide) _).mpr (p.fits h)
  | album a texts means => exact (Spelling.fits_group h (by decide) _).mpr (a.fits h texts)
  | mediaItem i => exact (Spelling.fits_group h (by decide) _).mpr (i.fits h)

end

/-- Reading a document written from a record gives the record, whatever texts, numbers and order of
entries it is written with and however its elements are spelled. -/
theorem Record.ofText_document {config : Config} {spelling : Spelling} {record : Record} {d : Draft}
    (hspelling : spelling.IsUsable config record.kind)
    (hlayout : record.HasLayout config spelling d)
    (hvalues : ∀ v ∈ d.values, ∀ c ∈ v.toList, Xml.isXmlChar c = true) :
    Record.ofText record.kind config (d.document (spelling.declared config record.kind)) =
      record.readBack := by
  have hwrites := (hlayout.fits hspelling).writes (spelling.declared config record.kind) hvalues
  obtain ⟨e, hparse, hshows⟩ := hwrites.parse (Spelling.declared_declarable hspelling)
    (Spelling.declared_nodup hspelling)
  rw [Record.ofText, Draft.document, hparse]
  exact hlayout.ofRoot hspelling.accepted hshows

theorem Record.ofText_document_album :
    Record.ofText .albums {} ("<p:album xmlns:p=\"http://ns.opensocial.org/2008/opensocial\">" ++
        "<p:caption>A &amp; B</p:caption>" ++
        "<p:location><p:latitude> 52.5 </p:latitude></p:location></p:album>") =
      .ok (.album {
        title := some "A & B"
        location := some { latitude := some ⟨4632585535448154112⟩ } }) := by
  let location : Location := { latitude := some ⟨4632585535448154112⟩ }
  let album : Album := { title := some "A & B", location := some location }
  let texts : LocationText := { latitude := some " 52.5 " }
  have husable : (Spelling.qualified "p").IsUsable {} .albums :=
    Spelling.isUsable_default ⟨by decide, by decide, by decide, by decide⟩
  have htexts : texts.Means location := ⟨by decide +kernel, by decide⟩
  have hvalues : (["A & B", " 52.5 "].all fun v => v.toList.all Xml.isXmlChar) = true := by decide
  have hread := Record.ofText_document husable (.album album (some texts) (.some htexts))
    (fun v hv => List.all_eq_true.mp (List.all_eq_true.mp hvalues v hv))
  have hdocument : Draft.document ((Spelling.qualified "p").declared {} .albums)
      (Spelling.group {} (.qualified "p") "album" (album.layout {} (.qualified "p") (some texts))) =
      "<p:album xmlns:p=\"http://ns.opensocial.org/2008/opensocial\">" ++
        "<p:caption>A &amp; B</p:caption>" ++
        "<p:location><p:latitude> 52.5 </p:latitude></p:location></p:album>" := by decide +kernel
  have hback : (Record.album album).readBack = .ok (.album album) := by decide +kernel
  rw [← hdocument]
  exact hread.trans hback

theorem Record.ofText_writes {config : Config} {spelling : Spelling} {record : Record} {d : Draft}
    {s : List Char} (hspelling : spelling.IsUsable config record.kind)
    (hlayout : record.HasLayout config spelling d)
    (h : Draft.Writes (spelling.declared config record.kind)
      (spelling.declared config record.kind) d s) :
    Record.ofText record.kind config (String.ofList s) = record.readBack := by
  obtain ⟨e, hparse, hshows⟩ := h.parse (Spelling.declared_declarable hspelling)
    (Spelling.declared_nodup hspelling)
  rw [Record.ofText, hparse]
  exact hlayout.ofRoot hspelling.accepted hshows

/-- A record is read from any spelling of its texts, as it is from the one in which they are
escaped: with references for some characters, CDATA sections, comments or instructions. -/
theorem Record.ofText_spelled {config : Config} {spelling : Spelling} {record : Record} {d : Draft}
    {s : List Char} (hspelling : spelling.IsUsable config record.kind)
    (hlayout : record.HasLayout config spelling d)
    (hspelled : Draft.Spelled (spelling.declared config record.kind) d s) :
    Record.ofText record.kind config (String.ofList s) = record.readBack ∧
      Record.ofText record.kind config (String.ofList s) =
        Record.ofText record.kind config (d.document (spelling.declared config record.kind)) := by
  have hfits := hlayout.fits hspelling
  have hread := Record.ofText_writes hspelling hlayout (hspelled.writes hfits)
  have hescaped := Record.ofText_writes hspelling hlayout (hfits.writes _ hspelled.isXmlChar)
  exact ⟨hread, hread.trans hescaped.symm⟩

theorem Record.ofText_spelled_person :
    Record.ofText .people {} ("<person><displayName>A&amp;<!-- and -->B<![CDATA[<C>]]>&#xD;" ++
        "<?pi x?>D</displayName></person>") =
      .ok (.person { displayName := some "A&B<C>\rD" }) ∧
    Record.ofText .people {} ("<person><displayName>A&amp;<!-- and -->B<![CDATA[<C>]]>&#xD;" ++
        "<?pi x?>D</displayName></person>") =
      Record.ofText .people {}
        "<person><displayName>A&amp;B&lt;C&gt;&#13;D</displayName></person>" := by
  have husable : Spelling.unqualified.IsUsable {} .people :=
    ⟨fun _ => rfl, fun hne => absurd rfl hne, nofun, nofun⟩
  let person : Person := { displayName := some "A&B<C>\rD" }
  let name : Xml.SpelledText := {
    chunks := [.raw ['A'] (List.all_eq_true.mp (by decide)) (by decide),
      .named ['a', 'm', 'p'] '&' (by decide),
      .comment [' ', 'a', 'n', 'd', ' '] (List.all_eq_true.mp (by decide)) (by decide) (by decide),
      .raw ['B'] (List.all_eq_true.mp (by decide)) (by decide),
      .cdata ['<', 'C', '>'] (List.all_eq_true.mp (by decide)) (by decide) (by decide),
      .numeric .hexadecimal ['D'] '\r' (List.forall_mem_singleton.mpr (by decide)) (by decide)
        (by decide),
      .instruction ['p', 'i'] [' ', 'x'] ⟨by decide, List.all_eq_true.mp (by decide)⟩ (by decide)
        (by simp [Xml.isSpace]) (List.all_eq_true.mp (by decide)) (by decide),
      .raw ['D'] (List.all_eq_true.mp (by decide)) (by decide)]
    unclosed := by decide }
  let content := Xml.writeElement ⟨"", "displayName"⟩ [] name.write ++ []
  have hspelled : Draft.Spelled (Spelling.unqualified.declared {} .people)
      (Spelling.group {} .unqualified "person" (person.layout {} .unqualified))
      (Xml.writeElement ⟨"", "person"⟩ [] content) := .group (.cons (.text name (by decide)) .nil)
  have hread := Record.ofText_spelled husable (.person person) hspelled
  have hdocument : String.ofList (Xml.writeElement ⟨"", "person"⟩ [] content) =
      "<person><displayName>A&amp;<!-- and -->B<![CDATA[<C>]]>&#xD;" ++
        "<?pi x?>D</displayName></person>" := by decide +kernel
  have hescaped : Draft.document (Spelling.unqualified.declared {} .people)
      (Spelling.group {} .unqualified "person" (person.layout {} .unqualified)) =
      "<person><displayName>A&amp;B&lt;C&gt;&#13;D</displayName></person>" := by decide +kernel
  rw [← hdocument, ← hescaped]
  exact hread

end SocialPayload
