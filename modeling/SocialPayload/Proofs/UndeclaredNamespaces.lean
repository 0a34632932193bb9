import SocialPayload.Proofs.AddedDeclarations
import SocialPayload.Proofs.Locality
import SocialPayload.Proofs.Refusals

namespace SocialPayload

open Xml (Document Element ElementText ExpandedName IsDeclarable IsDeclarableUri Scope isPlainName
  readRoot writeElement)

variable {text : ElementText} {root : Element} {config : Config} {kind : EntityKind}

/-- The empty namespace is foreign, as none is to a strict configuration. -/
theorem Config.undeclared_isView (hconfig : config.namespaces.openSocial ≠ "") :
    IsView config.strict config (fun _ => true) (Element.mapNames (·.qualify "")) := by
  apply mapNames_isView
  intro name e
  obtain ⟨⟨uri, localPart⟩, content⟩ := e
  cases uri <;> simp [isNamed, Element.mapNames, ExpandedName.qualify, admits, strict, hconfig.symm]

theorem Record.ofRoot_undeclared (hkind : kind.isLocal = true)
    (hconfig : config.namespaces.openSocial ≠ "") (root : Element) :
    Record.ofRoot kind config (root.mapNames (·.qualify "")) =
      Record.ofRoot kind config.strict root := by
  apply (Config.undeclared_isView hconfig).ofRoot
  rintro rfl
  cases hkind

theorem Xml.IsDeclarableUri.empty : IsDeclarableUri "" :=
  ⟨by simp, by decide, by decide⟩

/-- An element in another one with a default namespace, which is undeclared inside. -/
theorem Xml.ElementText.parse_undeclared_inside (h : readRoot text.write = .ok (some root, []))
    (hnone : root.name.namespaceUri = none) {u r : String} (hu : IsDeclarableUri u)
    (hr : isPlainName r = true) :
    Document.parse (String.ofList (writeElement ⟨"", r⟩ [("", u)] (text.declaring ""))) =
      .ok ⟨⟨⟨some u, r⟩, [(root.mapNames (·.qualify "")).toNode]⟩⟩ := by
  have hname : Scope.Names [("", u)] "" ⟨some u, r⟩ := ⟨⟨.inl rfl, hr⟩, by decide, fun _ => rfl⟩
  have hdeclarable : ∀ d ∈ ([("", u)] : Scope), IsDeclarable d := by
    intro d hd
    rw [List.mem_singleton.mp hd]
    exact ⟨.inl rfl, hu⟩
  have hscope : ∀ qualifier, qualifier ≠ "" → ([("", u)] : Scope).lookup qualifier = none := by
    intro qualifier hne
    rw [List.lookup_cons, beq_false_of_ne hne]
    rfl
  have hnew : (([("", u)] : Scope).map Prod.fst).Nodup := by simp
  have hreads := reads_declaring h hnone .empty hscope
  have hparse := parse_writeElement hname hdeclarable hnew hreads
  exact hparse

theorem Record.ofRoot_inside (hkind : kind.isLocal = true) {name : ExpandedName}
    (hname : name.localPart ∉ kind.names) (e : Element) :
    Record.ofRoot kind config ⟨name, [e.toNode]⟩ = Record.ofRoot kind config e := by
  have hclear : Envelope.IsClear config kind.names ⟨name, [], []⟩ := by
    constructor
    · intro content
      rw [Config.isEntity, List.any_eq_false]
      intro other hother hnamed
      rw [Config.isNamed, Bool.and_eq_true, beq_iff_eq] at hnamed
      exact hname (hnamed.1 ▸ hother)
    · intro d hd
      cases hd
  apply Record.ofRoot_congr hkind
  have haround := Envelope.entity?_around hclear e
  rw [show Envelope.around ⟨name, [], []⟩ e = ⟨name, [e.toNode]⟩ from rfl] at haround
  rw [haround]
  simp [Xml.Node.elementsOf]

theorem Record.ofRoot_eq_missingElement (hkind : kind.isLocal = true) :
    Record.ofRoot kind config root = .error (.missingElement kind) ↔
      ∀ e ∈ root.elements, ¬ config.isEntity kind.names e = true := by
  have hsearched : kind ≠ .appData ∧ kind ≠ .messages := by
    constructor <;> rintro rfl <;> cases hkind
  rw [Record.ofRoot_eq_error]
  constructor
  · intro h
    cases h with
    | noEntity _ none => exact none
    | noEntry | noField => cases hkind
  · exact .noEntity hsearched

theorem Config.isEntity_unqualified {names : List String} {e : Element}
    (h : e.name.namespaceUri = none) : config.isEntity names e = true ↔
      config.allowUnqualified = true ∧ e.name.localPart ∈ names := by
  simp [isEntity, isNamed, admits, h, and_comm]

/-- A payload whose default namespace is undeclared is read as if elements without a namespace were
not accepted, whether they are or not, alone and inside another element. One without any namespace
has nothing to be read then. Without the declaration that is so only if such elements are not
accepted, or if there is no entity among them. -/
theorem Record.ofText_undeclared (h : readRoot text.write = .ok (some root, []))
    (hroot : root.name.namespaceUri = none) (hkind : kind.isLocal = true)
    (hconfig : config.namespaces.openSocial ≠ "") {u r : String} (hu : IsDeclarableUri u)
    (hr : isPlainName r = true) (hother : r ∉ kind.names) :
    Record.ofText kind config (String.ofList (text.declaring "")) =
        Record.ofText kind config.strict (String.ofList text.write) ∧
    Record.ofText kind config
        (String.ofList (writeElement ⟨"", r⟩ [("", u)] (text.declaring ""))) =
        Record.ofText kind config.strict (String.ofList text.write) ∧
    ((∀ e ∈ root.elements, e.name.namespaceUri = none) →
      Record.ofText kind config.strict (String.ofList text.write) =
          .error (.missingElement kind) ∧
      (Record.ofText kind config (String.ofList text.write) = .error (.missingElement kind) ↔
        config.allowUnqualified = false ∨
          ∀ e ∈ root.elements, e.name.localPart ∉ kind.names)) := by
  have htext : ∀ config : Config, Record.ofText kind config (String.ofList text.write) =
      Record.ofRoot kind config root := by
    intro config
    rw [Record.ofText, Xml.parse_of_readRoot h]
  have hundeclared := Xml.parse_of_readRoot (ElementText.readRoot_declaring h hroot .empty)
  refine ⟨?_, ?_, ?_⟩
  · rw [htext, Record.ofText, hundeclared]
    exact Record.ofRoot_undeclared hkind hconfig root
  · rw [htext, Record.ofText, ElementText.parse_undeclared_inside h hroot hu hr]
    exact (Record.ofRoot_inside hkind hother _).trans (Record.ofRoot_undeclared hkind hconfig root)
  · intro hbare
    rw [htext, htext, Record.ofRoot_eq_missingElement hkind, Record.ofRoot_eq_missingElement hkind]
    constructor
    · intro e he hentity
      cases ((Config.isEntity_unqualified (hbare e he)).mp hentity).1
    · constructor
      · intro hnone
        cases hallow : config.allowUnqualified with
        | false => exact .inl rfl
        | true =>
          right
          intro e he hname
          exact hnone e he ((Config.isEntity_unqualified (hbare e he)).mpr ⟨hallow, hname⟩)
      · intro hcases e he hentity
        obtain ⟨hallow, hname⟩ := (Config.isEntity_unqualified (hbare e he)).mp hentity
        rcases hcases with hforeign | hnames
        · cases hallow.symm.trans hforeign
        · exact hnames e he hname

theorem Record.ofText_undeclared_person :
    ∃ (text : ElementText) (root : Element), text.write = "<person><id>1</id></person>".toList ∧
      readRoot text.write = .ok (some root, []) ∧
      Record.ofText .people {} (String.ofList (text.declaring "")) =
        .error (.missingElement .people) ∧
      Record.ofText .people {}
          (String.ofList (writeElement ⟨"", "r"⟩ [("", "urn:u")] (text.declaring ""))) =
        .error (.missingElement .people) ∧
      Record.ofText .people {} (String.ofList text.write) ≠ .error (.missingElement .people) := by
  let text : ElementText := ⟨"person".toList, [], "><id>1</id></person>".toList,
    List.all_eq_true.mp (by decide), fun c hc => by cases hc; decide, nofun⟩
  have hread : (readRoot text.write).toOption.map (fun read =>
      (read.1.map fun root => (root.name, root.elements.all (·.name.namespaceUri == none)),
        read.2)) = some (some (⟨none, "person"⟩, true), []) := by
    decide +kernel
  obtain ⟨⟨found, rest⟩, hroot, hfound⟩ := Option.map_eq_some_iff.mp hread
  simp only [Prod.mk.injEq, Option.map_eq_some_iff] at hfound
  obtain ⟨⟨root, rfl, hname, hbare⟩, rfl⟩ := hfound
  have htext : readRoot text.write = .ok (some root, []) := Xml.toOption_eq_some.mp hroot
  replace hbare : ∀ e ∈ root.elements, e.name.namespaceUri = none := by
    simpa using List.all_eq_true.mp hbare
  have huri : IsDeclarableUri "urn:u" := ⟨List.all_eq_true.mp (by decide), by decide, by decide⟩
  have hconfig : (({} : Config).namespaces.openSocial) ≠ "" := by decide
  have hplain : isPlainName "r" = true := by decide
  have hother : "r" ∉ EntityKind.people.names := by decide
  obtain ⟨halone, hinside, hrefused⟩ :=
    Record.ofText_undeclared htext (by rw [hname]) rfl hconfig huri hplain hother
  obtain ⟨hstrict, haccepted⟩ := hrefused hbare
  refine ⟨text, root, rfl, htext, halone.trans hstrict, hinside.trans hstrict, ?_⟩
  intro hmissing
  rcases haccepted.mp hmissing with hallow | hnames
  · cases hallow
  · exact hnames root root.self_mem_elements (by rw [hname]; decide)

/-- A payload that is accepted is refused when it undeclares a default namespace. -/
theorem Record.ofText_undeclared_ne :
    Record.ofText .people {} "<person><id>1</id></person>" =
        .ok (.person { id := some "1" }) ∧
      Record.ofText .people {} "<person xmlns=\"\"><id>1</id></person>" =
        .error (.missingElement .people) ∧
      Record.ofText .people {} "<r xmlns=\"urn:u\"><person xmlns=\"\"><id>1</id></person></r>" =
        .error (.missingElement .people) := by
  decide +kernel

end SocialPayload
