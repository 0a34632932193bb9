import Mathlib.Logic.Relation
import SocialPayload.Proofs.Views

namespace SocialPayload

open Xml (Element ExpandedName Node)

namespace Config

/-- Whether an element is of neither vocabulary. -/
def isForeign (config : Config) (e : Element) : Bool :=
  match e.name.namespaceUri with
  | some uri => uri != config.namespaces.openSocial && uri != config.namespaces.osapi
  | none => !config.allowUnqualified

/-- Whether the text of an element is read where the element is found. -/
def reads (config : Config) (e : Element) : Bool :=
  textNames.any (config.isNamed .openSocial · e) || config.isNamed .osapi "recipient" e

/-- A node that is no text and has no element of a vocabulary in it. -/
inductive Inert (config : Config) : Node → Prop
  | comment (body : String) : Inert config (.comment body)
  | instruction (target body : String) : Inert config (.instruction target body)
  | element (e : Element) (foreign : ∀ d ∈ e.elements, config.isForeign d = true) :
      Inert config e.toNode

/-- One change inside an element, at any depth. An inert node is put in, which may part a text in two,
or text is put where none is read. -/
inductive Edit (config : Config) : Element → Element → Prop
  | insert (name : ExpandedName) (before after : List Node) {node : Node}
      (inert : config.Inert node) :
      Edit config ⟨name, before ++ after⟩ ⟨name, before ++ node :: after⟩
  | split (name : ExpandedName) (before after : List Node) (first second : String) {node : Node}
      (inert : config.Inert node) :
      Edit config ⟨name, before ++ .text (first ++ second) :: after⟩
        ⟨name, before ++ .text first :: node :: .text second :: after⟩
  | text (name : ExpandedName) (before after : List Node) (characters : String)
      (unread : config.reads ⟨name, before ++ after⟩ = false) :
      Edit config ⟨name, before ++ after⟩ ⟨name, before ++ .text characters :: after⟩
  | inside (name : ExpandedName) (before after : List Node) {e e' : Element}
      (edit : Edit config e e') :
      Edit config ⟨name, before ++ e.toNode :: after⟩ ⟨name, before ++ e'.toNode :: after⟩

/-- Whether one element becomes the other when changes are made and undone, any number of them. -/
def Alike (config : Config) : Element → Element → Prop :=
  Relation.EqvGen config.Edit

/-- Whether an element or one inside it is of a vocabulary. -/
def sees (config : Config) (e : Element) : Bool :=
  e.elements.any fun d => !config.isForeign d

/-- What there is to see of an element: the text if it is read, and of the elements inside those that
are of a vocabulary or lead to one. -/
def core (config : Config) (e : Element) : Element :=
  ⟨e.name, (if config.reads e then [.text e.text] else []) ++
    (e.children.filter config.sees).attach.map fun c => (config.core c.1).toNode⟩
termination_by sizeOf e
decreasing_by exact Element.sizeOf_lt_of_mem_children (List.mem_filter.mp c.2).1

def seenIn (config : Config) (content : List Node) : List Element :=
  ((content.filterMap Node.element?).filter config.sees).map config.core

variable {config : Config}

theorem core_eq (e : Element) : config.core e =
    ⟨e.name, (if config.reads e then [.text e.text] else []) ++
      (config.seenIn e.content).map Element.toNode⟩ := by
  have hmap : ((e.children.filter config.sees).attach.map fun c => (config.core c.1).toNode) =
      (config.seenIn e.content).map Element.toNode := by
    rw [seenIn, List.map_map]
    exact List.attach_map_val (f := fun c => (config.core c).toNode)
  rw [core, hmap]

theorem core_name (e : Element) : (config.core e).name = e.name := by
  rw [core_eq]

theorem core_children (e : Element) : (config.core e).children = config.seenIn e.content := by
  rw [core_eq, Element.children, List.filterMap_append, List.filterMap_map]
  cases config.reads e <;> simp [Function.comp_def]

theorem core_text {e : Element} (h : config.reads e = true) : (config.core e).text = e.text := by
  rw [core_eq, Element.text]
  simp [h, List.flatMap_map]

theorem sees_eq (e : Element) :
    config.sees e = (!config.isForeign e || !(config.seenIn e.content).isEmpty) := by
  have hany : ∀ cs : List Element,
      (cs.flatMap Element.elements).any (fun d => !config.isForeign d) =
        !((cs.filter config.sees).map config.core).isEmpty := by
    intro cs
    induction cs with
    | nil => rfl
    | cons c cs ih =>
      rw [List.flatMap_cons, List.any_append, ih, List.filter_cons, ← sees]
      cases config.sees c <;> simp
  rw [sees, Element.elements_eq, List.any_cons, hany]
  rfl

/-- What there is to see of an element depends on its name, on its text where that is read, and on
what there is to see inside. -/
theorem core_congr {e e' : Element} (hname : e.name = e'.name)
    (htext : config.reads e = true → e.text = e'.text)
    (hseen : config.seenIn e.content = config.seenIn e'.content) :
    config.sees e = config.sees e' ∧ config.core e = config.core e' := by
  have hforeign : config.isForeign e = config.isForeign e' := by
    simp only [isForeign, hname]
  have hreads : config.reads e = config.reads e' := by
    simp only [reads, isNamed, hname]
  constructor
  · rw [sees_eq, sees_eq, hforeign, hseen]
  · rw [core_eq, core_eq, hseen, hname, ← hreads]
    cases h : config.reads e with
    | false => rfl
    | true => rw [htext h]

theorem seenIn_append (content content' : List Node) :
    config.seenIn (content ++ content') = config.seenIn content ++ config.seenIn content' := by
  simp [seenIn]

theorem seenIn_text (characters : String) (content : List Node) :
    config.seenIn (.text characters :: content) = config.seenIn content := by
  rfl

theorem seenIn_toNode (e : Element) (content : List Node) : config.seenIn (e.toNode :: content) =
    (if config.sees e then [config.core e] else []) ++ config.seenIn content := by
  simp only [seenIn, List.filterMap_cons, Node.element?_toNode, List.filter_cons]
  cases config.sees e <;> rfl

theorem Inert.characters {node : Node} (h : config.Inert node) : node.characters = [] := by
  cases h <;> rfl

theorem Inert.seenIn {node : Node} (h : config.Inert node) (content : List Node) :
    config.seenIn (node :: content) = config.seenIn content := by
  cases h with
  | comment body => rfl
  | instruction target body => rfl
  | element e foreign =>
    have hsees : config.sees e = false := by
      simpa [sees] using foreign
    rw [seenIn_toNode, hsees]
    rfl

/-- An edit keeps whether an element is seen, and what is seen in it. -/
theorem Edit.core_eq {e e' : Element} (h : config.Edit e e') :
    config.sees e = config.sees e' ∧ config.core e = config.core e' := by
  induction h with
  | insert name before after inert =>
    apply core_congr
    · rfl
    · intro _
      simp [Element.text, inert.characters]
    · simp only [seenIn_append, inert.seenIn]
  | split name before after first second inert =>
    apply core_congr
    · rfl
    · intro _
      simp [Element.text, inert.characters]
    · simp only [seenIn_append, seenIn_text, inert.seenIn]
  | text name before after characters unread =>
    apply core_congr
    · rfl
    · intro hreads
      rw [unread] at hreads
      cases hreads
    · simp only [seenIn_append, seenIn_text]
  | inside name before after edit ih =>
    obtain ⟨hsees, hcore⟩ := ih
    apply core_congr
    · rfl
    · intro _
      simp [Element.text]
    · simp only [seenIn_append, seenIn_toNode, hsees, hcore]

theorem Alike.core_eq {e e' : Element} (h : config.Alike e e') :
    config.core e = config.core e' := by
  induction h with
  | rel e e' edit => exact edit.core_eq.2
  | refl e => rfl
  | symm e e' _ ih => exact ih.symm
  | trans e e' e'' _ _ ih ih' => exact ih.trans ih'

theorem isNamed_foreign {e : Element} (h : config.isForeign e = true) (vocabulary : Vocabulary)
    (name : String) : config.isNamed vocabulary name e = false := by
  have hadmits : config.admits vocabulary e.name.namespaceUri = false := by
    rw [isForeign] at h
    cases huri : e.name.namespaceUri with
    | none =>
      rw [huri] at h
      cases vocabulary with
      | openSocial => simpa [admits] using h
      | osapi => rfl
    | some uri =>
      simp only [huri, Bool.and_eq_true, bne_iff_ne] at h
      cases vocabulary with
      | openSocial => exact beq_false_of_ne h.1
      | osapi => exact beq_false_of_ne h.2
  rw [isNamed, hadmits, Bool.and_false]

theorem isNamed_unseen {e : Element} (h : config.sees e = false) {d : Element}
    (hd : d ∈ e.elements) (vocabulary : Vocabulary) (name : String) :
    config.isNamed vocabulary name d = false := by
  have hforeign : config.isForeign d = true := by
    simpa using List.any_eq_false.mp h d hd
  exact isNamed_foreign hforeign vocabulary name

theorem isNamed_core (vocabulary : Vocabulary) (name : String) (e : Element) :
    config.isNamed vocabulary name (config.core e) = config.isNamed vocabulary name e := by
  rw [isNamed, core_name, isNamed]

theorem core_isView (config : Config) : IsView config config config.sees config.core where
  named := isNamed_core .openSocial
  text name hname e hnamed := by
    have hreads : config.reads e = true := by
      rw [reads, Bool.or_eq_true, List.any_eq_true]
      exact .inl ⟨name, hname, hnamed⟩
    exact core_text hreads
  children e := core_children e
  left e hsees d hd := isNamed_unseen hsees hd .openSocial

theorem core_showsRecipients (config : Config) :
    ShowsRecipients config config config.sees config.core where
  named := isNamed_core .osapi "recipient"
  text e hnamed := by
    have hreads : config.reads e = true := by
      rw [reads, hnamed, Bool.or_true]
    exact core_text hreads
  left e hsees d hd := isNamed_unseen hsees hd .osapi "recipient"

end Config

/-- What is read from a document is the same when comments, instructions and foreign elements are put
into it or taken out, and when text changes where none is read. -/
theorem Record.ofRoot_alike {config : Config} {root root' : Element}
    (h : config.Alike root root') (kind : EntityKind) :
    Record.ofRoot kind config root = Record.ofRoot kind config root' := by
  have hview := config.core_isView
  have hrecipients := config.core_showsRecipients
  calc
    Record.ofRoot kind config root = Record.ofRoot kind config (config.core root) :=
      (hview.ofRoot (fun _ => hrecipients) root).symm
    _ = Record.ofRoot kind config (config.core root') := by rw [h.core_eq]
    _ = Record.ofRoot kind config root' := hview.ofRoot (fun _ => hrecipients) root'

theorem Record.ofRoot_alike_person :
    Record.ofRoot .people {} ⟨⟨none, "person"⟩, [.element ⟨none, "id"⟩ [.text "a1"]]⟩ =
      Record.ofRoot .people {} ⟨⟨none, "person"⟩, [.text "?", .element ⟨none, "id"⟩
        [.text "a", .element ⟨some "urn:x", "id"⟩ [.text "b"], .text "1"]]⟩ := by
  have hforeign : Config.Inert {} (.element ⟨some "urn:x", "id"⟩ [.text "b"]) :=
    .element ⟨⟨some "urn:x", "id"⟩, [.text "b"]⟩ (by decide)
  have hsplit := Config.Edit.split ⟨none, "id"⟩ [] [] "a" "1" hforeign
  have hinside := hsplit.inside ⟨none, "person"⟩ [] []
  have htext := @Config.Edit.text {} ⟨none, "person"⟩ []
    [.element ⟨none, "id"⟩ [.text "a", .element ⟨some "urn:x", "id"⟩ [.text "b"], .text "1"]] "?"
    (by decide)
  exact Record.ofRoot_alike (.trans _ _ _ (.rel _ _ hinside) (.rel _ _ htext)) .people

end SocialPayload
