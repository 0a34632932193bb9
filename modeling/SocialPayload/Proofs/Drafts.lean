import Mathlib.Data.List.Forall2
import SocialPayload.Proofs.SpelledText

namespace SocialPayload.Xml

/-- An element before it is written. It holds a text or elements, and has a qualifier to be written
with. -/
inductive Draft where
  | text (qualifier : String) (name : ExpandedName) (value : String)
  | group (qualifier : String) (name : ExpandedName) (content : List Draft)

namespace Draft

def name : Draft → ExpandedName
  | text _ name _ => name
  | group _ name _ => name

def value : Draft → String
  | text _ _ value => value
  | group _ _ _ => ""

mutual

/-- The text of a draft, with declarations in its start tag. Each value in it is escaped. -/
def write (declared : Scope) : Draft → List Char
  | text qualifier name value =>
    writeElement ⟨qualifier, name.localPart⟩ declared (EscapeTable.forText.escape value)
  | group qualifier name content =>
    writeElement ⟨qualifier, name.localPart⟩ declared (writeAll content)

def writeAll : List Draft → List Char
  | [] => []
  | d :: ds => d.write [] ++ writeAll ds

end

def document (declared : Scope) (d : Draft) : String :=
  String.ofList (d.write declared)

mutual

def values : Draft → List String
  | text _ _ value => [value]
  | group _ _ content => allValues content

def allValues : List Draft → List String
  | [] => []
  | d :: ds => d.values ++ allValues ds

end

mutual

/-- Whether the names of a draft have their namespaces where a scope is in force. -/
def Fits (scope : Scope) : Draft → Prop
  | text qualifier name _ => scope.Names qualifier name
  | group qualifier name content => scope.Names qualifier name ∧ FitAll scope content

def FitAll (scope : Scope) : List Draft → Prop
  | [] => True
  | d :: ds => d.Fits scope ∧ FitAll scope ds

end

mutual

/-- A text that writes a draft where a scope is in force, with declarations in its start tag. Each
value in it is spelled in some way. -/
inductive Writes (scope : Scope) : Scope → Draft → List Char → Prop
  | text {declared : Scope} {qualifier : String} {name : ExpandedName} {value : String}
      {content : List Char} (names : scope.Names qualifier name) (spells : Spells content value) :
      Writes scope declared (.text qualifier name value)
        (writeElement ⟨qualifier, name.localPart⟩ declared content)
  | group {declared : Scope} {qualifier : String} {name : ExpandedName} {ds : List Draft}
      {content : List Char} (names : scope.Names qualifier name)
      (writes : WritesAll scope ds content) :
      Writes scope declared (.group qualifier name ds)
        (writeElement ⟨qualifier, name.localPart⟩ declared content)

inductive WritesAll (scope : Scope) : List Draft → List Char → Prop
  | nil : WritesAll scope [] []
  | cons {d : Draft} {ds : List Draft} {first rest : List Char} (head : Writes scope [] d first)
      (tail : WritesAll scope ds rest) : WritesAll scope (d :: ds) (first ++ rest)

end

mutual

/-- A text that is like the text of a draft, but has each value spelled in a way of its own. -/
inductive Spelled : Scope → Draft → List Char → Prop
  | text {declared : Scope} {qualifier : String} {name : ExpandedName} {value : String}
      (t : SpelledText) (spells : t.value = value) :
      Spelled declared (.text qualifier name value)
        (writeElement ⟨qualifier, name.localPart⟩ declared t.write)
  | group {declared : Scope} {qualifier : String} {name : ExpandedName} {ds : List Draft}
      {content : List Char} (spelled : SpelledAll ds content) :
      Spelled declared (.group qualifier name ds)
        (writeElement ⟨qualifier, name.localPart⟩ declared content)

inductive SpelledAll : List Draft → List Char → Prop
  | nil : SpelledAll [] []
  | cons {d : Draft} {ds : List Draft} {first rest : List Char} (head : Spelled [] d first)
      (tail : SpelledAll ds rest) : SpelledAll (d :: ds) (first ++ rest)

end

mutual

/-- Whether an element has the name of a draft and what the draft holds, however its text is parted
into nodes. -/
def Shows : Draft → Element → Prop
  | text _ name value, e => e.name = name ∧ e.text = value ∧ e.children = []
  | group _ name content, e => e.name = name ∧ e.text = "" ∧ ShowAll content e.children

def ShowAll : List Draft → List Element → Prop
  | [], es => es = []
  | d :: ds, es => ∃ e rest, es = e :: rest ∧ d.Shows e ∧ ShowAll ds rest

end

theorem Shows.name_eq {d : Draft} {e : Element} (h : d.Shows e) : e.name = d.name := by
  cases d <;> exact h.1

theorem Shows.text_eq {d : Draft} {e : Element} (h : d.Shows e) : e.text = d.value := by
  cases d <;> exact h.2.1

theorem fitAll_iff {scope : Scope} {ds : List Draft} :
    FitAll scope ds ↔ ∀ d ∈ ds, d.Fits scope := by
  induction ds with
  | nil => simp [FitAll]
  | cons d ds ih => simp [FitAll, ih]

theorem fitAll_append {scope : Scope} {ds ds' : List Draft} :
    FitAll scope (ds ++ ds') ↔ FitAll scope ds ∧ FitAll scope ds' := by
  simp only [fitAll_iff, List.forall_mem_append]

theorem showAll_iff {ds : List Draft} {es : List Element} :
    ShowAll ds es ↔ List.Forall₂ Shows ds es := by
  induction ds generalizing es with
  | nil => simp [ShowAll]
  | cons d ds ih =>
    simp only [ShowAll, List.forall₂_cons_left_iff, ih]
    constructor
    · intro h
      obtain ⟨e, rest, rfl, he, hrest⟩ := h
      exact ⟨e, rest, he, hrest, rfl⟩
    · intro h
      obtain ⟨e, rest, he, hrest, rfl⟩ := h
      exact ⟨e, rest, rfl, he, hrest⟩

mutual

theorem spelled_write (declared : Scope) : (d : Draft) →
    (∀ v ∈ d.values, ∀ c ∈ v.toList, isXmlChar c = true) → Spelled declared d (d.write declared)
  | .text qualifier name value, h => by
    obtain ⟨t, hwrite, hvalue⟩ := SpelledText.exists_escape (h value List.mem_cons_self)
    rw [write, ← hwrite]
    exact .text t hvalue
  | .group _ _ content, h => .group (spelledAll_writeAll content h)

theorem spelledAll_writeAll : (ds : List Draft) →
    (∀ v ∈ allValues ds, ∀ c ∈ v.toList, isXmlChar c = true) → SpelledAll ds (writeAll ds)
  | [], _ => .nil
  | d :: ds, h => .cons (spelled_write [] d fun v hm => h v (List.mem_append_left _ hm))
      (spelledAll_writeAll ds fun v hm => h v (List.mem_append_right _ hm))

end

mutual

theorem Spelled.writes {scope declared : Scope} {d : Draft} {s : List Char}
    (h : Spelled declared d s) (hfits : d.Fits scope) : Writes scope declared d s := by
  cases h with
  | text t hvalue => exact .text hfits (hvalue ▸ t.spells)
  | group content => exact .group hfits.1 (content.writes hfits.2)

theorem SpelledAll.writes {scope : Scope} {ds : List Draft} {s : List Char}
    (h : SpelledAll ds s) (hfits : FitAll scope ds) : WritesAll scope ds s := by
  cases h with
  | nil => exact .nil
  | cons head tail => exact .cons (head.writes hfits.1) (tail.writes hfits.2)

end

mutual

/-- Only what a document may hold can be spelled in one. -/
theorem Spelled.isXmlChar {declared : Scope} {d : Draft} {s : List Char} (h : Spelled declared d s) :
    ∀ v ∈ d.values, ∀ c ∈ v.toList, isXmlChar c = true := by
  cases h with
  | text t hvalue =>
    intro v hv
    rw [List.mem_singleton.mp hv, ← hvalue]
    exact t.isXmlChar_value
  | group content => exact content.isXmlChar

theorem SpelledAll.isXmlChar {ds : List Draft} {s : List Char} (h : SpelledAll ds s) :
    ∀ v ∈ allValues ds, ∀ c ∈ v.toList, isXmlChar c = true := by
  cases h with
  | nil => nofun
  | cons head tail => exact List.forall_mem_append.mpr ⟨head.isXmlChar, tail.isXmlChar⟩

end

theorem Fits.writes {scope : Scope} (declared : Scope) {d : Draft} (h : d.Fits scope)
    (hv : ∀ v ∈ d.values, ∀ c ∈ v.toList, Xml.isXmlChar c = true) :
    Writes scope declared d (d.write declared) :=
  (spelled_write declared d hv).writes h

mutual

/-- A written draft is an element with the name of the draft, and its content is read as nodes. They
make an element that shows the draft. -/
theorem Writes.reads {scope declared : Scope} {d : Draft} {s : List Char}
    (h : Writes scope declared d s) :
    ∃ qualifier content nodes, s = writeElement ⟨qualifier, d.name.localPart⟩ declared content ∧
      scope.Names qualifier d.name ∧ Reads scope content nodes ∧ d.Shows ⟨d.name, nodes⟩ := by
  cases h with
  | text names spells =>
    obtain ⟨nodes, hreads, hnone, hvalue⟩ := spells
    exact ⟨_, _, nodes, rfl, names, hreads scope, rfl, hvalue, hnone⟩
  | group names writes =>
    obtain ⟨es, hshow, hreads⟩ := writes.reads
    refine ⟨_, _, es.map Element.toNode, rfl, names, hreads, rfl, Element.text_mk _ es, ?_⟩
    rwa [Element.children_mk]

theorem WritesAll.reads {scope : Scope} {ds : List Draft} {s : List Char}
    (h : WritesAll scope ds s) :
    ∃ es : List Element, ShowAll ds es ∧ Reads scope s (es.map Element.toNode) := by
  cases h with
  | nil => exact ⟨[], rfl, Reads.nil scope⟩
  | cons head tail =>
    obtain ⟨es, hshow, hreads⟩ := tail.reads
    obtain ⟨qualifier, content, nodes, rfl, hnames, hcontent, hshows⟩ := head.reads
    exact ⟨⟨_, nodes⟩ :: es, ⟨_, es, rfl, hshows, hshow⟩, Reads.cons hnames hcontent hreads⟩

end

/-- What writes a draft is a document whose root shows the draft. -/
theorem Writes.parse {declared : Scope} (hd : ∀ d ∈ declared, IsDeclarable d)
    (hnew : (declared.map Prod.fst).Nodup) {d : Draft} {s : List Char}
    (h : Writes declared declared d s) :
    ∃ e : Element, Document.parse (String.ofList s) = .ok ⟨e⟩ ∧ d.Shows e := by
  obtain ⟨qualifier, content, nodes, rfl, hnames, hcontent, hshows⟩ := h.reads
  exact ⟨_, parse_writeElement hnames hd hnew hcontent, hshows⟩

end Draft

end SocialPayload.Xml
