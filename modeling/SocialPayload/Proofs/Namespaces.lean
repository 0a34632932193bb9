import SocialPayload.Proofs.MappedNames

namespace SocialPayload

open Xml (Element ExpandedName)

def Xml.ExpandedName.qualify (uri : String) (n : ExpandedName) : ExpandedName :=
  { n with namespaceUri := some (n.namespaceUri.getD uri) }

theorem Xml.ExpandedName.qualify_eq_self {n : ExpandedName} (h : n.namespaceUri ≠ none)
    (uri : String) : n.qualify uri = n := by
  obtain ⟨present, localPart⟩ := n
  cases present with
  | none => exact absurd rfl h
  | some present => rfl

namespace Config

/-- The same configuration, but elements without a namespace are foreign to it. -/
def strict (config : Config) : Config :=
  { config with allowUnqualified := false }

/-- The same element, but what has no namespace in it is put into the OpenSocial one. -/
def qualify (config : Config) (e : Element) : Element :=
  e.mapNames (·.qualify config.namespaces.openSocial)

variable {config config' : Config}

theorem admits_qualify (hconfig : config'.namespaces = config.namespaces)
    (hallow : config.allowUnqualified = true) (n : ExpandedName) :
    config'.admits .openSocial (n.qualify config.namespaces.openSocial).namespaceUri =
      config.admits .openSocial n.namespaceUri := by
  obtain ⟨uri, localPart⟩ := n
  cases uri with
  | none => simp [ExpandedName.qualify, admits, hconfig, hallow]
  | some uri => simp [ExpandedName.qualify, admits, hconfig]

/-- A recipient has to have a namespace. The one that is given to elements without any must not be
that of recipients. -/
theorem admits_qualify_osapi (hconfig : config'.namespaces = config.namespaces)
    (hdiffer : config.namespaces.openSocial ≠ config.namespaces.osapi) (n : ExpandedName) :
    config'.admits .osapi (n.qualify config.namespaces.openSocial).namespaceUri =
      config.admits .osapi n.namespaceUri := by
  obtain ⟨uri, localPart⟩ := n
  cases uri with
  | none => simp [ExpandedName.qualify, admits, hconfig, hdiffer]
  | some uri => simp [ExpandedName.qualify, admits, hconfig]

theorem qualify_isView (hconfig : config'.namespaces = config.namespaces)
    (hallow : config.allowUnqualified = true) :
    IsView config config' (fun _ => true) config.qualify := by
  apply mapNames_isView
  intro name e
  rw [isNamed, Element.mapNames, admits_qualify hconfig hallow, isNamed]
  rfl

theorem qualify_showsRecipients (hconfig : config'.namespaces = config.namespaces)
    (hdiffer : config.namespaces.openSocial ≠ config.namespaces.osapi) :
    ShowsRecipients config config' (fun _ => true) config.qualify := by
  apply mapNames_showsRecipients
  intro e
  rw [isNamed, Element.mapNames, admits_qualify_osapi hconfig hdiffer, isNamed]
  rfl

theorem qualify_eq_self {root : Element} (h : ∀ e ∈ root.elements, e.name.namespaceUri ≠ none) :
    config.qualify root = root := by
  apply Element.mapNames_eq_self
  intro e he
  exact ExpandedName.qualify_eq_self (h e he) _

end Config

/-- Which elements are recipients does not depend on what is accepted as an OpenSocial element. -/
theorem Message.recipientsOf_congr {config config' : Config}
    (h : config'.namespaces.osapi = config.namespaces.osapi) (root : Element) :
    recipientsOf config' root = recipientsOf config root := by
  have hnamed : config'.isNamed .osapi "recipient" = config.isNamed .osapi "recipient" := by
    funext e
    rw [Config.isNamed, Config.isNamed]
    cases e.name.namespaceUri <;> simp [Config.admits, h]
  rw [recipientsOf, hnamed, recipientsOf]

section

variable {config : Config} (hallow : config.allowUnqualified = true)

include hallow

/-- What is read does not depend on whether elements have the OpenSocial namespace or none, nor then
on whether none would be accepted. -/
theorem Config.ofRoot_qualify_eq (config' : Config)
    (hconfig : config'.namespaces = config.namespaces) {kind : EntityKind}
    (hdiffer : kind = .messages → config.namespaces.openSocial ≠ config.namespaces.osapi)
    (root : Element) :
    Record.ofRoot kind config' (config.qualify root) = Record.ofRoot kind config root := by
  apply (qualify_isView hconfig hallow).ofRoot
  intro hkind
  exact qualify_showsRecipients hconfig (hdiffer hkind)

/-- The two namespaces may be equal here. Recipients have a namespace anyway, and are found without
mapping any names. -/
theorem Message.ofRoot_strict {root : Element}
    (hqualified : ∀ e ∈ root.elements, e.name.namespaceUri ≠ none) :
    Message.ofRoot config.strict root = Message.ofRoot config root := by
  have hroot : config.qualify root = root := Config.qualify_eq_self hqualified
  have htext : ∀ name ∈ textNames, config.strict.text? name root = config.text? name root := by
    intro name hname
    have hnamespaces : config.strict.namespaces = config.namespaces := rfl
    have htext := (Config.qualify_isView hnamespaces hallow).text? hname root
    rwa [hroot] at htext
  have hosapi : config.strict.namespaces.osapi = config.namespaces.osapi := rfl
  have hrecipients := Message.recipientsOf_congr hosapi root
  simp (disch := decide) only [Message.ofRoot, htext, hrecipients]

end

/-- Where elements without a namespace are accepted, they may as well have the OpenSocial one, and may
then be required to. For messages that namespace must not be the one of recipients. In a document
without such elements it makes no difference whether they would be accepted. -/
theorem Record.ofRoot_qualify {config : Config} (hallow : config.allowUnqualified = true) :
    (∀ (kind : EntityKind) (root : Element),
      (kind = .messages → config.namespaces.openSocial ≠ config.namespaces.osapi) →
        Record.ofRoot kind config (config.qualify root) = Record.ofRoot kind config root ∧
        Record.ofRoot kind config.strict (config.qualify root) =
          Record.ofRoot kind config root) ∧
    ∀ (kind : EntityKind) (root : Element), (∀ e ∈ root.elements, e.name.namespaceUri ≠ none) →
      Record.ofRoot kind config.strict root = Record.ofRoot kind config root := by
  constructor
  · intro kind root hdiffer
    exact ⟨Config.ofRoot_qualify_eq hallow config rfl hdiffer root,
      Config.ofRoot_qualify_eq hallow config.strict rfl hdiffer root⟩
  · intro kind root hqualified
    by_cases hkind : kind = .messages
    · subst hkind
      rw [Record.ofRoot, Record.ofRoot, Message.ofRoot_strict hallow hqualified]
    · have hdiffer : kind = .messages → config.namespaces.openSocial ≠ config.namespaces.osapi :=
        fun h => absurd h hkind
      have hofRoot := Config.ofRoot_qualify_eq hallow config.strict rfl hdiffer root
      rwa [Config.qualify_eq_self hqualified] at hofRoot

theorem Record.ofRoot_qualify_message :
    Record.ofRoot .messages (Config.strict {}) ⟨⟨some "http://ns.opensocial.org/2008/opensocial",
        "response"⟩, [
        .element ⟨some "http://ns.opensocial.org/2008/opensocial", "title"⟩ [.text "Hi"],
        .element ⟨some "http://ns.opensocial.org/2008/opensocial", "recipient"⟩ [.text "1"],
        .element ⟨some "http://opensocial.org/2008/opensocialapi", "recipient"⟩ [.text "2"]]⟩ =
      Record.ofRoot .messages {} ⟨⟨none, "response"⟩, [
        .element ⟨some "http://ns.opensocial.org/2008/opensocial", "title"⟩ [.text "Hi"],
        .element ⟨none, "recipient"⟩ [.text "1"],
        .element ⟨some "http://opensocial.org/2008/opensocialapi", "recipient"⟩ [.text "2"]]⟩ :=
  ((@Record.ofRoot_qualify {} rfl).1 .messages ⟨⟨none, "response"⟩, [
    .element ⟨some "http://ns.opensocial.org/2008/opensocial", "title"⟩ [.text "Hi"],
    .element ⟨none, "recipient"⟩ [.text "1"],
    .element ⟨some "http://opensocial.org/2008/opensocialapi", "recipient"⟩ [.text "2"]]⟩
    fun _ => by decide).2

end SocialPayload
