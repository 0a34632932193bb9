import SocialPayload.Proofs.InertContent
import SocialPayload.Proofs.Namespaces

namespace SocialPayload

open Xml (Element ExpandedName Node)

namespace Config

/-- One foreign element gets another local name, at any depth. -/
inductive RenamesForeign (config : Config) : Element → Element → Prop
  | itself (uri : Option String) (localPart localPart' : String) (content : List Node)
      (foreign : config.isForeign ⟨⟨uri, localPart⟩, content⟩ = true) :
      RenamesForeign config ⟨⟨uri, localPart⟩, content⟩ ⟨⟨uri, localPart'⟩, content⟩
  | inside (name : ExpandedName) (before after : List Node) {e e' : Element}
      (renames : RenamesForeign config e e') :
      RenamesForeign config ⟨name, before ++ e.toNode :: after⟩ ⟨name, before ++ e'.toNode :: after⟩

/-- A name of a vocabulary, or what is the same for all foreign names in a namespace. -/
def hideForeign (config : Config) (n : ExpandedName) : ExpandedName :=
  if config.isForeign ⟨n, []⟩ then { n with localPart := "" } else n

variable {config config' : Config}

theorem isForeign_congr {e e' : Element} (h : e.name.namespaceUri = e'.name.namespaceUri) :
    config.isForeign e = config.isForeign e' := by
  rw [isForeign, h, isForeign]

theorem hideForeign_of_foreign {e : Element} (h : config.isForeign e = true) :
    config.hideForeign e.name = ⟨e.name.namespaceUri, ""⟩ := by
  have hname : config.isForeign ⟨e.name, []⟩ = true := h
  rw [hideForeign, if_pos hname]

theorem hideForeign_of_known {e : Element} (h : config.isForeign e = false) :
    config.hideForeign e.name = e.name := by
  have hname : config.isForeign ⟨e.name, []⟩ = false := h
  rw [hideForeign, hname]
  rfl

theorem isNamed_hideForeign (vocabulary : Vocabulary) (name : String) (e : Element) :
    config.isNamed vocabulary name (e.mapNames config.hideForeign) =
      config.isNamed vocabulary name e := by
  cases hforeign : config.isForeign e with
  | true =>
    have huri : (e.mapNames config.hideForeign).name.namespaceUri = e.name.namespaceUri := by
      rw [Element.mapNames, hideForeign_of_foreign hforeign]
    have hhidden := (isForeign_congr huri).trans hforeign
    rw [isNamed_foreign hforeign, isNamed_foreign hhidden]
  | false => rw [isNamed, Element.mapNames, hideForeign_of_known hforeign, isNamed]

theorem RenamesForeign.hidden_eq {e e' : Element} (h : config.RenamesForeign e e') :
    e.mapNames config.hideForeign = e'.mapNames config.hideForeign := by
  induction h with
  | itself uri localPart localPart' content foreign =>
    have foreign' : config.isForeign ⟨⟨uri, localPart'⟩, content⟩ = true := foreign
    rw [Element.mapNames, Element.mapNames, hideForeign_of_foreign foreign,
      hideForeign_of_foreign foreign']
  | inside name before after renames ih =>
    simp only [Element.mapNames, Node.mapNamesOf_eq, List.map_append, List.map_cons,
      Node.mapNames_toNode] at ih ⊢
    rw [ih]

theorem hidden_eq_of_renames {e e' : Element}
    (h : Relation.ReflTransGen config.RenamesForeign e e') :
    e.mapNames config.hideForeign = e'.mapNames config.hideForeign := by
  induction h with
  | refl => rfl
  | tail _ renames ih => exact ih.trans renames.hidden_eq

/-- Where the same elements are OpenSocial ones, a document is a view of itself. -/
theorem isView_id (huri : config'.namespaces.openSocial = config.namespaces.openSocial)
    (hallow : config'.allowUnqualified = config.allowUnqualified) :
    IsView config config' (fun _ => true) id where
  named name e := by
    rw [id, isNamed, isNamed]
    cases e.name.namespaceUri <;> simp [admits, huri, hallow]
  text _ _ _ _ := rfl
  children e := by rw [List.filter_eq_self.mpr fun _ _ => rfl, List.map_id, id]
  left _ hleft := by cases hleft

end Config

/-- The namespace of recipients matters for nothing but recipients, and for them nothing else that
is configured matters. The local names of foreign elements matter for nothing. -/
theorem Record.ofRoot_vocabularies :
    (∀ config config' : Config,
      config'.namespaces.openSocial = config.namespaces.openSocial →
      config'.allowUnqualified = config.allowUnqualified → ∀ root : Element,
        (∀ kind, kind ≠ .messages →
          Record.ofRoot kind config' root = Record.ofRoot kind config root) ∧
        ∀ m m', Message.ofRoot config root = .ok m → Message.ofRoot config' root = .ok m' →
          m'.id = m.id ∧ m'.title = m.title ∧ m'.body = m.body) ∧
    (∀ config config' : Config, config'.namespaces.osapi = config.namespaces.osapi →
      ∀ (root : Element) (m m' : Message), Message.ofRoot config root = .ok m →
        Message.ofRoot config' root = .ok m' → m'.recipients = m.recipients) ∧
    ∀ (config : Config) (root root' : Element),
      Relation.ReflTransGen config.RenamesForeign root root' → ∀ kind,
        Record.ofRoot kind config root' = Record.ofRoot kind config root := by
  refine ⟨?_, ?_, ?_⟩
  · intro config config' huri hallow root
    have hview := Config.isView_id huri hallow
    constructor
    · intro kind hkind
      exact hview.ofRoot (fun hmessages => absurd hmessages hkind) root
    · intro m m' hm hm'
      rw [Message.eq_of_ofRoot hm, Message.eq_of_ofRoot hm']
      have htext : ∀ name ∈ textNames, config'.text? name root = config.text? name root :=
        fun name hname => hview.text? hname root
      exact ⟨htext "id" (by decide), htext "title" (by decide), htext "body" (by decide)⟩
  · intro config config' hosapi root m m' hm hm'
    rw [Message.eq_of_ofRoot hm, Message.eq_of_ofRoot hm']
    exact Message.recipientsOf_congr hosapi root
  · intro config root root' hrenames kind
    have hhidden : ∀ root : Element, Record.ofRoot kind config (root.mapNames config.hideForeign) =
        Record.ofRoot kind config root := Record.ofRoot_mapNames Config.isNamed_hideForeign kind
    rw [← hhidden root, Config.hidden_eq_of_renames hrenames, hhidden]

theorem Record.ofRoot_vocabularies_message :
    let root (foreign : String) : Element := ⟨⟨none, "response"⟩, [
      .element ⟨some "urn:x", foreign⟩ [.text "?"],
      .element ⟨none, "title"⟩ [.text "Hi"],
      .element ⟨some "http://opensocial.org/2008/opensocialapi", "recipient"⟩ [.text "1"]]⟩
    let otherOsapi : Config := { namespaces := { osapi := "urn:x" } }
    let otherOpenSocial : Config :=
      { namespaces := { openSocial := "urn:x" }, allowUnqualified := false }
    (∃ m m', Message.ofRoot {} (root "note") = .ok m ∧
      Message.ofRoot otherOsapi (root "note") = .ok m' ∧
      m'.id = m.id ∧ m'.title = m.title ∧ m'.body = m.body) ∧
    (∃ m m', Message.ofRoot {} (root "note") = .ok m ∧
      Message.ofRoot otherOpenSocial (root "note") = .ok m' ∧ m'.recipients = m.recipients) ∧
    Record.ofRoot .messages {} (root "title") = Record.ofRoot .messages {} (root "note") := by
  intro root otherOsapi otherOpenSocial
  obtain ⟨hosapi, hopenSocial, hforeign⟩ := Record.ofRoot_vocabularies
  refine ⟨⟨_, _, rfl, rfl, ?_⟩, ⟨_, _, rfl, rfl, ?_⟩, ?_⟩
  · exact (hosapi {} otherOsapi rfl rfl (root "note")).2 _ _ rfl rfl
  · exact hopenSocial {} otherOpenSocial rfl (root "note") _ _ rfl rfl
  · have hnote := Config.RenamesForeign.itself (some "urn:x") "note" "title" [.text "?"]
      (by decide : Config.isForeign {} ⟨⟨some "urn:x", "note"⟩, [.text "?"]⟩ = true)
    exact hforeign {} _ _ (.single (hnote.inside ⟨none, "response"⟩ [] _)) .messages

end SocialPayload
