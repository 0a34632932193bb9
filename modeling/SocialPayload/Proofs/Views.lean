import SocialPayload.Proofs.ElementTree
import SocialPayload.Proofs.Searches

namespace SocialPayload

open Xml (Element)

/-- The names of the elements whose text is read, but for recipients. -/
def textNames : List String :=
  ["id", "title", "summary", "streamId", "streamTitle", "updated", "key", "value", "body",
    "formatted", "givenName", "familyName", "displayName", "gender", "birthday", "thumbnailUrl",
    "profileUrl", "aboutMe", "mimeType", "type", "url", "albumId", "caption", "description",
    "ownerId", "latitude", "longitude"]

/-- A way to look at elements through which the OpenSocial ones remain, with their names and the
texts that are read. Other children may be left out if there is nothing to be found in them. -/
structure IsView (config config' : Config) (keeps : Element → Bool) (view : Element → Element) :
    Prop where
  named : ∀ name e, config'.isNamed .openSocial name (view e) = config.isNamed .openSocial name e
  text : ∀ name ∈ textNames, ∀ e, config.isNamed .openSocial name e = true → (view e).text = e.text
  children : ∀ e, (view e).children = (e.children.filter keeps).map view
  left : ∀ e, keeps e = false → ∀ d ∈ e.elements, ∀ name,
    config.isNamed .openSocial name d = false

/-- The same for recipients, which only messages have. -/
structure ShowsRecipients (config config' : Config) (keeps : Element → Bool)
    (view : Element → Element) : Prop where
  named : ∀ e, config'.isNamed .osapi "recipient" (view e) = config.isNamed .osapi "recipient" e
  text : ∀ e, config.isNamed .osapi "recipient" e = true → (view e).text = e.text
  left : ∀ e, keeps e = false → ∀ d ∈ e.elements, config.isNamed .osapi "recipient" d = false

namespace IsView

variable {config config' : Config} {keeps : Element → Bool} {view : Element → Element}

theorem isEntity (h : IsView config config' keeps view) (names : List String) (e : Element) :
    config'.isEntity names (view e) = config.isEntity names e := by
  simp only [Config.isEntity, h.named]

theorem isEntity_left (h : IsView config config' keeps view) (names : List String) {e : Element}
    (hkeeps : keeps e = false) : ∀ d ∈ e.elements, config.isEntity names d = false := by
  intro d hd
  simp [Config.isEntity, h.left e hkeeps d hd]

/-- What a test finds among the children, where it holds of nothing that is left out. -/
theorem filter_children (h : IsView config config' keeps view) {p p' : Element → Bool}
    (hp : ∀ e, p' (view e) = p e)
    (hleft : ∀ e, keeps e = false → ∀ d ∈ e.elements, p d = false) (e : Element) :
    (view e).children.filter p' = (e.children.filter p).map view := by
  have hkeeps : ∀ c, (p c && keeps c) = p c := by
    intro c
    cases hc : keeps c with
    | true => simp
    | false => simp [hleft c hc c c.self_mem_elements]
  rw [h.children, List.filter_map, List.filter_filter]
  simp only [Function.comp_def, hp, hkeeps]

theorem filter_elements (h : IsView config config' keeps view) {p p' : Element → Bool}
    (hp : ∀ e, p' (view e) = p e)
    (hleft : ∀ e, keeps e = false → ∀ d ∈ e.elements, p d = false) (e : Element) :
    (view e).elements.filter p' = (e.elements.filter p).map view := by
  induction e using Element.induction with
  | step e ih =>
    have hchildren : ∀ cs : List Element, (∀ c ∈ cs, c ∈ e.children) →
        (((cs.filter keeps).map view).flatMap Element.elements).filter p' =
          ((cs.flatMap Element.elements).filter p).map view := by
      intro cs hcs
      induction cs with
      | nil => rfl
      | cons c cs ihcs =>
        have hrest := ihcs fun d hd => hcs d (List.mem_cons_of_mem c hd)
        rw [List.flatMap_cons, List.filter_append, List.map_append, ← hrest, List.filter_cons]
        cases hc : keeps c with
        | true =>
          rw [← ih c (hcs c List.mem_cons_self)]
          simp
        | false =>
          have hnone : c.elements.filter p = [] := by
            simpa using hleft c hc
          simp [hnone]
    rw [Element.elements_eq, Element.elements_eq e, h.children, List.filter_cons, List.filter_cons,
      hchildren e.children fun c hc => hc, hp]
    cases p e <;> rfl

theorem child? (h : IsView config config' keeps view) (name : String) (e : Element) :
    config'.child? name (view e) = (config.child? name e).map view := by
  have hfilter := h.filter_children (h.named name)
    (fun c hc d hd => h.left c hc d hd name) e
  rw [Config.child?, Config.child?, ← List.head?_filter, ← List.head?_filter, hfilter,
    List.head?_map]

theorem text? (h : IsView config config' keeps view) {name : String} (hname : name ∈ textNames)
    (e : Element) : config'.text? name (view e) = config.text? name e := by
  rw [Config.text?, Config.text?, h.child?]
  cases hchild : config.child? name e with
  | none => rfl
  | some c =>
    have hnamed := List.find?_some hchild
    simp [h.text name hname c hnamed]

theorem value? (h : IsView config config' keeps view) {name : String} (hname : name ∈ textNames)
    (e : Element) : config'.value? name (view e) = config.value? name e := by
  rw [Config.value?, h.text? hname, Config.value?]

theorem number? (h : IsView config config' keeps view) {field : Field}
    (hname : field.name ∈ textNames) (e : Element) :
    config'.number? field (view e) = config.number? field e := by
  rw [Config.number?, h.value? hname, Config.number?]

theorem entity? (h : IsView config config' keeps view) (names : List String) (root : Element) :
    config'.entity? names (view root) = (config.entity? names root).map view := by
  have hfilter := h.filter_elements (h.isEntity names) (fun c hc => h.isEntity_left names hc) root
  rw [Config.entity?, Config.entity?, ← List.head?_filter, ← List.head?_filter, hfilter,
    List.head?_map]

theorem readEntity (h : IsView config config' keeps view) {α : Type} {kind : EntityKind}
    {read read' : Element → Except ConversionError α} (hread : ∀ e, read' (view e) = read e)
    (root : Element) : config'.readEntity kind (view root) read' =
      config.readEntity kind root read := by
  rw [Config.readEntity, h.entity?, Config.readEntity]
  cases config.entity? kind.names root with
  | none => rfl
  | some e => exact hread e

theorem mediaItem (h : IsView config config' keeps view) (e : Element) :
    MediaItem.ofElement config' (view e) = MediaItem.ofElement config e := by
  simp (disch := decide) only [MediaItem.ofElement, h.text?, h.value?]

theorem itemsOf (h : IsView config config' keeps view) (e : Element) :
    Activity.itemsOf config' (view e) = Activity.itemsOf config e := by
  rw [Activity.itemsOf, h.child?, Activity.itemsOf]
  cases config.child? "mediaItems" e with
  | none => rfl
  | some list =>
    have hfilter := h.filter_children (h.isEntity MediaItem.elementNames)
      (fun c hc => h.isEntity_left MediaItem.elementNames hc) list
    simp only [Option.map_some]
    rw [hfilter, List.mapM_map]
    simp only [Function.comp_def, h.mediaItem]

theorem activity (h : IsView config config' keeps view) (root e : Element) :
    Activity.ofElement config' (view root) (view e) = Activity.ofElement config root e := by
  simp (disch := decide) only [Activity.ofElement, Activity.envelopeText?, h.text?, h.itemsOf]

theorem person (h : IsView config config' keeps view) (e : Element) :
    Person.ofElement config' (view e) = Person.ofElement config e := by
  have hname : ∀ c, PersonName.ofElement config' (view c) = PersonName.ofElement config c := by
    intro c
    simp (disch := decide) only [PersonName.ofElement, h.text?]
  simp (disch := decide) only [Person.ofElement, h.text?, h.child?, Option.map_map,
    Function.comp_def, hname]

theorem location (h : IsView config config' keeps view) (e : Element) :
    Location.ofElement config' (view e) = Location.ofElement config e := by
  simp (disch := decide) only [Location.ofElement, h.number?]

theorem album (h : IsView config config' keeps view) (e : Element) :
    Album.ofElement config' (view e) = Album.ofElement config e := by
  have hlocation : ((config.child? "location" e).map view).mapM (Location.ofElement config') =
      (config.child? "location" e).mapM (Location.ofElement config) := by
    cases config.child? "location" e with
    | none => rfl
    | some c => simp [h.location]
  simp (disch := decide) only [Album.ofElement, h.text?, h.child?, hlocation]

theorem insertElement (h : IsView config config' keeps view) (data : AppData) (e : Element) :
    AppData.insertElement config' data (view e) = AppData.insertElement config data e := by
  simp (disch := decide) only [AppData.insertElement, h.text?]

theorem appData (h : IsView config config' keeps view) (root : Element) :
    AppData.ofRoot config' (view root) = AppData.ofRoot config root := by
  have hentries : AppData.entryElements config' (view root) =
      (AppData.entryElements config root).map view := by
    have hfilter := h.filter_children (h.named "entry")
      (fun c hc d hd => h.left c hc d hd "entry") root
    rw [AppData.entryElements, h.named, hfilter, AppData.entryElements]
    cases config.isNamed .openSocial "entry" root <;> rfl
  rw [AppData.ofRoot, hentries, AppData.ofRoot]
  cases AppData.entryElements config root with
  | nil => rfl
  | cons e es => simp only [List.map_cons, List.foldl_cons, List.foldl_map, h.insertElement]

theorem recipientsOf (h : IsView config config' keeps view)
    (hrecipients : ShowsRecipients config config' keeps view) (root : Element) :
    Message.recipientsOf config' (view root) = Message.recipientsOf config root := by
  have hfilter := h.filter_elements hrecipients.named hrecipients.left root
  rw [Message.recipientsOf, hfilter, List.map_map, Message.recipientsOf]
  apply List.map_congr_left
  intro e he
  exact hrecipients.text e (List.mem_filter.mp he).2

theorem message (h : IsView config config' keeps view)
    (hrecipients : ShowsRecipients config config' keeps view) (root : Element) :
    Message.ofRoot config' (view root) = Message.ofRoot config root := by
  simp (disch := decide) only [Message.ofRoot, h.text?, h.recipientsOf hrecipients]

/-- Whatever is read from a document is read through a view of it as well. -/
theorem ofRoot (h : IsView config config' keeps view) {kind : EntityKind}
    (hrecipients : kind = .messages → ShowsRecipients config config' keeps view) (root : Element) :
    Record.ofRoot kind config' (view root) = Record.ofRoot kind config root := by
  cases kind with
  | activities =>
    rw [Record.ofRoot, Activity.ofRoot_eq, h.readEntity (h.activity root), ← Activity.ofRoot_eq]
    rfl
  | appData => simp only [Record.ofRoot, h.appData]
  | messages => simp only [Record.ofRoot, h.message (hrecipients rfl)]
  | people =>
    have hperson : ∀ e, (.ok (Person.ofElement config' (view e)) : Except ConversionError Person) =
        .ok (Person.ofElement config e) := fun e => by rw [h.person]
    rw [Record.ofRoot, Person.ofRoot_eq, h.readEntity hperson, ← Person.ofRoot_eq]
    rfl
  | albums =>
    rw [Record.ofRoot, Album.ofRoot_eq, h.readEntity h.album, ← Album.ofRoot_eq]
    rfl
  | mediaItems =>
    rw [Record.ofRoot, MediaItem.ofRoot_eq, h.readEntity h.mediaItem, ← MediaItem.ofRoot_eq]
    rfl

end IsView

end SocialPayload
