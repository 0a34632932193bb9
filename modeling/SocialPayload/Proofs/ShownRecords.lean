import SocialPayload.Proofs.AppDataEntries
import SocialPayload.Proofs.FieldTexts
import SocialPayload.Proofs.Layout
import SocialPayload.Proofs.Pointwise
import SocialPayload.Proofs.Searches

namespace SocialPayload

open Xml (Draft Element ExpandedName Scope)
open Number (Binary64)

def Config.admitsName (config : Config) (vocabulary : Vocabulary) (name : String)
    (n : ExpandedName) : Bool :=
  n.localPart == name && config.admits vocabulary n.namespaceUri

/-- The first of some drafts with an OpenSocial name. -/
def Config.draft? (config : Config) (name : String) (ds : List Draft) : Option Draft :=
  ds.find? fun d => config.admitsName .openSocial name d.name

/-- A configuration that takes the elements of a spelling for OpenSocial ones. -/
def Config.Accepts (config : Config) (spelling : Spelling) : Prop :=
  spelling = .unqualified → config.allowUnqualified = true

section

variable {config : Config} {spelling : Spelling}

theorem Config.Accepts.admits (h : config.Accepts spelling) :
    config.admits .openSocial (spelling.namespaceUri? config) = true := by
  cases spelling with
  | unqualified => exact h rfl
  | byDefault | qualified => simp [Spelling.namespaceUri?, Config.admits]

theorem draft?_append (name : String) (ds ds' : List Draft) :
    config.draft? name (ds ++ ds') = (config.draft? name ds).or (config.draft? name ds') :=
  List.find?_append

theorem draft?_field (h : config.Accepts spelling) (name field : String) (value : Option String) :
    config.draft? name (spelling.field config field value) =
      if field = name then value.map (spelling.text config field) else none := by
  cases value <;>
    simp [Config.draft?, Spelling.field, Spelling.text, Draft.name, Config.admitsName, h.admits,
      List.find?_cons]
  split <;> simp_all

theorem draft?_group (h : config.Accepts spelling) (name field : String) {α : Type}
    (a : Option α) (content : α → List Draft) :
    config.draft? name (a.map fun x => spelling.group config field (content x)).toList =
      if field = name then a.map fun x => spelling.group config field (content x) else none := by
  cases a <;>
    simp [Config.draft?, Spelling.group, Draft.name, Config.admitsName, h.admits, List.find?_cons]
  split <;> simp_all

theorem isNamed_shows {d : Draft} {e : Element} (h : d.Shows e) (vocabulary : Vocabulary)
    (name : String) :
    config.isNamed vocabulary name e = config.admitsName vocabulary name d.name := by
  rw [Config.isNamed, Config.admitsName, h.name_eq]

/-- Looking for a child finds the element that shows the draft of that name. -/
theorem child?_shows {ds : List Draft} {e : Element} (h : Draft.ShowAll ds e.children)
    (name : String) : Option.Rel Draft.Shows (config.draft? name ds) (config.child? name e) :=
  Pointwise.find? (Draft.showAll_iff.mp h) fun _ _ hs =>
    (isNamed_shows hs .openSocial name).symm

theorem text?_shows {ds : List Draft} {e : Element} (h : Draft.ShowAll ds e.children)
    (name : String) : config.text? name e = (config.draft? name ds).map Draft.value :=
  (Pointwise.option_map_eq (child?_shows h name) fun _ _ hs => hs.text_eq.symm).symm

/-- Where the draft of a name is a group, if there is one, the child of that name holds the group. -/
theorem child?_group (spelling : Spelling) {ds : List Draft} {e : Element}
    (h : Draft.ShowAll ds e.children)
    {name : String} {α : Type} {a : Option α} {content : α → List Draft}
    (hd : config.draft? name ds = a.map fun x => spelling.group config name (content x)) :
    Option.Rel (fun x c => Draft.ShowAll (content x) c.children) a (config.child? name e) := by
  have hchild : Option.Rel Draft.Shows (config.draft? name ds) (config.child? name e) :=
    child?_shows h name
  rw [hd] at hchild
  cases a with
  | none =>
    generalize config.child? name e = found at hchild
    cases hchild
    exact .none
  | some x =>
    generalize config.child? name e = found at hchild
    cases hchild with
    | some hshows => exact .some hshows.2.2

@[simp] theorem value_text (name value : String) : (spelling.text config name value).value = value :=
  rfl

theorem PersonName.ofElement_shows (hs : config.Accepts spelling) {name : PersonName} {e : Element}
    (h : Draft.ShowAll (name.layout config spelling) e.children) :
    PersonName.ofElement config e = name := by
  simp [PersonName.ofElement, text?_shows h, PersonName.layout, draft?_append, draft?_field hs,
    Function.comp_def]

theorem Person.ofElement_shows (hs : config.Accepts spelling) {person : Person} {e : Element}
    (h : Draft.ShowAll (person.layout config spelling) e.children) :
    Person.ofElement config e = person := by
  have hchild : Option.Rel (fun name c => Draft.ShowAll (PersonName.layout config spelling name)
      c.children) person.name (config.child? "name" e) := by
    apply child?_group spelling h
    simp [Person.layout, draft?_append, draft?_field hs, draft?_group hs]
  have hname : (config.child? "name" e).map (PersonName.ofElement config) = person.name := by
    have hmap := Pointwise.option_map_eq (f := fun name => name) hchild
      fun _ _ hc => (PersonName.ofElement_shows hs hc).symm
    simpa using hmap.symm
  simp [Person.ofElement, text?_shows h, Person.layout, draft?_append, draft?_field hs,
    draft?_group hs, hname, Function.comp_def]

theorem number?_of_text? {e : Element} {field : Field} {text : Option String}
    {number : Option Binary64} (ht : config.text? field.name e = text)
    (hn : text.map finiteNumber? = number.map some) : config.number? field e = .ok number := by
  cases text with
  | none =>
    cases number with
    | none => simp [Config.number?, Config.value?, ht]
    | some x => cases hn
  | some t =>
    cases number with
    | none => cases hn
    | some x =>
      have hx : finiteNumber? t = some x := by simpa using hn
      simp [Config.number?, Config.value?, ht, Option.filter, isBlank_of_finiteNumber? hx, hx]

theorem Location.ofElement_shows (hs : config.Accepts spelling) {texts : LocationText}
    {location : Location} (hmeans : texts.Means location) {e : Element}
    (h : Draft.ShowAll (texts.layout config spelling) e.children) :
    Location.ofElement config e = .ok location := by
  have hlatitude : config.number? .latitude e = .ok location.latitude := by
    apply number?_of_text? ?_ hmeans.1
    simp [Field.name, text?_shows h, LocationText.layout, draft?_append, draft?_field hs,
      Function.comp_def]
  have hlongitude : config.number? .longitude e = .ok location.longitude := by
    apply number?_of_text? ?_ hmeans.2
    simp [Field.name, text?_shows h, LocationText.layout, draft?_append, draft?_field hs,
      Function.comp_def]
  rw [Location.ofElement, hlatitude, hlongitude]
  rfl

theorem Album.ofElement_shows (hs : config.Accepts spelling) {album : Album}
    {texts : Option LocationText} (hmeans : Option.Rel LocationText.Means texts album.location)
    {e : Element} (h : Draft.ShowAll (album.layout config spelling texts) e.children) :
    Album.ofElement config e = .ok album := by
  have hchild : Option.Rel (fun t c => Draft.ShowAll (LocationText.layout config spelling t)
      c.children) texts (config.child? "location" e) := by
    apply child?_group spelling h
    simp [Album.layout, draft?_append, draft?_field hs, draft?_group hs]
  have hlocation : (config.child? "location" e).mapM (Location.ofElement config) =
      .ok album.location := by
    generalize config.child? "location" e = found at hchild
    generalize album.location = location at hmeans
    cases hmeans with
    | none =>
      cases hchild
      rfl
    | some hm =>
      cases hchild with
      | some hc =>
        rw [Option.mapM_some, Location.ofElement_shows hs hm hc]
        rfl
  rw [Album.ofElement, hlocation]
  simp [text?_shows h, Album.layout, draft?_append, draft?_field hs, draft?_group hs,
    Function.comp_def, bind, Except.bind, pure, Except.pure]

theorem MediaItem.ofElement_shows (hs : config.Accepts spelling) {item : MediaItem} {e : Element}
    (h : Draft.ShowAll (item.layout config spelling) e.children) :
    MediaItem.ofElement config e = .ok item := by
  have htype : config.text? "type" e = item.mediaType.map MediaType.name := by
    simp [text?_shows h, MediaItem.layout, draft?_append, draft?_field hs, Function.comp_def]
  have hparse : (config.value? "type" e).mapM MediaType.parse = .ok item.mediaType := by
    rw [Config.value?, htype]
    cases item.mediaType with
    | none => rfl
    | some t => cases t <;> rfl
  rw [MediaItem.ofElement, hparse]
  simp [text?_shows h, MediaItem.layout, draft?_append, draft?_field hs, Function.comp_def,
    bind, Except.bind, pure, Except.pure]

theorem Activity.itemsOf_shows (hs : config.Accepts spelling) {activity : Activity} {e : Element}
    (h : Draft.ShowAll (activity.layout config spelling) e.children) :
    Activity.itemsOf config e = .ok activity.mediaItems := by
  have hchild : Option.Rel (fun (items : List MediaItem) c => Draft.ShowAll
      (items.map fun item => spelling.group config "MediaItem" (item.layout config spelling))
      c.children) ((some activity.mediaItems).filter (!·.isEmpty))
      (config.child? "mediaItems" e) := by
    apply child?_group spelling h
    simp [Activity.layout, draft?_append, draft?_field hs, draft?_group hs]
  unfold itemsOf
  generalize config.child? "mediaItems" e = found at hchild
  cases hitems : activity.mediaItems with
  | nil =>
    rw [hitems] at hchild
    cases hchild
    rfl
  | cons item items =>
    rw [hitems] at hchild
    cases hchild with
    | some hc =>
      rename_i list
      have hrel := List.forall₂_map_left_iff.mp (Draft.showAll_iff.mp hc)
      have hall : list.children.filter (config.isEntity MediaItem.elementNames) = list.children := by
        apply List.filter_eq_self.mpr
        refine Pointwise.forall_right hrel fun i _ c hi => ?_
        simp [Config.isEntity, MediaItem.elementNames, isNamed_shows hi, Spelling.group, Draft.name,
          Config.admitsName, hs.admits]
      simp only [hall]
      exact Pointwise.mapM_ok hrel fun i c hi => MediaItem.ofElement_shows hs hi.2.2

theorem AppData.insertElement_shows (hs : config.Accepts spelling) {entry : String × String}
    {e : Element} (h : (AppData.layoutEntry config spelling entry).Shows e) (data : AppData) :
    data.insertElement config e = data.insert entry.1 entry.2 := by
  have hkey : config.text? "key" e = some entry.1 := by
    simp [text?_shows h.2.2, Config.draft?, Spelling.text, Draft.name, Draft.value,
      Config.admitsName, hs.admits]
  have hvalue : config.text? "value" e = some entry.2 := by
    simp [text?_shows h.2.2, Config.draft?, Spelling.text, Draft.name, Draft.value,
      Config.admitsName, hs.admits]
  simp [insertElement, hkey, hvalue]

theorem AppData.ofRoot_shows (hs : config.Accepts spelling) {entries : List (String × String)}
    {e : Element}
    (h : (spelling.group config "response"
      (entries.map (AppData.layoutEntry config spelling))).Shows e) :
    AppData.ofRoot config e =
      if entries = [] then .error (.missingElement .appData) else .ok (insertAll {} entries) := by
  have hrel := List.forall₂_map_left_iff.mp (Draft.showAll_iff.mp h.2.2)
  have hroot : config.isNamed .openSocial "entry" e = false := by
    simp [isNamed_shows h, Spelling.group, Draft.name, Config.admitsName]
  have hall : e.children.filter (config.isNamed .openSocial "entry") = e.children := by
    apply List.filter_eq_self.mpr
    refine Pointwise.forall_right hrel fun entry _ c hc => ?_
    simp [isNamed_shows hc, AppData.layoutEntry, Spelling.group, Draft.name, Config.admitsName,
      hs.admits]
  have hfold : e.children.foldl (insertElement config) {} = insertAll {} entries :=
    (Pointwise.foldl_eq hrel (fun data _ _ hc => (insertElement_shows hs hc data).symm) {}).symm
  rw [ofRoot, entryElements, hroot, if_neg (by simp), hall, ← hfold]
  generalize e.children = es at hrel
  cases hrel <;> rfl

theorem Message.layout_text {message : Message} {d : Draft}
    (h : d ∈ message.layout config spelling) :
    ∃ qualifier name value, d = .text qualifier name value := by
  simp only [layout, Spelling.field, List.mem_append, Option.mem_toList, Option.map_eq_some_iff,
    List.mem_map] at h
  rcases h with ((⟨v, -, rfl⟩ | ⟨v, -, rfl⟩) | ⟨v, -, rfl⟩) | ⟨v, -, rfl⟩ <;>
    exact ⟨_, _, _, rfl⟩

theorem Message.filter_layout (message : Message) : (message.layout config spelling).filter
    (fun d => config.admitsName .osapi "recipient" d.name) =
      message.recipients.map (layoutRecipient config) := by
  have hfield : ∀ name value, name ≠ "recipient" → (spelling.field config name value).filter
      (fun d => config.admitsName .osapi "recipient" d.name) = [] := by
    intro name value hname
    cases value <;> simp [Spelling.field, Spelling.text, Draft.name, Config.admitsName, hname]
  have hrecipients : (message.recipients.map (layoutRecipient config)).filter
      (fun d => config.admitsName .osapi "recipient" d.name) =
      message.recipients.map (layoutRecipient config) := by
    simp [List.filter_eq_self, layoutRecipient, Draft.name, Config.admitsName, Config.admits]
  simp [layout, hfield, hrecipients]

/-- The recipients are the texts of the elements of their name, none of which holds another. -/
theorem Message.recipientsOf_shows {message : Message} {e : Element}
    (h : (spelling.group config "response" (message.layout config spelling)).Shows e) :
    recipientsOf config e = message.recipients := by
  have hrel := Draft.showAll_iff.mp h.2.2
  have hroot : config.isNamed .osapi "recipient" e = false := by
    simp [isNamed_shows h, Spelling.group, Draft.name, Config.admitsName]
  have hleaf : ∀ c ∈ e.children, c.elements = [c] := by
    refine Pointwise.forall_right hrel fun d hd c hc => ?_
    obtain ⟨qualifier, name, value, rfl⟩ := layout_text hd
    rw [Element.elements_eq, hc.2.2]
    rfl
  have hleaves : e.children.flatMap Element.elements = e.children := by
    rw [List.flatMap_congr hleaf]
    simp
  have hfound := List.rel_filter (p := fun d => config.admitsName .osapi "recipient" d.name)
    (q := config.isNamed .osapi "recipient")
    (fun _ _ hs => by simp [isNamed_shows hs .osapi "recipient"]) hrel
  rw [recipientsOf, Element.elements_eq, List.filter_cons, hroot, if_neg (by simp), hleaves,
    ← Pointwise.map_eq hfound fun _ _ hs => hs.text_eq.symm, filter_layout]
  simp [layoutRecipient, Draft.value, Function.comp_def]

theorem Message.ofRoot_shows (hs : config.Accepts spelling) {message : Message} {e : Element}
    (h : (spelling.group config "response" (message.layout config spelling)).Shows e) :
    Message.ofRoot config e =
      if message = {} then .error (.missingElement .messages) else .ok message := by
  have hrecipients (name : String) (hname : name ≠ "recipient") :
      config.draft? name (message.recipients.map (layoutRecipient config)) = none := by
    simp [Config.draft?, layoutRecipient, Draft.name, Config.admitsName, Ne.symm hname]
  have hmessage : ({
      id := config.text? "id" e
      title := config.text? "title" e
      body := config.text? "body" e
      recipients := recipientsOf config e } : Message) = message := by
    simp [text?_shows h.2.2, layout, draft?_append, draft?_field hs, hrecipients,
      recipientsOf_shows h, Function.comp_def]
  simp only [ofRoot, hmessage]

theorem isEntity_shows (hs : config.Accepts spelling) {name : String} {content : List Draft}
    {e : Element} (h : (spelling.group config name content).Shows e) {names : List String}
    (hname : name ∈ names) : config.isEntity names e = true := by
  simp only [Config.isEntity, List.any_eq_true]
  refine ⟨name, hname, ?_⟩
  simp [isNamed_shows h, Spelling.group, Draft.name, Config.admitsName, hs.admits]

theorem Activity.ofRoot_shows (hs : config.Accepts spelling) {activity : Activity} {e : Element}
    (h : (spelling.group config "activity" (activity.layout config spelling)).Shows e) :
    Activity.ofRoot config e = .ok activity := by
  have hentity : config.isEntity EntityKind.activities.names e = true :=
    isEntity_shows hs h (by decide)
  have hfield (name : String) : envelopeText? config e e name =
      (config.draft? name (activity.layout config spelling)).map Draft.value := by
    rw [envelopeText?, text?_shows h.2.2]
    cases (config.draft? name (activity.layout config spelling)).map Draft.value <;> rfl
  rw [ofRoot_eq, Config.readEntity_root hentity, ofElement, itemsOf_shows hs h.2.2]
  simp [hfield, layout, draft?_append, draft?_field hs, draft?_group hs, Function.comp_def,
    Except.map]

/-- An element that shows a layout of a record holds the record. -/
theorem Record.HasLayout.ofRoot (hs : config.Accepts spelling) {record : Record} {d : Draft}
    (hlayout : record.HasLayout config spelling d) {e : Element} (h : d.Shows e) :
    Record.ofRoot record.kind config e = record.readBack := by
  cases hlayout with
  | activity a =>
    rw [kind, Record.ofRoot, Activity.ofRoot_shows hs h]
    rfl
  | appData data entries order =>
    have hempty : entries = [] ↔ data.entries = [] := by
      constructor
      · intro hentries
        rw [hentries] at order
        exact order.nil_eq.symm
      · intro hdata
        rw [hdata] at order
        exact order.eq_nil
    rw [kind, Record.ofRoot, AppData.ofRoot_shows hs h, AppData.insertAll_of_perm order, readBack]
    simp only [hempty]
    split <;> rfl
  | message m =>
    rw [kind, Record.ofRoot, Message.ofRoot_shows hs h, readBack]
    split <;> rfl
  | person p =>
    have hentity : config.isEntity EntityKind.people.names e = true :=
      isEntity_shows hs h (by decide)
    rw [kind, Record.ofRoot, Person.ofRoot_eq, Config.readEntity_root hentity,
      Person.ofElement_shows hs h.2.2]
    rfl
  | album a texts means =>
    have hentity : config.isEntity EntityKind.albums.names e = true :=
      isEntity_shows hs h (by decide)
    rw [kind, Record.ofRoot, Album.ofRoot_eq, Config.readEntity_root hentity,
      Album.ofElement_shows hs means h.2.2]
    rfl
  | mediaItem i =>
    have hentity : config.isEntity EntityKind.mediaItems.names e = true :=
      isEntity_shows hs h (by decide)
    rw [kind, Record.ofRoot, MediaItem.ofRoot_eq, Config.readEntity_root hentity,
      MediaItem.ofElement_shows hs h.2.2]
    rfl

end

end SocialPayload
