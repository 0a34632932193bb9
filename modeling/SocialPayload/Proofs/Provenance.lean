import Mathlib.Data.List.ReduceOption
import Mathlib.Data.Option.Basic
import SocialPayload.Proofs.CleanText
import SocialPayload.Proofs.Refusals

namespace SocialPayload

open Xml (Element bind_eq_ok map_eq_ok)

/-- Whether a string is the text of an element or of one inside it. -/
def Xml.Element.HasText (root : Element) (s : String) : Prop :=
  ∃ e ∈ root.elements, e.text = s

namespace Xml.Element.HasText

variable {root e c : Element} {s : String}

theorem of_mem_elements (he : e ∈ root.elements) (h : e.HasText s) : root.HasText s := by
  induction root using Element.induction with
  | step root ih =>
    rcases mem_elements.mp he with rfl | ⟨c, hc, he⟩
    · exact h
    · obtain ⟨d, hd, hs⟩ := ih c hc he
      exact ⟨d, mem_elements.mpr (.inr ⟨c, hc, hd⟩), hs⟩

theorem of_mem_children (hc : c ∈ e.children) (h : c.HasText s) : e.HasText s :=
  h.of_mem_elements (mem_elements.mpr (.inr ⟨c, hc, c.self_mem_elements⟩))

theorem text (e : Element) : e.HasText e.text :=
  ⟨e, e.self_mem_elements, rfl⟩

end Xml.Element.HasText

variable {config : Config} {root e : Element} {s : String}

namespace Config

theorem FirstChild.hasText {name : String} {c : Element} (hc : config.FirstChild name e c)
    (h : c.HasText s) : e.HasText s :=
  h.of_mem_children (IsFirst.mem hc)

theorem FirstEntity.hasText {names : List String} (he : config.FirstEntity names root e)
    (h : e.HasText s) : root.HasText s :=
  h.of_mem_elements (IsFirst.mem he)

theorem hasText_of_text? {name : String} (h : config.text? name e = some s) : e.HasText s := by
  obtain ⟨c, hc, rfl⟩ := text?_eq_some.mp h
  exact hc.hasText (.text c)

theorem hasText_of_fields {names : List String}
    (h : s ∈ (names.map (config.text? · e)).reduceOption) : e.HasText s := by
  obtain ⟨name, -, hname⟩ := List.mem_map.mp (List.reduceOption_mem_iff.mp h)
  exact hasText_of_text? hname

theorem Spoils.hasText {field : Field} (h : config.Spoils field s e) : e.HasText s := by
  obtain ⟨⟨c, hc, rfl⟩, -⟩ := h
  exact hc.hasText (.text c)

end Config

def MediaItem.texts (item : MediaItem) : List String :=
  [item.id, item.mimeType, item.url, item.thumbnailUrl, item.albumId].reduceOption

def Activity.texts (activity : Activity) : List String :=
  [activity.id, activity.title, activity.body, activity.streamId, activity.streamTitle,
    activity.updated].reduceOption ++ activity.mediaItems.flatMap MediaItem.texts

theorem MediaItem.hasText {item : MediaItem} (h : ofElement config e = .ok item)
    (hs : s ∈ item.texts) : e.HasText s := by
  obtain ⟨mediaType, -, hitem⟩ := bind_eq_ok.mp h
  cases hitem
  have hfields : s ∈ (["id", "mimeType", "url", "thumbnailUrl", "albumId"].map
    (config.text? · e)).reduceOption := hs
  exact Config.hasText_of_fields hfields

theorem Activity.itemsOf_hasText {items : List MediaItem} (h : itemsOf config e = .ok items)
    {item : MediaItem} (hitem : item ∈ items) (hs : s ∈ item.texts) : e.HasText s := by
  unfold itemsOf at h
  split at h
  · rename_i list hlist
    have hmem : (.ok item : Except ConversionError MediaItem) ∈ items.map .ok :=
      List.mem_map_of_mem hitem
    rw [← mapM_eq_ok.mp h] at hmem
    obtain ⟨c, hc, hread⟩ := List.mem_map.mp hmem
    have hchild := (MediaItem.hasText hread hs).of_mem_children (List.mem_filter.mp hc).1
    exact (Config.child?_eq_some.mp hlist).hasText hchild
  · cases h
    cases hitem

theorem Activity.hasText {activity : Activity} (he : e ∈ root.elements)
    (h : ofElement config root e = .ok activity) (hs : s ∈ activity.texts) : root.HasText s := by
  obtain ⟨items, hitems, rfl⟩ := map_eq_ok.mp h
  rcases List.mem_append.mp hs with hs | hs
  · have hfields : s ∈ (["id", "title", "summary", "streamId", "streamTitle", "updated"].map
      (envelopeText? config root e)).reduceOption := hs
    obtain ⟨name, -, hname⟩ := List.mem_map.mp (List.reduceOption_mem_iff.mp hfields)
    rcases (Option.orElse_eq_some _ _ s).mp hname with hname | ⟨-, hname⟩
    · exact (Config.hasText_of_text? hname).of_mem_elements he
    · exact Config.hasText_of_text? hname
  · obtain ⟨item, hitem, hs⟩ := List.mem_flatMap.mp hs
    exact (itemsOf_hasText hitems hitem hs).of_mem_elements he

def AppData.texts (data : AppData) : List String :=
  data.entries.flatMap fun (key, value) => [key, value]

def Message.texts (message : Message) : List String :=
  [message.id, message.title, message.body].reduceOption ++ message.recipients

def PersonName.texts (name : PersonName) : List String :=
  [name.formatted, name.givenName, name.familyName].reduceOption

def Person.texts (person : Person) : List String :=
  [person.id, person.displayName, person.gender, person.birthday, person.thumbnailUrl,
    person.profileUrl, person.aboutMe].reduceOption ++ person.name.toList.flatMap PersonName.texts

/-- A place has numbers only. -/
def Album.texts (album : Album) : List String :=
  [album.id, album.thumbnailUrl, album.title, album.description, album.ownerId].reduceOption

/-- Every string in a record, in the records inside it as well. -/
def Record.texts : Record → List String
  | activity a => a.texts
  | appData d => d.texts
  | message m => m.texts
  | person p => p.texts
  | album a => a.texts
  | mediaItem i => i.texts

theorem AppData.mem_texts_insert {data : AppData} {key value : String}
    (h : s ∈ (data.insert key value).texts) : s = key ∨ s = value ∨ s ∈ data.texts := by
  obtain ⟨⟨k, v⟩, hentry, hs⟩ := List.mem_flatMap.mp h
  rcases mem_insertEntry hentry with hnew | hold
  · cases hnew
    have hpair : s = key ∨ s = value := by simpa using hs
    exact hpair.imp_right .inl
  · exact .inr (.inr (List.mem_flatMap.mpr ⟨(k, v), hold, hs⟩))

theorem AppData.mem_texts_insertElement {data : AppData}
    (h : s ∈ (insertElement config data e).texts) : s = "" ∨ e.HasText s ∨ s ∈ data.texts := by
  unfold insertElement at h
  split at h
  · rename_i key hkey
    rcases mem_texts_insert h with rfl | rfl | hs
    · exact .inr (.inl (Config.hasText_of_text? hkey))
    · cases hvalue : config.text? "value" e with
      | none => exact .inl rfl
      | some value => exact .inr (.inl (Config.hasText_of_text? hvalue))
    · exact .inr (.inr hs)
  · exact .inr (.inr h)

theorem AppData.mem_texts_foldl {data : AppData} {es : List Element}
    (h : s ∈ (es.foldl (insertElement config) data).texts) :
    s = "" ∨ (∃ e ∈ es, e.HasText s) ∨ s ∈ data.texts := by
  induction es generalizing data with
  | nil => exact .inr (.inr h)
  | cons e es ih =>
    rcases ih h with hempty | ⟨d, hd, hs⟩ | hs
    · exact .inl hempty
    · exact .inr (.inl ⟨d, List.mem_cons_of_mem e hd, hs⟩)
    · rcases mem_texts_insertElement hs with hempty | hs | hs
      · exact .inl hempty
      · exact .inr (.inl ⟨e, List.mem_cons_self, hs⟩)
      · exact .inr (.inr hs)

theorem AppData.mem_elements_of_mem_entryElements (h : e ∈ entryElements config root) :
    e ∈ root.elements := by
  unfold entryElements at h
  split at h
  · rw [List.mem_singleton.mp h]
    exact root.self_mem_elements
  · exact Element.mem_elements.mpr (.inr ⟨e, (List.mem_filter.mp h).1, e.self_mem_elements⟩)

/-- The empty string is the value of an entry without one. -/
theorem AppData.hasText {data : AppData} (h : ofRoot config root = .ok data)
    (hs : s ∈ data.texts) : s = "" ∨ root.HasText s := by
  unfold ofRoot at h
  split at h
  · cases h
  · cases h
    rcases mem_texts_foldl hs with hempty | ⟨e, he, hs⟩ | hs
    · exact .inl hempty
    · exact .inr (hs.of_mem_elements (mem_elements_of_mem_entryElements he))
    · cases hs

theorem Message.hasText {message : Message} (h : ofRoot config root = .ok message)
    (hs : s ∈ message.texts) : root.HasText s := by
  rw [eq_of_ofRoot h] at hs
  rcases List.mem_append.mp hs with hs | hs
  · have hfields : s ∈ (["id", "title", "body"].map (config.text? · root)).reduceOption := hs
    exact Config.hasText_of_fields hfields
  · obtain ⟨e, he, rfl⟩ := List.mem_map.mp hs
    exact ⟨e, (List.mem_filter.mp he).1, rfl⟩

theorem PersonName.hasText (hs : s ∈ (ofElement config e).texts) : e.HasText s := by
  have hfields : s ∈ (["formatted", "givenName", "familyName"].map
    (config.text? · e)).reduceOption := hs
  exact Config.hasText_of_fields hfields

theorem Person.hasText (hs : s ∈ (ofElement config e).texts) : e.HasText s := by
  rcases List.mem_append.mp hs with hs | hs
  · have hfields : s ∈ (["id", "displayName", "gender", "birthday", "thumbnailUrl", "profileUrl",
      "aboutMe"].map (config.text? · e)).reduceOption := hs
    exact Config.hasText_of_fields hfields
  · obtain ⟨name, hname, hs⟩ := List.mem_flatMap.mp hs
    obtain ⟨c, hc, rfl⟩ := Option.map_eq_some_iff.mp (Option.mem_toList.mp hname)
    exact (Config.child?_eq_some.mp hc).hasText (PersonName.hasText hs)

theorem Album.hasText {album : Album} (h : ofElement config e = .ok album)
    (hs : s ∈ album.texts) : e.HasText s := by
  obtain ⟨location, -, halbum⟩ := bind_eq_ok.mp h
  cases halbum
  have hfields : s ∈ (["id", "thumbnailUrl", "caption", "description", "ownerId"].map
    (config.text? · e)).reduceOption := hs
  exact Config.hasText_of_fields hfields

/-- Nothing in a record is made up: each string in it is the text of an element of the document, or
the empty one. -/
theorem Record.hasText {kind : EntityKind} {record : Record}
    (h : Record.ofRoot kind config root = .ok record) (hs : s ∈ record.texts) :
    s = "" ∨ root.HasText s := by
  cases kind with
  | activities =>
    obtain ⟨activity, hread, rfl⟩ := map_eq_ok.mp h
    rw [Activity.ofRoot_eq] at hread
    obtain ⟨e, he, hread⟩ := Config.readEntity_eq_ok hread
    exact .inr (Activity.hasText he hread hs)
  | appData =>
    obtain ⟨data, hread, rfl⟩ := map_eq_ok.mp h
    exact AppData.hasText hread hs
  | messages =>
    obtain ⟨message, hread, rfl⟩ := map_eq_ok.mp h
    exact .inr (Message.hasText hread hs)
  | people =>
    obtain ⟨person, hread, rfl⟩ := map_eq_ok.mp h
    rw [Person.ofRoot_eq] at hread
    obtain ⟨e, he, hread⟩ := Config.readEntity_eq_ok hread
    cases hread
    exact .inr ((Person.hasText hs).of_mem_elements he)
  | albums =>
    obtain ⟨album, hread, rfl⟩ := map_eq_ok.mp h
    rw [Album.ofRoot_eq] at hread
    obtain ⟨e, he, hread⟩ := Config.readEntity_eq_ok hread
    exact .inr ((Album.hasText hread hs).of_mem_elements he)
  | mediaItems =>
    obtain ⟨item, hread, rfl⟩ := map_eq_ok.mp h
    rw [MediaItem.ofRoot_eq] at hread
    obtain ⟨e, he, hread⟩ := Config.readEntity_eq_ok hread
    exact .inr ((MediaItem.hasText hread hs).of_mem_elements he)

/-- A value that is refused is the text of an element, as it is there. -/
theorem Refusal.hasText {kind : EntityKind} {field : Field}
    (h : Refusal config root kind (.invalidValue field s)) : root.HasText s := by
  cases h with
  | latitude first place spoils => exact first.hasText (place.hasText spoils.hasText)
  | longitude first place latitude spoils => exact first.hasText (place.hasText spoils.hasText)
  | type first spoils => exact first.hasText spoils.hasText
  | item first items firstSpoilt spoils =>
    have hlist := spoils.hasText.of_mem_children firstSpoilt.mem
    exact first.hasText (items.hasText hlist)

/-- Whether a string has no control characters but tabs and line ends, and neither of the two code
points that no document may hold. -/
def IsXmlText (s : String) : Prop :=
  ∀ c ∈ s.toList, (c.toNat < 0x20 → c = '\t' ∨ c = '\n' ∨ c = '\r') ∧
    c.toNat ≠ 0xFFFE ∧ c.toNat ≠ 0xFFFF

theorem isXmlText_of_isClean (h : Xml.IsClean s.toList) : IsXmlText s :=
  fun c hc => Xml.isXmlChar_iff.mp (h c hc)

/-- Whatever a text is, and however characters are written in it: the strings of the record that it
gives hold only characters of documents, and so does the value for which it is refused. -/
theorem Record.ofText_isXmlText (kind : EntityKind) (config : Config) (text : String) :
    (∀ record, Record.ofText kind config text = .ok record → ∀ s ∈ record.texts, IsXmlText s) ∧
    ∀ field value, Record.ofText kind config text = .error (.invalidValue field value) →
      IsXmlText value := by
  unfold Record.ofText
  cases hparse : Xml.Document.parse text with
  | error fault => simp
  | ok document =>
    have hclean : ∀ s, document.root.HasText s → IsXmlText s := by
      intro s hs
      obtain ⟨e, he, rfl⟩ := hs
      exact isXmlText_of_isClean (Xml.Document.parse_clean hparse e he)
    constructor
    · intro record hrecord s hs
      rcases Record.hasText hrecord hs with rfl | hs
      · intro c hc
        cases hc
      · exact hclean s hs
    · intro field value herror
      exact hclean value (Record.ofRoot_eq_error.mp herror).hasText

theorem Record.ofText_isXmlText_mixed :
    Record.ofText .people {} "<person><aboutMe>a&#9;<![CDATA[<b>]]>&#xFFFD;</aboutMe></person>" =
        .ok (.person { aboutMe := some "a\t<b>\ufffd" }) ∧
      IsXmlText "a\t<b>\ufffd" ∧
      Record.ofText .mediaItems {} "<mediaItem><type> <![CDATA[film]]>&#13;</type></mediaItem>" =
        .error (.invalidValue .type " film\r") ∧
      IsXmlText " film\r" := by
  let text := "<person><aboutMe>a&#9;<![CDATA[<b>]]>&#xFFFD;</aboutMe></person>"
  let spoilt := "<mediaItem><type> <![CDATA[film]]>&#13;</type></mediaItem>"
  let person : Person := { aboutMe := some "a\t<b>\ufffd" }
  have hperson : Record.ofText .people {} text = .ok (.person person) := by decide +kernel
  have hspoilt : Record.ofText .mediaItems {} spoilt = .error (.invalidValue .type " film\r") := by
    decide +kernel
  have hmem : "a\t<b>\ufffd" ∈ (Record.person person).texts := by decide
  exact ⟨hperson, (ofText_isXmlText .people {} text).1 _ hperson _ hmem, hspoilt,
    (ofText_isXmlText .mediaItems {} spoilt).2 .type _ hspoilt⟩

end SocialPayload
