import SocialPayload.Proofs.EnvelopeFields

namespace SocialPayload

open Xml (Element Node)

variable {config : Config}

theorem Config.eq_of_isNamed {vocabulary vocabulary' : Vocabulary} {name name' : String}
    {e : Element} (h : config.isNamed vocabulary name e = true)
    (h' : config.isNamed vocabulary' name' e = true) : name = name' := by
  rw [isNamed, Bool.and_eq_true, beq_iff_eq] at h h'
  exact h.1.symm.trans h'.1

theorem mapM_eq_of_map_eq {α β ε : Type} {o o' : Option α} {f : α → Except ε β}
    (h : o'.map f = o.map f) : o'.mapM f = o.mapM f := by
  cases o <;> cases o' <;> simp_all

/-- A child that is no text of an element may change without changing its texts. -/
theorem Config.text?_part {envelope : Envelope} {c c' : Element} {part : String}
    (hnamed : config.isNamed .openSocial part c = true) (hname : c'.name = c.name) {name : String}
    (hother : name ≠ part) :
    config.text? name (envelope.around c') = config.text? name (envelope.around c) := by
  apply envelope.text?_around hname
  intro h
  exact absurd (eq_of_isNamed h hnamed) hother

theorem Config.mapM_value?_around {β : Type} {read : String → Except ConversionError β}
    (envelope : Envelope) {c c' : Element} {name : String} (hname : c'.name = c.name)
    (hread : config.isNamed .openSocial name c = true →
      readValue read c'.text = readValue read c.text) :
    (config.value? name (envelope.around c')).mapM read =
      (config.value? name (envelope.around c)).mapM read := by
  rw [mapM_value?, mapM_value?]
  apply congrArg (Option.getD · (Except.ok none))
  exact envelope.map_child?_around hname hread

/-- Whether an element can stand for another one as the entity of a kind. -/
structure ReadsAlike (config : Config) (kind : EntityKind) (e e' : Element) : Prop where
  name : e'.name = e.name
  read : ∀ envelopes, (∀ v ∈ envelopes, v.IsClear config kind.names) →
    Record.ofRoot kind config (Envelope.wrap envelopes e') =
      Record.ofRoot kind config (Envelope.wrap envelopes e)

namespace ReadsAlike

variable {kind : EntityKind} {e e' e'' : Element}

theorem refl (e : Element) : ReadsAlike config kind e e :=
  ⟨rfl, fun _ _ => rfl⟩

theorem symm (h : ReadsAlike config kind e e') : ReadsAlike config kind e' e :=
  ⟨h.name.symm, fun envelopes hclear => (h.read envelopes hclear).symm⟩

theorem trans (h : ReadsAlike config kind e e') (h' : ReadsAlike config kind e' e'') :
    ReadsAlike config kind e e'' :=
  ⟨h'.name.trans h.name, fun envelopes hclear =>
    (h'.read envelopes hclear).trans (h.read envelopes hclear)⟩

theorem isEntity (h : ReadsAlike config kind e e') :
    config.isEntity kind.names e' = config.isEntity kind.names e :=
  Config.isEntity_congr h.name

/-- An entity that is read from its element alone. -/
theorem of_read {α : Type} {read : Element → Except ConversionError α} {record : α → Record}
    (hkind : ∀ root, Record.ofRoot kind config root =
      (config.readEntity kind root read).map record)
    (hentity : config.isEntity kind.names e = true) (hname : e'.name = e.name)
    (hread : read e' = read e) : ReadsAlike config kind e e' where
  name := hname
  read envelopes hclear := by
    have hentity' : config.isEntity kind.names e' = true := by
      rw [Config.isEntity_congr hname, hentity]
    have hfound := Envelope.entity?_wrap hclear (Config.entity?_root hentity)
    have hfound' := Envelope.entity?_wrap hclear (Config.entity?_root hentity')
    rw [hkind, hkind, Config.readEntity_first (Config.entity?_eq_some.mp hfound),
      Config.readEntity_first (Config.entity?_eq_some.mp hfound'), hread]

theorem person (hentity : config.isEntity EntityKind.people.names e = true)
    (hname : e'.name = e.name) (hread : Person.ofElement config e' = Person.ofElement config e) :
    ReadsAlike config .people e e' :=
  of_read (fun _ => rfl) hentity hname (congrArg Except.ok hread)

theorem album (hentity : config.isEntity EntityKind.albums.names e = true)
    (hname : e'.name = e.name) (hread : Album.ofElement config e' = Album.ofElement config e) :
    ReadsAlike config .albums e e' :=
  of_read (fun _ => rfl) hentity hname hread

theorem mediaItem (hentity : config.isEntity EntityKind.mediaItems.names e = true)
    (hname : e'.name = e.name)
    (hread : MediaItem.ofElement config e' = MediaItem.ofElement config e) :
    ReadsAlike config .mediaItems e e' :=
  of_read (fun _ => rfl) hentity hname hread

/-- The texts of the root count for an activity as well. They are those of the activity if it is the
root, and otherwise none of what changes. -/
theorem activity (hentity : config.isEntity EntityKind.activities.names e = true)
    (hname : e'.name = e.name)
    (hitems : Activity.itemsOf config e' = Activity.itemsOf config e)
    (htexts : ∀ name ∈ Activity.fieldNames, config.text? name e' = config.text? name e) :
    ReadsAlike config .activities e e' where
  name := hname
  read envelopes hclear := by
    have hentity' : config.isEntity EntityKind.activities.names e' = true := by
      rw [Config.isEntity_congr hname, hentity]
    have hfound := Envelope.entity?_wrap hclear (Config.entity?_root hentity)
    have hfound' := Envelope.entity?_wrap hclear (Config.entity?_root hentity')
    have hroot : ∀ name ∈ Activity.fieldNames, config.text? name (Envelope.wrap envelopes e') =
        config.text? name (Envelope.wrap envelopes e) := by
      intro name hfield
      cases envelopes with
      | nil => exact htexts name hfield
      | cons outer inner => exact Activity.text?_wrap outer inner hentity hname hfield
    rw [Record.ofRoot, Record.ofRoot, Activity.ofRoot_congr_fields
      (Config.entity?_eq_some.mp hfound) (Config.entity?_eq_some.mp hfound') hitems]
    intro name hfield
    rw [Activity.envelopeText?, Activity.envelopeText?, htexts name hfield, hroot name hfield]

section Parts

variable {envelope : Envelope} {c c' : Element}

theorem personName (hentity : config.isEntity EntityKind.people.names (envelope.around c) = true)
    (hnamed : config.isNamed .openSocial "name" c = true) (hname : c'.name = c.name)
    (hread : PersonName.ofElement config c' = PersonName.ofElement config c) :
    ReadsAlike config .people (envelope.around c) (envelope.around c') := by
  have hentityName : (envelope.around c').name = (envelope.around c).name := rfl
  apply person hentity hentityName
  have hpart : (config.child? "name" (envelope.around c')).map (PersonName.ofElement config) =
      (config.child? "name" (envelope.around c)).map (PersonName.ofElement config) :=
    envelope.map_child?_around hname fun _ => hread
  simp (disch := decide) only [Person.ofElement, hpart, Config.text?_part hnamed hname]

theorem location (hentity : config.isEntity EntityKind.albums.names (envelope.around c) = true)
    (hnamed : config.isNamed .openSocial "location" c = true) (hname : c'.name = c.name)
    (hread : Location.ofElement config c' = Location.ofElement config c) :
    ReadsAlike config .albums (envelope.around c) (envelope.around c') := by
  have hentityName : (envelope.around c').name = (envelope.around c).name := rfl
  apply album hentity hentityName
  have hpart : (config.child? "location" (envelope.around c')).mapM (Location.ofElement config) =
      (config.child? "location" (envelope.around c)).mapM (Location.ofElement config) :=
    mapM_eq_of_map_eq (envelope.map_child?_around hname fun _ => hread)
  simp (disch := decide) only [Album.ofElement, hpart, Config.text?_part hnamed hname]

/-- An item in a list of an activity. -/
theorem item {list : Envelope}
    (hentity : config.isEntity EntityKind.activities.names (envelope.around (list.around c)) = true)
    (hnamed : config.isNamed .openSocial "mediaItems" (list.around c) = true)
    (hname : c'.name = c.name)
    (hread : MediaItem.ofElement config c' = MediaItem.ofElement config c) :
    ReadsAlike config .activities (envelope.around (list.around c))
      (envelope.around (list.around c')) := by
  have hlistName : (list.around c').name = (list.around c).name := rfl
  have hlist : (Activity.itemElements config (list.around c')).mapM (MediaItem.ofElement config) =
      (Activity.itemElements config (list.around c)).mapM (MediaItem.ofElement config) := by
    simp only [Activity.itemElements, Envelope.children_around, List.filter_append,
      List.filter_cons, Config.isEntity_congr hname]
    split <;> simp [hread]
  have hentityName :
      (envelope.around (list.around c')).name = (envelope.around (list.around c)).name := rfl
  apply activity hentity hentityName
  · rw [Activity.itemsOf_eq, Activity.itemsOf_eq]
    apply congrArg (Option.getD · (Except.ok []))
    apply envelope.map_child?_around hlistName
    intro _
    exact hlist
  · intro name hfield
    apply Config.text?_part hnamed hlistName
    rintro rfl
    exact absurd hfield (by decide)

end Parts

end ReadsAlike

end SocialPayload
