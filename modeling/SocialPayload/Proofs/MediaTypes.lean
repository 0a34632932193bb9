import SocialPayload.Proofs.JsonReading
import SocialPayload.Proofs.Replacements

namespace SocialPayload

open Xml (Element map_eq_ok)

namespace MediaType

/-- What an item makes of the text of its type. -/
theorem readValue_outcome (text : String) :
    (Config.readValue parse text = .ok none ↔ Text.isBlank text = true) ∧
    (∀ t, Config.readValue parse text = .ok (some t) ↔ IsNamedBy t text) ∧
    ∀ error, Config.readValue parse text = .error error ↔
      Text.isBlank text = false ∧ (∀ t : MediaType, ¬ t.IsNamedBy text) ∧
        error = .invalidValue .type text := by
  have hnotBlank : ∀ t, parse text = .ok t → Text.isBlank text = false := by
    intro t ht
    exact not_isBlank (parse_eq_ok.mp ht)
  simpa only [parse_eq_ok, parse_eq_error_iff] using Config.readValue_outcome hnotBlank

/-- A text that is accepted is accepted in any other case and with other white space around it. -/
theorem readValue_congr {text text' : String}
    (haccepted : Text.isBlank text = true ∨ ∃ t, IsNamedBy t text)
    (h : normalText text' = normalText text) :
    Config.readValue parse text' = Config.readValue parse text := by
  have hblank : Text.isBlank text' = Text.isBlank text := by
    rw [Bool.eq_iff_iff, isBlank_iff_normalText, isBlank_iff_normalText, h]
  apply Config.readValue_congr hblank
  intro hsome
  obtain ⟨t, ht⟩ := haccepted.resolve_left (by simp [hsome])
  have ht' : t.IsNamedBy text' := by
    rw [isNamedBy_iff] at ht ⊢
    rw [h, ht]
  rw [parse_eq_ok.mpr ht', parse_eq_ok.mpr ht]

end MediaType

variable {config : Config}

namespace MediaItem

theorem map_mediaType (e : Element) :
    (ofElement config e).map mediaType = (config.value? "type" e).mapM MediaType.parse := by
  rw [ofElement]
  cases (config.value? "type" e).mapM MediaType.parse <;> rfl

theorem map_mediaType_of_first {item child : Element} (h : config.FirstChild "type" item child) :
    (ofElement config item).map mediaType = Config.readValue MediaType.parse child.text := by
  rw [map_mediaType, Config.mapM_value?_of_first h]

theorem ofElement_outcome {item child : Element} (h : config.FirstChild "type" item child) :
    ((∃ r, ofElement config item = .ok r ∧ r.mediaType = none) ↔
      Text.isBlank child.text = true) ∧
    (∀ t, (∃ r, ofElement config item = .ok r ∧ r.mediaType = some t) ↔
      t.IsNamedBy child.text) ∧
    ∀ error, ofElement config item = .error error ↔
      Text.isBlank child.text = false ∧ (∀ t : MediaType, ¬ t.IsNamedBy child.text) ∧
        error = .invalidValue .type child.text := by
  have houtcome := MediaType.readValue_outcome child.text
  simp only [← map_mediaType_of_first h, map_eq_ok, map_eq_error] at houtcome
  exact houtcome

theorem ofElement_around {envelope : Envelope} {child child' : Element}
    (hname : child'.name = child.name) (hnamed : config.isNamed .openSocial "type" child = true)
    (hread : Config.readValue MediaType.parse child'.text =
      Config.readValue MediaType.parse child.text) :
    ofElement config (envelope.around child') = ofElement config (envelope.around child) := by
  have htype : (config.value? "type" (envelope.around child')).mapM MediaType.parse =
      (config.value? "type" (envelope.around child)).mapM MediaType.parse :=
    Config.mapM_value?_around envelope hname fun _ => hread
  simp (disch := decide) only [ofElement, htype, Config.text?_part hnamed hname]

theorem getText?_toJson (item : MediaItem) :
    item.toJson.getText? "type" = item.mediaType.map MediaType.name := by
  have htype : (item.mediaType.map fun t => Json.string t.name).bind Json.string? =
      item.mediaType.map MediaType.name := by
    cases item.mediaType <;> rfl
  simpa [toJson, Json.getText?, List.lookup_append, Function.comp_def] using htype

end MediaItem

/-- The type of an item is what the text of its first child for the type names, in any case of its
letters and with any white space around it; a blank text names none, and any other text is refused
as it is written. So it is for an item that is read on its own and for each item of an activity, of
which the first with a refused text counts. What is accepted may be written in another such way and
changes nothing by it. The type as it is rendered is the text without white space and capitals, and
is read as the same type. A type that is read from a text alone follows the same rule, but must not
be blank. -/
theorem Record.ofRoot_mediaType (config : Config) :
    (∀ item child, config.FirstChild "type" item child →
      ((∃ r, MediaItem.ofElement config item = .ok r ∧ r.mediaType = none) ↔
        Text.isBlank child.text = true) ∧
      (∀ t, (∃ r, MediaItem.ofElement config item = .ok r ∧ r.mediaType = some t) ↔
        t.IsNamedBy child.text) ∧
      (∀ error, MediaItem.ofElement config item = .error error ↔
        Text.isBlank child.text = false ∧ (∀ t : MediaType, ¬ t.IsNamedBy child.text) ∧
          error = .invalidValue .type child.text) ∧
      ∀ r t, MediaItem.ofElement config item = .ok r → r.mediaType = some t →
        r.toJson.getText? "type" = some (MediaType.normalText child.text) ∧
        MediaType.parse (MediaType.normalText child.text) = .ok t) ∧
    (∀ root item, config.FirstEntity EntityKind.mediaItems.names root item →
      Record.ofRoot .mediaItems config root =
        (MediaItem.ofElement config item).map Record.mediaItem) ∧
    (∀ root activity list, config.FirstEntity EntityKind.activities.names root activity →
      config.FirstChild "mediaItems" activity list →
      (∀ a, Record.ofRoot .activities config root = .ok (.activity a) →
        (Activity.itemElements config list).map (MediaItem.ofElement config) =
          a.mediaItems.map .ok) ∧
      ∀ error, Record.ofRoot .activities config root = .error error ↔
        ∃ item, IsFirst (fun e => ∃ error, MediaItem.ofElement config e = .error error)
          (Activity.itemElements config list) item ∧
          MediaItem.ofElement config item = .error error) ∧
    (∀ child child' : Element, child'.name = child.name →
      config.isNamed .openSocial "type" child = true →
      (Text.isBlank child.text = true ∨ ∃ t : MediaType, t.IsNamedBy child.text) →
      MediaType.normalText child'.text = MediaType.normalText child.text →
      (∀ envelope : Envelope,
        config.isEntity EntityKind.mediaItems.names (envelope.around child) = true →
        ReadsAlike config .mediaItems (envelope.around child) (envelope.around child')) ∧
      ∀ outer list envelope : Envelope,
        config.isEntity EntityKind.activities.names
          (outer.around (list.around (envelope.around child))) = true →
        config.isNamed .openSocial "mediaItems" (list.around (envelope.around child)) = true →
        ReadsAlike config .activities (outer.around (list.around (envelope.around child)))
          (outer.around (list.around (envelope.around child')))) ∧
    (∀ text, (∀ t, MediaType.parse text = .ok t ↔ t.IsNamedBy text) ∧
      (∀ error, MediaType.parse text = .error error ↔
        (∀ t : MediaType, ¬ t.IsNamedBy text) ∧ error = .invalidValue .type text) ∧
      (Text.isBlank text = true → MediaType.parse text = .error (.invalidValue .type text))) ∧
    ∀ text core, Text.IsTrimmed text core → (∃ c ∈ core, 128 ≤ c.toNat) →
      ∀ t : MediaType, ¬ t.IsNamedBy text := by
  refine ⟨?_, ?_, ?_, ?_, ?_, ?_⟩
  · intro item child h
    obtain ⟨hnone, hsome, herror⟩ := MediaItem.ofElement_outcome h
    refine ⟨hnone, hsome, herror, ?_⟩
    intro r t hr ht
    have hnamed := (hsome t).mp ⟨r, hr, ht⟩
    refine ⟨?_, MediaType.parse_normalText hnamed⟩
    rw [MediaItem.getText?_toJson, ht, MediaType.isNamedBy_iff.mp hnamed, Option.map_some]
  · intro root item h
    rw [Record.ofRoot, MediaItem.ofRoot_eq, Config.readEntity_first h]
  · intro root activity list h hlist
    have hitems : Activity.itemsOf config activity =
        (Activity.itemElements config list).mapM (MediaItem.ofElement config) := by
      rw [Activity.itemsOf, Config.child?_eq_some.mpr hlist, Activity.itemElements]
    constructor
    · intro a ha
      obtain ⟨a', ha', heq⟩ := map_eq_ok.mp ha
      cases heq
      have hok := (Activity.exists_ofRoot_eq_ok h).mp ⟨a, ha', rfl⟩
      exact mapM_eq_ok.mp (hitems ▸ hok)
    · intro error
      rw [Record.ofRoot, map_eq_error, Activity.ofRoot_eq_error_of_first h, hitems,
        IsFirst.mapM_eq_error]
  · intro child child' hname hnamed haccepted hnormal
    have hread := MediaType.readValue_congr haccepted hnormal
    refine ⟨fun envelope hentity => ?_, fun outer list envelope hentity hlist => ?_⟩
    · exact .mediaItem hentity rfl (MediaItem.ofElement_around hname hnamed hread)
    · exact .item hentity hlist rfl (MediaItem.ofElement_around hname hnamed hread)
  · intro text
    refine ⟨fun t => MediaType.parse_eq_ok, fun error => MediaType.parse_eq_error_iff, ?_⟩
    intro hblank
    refine MediaType.parse_eq_error_iff.mpr ⟨fun t h => ?_, rfl⟩
    rw [MediaType.not_isBlank h] at hblank
    cases hblank
  · rintro text core hcore ⟨c, hc, hascii⟩ t h
    have hlt := MediaType.toNat_lt_of_isNamedBy h hcore hc
    omega

theorem Record.ofRoot_mediaType_dotless :
    let type (text : String) : Element := ⟨⟨none, "type"⟩, [.text text]⟩
    let item (text : String) : Element := ⟨⟨none, "MediaItem"⟩, [(type text).toNode]⟩
    let list : Element := ⟨⟨none, "mediaItems"⟩,
      [(item " ViDeO\u2003").toNode, (item "\u3000").toNode, (item " \u0131mage").toNode]⟩
    let activity : Element := ⟨⟨none, "activity"⟩, [list.toNode]⟩
    Record.ofRoot .activities {} activity = .error (.invalidValue .type " \u0131mage") ∧
      Record.ofRoot .mediaItems {} (item "video") =
        Record.ofRoot .mediaItems {} (item " ViDeO\u2003") := by
  intro type item list activity
  have htype : ∀ text, Config.FirstChild {} "type" (item text) (type text) :=
    fun _ => Config.child?_eq_some.mp rfl
  obtain ⟨hitem, -, hlist, hreplaced, -, -⟩ := Record.ofRoot_mediaType {}
  have hvideo : MediaType.IsNamedBy .video " ViDeO\u2003" := by
    rw [MediaType.isNamedBy_iff]
    decide
  constructor
  · have hrefused : ∀ t : MediaType, ¬ t.IsNamedBy " \u0131mage" := by
      simp only [MediaType.isNamedBy_iff]
      intro t
      cases t <;> decide
    have herror : MediaItem.ofElement {} (item " \u0131mage") =
        .error (.invalidValue .type " \u0131mage") :=
      ((hitem _ _ (htype _)).2.2.1 _).mpr ⟨by decide, hrefused, rfl⟩
    apply ((hlist activity activity list (Config.entity?_eq_some.mp rfl)
      (Config.child?_eq_some.mp rfl)).2 _).mpr
    refine ⟨item " \u0131mage", ⟨[item " ViDeO\u2003", item "\u3000"], [], rfl, ⟨_, herror⟩, ?_⟩,
      herror⟩
    rintro e he ⟨error, herror⟩
    rcases List.mem_pair.mp he with rfl | rfl
    · exact (((hitem _ _ (htype _)).2.2.1 error).mp herror).2.1 .video hvideo
    · have hblank : Text.isBlank "\u3000" = false :=
        (((hitem _ _ (htype _)).2.2.1 error).mp herror).1
      exact absurd hblank (by decide)
  · have hnormal : MediaType.normalText (type "video").text =
        MediaType.normalText (type " ViDeO\u2003").text := by decide
    have halike := (hreplaced (type " ViDeO\u2003") (type "video") rfl rfl (.inr ⟨.video, hvideo⟩)
      hnormal).1 ⟨⟨none, "MediaItem"⟩, [], []⟩ rfl
    exact halike.read [] nofun

end SocialPayload
