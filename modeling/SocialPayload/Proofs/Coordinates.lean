import SocialPayload.Proofs.JsonShapes
import SocialPayload.Proofs.Refusals
import SocialPayload.Proofs.Replacements

namespace SocialPayload

open Xml (Element map_eq_ok bind_eq_ok pure_eq_ok)
open Number (Binary64 Decimal)

/-- The number in the text of a field. -/
def Field.parseNumber (field : Field) (text : String) : Except ConversionError Binary64 :=
  match finiteNumber? text with
  | some x => .ok x
  | none => .error (.invalidValue field text)

theorem Field.readNumber_outcome (field : Field) (text : String) :
    (Config.readValue field.parseNumber text = .ok none ↔ Text.isBlank text = true) ∧
    (∀ x, Config.readValue field.parseNumber text = .ok (some x) ↔
      finiteNumber? text = some x) ∧
    ∀ error, Config.readValue field.parseNumber text = .error error ↔
      Text.isBlank text = false ∧ ¬ WritesFinite text ∧ error = .invalidValue field text := by
  have hok : ∀ x, field.parseNumber text = .ok x ↔ finiteNumber? text = some x := by
    intro x
    rw [parseNumber]
    cases finiteNumber? text <;> simp
  have herror : ∀ error, field.parseNumber text = .error error ↔
      ¬ WritesFinite text ∧ error = .invalidValue field text := by
    intro error
    rw [← finiteNumber?_eq_none, parseNumber]
    cases finiteNumber? text <;> simp [eq_comm]
  have hnotBlank : ∀ x, field.parseNumber text = .ok x → Text.isBlank text = false := by
    intro x hx
    exact isBlank_of_finiteNumber? ((hok x).mp hx)
  simpa only [hok, herror] using Config.readValue_outcome hnotBlank

/-- A text that is accepted means the same with more white space around it. -/
theorem Field.readNumber_padded (field : Field) {text padded : String} {front back : List Char}
    (hpadded : padded.toList = front ++ text.toList ++ back)
    (hblanks : ∀ c ∈ front ++ back, Text.isBlankChar c = true)
    (haccepted : Text.isBlank text = true ∨ WritesFinite text) :
    Config.readValue field.parseNumber padded = Config.readValue field.parseNumber text := by
  have htrim := Text.trim_padded hpadded hblanks
  have hblank : Text.isBlank padded = Text.isBlank text := by
    rw [Bool.eq_iff_iff, Text.isBlank_iff, Text.isBlank_iff, htrim]
  apply Config.readValue_congr hblank
  intro hsome
  have hfinite : WritesFinite text := haccepted.resolve_left (by simp [hsome])
  obtain ⟨x, hx⟩ := exists_finiteNumber?.mpr hfinite
  have hx' : finiteNumber? padded = some x := by
    rw [← hx, finiteNumber?, finiteNumber?, htrim]
  rw [parseNumber, hx', parseNumber, hx]

variable {config : Config}

theorem Config.number?_eq (field : Field) (e : Element) :
    config.number? field e = (config.value? field.name e).mapM field.parseNumber := by
  rw [number?]
  cases config.value? field.name e with
  | none => rfl
  | some text =>
    simp only [Option.mapM_some, Field.parseNumber]
    cases finiteNumber? text <;> rfl

/-- The two numbers that a place has. -/
inductive Coordinate where
  | latitude
  | longitude

namespace Coordinate

def field : Coordinate → Field
  | latitude => .latitude
  | longitude => .longitude

/-- The number that a place has for a coordinate, if any. -/
def of : Coordinate → Location → Option Binary64
  | latitude, location => location.latitude
  | longitude, location => location.longitude

end Coordinate

theorem Location.ofElement_eq_ok {e : Element} {location : Location} :
    ofElement config e = .ok location ↔
      ∀ c : Coordinate, config.number? c.field e = .ok (c.of location) := by
  simp only [ofElement, bind_eq_ok, pure_eq_ok]
  constructor
  · rintro ⟨latitude, hlatitude, longitude, hlongitude, rfl⟩ c
    cases c with
    | latitude => exact hlatitude
    | longitude => exact hlongitude
  · intro h
    exact ⟨_, h .latitude, _, h .longitude, rfl⟩

theorem Album.location_of_ok {e place : Element} {album : Album}
    (h : ofElement config e = .ok album) (hplace : config.FirstChild "location" e place) :
    ∃ location, album.location = some location ∧
      Location.ofElement config place = .ok location := by
  simp only [ofElement, bind_eq_ok, pure_eq_ok] at h
  obtain ⟨read, hread, rfl⟩ := h
  rw [Config.child?_eq_some.mpr hplace, Option.mapM_some] at hread
  obtain ⟨location, hlocation, rfl⟩ := map_eq_ok.mp hread
  exact ⟨location, rfl, hlocation⟩

/-- The text of a coordinate of the place of the first album. -/
def Config.HasCoordinate (config : Config) (root : Element) (c : Coordinate) (text : String) :
    Prop :=
  ∃ album place child, config.FirstEntity EntityKind.albums.names root album ∧
    config.FirstChild "location" album place ∧ config.FirstChild c.field.name place child ∧
    child.text = text

/-- A number that an accepted album has for a coordinate, and the text of it. -/
def Config.Stores (config : Config) (root : Element) (c : Coordinate) (text : String)
    (x : Binary64) : Prop :=
  config.HasCoordinate root c text ∧
    ∃ album location, Record.ofRoot .albums config root = .ok (.album album) ∧
      album.location = some location ∧ c.of location = some x

section Coordinates

variable {root : Element} {c : Coordinate} {text : String} {album : Album}

theorem Config.HasCoordinate.read (h : config.HasCoordinate root c text)
    (halbum : Record.ofRoot .albums config root = .ok (.album album)) :
    ∃ location, album.location = some location ∧
      readValue c.field.parseNumber text = .ok (c.of location) := by
  obtain ⟨e, place, child, hfirst, hplace, hchild, rfl⟩ := h
  obtain ⟨album', hread, heq⟩ := map_eq_ok.mp halbum
  cases heq
  rw [Album.ofRoot_eq, Config.readEntity_first hfirst] at hread
  obtain ⟨location, hlocation, hplaced⟩ := Album.location_of_ok hread hplace
  refine ⟨location, hlocation, ?_⟩
  rw [← Config.mapM_value?_of_first hchild, ← Config.number?_eq]
  exact Location.ofElement_eq_ok.mp hplaced c

theorem spoils_iff {place : Element} : config.Spoils c.field text place ↔
    (∃ child, config.FirstChild c.field.name place child ∧ child.text = text) ∧
      Text.isBlank text = false ∧ ¬ WritesFinite text := by
  cases c <;> rfl

theorem Config.HasCoordinate.refused (h : config.HasCoordinate root c text)
    (hblank : Text.isBlank text = false) (hfinite : ¬ WritesFinite text)
    (hlatitude : c = .longitude → ∀ text', config.HasCoordinate root .latitude text' →
      Text.isBlank text' = true ∨ WritesFinite text') :
    Record.ofRoot .albums config root = .error (.invalidValue c.field text) := by
  obtain ⟨album, place, child, hfirst, hplace, hchild, htext⟩ := h
  have hspoils : config.Spoils c.field text place :=
    spoils_iff.mpr ⟨⟨child, hchild, htext⟩, hblank, hfinite⟩
  rw [Record.ofRoot_eq_error]
  cases c with
  | latitude => exact .latitude hfirst hplace hspoils
  | longitude =>
    refine .longitude hfirst hplace ?_ hspoils
    intro text' hspoils'
    obtain ⟨⟨child', hchild', htext'⟩, hblank', hfinite'⟩ := spoils_iff (c := .latitude).mp hspoils'
    have haccepted := hlatitude rfl text' ⟨album, place, child', hfirst, hplace, hchild', htext'⟩
    simp [hblank', hfinite'] at haccepted

/-- An album is accepted when all of its coordinates are. -/
theorem exists_album_iff :
    (∃ album, Record.ofRoot .albums config root = .ok (.album album)) ↔
      (∃ e, config.FirstEntity EntityKind.albums.names root e) ∧
        ∀ c text, config.HasCoordinate root c text →
          Text.isBlank text = true ∨ WritesFinite text := by
  constructor
  · rintro ⟨album, halbum⟩
    constructor
    · obtain ⟨album, hread, -⟩ := map_eq_ok.mp halbum
      rw [Album.ofRoot_eq, Config.readEntity] at hread
      cases hfind : config.entity? EntityKind.albums.names root with
      | none =>
        rw [hfind] at hread
        cases hread
      | some e => exact ⟨e, Config.entity?_eq_some.mp hfind⟩
    · intro c text htext
      obtain ⟨location, -, hread⟩ := htext.read halbum
      obtain ⟨hblank, hnumber, -⟩ := c.field.readNumber_outcome text
      cases hof : c.of location with
      | none => exact .inl (hblank.mp (hof ▸ hread))
      | some x => exact .inr (exists_finiteNumber?.mp ⟨x, (hnumber x).mp (hof ▸ hread)⟩)
  · rintro ⟨⟨e, hfirst⟩, haccepted⟩
    have hspoils : ∀ c text album place, config.FirstEntity EntityKind.albums.names root album →
        config.FirstChild "location" album place →
        ¬ config.Spoils (Coordinate.field c) text place := by
      intro c text album place halbum hplace h
      obtain ⟨⟨child, hchild, htext⟩, hblank, hfinite⟩ := spoils_iff.mp h
      have htextAccepted :=
        haccepted c text ⟨album, place, child, halbum, hplace, hchild, htext⟩
      simp [hblank, hfinite] at htextAccepted
    cases hread : Record.ofRoot .albums config root with
    | ok record =>
      obtain ⟨album, -, rfl⟩ := map_eq_ok.mp hread
      exact ⟨album, rfl⟩
    | error error =>
      cases Record.ofRoot_eq_error.mp hread with
      | noEntity searched none =>
        have hentity := Config.isEntity_of_entity? (Config.entity?_eq_some.mpr hfirst)
        exact absurd hentity (none e hfirst.mem)
      | latitude first place spoils => exact absurd spoils (hspoils .latitude _ _ _ first place)
      | longitude first place _ spoils =>
        exact absurd spoils (hspoils .longitude _ _ _ first place)

theorem Location.ofElement_padded {envelope : Envelope} {child child' : Element}
    {front back : List Char} (hname : child'.name = child.name)
    (hpadded : child'.text.toList = front ++ child.text.toList ++ back)
    (hblanks : ∀ c ∈ front ++ back, Text.isBlankChar c = true)
    (haccepted : Text.isBlank child.text = true ∨ WritesFinite child.text) :
    ofElement config (envelope.around child') = ofElement config (envelope.around child) := by
  have hnumber : ∀ field : Field, config.number? field (envelope.around child') =
      config.number? field (envelope.around child) := by
    intro field
    rw [Config.number?_eq, Config.number?_eq]
    exact Config.mapM_value?_around envelope hname fun _ =>
      field.readNumber_padded hpadded hblanks haccepted
  simp only [ofElement, hnumber]

theorem Config.HasCoordinate.exists_stores (h : config.HasCoordinate root c text)
    (halbum : Record.ofRoot .albums config root = .ok (.album album))
    (hfinite : WritesFinite text) : ∃ x, config.Stores root c text x := by
  obtain ⟨location, hlocation, hread⟩ := h.read halbum
  obtain ⟨x, hx⟩ := exists_finiteNumber?.mpr hfinite
  rw [((c.field.readNumber_outcome text).2.1 x).mpr hx] at hread
  exact ⟨x, h, album, location, halbum, hlocation, (Except.ok.inj hread).symm⟩

theorem Config.Stores.exists_isRounded {x : Binary64} (h : config.Stores root c text x) :
    ∃ negative q, WritesNumber text negative q ∧ x.IsRounded negative q := by
  obtain ⟨htext, album, location, halbum, hlocation, hx⟩ := h
  obtain ⟨location', hlocation', hread⟩ := htext.read halbum
  cases hlocation.symm.trans hlocation'
  rw [hx] at hread
  exact finiteNumber?_eq_some.mp (((c.field.readNumber_outcome text).2.1 x).mp hread)

theorem Config.Stores.isRounded {x : Binary64} {negative : Bool} {q : ℚ}
    (h : config.Stores root c text x) (hwrites : WritesNumber text negative q) :
    x.IsRounded negative q := by
  obtain ⟨negative', q', hwrites', hrounded⟩ := h.exists_isRounded
  obtain ⟨rfl, rfl⟩ := hwrites.unique hwrites'
  exact hrounded

end Coordinates

/-- The text of a coordinate is no number if it is blank, and otherwise is accepted if it is a
numeral, white space around it left out, of a number that does not overflow. An album with accepted
coordinates is accepted, and no number in it is infinite. Any other text is refused as it is
written; of two refused texts that of the latitude counts. More white space around a text that is
accepted makes no difference. -/
theorem Record.ofRoot_coordinates (config : Config) :
    (∀ root c text, config.HasCoordinate root c text → ∀ album,
      Record.ofRoot .albums config root = .ok (.album album) →
      ∃ location, album.location = some location ∧
        (c.of location = none ↔ Text.isBlank text = true) ∧
        ((∃ x, c.of location = some x) ↔ WritesFinite text)) ∧
    (∀ root, (∃ album, Record.ofRoot .albums config root = .ok (.album album)) ↔
      (∃ e, config.FirstEntity EntityKind.albums.names root e) ∧
        ∀ c text, config.HasCoordinate root c text →
          Text.isBlank text = true ∨ WritesFinite text) ∧
    (∀ root c text, config.HasCoordinate root c text →
      Text.isBlank text = false → ¬ WritesFinite text →
      (c = .longitude → ∀ text', config.HasCoordinate root .latitude text' →
        Text.isBlank text' = true ∨ WritesFinite text') →
      Record.ofRoot .albums config root = .error (.invalidValue c.field text)) ∧
    (∀ root album location c x, Record.ofRoot .albums config root = .ok (.album album) →
      album.location = some location → Coordinate.of c location = some x → x.isFinite = true) ∧
    (∀ (outer inner : Envelope) (child child' : Element) (front back : List Char),
      config.isEntity EntityKind.albums.names (outer.around (inner.around child)) = true →
      config.isNamed .openSocial "location" (inner.around child) = true →
      child'.name = child.name → child'.text.toList = front ++ child.text.toList ++ back →
      (∀ c ∈ front ++ back, Text.isBlankChar c = true) →
      (Text.isBlank child.text = true ∨ WritesFinite child.text) →
      ReadsAlike config .albums (outer.around (inner.around child))
        (outer.around (inner.around child'))) ∧
    ∀ text core, Text.IsTrimmed text core → WritesFinite text →
      (∀ c ∈ core, c.isDigit = true ∨ c ∈ ['+', '-', '.', 'e', 'E']) ∧
        ∃ c ∈ core, c.isDigit = true := by
  refine ⟨?_, fun root => exists_album_iff, ?_, ?_, ?_, ?_⟩
  · intro root c text htext album halbum
    obtain ⟨location, hlocation, hread⟩ := htext.read halbum
    obtain ⟨hblank, hnumber, -⟩ := c.field.readNumber_outcome text
    rw [hread] at hblank hnumber
    refine ⟨location, hlocation, ?_, ?_⟩
    · rw [← hblank, Except.ok.injEq]
    · simp only [← exists_finiteNumber?, ← hnumber, Except.ok.injEq]
  · intro root c text htext hblank hfinite hlatitude
    exact htext.refused hblank hfinite hlatitude
  · intro root album location c x halbum hlocation hx
    have hfinite := (Record.ofRoot_fits halbum).1 location hlocation
    cases c with
    | latitude => exact hfinite.1 x hx
    | longitude => exact hfinite.2 x hx
  · intro outer inner child child' front back hentity hplace hname hpadded hblanks haccepted
    exact .location hentity hplace rfl
      (Location.ofElement_padded hname hpadded hblanks haccepted)
  · rintro text core hcore ⟨negative, q, ⟨core', hcore', hnumeral⟩, -⟩
    obtain rfl : core' = core := hcore'.trim_eq.symm.trans hcore.trim_eq
    exact hnumeral.chars

theorem Record.ofRoot_coordinates_infinity :
    let latitude (text : String) : Element := ⟨⟨none, "latitude"⟩, [.text text]⟩
    let place (text : String) : Element := ⟨⟨none, "location"⟩, [(latitude text).toNode]⟩
    let album (text : String) : Element := ⟨⟨none, "album"⟩, [(place text).toNode]⟩
    Record.ofRoot .albums {} (album " -Infinity") =
        .error (.invalidValue .latitude " -Infinity") ∧
      Record.ofRoot .albums {} (album "\u3000-.5e+1\u2003") =
        Record.ofRoot .albums {} (album "-.5e+1") := by
  intro latitude place album
  obtain ⟨-, -, hrefused, -, hpadded, -⟩ := Record.ofRoot_coordinates {}
  constructor
  · have hlatitude : Config.HasCoordinate {} (album " -Infinity") .latitude " -Infinity" :=
      ⟨_, _, _, Config.entity?_eq_some.mp rfl, Config.child?_eq_some.mp rfl,
        Config.child?_eq_some.mp rfl, rfl⟩
    have hfinite : ¬ WritesFinite " -Infinity" := by
      rw [← finiteNumber?_eq_none]
      decide
    exact hrefused _ _ _ hlatitude (by decide) hfinite nofun
  · have hfinite : WritesFinite "-.5e+1" := by
      rw [← exists_finiteNumber?, ← Option.isSome_iff_exists]
      decide +kernel
    have halike := hpadded ⟨⟨none, "album"⟩, [], []⟩ ⟨⟨none, "location"⟩, [], []⟩
      (latitude "-.5e+1") (latitude "\u3000-.5e+1\u2003") ['\u3000'] ['\u2003'] rfl rfl rfl
      (by decide) (List.all_eq_true.mp rfl) (.inr hfinite)
    exact halike.read [] nofun

/-- The number that is stored for a coordinate is the floating-point number nearest to the number
that the text denotes, with the sign that the text has. So texts that denote the same number with
the same sign give the same bits, and a greater number gives no smaller one. -/
theorem Record.ofRoot_nearest :
    (∀ (config : Config) (root : Element) (c : Coordinate) (text : String) (album : Album)
      (negative : Bool) (q : ℚ), config.HasCoordinate root c text →
      Record.ofRoot .albums config root = .ok (.album album) → WritesNumber text negative q →
      ∃ x, config.Stores root c text x ∧ x.IsNearest q ∧
        (∀ y : Binary64, y.IsNearest q → y.value = x.value) ∧ x.isNegative = negative) ∧
    (∀ (config : Config) (root : Element) (c : Coordinate) (text : String) (x : Binary64),
      config.Stores root c text x → ∃ negative q, WritesNumber text negative q ∧
        x.IsNearest q ∧ x.isNegative = negative ∧
        ∀ negative' q', WritesNumber text negative' q' → negative' = negative ∧ q' = q) ∧
    ∀ (config config' : Config) (root root' : Element) (c c' : Coordinate) (text text' : String)
      (x x' : Binary64) (negative negative' : Bool) (q q' : ℚ),
      config.Stores root c text x → config'.Stores root' c' text' x' →
      WritesNumber text negative q → WritesNumber text' negative' q' →
      (negative = negative' → q = q' → x = x') ∧ (q ≤ q' → x.value ≤ x'.value) := by
  refine ⟨?_, ?_, ?_⟩
  · intro config root c text album negative q htext halbum hwrites
    have hfinite : WritesFinite text := by
      have haccepted := (exists_album_iff.mp ⟨album, halbum⟩).2 c text htext
      simpa [hwrites.not_isBlank] using haccepted
    obtain ⟨x, hx⟩ := htext.exists_stores halbum hfinite
    have hrounded := hx.isRounded hwrites
    exact ⟨x, hx, hrounded.isNearest, fun y => hrounded.value_eq_of_isNearest, hrounded.sign⟩
  · intro config root c text x hx
    obtain ⟨negative, q, hwrites, hrounded⟩ := hx.exists_isRounded
    exact ⟨negative, q, hwrites, hrounded.isNearest, hrounded.sign,
      fun negative' q' => hwrites.unique⟩
  · intro config config' root root' c c' text text' x x' negative negative' q q' hx hx' hwrites
      hwrites'
    have hrounded := hx.isRounded hwrites
    have hrounded' := hx'.isRounded hwrites'
    constructor
    · rintro rfl rfl
      exact hrounded.unique hrounded'
    · exact hrounded.mono hrounded'

/-- The number in the middle of two floating-point ones, written in two ways. -/
theorem Record.ofRoot_nearest_middle :
    let latitude (text : String) : Element := ⟨⟨none, "latitude"⟩, [.text text]⟩
    let place (text : String) : Element := ⟨⟨none, "location"⟩, [(latitude text).toNode]⟩
    let album (text : String) : Element := ⟨⟨none, "album"⟩, [(place text).toNode]⟩
    ∃ x, Config.Stores {} (album " 9007199254740993") .latitude " 9007199254740993" x ∧
      Config.Stores {} (album "+0900719925474099.30e1") .latitude "+0900719925474099.30e1" x ∧
      x.IsNearest 9007199254740993 := by
  intro latitude place album
  have htext : ∀ text, Config.HasCoordinate {} (album text) .latitude text := by
    intro text
    refine ⟨album text, place text, latitude text, Config.entity?_eq_some.mp rfl,
      Config.child?_eq_some.mp rfl, Config.child?_eq_some.mp rfl, ?_⟩
    simp [latitude, Element.text]
  have halbum : ∀ text, (Record.ofRoot .albums {} (album text)).isOk = true →
      ∃ a, Record.ofRoot .albums {} (album text) = .ok (.album a) := by
    intro text hok
    cases hread : Record.ofRoot .albums {} (album text) with
    | error error =>
      rw [hread] at hok
      cases hok
    | ok record =>
      obtain ⟨a, -, rfl⟩ := map_eq_ok.mp hread
      exact ⟨a, rfl⟩
  obtain ⟨a, ha⟩ := halbum " 9007199254740993" (by decide +kernel)
  obtain ⟨a', ha'⟩ := halbum "+0900719925474099.30e1" (by decide +kernel)
  have hwrites : WritesNumber " 9007199254740993" false 9007199254740993 :=
    writesNumber_iff.mpr ⟨⟨false, 9007199254740993, 0⟩, by decide +kernel, rfl,
      by norm_num [Decimal.value, Number.signed]⟩
  have hwrites' : WritesNumber "+0900719925474099.30e1" false 9007199254740993 :=
    writesNumber_iff.mpr ⟨⟨false, 90071992547409930, -1⟩, by decide +kernel, rfl,
      by norm_num [Decimal.value, Number.signed]⟩
  obtain ⟨hstored, -, hcompared⟩ := Record.ofRoot_nearest
  obtain ⟨x, hx, hnearest, -⟩ := hstored {} _ .latitude _ a false _ (htext _) ha hwrites
  obtain ⟨x', hx', -⟩ := hstored {} _ .latitude _ a' false _ (htext _) ha' hwrites'
  obtain rfl := (hcompared _ _ _ _ _ _ _ _ x x' _ _ _ _ hx hx' hwrites hwrites').1 rfl rfl
  exact ⟨x, hx, hx', hnearest⟩

end SocialPayload
