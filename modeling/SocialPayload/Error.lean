import SocialPayload.EntityKind
import SocialPayload.Xml.Error

namespace SocialPayload

/-- The fields whose text has to mean something. -/
inductive Field where
  | latitude
  | longitude
  | type
deriving DecidableEq, Repr

def Field.name : Field → String
  | latitude => "latitude"
  | longitude => "longitude"
  | type => "type"

/-- Why a payload was not converted. -/
inductive ConversionError where
  | invalidXml (fault : Xml.SyntaxError Xml.Position)
  | missingElement (kind : EntityKind)
  /-- The text of a field, with the white space around it, that means nothing there. -/
  | invalidValue (field : Field) (value : String)
  | unknownKind (name : String)
deriving DecidableEq, Repr

/-- The wording of an error. A text that could not be used is quoted. -/
def ConversionError.message : ConversionError → String
  | invalidXml fault => s!"invalid XML: {fault.message}"
  | missingElement kind => s!"missing required element: {kind.element}"
  | invalidValue field value => s!"invalid value {Text.quote value} for {field.name}"
  | unknownKind name => s!"unknown entity kind: {name}"

/-- The kind that a name means, or the complaint that it means none. -/
def EntityKind.parse (name : String) : Except ConversionError EntityKind :=
  match parse? name with
  | some kind => .ok kind
  | none => .error (.unknownKind name)

end SocialPayload
