import SocialPayload.Number.Binary64

namespace SocialPayload

open Number (Binary64)

/-- A value of JSON. A field list gives each key once, in ascending order of the keys. -/
inductive Json where
  | null
  | number (x : Binary64)
  | string (s : String)
  | array (items : List Json)
  | object (fields : List (String × Json))

namespace Json

/-- A number as a value. There is no numeral for one that is not finite. -/
def ofNumber (x : Binary64) : Json :=
  if x.isFinite then .number x else .null

/-- A field that is left out when there is nothing to write. -/
def field (key : String) (value : Option Json) : List (String × Json) :=
  match value with
  | some v => [(key, v)]
  | none => []

/-- A field for a text that may be absent. -/
def textField (key : String) (text : Option String) : List (String × Json) :=
  field key (text.map .string)

/-- A field for a list, left out when the list is empty. -/
def listField (key : String) (items : List Json) : List (String × Json) :=
  field key (if items.isEmpty then none else some (.array items))

end Json

end SocialPayload
