namespace SocialPayload

/-- The namespaces of the two vocabularies of a payload. -/
structure Namespaces where
  openSocial : String := "http://ns.opensocial.org/2008/opensocial"
  osapi : String := "http://opensocial.org/2008/opensocialapi"
deriving DecidableEq, Repr

/-- How names match. Envelopes often carry no namespace; `allowUnqualified` accepts such elements
as OpenSocial ones. -/
structure Config where
  namespaces : Namespaces := {}
  allowUnqualified : Bool := true
deriving DecidableEq, Repr

/-- The vocabularies that element names come from. -/
inductive Vocabulary where
  | openSocial
  | osapi
deriving DecidableEq, Repr

/-- Whether an element in a namespace, or in none, may come from a vocabulary. -/
def Config.admits (config : Config) : Vocabulary → Option String → Bool
  | .openSocial, some uri => uri == config.namespaces.openSocial
  | .openSocial, none => config.allowUnqualified
  | .osapi, some uri => uri == config.namespaces.osapi
  | .osapi, none => false

end SocialPayload
