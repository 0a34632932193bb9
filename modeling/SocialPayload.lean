import SocialPayload.Convert
import SocialPayload.Proofs.InertContent
import SocialPayload.Proofs.JsonReading
import SocialPayload.Proofs.Locality
import SocialPayload.Proofs.Namespaces
import SocialPayload.Proofs.Refusals
import SocialPayload.Proofs.RoundTrip
import SocialPayload.Proofs.ItemLists
import SocialPayload.Proofs.RenamedNamespaces
import SocialPayload.Proofs.Vocabularies
import SocialPayload.Proofs.CleanText
import SocialPayload.Proofs.Provenance
import SocialPayload.Proofs.Truncation
import SocialPayload.Proofs.EnvelopeFields
import SocialPayload.Proofs.AppDataUnion
import SocialPayload.Proofs.Recipients
import SocialPayload.Proofs.Replacements
import SocialPayload.Proofs.Rearrangements
import SocialPayload.Proofs.TrimmedText
import SocialPayload.Proofs.MediaTypes
import SocialPayload.Proofs.Numerals
import SocialPayload.Proofs.Rounding
import SocialPayload.Proofs.Magnitudes
import SocialPayload.Proofs.Coordinates
import SocialPayload.Proofs.QuotedValues
import SocialPayload.Proofs.Doctypes
import SocialPayload.Proofs.RepeatedLists
import SocialPayload.Proofs.UndeclaredNamespaces
