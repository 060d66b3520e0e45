import BehaviorMachine.Digest.Sha256
import BehaviorMachine.Json.Record
import BehaviorMachine.Json.Writer
/-!
Digests of documents. A document is hashed in canonical form, so its layout and the order of its
members do not matter.
-/
namespace BehaviorMachine

structure HashDigest where
  algorithm : String
  value : String
  deriving DecidableEq

namespace HashDigest

/-- The text of a document that is hashed. -/
def canonicalText (document : Json) : String := .ofList document.canonical

def ofDocument (document : Json) : HashDigest :=
  ⟨"sha256", Sha256.hex (canonicalText document)⟩

def toJson (d : HashDigest) : Json :=
  .object [("algorithm", .string d.algorithm), ("value", .string d.value)]

def ofJson? (v : Json) : Option HashDigest := do
  let [algorithm, value] ← v.fields? ["algorithm", "value"] | none
  let algorithm ← Json.required algorithm Json.asString?
  let value ← Json.required value Json.asString?
  return ⟨algorithm, value⟩

end HashDigest

end BehaviorMachine
