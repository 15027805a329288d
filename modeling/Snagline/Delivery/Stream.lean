import Snagline.Kit.Bytes

/-!
# Delivery subjects (deliverystream/stream.go:20-33, 159-183)

Identifiers become subject tokens by hashing, each with its length in front, so
that a token binds exactly one identifier or one edge generation.
-/

namespace Snagline.Delivery
open Kit

def streamName : Bytes := text "SNAGLINE_SSP_DELIVERY"
def subjectRoot : Bytes := text "snagline.ssp.delivery.v1"

def headerOutboxID : Bytes := text "Snagline-Outbox-ID"
def headerFactSequence : Bytes := text "Snagline-Fact-Sequence"
def headerDeliverySequence : Bytes := text "Snagline-Delivery-Sequence"
def headerEdgeGeneration : Bytes := text "Snagline-Edge-Generation"

section
variable (sha256 : Bytes → Bytes)

def hashLengthPrefixed (values : List Bytes) : Bytes :=
  hexEncode (sha256 (values.flatMap fun value => bigEndian64 value.length ++ value))

def routingToken (identifier : Bytes) : Bytes := hashLengthPrefixed sha256 [identifier]

def edgeToken (edgeID : Bytes) (generation : ℕ) : Bytes :=
  hashLengthPrefixed sha256 [edgeID, bigEndian64 generation]

end

end Snagline.Delivery
