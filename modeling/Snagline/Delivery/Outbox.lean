import Snagline.Authority.Schema
import Snagline.Delivery.Stream
import Snagline.Ssp.Wire

/-!
# From outbox rows to messages (delivery/outbox/worker.go:46-60, 177-249; deliverystream/stream.go:96-228)

A claimed outbox row comes with its lease token and with the route that the
claim joined from the other tables. The worker checks that the two agree and
turns the row into a publish request, and the request determines subject,
payload and headers of the JetStream message.
-/

namespace Snagline.Delivery
open Kit Ssp Authority

/-! ### Messages of the delivery stream -/

inductive Destination where
  | domain | edge
  deriving DecidableEq

def Destination.text : Destination → Bytes
  | .domain => Kit.text "domain"
  | .edge => Kit.text "edge"

structure PublishRequest where
  outboxID : Bytes
  destination : Destination
  tenantID : Bytes
  domainID : Bytes := []
  edgeID : Bytes := []
  edgeGeneration : ℕ := 0
  rawSSP : Bytes
  factSequence : ℕ
  deliverySequence : ℕ := 0
  deriving DecidableEq

inductive RequestError where
  | tenantRequired
  | domainRequired
  | edgeRequired
  | outboxRequired
  | factSequence
  | deliverySequence
  | domainSequence
  | rawSize
  deriving DecidableEq

variable (sha256 : Bytes → Bytes)

def destinationSubject (destination : Destination) (tenantID domainID edgeID : Bytes)
    (edgeGeneration : ℕ) : Except RequestError Bytes := do
  ensure (tenantID != []) .tenantRequired
  let subject (token : Bytes) : Bytes := List.intercalate [46]
    [subjectRoot, routingToken sha256 tenantID, destination.text, token]
  match destination with
  | .domain => do
    ensure (domainID != []) .domainRequired
    pure (subject (routingToken sha256 domainID))
  | .edge => do
    ensure (edgeID != [] && edgeGeneration != 0) .edgeRequired
    pure (subject (edgeToken sha256 edgeID edgeGeneration))

variable (r : PublishRequest)

def PublishRequest.subject : Except RequestError Bytes :=
  destinationSubject sha256 r.destination r.tenantID r.domainID r.edgeID r.edgeGeneration

def validatePublishRequest : Except RequestError Unit := do
  ensure (r.outboxID != []) .outboxRequired
  ensure (r.factSequence != 0) .factSequence
  match r.destination with
  | .edge => ensure (r.deliverySequence != 0) .deliverySequence
  | .domain => ensure (r.deliverySequence == 0) .domainSequence
  ensure (!r.rawSSP.isEmpty && r.rawSSP.length ≤ maxEnvelopeBytes) .rawSize
  let _ ← r.subject sha256
  pure ()

def subjectFor : Except RequestError Bytes := do
  validatePublishRequest sha256 r
  r.subject sha256

def messageID (outboxID : Bytes) : Bytes :=
  text "outbox:" ++ routingToken sha256 outboxID

structure Message where
  subject : Bytes
  data : Bytes
  headers : List (Bytes × Bytes)
  deriving DecidableEq

/-- What `Publish` hands to the broker, with the two headers that its options
become. -/
def publish : Except RequestError Message := do
  let subject ← subjectFor sha256 r
  let edge := match r.destination with
    | .domain => []
    | .edge => [(headerDeliverySequence, decimalNat r.deliverySequence),
        (headerEdgeGeneration, decimalNat r.edgeGeneration)]
  pure ⟨subject, r.rawSSP,
    [(headerOutboxID, r.outboxID), (headerFactSequence, decimalNat r.factSequence)] ++ edge ++
      [(text "Nats-Msg-Id", messageID sha256 r.outboxID), (text "Nats-Expected-Stream", streamName)]⟩

/-! ### Claimed items -/

structure Item where
  id : Bytes
  leaseToken : Bytes
  tenantID : Bytes
  eventKind : EntityKind
  entityID : Bytes
  destinationKind : DestinationKind
  destinationKey : Bytes
  raw : Bytes
  authorityRevision : ℤ
  domainID : Bytes
  edgeID : Bytes
  edgeGeneration : ℤ
  deliverySequence : ℤ
  deriving DecidableEq

inductive ItemError where
  | idRequired
  | tokenRequired
  | tenantRequired
  | entityRequired
  | keyRequired
  | rawRequired
  | revision
  | eventKind
  | domainNeedsCase
  | domainRoute
  | domainWithEdge
  | edgeTuple
  | edgeKey
  | edgeWithDomain
  | request (cause : RequestError)
  deriving DecidableEq

def validateCommonItem (item : Item) : Except ItemError Unit := do
  ensure (item.id != []) .idRequired
  ensure (item.leaseToken != []) .tokenRequired
  ensure (item.tenantID != []) .tenantRequired
  ensure (item.entityID != []) .entityRequired
  ensure (item.destinationKey != []) .keyRequired
  ensure (!item.raw.isEmpty) .rawRequired
  ensure (0 < item.authorityRevision) .revision
  ensure (item.eventKind == .case || item.eventKind == .advice) .eventKind

def Item.request (item : Item) : Except ItemError PublishRequest :=
  match item.destinationKind with
  | .domainDispatch => do
    ensure (item.eventKind == .case) .domainNeedsCase
    ensure (item.domainID != [] && item.destinationKey == item.domainID) .domainRoute
    ensure (item.edgeID == [] && item.edgeGeneration == 0 && item.deliverySequence == 0)
      .domainWithEdge
    pure { outboxID := item.id, destination := .domain, tenantID := item.tenantID,
           domainID := item.domainID, rawSSP := item.raw,
           factSequence := item.authorityRevision.toNat }
  | .edgeDelivery => do
    ensure (item.eventKind == .case || item.eventKind == .advice) .eventKind
    ensure (item.edgeID != [] && 0 < item.edgeGeneration && 0 < item.deliverySequence) .edgeTuple
    ensure (item.destinationKey == item.edgeID ++ 64 :: decimal item.edgeGeneration) .edgeKey
    ensure (item.domainID == []) .edgeWithDomain
    pure { outboxID := item.id, destination := .edge, tenantID := item.tenantID,
           edgeID := item.edgeID, edgeGeneration := item.edgeGeneration.toNat, rawSSP := item.raw,
           factSequence := item.authorityRevision.toNat,
           deliverySequence := item.deliverySequence.toNat }

def publishRequest (item : Item) : Except ItemError PublishRequest := do
  validateCommonItem item
  let request ← item.request
  let _ ← (subjectFor sha256 request).mapError .request
  pure request

theorem publishRequest_raw {sha256 : Bytes → Bytes} {item : Item} {request : PublishRequest}
    (h : publishRequest sha256 item = .ok request) :
    request.outboxID = item.id ∧ request.rawSSP = item.raw := by
  unfold publishRequest at h
  obtain ⟨_, -, h⟩ := bind_eq_ok.mp h
  obtain ⟨r, hrequest, h⟩ := bind_eq_ok.mp h
  obtain ⟨_, -, h⟩ := bind_eq_ok.mp h
  cases h
  unfold Item.request at hrequest
  split at hrequest
  · obtain ⟨-, hrequest⟩ := ensure_bind_eq_ok.mp hrequest
    obtain ⟨-, hrequest⟩ := ensure_bind_eq_ok.mp hrequest
    obtain ⟨-, hrequest⟩ := ensure_bind_eq_ok.mp hrequest
    cases hrequest
    exact ⟨rfl, rfl⟩
  · obtain ⟨-, hrequest⟩ := ensure_bind_eq_ok.mp hrequest
    obtain ⟨-, hrequest⟩ := ensure_bind_eq_ok.mp hrequest
    obtain ⟨-, hrequest⟩ := ensure_bind_eq_ok.mp hrequest
    obtain ⟨-, hrequest⟩ := ensure_bind_eq_ok.mp hrequest
    cases hrequest
    exact ⟨rfl, rfl⟩

end Snagline.Delivery
