import Snagline.Authority.Deliveries
import Snagline.Control.Service
import Snagline.Kit.Marshal

/-!
# The delivery query over HTTP (controlclient/client.go, controlhttp/server.go:168-212, 359-397)

What the client sends, what the server answers it with and in which bytes, and what
the client insists on before it hands the page on. The query reaches the server as
its four values; the text of the URL is left out.
-/

namespace Snagline.Control
open Kit Ssp Authority Json

structure DeliveryResponse where
  sequence : ℤ
  kind : Bytes
  caseID : Bytes
  envelopeID : Bytes
  commitment : Bytes
  raw : Bytes
  authorityRevision : ℤ
  deriving DecidableEq

structure EdgeDeliveriesResponse where
  deliveries : List DeliveryResponse
  highWatermark : ℤ
  completeThrough : ℤ
  deriving DecidableEq

def kindText : EntityKind → Bytes
  | .case => text "case"
  | .advice => text "advice"
  | .registry => text "registry"

def deliveryResponse (d : EdgeDelivery) : DeliveryResponse :=
  ⟨d.sequence, kindText d.kind, d.caseID, d.envelopeID, d.commitment, d.raw, d.authorityRevision⟩

/-- `edgePageResponse`. -/
def edgePageResponse (page : EdgeDeliveryPage) : EdgeDeliveriesResponse :=
  ⟨page.deliveries.map deliveryResponse, page.highWatermark, page.completeThrough⟩

inductive ClientError where
  | invalidQuery
  | rejected
  | decodeResponse
  | multipleValues
  | invalidPage
  | invalidDelivery
  deriving DecidableEq

variable (r : EdgeDeliveriesResponse)

/-- `len(deliveries)` and both watermarks against the cursor. -/
def EdgeDeliveriesResponse.inBounds (after : ℤ) : Bool :=
  after ≤ r.highWatermark && after ≤ r.completeThrough && r.completeThrough ≤ r.highWatermark &&
    r.deliveries.length == r.completeThrough - after

def DeliveryResponse.expectedAt (item : DeliveryResponse) (expected : ℤ) : Bool :=
  item.sequence == expected && !item.kind.isEmpty && !item.caseID.isEmpty &&
    !item.envelopeID.isEmpty && !item.commitment.isEmpty && !item.raw.isEmpty &&
    0 < item.authorityRevision

def checkItems : ℤ → List DeliveryResponse → Except ClientError Unit
  | _, [] => .ok ()
  | expected, item :: rest => do
    ensure (item.expectedAt expected) .invalidDelivery
    checkItems (expected + 1) rest

def checkPage (after : ℤ) (r : EdgeDeliveriesResponse) : Except ClientError EdgeDeliveriesResponse := do
  ensure (r.inBounds after) .invalidPage
  checkItems (after + 1) r.deliveries
  pure r

/-! ### The query -/

structure EdgeRequest where
  edgeID : Bytes
  edgeGeneration : ℤ
  afterSequence : ℤ
  limit : ℤ
  deriving DecidableEq

/-- What a client sends for a query: the identity is the one its certificate binds. -/
def edgeRequest (workload : WorkloadIdentity) (q : EdgeDeliveryQuery) :
    Except ClientError EdgeRequest := do
  ensure (!workload.edgeID.isEmpty && q.edgeID == workload.edgeID &&
    q.edgeGeneration == workload.edgeGeneration && !q.tenantID.isEmpty) .invalidQuery
  match EdgeDeliveryQuery.validate { q with principalID := workload.principalID } with
  | .error _ => .error .invalidQuery
  | .ok _ => pure ⟨q.edgeID, q.edgeGeneration, q.afterSequence, q.limit⟩

/-! ### The response text -/

def deliveryText (d : DeliveryResponse) : Bytes :=
  objectText
    [(text "sequence", decimal d.sequence), (text "kind", quote d.kind),
      (text "case_id", quote d.caseID), (text "envelope_id", quote d.envelopeID),
      (text "commitment", quote d.commitment), (text "raw", bytesText d.raw),
      (text "authority_revision", decimal d.authorityRevision)]

def responseText : Bytes :=
  objectText
    [(text "deliveries", arrayText (r.deliveries.map deliveryText)),
      (text "high_watermark", decimal r.highWatermark),
      (text "complete_through", decimal r.completeThrough)]

/-- `writeJSON`: the encoder ends the value with a line feed. -/
def writeJSON : Bytes := responseText r ++ [10]

inductive ServerError where
  | forbidden
  | invalidEdgeQuery
  | store (e : DeliveryReadError)
  deriving DecidableEq

/-- The page `Server.reconcile` answers with. -/
def reconcilePage (tenant : Bytes) (workload : WorkloadIdentity) (r : EdgeRequest)
    (db : Database) : Except ServerError EdgeDeliveryPage := do
  ensure (0 < r.edgeGeneration && workload.edgeID == r.edgeID &&
    workload.edgeGeneration == r.edgeGeneration) .forbidden
  -- edgePage
  ensure (0 ≤ r.afterSequence && 1 ≤ r.limit && r.limit ≤ 1000) .invalidEdgeQuery
  (Authority.listEdgeDeliveries ⟨tenant, r.edgeID, workload.principalID, r.edgeGeneration,
    r.afterSequence, r.limit⟩ db).mapError .store

def reconcile (tenant : Bytes) (workload : WorkloadIdentity) (r : EdgeRequest)
    (db : Database) : Except ServerError Bytes := do
  let page ← reconcilePage tenant workload r db
  pure (writeJSON (edgePageResponse page))

/-! ### Reading the response -/

def deliveryNames : List Bytes :=
  [text "sequence", text "kind", text "case_id", text "envelope_id", text "commitment", text "raw",
    text "authority_revision"]

/-- A member that is written twice, which the encoder never does, counts as its last
occurrence. -/
def decodeDelivery (v : Json) : Option DeliveryResponse := do
  let ms ← structMembers v
  guard (knownFields deliveryNames ms)
  let sequence ← fieldInt64 ms (text "sequence")
  let kind ← fieldString ms (text "kind")
  let caseID ← fieldString ms (text "case_id")
  let envelopeID ← fieldString ms (text "envelope_id")
  let commitment ← fieldString ms (text "commitment")
  let raw ← fieldBytes ms (text "raw")
  let authorityRevision ← fieldInt64 ms (text "authority_revision")
  some ⟨sequence, kind, caseID, envelopeID, commitment, raw, authorityRevision⟩

def responseNames : List Bytes :=
  [text "deliveries", text "high_watermark", text "complete_through"]

def decodeResponse (v : Json) : Option EdgeDeliveriesResponse := do
  let ms ← structMembers v
  guard (knownFields responseNames ms)
  let items ← fieldItems ms (text "deliveries")
  let deliveries ← items.mapM fun x => decodeDelivery x.2
  let highWatermark ← fieldInt64 ms (text "high_watermark")
  let completeThrough ← fieldInt64 ms (text "complete_through")
  some ⟨deliveries, highWatermark, completeThrough⟩

/-- `1 << 20`. -/
def responseLimit : ℕ := 1048576

/-- `Client.call` on a successful reply: one value within the limit, and nothing after
it but white space. -/
def readResponse (body : Bytes) : Except ClientError EdgeDeliveriesResponse :=
  let seen := body.take responseLimit
  match parseValue (seen.length + 1) (skipSpace seen) with
  | none => .error .decodeResponse
  | some (v, rest) =>
    match decodeResponse v with
    | none => .error .decodeResponse
    | some r => if (skipSpace rest).isEmpty then .ok r else .error .multipleValues

/-- `Client.ListEdgeDeliveries`, with the server it talks to. -/
def listEdgeDeliveries (workload : WorkloadIdentity) (serve : EdgeRequest → Except ServerError Bytes)
    (q : EdgeDeliveryQuery) : Except ClientError EdgeDeliveriesResponse := do
  let request ← edgeRequest workload q
  match serve request with
  | .error _ => .error .rejected
  | .ok body => do
    let response ← readResponse body
    checkPage q.afterSequence response

end Snagline.Control
