import Snagline.Authority.Deliveries
import Snagline.Edge.Journal
import Snagline.Ssp.Wire

/-!
# The journal consumer (sspedge/consumer.go, jetstream_consumer.go, authority_reconciler.go)

Handle, Reconcile and HandleNext as functions of what the surroundings do: the
message that arrives, the answers the authority gives, the verifier's result,
and how each transaction ends. A process that dies in the middle of a call is a
call whose answers run out, followed by a restart.
-/

namespace Snagline.Edge
open Kit Ssp Delivery Authority

/-! ### Carrier messages -/

structure CarrierMessage where
  /-- Stream and stream sequence; `none` for a message that JetStream did not deliver. -/
  metadata : Option (Bytes × ℕ)
  subject : Bytes
  data : Bytes
  headers : List (Bytes × Bytes)
  deriving DecidableEq

inductive MetadataError where
  | unavailable
  | invalidMetadata
  | invalidOutboxHeader
  | notExactlyOnce (name : Bytes)
  | notCanonical (name : Bytes)
  deriving DecidableEq

def headerValues (headers : List (Bytes × Bytes)) (name : Bytes) : List Bytes :=
  (headers.filter fun h => h.1 = name).map Prod.snd

def positiveHeader {α : Type} (parse : Bytes → Option α) (positive : α → Bool) (format : α → Bytes)
    (headers : List (Bytes × Bytes)) (name : Bytes) : Except MetadataError α :=
  match headerValues headers name with
  | [value] =>
    orFail ((parse value).filter fun n => positive n && format n == value) (.notCanonical name)
  | _ => .error (.notExactlyOnce name)

def positiveIntHeader : List (Bytes × Bytes) → Bytes → Except MetadataError ℤ :=
  positiveHeader parseInt64 (fun n => 0 < n) decimal

def positiveUintHeader : List (Bytes × Bytes) → Bytes → Except MetadataError ℕ :=
  positiveHeader parseUint64 (fun n => n != 0) decimalNat

def edgeDeliverySubject (sha256 : Bytes → Bytes) (id : EdgeIdentity) : Bytes :=
  subjectRoot ++ 46 :: routingToken sha256 id.tenantID ++ 46 :: text "edge" ++
    46 :: edgeToken sha256 id.edgeID id.generation.toNat

/-! ### The consumer and its surroundings -/

structure JournalConsumer where
  store : DB
  identity : EdgeIdentity
  limit : ℤ
  bounded : 0 < limit ∧ limit ≤ 1000

inductive VerificationError where
  | permanent (reason : Bytes)
  | transient
  deriving DecidableEq

/-- How a transaction ends: rolled back, committed, or committed with the
confirmation lost. -/
inductive Fate where
  | failed | done | lost
  deriving DecidableEq

def Fate.settle {α : Type} (fate : Fate) (work : Database → Except EdgeError (Database × α))
    (db : Database) : Database × Except EdgeError α :=
  match fate, work db with
  | .failed, _ => (db, .error .database)
  | _, .error e => (db, .error e)
  | .done, .ok (db', a) => (db', .ok a)
  | .lost, .ok (db', _) => (db', .error .database)

/-- What one `apply` meets. -/
structure Turn where
  verify : JournalDelivery → Except VerificationError VerifiedProjection
  fate : Fate

inductive ConsumerError where
  | halted
  | metadata (e : MetadataError)
  | nonPositiveSequence
  | transient
  | store (e : EdgeError)
  | notRequired
  | negativeCursor
  | source
  | invalidAuthorityBounds
  | invalidAuthorityDelivery (sequence : ℤ)
  | invalidBounds
  | rangeMismatch
  | nonContiguous
  | deliveryHalted
  | incomplete
  | noProgress
  | interrupted
  deriving DecidableEq

structure Node where
  db : Database := {}
  halted : Bool := false

/-! ### Handle -/

def routeMatches (sha256 : Bytes → Bytes) (subject : Bytes) (id : EdgeIdentity)
    (p : VerifiedProjection) : Bool :=
  let token := edgeRoutingToken sha256 id.edgeID id.generation
  subject == edgeDeliverySubject sha256 id &&
    match p.family, p.case, p.advice with
    | .case, some c, _ =>
      c.issuerEdgeID == id.edgeID && c.issuerEdgeGeneration == id.generation &&
        c.routeKind == .domain && c.routeToken == routingToken sha256 c.domain &&
        c.sourceToken == token
    | .advice, _, some a =>
      a.issuerEdgeID == id.edgeID && a.issuerEdgeGeneration == id.generation &&
        a.routeKind == .edge && a.routeToken == token
    | _, _, _ => false

variable (c : JournalConsumer)

/-- The arguments `apply` passes to the store, unless the failure is transient. -/
def JournalConsumer.verdict (subject : Bytes)
    (result : Except VerificationError VerifiedProjection) :
    Option (Verdict × Bytes × Option VerifiedProjection) :=
  match result with
  | .error (.permanent reason) => some (.rejected, reason, none)
  | .error .transient => none
  | .ok p =>
    if routeMatches c.store.sha256 subject c.identity p then some (.accepted, [], some p)
    else some (.rejected, text "route_mismatch", some p)

def JournalConsumer.apply (turn : Turn) (d : JournalDelivery) (reconciling : Bool) (db : Database) :
    Database × Except ConsumerError ApplyOutcome :=
  match c.verdict d.subject (turn.verify d) with
  | none => (db, .error .transient)
  | some (verdict, reason, p) =>
    let (db, result) := turn.fate.settle (c.store.applyVerified d verdict reason p reconciling) db
    (db, result.mapError .store)

def ApplyOutcome.halts : ApplyOutcome → Bool
  | .quarantined | .reconciliationRequired | .identityConflict => true
  | .accepted | .rejected | .duplicate => false

/-- `jetStreamJournalMessage.Metadata`, as the delivery Handle builds from it. -/
def JournalConsumer.delivery (m : CarrierMessage) : Except MetadataError JournalDelivery := do
  let (stream, sequence) ← orFail m.metadata .unavailable
  ensure (stream == streamName && sequence != 0 &&
    m.subject == edgeDeliverySubject c.store.sha256 c.identity &&
    !m.data.isEmpty && m.data.length ≤ maxEnvelopeBytes) .invalidMetadata
  ensure (match headerValues m.headers headerOutboxID with
    | [value] => value != []
    | _ => false) .invalidOutboxHeader
  let _ ← positiveUintHeader m.headers headerFactSequence
  let deliverySeq ← positiveIntHeader m.headers headerDeliverySequence
  let edgeGeneration ← positiveIntHeader m.headers headerEdgeGeneration
  pure ⟨stream, sequence, deliverySeq, c.identity.tenantID, c.identity.edgeID, edgeGeneration,
    m.subject, m.data⟩

def JournalConsumer.handleDelivery (turn : Turn) (d : JournalDelivery) (node : Node) :
    Node × Except ConsumerError ApplyOutcome :=
  if d.deliverySeq ≤ 0 then (node, .error .nonPositiveSequence)
  else if d.identity ≠ c.identity.key then
    -- a foreign generation cannot raise the watermark of this one
    match turn.fate.settle (requireReconciliation c.identity 0 (text "delivery_identity_mismatch"))
        node.db with
    | (db, .error e) => ({ node with db := db }, .error (.store e))
    | (db, .ok _) => (⟨db, true⟩, .ok .reconciliationRequired)
  else
    match c.apply turn d false node.db with
    | (db, .error e) => ({ node with db := db }, .error e)
    | (db, .ok outcome) => (⟨db, node.halted || outcome.halts⟩, .ok outcome)

def JournalConsumer.handle (turn : Turn) (m : CarrierMessage) (node : Node) :
    Node × Except ConsumerError ApplyOutcome :=
  if node.halted then (node, .error .halted)
  else
    match c.delivery m with
    | .error e => (node, .error (.metadata e))
    | .ok d => c.handleDelivery turn d node

/-! ### Reconcile -/

/-- One ListEdgeDeliveries call: generation, cursor and limit; `none` is any error. -/
abbrev DeliverySource := Generation → ℤ → ℤ → Option EdgeDeliveryPage

structure ReconcileBatch where
  deliveries : List JournalDelivery
  highWatermark : ℤ
  completeThrough : ℤ

def JournalConsumer.reconciled (e : EdgeDelivery) : JournalDelivery :=
  ⟨[], 0, e.sequence, c.identity.tenantID, c.identity.edgeID, c.identity.generation,
    edgeDeliverySubject c.store.sha256 c.identity, e.raw⟩

def acceptableEntry (expected : ℤ) (e : EdgeDelivery) : Bool :=
  e.sequence == expected && (e.kind == .case || e.kind == .advice) && e.caseID != [] &&
    e.envelopeID != [] && e.commitment != [] && 0 < e.authorityRevision && !e.raw.isEmpty &&
    e.raw.length ≤ maxEnvelopeBytes

def JournalConsumer.convert (c : JournalConsumer) :
    ℤ → List EdgeDelivery → Except ConsumerError (List JournalDelivery)
  | _, [] => .ok []
  | expected, e :: es => do
    ensure (acceptableEntry expected e) (.invalidAuthorityDelivery expected)
    let ds ← c.convert (expected + 1) es
    pure (c.reconciled e :: ds)

def JournalConsumer.fetchAfter (source : DeliverySource) (after : ℤ) :
    Except ConsumerError ReconcileBatch := do
  ensure (0 ≤ after) .negativeCursor
  let page ← orFail (source c.identity.key after c.limit) .source
  ensure (after ≤ page.highWatermark && after ≤ page.completeThrough &&
    page.completeThrough ≤ page.highWatermark && page.deliveries.length ≤ c.limit &&
    page.deliveries.length == page.completeThrough - after) .invalidAuthorityBounds
  let ds ← c.convert (after + 1) page.deliveries
  pure ⟨ds, page.highWatermark, page.completeThrough⟩

def JournalConsumer.contiguous (c : JournalConsumer) : ℤ → List JournalDelivery → Bool
  | _, [] => true
  | expected, d :: ds =>
    d.identity == c.identity.key && d.deliverySeq == expected && c.contiguous (expected + 1) ds

def JournalConsumer.batch (c : JournalConsumer) (source : DeliverySource) (state : StateRow) :
    Except ConsumerError ReconcileBatch := do
  let batch ← c.fetchAfter source state.lastContiguousSeq
  ensure (state.highWatermark ≤ batch.highWatermark &&
    state.lastContiguousSeq ≤ batch.completeThrough &&
    batch.completeThrough ≤ batch.highWatermark) .invalidBounds
  ensure (batch.deliveries.length == batch.completeThrough - state.lastContiguousSeq) .rangeMismatch
  ensure (c.contiguous (state.lastContiguousSeq + 1) batch.deliveries) .nonContiguous
  pure batch

def JournalConsumer.applyBatch (c : JournalConsumer) :
    List Turn → List JournalDelivery → Database → Database × Except ConsumerError Unit
  | _, [], db => (db, .ok ())
  | [], _ :: _, db => (db, .error .interrupted)
  | turn :: turns, d :: ds, db =>
    match c.apply turn d true db with
    | (db, .error e) => (db, .error e)
    | (db, .ok outcome) =>
      if outcome.halts then (db, .error .deliveryHalted) else c.applyBatch turns ds db

structure Pass where
  readFails : Bool
  source : DeliverySource
  turns : List Turn
  rereadFails : Bool
  fate : Fate

structure ReconcileResult where
  applied : ℕ
  highWatermark : ℤ
  completeThrough : ℤ
  resumed : Bool

/-- The end of a pass: complete the reconciliation once the watermark is reached. -/
def JournalConsumer.finish (pass : Pass) (batch : ReconcileBatch) (node : Node) :
    Node × Except ConsumerError ReconcileResult :=
  let result := ReconcileResult.mk batch.deliveries.length batch.highWatermark batch.completeThrough
  if pass.rereadFails then (node, .error (.store .database))
  else if (deliveryState c.identity.key node.db).lastContiguousSeq ≠ batch.completeThrough then
    (node, .error .incomplete)
  else if batch.completeThrough ≠ batch.highWatermark then (node, .ok (result false))
  else
    match pass.fate.settle
        (completeReconciliation c.identity batch.completeThrough batch.highWatermark) node.db with
    | (db, .error e) => ({ node with db := db }, .error (.store e))
    | (db, .ok _) => (⟨db, false⟩, .ok (result true))

def JournalConsumer.reconcile (pass : Pass) (node : Node) :
    Node × Except ConsumerError ReconcileResult :=
  if !node.halted then (node, .error .notRequired)
  else if pass.readFails then (node, .error (.store .database))
  else
    match c.batch pass.source (deliveryState c.identity.key node.db) with
    | .error e => (node, .error e)
    | .ok batch =>
      match c.applyBatch pass.turns batch.deliveries node.db with
      | (db, .error e) => ({ node with db := db }, .error e)
      | (db, .ok _) => c.finish pass batch { node with db := db }

/-! ### The edge process (jetstream_consumer.go:89-125, runtime.go:258-340) -/

inductive Fetch where
  | message (m : CarrierMessage)
  | timeout
  | failed

/-- The broker took the acknowledgement and said so, took it and the answer got
lost, or never saw it. -/
inductive AckFate where
  | confirmed | unconfirmed | failed
  deriving DecidableEq

inductive PullError where
  | halted
  | noMessage
  | fetch
  | negativeAck (e : ConsumerError)
  | acknowledge
  deriving DecidableEq

inductive ProcessOutcome where
  | applied (outcome : ApplyOutcome)
  | retrying
  deriving DecidableEq

structure HandleNext where
  node : Node
  acknowledged : Option CarrierMessage
  reply : Except PullError ProcessOutcome

def JournalConsumer.handleNext (fetch : Fetch) (turn : Turn) (nakFails : Bool) (ack : AckFate)
    (node : Node) : HandleNext :=
  if node.halted then ⟨node, none, .error .halted⟩
  else
    match fetch with
    | .failed => ⟨node, none, .error .fetch⟩
    | .timeout => ⟨node, none, .error .noMessage⟩
    | .message m =>
      match c.handle turn m node with
      | (node, .error e) =>
        if nakFails then ⟨node, none, .error (.negativeAck e)⟩
        else if e = .halted then ⟨node, none, .error .halted⟩
        else ⟨node, none, .ok .retrying⟩
      | (node, .ok outcome) =>
        match ack with
        | .confirmed => ⟨node, some m, .ok (.applied outcome)⟩
        | .unconfirmed => ⟨node, some m, .error .acknowledge⟩
        | .failed => ⟨node, none, .error .acknowledge⟩

/-- `NewJournalConsumer`: the flag is read back from the database. -/
def JournalConsumer.start (db : Database) : Node :=
  ⟨db, (deliveryState c.identity.key db).mode == .reconciliationRequired⟩

/-- `reconcileEdge`: the pulling consumer reconciles until it is no longer halted. -/
def JournalConsumer.reconcileEdge (c : JournalConsumer) :
    List Pass → Node → Node × Except ConsumerError Unit
  | [], node => (node, if node.halted then .error .interrupted else .ok ())
  | pass :: passes, node =>
    if !node.halted then (node, .ok ())
    else
      match c.reconcile pass node with
      | (after, .error e) => (after, .error e)
      | (after, .ok _) => c.reconcileEdge passes after

def JournalConsumer.reconcileLoop (c : JournalConsumer) :
    List Pass → Node → Database × Except ConsumerError Unit
  | [], node => (node.db, if node.halted then .error .interrupted else .ok ())
  | pass :: passes, node =>
    if !node.halted then (node.db, .ok ())
    else
      match c.reconcile pass node with
      | (after, .error e) => (after.db, .error e)
      | (after, .ok result) =>
        if result.resumed then (after.db, .ok ())
        else if (deliveryState c.identity.key after.db).lastContiguousSeq ≤
            (deliveryState c.identity.key node.db).lastContiguousSeq then
          (after.db, .error .noProgress)
        else c.reconcileLoop passes after

/-- `reconcileAuthoritativeEdge`: a consumer of its own goes over the log while
the pulling consumer keeps its flag. -/
def JournalConsumer.reconcileAuthoritative (fate : Fate) (passes : List Pass) (node : Node) :
    Node × Except ConsumerError Unit :=
  match fate.settle (requireReconciliation c.identity
      (deliveryState c.identity.key node.db).highWatermark (text "authoritative_reconciliation"))
      node.db with
  | (db, .error e) => ({ node with db := db }, .error (.store e))
  | (db, .ok _) =>
    let (db, result) := c.reconcileLoop passes (c.start db)
    ({ node with db := db }, result)

inductive Event where
  | handleNext (fetch : Fetch) (turn : Turn) (nakFails : Bool) (ack : AckFate)
  | reconcile (pass : Pass)
  | reconcileAuthoritative (fate : Fate) (passes : List Pass)
  | restart
  /-- The fronts claim and deliver outbox rows. -/
  | fronts (work : List FrontRow → List FrontRow)

structure World where
  node : Node := {}
  acknowledged : List CarrierMessage := []

def JournalConsumer.step (w : World) : Event → World
  | .handleNext fetch turn nakFails ack =>
    let result := c.handleNext fetch turn nakFails ack w.node
    ⟨result.node, w.acknowledged ++ result.acknowledged.toList⟩
  | .reconcile pass => { w with node := (c.reconcile pass w.node).1 }
  | .reconcileAuthoritative fate passes =>
    { w with node := (c.reconcileAuthoritative fate passes w.node).1 }
  | .restart => { w with node := c.start w.node.db }
  | .fronts work =>
    { w with node := { w.node with db := { w.node.db with front := work w.node.db.front } } }

def JournalConsumer.run (w : World) (es : List Event) : World :=
  es.foldl c.step w

end Snagline.Edge
