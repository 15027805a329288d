import Snagline.Authority.Statements
import Snagline.Delivery.Stream

/-!
# The edge journal (sspedge/store.go:299-727)

One SQLite database holds the delivery state of an edge generation, the journal
of what was applied, and the projection built from it. Every function here is
the work of one transaction: it returns the tables to commit, or an error on
which the transaction is rolled back. Timestamps of the local clock and the
encryption of payloads are left out.
-/

namespace Snagline.Edge
open Kit Ssp Delivery Authority

/-! ### Values -/

inductive Family where
  | case | advice
  deriving DecidableEq

inductive Verdict where
  | accepted | rejected | quarantined
  deriving DecidableEq

inductive ApplyOutcome where
  | accepted | rejected | quarantined | duplicate | reconciliationRequired | identityConflict
  deriving DecidableEq

inductive DeliveryMode where
  | active | reconciliationRequired
  deriving DecidableEq

inductive RowState where
  | accepted | quarantined
  deriving DecidableEq

inductive RouteKind where
  | domain | edge
  deriving DecidableEq

abbrev Generation := Bytes × Bytes × ℤ

/-- `EdgeIdentity`, as its `validate` admits it. -/
structure EdgeIdentity where
  tenantID : Bytes
  edgeID : Bytes
  generation : ℤ
  tenantNamed : tenantID ≠ []
  edgeNamed : edgeID ≠ []
  positive : 0 < generation
  deriving DecidableEq

def EdgeIdentity.key (id : EdgeIdentity) : Generation := (id.tenantID, id.edgeID, id.generation)

structure JournalDelivery where
  stream : Bytes
  sequence : ℕ
  deliverySeq : ℤ
  tenantID : Bytes
  edgeID : Bytes
  edgeGeneration : ℤ
  subject : Bytes
  raw : Bytes
  deriving DecidableEq

def JournalDelivery.identity (d : JournalDelivery) : Generation :=
  (d.tenantID, d.edgeID, d.edgeGeneration)

structure Case where
  caseID : Bytes
  issuerEdgeID : Bytes
  domain : Bytes
  summary : Bytes
  contextManifest : Bytes
  issuerEdgeGeneration : ℤ
  routeKind : RouteKind
  routeToken : Bytes
  sourceToken : Bytes
  routingEpoch : ℤ
  registryRevision : ℤ
  registryHash : Bytes
  expiresAt : Time
  deriving DecidableEq

structure Advice where
  adviceID : Bytes
  caseID : Bytes
  caseCommitment : Bytes
  text : Bytes
  issuerEdgeID : Bytes
  routeKind : RouteKind
  routeToken : Bytes
  issuerEdgeGeneration : ℤ
  routingEpoch : ℤ
  registryRevision : ℤ
  registryHash : Bytes
  expiresAt : Time
  deriving DecidableEq

structure VerifiedProjection where
  envelopeID : Bytes
  commitment : Bytes
  family : Family
  case : Option Case
  advice : Option Advice
  deriving DecidableEq

/-! ### Tables -/

structure StateRow where
  tenantID : Bytes
  edgeID : Bytes
  edgeGeneration : ℤ
  lastContiguousSeq : ℤ
  highWatermark : ℤ
  mode : DeliveryMode
  reason : Bytes
  deriving DecidableEq

structure DeliveryRow where
  tenantID : Bytes
  edgeID : Bytes
  edgeGeneration : ℤ
  deliverySeq : ℤ
  carrierStream : Bytes
  carrierSequence : ℕ
  subject : Bytes
  rawSHA256 : Bytes
  envelopeID : Option Bytes
  family : Option Family
  verdict : Verdict
  reason : Bytes
  deriving DecidableEq

structure IdentityRow where
  envelopeID : Bytes
  commitment : Bytes
  state : RowState
  firstDeliverySeq : ℤ
  conflictingCommitment : Option Bytes
  conflictingDeliverySeq : Option ℤ
  deriving DecidableEq

structure CaseRow where
  envelopeID : Bytes
  commitment : Bytes
  case : Case
  state : RowState
  deriving DecidableEq

structure AdviceRow where
  envelopeID : Bytes
  commitment : Bytes
  advice : Advice
  state : RowState
  deriving DecidableEq

inductive Front where
  | cli | amq
  deriving DecidableEq

inductive FrontState where
  | pending | delivering | delivered | quarantined
  deriving DecidableEq

structure FrontRow where
  front : Front
  adviceID : Bytes
  messageID : Bytes
  state : FrontState
  deriving DecidableEq

structure Projection where
  identities : List IdentityRow := []
  cases : List CaseRow := []
  advice : List AdviceRow := []
  deriving DecidableEq

/-- The outbox rows are leased and delivered by the fronts, which this model
leaves free to do as they like. -/
structure Database where
  states : List StateRow := []
  deliveries : List DeliveryRow := []
  projection : Projection := {}
  front : List FrontRow := []
  deriving DecidableEq

def StateRow.key (r : StateRow) : Generation := (r.tenantID, r.edgeID, r.edgeGeneration)
def DeliveryRow.identity (r : DeliveryRow) : Generation := (r.tenantID, r.edgeID, r.edgeGeneration)
def DeliveryRow.key (r : DeliveryRow) : Generation × ℤ := (r.identity, r.deliverySeq)
def CaseRow.key (r : CaseRow) : Bytes := r.case.caseID
def AdviceRow.key (r : AdviceRow) : Bytes := r.advice.adviceID
def FrontRow.key (r : FrontRow) : Front × Bytes := (r.front, r.adviceID)

inductive EdgeError where
  | invalidDelivery
  | reasonTooLong
  | invalidAcceptedProjection
  | invalidCase
  | invalidAdvice
  | caseIdentityMismatch
  | adviceIdentityMismatch
  | invalidRejectedReceipt
  | foreignTenant
  | caseRequired
  | adviceRequired
  | adviceCaseAbsent
  | adviceBinding
  | invalidRequirement
  | invalidCompletion
  | notContiguous
  /-- A statement, a constraint or the commit failed. -/
  | database
  deriving DecidableEq

structure DB where
  tenant : Bytes
  sha256 : Bytes → Bytes

/-! ### validateDelivery -/

/-- `routingTokenRE`. -/
def isRoutingToken (value : Bytes) : Bool := value.length == 64 && value.all isLowerHex

def edgeRoutingToken (sha256 : Bytes → Bytes) (edgeID : Bytes) (generation : ℤ) : Bytes :=
  if generation ≤ 0 then [] else edgeToken sha256 edgeID generation.toNat

def Case.wellFormed (c : Case) : Bool :=
  c.caseID != [] && 0 < c.issuerEdgeGeneration && c.routeKind == .domain &&
    isRoutingToken c.routeToken && isRoutingToken c.sourceToken &&
    validCommitment c.registryHash && c.expiresAt != zeroTime

def Advice.wellFormed (a : Advice) : Bool :=
  a.adviceID != [] && a.issuerEdgeID != [] && 0 < a.issuerEdgeGeneration && a.routeKind == .edge &&
    isRoutingToken a.routeToken && validCommitment a.caseCommitment &&
    validCommitment a.registryHash && a.expiresAt != zeroTime

def Case.addressed (sha256 : Bytes → Bytes) (c : Case) (d : JournalDelivery) : Bool :=
  c.issuerEdgeID == d.edgeID && c.issuerEdgeGeneration == d.edgeGeneration &&
    c.routeToken == routingToken sha256 c.domain &&
    c.sourceToken == edgeRoutingToken sha256 d.edgeID d.edgeGeneration

def Advice.addressed (sha256 : Bytes → Bytes) (a : Advice) (d : JournalDelivery) : Bool :=
  a.issuerEdgeID == d.edgeID && a.issuerEdgeGeneration == d.edgeGeneration &&
    a.routeToken == edgeRoutingToken sha256 d.edgeID d.edgeGeneration

variable (p : VerifiedProjection)

def VerifiedProjection.named : Bool :=
  p.envelopeID != [] && validCommitment p.commitment

variable (s : DB)

def DB.validateAccepted (d : JournalDelivery) (p : VerifiedProjection) : Except EdgeError Unit := do
  ensure p.named .invalidAcceptedProjection
  match p.family with
  | .case => do
    let c ← orFail p.case .invalidCase
    ensure c.wellFormed .invalidCase
    ensure (c.addressed s.sha256 d) .caseIdentityMismatch
  | .advice => do
    let a ← orFail p.advice .invalidAdvice
    ensure a.wellFormed .invalidAdvice
    ensure (a.addressed s.sha256 d) .adviceIdentityMismatch

def DB.validateDelivery (d : JournalDelivery) (verdict : Verdict) (reason : Bytes)
    (p : Option VerifiedProjection) : Except EdgeError Unit := do
  ensure (0 < d.deliverySeq && d.tenantID != [] && d.edgeID != [] && 0 < d.edgeGeneration &&
    d.subject != [] && !d.raw.isEmpty) .invalidDelivery
  ensure (reason.length ≤ 256) .reasonTooLong
  match verdict, p with
  | .accepted, none => .error .invalidAcceptedProjection
  | .accepted, some p => s.validateAccepted d p
  | _, none => pure ()
  | _, some p => ensure p.named .invalidRejectedReceipt

/-! ### Claiming an envelope identity -/

def IdentityRow.quarantine (commitment : Bytes) (seq : ℤ) (r : IdentityRow) : IdentityRow :=
  { r with
    state := .quarantined
    conflictingCommitment := r.conflictingCommitment.or (some commitment)
    conflictingDeliverySeq := r.conflictingDeliverySeq.or (some seq) }

def Projection.claimIdentity (id commitment : Bytes) (seq : ℤ) (t : Projection) :
    Projection × ApplyOutcome :=
  match Table.find IdentityRow.envelopeID id t.identities with
  | none =>
    ({ t with identities := t.identities ++ [⟨id, commitment, .accepted, seq, none, none⟩] },
      .accepted)
  | some stored =>
    if stored.commitment = commitment then (t, .duplicate)
    else
      ({ identities :=
          Table.update IdentityRow.envelopeID id (IdentityRow.quarantine commitment seq) t.identities
         cases := Table.update CaseRow.envelopeID id (fun r => { r with state := .quarantined }) t.cases
         advice :=
          Table.update AdviceRow.envelopeID id (fun r => { r with state := .quarantined }) t.advice },
        .quarantined)

/-- The outbox rows of the advice with envelope `id`. -/
def quarantineFront (id : Bytes) (advice : List AdviceRow) (front : List FrontRow) : List FrontRow :=
  let ids := (advice.filter fun a => a.envelopeID = id).map AdviceRow.key
  front.map fun r => if ids.contains r.adviceID then { r with state := .quarantined } else r

def claimIdentity (id commitment : Bytes) (seq : ℤ) (db : Database) : Database × ApplyOutcome :=
  let (t, outcome) := db.projection.claimIdentity id commitment seq
  let front :=
    if outcome = .quarantined then quarantineFront id t.advice db.front else db.front
  ({ db with projection := t, front := front }, outcome)

/-! ### Writing the projection -/

/-- `INSERT ... ON CONFLICT (key) DO NOTHING` into a table with one more unique
column. -/
def insertOrIgnore {ρ κ : Type} [DecidableEq κ] (key : ρ → κ) (other : ρ → Bytes) (row : ρ)
    (rows : List ρ) : Except EdgeError (List ρ) :=
  if Table.clash key row rows then .ok rows
  else if Table.clash other row rows then .error .database
  else .ok (rows ++ [row])

def Advice.binds (a : Advice) (r : CaseRow) : Bool :=
  r.commitment == a.caseCommitment && r.case.issuerEdgeID == a.issuerEdgeID &&
    r.case.issuerEdgeGeneration == a.issuerEdgeGeneration && r.case.sourceToken == a.routeToken &&
    r.case.routingEpoch == a.routingEpoch && r.case.registryRevision == a.registryRevision &&
    r.case.registryHash == a.registryHash

def acceptedCase (caseID : Bytes) (cases : List CaseRow) : Option CaseRow :=
  (Table.find CaseRow.key caseID cases).filter fun r => r.state = .accepted

def Projection.persist (t : Projection) : Except EdgeError Projection :=
  match p.family with
  | .case => do
    let c ← orFail p.case .caseRequired
    let cases ← insertOrIgnore CaseRow.key CaseRow.envelopeID
      ⟨p.envelopeID, p.commitment, c, .accepted⟩ t.cases
    pure { t with cases := cases }
  | .advice => do
    let a ← orFail p.advice .adviceRequired
    let row ← orFail (acceptedCase a.caseID t.cases) .adviceCaseAbsent
    ensure (a.binds row) .adviceBinding
    let advice ← insertOrIgnore AdviceRow.key AdviceRow.envelopeID
      ⟨p.envelopeID, p.commitment, a, .accepted⟩ t.advice
    pure { t with advice := advice }

def Front.name : Front → Bytes
  | .cli => text "cli"
  | .amq => text "amq"

def frontRow (adviceID : Bytes) (front : Front) : FrontRow :=
  ⟨front, adviceID, text "snagline." ++ front.name ++ text ".advice.v1/" ++ adviceID, .pending⟩

def persistFront (front : List FrontRow) : Except EdgeError (List FrontRow) :=
  match p.family, p.advice with
  | .advice, some a => do
    let front ← insertOrIgnore FrontRow.key FrontRow.messageID (frontRow a.adviceID .cli) front
    insertOrIgnore FrontRow.key FrontRow.messageID (frontRow a.adviceID .amq) front
  | _, _ => pure front

def persistProjection (db : Database) : Except EdgeError Database := do
  let t ← db.projection.persist p
  let front ← persistFront p db.front
  pure { db with projection := t, front := front }

/-! ### Delivery state -/

def StateRow.initial (id : Generation) : StateRow := ⟨id.1, id.2.1, id.2.2, 0, 0, .active, []⟩

def deliveryStateTx (id : Generation) (db : Database) : Option StateRow :=
  Table.find StateRow.key id db.states

/-- `DB.DeliveryState`: a generation without a row is active at zero. -/
def deliveryState (id : Generation) (db : Database) : StateRow :=
  (deliveryStateTx id db).getD (.initial id)

def StateRow.require (high : ℤ) (reason : Bytes) (r : StateRow) : StateRow :=
  { r with
    highWatermark := max r.highWatermark high
    mode := .reconciliationRequired
    reason := reason }

def requireReconciliationTx (state : StateRow) (observed : ℤ) (reason : Bytes) (db : Database) :
    Database :=
  let row := state.require observed reason
  { db with
    states := Table.upsert StateRow.key row (StateRow.require row.highWatermark reason) db.states }

def StateRow.advance (seq : ℤ) (r : StateRow) : StateRow :=
  { r with lastContiguousSeq := seq, highWatermark := max r.highWatermark seq }

def advanceDeliveryStateTx (id : Generation) (present : Bool) (seq : ℤ) (db : Database) :
    Except EdgeError Database :=
  if present then
    .ok { db with states := Table.update StateRow.key id (StateRow.advance seq) db.states }
  else
    let row := { StateRow.initial id with lastContiguousSeq := seq, highWatermark := seq }
    if Table.clash StateRow.key row db.states then .error .database
    else .ok { db with states := db.states ++ [row] }

def requireReconciliation (id : EdgeIdentity) (observed : ℤ) (reason : Bytes) (db : Database) :
    Except EdgeError (Database × Unit) := do
  ensure (0 ≤ observed && reason != []) .invalidRequirement
  pure (requireReconciliationTx (deliveryState id.key db) observed reason db, ())

def StateRow.completes (through high : ℤ) (r : StateRow) : Bool :=
  r.mode == .reconciliationRequired && r.lastContiguousSeq == through && r.highWatermark == high

def completeReconciliation (id : EdgeIdentity) (completeThrough high : ℤ) (db : Database) :
    Except EdgeError (Database × Unit) := do
  ensure (0 ≤ completeThrough && completeThrough == high) .invalidCompletion
  let hit : StateRow → Bool := fun r => r.key == id.key && r.completes completeThrough high
  ensure ((db.states.filter hit).length == 1) .notContiguous
  pure ({ db with
    states := db.states.map fun r => if hit r then { r with mode := .active, reason := [] } else r }, ())

/-! ### applyVerified -/

def DB.hash (raw : Bytes) : Bytes := text "sha256:" ++ hexEncode (s.sha256 raw)

def Verdict.outcome : Verdict → ApplyOutcome
  | .accepted => .accepted
  | .rejected => .rejected
  | .quarantined => .quarantined

structure Judged where
  verdict : Verdict
  reason : Bytes
  outcome : ApplyOutcome

/-- An accepted delivery claims its identity first, and only a first claim
writes the projection. -/
def settleVerdict (verdict : Verdict) (reason : Bytes) (p : Option VerifiedProjection) (seq : ℤ)
    (db : Database) : Except EdgeError (Database × Judged) :=
  match verdict, p with
  | .accepted, some p =>
    match claimIdentity p.envelopeID p.commitment seq db with
    | (db, .quarantined) =>
      pure (db, ⟨.quarantined, text "semantic_commitment_conflict", .quarantined⟩)
    | (db, .duplicate) => pure (db, ⟨.accepted, reason, .duplicate⟩)
    | (db, _) => do
      let db ← persistProjection p db
      pure (db, ⟨.accepted, reason, .accepted⟩)
  | verdict, _ => pure (db, ⟨verdict, reason, verdict.outcome⟩)

def DB.journalRow (d : JournalDelivery) (p : Option VerifiedProjection) (j : Judged) :
    DeliveryRow :=
  ⟨d.tenantID, d.edgeID, d.edgeGeneration, d.deliverySeq, d.stream, d.sequence, d.subject,
    s.hash d.raw, p.map (·.envelopeID), p.map (·.family), j.verdict, j.reason⟩

def insertDelivery (row : DeliveryRow) (db : Database) : Except EdgeError Database :=
  if Table.clash DeliveryRow.key row db.deliveries then .error .database
  else .ok { db with deliveries := db.deliveries ++ [row] }

def DB.recordDelivery (d : JournalDelivery) (verdict : Verdict) (reason : Bytes)
    (p : Option VerifiedProjection) (present : Bool) (db : Database) :
    Except EdgeError (Database × ApplyOutcome) := do
  let (db, judged) ← settleVerdict verdict reason p d.deliverySeq db
  let db ← insertDelivery (s.journalRow d p judged) db
  let db ← advanceDeliveryStateTx d.identity present d.deliverySeq db
  pure (db, judged.outcome)

def DB.sameEvidence (d : JournalDelivery) (row : DeliveryRow) : Bool :=
  row.rawSHA256 == s.hash d.raw && row.subject == d.subject

def DB.applyTx (d : JournalDelivery) (verdict : Verdict) (reason : Bytes)
    (p : Option VerifiedProjection) (allowReconciliation : Bool) (db : Database) :
    Except EdgeError (Database × ApplyOutcome) :=
  let stored := deliveryStateTx d.identity db
  let state := deliveryState d.identity db
  let existing := Table.find DeliveryRow.key (d.identity, d.deliverySeq) db.deliveries
  let haltAndCommit (reason : Bytes) (outcome : ApplyOutcome) :
      Except EdgeError (Database × ApplyOutcome) :=
    pure (requireReconciliationTx state d.deliverySeq reason db, outcome)
  if d.deliverySeq ≤ state.lastContiguousSeq then
    match existing with
    | none => haltAndCommit (text "missing_committed_delivery") .reconciliationRequired
    | some row =>
      if s.sameEvidence d row then pure (db, .duplicate)
      else haltAndCommit (text "delivery_identity_conflict") .identityConflict
  else if d.deliverySeq ≠ state.lastContiguousSeq + 1 ∨
      (state.mode = .reconciliationRequired ∧ allowReconciliation = false) then
    haltAndCommit (text "delivery_sequence_gap") .reconciliationRequired
  else
    match existing with
    | none => s.recordDelivery d verdict reason p stored.isSome db
    | some row =>
      if !s.sameEvidence d row then
        haltAndCommit (text "delivery_identity_conflict") .identityConflict
      else if allowReconciliation then do
        -- a torn state is advanced through the row that is already there
        let db ← advanceDeliveryStateTx d.identity stored.isSome d.deliverySeq db
        pure (db, .duplicate)
      else pure (db, .duplicate)

def DB.applyVerified (d : JournalDelivery) (verdict : Verdict) (reason : Bytes)
    (p : Option VerifiedProjection) (allowReconciliation : Bool) (db : Database) :
    Except EdgeError (Database × ApplyOutcome) := do
  s.validateDelivery d verdict reason p
  ensure (d.tenantID == s.tenant) .foreignTenant
  s.applyTx d verdict reason p allowReconciliation db

end Snagline.Edge
