import Snagline.Edge.Content
import Snagline.Kit.Calendar
import Snagline.Kit.Marshal
import Snagline.Spool.Store

/-!
# Opening cases and finalizing advice (edge/service.go:206-290, 421-566)

The four calls as programs over what they ask of their surroundings: the spool,
the gateway, the local read model, the clock and the generator of identifiers.
Each transaction of the spool is one statement, so the check for a pending row
and the save that follows the signing are apart, as they are in the source.
-/

namespace Snagline.Spool
open Kit Ssp Authority Json

/-! ### The surroundings -/

structure Tables where
  cases : List (Row PendingCase) := []
  advice : List (Row PendingAdvice) := []

inductive StoreAct where
  | loadPendingCase (caseID : Bytes)
  | savePendingCase (pending : PendingCase)
  | markCaseAcceptedRemote (accepted : AcceptedRemote)
  | loadPendingAdvice (caseID : Bytes)
  | savePendingAdvice (pending : PendingAdvice)
  | markAdviceAcceptedRemote (accepted : AcceptedRemote)

abbrev StoreAct.Reply : StoreAct → Type
  | .loadPendingCase _ => Option PendingCase
  | .loadPendingAdvice _ => Option PendingAdvice
  | _ => Unit

def StoreAct.work : (a : StoreAct) → Tables → Except SpoolError (a.Reply × Tables)
  | .loadPendingCase caseID, st => do
    let found ← Spool.loadPendingCase caseID st.cases
    pure (found, st)
  | .savePendingCase pending, st => do
    let cases ← Spool.savePendingCase pending st.cases
    pure ((), { st with cases := cases })
  | .markCaseAcceptedRemote accepted, st => do
    let cases ← Spool.markCaseAcceptedRemote accepted st.cases
    pure ((), { st with cases := cases })
  | .loadPendingAdvice caseID, st => do
    let found ← Spool.loadPendingAdvice caseID st.advice
    pure (found, st)
  | .savePendingAdvice pending, st => do
    let advice ← Spool.savePendingAdvice pending st.advice
    pure ((), { st with advice := advice })
  | .markAdviceAcceptedRemote accepted, st => do
    let advice ← Spool.markAdviceAcceptedRemote accepted st.advice
    pure ((), { st with advice := advice })

structure RegistryCoordinates where
  routingEpoch : ℤ
  revision : ℤ
  hash : Bytes
  deriving DecidableEq

structure CaseRecord where
  envelopeID : Bytes
  caseID : Bytes
  commitment : Bytes
  summary : Bytes
  registry : RegistryCoordinates
  expiresAt : Time
  committed : Bool
  deriving DecidableEq

/-- `DB.GetCase`. -/
def getCase (caseID : Bytes) (db : Edge.Database) : Option CaseRecord :=
  (Edge.acceptedCase caseID db.projection.cases).map fun r =>
    ⟨r.envelopeID, caseID, r.commitment, r.case.summary,
      ⟨r.case.routingEpoch, r.case.registryRevision, r.case.registryHash⟩, r.case.expiresAt, true⟩

inductive Act where
  | store (a : StoreAct)
  | getCase (caseID : Bytes)
  | submit (identity : Control.WorkloadIdentity) (raw : Bytes)
  | clock
  | newID

abbrev Act.Reply : Act → Type
  | .store a => a.Reply
  | .getCase _ => Option CaseRecord
  | .submit _ _ => CommitReceipt
  | .clock => Time
  | .newID => Bytes

inductive Failure where
  | spool (e : SpoolError)
  | readModel
  | gateway
  | generator
  deriving DecidableEq

/-! ### Calls -/

/-- `CaseSubmission` and `AdviceSubmission`. -/
structure Submission where
  envelopeID : Bytes := []
  caseID : Bytes := []
  commitment : Bytes := []
  acceptedRemote : Bool := false
  receipt : CommitReceipt := ⟨[], 0, [], []⟩
  deriving DecidableEq

inductive ServiceError where
  | invalidIdentifiers
  | invalidSummary
  | invalidPublicSummary
  | invalidCoordinates
  | invalidAdviceRequest
  | loadPending (cause : Failure)
  | alreadyPending
  | pendingAdviceConflict
  | decodePending
  | readCase (cause : Failure)
  | notFound
  | notCommitted
  | clock (cause : Failure)
  | createID (cause : Failure)
  | sign
  | commit (cause : VerifyError)
  | savePending (cause : Failure)
  | submit (cause : Failure)
  | differentEnvelope
  | differentCommitment
  | incompleteReceipt
  | mismatchedReceipt
  | markAccepted (cause : Failure)
  deriving DecidableEq

structure Rejected where
  submission : Submission := {}
  error : ServiceError
  deriving DecidableEq

abbrev Call := Prog Act Act.Reply Failure Rejected

def ask (a : Act) (wrap : Failure → ServiceError) : Call a.Reply :=
  Prog.stmt a fun f => ⟨{}, wrap f⟩

def refuse {α : Type} (e : ServiceError) : Call α := .fail ⟨{}, e⟩
def check (b : Bool) (e : ServiceError) : Call Unit := Prog.require b ⟨{}, e⟩

def orRefuse {ε α : Type} (x : Except ε α) (wrap : ε → ServiceError) : Call α :=
  match x with
  | .ok a => pure a
  | .error e => refuse (wrap e)

/-! ### Requests -/

def validText (value : Bytes) (maximum : ℕ) : Bool :=
  utf8Valid value && 1 ≤ runeCount value && runeCount value ≤ maximum

structure OpenCaseRequest where
  caseID : Bytes
  domain : Bytes
  summary : Bytes
  publicSummary : Bytes
  contextManifest : Bytes
  registry : RegistryCoordinates
  deriving DecidableEq

def validateOpenCaseRequest (r : OpenCaseRequest) : Except ServiceError Unit := do
  ensure (validOpaqueID r.caseID && validOpaqueID r.domain) .invalidIdentifiers
  ensure (validText r.summary 4096) .invalidSummary
  ensure (validText r.publicSummary 1024) .invalidPublicSummary
  ensure (sha256Hex r.contextManifest && sha256Hex r.registry.hash && 0 ≤ r.registry.routingEpoch &&
    0 ≤ r.registry.revision) .invalidCoordinates

structure FinalizeAdviceRequest where
  caseID : Bytes
  caseCommitment : Bytes
  words : Bytes
  publicSummary : Bytes
  deriving DecidableEq

def validateFinalizeAdviceRequest (r : FinalizeAdviceRequest) : Except ServiceError Unit :=
  ensure (validOpaqueID r.caseID && sha256Hex r.caseCommitment && validText r.words 8192 &&
    validText r.publicSummary 1024) .invalidAdviceRequest

/-- `t.UTC().Format(time.RFC3339)`. -/
def formatRFC3339 (t : Time) : Bytes := Calendar.secondText (t / Calendar.second) ++ [90]

example : formatRFC3339 (1700000000 * 1000000000) = text "2023-11-14T22:13:20Z" := by decide +kernel

/-! ### The edge service -/

/-- `Service`, as NewService admits it. The signer is a family-specific
interface in the source as well. -/
structure Service where
  edgeID : Bytes
  edgeGeneration : ℤ
  principalID : Bytes
  authorKeyID : Bytes
  signCase : Envelope → Time → Option Bytes
  ttl : ℤ
  primitives : Primitives
  edgeNamed : edgeID ≠ []
  generationPositive : 0 < edgeGeneration
  principalNamed : principalID ≠ []
  authorNamed : authorKeyID ≠ []
  ttlPositive : 0 < ttl

def Service.caseBody (s : Service) (r : OpenCaseRequest) : Bytes :=
  objectText [(text "domain", quote r.domain),
    (text "issuer_edge_id", quote s.edgeID),
    (text "issuer_edge_generation", decimal s.edgeGeneration),
    (text "summary", quote r.summary), (text "public_summary", quote r.publicSummary),
    (text "context_manifest", quote r.contextManifest)]

def Service.caseEnvelope (s : Service) (r : OpenCaseRequest) (id : Bytes) (now : Time) : Envelope where
  schema := .case
  id := id
  caseID := r.caseID
  emittedAt := formatRFC3339 now
  expiresAt := formatRFC3339 (now + s.ttl)
  routingEpoch := r.registry.routingEpoch
  registryRevision := r.registry.revision
  registryHash := r.registry.hash
  authorKeyID := s.authorKeyID
  signatureAlg := text "ed25519"
  body := s.caseBody r
  signature := []

def PendingCase.submission (p : PendingCase) : Submission :=
  { envelopeID := p.envelopeID, caseID := p.caseID, commitment := p.commitment }

def checkWith (submission : Submission) (b : Bool) (e : ServiceError) : Call Unit :=
  Prog.require b ⟨submission, e⟩

def askWith (submission : Submission) (a : Act) (wrap : Failure → ServiceError) : Call a.Reply :=
  Prog.stmt a fun f => ⟨submission, wrap f⟩

def Service.submitPending (s : Service) (p : PendingCase) : Call Submission := do
  let known := p.submission
  let receipt : CommitReceipt ←
    askWith known (.submit ⟨s.principalID, s.edgeID, s.edgeGeneration⟩ p.raw) .submit
  checkWith known (receipt.envelopeID == p.envelopeID) .differentEnvelope
  checkWith known (receipt.commitment == p.commitment) .differentCommitment
  checkWith known (receipt.authorityID != [] && 0 < receipt.revision) .incompleteReceipt
  let now : Time ← askWith known .clock .clock
  let _ ← askWith known (.store (.markCaseAcceptedRemote
    ⟨p.envelopeID, p.caseID, p.commitment, receipt, now⟩)) .markAccepted
  pure { known with acceptedRemote := true, receipt := receipt }

def Service.openCase (s : Service) (r : OpenCaseRequest) : Call Submission := do
  orRefuse (validateOpenCaseRequest r) id
  let found : Option PendingCase ← ask (.store (.loadPendingCase r.caseID)) .loadPending
  check found.isNone .alreadyPending
  let now : Time ← ask .clock .clock
  let envelopeID : Bytes ← ask .newID .createID
  let raw ← orRefuse (orFail (s.signCase (s.caseEnvelope r envelopeID now) now) ()) fun _ => .sign
  let commitment ← orRefuse (s.primitives.envelopeCommitment raw now) .commit
  let pending : PendingCase := ⟨envelopeID, r.caseID, commitment, raw, now⟩
  let _ ← ask (.store (.savePendingCase pending)) .savePending
  s.submitPending pending

def Service.retryCase (s : Service) (caseID : Bytes) : Call Submission := do
  let found : Option PendingCase ← ask (.store (.loadPendingCase caseID)) .loadPending
  match found with
  | none => refuse .notFound
  | some pending => s.submitPending pending

/-! ### The finalizer -/

/-- `Finalizer`, as NewFinalizer admits it. -/
structure Finalizer where
  principalID : Bytes
  authorKeyID : Bytes
  signAdvice : Envelope → Time → Option Bytes
  ttl : ℤ
  primitives : Primitives
  principalNamed : principalID ≠ []
  authorNamed : authorKeyID ≠ []
  ttlPositive : 0 < ttl

def adviceBody (r : FinalizeAdviceRequest) : Bytes :=
  objectText [(text "case_commitment", quote r.caseCommitment),
    (text "text", quote r.words), (text "public_summary", quote r.publicSummary)]

variable (s : Finalizer)

def Finalizer.adviceEnvelope (r : FinalizeAdviceRequest) (c : CaseRecord) (id : Bytes)
    (now expires : Time) : Envelope where
  schema := .advice
  id := id
  caseID := c.caseID
  emittedAt := formatRFC3339 now
  expiresAt := formatRFC3339 expires
  routingEpoch := c.registry.routingEpoch
  registryRevision := c.registry.revision
  registryHash := c.registry.hash
  authorKeyID := s.authorKeyID
  signatureAlg := text "ed25519"
  body := adviceBody r
  signature := []

/-- The commitment is computed for its checks; after them the struct decoder reads
what the strict one does. -/
def pendingAdviceMatchesRequest (p : Primitives) (raw : Bytes) (r : FinalizeAdviceRequest)
    (now : Time) : Option Bool := do
  let _ ← (p.envelopeCommitment raw now).toOption
  let envelope ← (decodeStrictEnvelope raw).toOption
  if envelope.schema ≠ .advice then none
  else
    let body ← Edge.decodeVerifiedAdviceBody envelope.body
    some (envelope.caseID == r.caseID && body.caseCommitment == r.caseCommitment &&
      body.words == r.words && body.publicSummary == r.publicSummary)

def PendingAdvice.submission (p : PendingAdvice) : Submission :=
  { envelopeID := p.adviceID, caseID := p.caseID, commitment := p.commitment }

def Finalizer.submitPendingAdvice (p : PendingAdvice) : Call Submission := do
  let known := p.submission
  let receipt : CommitReceipt ← askWith known (.submit ⟨s.principalID, [], 0⟩ p.raw) .submit
  checkWith known (receipt.envelopeID == p.adviceID && receipt.commitment == p.commitment &&
    receipt.authorityID != [] && 0 < receipt.revision) .mismatchedReceipt
  let now : Time ← askWith known .clock .clock
  let _ ← askWith known (.store (.markAdviceAcceptedRemote
    ⟨p.adviceID, p.caseID, p.commitment, receipt, now⟩)) .markAccepted
  pure { known with acceptedRemote := true, receipt := receipt }

def Finalizer.refusePending (r : FinalizeAdviceRequest) (p : PendingAdvice) : Call Submission := do
  let now : Time ← ask .clock .clock
  match pendingAdviceMatchesRequest s.primitives p.raw r now with
  | none => refuse .decodePending
  | some false => refuse .pendingAdviceConflict
  | some true => refuse .alreadyPending

def Finalizer.finalizeAdvice (r : FinalizeAdviceRequest) : Call Submission := do
  orRefuse (validateFinalizeAdviceRequest r) id
  let found : Option PendingAdvice ← ask (.store (.loadPendingAdvice r.caseID)) .loadPending
  match found with
  | some pending => s.refusePending r pending
  | none => do
    let record : Option CaseRecord ← ask (.getCase r.caseID) .readCase
    match record with
    | none => refuse .notFound
    | some c => do
      check (c.committed && c.commitment == r.caseCommitment) .notCommitted
      let now : Time ← ask .clock .clock
      let expires := min c.expiresAt (now + s.ttl)
      check (now < expires) .notCommitted
      let id : Bytes ← ask .newID .createID
      let raw ← orRefuse (orFail (s.signAdvice (s.adviceEnvelope r c id now expires) now) ())
        fun _ => .sign
      let commitment ← orRefuse (s.primitives.envelopeCommitment raw now) .commit
      let pending : PendingAdvice := ⟨id, c.caseID, r.caseCommitment, commitment, raw, now⟩
      let _ ← ask (.store (.savePendingAdvice pending)) .savePending
      s.submitPendingAdvice pending

def Finalizer.retryAdvice (caseID : Bytes) : Call Submission := do
  let found : Option PendingAdvice ← ask (.store (.loadPendingAdvice caseID)) .loadPending
  match found with
  | none => refuse .notFound
  | some pending => s.submitPendingAdvice pending

end Snagline.Spool
