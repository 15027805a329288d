import Snagline.Ssp.RegistryFamily

/-!
# Signed envelopes (ssp/envelope.go, header.go, commitment.go, verified_registry.go)

Decoding is strict in the members of the wire. Validation looks at the clock in
one place only, where the instant must lie in the signed interval; everything
else about an envelope, its signature and its commitment included, is the same
at every instant. SHA-256, Ed25519 verification and the JCS transformation are
parameters.
-/

namespace Snagline.Ssp
open Kit Json

structure Primitives where
  sha256 : Bytes → Bytes
  ed25519Verify : Bytes → Bytes → Bytes → Bool
  jcs : Bytes → Option Bytes

structure Envelope where
  schema : Family
  id : Bytes
  caseID : Bytes
  emittedAt : Bytes
  expiresAt : Bytes
  routingEpoch : ℤ
  registryRevision : ℤ
  registryHash : Bytes
  authorKeyID : Bytes
  signatureAlg : Bytes
  body : Bytes
  signature : Bytes
  deriving DecidableEq

/-! ### decodeStrictEnvelope -/

def envelopeLabel : Bytes := text "envelope"

def envelopeCommonRequiredMembers : List Bytes :=
  [text "schema", text "id", text "emitted_at", text "expires_at", text "routing_epoch",
    text "registry_revision", text "author_key_id", text "signature_alg", text "body",
    text "signature"]

def caseMembers : List Bytes := [text "case_id", text "registry_hash"]

def forbidMembers (ms : Members) : List Bytes → Except Refusal Unit
  | [] => .ok ()
  | name :: names => do
    ensure (lookup ms name).isNone (.forbiddenMember name)
    forbidMembers ms names

def checkForbidden (ms : Members) : Family → Except Refusal Unit
  | .registry => forbidMembers ms caseMembers
  | .case | .advice => .ok ()

def requiredMembers : Family → List Bytes
  | .registry => envelopeCommonRequiredMembers
  | .case | .advice => envelopeCommonRequiredMembers ++ caseMembers

def caseString (ms : Members) (family : Family) (name : Bytes) : Except Refusal Bytes :=
  match family with
  | .registry => .ok []
  | .case | .advice => requiredString ms name envelopeLabel

variable (raw : Bytes)

def decodeStrictEnvelope : Except Refusal Envelope := do
  rawGuard raw
  let ms ← exactObject raw envelopeLabel
  let schema ← requiredString ms (text "schema") envelopeLabel
  let family ← orFail (Family.ofSchema schema) .unknownFamily
  checkForbidden ms family
  requireExactMembers ms (requiredMembers family) envelopeLabel
  let routingEpoch ← requiredNonNegativeInteger ms (text "routing_epoch") envelopeLabel
  let registryRevision ← requiredNonNegativeInteger ms (text "registry_revision") envelopeLabel
  let id ← requiredString ms (text "id") envelopeLabel
  let emittedAt ← requiredString ms (text "emitted_at") envelopeLabel
  let expiresAt ← requiredString ms (text "expires_at") envelopeLabel
  let authorKeyID ← requiredString ms (text "author_key_id") envelopeLabel
  let signatureAlg ← requiredString ms (text "signature_alg") envelopeLabel
  let signature ← requiredString ms (text "signature") envelopeLabel
  let caseID ← caseString ms family (text "case_id")
  let registryHash ← caseString ms family (text "registry_hash")
  let body := ((lookup ms (text "body")).map Prod.fst).getD []
  pure ⟨family, id, caseID, emittedAt, expiresAt, routingEpoch, registryRevision, registryHash,
    authorKeyID, signatureAlg, body, signature⟩

/-- `EnvelopeHeader`: what ReadHeader lets a caller see of an unverified envelope. -/
structure EnvelopeHeader where
  schema : Family
  id : Bytes
  caseID : Bytes
  emittedAt : Bytes
  expiresAt : Bytes
  routingEpoch : ℤ
  registryRevision : ℤ
  registryHash : Bytes
  authorKeyID : Bytes
  deriving DecidableEq

variable (e : Envelope)

def Envelope.header : EnvelopeHeader :=
  ⟨e.schema, e.id, e.caseID, e.emittedAt, e.expiresAt, e.routingEpoch, e.registryRevision,
    e.registryHash, e.authorKeyID⟩

def readHeader : Except Refusal EnvelopeHeader := do
  let e ← decodeStrictEnvelope raw
  pure e.header

/-! ### Validate -/

/-- The number literals of a value; `fuel` bounds its depth. -/
def numbers : ℕ → Json → List Bytes
  | 0, _ => []
  | _ + 1, .num literal => [literal]
  | n + 1, .arr items => items.flatMap fun item => numbers n item.2
  | n + 1, .obj members => members.flatMap fun member => numbers n member.2.2
  | _ + 1, _ => []

def checkNumber (literal : Bytes) : Except Refusal Unit := do
  ensure (!literal.any fun b => b == 46 || b == 101 || b == 69) .floatingPoint
  ensure ((parseInt64 literal).any fun n => -maxSafeInteger ≤ n && n ≤ maxSafeInteger) .integerRange

def validateNumbers : Except Refusal Unit := do
  let doc ← orFail (unmarshal raw) .invalidBody
  (numbers (raw.length + 1) doc).forM checkNumber

def caseBodyMembers : List Bytes :=
  [text "domain", text "issuer_edge_id", text "issuer_edge_generation", text "summary",
    text "public_summary", text "context_manifest"]

def adviceBodyMembers : List Bytes := [text "case_commitment", text "text", text "public_summary"]
def bodyLabel (family : Family) : Bytes := family.schema ++ text " body"

def validateCaseBody (ms : Members) : Except Refusal Unit := do
  let label := bodyLabel .case
  requireExactMembers ms caseBodyMembers label
  let domain ← requiredString ms (text "domain") label
  let issuerEdgeID ← requiredString ms (text "issuer_edge_id") label
  let generation ← (requiredNonNegativeInteger ms (text "issuer_edge_generation") label).mapError
    fun _ => .invalidFamilyBody Family.case.schema
  ensure (generation != 0) (.invalidFamilyBody Family.case.schema)
  let summary ← requiredString ms (text "summary") label
  let publicSummary ← requiredString ms (text "public_summary") label
  let contextManifest ← requiredString ms (text "context_manifest") label
  ensure (validOpaqueID domain && validOpaqueID issuerEdgeID && runeCount summary != 0 &&
    runeCount summary ≤ 4096 && runeCount publicSummary != 0 && runeCount publicSummary ≤ 1024 &&
    sha256Hex contextManifest) (.invalidFamilyBody Family.case.schema)

def validateAdviceBody (ms : Members) : Except Refusal Unit := do
  let label := bodyLabel .advice
  requireExactMembers ms adviceBodyMembers label
  let caseCommitment ← requiredString ms (text "case_commitment") label
  let words ← requiredString ms (text "text") label
  let publicSummary ← requiredString ms (text "public_summary") label
  ensure (sha256Hex caseCommitment && runeCount words != 0 && runeCount words ≤ 8192 &&
    runeCount publicSummary != 0 && runeCount publicSummary ≤ 1024)
    (.invalidFamilyBody Family.advice.schema)

def validateBody : Except Refusal Unit :=
  match e.schema with
  | .registry => validateRegistryBody e.body e.registryRevision e.routingEpoch
  | .case => do
    ensure (utf8Valid e.body) .invalidUtf8Body
    let ms ← exactObject e.body (bodyLabel .case)
    validateCaseBody ms
  | .advice => do
    ensure (utf8Valid e.body) .invalidUtf8Body
    let ms ← exactObject e.body (bodyLabel .advice)
    validateAdviceBody ms

/-- The header rules of `Validate` that precede the clock. -/
def Envelope.checkHeader : Except Refusal Unit := do
  ensure (validOpaqueID e.id && validOpaqueID e.authorKeyID && e.signatureAlg == text "ed25519" &&
    !e.body.isEmpty) .missingRequiredField
  match e.schema with
  | .registry => do
    ensure e.caseID.isEmpty (.forbiddenMember (text "case_id"))
    ensure e.registryHash.isEmpty (.forbiddenMember (text "registry_hash"))
  | .case | .advice =>
    ensure (validOpaqueID e.caseID && !e.registryHash.isEmpty) .missingRequiredField

/-- The rules of `Validate` that follow it. -/
def Envelope.checkContent : Except Refusal Unit := do
  ensure (0 ≤ e.routingEpoch && 0 ≤ e.registryRevision && e.routingEpoch ≤ maxSafeInteger &&
    e.registryRevision ≤ maxSafeInteger) .invalidRevision
  ensure (e.schema == .registry || sha256Hex e.registryHash) .invalidRegistryHash
  validateNumbers e.body
  validateBody e

def Envelope.validate (now : Time) : Except Refusal Unit := do
  e.checkHeader
  let emitted ← orFail (parseTimestamp e.emittedAt) .invalidEmittedAt
  let expires ← orFail (parseTimestamp e.expiresAt) .invalidExpiresAt
  ensure (emitted ≤ now) .emittedInFuture
  ensure (now < expires) .expired
  ensure (emitted < expires) .invalidTimeRange
  e.checkContent

/-! ### Signatures and commitments -/

structure VerifyingKey where
  publicKey : Bytes
  sized : publicKey.length = publicKeySize
  deriving DecidableEq

def newEd25519VerifyingKey (publicKey : Bytes) : Option VerifyingKey :=
  if h : publicKey.length = publicKeySize then some ⟨publicKey, h⟩ else none

/-- `invalid` is ErrInvalidEnvelope with its cause. -/
inductive VerifyError where
  | invalid (cause : Refusal)
  | malformedStrip
  | canonicalForm
  | signatureEncoding
  | unknownAuthor
  | signatureMismatch
  deriving DecidableEq

/-- `errors.Is(err, ErrExpiredEnvelope)`. -/
def VerifyError.isExpired (e : VerifyError) : Bool := e == .invalid .expired

/-- `errors.Is(err, ErrInvalidEnvelope)`. -/
def VerifyError.isInvalid : VerifyError → Bool
  | .invalid _ | .malformedStrip | .canonicalForm => true
  | .signatureEncoding | .unknownAuthor | .signatureMismatch => false

def signatureSize : ℕ := 64

def decodeAndValidate (now : Time) : Except VerifyError Envelope := do
  let e ← (decodeStrictEnvelope raw).mapError .invalid
  (e.validate now).mapError .invalid
  pure e

variable (p : Primitives)

/-- The bytes that are signed: the signature removed, then `canonical`. -/
def Primitives.signingBytes (raw : Bytes) : Except VerifyError Bytes := do
  let unsigned ← orFail (stripUnsignedTopLevel raw) .malformedStrip
  (rawGuard unsigned).mapError .invalid
  orFail (p.jcs unsigned) .canonicalForm

/-- What `Verify` checks once the envelope is valid. -/
def Primitives.checkSignature (raw : Bytes) (keys : List (Bytes × VerifyingKey)) (e : Envelope) :
    Except VerifyError Unit := do
  let signature ← (decodeCanonicalBase64 e.signature signatureSize).mapError fun _ => .signatureEncoding
  let message ← p.signingBytes raw
  let key ← orFail (keys.find? fun k => k.1 == e.authorKeyID) .unknownAuthor
  ensure (p.ed25519Verify key.2.publicKey message signature) .signatureMismatch

def Primitives.verify (raw : Bytes) (keys : List (Bytes × VerifyingKey)) (now : Time) :
    Except VerifyError Envelope := do
  let e ← decodeAndValidate raw now
  p.checkSignature raw keys e
  pure e

def Primitives.commitmentOf (raw : Bytes) : Except VerifyError Bytes := do
  let message ← p.signingBytes raw
  pure (text "sha256:" ++ hexEncode (p.sha256 message))

def Primitives.envelopeCommitment (raw : Bytes) (now : Time) : Except VerifyError Bytes := do
  let _ ← decodeAndValidate raw now
  p.commitmentOf raw

/-! ### What does not depend on the clock -/

/-- Every rule of `Validate` but the place of the clock in the signed interval. -/
structure Envelope.Sound : Prop where
  header : e.checkHeader = .ok ()
  content : e.checkContent = .ok ()

def Envelope.LiveAt (now : Time) : Prop :=
  ∃ emitted expires, parseTimestamp e.emittedAt = some emitted ∧
    parseTimestamp e.expiresAt = some expires ∧ emitted ≤ now ∧ now < expires

theorem validate_eq_ok (now : Time) (u : Unit) :
    e.validate now = .ok u ↔ e.Sound ∧ e.LiveAt now := by
  unfold Envelope.validate
  simp only [bind_eq_ok, orFail_eq_ok, ensure_eq_ok, decide_eq_true_eq]
  constructor
  · rintro ⟨_, hheader, emitted, hemitted, expires, hexpires, _, hpast, _, hfuture, _, -, hcontent⟩
    exact ⟨⟨hheader, hcontent⟩, emitted, expires, hemitted, hexpires, hpast, hfuture⟩
  · rintro ⟨⟨hheader, hcontent⟩, emitted, expires, hemitted, hexpires, hpast, hfuture⟩
    exact ⟨(), hheader, emitted, hemitted, expires, hexpires, (), hpast, (), hfuture, (),
      lt_of_le_of_lt hpast hfuture, hcontent⟩

theorem decodeAndValidate_eq_ok (now : Time) (e : Envelope) : decodeAndValidate raw now = .ok e ↔
    decodeStrictEnvelope raw = .ok e ∧ e.Sound ∧ e.LiveAt now := by
  unfold decodeAndValidate
  simp only [bind_eq_ok, mapError_eq_ok, validate_eq_ok]
  constructor
  · rintro ⟨e', hdecode, _, ⟨hsound, hlive⟩, he⟩
    cases he
    exact ⟨hdecode, hsound, hlive⟩
  · rintro ⟨hdecode, hsound, hlive⟩
    exact ⟨e, hdecode, (), ⟨hsound, hlive⟩, rfl⟩

structure Primitives.Authentic (raw : Bytes) (keys : List (Bytes × VerifyingKey)) (e : Envelope) :
    Prop where
  decoded : decodeStrictEnvelope raw = .ok e
  sound : e.Sound
  signed : p.checkSignature raw keys e = .ok ()

theorem Primitives.Authentic.header {p : Primitives} {raw : Bytes}
    {keys : List (Bytes × VerifyingKey)} {e : Envelope} (h : p.Authentic raw keys e) :
    readHeader raw = .ok e.header := by
  unfold readHeader
  rw [h.decoded]
  rfl

theorem verify_eq_ok (raw : Bytes) (keys : List (Bytes × VerifyingKey)) (now : Time)
    (e : Envelope) : p.verify raw keys now = .ok e ↔ p.Authentic raw keys e ∧ e.LiveAt now := by
  unfold Primitives.verify
  simp only [bind_eq_ok, decodeAndValidate_eq_ok]
  constructor
  · rintro ⟨e', ⟨hdecode, hsound, hlive⟩, _, hsigned, he⟩
    cases he
    exact ⟨⟨hdecode, hsound, hsigned⟩, hlive⟩
  · rintro ⟨⟨hdecode, hsound, hsigned⟩, hlive⟩
    exact ⟨e, ⟨hdecode, hsound, hlive⟩, (), hsigned, rfl⟩

theorem envelopeCommitment_eq_ok {p : Primitives} {raw : Bytes} {now : Time} {c : Bytes} :
    p.envelopeCommitment raw now = .ok c ↔
      (∃ e, decodeStrictEnvelope raw = .ok e ∧ e.Sound ∧ e.LiveAt now) ∧
        p.commitmentOf raw = .ok c := by
  unfold Primitives.envelopeCommitment
  simp only [bind_eq_ok, decodeAndValidate_eq_ok]
  constructor
  · rintro ⟨e, he, hc⟩
    exact ⟨⟨e, he⟩, hc⟩
  · rintro ⟨⟨e, he⟩, hc⟩
    exact ⟨e, he, hc⟩

/-! ### Bodies -/

theorem caseBodyMembers_fold :
    ∀ a ∈ caseBodyMembers, ∀ b ∈ caseBodyMembers, foldName a = foldName b → a = b := by
  decide +kernel

theorem adviceBodyMembers_fold :
    ∀ a ∈ adviceBodyMembers, ∀ b ∈ adviceBodyMembers, foldName a = foldName b → a = b := by
  decide +kernel

theorem Envelope.Sound.caseBody {e : Envelope} (h : e.Sound) (hfamily : e.schema = .case) :
    ∃ ms, unmarshal e.body = some (.obj ms) ∧ validateCaseBody ms = .ok () := by
  have hcontent := h.content
  unfold Envelope.checkContent at hcontent
  simp only [bind_eq_ok, validateBody, hfamily] at hcontent
  obtain ⟨_, -, _, -, _, -, _, -, ms, hms, hbody⟩ := hcontent
  exact ⟨ms, exactObject_ok hms, hbody⟩

theorem Envelope.Sound.adviceBody {e : Envelope} (h : e.Sound) (hfamily : e.schema = .advice) :
    ∃ ms, unmarshal e.body = some (.obj ms) ∧ validateAdviceBody ms = .ok () := by
  have hcontent := h.content
  unfold Envelope.checkContent at hcontent
  simp only [bind_eq_ok, validateBody, hfamily] at hcontent
  obtain ⟨_, -, _, -, _, -, _, -, ms, hms, hbody⟩ := hcontent
  exact ⟨ms, exactObject_ok hms, hbody⟩

theorem Envelope.Sound.id_ne_nil {e : Envelope} (h : e.Sound) : e.id ≠ [] := by
  have hheader := h.header
  unfold Envelope.checkHeader at hheader
  simp only [bind_eq_ok, ensure_eq_ok, Bool.and_eq_true] at hheader
  obtain ⟨_, ⟨⟨⟨hid, -⟩, -⟩, -⟩, -⟩ := hheader
  rintro hnil
  rw [hnil] at hid
  exact absurd hid (by decide)

end Snagline.Ssp
