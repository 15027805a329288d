import Snagline.Ssp.Timestamp
import Snagline.Ssp.Wire

/-!
# The registry family (ssp/registry_family.go)

The frozen shape of a registry body: its members and their JSON types, closed
vocabularies, bounded integers and arrays, and the mirrors of revision and
routing epoch in the envelope header.
-/

namespace Snagline.Ssp
open Kit Json

def maxRegistryDomains : ℕ := 4096
def maxRegistryPrincipals : ℕ := 16384
def maxRegistryEdges : ℕ := 16384
def maxRegistryKeys : ℕ := 32768
def maxOpaqueIDArrayItems : ℕ := 16384
def publicKeySize : ℕ := 32

/-- `sha256HexPattern`: `^sha256:[0-9a-f]{64}$`. -/
def sha256Hex (value : Bytes) : Bool :=
  value.length == 71 && value.take 7 == [115, 104, 97, 50, 53, 54, 58] &&
    (value.drop 7).all isLowerHex

def validOpaqueID (value : Bytes) : Bool :=
  utf8Valid value && 1 ≤ runeCount value && runeCount value ≤ 512

/-! ### Families -/

inductive Family where
  | case | advice | registry
  deriving DecidableEq

def Family.schema : Family → Bytes
  | .case => text "ssp.case.v1"
  | .advice => text "ssp.advice.v1"
  | .registry => text "ssp.registry.v1"

def Family.ofSchema (schema : Bytes) : Option Family :=
  [Family.case, .advice, .registry].find? fun f => f.schema = schema

/-! ### Entries -/

structure DomainEntry where
  domain : Bytes
  dispatcherPrincipalID : Bytes
  issuerEdgeIDs : List Bytes
  specialistPrincipalIDs : List Bytes
  families : List Bytes
  routingEpoch : ℤ
  deriving DecidableEq

structure PrincipalEntry where
  principalID : Bytes
  roles : List Bytes
  sspKeyIDs : List Bytes
  edgeIDs : List Bytes
  deriving DecidableEq

structure EdgeEntry where
  edgeID : Bytes
  generation : ℤ
  principalID : Bytes
  deriving DecidableEq

structure KeyEntry where
  keyID : Bytes
  publicKey : Bytes
  principalID : Bytes
  usage : Bytes
  notBefore : Bytes
  expiresAt : Bytes
  revokedAt : Option Bytes
  deriving DecidableEq

def decodeDomain (v : Json) : Option DomainEntry := do
  let ms ← structMembers v
  some ⟨← fieldString ms (text "domain"), ← fieldString ms (text "dispatcher_principal_id"),
    ← fieldStrings ms (text "issuer_edge_ids"), ← fieldStrings ms (text "specialist_principal_ids"),
    ← fieldStrings ms (text "families"), ← fieldInt64 ms (text "routing_epoch")⟩

def decodePrincipal (v : Json) : Option PrincipalEntry := do
  let ms ← structMembers v
  some ⟨← fieldString ms (text "principal_id"), ← fieldStrings ms (text "roles"),
    ← fieldStrings ms (text "ssp_key_ids"), ← fieldStrings ms (text "edge_ids")⟩

def decodeEdge (v : Json) : Option EdgeEntry := do
  let ms ← structMembers v
  some ⟨← fieldString ms (text "edge_id"), ← fieldInt64 ms (text "generation"),
    ← fieldString ms (text "principal_id")⟩

def decodeKey (v : Json) : Option KeyEntry := do
  let ms ← structMembers v
  some ⟨← fieldString ms (text "key_id"), ← fieldString ms (text "public_key"),
    ← fieldString ms (text "principal_id"), ← fieldString ms (text "usage"),
    ← fieldString ms (text "not_before"), ← fieldString ms (text "expires_at"),
    ← fieldStringPtr ms (text "revoked_at")⟩

/-! ### Typed members -/

structure MemberRule where
  name : Bytes
  kind : JsonType
  optional : Bool := false
  nullable : Bool := false

def classifyJSON : Json → JsonType
  | .null => .null
  | .bool _ => .bool
  | .num _ => .number
  | .str _ => .string
  | .arr _ => .array
  | .obj _ => .object

def checkRule (ms : Members) (what : Bytes) (rule : MemberRule) : Except Refusal Unit :=
  match lookup ms rule.name with
  | none => if rule.optional then .ok () else .error (.isMissing what rule.name)
  | some (_, v) =>
    if classifyJSON v = rule.kind ∨ (rule.nullable ∧ classifyJSON v = .null) then .ok ()
    else .error (.memberType what rule.name (classifyJSON v) rule.kind)

/-- `requireTypedMembers`, on the decoded document. -/
def requireTypedMembers (doc : Json) (what : Bytes) (rules : List MemberRule) :
    Except Refusal Unit := do
  let ms ← orFail (structMembers doc) (.invalidDocument what)
  rules.forM (checkRule ms what)
  match ms.find? fun m => !(rules.map MemberRule.name).contains m.1 with
  | some m => .error (.unknownMember what m.1)
  | none => .ok ()

/-- `checkIntegerRange`. -/
def checkIntegerRange (what field : Bytes) (value min : ℤ) : Except Refusal Unit :=
  ensure (min ≤ value && value ≤ maxSafeInteger) (.invalidField what field)

/-- The loop of `validateOpaqueIDArray`, with the values seen. -/
def checkOpaqueIDs (what field : Bytes) : List Bytes → List Bytes → Except Refusal Unit
  | _, [] => .ok ()
  | seen, v :: vs => do
    ensure (validOpaqueID v) (.invalidEntry what field)
    ensure (!seen.contains v) (.duplicateEntry what field)
    checkOpaqueIDs what field (v :: seen) vs

def validateOpaqueIDArray (what field : Bytes) (values : List Bytes) : Except Refusal Unit := do
  ensure (values.length ≤ maxOpaqueIDArrayItems) (.tooManyEntries (what ++ 32 :: field)
    maxOpaqueIDArrayItems)
  checkOpaqueIDs what field [] values

def checkFamilies (what : Bytes) : List Bytes → List Bytes → Except Refusal Unit
  | _, [] => .ok ()
  | seen, f :: fs => do
    ensure (f == Family.case.schema || f == Family.advice.schema) (.unsupportedFamily what f)
    ensure (!seen.contains f) (.duplicateFamily what f)
    checkFamilies what (f :: seen) fs

def validateRouteFamilies (what : Bytes) (families : List Bytes) : Except Refusal Unit := do
  ensure (families.length == 2) (.familyCount what)
  checkFamilies what [] families
  ensure (families.contains Family.case.schema) (.missingFamily what Family.case.schema)
  ensure (families.contains Family.advice.schema) (.missingFamily what Family.advice.schema)

def parseRegistryTimestamp (what field value : Bytes) : Except Refusal Time :=
  orFail (parseTimestamp value) (.invalidField what field)

/-! ### Records -/

def entryName (group : Bytes) (index : ℕ) : Bytes := group ++ 91 :: decimalNat index ++ [93]

def validateDomainRoute (index : ℕ) (doc : Json) : Except Refusal Unit := do
  let what := entryName (text "domains") index
  requireTypedMembers doc what
    [⟨text "domain", .string, false, false⟩, ⟨text "dispatcher_principal_id", .string, false, false⟩,
      ⟨text "issuer_edge_ids", .array, false, false⟩,
      ⟨text "specialist_principal_ids", .array, false, false⟩,
      ⟨text "families", .array, false, false⟩, ⟨text "routing_epoch", .number, false, false⟩]
  let route ← orFail (decodeDomain doc) (.invalidDocument what)
  ensure (validOpaqueID route.domain) (.invalidField what (text "domain"))
  ensure (validOpaqueID route.dispatcherPrincipalID)
    (.invalidField what (text "dispatcher_principal_id"))
  ensure (!route.issuerEdgeIDs.isEmpty) (.emptyArray what (text "issuer_edge_ids"))
  validateOpaqueIDArray what (text "issuer_edge_ids") route.issuerEdgeIDs
  validateOpaqueIDArray what (text "specialist_principal_ids") route.specialistPrincipalIDs
  validateRouteFamilies what route.families
  checkIntegerRange what (text "routing_epoch") route.routingEpoch 0

def validatePrincipalRecord (index : ℕ) (doc : Json) : Except Refusal Unit := do
  let what := entryName (text "principals") index
  requireTypedMembers doc what
    [⟨text "principal_id", .string, false, false⟩, ⟨text "roles", .array, false, false⟩,
      ⟨text "ssp_key_ids", .array, false, false⟩, ⟨text "edge_ids", .array, false, false⟩]
  let record ← orFail (decodePrincipal doc) (.invalidDocument what)
  ensure (validOpaqueID record.principalID) (.invalidField what (text "principal_id"))
  validateOpaqueIDArray what (text "roles") record.roles
  validateOpaqueIDArray what (text "ssp_key_ids") record.sspKeyIDs
  validateOpaqueIDArray what (text "edge_ids") record.edgeIDs

def validateEdgeRecord (index : ℕ) (doc : Json) : Except Refusal Unit := do
  let what := entryName (text "edges") index
  requireTypedMembers doc what
    [⟨text "edge_id", .string, false, false⟩, ⟨text "principal_id", .string, false, false⟩,
      ⟨text "generation", .number, false, false⟩]
  let record ← orFail (decodeEdge doc) (.invalidDocument what)
  ensure (validOpaqueID record.edgeID) (.invalidField what (text "edge_id"))
  ensure (validOpaqueID record.principalID) (.invalidField what (text "principal_id"))
  checkIntegerRange what (text "generation") record.generation 1

/-- `registryKeyUsages`. -/
def registryKeyUsages : List Bytes := [text "advice", text "edge", text "registry"]

def validateKeyRecord (index : ℕ) (doc : Json) : Except Refusal Unit := do
  let what := entryName (text "keys") index
  requireTypedMembers doc what
    [⟨text "key_id", .string, false, false⟩, ⟨text "public_key", .string, false, false⟩,
      ⟨text "principal_id", .string, false, false⟩, ⟨text "usage", .string, false, false⟩,
      ⟨text "not_before", .string, false, false⟩, ⟨text "expires_at", .string, false, false⟩,
      ⟨text "revoked_at", .string, true, true⟩]
  let record ← orFail (decodeKey doc) (.invalidDocument what)
  ensure (validOpaqueID record.keyID) (.invalidField what (text "key_id"))
  ensure (validOpaqueID record.principalID) (.invalidField what (text "principal_id"))
  ensure (decodeCanonicalBase64 record.publicKey publicKeySize).isOk
    (.invalidField what (text "public_key"))
  ensure (registryKeyUsages.contains record.usage) (.invalidField what (text "usage"))
  let notBefore ← parseRegistryTimestamp what (text "not_before") record.notBefore
  let expiresAt ← parseRegistryTimestamp what (text "expires_at") record.expiresAt
  ensure (notBefore < expiresAt) (.invalidWindow what)
  match record.revokedAt with
  | none => pure ()
  | some revoked => do
    let _ ← parseRegistryTimestamp what (text "revoked_at") revoked
    pure ()

/-! ### The body -/

structure RegistryDocument where
  revision : ℤ
  routingEpoch : ℤ
  previousCommitment : Option Bytes
  domains : List (Bytes × Json)
  principals : List (Bytes × Json)
  edges : List (Bytes × Json)
  keys : List (Bytes × Json)

def decodeRegistryDocument (doc : Json) : Option RegistryDocument := do
  let ms ← structMembers doc
  some ⟨← fieldInt64 ms (text "revision"), ← fieldInt64 ms (text "routing_epoch"),
    ← fieldStringPtr ms (text "previous_commitment"), ← fieldItems ms (text "domains"),
    ← fieldItems ms (text "principals"), ← fieldItems ms (text "edges"),
    ← fieldItems ms (text "keys")⟩

def validateGroup (group : Bytes) (max : ℕ) (validate : ℕ → Json → Except Refusal Unit)
    (entries : List (Bytes × Json)) : Except Refusal Unit := do
  ensure (entries.length ≤ max) (.tooManyEntries group max)
  entries.zipIdx.forM fun entry => validate entry.2 entry.1.2

def validateRegistryBody (raw : Bytes) (registryRevision routingEpoch : ℤ) :
    Except Refusal Unit := do
  let what := text "ssp.registry.v1 body"
  let doc ← orFail (unmarshal raw) (.invalidDocument what)
  requireTypedMembers doc what
    [⟨text "revision", .number, false, false⟩, ⟨text "routing_epoch", .number, false, false⟩,
      ⟨text "previous_commitment", .string, false, true⟩, ⟨text "domains", .array, false, false⟩,
      ⟨text "principals", .array, false, false⟩, ⟨text "edges", .array, false, false⟩,
      ⟨text "keys", .array, false, false⟩]
  let body ← orFail (decodeRegistryDocument doc) (.invalidDocument what)
  checkIntegerRange what (text "revision") body.revision 0
  checkIntegerRange what (text "routing_epoch") body.routingEpoch 0
  ensure (body.previousCommitment.all sha256Hex) .previousCommitment
  ensure (body.revision == registryRevision) .revisionMirror
  ensure (body.routingEpoch == routingEpoch) .routingEpochMirror
  validateGroup (text "domains") maxRegistryDomains validateDomainRoute body.domains
  validateGroup (text "principals") maxRegistryPrincipals validatePrincipalRecord body.principals
  validateGroup (text "edges") maxRegistryEdges validateEdgeRecord body.edges
  validateGroup (text "keys") maxRegistryKeys validateKeyRecord body.keys

end Snagline.Ssp
