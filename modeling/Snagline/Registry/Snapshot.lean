import Snagline.Kit.Table
import Snagline.Ssp.Envelope

/-!
# Registry snapshots (registry/registry.go, epoch.go, registrygraph/validate.go)

A verified registry body, decoded: domains with their routes, principals, edges
and keys. The graph rules make the four identifiers unique and every reference
resolve in both directions.
-/

namespace Snagline.Registry
open Kit Json Ssp

inductive KeyUsage where
  | advice | edge | registry
  | other (name : Bytes)
  deriving DecidableEq

def KeyUsage.ofName (name : Bytes) : KeyUsage :=
  if name = text "advice" then .advice
  else if name = text "edge" then .edge
  else if name = text "registry" then .registry
  else .other name

structure KeyRecord where
  keyID : Bytes
  publicKey : VerifyingKey
  principalID : Bytes
  usage : KeyUsage
  notBefore : Time
  expiresAt : Time
  revokedAt : Option Time
  deriving DecidableEq

def KeyRecord.usable (k : KeyRecord) (now : Time) : Bool :=
  k.revokedAt.all (now < ·) && k.notBefore ≤ now && now < k.expiresAt

structure Snapshot where
  revision : ℤ
  routingEpoch : ℤ
  previousCommitment : Bytes
  commitment : Bytes
  authorKeyID : Bytes
  expiresAt : Time
  domains : List DomainEntry
  principals : List PrincipalEntry
  edges : List EdgeEntry
  keys : List KeyRecord
  deriving DecidableEq

/-- The entry a map filled in list order holds under `id`. -/
def entry {ρ : Type} (key : ρ → Bytes) (id : Bytes) (rows : List ρ) : Option ρ :=
  Table.find key id rows.reverse

namespace Snapshot

def domain (s : Snapshot) (id : Bytes) : Option DomainEntry := entry DomainEntry.domain id s.domains
def principal (s : Snapshot) (id : Bytes) : Option PrincipalEntry :=
  entry PrincipalEntry.principalID id s.principals
def edge (s : Snapshot) (id : Bytes) : Option EdgeEntry := entry EdgeEntry.edgeID id s.edges
def key (s : Snapshot) (id : Bytes) : Option KeyRecord := entry KeyRecord.keyID id s.keys

def authorizesCaseIssuer (s : Snapshot) (domain edgeID : Bytes) : Bool :=
  (s.domain domain).any fun route => !edgeID.isEmpty && route.issuerEdgeIDs.contains edgeID

def authorizesCaseIssuerGeneration (s : Snapshot) (domain edgeID : Bytes) (generation : ℤ) : Bool :=
  0 < generation && s.authorizesCaseIssuer domain edgeID &&
    (s.edge edgeID).any fun e => e.generation == generation

end Snapshot

inductive EpochVerdict where
  | current | historical | future
  deriving DecidableEq

namespace Snapshot

/-- `EvaluateEpoch`; `none` is ErrUnknownDomain. -/
def evaluateEpoch (s : Snapshot) (domain : Bytes) (epoch : ℤ) : Option EpochVerdict :=
  (s.domain domain).map fun route =>
    if epoch = route.routingEpoch then .current
    else if epoch < route.routingEpoch then .historical
    else .future

def machineAcceptableEpoch (s : Snapshot) (domain : Bytes) (epoch : ℤ) : Bool :=
  s.evaluateEpoch domain epoch == some .current

def checkBinding (s : Snapshot) (revision : ℤ) (commitment : Bytes) : Bool :=
  revision == s.revision && commitment == s.commitment

def expired (s : Snapshot) (now : Time) : Bool := s.expiresAt != zeroTime && s.expiresAt ≤ now

end Snapshot

/-! ### The body -/

structure RegistryBody where
  revision : ℤ
  routingEpoch : ℤ
  previousCommitment : Option Bytes
  domains : List DomainEntry
  principals : List PrincipalEntry
  edges : List EdgeEntry
  keys : List KeyEntry
  deriving DecidableEq

/-- `json.Unmarshal` into `registryBody`. The graph package decodes the same
bytes into narrower structs; on a validated body both succeed. -/
def decodeRegistryBody (raw : Bytes) : Option RegistryBody := do
  let doc ← unmarshal raw
  let d ← decodeRegistryDocument doc
  some ⟨d.revision, d.routingEpoch, d.previousCommitment,
    ← d.domains.mapM fun e => decodeDomain e.2, ← d.principals.mapM fun e => decodePrincipal e.2,
    ← d.edges.mapM fun e => decodeEdge e.2, ← d.keys.mapM fun e => decodeKey e.2⟩

inductive RegistryError where
  | decodeBody
  | duplicateDomain (id : Bytes)
  | duplicatePrincipal (id : Bytes)
  | duplicateEdge (id : Bytes)
  | duplicateKey (id : Bytes)
  | dispatcherUnresolved (domain id : Bytes)
  | dispatcherRole (domain id : Bytes)
  | dispatcherKey (domain id : Bytes)
  | specialistUnresolved (domain id : Bytes)
  | specialistRole (domain id : Bytes)
  | issuerUnresolved (domain id : Bytes)
  | issuerKey (domain id : Bytes)
  | keyUnresolved (principal id : Bytes)
  | keyOwner (principal id owner : Bytes)
  | edgeUnresolved (principal id : Bytes)
  | edgeOwner (principal id owner : Bytes)
  | edgePrincipal (edge principal : Bytes)
  | edgeRole (edge principal : Bytes)
  | edgeUnclaimed (edge principal : Bytes)
  | keyPrincipal (key principal : Bytes)
  | keyUnclaimed (key principal : Bytes)
  | registryAuthority (key principal : Bytes)
  | expiresAt
  | publicKey (key : Bytes)
  | keyNotBefore (key : Bytes)
  | keyExpiresAt (key : Bytes)
  | keyRevokedAt (key : Bytes)
  deriving DecidableEq

/-! ### The graph -/

def checkDistinct {ρ : Type} (key : ρ → Bytes) (e : Bytes → RegistryError) :
    List Bytes → List ρ → Except RegistryError Unit
  | _, [] => .ok ()
  | seen, r :: rows => do
    ensure (!seen.contains (key r)) (e (key r))
    checkDistinct key e (key r :: seen) rows

namespace RegistryBody

variable (b : RegistryBody)

def principal (id : Bytes) : Option PrincipalEntry :=
  entry PrincipalEntry.principalID id b.principals
def edge (id : Bytes) : Option EdgeEntry := entry EdgeEntry.edgeID id b.edges
def key (id : Bytes) : Option KeyEntry := entry KeyEntry.keyID id b.keys

def principalHasUsage (owner : PrincipalEntry) (usage : Bytes) : Bool :=
  owner.sspKeyIDs.any fun id =>
    (b.key id).any fun k => k.principalID == owner.principalID && k.usage == usage

/-- An edge whose principal is unknown is owned by the zero record here; its own
check comes later. -/
def ownerOf (principalID : Bytes) : PrincipalEntry :=
  (b.principal principalID).getD ⟨[], [], [], []⟩

def checkRoute (route : DomainEntry) : Except RegistryError Unit := do
  let dispatcher ← orFail (b.principal route.dispatcherPrincipalID)
    (.dispatcherUnresolved route.domain route.dispatcherPrincipalID)
  ensure (dispatcher.roles.contains (text "dispatcher"))
    (.dispatcherRole route.domain route.dispatcherPrincipalID)
  ensure (b.principalHasUsage dispatcher (text "advice"))
    (.dispatcherKey route.domain route.dispatcherPrincipalID)
  route.specialistPrincipalIDs.forM fun id => do
    let specialist ← orFail (b.principal id) (.specialistUnresolved route.domain id)
    ensure (specialist.roles.contains (text "specialist")) (.specialistRole route.domain id)
  route.issuerEdgeIDs.forM fun id => do
    let registered ← orFail (b.edge id) (.issuerUnresolved route.domain id)
    ensure (b.principalHasUsage (b.ownerOf registered.principalID) (text "edge"))
      (.issuerKey route.domain id)

def checkPrincipal (p : PrincipalEntry) : Except RegistryError Unit := do
  p.sspKeyIDs.forM fun id => do
    let registered ← orFail (b.key id) (.keyUnresolved p.principalID id)
    ensure (registered.principalID == p.principalID)
      (.keyOwner p.principalID id registered.principalID)
  p.edgeIDs.forM fun id => do
    let registered ← orFail (b.edge id) (.edgeUnresolved p.principalID id)
    ensure (registered.principalID == p.principalID)
      (.edgeOwner p.principalID id registered.principalID)

def checkEdge (e : EdgeEntry) : Except RegistryError Unit := do
  let owner ← orFail (b.principal e.principalID) (.edgePrincipal e.edgeID e.principalID)
  ensure (owner.roles.contains (text "edge")) (.edgeRole e.edgeID e.principalID)
  ensure (owner.edgeIDs.contains e.edgeID) (.edgeUnclaimed e.edgeID e.principalID)

def checkKey (k : KeyEntry) : Except RegistryError Unit := do
  let owner ← orFail (b.principal k.principalID) (.keyPrincipal k.keyID k.principalID)
  ensure (owner.sspKeyIDs.contains k.keyID) (.keyUnclaimed k.keyID k.principalID)
  ensure (k.usage != text "registry" || owner.roles.contains (text "registry-authority"))
    (.registryAuthority k.keyID k.principalID)

/-- `registrygraph.Validate`. -/
def checkGraph : Except RegistryError Unit := do
  checkDistinct DomainEntry.domain .duplicateDomain [] b.domains
  checkDistinct PrincipalEntry.principalID .duplicatePrincipal [] b.principals
  checkDistinct EdgeEntry.edgeID .duplicateEdge [] b.edges
  checkDistinct KeyEntry.keyID .duplicateKey [] b.keys
  b.domains.forM b.checkRoute
  b.principals.forM b.checkPrincipal
  b.edges.forM b.checkEdge
  b.keys.forM b.checkKey

end RegistryBody

/-! ### decodeRegistry -/

def decodePublicKey (encoded : Bytes) : Except Unit Bytes :=
  match Base64.decodeStrict encoded with
  | none => .error ()
  | some raw =>
    if raw.length != publicKeySize || Base64.encode raw != encoded then .error () else .ok raw

def decodeKeyRecord (k : KeyEntry) : Except RegistryError KeyRecord := do
  let bytes ← (decodePublicKey k.publicKey).mapError fun _ => .publicKey k.keyID
  let publicKey ← orFail (newEd25519VerifyingKey bytes) (.publicKey k.keyID)
  let notBefore ← orFail (parseTimestamp k.notBefore) (.keyNotBefore k.keyID)
  let expiresAt ← orFail (parseTimestamp k.expiresAt) (.keyExpiresAt k.keyID)
  let revokedAt ← match k.revokedAt with
    | none => pure none
    | some revoked => do
      let instant ← orFail (parseTimestamp revoked) (.keyRevokedAt k.keyID)
      pure (some instant)
  pure ⟨k.keyID, publicKey, k.principalID, KeyUsage.ofName k.usage, notBefore, expiresAt, revokedAt⟩

def decodeRegistry (e : Envelope) (commitment : Bytes) : Except RegistryError Snapshot := do
  let body ← orFail (decodeRegistryBody e.body) .decodeBody
  body.checkGraph
  let expiresAt ← orFail (parseTimestamp e.expiresAt) .expiresAt
  let keys ← body.keys.mapM decodeKeyRecord
  pure ⟨body.revision, body.routingEpoch, body.previousCommitment.getD [], commitment,
    e.authorKeyID, expiresAt, body.domains, body.principals, body.edges, keys⟩

/-! ### What a decoded snapshot satisfies -/

theorem entry_eq_some {ρ : Type} {key : ρ → Bytes} {id : Bytes} {rows : List ρ} {r : ρ}
    (h : entry key id rows = some r) : r ∈ rows ∧ key r = id := by
  obtain ⟨hmem, hkey⟩ := Table.find_eq_some h
  exact ⟨List.mem_reverse.mp hmem, hkey⟩

theorem decodeRegistry_ok {e : Envelope} {commitment : Bytes} {s : Snapshot}
    (h : decodeRegistry e commitment = .ok s) :
    s.commitment = commitment ∧ parseTimestamp e.expiresAt = some s.expiresAt ∧
      ∃ body : RegistryBody, body.checkGraph = .ok () ∧ s.principals = body.principals ∧
        s.edges = body.edges := by
  unfold decodeRegistry at h
  obtain ⟨body, -, h⟩ := orFail_bind_eq_ok.mp h
  obtain ⟨_, hgraph, h⟩ := bind_eq_ok.mp h
  obtain ⟨expiresAt, hexpires, h⟩ := orFail_bind_eq_ok.mp h
  obtain ⟨keys, -, h⟩ := bind_eq_ok.mp h
  cases h
  exact ⟨rfl, hexpires, body, hgraph, rfl, rfl⟩

theorem checkGraph_edge {body : RegistryBody} (h : body.checkGraph = .ok ()) {e : EdgeEntry}
    (he : e ∈ body.edges) :
    ∃ owner, body.principal e.principalID = some owner ∧
      owner.edgeIDs.contains e.edgeID = true := by
  unfold RegistryBody.checkGraph at h
  simp only [bind_eq_ok] at h
  obtain ⟨_, -, _, -, _, -, _, -, _, -, _, -, _, hedges, -⟩ := h
  have hedge := forM_eq_ok.mp hedges e he
  unfold RegistryBody.checkEdge at hedge
  simp only [orFail_bind_eq_ok, ensure_bind_eq_ok, ensure_eq_ok] at hedge
  obtain ⟨owner, howner, -, hclaims⟩ := hedge
  exact ⟨owner, howner, hclaims⟩

theorem decodeRegistry_edge {e : Envelope} {commitment : Bytes} {s : Snapshot}
    (h : decodeRegistry e commitment = .ok s) {id : Bytes} {edge : EdgeEntry}
    (hedge : s.edge id = some edge) {owner : PrincipalEntry}
    (howner : s.principal edge.principalID = some owner) : owner.edgeIDs.contains id = true := by
  obtain ⟨-, -, body, hgraph, hprincipals, hedges⟩ := decodeRegistry_ok h
  obtain ⟨hmem, hid⟩ := entry_eq_some hedge
  rw [hedges] at hmem
  obtain ⟨owner', howner', hclaims⟩ := checkGraph_edge hgraph hmem
  have hsame : some owner = some owner' := by
    rw [← howner, ← howner']
    exact congrArg (entry PrincipalEntry.principalID edge.principalID) hprincipals
  rw [Option.some.inj hsame, ← hid]
  exact hclaims

namespace Snapshot

theorem authorizesCaseIssuerGeneration_eq_true (s : Snapshot) (domain edgeID : Bytes)
    (generation : ℤ) :
    s.authorizesCaseIssuerGeneration domain edgeID generation = true ↔
      0 < generation ∧
      (∃ route, s.domain domain = some route ∧ edgeID ≠ [] ∧ edgeID ∈ route.issuerEdgeIDs) ∧
      ∃ e, s.edge edgeID = some e ∧ e.generation = generation := by
  simp [authorizesCaseIssuerGeneration, authorizesCaseIssuer, Option.any_eq_true, and_assoc]

theorem machineAcceptableEpoch_eq_true (s : Snapshot) (domain : Bytes) (epoch : ℤ) :
    s.machineAcceptableEpoch domain epoch = true ↔
      ∃ route, s.domain domain = some route ∧ route.routingEpoch = epoch := by
  unfold machineAcceptableEpoch evaluateEpoch
  cases s.domain domain with
  | none => simp
  | some route =>
    by_cases h : epoch = route.routingEpoch
    · simp [h]
    · have hne : ¬ route.routingEpoch = epoch := fun e => h e.symm
      by_cases hlt : epoch < route.routingEpoch <;> simp [h, hlt, hne]

/-- A check that first looks the edge, its principal and the domain up. -/
theorem looksUp_iff {s : Snapshot} {edgeID domain : Bytes}
    {f : EdgeEntry → PrincipalEntry → DomainEntry → Bool} {b : Bool}
    (h : b = match s.edge edgeID with
      | none => false
      | some edge => match s.principal edge.principalID, s.domain domain with
        | some principal, some route => f edge principal route
        | _, _ => false) :
    b = true ↔ ∃ edge principal route, s.edge edgeID = some edge ∧
      s.principal edge.principalID = some principal ∧ s.domain domain = some route ∧
      f edge principal route = true := by
  rw [h]
  cases s.edge edgeID with
  | none => simp
  | some edge =>
    cases hprincipal : s.principal edge.principalID with
    | none => simp [hprincipal]
    | some principal => cases hroute : s.domain domain <;> simp [hprincipal]

theorem dispatches_iff {s : Snapshot} {domain : Bytes} {f : DomainEntry → PrincipalEntry → Bool}
    {b : Bool}
    (h : b = match s.domain domain with
      | none => false
      | some route => match s.principal route.dispatcherPrincipalID with
        | none => false
        | some principal => f route principal) :
    b = true ↔ ∃ route principal, s.domain domain = some route ∧
      s.principal route.dispatcherPrincipalID = some principal ∧ f route principal = true := by
  rw [h]
  cases s.domain domain with
  | none => simp
  | some route => cases hprincipal : s.principal route.dispatcherPrincipalID <;> simp [hprincipal]

end Snapshot

/-! ### The text of a key -/

theorem decodePublicKey_eq_ok {encoded decoded : Bytes} : decodePublicKey encoded = .ok decoded ↔
    decoded.length = publicKeySize ∧ encoded = Base64.encode decoded := by
  unfold decodePublicKey
  constructor
  · intro h
    cases hraw : Base64.decodeStrict encoded with
    | none => simp [hraw] at h
    | some raw => grind
  · rintro ⟨hlength, rfl⟩
    simp [Base64.decodeStrict_encode, hlength]

/-- The texts that decode are the encodings, one for each byte string. -/
theorem canonical_base64_injective :
    (∀ encoded wantLen decoded, decodeCanonicalBase64 encoded wantLen = .ok decoded ↔
      decoded.length = wantLen ∧ encoded = Base64.encode decoded) ∧
    (∀ a b m n decoded, decodeCanonicalBase64 a m = .ok decoded →
      decodeCanonicalBase64 b n = .ok decoded → a = b) ∧
    ∀ encoded decoded, decodePublicKey encoded = .ok decoded ↔
      decodeCanonicalBase64 encoded 32 = .ok decoded := by
  refine ⟨fun _ _ _ => decodeCanonicalBase64_eq_ok, ?_, ?_⟩
  · intro a b m n decoded ha hb
    rw [(decodeCanonicalBase64_eq_ok.mp ha).2, (decodeCanonicalBase64_eq_ok.mp hb).2]
  · intro encoded decoded
    rw [decodePublicKey_eq_ok, decodeCanonicalBase64_eq_ok]
    exact and_congr_left' Nat.cast_inj.symm

end Snagline.Registry
