import Snagline.Buzz.History

/-!
# One authorization, written three times

Admission (controlapi/service.go), the edge (sspedge/authority_verifier.go) and the
projector (collab/buzz/authority_verifier.go) each spell out who may issue a case and
who may advise on it. Admission leaves out that the owner claims the edge, the
projector asks for a positive generation on its own. The registry graph makes the
first redundant and the issuer rule the second.
-/

namespace Snagline.Buzz
open Kit Ssp Registry Authority Control

/-! ### The keys of a verified registry -/

theorem mem_mapM_some {α β : Type} {f : α → Option β} {xs : List α} {ys : List β}
    (h : xs.mapM f = some ys) {y : β} (hy : y ∈ ys) : ∃ x ∈ xs, f x = some y := by
  induction xs generalizing ys with
  | nil =>
    cases h
    cases hy
  | cons x xs ih =>
    rw [List.mapM_cons] at h
    simp only [Option.bind_eq_bind, Option.bind_eq_some_iff] at h
    obtain ⟨y', hx, ys', hxs, hys⟩ := h
    cases hys
    cases List.mem_cons.mp hy with
    | inl hhead => exact ⟨x, List.mem_cons_self, hhead ▸ hx⟩
    | inr htail =>
      obtain ⟨x', hx', hy'⟩ := ih hxs htail
      exact ⟨x', List.mem_cons_of_mem _ hx', hy'⟩

theorem mem_mapM_ok {ε α β : Type} {f : α → Except ε β} {xs : List α} {ys : List β}
    (h : xs.mapM f = .ok ys) {y : β} (hy : y ∈ ys) : ∃ x ∈ xs, f x = .ok y := by
  induction xs generalizing ys with
  | nil =>
    cases h
    cases hy
  | cons x xs ih =>
    rw [List.mapM_cons] at h
    simp only [bind_eq_ok] at h
    obtain ⟨y', hx, ys', hxs, hys⟩ := h
    cases hys
    cases List.mem_cons.mp hy with
    | inl hhead => exact ⟨x, List.mem_cons_self, hhead ▸ hx⟩
    | inr htail =>
      obtain ⟨x', hx', hy'⟩ := ih hxs htail
      exact ⟨x', List.mem_cons_of_mem _ hx', hy'⟩

theorem validateGroup_ok {group : Bytes} {max : ℕ} {validate : ℕ → Json → Except Refusal Unit}
    {entries : List (Bytes × Json)} {u : Unit} (h : validateGroup group max validate entries = .ok u)
    {entry : Bytes × Json} (hentry : entry ∈ entries) : ∃ index, validate index entry.2 = .ok () := by
  unfold validateGroup at h
  obtain ⟨-, h⟩ := ensure_bind_eq_ok.mp h
  obtain ⟨index, hindex, hget⟩ := List.getElem_of_mem hentry
  have hmem : (entry, index) ∈ entries.zipIdx := by
    rw [List.mem_zipIdx_iff_getElem?]
    exact hget ▸ List.getElem?_eq_getElem hindex
  exact ⟨index, forM_eq_ok.mp h _ hmem⟩

theorem validateKeyRecord_owner {index : ℕ} {doc : Json} {record : KeyEntry}
    (h : validateKeyRecord index doc = .ok ()) (hrecord : decodeKey doc = some record) :
    record.principalID ≠ [] := by
  unfold validateKeyRecord at h
  simp only [bind_eq_ok, orFail_eq_ok, ensure_eq_ok, hrecord] at h
  obtain ⟨_, -, _, hsame, _, -, _, howner, -⟩ := h
  cases hsame
  intro hnil
  rw [hnil] at howner
  exact absurd howner (by decide)

theorem decodeKeyRecord_owner {entry : KeyEntry} {key : KeyRecord}
    (h : decodeKeyRecord entry = .ok key) : key.principalID = entry.principalID := by
  unfold decodeKeyRecord at h
  simp only [bind_eq_ok, orFail_eq_ok] at h
  obtain ⟨_, -, _, -, _, -, _, -, h⟩ := h
  cases hrevoked : entry.revokedAt with
  | none =>
    rw [hrevoked] at h
    cases h
    rfl
  | some =>
    simp only [hrevoked, bind_eq_ok, orFail_eq_ok] at h
    obtain ⟨_, -, _, -, h⟩ := h
    cases h
    rfl

theorem decodeRegistry_owner {root : Envelope} {commitment : Bytes} {s : Snapshot}
    (hsound : root.Sound) (hfamily : root.schema = .registry)
    (h : decodeRegistry root commitment = .ok s) {id : Bytes} {key : KeyRecord}
    (hkey : s.key id = some key) : key.principalID ≠ [] := by
  have hcontent := hsound.content
  unfold Envelope.checkContent at hcontent
  simp only [bind_eq_ok, validateBody, hfamily, validateRegistryBody, orFail_eq_ok] at hcontent
  obtain ⟨_, -, _, -, _, -, doc, hdoc, _, -, d, hd, _, -, _, -, _, -, _, -, _, -, _, -, _, -, _, -,
    hkeys⟩ := hcontent
  unfold decodeRegistry at h
  obtain ⟨body, hbody, h⟩ := orFail_bind_eq_ok.mp h
  obtain ⟨_, -, h⟩ := bind_eq_ok.mp h
  obtain ⟨_, -, h⟩ := orFail_bind_eq_ok.mp h
  obtain ⟨keys, hrecords, h⟩ := bind_eq_ok.mp h
  cases h
  -- the record comes from an entry, the entry from a document that was validated
  obtain ⟨entry, hentry, hrecord⟩ := mem_mapM_ok hrecords (entry_eq_some hkey).1
  unfold decodeRegistryBody at hbody
  simp only [hdoc, hd, Option.bind_eq_bind, Option.bind_some, Option.bind_eq_some_iff] at hbody
  obtain ⟨_, -, _, -, _, -, entries, hentries, hbody⟩ := hbody
  cases hbody
  obtain ⟨source, hsource, hdecoded⟩ := mem_mapM_some hentries hentry
  obtain ⟨index, hvalid⟩ := validateGroup_ok hkeys hsource
  rw [decodeKeyRecord_owner hrecord]
  exact validateKeyRecord_owner hvalid hdecoded

/-! ### Issuers -/

variable (snapshot : Snapshot)

/-- The issuer edge as a workload, with its registered principal and generation. -/
def issuerWorkload (body : CaseBody) : WorkloadIdentity :=
  match snapshot.edge body.issuerEdgeID with
  | some edge => ⟨edge.principalID, body.issuerEdgeID, edge.generation⟩
  | none => ⟨[], [], 0⟩

section
variable {snapshot : Snapshot} {authorKeyID : Bytes} {key : KeyRecord} {epoch : ℤ}

theorem authorizesCase_issuer (body : CaseBody) :
    authorizesCase snapshot (issuerWorkload snapshot body) authorKeyID key body epoch = true ↔
      (∃ edge principal route,
        IssuerGrant snapshot authorKeyID key body epoch edge principal route) ∧
      key.principalID ≠ [] := by
  rw [authorizesCase_eq_true]
  constructor
  · rintro ⟨edge, principal, route, h⟩
    exact ⟨⟨edge, principal, route, h.toIssuerGrant⟩, h.owner ▸ h.principalNamed⟩
  · rintro ⟨⟨edge, principal, route, h⟩, hnamed⟩
    have hworkload : issuerWorkload snapshot body =
        ⟨edge.principalID, body.issuerEdgeID, body.issuerEdgeGeneration⟩ := by
      simp only [issuerWorkload, h.edgeListed, h.generation]
    exact ⟨edge, principal, route, h, hworkload, h.owner ▸ hnamed⟩

end

/-- The part of `submitCase` that reads the registry, for the issuer's own workload. -/
def admitsIssued (header : EnvelopeHeader) (key : KeyRecord) (envelope : Envelope) : Bool :=
  match decodeCaseBody envelope.body with
  | none => false
  | some body =>
    key.principalID != [] &&
      authorizesCase snapshot (issuerWorkload snapshot body) header.authorKeyID key body
        envelope.routingEpoch

theorem decodeVerifiedCaseBody_short {raw : Bytes} {body : Edge.VerifiedCaseBody}
    (h : Edge.decodeVerifiedCaseBody raw = some body) :
    decodeCaseBody raw = some body.short := by
  unfold Edge.decodeVerifiedCaseBody at h
  simp only [Option.bind_eq_bind, Option.bind_eq_some_iff] at h
  obtain ⟨doc, hdoc, ms, hms, domain, hdomain, edge, hedge, generation, hgeneration, _, -, _, -, _, -,
    hbody⟩ := h
  cases hbody
  unfold decodeCaseBody
  simp only [hdoc, hms, hdomain, hedge, hgeneration, Option.bind_eq_bind, Option.bind_some]
  rfl

section
variable {snapshot : Snapshot} {key : KeyRecord} {envelope : Envelope}

theorem admitsIssued_iff :
    admitsIssued snapshot envelope.header key envelope = true ↔
      authorizeProjectedCase snapshot key envelope = .ok () ∧ key.principalID ≠ [] := by
  unfold admitsIssued authorizeProjectedCase
  cases hbody : decodeCaseBody envelope.body with
  | none => simp [orFail]
  | some body =>
    simp only [orFail, ok_bind, ensure_eq_ok, Bool.and_eq_true, bne_iff_ne, ne_eq]
    rw [authorizesProjected_iff]
    constructor
    · rintro ⟨-, h⟩
      exact (authorizesCase_issuer body).mp h
    · intro h
      exact ⟨h.2, (authorizesCase_issuer body).mpr h⟩

theorem authorizeCase_iff {root : Envelope} {commitment : Bytes}
    (hroot : decodeRegistry root commitment = .ok snapshot) (hsound : envelope.Sound)
    (hfamily : envelope.schema = .case) :
    (∃ body, Edge.authorizeCase snapshot envelope.header key envelope = .ok body) ↔
      authorizeProjectedCase snapshot key envelope = .ok () := by
  unfold Edge.authorizeCase authorizeProjectedCase
  simp only [bind_eq_ok, orFail_eq_ok, ensure_eq_ok, Edge.authorizesIssuer_iff, authorizesProjected_iff]
  constructor
  · rintro ⟨_, body, hbody, _, ⟨edge, principal, route, h, -⟩, -⟩
    exact ⟨body.short, decodeVerifiedCaseBody_short hbody, edge, principal, route, h⟩
  · rintro ⟨short, hshort, edge, principal, route, h⟩
    obtain ⟨body, hbody, rfl⟩ := Edge.decodeVerifiedCaseBody_eq hsound hfamily hshort
    have hclaims := decodeRegistry_edge hroot h.edgeListed h.principalListed
    exact ⟨body, body, hbody, (), ⟨edge, principal, route, h, List.contains_iff_mem.mp hclaims⟩, rfl⟩

end

/-! ### Dispatchers -/

def dispatcherWorkload (domain : Bytes) : WorkloadIdentity :=
  match snapshot.domain domain with
  | some route => ⟨route.dispatcherPrincipalID, [], 0⟩
  | none => ⟨[], [], 0⟩

/-- The part of `submitAdvice` that reads the registry, for the dispatcher's own workload. -/
def admitsDispatched (header : EnvelopeHeader) (key : KeyRecord) (domain : Bytes) : Bool :=
  key.principalID != [] &&
    authorizesAdvice snapshot (dispatcherWorkload snapshot domain) header.authorKeyID key
      domain header.routingEpoch

section
variable {snapshot : Snapshot} {authorKeyID : Bytes} {key : KeyRecord} {domain : Bytes} {epoch : ℤ}

theorem authorizesAdvice_dispatcher :
    authorizesAdvice snapshot (dispatcherWorkload snapshot domain) authorKeyID key domain
        epoch = true ↔
      (∃ route principal, DispatcherGrant snapshot authorKeyID key domain epoch route principal) ∧
      key.principalID ≠ [] := by
  rw [authorizesAdvice_eq_true]
  constructor
  · rintro ⟨route, principal, h⟩
    exact ⟨⟨route, principal, h.toDispatcherGrant⟩, h.owner ▸ h.principalNamed⟩
  · rintro ⟨⟨route, principal, h⟩, hnamed⟩
    have hworkload : dispatcherWorkload snapshot domain = ⟨route.dispatcherPrincipalID, [], 0⟩ := by
      simp only [dispatcherWorkload, h.routeListed]
    exact ⟨route, principal, h, hworkload, h.owner ▸ hnamed⟩

end

/-- The advice is bound to a committed case that verifies under the snapshot: all that
`authorizeProjectedAdvice` asks for before it looks the dispatcher up. -/
structure BoundTo (v : AuthorityVerifier) (snapshot : Snapshot) (envelope : Envelope)
    (db : Database) (record : CaseRow) (body : CaseBody) : Prop where
  bound : ∃ commitment, decodeCaseCommitment envelope.body = some commitment ∧
    commitment ≠ [] ∧ resolveCase v.tenant envelope.caseID commitment db = .ok record
  verified : ∃ emission header key caseEnvelope, signedEmissionTime record.raw = some emission ∧
    v.primitives.envelopeCommitment record.raw emission = .ok record.commitment ∧
    readHeader record.raw = .ok header ∧ v.bindsCase record header envelope = true ∧
    snapshot.key header.authorKeyID = some key ∧ (key.usage = .edge ∧ key.usable emission = true) ∧
    v.primitives.verify record.raw [(header.authorKeyID, key.publicKey)] emission =
      .ok caseEnvelope ∧
    authorizeProjectedCase snapshot key caseEnvelope = .ok () ∧
    decodeCaseBody caseEnvelope.body = some body
  domain : body.domain = record.domain

theorem authorizeProjectedAdvice_iff {v : AuthorityVerifier} {snapshot : Snapshot}
    {key : KeyRecord} {envelope : Envelope} {db : Database} {record : CaseRow}
    {body : CaseBody} (h : BoundTo v snapshot envelope db record body) :
    v.authorizeProjectedAdvice snapshot key envelope db = .ok () ↔
      Edge.authorizesDispatcher snapshot envelope.authorKeyID key body.domain
        envelope.routingEpoch = true := by
  obtain ⟨commitment, hcommitment, hnonempty, hrecord⟩ := h.bound
  obtain ⟨emission, header, caseKey, caseEnvelope, hemission, hevidence, hheader, hbinds, hkey,
    ⟨husage, husable⟩, hverify, hcase, hbody⟩ := h.verified
  have hnamed : (commitment != []) = true := bne_iff_ne.mpr hnonempty
  unfold AuthorityVerifier.authorizeProjectedAdvice
  simp only [hcommitment, hnamed, hrecord, hemission, hevidence, hheader, hbinds, hkey, husage, husable,
    hverify, hcase, hbody, h.domain, orFail, mapError_ok, ok_bind, ensure_true, ensure_eq_ok,
    beq_self_eq_true, Bool.and_self]

theorem authorizeProjectedAdvice_bound {v : AuthorityVerifier} {snapshot : Snapshot}
    {key : KeyRecord} {envelope : Envelope} {db : Database}
    (h : v.authorizeProjectedAdvice snapshot key envelope db = .ok ()) :
    ∃ record body, BoundTo v snapshot envelope db record body := by
  unfold AuthorityVerifier.authorizeProjectedAdvice at h
  simp only [bind_eq_ok, orFail_eq_ok, ensure_eq_ok, mapError_eq_ok, Bool.and_eq_true, beq_iff_eq,
    bne_iff_ne] at h
  obtain ⟨commitment, hcommitment, _, hnonempty, record, hrecord, emission, hemission, _, hevidence,
    _, rfl, header, hheader, _, hbinds, caseKey, hkey, _, husable, caseEnvelope, hverify, _, hcase,
    body, hbody, _, hdomain, -⟩ := h
  exact ⟨record, body, ⟨commitment, hcommitment, hnonempty, hrecord⟩, ⟨emission, header, caseKey,
    caseEnvelope, hemission, hevidence, hheader, hbinds, hkey, husable, hverify, hcase, hbody⟩,
    hdomain⟩

theorem admitsDispatched_iff {snapshot : Snapshot} {key : KeyRecord} {envelope : Envelope}
    {domain : Bytes} :
    admitsDispatched snapshot envelope.header key domain = true ↔
      Edge.authorizesDispatcher snapshot envelope.authorKeyID key domain envelope.routingEpoch =
        true ∧ key.principalID ≠ [] := by
  rw [Edge.authorizesDispatcher_iff]
  unfold admitsDispatched
  simp only [Bool.and_eq_true, bne_iff_ne, ne_eq]
  constructor
  · rintro ⟨-, h⟩
    exact authorizesAdvice_dispatcher.mp h
  · intro h
    exact ⟨h.2, authorizesAdvice_dispatcher.mpr h⟩

/-! ### Agreement -/

/-- Under every decoded registry the edge and the projector accept the same cases and the
same advice. Admission accepts exactly these as well unless the key is registered to the
empty principal, which no registry that `VerifyRegistry` passed on contains. -/
theorem authorizations_agree {root : Envelope} {commitment : Bytes} {snapshot : Snapshot}
    (hroot : decodeRegistry root commitment = .ok snapshot) {keyID : Bytes} {key : KeyRecord}
    (hkey : snapshot.key keyID = some key) {p : Primitives} {raw : Bytes}
    {keys : List (Bytes × VerifyingKey)} {now : Time} {envelope : Envelope} {header : EnvelopeHeader}
    (hverified : p.verify raw keys now = .ok envelope) (hheader : readHeader raw = .ok header) :
    (envelope.schema = .case →
      ((∃ body, Edge.authorizeCase snapshot header key envelope = .ok body) ↔
        authorizeProjectedCase snapshot key envelope = .ok ()) ∧
      (admitsIssued snapshot header key envelope = true ↔
        (∃ body, Edge.authorizeCase snapshot header key envelope = .ok body) ∧
          key.principalID ≠ [])) ∧
    (envelope.schema = .advice → ∀ v db record body, BoundTo v snapshot envelope db record body →
      (Edge.authorizesDispatcher snapshot header.authorKeyID key body.domain envelope.routingEpoch =
          true ↔
        v.authorizeProjectedAdvice snapshot key envelope db = .ok ()) ∧
      (admitsDispatched snapshot header key record.domain = true ↔
        Edge.authorizesDispatcher snapshot header.authorKeyID key body.domain envelope.routingEpoch =
          true ∧ key.principalID ≠ [])) ∧
    (∀ rootRaw rootKeys rootNow, p.verify rootRaw rootKeys rootNow = .ok root →
      root.schema = .registry → key.principalID ≠ []) := by
  obtain ⟨hauthentic, -⟩ := (verify_eq_ok _ _ _ _ _).mp hverified
  obtain ⟨e, he, rfl⟩ := readHeader_eq_ok.mp hheader
  rw [hauthentic.decoded] at he
  cases he
  refine ⟨?_, ?_, ?_⟩
  · intro hfamily
    have hedge : (∃ body, Edge.authorizeCase snapshot envelope.header key envelope = .ok body) ↔
        authorizeProjectedCase snapshot key envelope = .ok () :=
      authorizeCase_iff hroot hauthentic.sound hfamily
    refine ⟨hedge, ?_⟩
    rw [hedge]
    exact admitsIssued_iff
  · intro _ v db record body hbound
    refine ⟨(authorizeProjectedAdvice_iff hbound).symm, ?_⟩
    rw [← hbound.domain]
    exact admitsDispatched_iff
  · intro rootRaw rootKeys rootNow hrootVerified hfamily
    obtain ⟨hrootAuthentic, -⟩ := (verify_eq_ok _ _ _ _ _).mp hrootVerified
    exact decodeRegistry_owner hrootAuthentic.sound hfamily hroot hkey

namespace Sample

open Control.Sample (object string case commitment publicKey signatureText second registry)

def issued : Bytes := case "2026-01-01T00:00:06Z"

def advice : Bytes :=
  object [("schema", string "ssp.advice.v1"), ("id", string "a"), ("case_id", string "c"),
    ("emitted_at", string "2026-01-01T00:00:07Z"), ("expires_at", string "2026-01-01T00:01:00Z"),
    ("routing_epoch", text "1"), ("registry_revision", text "1"),
    ("registry_hash", 34 :: commitment "72" ++ [34]), ("author_key_id", string "ka"),
    ("signature_alg", string "ed25519"),
    ("body", object [("case_commitment", 34 :: commitment "63" ++ [34]), ("text", string "s"),
      ("public_summary", string "s")]),
    ("signature", signatureText)]

def verifier : AuthorityVerifier where
  tenant := Control.Sample.service.tenant
  tenantNamed := Control.Sample.service.tenantNamed
  trust := Control.Sample.service.trust
  primitives := Control.Sample.primitives

def committed : Database := (Control.Sample.deployment.run {} (Control.Sample.events issued)).db

/-- What the registry of the samples and the bytes signed under it are read as. -/
structure Read (keyID raw : Bytes) (root : Envelope) (snapshot : Snapshot) (key : KeyRecord)
    (envelope : Envelope) : Prop where
  rooted : ∃ keys now, verifier.primitives.verify registry keys now = .ok root
  family : root.schema = .registry
  decoded : decodeRegistry root snapshot.commitment = .ok snapshot
  listed : snapshot.key keyID = some key
  signed : verifier.primitives.verify raw [(keyID, publicKey)] (second 20 0) = .ok envelope
  header : readHeader raw = .ok envelope.header

theorem read_of_check (keyID raw : Bytes) (check : Snapshot → KeyRecord → Envelope → Bool)
    (h : ((verifier.trust.verify verifier.primitives registry (second 20 0)).toOption.bind fun snapshot =>
      (verifier.primitives.verify raw [(keyID, publicKey)] (second 20 0)).toOption.bind fun envelope =>
      (snapshot.key keyID).map fun key => check snapshot key envelope) = some true) :
    ∃ root snapshot key envelope, Read keyID raw root snapshot key envelope ∧
      check snapshot key envelope = true := by
  have hok : ∀ {ε α : Type} {x : Except ε α} {a : α}, x.toOption = some a → x = .ok a := by
    intro ε α x a hx
    cases x <;> cases hx
    rfl
  simp only [Option.bind_eq_some_iff, Option.map_eq_some_iff] at h
  obtain ⟨snapshot, hsnapshot, envelope, henvelope, key, hkey, hcheck⟩ := h
  obtain ⟨root, hrooted, hlive⟩ := (Trust.verify_eq_ok _ _ _ _ _).mp (hok hsnapshot)
  obtain ⟨hauthentic, -⟩ := (Ssp.verify_eq_ok _ _ _ _ _).mp (hok henvelope)
  exact ⟨root, snapshot, key, envelope,
    ⟨⟨_, _, (Ssp.verify_eq_ok _ _ _ _ _).mpr ⟨hrooted.authentic, hlive⟩⟩, hrooted.family, hrooted.decoded,
      hkey, hok henvelope, hauthentic.header⟩, hcheck⟩

end Sample

/-- The sample case passes all three, and so does advice bound to it. -/
theorem authorizations_agree_sample :
    (∃ root snapshot key envelope,
      Sample.Read (text "ke") Sample.issued root snapshot key envelope ∧
      (∃ body, Edge.authorizeCase snapshot envelope.header key envelope = .ok body) ∧
      authorizeProjectedCase snapshot key envelope = .ok () ∧
      admitsIssued snapshot envelope.header key envelope = true) ∧
    ∃ root snapshot key envelope record body,
      Sample.Read (text "ka") Sample.advice root snapshot key envelope ∧
      BoundTo Sample.verifier snapshot envelope Sample.committed record body ∧
      Edge.authorizesDispatcher snapshot envelope.authorKeyID key body.domain
        envelope.routingEpoch = true ∧
      Sample.verifier.authorizeProjectedAdvice snapshot key envelope Sample.committed = .ok () ∧
      admitsDispatched snapshot envelope.header key record.domain = true := by
  have hok : ∀ {ε : Type} {x : Except ε Unit}, x.isOk = true → x = .ok () := by
    intro ε x hx
    cases x with
    | ok => rfl
    | error => cases hx
  constructor
  · obtain ⟨root, snapshot, key, envelope, hread, hcheck⟩ := Sample.read_of_check
      (text "ke") Sample.issued (fun snapshot key envelope =>
        (authorizeProjectedCase snapshot key envelope).isOk && envelope.schema == .case)
      (by decide +kernel)
    simp only [Bool.and_eq_true, beq_iff_eq] at hcheck
    obtain ⟨keys, now, hroot⟩ := hread.rooted
    obtain ⟨hcase, -, hnamed⟩ :=
      authorizations_agree hread.decoded hread.listed hread.signed hread.header
    obtain ⟨hedge, hcontrol⟩ := hcase hcheck.2
    have hissued := hedge.mpr (hok hcheck.1)
    exact ⟨root, snapshot, key, envelope, hread, hissued, hok hcheck.1,
      hcontrol.mpr ⟨hissued, hnamed _ _ _ hroot hread.family⟩⟩
  · obtain ⟨root, snapshot, key, envelope, hread, hcheck⟩ := Sample.read_of_check
      (text "ka") Sample.advice (fun snapshot key envelope =>
        (Sample.verifier.authorizeProjectedAdvice snapshot key envelope Sample.committed).isOk &&
          envelope.schema == .advice)
      (by decide +kernel)
    simp only [Bool.and_eq_true, beq_iff_eq] at hcheck
    obtain ⟨keys, now, hroot⟩ := hread.rooted
    have hadvised := hok hcheck.1
    obtain ⟨record, body, hbound⟩ := authorizeProjectedAdvice_bound hadvised
    obtain ⟨-, hadvice, hnamed⟩ :=
      authorizations_agree hread.decoded hread.listed hread.signed hread.header
    obtain ⟨hedge, hcontrol⟩ := hadvice hcheck.2 Sample.verifier Sample.committed record body hbound
    have hdispatched := hedge.mpr hadvised
    exact ⟨root, snapshot, key, envelope, record, body, hread, hbound, hdispatched, hadvised,
      hcontrol.mpr ⟨hdispatched, hnamed _ _ _ hroot hread.family⟩⟩

end Snagline.Buzz
