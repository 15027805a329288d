import Snagline.Control.Runs

/-!
# Lost responses

A workload that never saw its receipt sends the same bytes again. The store
answers a committed request from the row it left, whatever happened since, but
the service stands in front of it and admits the bytes anew, with the clock of
the new call. So the original receipt comes back as long as the evidence of the
first admission is still current, and no longer.
-/

namespace Snagline.Control
open Kit Ssp Registry Authority

section
variable {workload : WorkloadIdentity} {rounds : Fin transactionAttempts → Round} {d : Deployment}
  {clock : Clock} {db : Database} {raw : Bytes} {receipt : CommitReceipt}

inductive SubmitError where
  | service (cause : ServiceError)
  | commit (cause : CallError)
  deriving DecidableEq

/-- `Submit` as its caller sees it: admission, and the commit of the request. -/
def Deployment.submit (d : Deployment) (workload : WorkloadIdentity) (raw : Bytes) (clock : Clock)
    (rounds : Fin transactionAttempts → Round) (db : Database) :
    Database × Except SubmitError CommitReceipt :=
  match d.service.submit workload raw clock db with
  | .error e => (db, .error (.service e))
  | .ok call =>
    let (db', result) := d.store.commit call rounds db
    (db', result.mapError .commit)

theorem Deployment.submit_ok (h : (d.submit workload raw clock rounds db).2 = .ok receipt) :
    ∃ call, d.service.submit workload raw clock db = .ok call := by
  unfold Deployment.submit at h
  cases hcall : d.service.submit workload raw clock db with
  | error => simp [hcall] at h
  | ok call => exact ⟨call, rfl⟩

theorem Deployment.submit_replays {call : Call}
    (hcall : d.service.submit workload raw clock db = .ok call)
    (hreplays : d.store.Replays call receipt db) (hclean : (rounds firstRound).env.Clean) :
    (d.submit workload raw clock rounds db).2 = .ok receipt := by
  unfold Deployment.submit
  simp only [hcall]
  rw [hreplays.clean rounds hclean]
  rfl

theorem Deployment.submit_refused
    (h : ∀ call, d.service.submit workload raw clock db ≠ .ok call)
    (rounds : Fin transactionAttempts → Round) :
    ∃ e, d.submit workload raw clock rounds db = (db, .error (.service e)) := by
  cases hcall : d.service.submit workload raw clock db with
  | ok call => exact absurd hcall (h call)
  | error e => exact ⟨e, by unfold Deployment.submit; simp only [hcall]⟩

end

/-! ### Admission of bytes admitted before -/

theorem CaseEvidence.admitted_iff {s : Service} {workload : WorkloadIdentity} {raw : Bytes}
    {db : Database} (ev : CaseEvidence s workload raw db) (clock : Clock) (call : Call) :
    s.submit workload raw clock db = .ok call ↔ ev.Current clock ∧ call = .case ev.request := by
  rw [Service.submit_eq_ok]
  constructor
  · rintro (⟨ev', hcurrent, hcall⟩ | ⟨ev', -, -⟩)
    · rw [ev.unique ev']
      exact ⟨hcurrent, hcall⟩
    · -- one decoding, and so one family
      have he := ev'.checked.signed.authentic.decoded
      rw [ev.checked.signed.authentic.decoded] at he
      have hfamily := ev'.checked.family
      rw [← Except.ok.inj he, ev.checked.family] at hfamily
      exact nomatch hfamily
  · rintro ⟨hcurrent, hcall⟩
    exact Or.inl ⟨ev, hcurrent, hcall⟩

theorem AdviceEvidence.admitted_iff {s : Service} {workload : WorkloadIdentity} {raw : Bytes}
    {db : Database} (ev : AdviceEvidence s workload raw db) (clock : Clock) (call : Call) :
    s.submit workload raw clock db = .ok call ↔ ev.Current clock ∧ call = .advice ev.request := by
  rw [Service.submit_eq_ok]
  constructor
  · rintro (⟨ev', -, -⟩ | ⟨ev', hcurrent, hcall⟩)
    · have he := ev'.checked.signed.authentic.decoded
      rw [ev.checked.signed.authentic.decoded] at he
      have hfamily := ev'.checked.family
      rw [← Except.ok.inj he, ev.checked.family] at hfamily
      exact nomatch hfamily
    · rw [ev.unique ev']
      exact ⟨hcurrent, hcall⟩
  · rintro ⟨hcurrent, hcall⟩
    exact Or.inr ⟨ev, hcurrent, hcall⟩

/-! ### Every run -/

section
variable {workload : WorkloadIdentity} {d : Deployment} {db db' : Database}

/-- Resubmitted at these tables, the bytes get the original receipt while the
evidence is current; afterwards they are refused and nothing changes. -/
structure Deployment.Resubmits (d : Deployment) (workload : WorkloadIdentity) (raw : Bytes)
    (receipt : CommitReceipt) (current : Clock → Prop) (db : Database) : Prop where
  answered : ∀ clock rounds, (rounds firstRound).env.Clean →
    ((d.submit workload raw clock rounds db).2 = .ok receipt ↔ current clock)
  refused : ∀ clock rounds, ¬ current clock →
    ∃ e, d.submit workload raw clock rounds db = (db, .error (.service e))

theorem Deployment.resubmits {raw : Bytes}
    {receipt : CommitReceipt} {current : Clock → Prop} {db : Database} {call : Call}
    (hadmitted : ∀ clock call', d.service.submit workload raw clock db = .ok call' ↔
      current clock ∧ call' = call)
    (hreplays : d.store.Replays call receipt db) :
    d.Resubmits workload raw receipt current db where
  answered := by
    intro clock rounds hclean
    constructor
    · intro hok
      obtain ⟨call', hcall⟩ := Deployment.submit_ok hok
      exact ((hadmitted clock call').mp hcall).1
    · intro hcurrent
      exact Deployment.submit_replays ((hadmitted clock call).mpr ⟨hcurrent, rfl⟩) hreplays hclean
  refused := by
    intro clock rounds hstale
    apply Deployment.submit_refused
    intro call' hcall
    exact hstale ((hadmitted clock call').mp hcall).1

theorem CaseEvidence.resubmits {row : CaseRow} (ev : CaseEvidence d.service workload row.raw db)
    (hvalid : ev.request.validate = .ok ()) (hrow : row = ev.request.row row.commitRevision)
    (hgrows : Grows db db') (hsettled : Settled db') (hmem : row ∈ db'.cases) :
    d.Resubmits workload row.raw (d.store.receiptOfCase row) ev.Current db' := by
  have hmatch : ev.request.matches row = true := by
    -- an expiry the SSP parser accepted is one the column keeps
    have hmicros : WholeMicros ev.request.expiresAt :=
      parseTimestamp_micros ev.checked.expiry
    have hself := (ev.request.matches_row row.commitRevision).mpr hmicros
    exact (congrArg (ev.request.matches ·) hrow).trans hself
  have hkey : row.key = (ev.request.tenantID, ev.request.caseID) := congrArg CaseRow.key hrow
  have hreplays := hsettled.replays_case d.store hmem hkey hmatch hvalid
  refine Deployment.resubmits (fun clock call => ?_) hreplays
  rw [← ev.current_later hgrows clock]
  exact (ev.later hgrows).admitted_iff clock call

theorem AdviceEvidence.resubmits {row : AdviceRow}
    (ev : AdviceEvidence d.service workload row.raw db)
    (hvalid : ev.request.validate = .ok ())
    (hrow : row = ev.request.row ev.fact row.deliverySequence row.commitRevision)
    (hgrows : Grows db db') (hsettled : Settled db') (hmem : row ∈ db'.advice) :
    d.Resubmits workload row.raw (d.store.receiptOfAdvice row) ev.Current db' := by
  have hmatch : ev.request.matches row = true :=
    (congrArg (ev.request.matches ·) hrow).trans (ev.request.matches_row _ _ _)
  have hkey : row.key = (ev.request.tenantID, ev.request.caseID) := congrArg AdviceRow.key hrow
  have hreplays := hsettled.replays_advice d.store hmem hkey hmatch hvalid
  refine Deployment.resubmits (fun clock call => ?_) hreplays
  rw [← ev.current_later hgrows clock]
  exact (ev.later hgrows).admitted_iff clock call

/-- Every committed case and advice goes back to a submission of the run. From
the same workload, its bytes get the original receipt, at whatever later point
of the run, exactly while the clock of the new call falls where that of the
first did: the bound registry and the envelope live and the signing key usable
and, for an advice, the case envelope live and its key usable too. -/
theorem resubmission_answered (d : Deployment) (events : List Event) :
    let db := (d.run {} events).db
    (∀ row ∈ db.cases, ∃ workload clock, ∃ ev : CaseEvidence d.service workload row.raw db,
      .submit workload row.raw clock ∈ events ∧ ev.Current clock ∧
      row = ev.request.row row.commitRevision ∧
      ∀ later, d.Resubmits workload row.raw (d.store.receiptOfCase row) ev.Current
        (d.run {} (events ++ later)).db) ∧
    (∀ row ∈ db.advice, ∃ workload clock, ∃ ev : AdviceEvidence d.service workload row.raw db,
      .submit workload row.raw clock ∈ events ∧ ev.Current clock ∧
      row = ev.request.row ev.fact row.deliverySequence row.commitRevision ∧
      ∀ later, d.Resubmits workload row.raw (d.store.receiptOfAdvice row) ev.Current
        (d.run {} (events ++ later)).db) := by
  have hrun := run_accounted d events
  have hlater := fun later => (run_accounted d (events ++ later)).settled
  refine ⟨?_, ?_⟩
  · intro row hrow
    cases hrun.cases row hrow with
    | intro workload clock made ev current valid committed =>
      refine ⟨workload, clock, ev, made, current, committed, fun later => ?_⟩
      have hgrows := d.run_later events later
      exact ev.resubmits valid committed hgrows (hlater later) (hgrows.cases.subset hrow)
  · intro row hrow
    cases hrun.advice row hrow with
    | intro workload clock made ev current valid committed =>
      refine ⟨workload, clock, ev, made, current, committed, fun later => ?_⟩
      have hgrows := d.run_later events later
      exact ev.resubmits valid committed hgrows (hlater later) (hgrows.advice.subset hrow)

end

/-! ### A receipt that cannot be had again -/

namespace Sample

def string (s : String) : Bytes := 34 :: text s ++ [34]
def array (items : List Bytes) : Bytes := 91 :: List.intercalate [44] items ++ [93]
def object (members : List (String × Bytes)) : Bytes :=
  123 :: List.intercalate [44] (members.map fun m => string m.1 ++ 58 :: m.2) ++ [125]

-- the digest tells the three families apart, and a signature repeats its key
def primitives : Primitives where
  sha256 message := List.replicate 32 (message.getD 15 0)
  ed25519Verify key _ signature := signature == key ++ key
  jcs := some

def publicKey : VerifyingKey := ⟨List.replicate 32 0, by decide⟩
def publicKeyText : Bytes := 34 :: Base64.encode (List.replicate 32 0) ++ [34]
def signatureText : Bytes := 34 :: Base64.encode (List.replicate 64 0) ++ [34]

def commitment (pair : String) : Bytes :=
  text "sha256:" ++ (List.replicate 32 (text pair)).flatten

def key (id usage : String) : Bytes :=
  object [("key_id", string id), ("public_key", publicKeyText), ("principal_id", string "p"),
    ("usage", string usage), ("not_before", string "2026-01-01T00:00:00Z"),
    ("expires_at", string "2026-01-02T00:00:00Z")]

def registryOf (id number epoch edge : String) (previous : Bytes) : Bytes :=
  object [("schema", string "ssp.registry.v1"), ("id", string id),
    ("emitted_at", string "2026-01-01T00:00:05Z"), ("expires_at", string "2026-01-02T00:00:00Z"),
    ("routing_epoch", text epoch), ("registry_revision", text number),
    ("author_key_id", string "root"), ("signature_alg", string "ed25519"),
    ("body", object [("revision", text number), ("routing_epoch", text epoch),
      ("previous_commitment", previous),
      ("domains", array [object [("domain", string "d"), ("dispatcher_principal_id", string "p"),
        ("issuer_edge_ids", array [string edge]), ("specialist_principal_ids", array []),
        ("families", array [string "ssp.case.v1", string "ssp.advice.v1"]),
        ("routing_epoch", text epoch)]]),
      ("principals", array [object [("principal_id", string "p"),
        ("roles", array [string "dispatcher", string "edge"]),
        ("ssp_key_ids", array [string "ka", string "ke"]), ("edge_ids", array [string edge])]]),
      ("edges", array [object [("edge_id", string edge), ("generation", text "1"),
        ("principal_id", string "p")]]),
      ("keys", array [key "ka" "advice", key "ke" "edge"])]),
    ("signature", signatureText)]

def registry : Bytes := registryOf "r" "1" "1" "e" (text "null")

def caseOf (id caseID edge emittedAt : String) : Bytes :=
  object [("schema", string "ssp.case.v1"), ("id", string id), ("case_id", string caseID),
    ("emitted_at", string emittedAt), ("expires_at", string "2026-01-01T00:01:00Z"),
    ("routing_epoch", text "1"), ("registry_revision", text "1"),
    ("registry_hash", 34 :: commitment "72" ++ [34]), ("author_key_id", string "ke"),
    ("signature_alg", string "ed25519"),
    ("body", object [("domain", string "d"), ("issuer_edge_id", string edge),
      ("issuer_edge_generation", text "1"), ("summary", string "s"), ("public_summary", string "s"),
      ("context_manifest", 34 :: commitment "00" ++ [34])]),
    ("signature", signatureText)]

def case (emittedAt : String) : Bytes := caseOf "i" "c" "e" emittedAt

def service : Service where
  tenant := [116]
  tenantNamed := by decide
  trust := ⟨text "root", by decide, publicKey⟩
  registryPublisherPrincipalID := [112]
  publisherNamed := by decide
  primitives := primitives

def deployment : Deployment := ⟨service, ⟨[98], by decide, id⟩⟩

def publisher : WorkloadIdentity := ⟨[112], [], 0⟩
def issuer : WorkloadIdentity := ⟨[112], [101], 1⟩
def second (n : ℤ) : Clock := fun _ => (1767225600 + n) * 1000000000

def events (raw : Bytes) : List Event :=
  [.submitRegistry publisher registry (second 20), .attempt 0 { nextval := 0 },
    .submit issuer raw (second 20), .attempt 1 { nextval := 1 }]

def quiet : Fin transactionAttempts → Round := fun _ => ⟨[], { nextval := 3 }⟩

end Sample

/-- A case that is live until second 60 gets its receipt again in second 59 and
is refused from then on. -/
theorem resubmission_expired :
    let raw := Sample.case "2026-01-01T00:00:06Z"
    let db := (Sample.deployment.run {} (Sample.events raw)).db
    let receipt : CommitReceipt := ⟨[98], 2, [105], Sample.commitment "63"⟩
    db.cases.map Sample.deployment.store.receiptOfCase = [receipt] ∧
      (Sample.deployment.submit Sample.issuer raw (Sample.second 59) Sample.quiet db).2 =
        .ok receipt ∧
      (Sample.deployment.submit Sample.issuer raw (Sample.second 60) Sample.quiet db).2 =
        .error (.service .expiredInput) := by
  decide +kernel

end Snagline.Control
