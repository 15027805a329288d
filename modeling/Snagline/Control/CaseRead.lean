import Snagline.Control.Resubmission

/-!
# Reading a case over HTTP (controlhttp/server.go:149-166, 286-311, 382-391)

`GET /v1/cases/{case_id}?commitment=...`. The reply is a status and a body; a
body is kept as the value it encodes. Authorization is the last thing ResolveCase
decides, after everything that needs the case to exist, and each refusal on the
way has a status of its own.
-/

namespace Snagline.Control
open Kit Ssp Registry Authority

inductive ReplyBody where
  | case (record : CaseRow)
  | code (code : Bytes)
  deriving DecidableEq

structure Reply where
  status : ℕ
  body : ReplyBody
  deriving DecidableEq

/-- `writeError`. -/
def failure (status : ℕ) (code : String) : Reply := ⟨status, .code (text code)⟩

/-- `writeStoreError`, on the errors ResolveCase returns. -/
def ServiceError.reply : ServiceError → Reply
  | .unauthorized => failure 403 "forbidden"
  | .expiredInput => failure 410 "gone"
  | .invalidCaseBinding => failure 422 "unprocessable"
  | .resolve .invalidRequest => failure 422 "unprocessable"
  | .resolve .caseNotFound => failure 404 "not_found"
  | .resolve .registryNotFound => failure 404 "not_found"
  | .rootVerify _ => failure 503 "unavailable"
  | .rejected _ _ => failure 503 "unavailable"

def caseQuery (caseID commitment : Bytes) : Bool :=
  !caseID.isEmpty && !caseID.contains 47 && !commitment.isEmpty

/-- `Server.resolveCase`. -/
def Service.readCase (s : Service) (workload : WorkloadIdentity) (caseID commitment : Bytes)
    (clock : Clock) (db : Database) : Reply :=
  if caseQuery caseID commitment then
    match s.resolveCase workload caseID commitment clock db with
    | .ok record => ⟨200, .case record⟩
    | .error e => e.reply
  else failure 400 "invalid_case_query"

/-! ### Which refusals look like an absent case -/

section
variable {caseID commitment : Bytes} {clock : Clock} {db : Database} {workload : WorkloadIdentity}
  {s : Service} {record : CaseRow}

def ServiceError.Late (e : ServiceError) : Prop := ∀ cause, e ≠ .resolve cause

theorem ServiceError.Late.reply_ne {e : ServiceError} (h : e.Late) :
    e.reply ≠ failure 404 "not_found" := by
  intro hreply
  have hstatus := congrArg Reply.status hreply
  cases e with
  | resolve cause => exact h cause rfl
  | _ => simp [ServiceError.reply, failure] at hstatus

theorem reply_status_ne (e : ServiceError) : e.reply.status ≠ 200 := by
  cases e with
  | resolve cause => cases cause <;> simp [ServiceError.reply, failure]
  | _ => simp [ServiceError.reply, failure]

theorem late_binding : ServiceError.invalidCaseBinding.Late := by
  intro cause h
  cases h

theorem late_expired : ServiceError.expiredInput.Late := by
  intro cause h
  cases h

theorem resolveRegistry_fails {header : EnvelopeHeader}
    {record : RegistryRow}
    (h : Authority.resolveRegistry s.tenant header.registryRevision header.registryHash db =
      .ok record) : Fails ServiceError.Late (s.resolveRegistry header clock db) := by
  unfold Service.resolveRegistry
  rw [h, mapError_ok, ok_bind]
  refine fails_bind (fails_mapError ?_ _) fun snapshot => ?_
  · intro e
    split
    · exact late_expired
    · intro cause h
      cases h
  · exact fails_bind (fails_ensure late_expired _) fun _ => fails_pure

theorem findCommittedCase_fails {header : EnvelopeHeader}
    {snapshot : Snapshot}
    (h : Authority.resolveCase s.tenant caseID commitment db = .ok record) :
    Fails ServiceError.Late
      (s.findCommittedCase caseID commitment header snapshot clock db) := by
  unfold Service.findCommittedCase
  rw [h, mapError_ok, ok_bind]
  refine fails_bind (fails_mapError (fun _ => late_binding) _) fun caseHeader => ?_
  refine fails_bind (fails_ensure late_binding _) fun _ => ?_
  refine fails_bind (fails_mapError ?_ _) fun verified => ?_
  · intro e
    split
    · exact late_expired
    · exact late_binding
  · refine fails_bind (fails_ensure late_binding _) fun _ => ?_
    refine fails_bind (fails_mapError (fun _ => late_binding) _) fun actual => ?_
    refine fails_bind (fails_ensure late_binding _) fun _ => ?_
    refine fails_bind (fails_orFail late_binding _) fun body => ?_
    exact fails_bind (fails_ensure late_binding _) fun _ => fails_pure

def Unregistered (s : Service) (record : CaseRow) (db : Database) : Prop :=
  ∃ header, readHeader record.raw = .ok header ∧ header.schema = .case ∧
    Authority.resolveRegistry s.tenant header.registryRevision header.registryHash db =
      .error .registryNotFound

theorem readCase_absent (hquery : caseQuery caseID commitment = true)
    (h : Authority.resolveCase s.tenant caseID commitment db = .error .caseNotFound) :
    s.readCase workload caseID commitment clock db = failure 404 "not_found" := by
  unfold Service.readCase Service.resolveCase
  rw [if_pos hquery, h]
  rfl

theorem resolveCase_fails
    (h : Authority.resolveCase s.tenant caseID commitment db = .ok record) :
    Fails (fun e => e.reply = failure 404 "not_found" → Unregistered s record db)
      (s.resolveCase workload caseID commitment clock db) := by
  have hlate : ∀ e : ServiceError, e.Late → e.reply = failure 404 "not_found" →
      Unregistered s record db := fun e he hreply => absurd hreply he.reply_ne
  unfold Service.resolveCase
  rw [h, mapError_ok, ok_bind]
  cases hheader : readHeader record.raw with
  | error =>
    intro e he
    cases he
    exact hlate _ late_binding
  | ok header =>
    rw [mapError_ok, ok_bind]
    by_cases hfamily : header.schema = .case
    · refine fails_bind (fails_ensure (hlate _ late_binding) _) fun _ => ?_
      cases hregistry : Authority.resolveRegistry s.tenant header.registryRevision
          header.registryHash db with
      | error cause =>
        intro e he hreply
        unfold Service.resolveRegistry at he
        rw [hregistry] at he
        cases he
        cases cause with
        | registryNotFound => exact ⟨header, hheader, hfamily, hregistry⟩
        | invalidRequest => exact absurd (congrArg Reply.status hreply) (by decide)
        | caseNotFound =>
          have hnever : Fails (· ≠ ReadError.caseNotFound) (Authority.resolveRegistry s.tenant
              header.registryRevision header.registryHash db) :=
            fails_bind (fails_ensure (by decide) _) fun _ => fails_orFail (by decide) _
          exact absurd rfl (hnever _ hregistry)
      | ok row =>
        refine fails_bind (fun e he => hlate e (resolveRegistry_fails hregistry e he)) fun snapshot => ?_
        refine fails_bind (fun e he => hlate e (findCommittedCase_fails h e he)) fun committed => ?_
        refine fails_bind (fails_ensure (hlate _ ?_) _) fun _ => fails_pure
        intro cause h
        cases h
    · intro e he
      have hwrong : (header.schema == Family.case) = false := beq_eq_false_iff_ne.mpr hfamily
      rw [hwrong, ensure_false, error_bind] at he
      cases he
      exact hlate _ late_binding

theorem readCase_not_found_iff
    (hquery : caseQuery caseID commitment = true)
    (h : Authority.resolveCase s.tenant caseID commitment db = .ok record) :
    s.readCase workload caseID commitment clock db = failure 404 "not_found" ↔
      Unregistered s record db := by
  unfold Service.readCase
  rw [if_pos hquery]
  constructor
  · intro hreply
    cases hresult : s.resolveCase workload caseID commitment clock db with
    | ok =>
      rw [hresult] at hreply
      simp [failure] at hreply
    | error e =>
      rw [hresult] at hreply
      exact resolveCase_fails h e hresult hreply
  · rintro ⟨header, hheader, hfamily, hregistry⟩
    unfold Service.resolveCase Service.resolveRegistry
    rw [h, mapError_ok, ok_bind, hheader, mapError_ok, ok_bind, hfamily, beq_self_eq_true,
      ensure_true, ok_bind, hregistry]
    rfl

end

/-! ### Every run -/

theorem committed_registered {d : Deployment} {events : List Event} {record : CaseRow}
    (h : record ∈ (d.run {} events).db.cases) :
    ¬ Unregistered d.service record (d.run {} events).db := by
  rintro ⟨header, hheader, -, hregistry⟩
  cases (run_accounted d events).cases record h with
  | intro workload clock made ev =>
    obtain ⟨e, hdecoded, rfl⟩ := readHeader_eq_ok.mp hheader
    rw [ev.checked.signed.authentic.decoded] at hdecoded
    cases hdecoded
    cases hregistry.symm.trans ev.registry.found

/-- The workload is neither the dispatcher nor the issuer of the case in the
registry the case is bound to. -/
def Stranger (s : Service) (workload : WorkloadIdentity) (record : CaseRow) (clock : Clock)
    (db : Database) : Prop :=
  ∀ header snapshot, readHeader record.raw = .ok header →
    s.resolveRegistry header clock db = .ok snapshot → Service.mayRead snapshot workload record = false

theorem stranger_gets_no_case {s : Service} {workload : WorkloadIdentity}
    {caseID commitment : Bytes} {clock : Clock} {db : Database} {record : CaseRow}
    (h : Authority.resolveCase s.tenant caseID commitment db = .ok record)
    (hstranger : Stranger s workload record clock db) (row : CaseRow) :
    s.readCase workload caseID commitment clock db ≠ ⟨200, .case row⟩ := by
  intro hreply
  have hresult : s.resolveCase workload caseID commitment clock db = .ok row := by
    unfold Service.readCase at hreply
    split at hreply
    · split at hreply
      · rename_i found hfound
        cases hreply
        exact hfound
      · rename_i e he
        exact absurd (congrArg Reply.status hreply) (reply_status_ne e)
    · simp [failure] at hreply
  unfold Service.resolveCase at hresult
  rw [h, mapError_ok, ok_bind] at hresult
  obtain ⟨header, hheader, hresult⟩ := bind_eq_ok.mp hresult
  obtain ⟨-, hresult⟩ := ensure_bind_eq_ok.mp hresult
  obtain ⟨snapshot, hsnapshot, hresult⟩ := bind_eq_ok.mp hresult
  obtain ⟨committed, hcommitted, hresult⟩ := bind_eq_ok.mp hresult
  obtain ⟨hmay, -⟩ := ensure_bind_eq_ok.mp hresult
  obtain ⟨key, e, body, hchecked, -⟩ := (Service.findCommittedCase_eq_ok _ _ _ _ _ _ _ _).mp hcommitted
  have hsame := hchecked.found
  rw [h] at hsame
  cases hsame
  have hdenied := hstranger header snapshot (mapError_eq_ok.mp hheader) hsnapshot
  rw [hdenied] at hmay
  cases hmay

/-- What an authenticated workload learns by asking for a case. The replies with
and without the case agree if the query is refused for its form, an ID with a
slash in it, and otherwise only if the case is stored and its registry is not,
which no run of the deployment leads to; so whether a committed case exists can
be read off the status. A stranger learns nothing beyond that and the refusal. -/
theorem case_read_existence (d : Deployment) (workload : WorkloadIdentity)
    (caseID commitment : Bytes) (clock : Clock) (present absent : Database) (record : CaseRow)
    (hpresent : Authority.resolveCase d.service.tenant caseID commitment present = .ok record)
    (habsent : Authority.resolveCase d.service.tenant caseID commitment absent =
      .error .caseNotFound) :
    (d.service.readCase workload caseID commitment clock present =
        d.service.readCase workload caseID commitment clock absent ↔
      caseQuery caseID commitment = false ∨ Unregistered d.service record present) ∧
    (∀ events, present = (d.run {} events).db → ¬ Unregistered d.service record present) ∧
    (Stranger d.service workload record clock present → ∀ row,
      d.service.readCase workload caseID commitment clock present ≠ ⟨200, .case row⟩) := by
  refine ⟨?_, ?_, stranger_gets_no_case hpresent⟩
  · cases hquery : caseQuery caseID commitment with
    | false => simp [Service.readCase, hquery]
    | true =>
      rw [readCase_absent hquery habsent, readCase_not_found_iff hquery hpresent]
      simp
  · rintro events rfl
    exact committed_registered (resolveCase_ok hpresent).1

namespace Sample

def stranger : WorkloadIdentity := ⟨[113], [], 0⟩

def present : Database := (deployment.run {} (events (case "2026-01-01T00:00:06Z"))).db
def absent : Database := (deployment.run {} ((events []).take 2)).db

def record : CaseRow :=
  ⟨[116], [99], [105], commitment "63", case "2026-01-01T00:00:06Z", [100], [101], 1, 1, 1,
    commitment "72", second 60 0, 2⟩

end Sample

theorem case_read_existence_sample :
    let ask := Sample.service.readCase Sample.stranger [99] (Sample.commitment "63") (Sample.second 20)
    ask Sample.present ≠ ask Sample.absent := by
  intro ask
  obtain ⟨hequal, hruns, -⟩ := case_read_existence Sample.deployment Sample.stranger [99]
    (Sample.commitment "63") (Sample.second 20) Sample.present Sample.absent Sample.record
    (by decide +kernel) (by decide +kernel)
  have hquery : caseQuery [99] (Sample.commitment "63") = true := by decide +kernel
  intro hsame
  rcases hequal.mp hsame with hrefused | hunregistered
  · cases hquery.symm.trans hrefused
  · exact hruns _ rfl hunregistered

/-- Asked by a stranger, the server tells a committed case from none: 403, and
410 once it has expired, against 404. -/
theorem case_read_tells :
    let ask := Sample.service.readCase Sample.stranger [99] (Sample.commitment "63")
    ask (Sample.second 20) Sample.present = failure 403 "forbidden" ∧
      ask (Sample.second 20) Sample.absent = failure 404 "not_found" ∧
      ask (Sample.second 60) Sample.present = failure 410 "gone" ∧
      ask (Sample.second 60) Sample.absent = failure 404 "not_found" ∧
      Sample.present.registries = Sample.absent.registries := by
  decide +kernel

/-- The reads of a case that succeed in the course of a run all return one record. -/
theorem case_reads_agree (d : Deployment) (events : List Event) (caseID : Bytes) :
    ∃ answer, ∀ past workload commitment clock record, past <+: events →
      d.service.resolveCase workload caseID commitment clock (d.run {} past).db = .ok record →
        answer = some record := by
  refine ⟨Table.find CaseRow.key (d.service.tenant, caseID) (d.run {} events).db.cases, ?_⟩
  rintro past workload commitment clock record ⟨later, rfl⟩ h
  simp only [Service.resolveCase, bind_eq_ok, ensure_eq_ok] at h
  obtain ⟨_, -, _, -, _, -, _, -, _, hcommitted, _, -, ⟨⟩⟩ := h
  obtain ⟨_, _, _, hchecked, -⟩ := (Service.findCommittedCase_eq_ok ..).mp hcommitted
  obtain ⟨hmem, hkey, -⟩ :=
    resolveCase_ok (resolveCase_grows hchecked.found (d.run_later past later))
  obtain ⟨es, hdb⟩ := (run_accounted d (past ++ later)).reachable
  have hconsistent := hdb ▸ reachable_consistent d.store es
  exact hkey ▸ hconsistent.oneCase.find_mem hmem

end Snagline.Control
