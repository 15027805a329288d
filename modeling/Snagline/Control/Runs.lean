import Snagline.Authority.Backing
import Snagline.Authority.Replay
import Snagline.Control.Admission

/-!
# Runs of the control service

Calls of any workloads with any bytes at any times. A call that is admitted
leaves its commit request; the attempts of its transaction come later, between
those of other calls, and any of them may be lost or repeated. Every row of the
authority then goes back to a call of the run whose evidence is still there.
-/

namespace Snagline.Control
open Kit Ssp Registry Authority

inductive Event where
  | submitRegistry (workload : WorkloadIdentity) (raw : Bytes) (clock : Clock)
  | submit (workload : WorkloadIdentity) (raw : Bytes) (clock : Clock)
  | attempt (call : ℕ) (env : Attempt)

structure State where
  db : Database := {}
  calls : List Call := []

def State.accept (st : State) : Except ServiceError Call → State
  | .ok call => { st with calls := st.calls ++ [call] }
  | .error _ => st

structure Deployment where
  service : Service
  store : Store

namespace Deployment

variable (d : Deployment)

def step (st : State) : Event → State
  | .submitRegistry workload raw clock => st.accept (d.service.submitRegistry workload raw clock)
  | .submit workload raw clock => st.accept (d.service.submit workload raw clock st.db)
  | .attempt call env =>
    match st.calls[call]? with
    | none => st
    | some c => { st with db := d.store.step st.db ⟨c, env⟩ }

def run (st : State) (events : List Event) : State := events.foldl d.step st

end Deployment

/-! ### Registry admission -/

structure RegistryChecked (s : Service) (raw : Bytes) (root : Envelope) (snapshot : Snapshot) :
    Prop where
  rooted : s.trust.Rooted s.primitives raw root snapshot
  revision : snapshot.revision = root.registryRevision
  epoch : snapshot.routingEpoch = root.routingEpoch

def Service.registryRequest (s : Service) (workload : WorkloadIdentity) (raw : Bytes)
    (root : Envelope) (snapshot : Snapshot) : CommitRegistryRequest :=
  ⟨s.tenant, snapshot.revision, root.id, snapshot.commitment, raw, snapshot.routingEpoch,
    snapshot.previousCommitment, some (edgeMap snapshot.edges noEdges), workload.principalID, [],
    text "verified_registry_admission"⟩

theorem Service.submitRegistry_ok {s : Service} {workload : WorkloadIdentity} {raw : Bytes}
    {clock : Clock} {call : Call} (h : s.submitRegistry workload raw clock = .ok call) :
    ∃ root snapshot, RegistryChecked s raw root snapshot ∧
      call = .registry (s.registryRequest workload raw root snapshot) := by
  unfold Service.submitRegistry at h
  simp only [bind_eq_ok, ensure_eq_ok, mapError_eq_ok, readHeader_eq_ok, Trust.verify_eq_ok,
    Bool.and_eq_true, beq_iff_eq] at h
  obtain ⟨_, -, _, ⟨e, hdecode, rfl⟩, _, -, snapshot, ⟨root, hrooted, -⟩, _, ⟨⟨hrevision, hepoch⟩,
    -⟩, h⟩ := h
  have hsame : e = root := by
    have hd := hrooted.authentic.decoded
    rw [hdecode] at hd
    exact Except.ok.inj hd
  subst hsame
  cases h
  exact ⟨e, snapshot, ⟨hrooted, hrevision, hepoch⟩, rfl⟩

/-! ### Evidence in a later state -/

section
variable {db db' : Database} {workload : WorkloadIdentity} {s : Service} {raw : Bytes}

def RegistryEvidence.later {s : Service} {revision : ℤ} {hash : Bytes} {db db' : Database}
    (r : RegistryEvidence s revision hash db) (h : Grows db db') :
    RegistryEvidence s revision hash db' :=
  { r with found := resolveRegistry_grows r.found h }

def CaseEvidence.later {s : Service} {workload : WorkloadIdentity} {raw : Bytes}
    {db db' : Database} (ev : CaseEvidence s workload raw db) (h : Grows db db') :
    CaseEvidence s workload raw db' :=
  ⟨ev.envelope, ev.registry.later h, ev.key, ev.body, ev.commitment, ev.expiresAt, ev.checked⟩

theorem CaseEvidence.current_later (ev : CaseEvidence s workload raw db) (h : Grows db db')
    (clock : Clock) :
    (ev.later h).Current clock ↔ ev.Current clock :=
  ⟨fun hev => ⟨⟨hev.registry.live, hev.registry.unexpired⟩, hev.signature, hev.commitment⟩,
    fun hev => ⟨⟨hev.registry.live, hev.registry.unexpired⟩, hev.signature, hev.commitment⟩⟩

theorem CommittedChecked.later {caseID commitment : Bytes} {header : EnvelopeHeader}
    {snapshot : Snapshot} {fact : CaseRow} {key : KeyRecord} {e : Envelope}
    {body : CaseBody} (hc : CommittedChecked s caseID commitment header snapshot db fact key e body)
    (h : Grows db db') :
    CommittedChecked s caseID commitment header snapshot db' fact key e body :=
  { hc with found := resolveCase_grows hc.found h }

def AdviceEvidence.later {s : Service} {workload : WorkloadIdentity} {raw : Bytes}
    {db db' : Database} (ev : AdviceEvidence s workload raw db) (h : Grows db db') :
    AdviceEvidence s workload raw db' :=
  ⟨ev.envelope, ev.registry.later h, ev.fact, ev.caseKey, ev.case, ev.caseBody, ev.key,
    ev.commitment, ev.caseChecked.later h, ev.checked⟩

theorem AdviceEvidence.current_later (ev : AdviceEvidence s workload raw db) (h : Grows db db')
    (clock : Clock) :
    (ev.later h).Current clock ↔ ev.Current clock :=
  ⟨fun hev => ⟨⟨hev.registry.live, hev.registry.unexpired⟩, hev.case, hev.signature,
      hev.commitment⟩,
    fun hev => ⟨⟨hev.registry.live, hev.registry.unexpired⟩, hev.case, hev.signature,
      hev.commitment⟩⟩

end

/-! ### Provenance -/

section
variable {past past' : List Event} {s : Service} {db db' : Database} {d : Deployment} {st : State}

inductive Justified (s : Service) (past : List Event) (db : Database) : Call → Prop
  | case (workload : WorkloadIdentity) (raw : Bytes) (clock : Clock)
      (made : .submit workload raw clock ∈ past) (ev : CaseEvidence s workload raw db)
      (current : ev.Current clock) : Justified s past db (.case ev.request)
  | advice (workload : WorkloadIdentity) (raw : Bytes) (clock : Clock)
      (made : .submit workload raw clock ∈ past) (ev : AdviceEvidence s workload raw db)
      (current : ev.Current clock) : Justified s past db (.advice ev.request)
  | registry (workload : WorkloadIdentity) (raw : Bytes) (clock : Clock)
      (made : .submitRegistry workload raw clock ∈ past) (root : Envelope) (snapshot : Snapshot)
      (checked : RegistryChecked s raw root snapshot) :
      Justified s past db (.registry (s.registryRequest workload raw root snapshot))

theorem Justified.later {call : Call}
    (h : Justified s past db call) (hpast : past ⊆ past') (hgrows : Grows db db') :
    Justified s past' db' call := by
  cases h with
  | case workload raw clock made ev current =>
    exact .case workload raw clock (hpast made) (ev.later hgrows)
      ((ev.current_later hgrows clock).mpr current)
  | advice workload raw clock made ev current =>
    exact .advice workload raw clock (hpast made) (ev.later hgrows)
      ((ev.current_later hgrows clock).mpr current)
  | registry workload raw clock made root snapshot checked =>
    exact .registry workload raw clock (hpast made) root snapshot checked

inductive CaseOrigin (s : Service) (past : List Event) (db : Database) (row : CaseRow) : Prop
  | intro (workload : WorkloadIdentity) (clock : Clock)
      (made : .submit workload row.raw clock ∈ past) (ev : CaseEvidence s workload row.raw db)
      (current : ev.Current clock) (valid : ev.request.validate = .ok ())
      (committed : row = ev.request.row row.commitRevision)
      (audited : ev.request.audit row.commitRevision ∈ db.audit)

inductive AdviceOrigin (s : Service) (past : List Event) (db : Database) (row : AdviceRow) : Prop
  | intro (workload : WorkloadIdentity) (clock : Clock)
      (made : .submit workload row.raw clock ∈ past) (ev : AdviceEvidence s workload row.raw db)
      (current : ev.Current clock) (valid : ev.request.validate = .ok ())
      (committed : row = ev.request.row ev.fact row.deliverySequence row.commitRevision)
      (audited : ev.request.audit row.commitRevision ∈ db.audit)

inductive RegistryOrigin (s : Service) (past : List Event) (row : RegistryRow) : Prop
  | intro (workload : WorkloadIdentity) (clock : Clock)
      (made : .submitRegistry workload row.raw clock ∈ past) (root : Envelope)
      (snapshot : Snapshot) (checked : RegistryChecked s row.raw root snapshot)
      (committed : row = (s.registryRequest workload row.raw root snapshot).row row.commitRevision)

theorem CaseOrigin.later
    {row : CaseRow} (h : CaseOrigin s past db row) (hpast : past ⊆ past') (hext : Extends db db') :
    CaseOrigin s past' db' row := by
  cases h with
  | intro workload clock made ev current valid committed audited =>
    exact ⟨workload, clock, hpast made, ev.later hext.grows,
      (ev.current_later hext.grows clock).mpr current, valid, committed, hext.audit.subset audited⟩

theorem AdviceOrigin.later
    {row : AdviceRow} (h : AdviceOrigin s past db row) (hpast : past ⊆ past')
    (hext : Extends db db') : AdviceOrigin s past' db' row := by
  cases h with
  | intro workload clock made ev current valid committed audited =>
    exact ⟨workload, clock, hpast made, ev.later hext.grows,
      (ev.current_later hext.grows clock).mpr current, valid, committed, hext.audit.subset audited⟩

theorem RegistryOrigin.later {row : RegistryRow}
    (h : RegistryOrigin s past row) (hpast : past ⊆ past') : RegistryOrigin s past' row := by
  cases h with
  | intro workload clock made root snapshot checked committed =>
    exact ⟨workload, clock, hpast made, root, snapshot, checked, committed⟩

def HeadOrigin (s : Service) (db : Database) (head : HeadRow) : Prop :=
  ∃ workload raw root snapshot, RegistryChecked s raw root snapshot ∧
    Installed (s.registryRequest workload raw root snapshot) head db

/-- After the calls `past`, every request and every row has its origin in them. -/
structure Accounted (d : Deployment) (past : List Event) (st : State) : Prop where
  reachable : ∃ es, st.db = d.store.run {} es
  calls : ∀ call ∈ st.calls, Justified d.service past st.db call
  cases : ∀ row ∈ st.db.cases, CaseOrigin d.service past st.db row
  advice : ∀ row ∈ st.db.advice, AdviceOrigin d.service past st.db row
  registries : ∀ row ∈ st.db.registries, RegistryOrigin d.service past row
  heads : ∀ head ∈ st.db.heads, HeadOrigin d.service st.db head

theorem accounted_initial (d : Deployment) : Accounted d [] {} where
  reachable := ⟨[], rfl⟩
  calls := by simp
  cases := by simp
  advice := by simp
  registries := by simp
  heads := by simp

theorem Accounted.consistent {past : List Event}
    (h : Accounted d past st) : Consistent st.db := by
  obtain ⟨es, hdb⟩ := h.reachable
  rw [hdb]
  exact reachable_consistent d.store es

theorem Accounted.accept {past : List Event}
    (h : Accounted d past st) (e : Event) (result : Except ServiceError Call)
    (hresult : ∀ call, result = .ok call → Justified d.service (past ++ [e]) st.db call) :
    Accounted d (past ++ [e]) (st.accept result) := by
  have hpast : past ⊆ past ++ [e] := List.subset_append_left past [e]
  have hcalls : ∀ call ∈ st.calls, Justified d.service (past ++ [e]) st.db call :=
    fun call hcall => (h.calls call hcall).later hpast (Grows.refl _)
  have hcases : ∀ row ∈ st.db.cases, CaseOrigin d.service (past ++ [e]) st.db row :=
    fun row hrow => (h.cases row hrow).later hpast (Extends.refl _)
  have hadvice : ∀ row ∈ st.db.advice, AdviceOrigin d.service (past ++ [e]) st.db row :=
    fun row hrow => (h.advice row hrow).later hpast (Extends.refl _)
  have hregistries : ∀ row ∈ st.db.registries, RegistryOrigin d.service (past ++ [e]) row :=
    fun row hrow => (h.registries row hrow).later hpast
  cases result with
  | error => exact ⟨h.reachable, hcalls, hcases, hadvice, hregistries, h.heads⟩
  | ok call =>
    refine ⟨h.reachable, ?_, hcases, hadvice, hregistries, h.heads⟩
    intro c hc
    rcases List.mem_append.mp hc with hold | hnew
    · exact hcalls c hold
    · rw [List.mem_singleton.mp hnew]
      exact hresult call rfl

end

/-! ### Every run -/

section
variable (d : Deployment) {past : List Event} {st : State}

-- the case an advice request was justified with is the one its transaction finds
theorem AdviceEvidence.fact_found {s : Service} {workload : WorkloadIdentity} {raw : Bytes}
    {db : Database} (ev : AdviceEvidence s workload raw db) (hdb : Consistent db) {case : CaseRow}
    (hfound : Table.find CaseRow.key (ev.request.tenantID, ev.request.caseID) db.cases =
      some case) : case = ev.fact := by
  obtain ⟨hmem, hkey, -⟩ := resolveCase_ok ev.caseChecked.found
  obtain ⟨hmem', hkey'⟩ := Table.find_eq_some hfound
  exact hdb.oneCase.eq_of_key hmem' hmem (hkey'.trans hkey.symm)

theorem Accounted.attempt {d : Deployment}
    (h : Accounted d past st) (e : Event) {c : Call} (hc : c ∈ st.calls) (env : Attempt) :
    Accounted d (past ++ [e]) { st with db := d.store.step st.db ⟨c, env⟩ } := by
  have hpast : past ⊆ past ++ [e] := List.subset_append_left past [e]
  have hext := step_extends d.store st.db ⟨c, env⟩
  have hadded := step_added d.store st.db c env
  have hjustified := (h.calls c hc).later hpast (Grows.refl _)
  refine ⟨?_, ?_, ?_, ?_, ?_, ?_⟩
  · obtain ⟨es, hdb⟩ := h.reachable
    refine ⟨es ++ [⟨c, env⟩], ?_⟩
    rw [run_append, ← hdb]
    rfl
  · intro call hcall
    exact (h.calls call hcall).later hpast hext.grows
  · intro row hrow
    rcases hadded.cases row hrow with hold | ⟨r, revision, rfl, hvalid, rfl, haudit⟩
    · exact (h.cases row hold).later hpast hext
    · cases hjustified with
      | case workload raw clock made ev current =>
        exact ⟨workload, clock, made, ev.later hext.grows,
          (ev.current_later hext.grows clock).mpr current, hvalid, rfl, haudit⟩
  · intro row hrow
    rcases hadded.advice row hrow with hold |
      ⟨r, case, sequence, revision, rfl, hvalid, hfound, rfl, haudit⟩
    · exact (h.advice row hold).later hpast hext
    · cases hjustified with
      | advice workload raw clock made ev current =>
        rw [ev.fact_found h.consistent hfound]
        exact ⟨workload, clock, made, ev.later hext.grows,
          (ev.current_later hext.grows clock).mpr current, hvalid, rfl, haudit⟩
  · intro row hrow
    rcases hadded.registries row hrow with hold | ⟨r, revision, rfl, rfl⟩
    · exact (h.registries row hold).later hpast
    · cases hjustified with
      | registry workload raw clock made root snapshot checked =>
        exact ⟨workload, clock, made, root, snapshot, checked, rfl⟩
  · intro head hhead
    rcases (step_change d.store st.db ⟨c, env⟩).installed hhead with ⟨old, hold, hkeep⟩ | ⟨r, rfl, hnew⟩
    · obtain ⟨workload, raw, root, snapshot, hchecked, hinstalled⟩ := h.heads old hold
      exact ⟨workload, raw, root, snapshot, hchecked, hkeep _ hinstalled⟩
    · cases hjustified with
      | registry workload raw clock made root snapshot checked =>
        exact ⟨workload, raw, root, snapshot, checked, hnew⟩

theorem Accounted.step {d : Deployment}
    (h : Accounted d past st) (e : Event) : Accounted d (past ++ [e]) (d.step st e) := by
  have hmade : e ∈ past ++ [e] := List.mem_append_right _ List.mem_cons_self
  cases e with
  | submitRegistry workload raw clock =>
    refine h.accept _ _ ?_
    intro call hcall
    obtain ⟨root, snapshot, hchecked, rfl⟩ := Service.submitRegistry_ok hcall
    exact .registry workload raw clock hmade root snapshot hchecked
  | submit workload raw clock =>
    refine h.accept _ _ ?_
    intro call hcall
    rcases (Service.submit_eq_ok d.service workload raw clock st.db call).mp hcall with
      ⟨ev, hcurrent, rfl⟩ | ⟨ev, hcurrent, rfl⟩
    · exact .case workload raw clock hmade ev hcurrent
    · exact .advice workload raw clock hmade ev hcurrent
  | attempt index env =>
    cases hcall : st.calls[index]? with
    | none =>
      have hstep : d.step st (.attempt index env) = st.accept (.error .unauthorized) := by
        simp [Deployment.step, hcall, State.accept]
      rw [hstep]
      exact h.accept _ _ (fun call hok => by cases hok)
    | some c =>
      have hstep : d.step st (.attempt index env) =
          { st with db := d.store.step st.db ⟨c, env⟩ } := by
        simp [Deployment.step, hcall]
      rw [hstep]
      exact h.attempt _ (List.mem_of_getElem? hcall) env

theorem run_accounted (events : List Event) :
    Accounted d events (d.run {} events) := by
  have hgeneral : ∀ past st, Accounted d past st → Accounted d (past ++ events) (d.run st events) := by
    induction events with
    | nil =>
      intro past st h
      rw [List.append_nil]
      exact h
    | cons e rest ih =>
      intro past st h
      have hrest := ih (past ++ [e]) (d.step st e) (h.step e)
      rw [List.append_assoc] at hrest
      exact hrest
  exact hgeneral [] {} (accounted_initial d)

theorem Accounted.settled {d : Deployment}
    (h : Accounted d past st) : Settled st.db := by
  obtain ⟨es, hdb⟩ := h.reachable
  rw [hdb]
  exact settled_empty.run d.store es

theorem Accounted.backed {d : Deployment}
    (h : Accounted d past st) : Backed st.db := by
  obtain ⟨es, hdb⟩ := h.reachable
  rw [hdb]
  exact reachable_backed d.store es

theorem State.accept_db (st : State) (result : Except ServiceError Call) :
    (st.accept result).db = st.db := by
  cases result <;> rfl

theorem Deployment.step_grows (st : State) (e : Event) :
    Grows st.db (d.step st e).db := by
  cases e with
  | submitRegistry | submit =>
    rw [Deployment.step, State.accept_db]
    exact Grows.refl _
  | attempt index env =>
    cases hcall : st.calls[index]? with
    | none =>
      simp only [Deployment.step, hcall]
      exact Grows.refl _
    | some c =>
      simp only [Deployment.step, hcall]
      exact (step_extends d.store st.db ⟨c, env⟩).grows

theorem Deployment.run_grows (st : State) (events : List Event) :
    Grows st.db (d.run st events).db := by
  induction events generalizing st with
  | nil => exact Grows.refl _
  | cons e rest ih => exact (d.step_grows st e).trans (ih (d.step st e))

theorem Deployment.run_later (events later : List Event) :
    Grows (d.run {} events).db (d.run {} (events ++ later)).db := by
  unfold Deployment.run
  rw [List.foldl_append]
  exact d.run_grows (d.run {} events) later

theorem Deployment.run_concat (events : List Event) (e : Event) :
    d.run {} (events ++ [e]) = d.step (d.run {} events) e := by
  unfold Deployment.run
  rw [List.foldl_append]
  rfl

theorem Deployment.attempt_change (events : List Event) (call : ℕ) (env : Attempt) :
    (d.run {} (events ++ [.attempt call env])).db = (d.run {} events).db ∨
      ∃ c, (d.run {} events).calls[call]? = some c ∧
        Change (d.run {} events).db c (d.run {} (events ++ [.attempt call env])).db := by
  rw [Deployment.run_concat]
  cases hcall : (d.run {} events).calls[call]? with
  | none =>
    simp only [Deployment.step, hcall]
    exact .inl trivial
  | some c =>
    simp only [Deployment.step, hcall]
    exact .inr ⟨c, rfl, step_change d.store _ ⟨c, env⟩⟩

end

end Snagline.Control
