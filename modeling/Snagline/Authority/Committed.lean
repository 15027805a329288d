import Snagline.Authority.Effects

/-!
# What a committed transaction wrote

The whole effect of each body on the tables, and from it what one attempt of any
call can do to them (`step_change`). Every invariant of the authority is proved
from that one lemma.
-/

namespace Snagline.Authority
open Kit Ssp

/-! ### CommitCase -/

def CommitCaseRequest.log (r : CommitCaseRequest) : Bytes × Bytes × ℤ :=
  (r.tenantID, r.issuerEdgeID, r.issuerEdgeGeneration)

def CommitCaseRequest.delivery (r : CommitCaseRequest) (sequence revision : ℤ) : DeliveryRow :=
  ⟨r.tenantID, r.issuerEdgeID, r.issuerEdgeGeneration, sequence, .case, r.caseID, r.envelopeID,
    r.commitment, r.raw, revision⟩

def CommitCaseRequest.audit (r : CommitCaseRequest) (revision : ℤ) : AuditRow :=
  ⟨r.tenantID, .case, r.caseID, r.commitment, nullableText r.authenticatedPrincipalID,
    nullableText r.authenticatedEdgeID, nullableText r.decision, revision⟩

def CommitCaseRequest.destinations (r : CommitCaseRequest) : List (DestinationKind × Bytes) :=
  [(.domainDispatch, r.domain), (.edgeDelivery, edgeKey r.issuerEdgeID r.issuerEdgeGeneration)]

/-- The tables `db'` are `db` with the case of `r` admitted at `revision`. -/
structure CaseWritten (r : CommitCaseRequest) (revision : ℤ) (db db' : Database) : Prop where
  unused : revision ∉ db.revisions
  fresh : FreshCase (r.row revision) db
  freshDelivery : FreshDelivery (r.delivery (nextSequence db r.log) revision) db
  revisions : db'.revisions = db.revisions ++ [revision]
  cases : db'.cases = db.cases ++ [r.row revision]
  advice : db'.advice = db.advice
  deliveries : db'.deliveries = db.deliveries ++ [r.delivery (nextSequence db r.log) revision]
  sequences : ∀ log, nextSequence db' log =
    if log = r.log then nextSequence db log + 1 else nextSequence db log
  heads : db'.heads = db.heads
  highWater : db'.highWater = db.highWater
  registries : db'.registries = db.registries
  audit : db'.audit = db.audit ++ [r.audit revision]
  outbox : ∃ id, db'.outbox = db.outbox ++
    r.destinations.map (announce id r.tenantID .case r.caseID r.raw revision)
  named : ∀ o ∈ db'.outbox, o ∈ db.outbox ∨ o.outboxID ≠ []

variable {store : Store}

theorem announced_named {tenantID : Bytes} {kind : EntityKind} {entityID raw : Bytes} {revision : ℤ}
    {destinations : List (DestinationKind × Bytes)} {outbox : List OutboxRow} :
    ∀ o ∈ outbox ++ destinations.map (announce (fun d => store.deterministicOutboxID
      [tenantID, kind.text, entityID, decimal revision, d.1.text, d.2]) tenantID kind entityID raw
        revision), o ∈ outbox ∨ o.outboxID ≠ [] := by
  intro o ho
  rcases List.mem_append.mp ho with hold | hnew
  · exact Or.inl hold
  · obtain ⟨d, -, rfl⟩ := List.mem_map.mp hnew
    exact Or.inr (List.append_ne_nil_of_left_ne_nil (by decide) _)

theorem writeCase_run {r : CommitCaseRequest} {w w' : World} {receipt : CommitReceipt}
    (h : Prog.run World.exec (store.writeCase r) w = .ok (receipt, w')) :
    CaseWritten r w.revision w.db w'.db ∧
      receipt = store.receipt w.revision r.envelopeID r.commitment := by
  unfold Store.writeCase at h
  obtain ⟨revision, w₁, h₁, hr₁, h⟩ := run_query_bind h
  obtain ⟨rfl, hunused, hdb₁⟩ := insertRevision_ok h₁
  obtain ⟨u₂, w₂, h₂, hr₂, h⟩ := run_query_bind h
  obtain ⟨hfresh, hdb₂⟩ := insertCase_ok (written_eq_ok.mp h₂)
  obtain ⟨sequence, w₃, h₃, hr₃, h⟩ := run_query_bind h
  obtain ⟨hseq, ⟨rows, hdb₃⟩, hnext⟩ := nextDeliverySequence_ok h₃
  obtain ⟨u₄, w₄, h₄, hr₄, h⟩ := run_query_bind h
  obtain ⟨hdelivery, hdb₄⟩ := insertDelivery_ok (written_eq_ok.mp h₄)
  obtain ⟨u₅, w₅, h₅, hr₅, h⟩ := run_query_bind h
  obtain ⟨-, hdb₅⟩ := insertAudit_ok (written_eq_ok.mp h₅)
  obtain ⟨u₆, w₆, h₆, h⟩ := (Prog.run_bind_eq_ok World.exec _ _ _ _).mp h
  obtain ⟨-, hdb₆⟩ := insertOutbox_run h₆
  have hx := Except.ok.inj h
  have hreceipt := congrArg Prod.fst hx
  have hw := congrArg Prod.snd hx
  simp only at hreceipt hw hdb₆
  subst hw
  -- neither of the first two inserts touches the counters
  have hbase : ∀ log, nextSequence w₂.db log = nextSequence w.db log := by
    intro log
    rw [hdb₂, hdb₁]
    rfl
  have hafter : ∀ log, nextSequence w₆.db log = nextSequence w₃.db log := by
    intro log
    rw [hdb₆, hdb₅, hdb₄]
    rfl
  have hs : sequence = nextSequence w.db r.log := by
    rw [hseq, hbase]
    rfl
  subst hs
  have hdb := hdb₆
  rw [hdb₅, hdb₄, hdb₃, hdb₂, hdb₁] at hdb
  have hwritten : CaseWritten r w.revision w.db w₆.db :=
    { unused := hunused
      fresh := by
        rw [hdb₁] at hfresh
        exact ⟨hfresh.key, hfresh.envelope, hfresh.commitment⟩
      freshDelivery := by
        rw [hdb₃, hdb₂, hdb₁] at hdelivery
        exact ⟨hdelivery.key, hdelivery.envelope⟩
      revisions := by rw [hdb]
      cases := by rw [hdb]
      advice := by rw [hdb]
      deliveries := by rw [hdb]; rfl
      sequences := by
        intro log
        rw [hafter, hnext, hbase]
        rfl
      heads := by rw [hdb]
      highWater := by rw [hdb]
      registries := by rw [hdb]
      audit := by rw [hdb]; rfl
      outbox := ⟨_, by rw [hdb]; rfl⟩
      named := by
        rw [hdb]
        exact announced_named }
  exact ⟨hwritten, hreceipt.symm⟩

structure LiveHead (db : Database) (tenantID : Bytes) (head : HeadRow) : Prop where
  found : Table.find HeadRow.tenantID tenantID db.heads = some head
  live : head.halted = false

theorem liveHead_bind {α : Type} {tenantID : Bytes} {f : HeadRow → Body α} {w : World}
    {x : α × World} (h : Prog.run World.exec (liveHead tenantID >>= f) w = .ok x) :
    ∃ head w', LiveHead w.db tenantID head ∧ w'.db = w.db ∧ w'.revision = w.revision ∧
      Prog.run World.exec (f head) w' = .ok x := by
  obtain ⟨head, w', hlive, hf⟩ := (Prog.run_bind_eq_ok World.exec _ _ _ _).mp h
  unfold liveHead at hlive
  obtain ⟨w₁, hdb, hrev, hlive⟩ := run_read_bind (.selectHeadForUpdate tenantID)
    (fun db => Table.find HeadRow.tenantID tenantID db.heads) (fun _ _ => rfl) _ _ _ _ hlive
  cases hfound : Table.find HeadRow.tenantID tenantID w.db.heads with
  | none =>
    simp only [hfound] at hlive
    cases hlive
  | some =>
    simp only [hfound] at hlive
    obtain ⟨hnot, hrest⟩ := run_require_bind hlive
    cases hrest
    exact ⟨head, w', ⟨hfound, by simpa using hnot⟩, hdb, hrev, hf⟩

def CommitCaseRequest.bindsHead (r : CommitCaseRequest) (head : HeadRow) : Prop :=
  head.latestRevision = r.registryRevision ∧ head.latestCommitment = r.registryHash ∧
    head.routingEpoch = r.routingEpoch

theorem commitCase_run {r : CommitCaseRequest} {w w' : World}
    {result : Except StoreError CommitReceipt}
    (h : Prog.run World.exec (store.commitCase r) w = .ok (result, w')) :
    (∃ row, Table.find CaseRow.key (r.tenantID, r.caseID) w.db.cases = some row ∧
      r.matches row = true ∧ w'.db = w.db ∧
      result = .ok (store.withAuthority ⟨[], row.commitRevision, row.envelopeID, row.commitment⟩)) ∨
    (Table.find CaseRow.key (r.tenantID, r.caseID) w.db.cases = none ∧
      (∃ head, LiveHead w.db r.tenantID head ∧ r.bindsHead head) ∧
      CaseWritten r w.revision w.db w'.db ∧
      result = .ok (store.receipt w.revision r.envelopeID r.commitment)) := by
  unfold Store.commitCase at h
  obtain ⟨existing, w₀, hexisting, h⟩ := (Prog.run_bind_eq_ok World.exec _ _ _ _).mp h
  unfold existingCase at hexisting
  obtain ⟨w₁, hdb₁, hr₁, hexisting⟩ := run_read_bind (.selectCase r.tenantID r.caseID)
    (fun db => Table.find CaseRow.key (r.tenantID, r.caseID) db.cases) (fun _ _ => rfl)
    _ _ _ _ hexisting
  cases hfound : Table.find CaseRow.key (r.tenantID, r.caseID) w.db.cases with
  | some row =>
    simp only [hfound] at hexisting
    obtain ⟨hmatch, hrest⟩ := run_require_bind hexisting
    cases hrest
    cases h
    exact Or.inl ⟨row, rfl, hmatch, hdb₁, rfl⟩
  | none =>
    simp only [hfound] at hexisting
    cases hexisting
    obtain ⟨head, w₂, hlive, hdb₂, hr₂, h⟩ := liveHead_bind h
    obtain ⟨hbinds, h⟩ := run_require_bind h
    obtain ⟨w₃, hdb₃, hr₃, h⟩ := run_read_bind (.caseExists r.tenantID r.envelopeID r.commitment)
      (fun db => carries CaseRow.envelopeKey CaseRow.commitmentKey r.tenantID r.envelopeID
        r.commitment db.cases) (fun _ _ => rfl) _ _ _ _ h
    obtain ⟨-, h⟩ := run_require_bind h
    obtain ⟨receipt, w₄, hwrite, h⟩ := (Prog.run_bind_eq_ok World.exec _ _ _ _).mp h
    cases h
    obtain ⟨hwritten, hreceipt⟩ := writeCase_run hwrite
    -- the selects in front of the writes changed neither tables nor revision
    have hdb : w₃.db = w.db := hdb₃.trans (hdb₂.trans hdb₁)
    have hrev : w₃.revision = w.revision := hr₃.trans (hr₂.trans hr₁)
    rw [hdb, hrev] at hwritten
    rw [hrev] at hreceipt
    rw [hdb₁] at hlive
    simp only [Bool.and_eq_true, beq_iff_eq] at hbinds
    obtain ⟨⟨hrevision, hcommitment⟩, hepoch⟩ := hbinds
    exact Or.inr ⟨rfl, ⟨head, hlive, hrevision, hcommitment, hepoch⟩, hwritten, by rw [hreceipt]⟩

/-! ### CommitAdvice -/

def CaseRow.log (c : CaseRow) : Bytes × Bytes × ℤ :=
  (c.tenantID, c.issuerEdgeID, c.issuerEdgeGeneration)

def CommitAdviceRequest.delivery (r : CommitAdviceRequest) (case : CaseRow)
    (sequence revision : ℤ) : DeliveryRow :=
  ⟨r.tenantID, case.issuerEdgeID, case.issuerEdgeGeneration, sequence, .advice, r.caseID,
    r.envelopeID, r.commitment, r.raw, revision⟩

def CommitAdviceRequest.audit (r : CommitAdviceRequest) (revision : ℤ) : AuditRow :=
  ⟨r.tenantID, .advice, r.caseID, r.commitment, nullableText r.authenticatedPrincipalID,
    nullableText r.authenticatedEdgeID, nullableText r.decision, revision⟩

/-- The tables `db'` are `db` with the advice of `r` on `case` admitted at `revision`. -/
structure AdviceWritten (r : CommitAdviceRequest) (case : CaseRow) (revision : ℤ)
    (db db' : Database) : Prop where
  unused : revision ∉ db.revisions
  fresh : FreshAdvice (r.row case (nextSequence db case.log) revision) db
  freshDelivery : FreshDelivery (r.delivery case (nextSequence db case.log) revision) db
  revisions : db'.revisions = db.revisions ++ [revision]
  cases : db'.cases = db.cases
  advice : db'.advice = db.advice ++ [r.row case (nextSequence db case.log) revision]
  deliveries : db'.deliveries =
    db.deliveries ++ [r.delivery case (nextSequence db case.log) revision]
  sequences : ∀ log, nextSequence db' log =
    if log = case.log then nextSequence db log + 1 else nextSequence db log
  heads : db'.heads = db.heads
  highWater : db'.highWater = db.highWater
  registries : db'.registries = db.registries
  audit : db'.audit = db.audit ++ [r.audit revision]
  outbox : ∃ id, db'.outbox = db.outbox ++
    [announce id r.tenantID .advice r.caseID r.raw revision
      (.edgeDelivery, edgeKey case.issuerEdgeID case.issuerEdgeGeneration)]
  named : ∀ o ∈ db'.outbox, o ∈ db.outbox ∨ o.outboxID ≠ []

theorem writeAdvice_run {r : CommitAdviceRequest} {case : CaseRow}
    (htenant : case.tenantID = r.tenantID) {w w' : World} {receipt : CommitReceipt}
    (h : Prog.run World.exec (store.writeAdvice r case) w = .ok (receipt, w')) :
    AdviceWritten r case w.revision w.db w'.db ∧
      receipt = store.receipt w.revision r.envelopeID r.commitment := by
  have hlog : (r.tenantID, case.issuerEdgeID, case.issuerEdgeGeneration) = case.log := by
    unfold CaseRow.log
    rw [htenant]
  unfold Store.writeAdvice at h
  obtain ⟨sequence, w₁, h₁, hr₁, h⟩ := run_query_bind h
  obtain ⟨hseq, ⟨rows, hdb₁⟩, hnext⟩ := nextDeliverySequence_ok h₁
  rw [hlog] at hseq hnext
  subst hseq
  obtain ⟨revision, w₂, h₂, hr₂, h⟩ := run_query_bind h
  obtain ⟨hrevision, hunused, hdb₂⟩ := insertRevision_ok h₂
  rw [hr₁] at hrevision hunused hdb₂
  subst hrevision
  obtain ⟨u₃, w₃, h₃, hr₃, h⟩ := run_query_bind h
  obtain ⟨hfresh, hdb₃⟩ := insertAdvice_ok (written_eq_ok.mp h₃)
  obtain ⟨u₄, w₄, h₄, hr₄, h⟩ := run_query_bind h
  obtain ⟨hdelivery, hdb₄⟩ := insertDelivery_ok (written_eq_ok.mp h₄)
  obtain ⟨u₅, w₅, h₅, hr₅, h⟩ := run_query_bind h
  obtain ⟨-, hdb₅⟩ := insertAudit_ok (written_eq_ok.mp h₅)
  obtain ⟨u₆, w₆, h₆, h⟩ := (Prog.run_bind_eq_ok World.exec _ _ _ _).mp h
  obtain ⟨-, hdb₆⟩ := insertOutbox_run h₆
  have hx := Except.ok.inj h
  have hreceipt := congrArg Prod.fst hx
  have hw := congrArg Prod.snd hx
  simp only at hreceipt hw hdb₆
  subst hw
  have hafter : ∀ log, nextSequence w₆.db log = nextSequence w₁.db log := by
    intro log
    rw [hdb₆, hdb₅, hdb₄, hdb₃, hdb₂]
    rfl
  have hdb := hdb₆
  rw [hdb₅, hdb₄, hdb₃, hdb₂, hdb₁] at hdb
  have hwritten : AdviceWritten r case w.revision w.db w₆.db :=
    { unused := by rwa [hdb₁] at hunused
      fresh := by
        rw [hdb₂, hdb₁] at hfresh
        exact ⟨hfresh.key, hfresh.envelope, hfresh.commitment⟩
      freshDelivery := by
        rw [hdb₃, hdb₂, hdb₁] at hdelivery
        exact ⟨hdelivery.key, hdelivery.envelope⟩
      revisions := by rw [hdb]
      cases := by rw [hdb]
      advice := by rw [hdb]
      deliveries := by rw [hdb]; rfl
      sequences := by
        intro log
        rw [hafter, hnext]
      heads := by rw [hdb]
      highWater := by rw [hdb]
      registries := by rw [hdb]
      audit := by rw [hdb]; rfl
      outbox := ⟨_, by rw [hdb]; rfl⟩
      named := by
        rw [hdb]
        exact announced_named }
  exact ⟨hwritten, hreceipt.symm⟩

theorem admitAdvice_run {r : CommitAdviceRequest} {w w' : World} {receipt : CommitReceipt}
    (h : Prog.run World.exec (store.admitAdvice r) w = .ok (receipt, w')) :
    ∃ case, Table.find CaseRow.key (r.tenantID, r.caseID) w.db.cases = some case ∧
      r.binds case = true ∧ AdviceWritten r case w.revision w.db w'.db ∧
      receipt = store.receipt w.revision r.envelopeID r.commitment := by
  unfold Store.admitAdvice at h
  obtain ⟨w₁, hdb₁, hr₁, h⟩ := run_read_bind (.selectCase r.tenantID r.caseID)
    (fun db => Table.find CaseRow.key (r.tenantID, r.caseID) db.cases) (fun _ _ => rfl) _ _ _ _ h
  cases hfound : Table.find CaseRow.key (r.tenantID, r.caseID) w.db.cases with
  | none =>
    simp only [hfound] at h
    cases h
  | some case =>
    simp only [hfound] at h
    obtain ⟨hbinds, h⟩ := run_require_bind h
    obtain ⟨w₂, hdb₂, hr₂, h⟩ := run_read_bind
      (.adviceExists r.tenantID r.envelopeID r.commitment)
      (fun db => carries AdviceRow.envelopeKey AdviceRow.commitmentKey r.tenantID r.envelopeID
        r.commitment db.advice) (fun _ _ => rfl) _ _ _ _ h
    obtain ⟨-, h⟩ := run_require_bind h
    have hkey := (Table.find_eq_some hfound).2
    have htenant : case.tenantID = r.tenantID := congrArg Prod.fst hkey
    obtain ⟨hwritten, hreceipt⟩ := writeAdvice_run htenant h
    have hdb : w₂.db = w.db := hdb₂.trans hdb₁
    have hrev : w₂.revision = w.revision := hr₂.trans hr₁
    rw [hdb, hrev] at hwritten
    rw [hrev] at hreceipt
    exact ⟨case, rfl, hbinds, hwritten, hreceipt⟩

theorem commitAdvice_run {r : CommitAdviceRequest} {w w' : World}
    {result : Except StoreError CommitReceipt}
    (h : Prog.run World.exec (store.commitAdvice r) w = .ok (result, w')) :
    (∃ row, Table.find AdviceRow.key (r.tenantID, r.caseID) w.db.advice = some row ∧
      r.matches row = true ∧ w'.db = w.db ∧
      result = .ok (store.withAuthority ⟨[], row.commitRevision, row.envelopeID, row.commitment⟩)) ∨
    (Table.find AdviceRow.key (r.tenantID, r.caseID) w.db.advice = none ∧
      (∃ head, LiveHead w.db r.tenantID head) ∧
      ∃ case, Table.find CaseRow.key (r.tenantID, r.caseID) w.db.cases = some case ∧
        r.binds case = true ∧ AdviceWritten r case w.revision w.db w'.db ∧
        result = .ok (store.receipt w.revision r.envelopeID r.commitment)) := by
  unfold Store.commitAdvice at h
  obtain ⟨existing, w₀, hexisting, h⟩ := (Prog.run_bind_eq_ok World.exec _ _ _ _).mp h
  unfold existingAdvice at hexisting
  obtain ⟨w₁, hdb₁, hr₁, hexisting⟩ := run_read_bind (.selectAdvice r.tenantID r.caseID)
    (fun db => Table.find AdviceRow.key (r.tenantID, r.caseID) db.advice) (fun _ _ => rfl)
    _ _ _ _ hexisting
  cases hfound : Table.find AdviceRow.key (r.tenantID, r.caseID) w.db.advice with
  | some row =>
    simp only [hfound] at hexisting
    by_cases hmatch : r.matches row = true
    · rw [if_pos hmatch] at hexisting
      cases hexisting
      cases h
      exact Or.inl ⟨row, rfl, hmatch, hdb₁, rfl⟩
    · -- a different final advice ends in an error whatever the head says
      rw [if_neg hmatch] at hexisting
      cases hexisting
      obtain ⟨head, w₂, -, -, -, h⟩ := liveHead_bind h
      cases h
  | none =>
    simp only [hfound] at hexisting
    cases hexisting
    obtain ⟨head, w₂, hlive, hdb₂, hr₂, h⟩ := liveHead_bind h
    obtain ⟨receipt, w₃, hadmit, h⟩ := (Prog.run_bind_eq_ok World.exec _ _ _ _).mp h
    cases h
    obtain ⟨case, hcase, hbinds, hwritten, hreceipt⟩ := admitAdvice_run hadmit
    have hdb : w₂.db = w.db := hdb₂.trans hdb₁
    have hrev : w₂.revision = w.revision := hr₂.trans hr₁
    rw [hdb] at hcase
    rw [hdb, hrev] at hwritten
    rw [hrev] at hreceipt
    rw [hdb₁] at hlive
    exact Or.inr ⟨rfl, ⟨head, hlive⟩, case, hcase, hbinds, hwritten, by rw [hreceipt]⟩

/-! ### CommitRegistry -/

variable (r : CommitRegistryRequest)

def CommitRegistryRequest.edgeList : List (Bytes × RegistryEdge) :=
  (r.edges.map fun m => m.entries).getD []

def CommitRegistryRequest.highWater (e : Bytes × RegistryEdge) : HighWaterRow :=
  ⟨r.tenantID, e.1, e.2.principalID, e.2.generation, r.revision⟩

def CommitRegistryRequest.advance (e : Bytes × RegistryEdge) (rows : List HighWaterRow) :
    List HighWaterRow :=
  Table.upsert HighWaterRow.key (r.highWater e) (fun _ => r.highWater e) rows

def CommitRegistryRequest.advanceAll (edges : List (Bytes × RegistryEdge))
    (rows : List HighWaterRow) : List HighWaterRow :=
  edges.foldl (fun rows e => r.advance e rows) rows

def CommitRegistryRequest.AdmitsAll (r : CommitRegistryRequest) (head : Option HeadRow) :
    List (Bytes × RegistryEdge) → List HighWaterRow → Prop
  | [], _ => True
  | e :: rest, rows =>
    admitsEdge head e.2 (Table.find HighWaterRow.key (r.tenantID, e.1) rows) = true ∧
      r.AdmitsAll head rest (r.advance e rows)

theorem upsertHighWater_ok {row : HighWaterRow} {db db' : Database}
    (h : upsertHighWater row db = .ok db') :
    db' = { db with highWater := Table.upsert HighWaterRow.key row (fun _ => row) db.highWater } := by
  unfold upsertHighWater at h
  simp only [ensure_bind_eq_ok] at h
  exact (Except.ok.inj h.2).symm

theorem enforceEdgeGenerationHighWater_run (r : CommitRegistryRequest) (head : Option HeadRow)
    (edges : List (Bytes × RegistryEdge)) (w w' : World) (u : Unit)
    (h : Prog.run World.exec (enforceEdgeGenerationHighWater r head edges) w = .ok (u, w')) :
    w'.revision = w.revision ∧ r.AdmitsAll head edges w.db.highWater ∧
      w'.db = { w.db with highWater := r.advanceAll edges w.db.highWater } := by
  induction edges generalizing w with
  | nil =>
    cases h
    exact ⟨rfl, trivial, rfl⟩
  | cons e rest ih =>
    obtain ⟨edgeID, edge⟩ := e
    obtain ⟨w₁, hdb₁, hr₁, h⟩ := run_read_bind (.selectHighWaterForUpdate r.tenantID edgeID)
      (fun db => Table.find HighWaterRow.key (r.tenantID, edgeID) db.highWater) (fun _ _ => rfl)
      _ _ _ _ h
    obtain ⟨hadmits, h⟩ := run_require_bind h
    obtain ⟨u₂, w₂, h₂, hr₂, h⟩ := run_query_bind h
    have hdb₂ := upsertHighWater_ok (written_eq_ok.mp h₂)
    rw [hdb₁] at hdb₂
    obtain ⟨hrev, hall, hdb⟩ := ih w₂ h
    rw [hdb₂] at hall hdb
    exact ⟨hrev.trans (hr₂.trans hr₁), ⟨hadmits, hall⟩, hdb⟩

def CommitRegistryRequest.row (revision : ℤ) : RegistryRow :=
  ⟨r.tenantID, r.revision, r.envelopeID, r.commitment, r.raw, r.routingEpoch,
    nullableText r.previousCommitment, revision⟩

def CommitRegistryRequest.audit (revision : ℤ) : AuditRow :=
  ⟨r.tenantID, .registry, r.envelopeID, r.commitment, nullableText r.authenticatedPrincipalID,
    nullableText r.authenticatedEdgeID, nullableText r.decision, revision⟩

def CommitRegistryRequest.head : HeadRow :=
  ⟨r.tenantID, r.revision, r.commitment, r.routingEpoch, false, []⟩

def CommitRegistryRequest.headsAfter (head : Option HeadRow) (heads : List HeadRow) :
    List HeadRow :=
  match head with
  | none => heads ++ [r.head]
  | some _ => Table.update HeadRow.tenantID r.tenantID
      (HeadRow.advanced r.revision r.commitment r.routingEpoch) heads

/-- The tables `db'` are `db` with the registry of `r` made the head. -/
structure RegistryWritten (head : Option HeadRow) (revision : ℤ) (db db' : Database) : Prop where
  unused : revision ∉ db.revisions
  fresh : FreshRegistry (r.row revision) db
  admits : r.AdmitsAll head r.edgeList db.highWater
  revisions : db'.revisions = db.revisions ++ [revision]
  cases : db'.cases = db.cases
  advice : db'.advice = db.advice
  deliveries : db'.deliveries = db.deliveries
  sequences : db'.sequences = db.sequences
  highWater : db'.highWater = r.advanceAll r.edgeList db.highWater
  registries : db'.registries = db.registries ++ [r.row revision]
  heads : db'.heads = r.headsAfter head db.heads
  audit : db'.audit = db.audit ++ [r.audit revision]
  outbox : db'.outbox = db.outbox

theorem insertHead_ok {tenantID : Bytes} {revision : ℤ} {commitment : Bytes} {routingEpoch : ℤ}
    {db db' : Database} (h : insertHead tenantID revision commitment routingEpoch db = .ok db') :
    let head : HeadRow := ⟨tenantID, revision, commitment, routingEpoch, false, []⟩
    db' = { db with heads := db.heads ++ [head] } := by
  unfold insertHead at h
  simp only [ensure_bind_eq_ok] at h
  exact (Except.ok.inj h.2.2).symm

theorem updateHead_ok {tenantID : Bytes} {revision : ℤ} {commitment : Bytes} {routingEpoch : ℤ}
    {db db' : Database} (h : updateHead tenantID revision commitment routingEpoch db = .ok db') :
    let heads := Table.update HeadRow.tenantID tenantID
      (HeadRow.advanced revision commitment routingEpoch) db.heads
    db' = { db with heads } := by
  unfold updateHead at h
  simp only [ensure_bind_eq_ok] at h
  exact (Except.ok.inj h.2).symm

theorem writeHead_run (head : Option HeadRow) (w w' : World) (u : Unit)
    (h : Prog.run World.exec (writeHead r head) w = .ok (u, w')) :
    w'.db = { w.db with heads := r.headsAfter head w.db.heads } := by
  cases head with
  | none =>
    obtain ⟨hexec, -⟩ := exec_ok ((Prog.run_stmt_eq_ok World.exec _ _ _ _).mp h)
    exact insertHead_ok (written_eq_ok.mp hexec)
  | some =>
    obtain ⟨hexec, -⟩ := exec_ok ((Prog.run_stmt_eq_ok World.exec _ _ _ _).mp h)
    exact updateHead_ok (written_eq_ok.mp hexec)

theorem writeRegistry_run (store : Store) (r : CommitRegistryRequest) (head : Option HeadRow)
    (w w' : World) (receipt : CommitReceipt)
    (h : Prog.run World.exec (store.writeRegistry r head) w = .ok (receipt, w')) :
    RegistryWritten r head w.revision w.db w'.db ∧
      receipt = store.receipt w.revision r.envelopeID r.commitment := by
  unfold Store.writeRegistry at h
  obtain ⟨w₁, hdb₁, hr₁, h⟩ := run_read_bind
    (.registryExists r.tenantID r.envelopeID r.commitment)
    (fun db => carries RegistryRow.envelopeKey RegistryRow.commitmentKey r.tenantID r.envelopeID
      r.commitment db.registries) (fun _ _ => rfl) _ _ _ _ h
  obtain ⟨-, h⟩ := run_require_bind h
  obtain ⟨u₂, w₂, h₂, h⟩ := (Prog.run_bind_eq_ok World.exec _ _ _ _).mp h
  obtain ⟨hr₂, hadmits, hdb₂⟩ := enforceEdgeGenerationHighWater_run r head _ w₁ w₂ u₂ h₂
  rw [hdb₁] at hadmits hdb₂
  obtain ⟨revision, w₃, h₃, hr₃, h⟩ := run_query_bind h
  obtain ⟨hrevision, hunused, hdb₃⟩ := insertRevision_ok h₃
  rw [hr₂.trans hr₁] at hrevision hunused hdb₃
  subst hrevision
  obtain ⟨u₄, w₄, h₄, hr₄, h⟩ := run_query_bind h
  obtain ⟨hfresh, hdb₄⟩ := insertRegistry_ok (written_eq_ok.mp h₄)
  obtain ⟨u₅, w₅, h₅, h⟩ := (Prog.run_bind_eq_ok World.exec _ _ _ _).mp h
  obtain ⟨u₆, w₆, h₆, hr₆, h⟩ := run_query_bind h
  obtain ⟨-, hdb₆⟩ := insertAudit_ok (written_eq_ok.mp h₆)
  have hx := Except.ok.inj h
  have hreceipt := congrArg Prod.fst hx
  have hw := congrArg Prod.snd hx
  simp only at hreceipt hw
  subst hw
  rw [hdb₃, hdb₂] at hfresh
  rw [hdb₂] at hunused
  have hdb₅ := writeHead_run r head w₄ w₅ u₅ h₅
  have hdb := hdb₆
  rw [hdb₅, hdb₄, hdb₃, hdb₂] at hdb
  have hwritten : RegistryWritten r head w.revision w.db w₆.db :=
    { unused := hunused
      fresh := ⟨hfresh.key, hfresh.envelope, hfresh.commitment⟩
      admits := hadmits
      revisions := by rw [hdb]
      cases := by rw [hdb]
      advice := by rw [hdb]
      deliveries := by rw [hdb]
      sequences := by rw [hdb]
      highWater := by rw [hdb]; rfl
      registries := by rw [hdb]; rfl
      heads := by rw [hdb]
      audit := by rw [hdb]; rfl
      outbox := by rw [hdb] }
  exact ⟨hwritten, hreceipt.symm⟩

def HeadRow.stopped (reason : Bytes) (h : HeadRow) : HeadRow :=
  { h with halted := true, haltReason := reason }

/-- Only the head of the tenant changes: it is halted with `reason`. -/
def Database.halt (db : Database) (tenantID reason : Bytes) : Database :=
  { db with heads := Table.update HeadRow.tenantID tenantID (HeadRow.stopped reason) db.heads }

theorem haltRegistryHead_run {tenantID reason : Bytes} {e : StoreError} {w w' : World}
    {result : Except StoreError CommitReceipt}
    (h : Prog.run World.exec (haltRegistryHead tenantID reason e) w = .ok (result, w')) :
    w'.db = w.db.halt tenantID reason ∧ result = .error e := by
  unfold haltRegistryHead at h
  obtain ⟨affected, w₁, h₁, hr₁, h⟩ := run_query_bind h
  have hdb := congrArg Prod.snd (Except.ok.inj h₁)
  obtain ⟨-, h⟩ := run_require_bind h
  cases h
  exact ⟨hdb.symm, rfl⟩

/-- The request is the next link of the chain: the first one without a
predecessor, or the revision after the live head, naming its commitment. -/
def CommitRegistryRequest.Follows : Option HeadRow → Prop
  | none => r.previousCommitment = []
  | some head => head.halted = false ∧ r.revision = head.latestRevision + 1 ∧
      r.previousCommitment = head.latestCommitment

inductive CommitRegistryRequest.Halts (r : CommitRegistryRequest) (head : HeadRow)
    (db : Database) : Bytes → StoreError → Prop
  | rollback (lower : r.revision < head.latestRevision) :
      r.Halts head db registryHaltRevisionRollback .registryRollback
  | conflict (same : r.revision = head.latestRevision) (old : RegistryRow)
      (found : Table.find RegistryRow.key (r.tenantID, r.revision) db.registries = some old)
      (different : r.matches old = false) :
      r.Halts head db registryHaltSameRevisionConflict .registryEquivocation
  | predecessor (next : r.revision = head.latestRevision + 1)
      (wrong : r.previousCommitment ≠ head.latestCommitment) :
      r.Halts head db registryHaltPredecessorMismatch .registryEquivocation

theorem existingRegistry_run {r : CommitRegistryRequest} {w w' : World}
    {existing : Option CommitReceipt}
    (h : Prog.run World.exec (existingRegistry r) w = .ok (existing, w')) :
    w'.db = w.db ∧ ∃ old, Table.find RegistryRow.key (r.tenantID, r.revision) w.db.registries =
      some old ∧ (existing = none → r.matches old = false) := by
  unfold existingRegistry at h
  obtain ⟨w₁, hdb₁, -, h⟩ := run_read_bind (.selectRegistry r.tenantID r.revision)
    (fun db => Table.find RegistryRow.key (r.tenantID, r.revision) db.registries)
    (fun _ _ => rfl) _ _ _ _ h
  cases hrow : Table.find RegistryRow.key (r.tenantID, r.revision) w.db.registries with
  | none =>
    simp only [hrow] at h
    cases h
  | some old =>
    simp only [hrow] at h
    cases hmatch : r.matches old with
    | true =>
      rw [hmatch] at h
      cases h
      exact ⟨hdb₁, old, rfl, fun hnone => by cases hnone⟩
    | false =>
      rw [hmatch] at h
      cases h
      exact ⟨hdb₁, old, rfl, fun _ => hmatch⟩

theorem commitRegistry_run {r : CommitRegistryRequest} {w w' : World}
    {result : Except StoreError CommitReceipt}
    (h : Prog.run World.exec (store.commitRegistry r) w = .ok (result, w')) :
    (w'.db = w.db ∧ ∃ receipt, result = .ok receipt) ∨
      (∃ head reason e, LiveHead w.db r.tenantID head ∧ r.Halts head w.db reason e ∧
        w'.db = w.db.halt r.tenantID reason ∧ result = .error e) ∨
      ∃ head, Table.find HeadRow.tenantID r.tenantID w.db.heads = head ∧ r.Follows head ∧
        RegistryWritten r head w.revision w.db w'.db ∧ ∃ receipt, result = .ok receipt := by
  unfold Store.commitRegistry at h
  obtain ⟨w₁, hdb₁, hr₁, h⟩ := run_read_bind (.selectHeadForUpdate r.tenantID)
    (fun db => Table.find HeadRow.tenantID r.tenantID db.heads) (fun _ _ => rfl) _ _ _ _ h
  cases hfound : Table.find HeadRow.tenantID r.tenantID w.db.heads with
  | none =>
    simp only [hfound] at h
    obtain ⟨hfirst, h⟩ := run_require_bind h
    obtain ⟨receipt, w₂, hwrite, h⟩ := (Prog.run_bind_eq_ok World.exec _ _ _ _).mp h
    cases h
    have hwritten := (writeRegistry_run store r none w₁ w' receipt hwrite).1
    rw [hdb₁, hr₁] at hwritten
    exact Or.inr (Or.inr ⟨none, rfl, List.isEmpty_iff.mp hfirst, hwritten, receipt, rfl⟩)
  | some head =>
    simp only [hfound] at h
    obtain ⟨hnot, h⟩ := run_require_bind h
    have hlive : LiveHead w.db r.tenantID head := ⟨hfound, by simpa using hnot⟩
    split at h
    · rename_i hlower
      obtain ⟨hhalt, hresult⟩ := haltRegistryHead_run h
      rw [hdb₁] at hhalt
      exact Or.inr (Or.inl ⟨head, _, _, hlive, .rollback hlower, hhalt, hresult⟩)
    · split at h
      · -- the current revision again: exact replay, or equivocation
        rename_i hsame
        obtain ⟨existing, w₂, hexisting, h⟩ := (Prog.run_bind_eq_ok World.exec _ _ _ _).mp h
        obtain ⟨hdb₂, old, hold, hdifferent⟩ := existingRegistry_run hexisting
        rw [hdb₁] at hdb₂ hold
        cases existing with
        | some receipt =>
          cases h
          exact Or.inl ⟨hdb₂, _, rfl⟩
        | none =>
          obtain ⟨hhalt, hresult⟩ := haltRegistryHead_run h
          rw [hdb₂] at hhalt
          exact Or.inr (Or.inl ⟨head, _, _, hlive, .conflict hsame old hold (hdifferent rfl), hhalt,
            hresult⟩)
      · obtain ⟨hnext, h⟩ := run_require_bind h
        rw [beq_iff_eq] at hnext
        split at h
        · rename_i hprevious
          obtain ⟨receipt, w₂, hwrite, h⟩ := (Prog.run_bind_eq_ok World.exec _ _ _ _).mp h
          cases h
          have hwritten := (writeRegistry_run store r (some head) w₁ w' receipt hwrite).1
          rw [hdb₁, hr₁] at hwritten
          exact Or.inr (Or.inr ⟨some head, rfl, ⟨hlive.live, hnext, hprevious⟩, hwritten, receipt,
            rfl⟩)
        · rename_i hwrong
          obtain ⟨hhalt, hresult⟩ := haltRegistryHead_run h
          rw [hdb₁] at hhalt
          exact Or.inr (Or.inl ⟨head, _, _, hlive, .predecessor hnext hwrong, hhalt, hresult⟩)

/-! ### One attempt of any call -/

inductive Change (db : Database) : Call → Database → Prop where
  | none {c : Call} : Change db c db
  | case (r : CommitCaseRequest) (revision : ℤ) {db' : Database}
      (written : CaseWritten r revision db db') (valid : r.validate = .ok ())
      (free : Table.find CaseRow.key (r.tenantID, r.caseID) db.cases = .none)
      (head : HeadRow) (live : LiveHead db r.tenantID head) (binds : r.bindsHead head)
      (positive : 0 < revision) : Change db (.case r) db'
  | advice (r : CommitAdviceRequest) (c : CaseRow) (revision : ℤ) {db' : Database}
      (written : AdviceWritten r c revision db db') (valid : r.validate = .ok ())
      (free : Table.find AdviceRow.key (r.tenantID, r.caseID) db.advice = .none)
      (head : HeadRow) (live : LiveHead db r.tenantID head)
      (found : Table.find CaseRow.key (r.tenantID, r.caseID) db.cases = some c)
      (binds : r.binds c = true) (positive : 0 < revision) : Change db (.advice r) db'
  | registry (r : CommitRegistryRequest) (revision : ℤ) {db' : Database}
      (written : RegistryWritten r (Table.find HeadRow.tenantID r.tenantID db.heads) revision db db')
      (valid : r.validate = .ok ())
      (next : r.Follows (Table.find HeadRow.tenantID r.tenantID db.heads))
      (positive : 0 < revision) : Change db (.registry r) db'
  | halted (r : CommitRegistryRequest) (head : HeadRow) (reason : Bytes) (e : StoreError)
      (live : LiveHead db r.tenantID head) (contradicts : r.Halts head db reason e) :
      Change db (.registry r) (db.halt r.tenantID reason)

theorem body_change {c : Call} (hvalid : c.validate = .ok ()) {w w' : World}
    {result : Except StoreError CommitReceipt} (hpos : 0 < w.revision)
    (h : Prog.run World.exec (store.body c) w = .ok (result, w')) :
    Change w.db c w'.db ∧ (w'.db.revisions = w.db.revisions ∨
      w'.db.revisions = w.db.revisions ++ [w.revision]) := by
  have hsame : w'.db = w.db → Change w.db c w'.db ∧ (w'.db.revisions = w.db.revisions ∨
      w'.db.revisions = w.db.revisions ++ [w.revision]) := by
    intro hdb
    rw [hdb]
    exact ⟨.none, .inl rfl⟩
  cases c with
  | case r =>
    rcases commitCase_run h with ⟨row, -, -, hdb, -⟩ |
      ⟨hfree, ⟨head, hlive, hbinds⟩, hwritten, -⟩
    · exact hsame hdb
    · exact ⟨.case r _ hwritten hvalid hfree head hlive hbinds hpos, Or.inr hwritten.revisions⟩
  | advice r =>
    rcases commitAdvice_run h with ⟨row, -, -, hdb, -⟩ |
      ⟨hfree, ⟨head, hlive⟩, case, hfound, hbinds, hwritten, -⟩
    · exact hsame hdb
    · exact ⟨.advice r case _ hwritten hvalid hfree head hlive hfound hbinds hpos,
        Or.inr hwritten.revisions⟩
  | registry r =>
    rcases commitRegistry_run h with ⟨hdb, -⟩ |
      ⟨head, reason, e, hlive, hhalts, hdb, -⟩ | ⟨head, hfound, hnext, hwritten, -⟩
    · exact hsame hdb
    · rw [hdb]
      exact ⟨.halted r head reason e hlive hhalts, Or.inl rfl⟩
    · subst hfound
      exact ⟨.registry r _ hwritten hvalid hnext hpos, Or.inr hwritten.revisions⟩

theorem step_body (store : Store) (db : Database) (e : Event) :
    store.step db e = db ∨
      ∃ result w, e.call.validate = .ok () ∧ w.db = store.step db e ∧
        Prog.run World.exec (store.body e.call) ⟨db, e.env.faults, e.env.nextval + 1⟩ =
          .ok (result, w) := by
  unfold Store.step
  cases hvalid : e.call.validate with
  | error => exact Or.inl rfl
  | ok =>
    rcases attempt_db e.call.label (store.body e.call) e.env db with hsame | ⟨result, w, hrun, hdb⟩
    · exact Or.inl hsame
    · exact Or.inr ⟨result, w, rfl, hdb.symm, hrun⟩

theorem step_change (store : Store) (db : Database) (e : Event) :
    Change db e.call (store.step db e) := by
  rcases step_body store db e with hsame | ⟨result, w, hvalid, hdb, hrun⟩
  · rw [hsame]
    exact .none
  · rw [← hdb]
    have hpos : (0 : ℤ) < e.env.nextval + 1 := by omega
    exact (body_change hvalid hpos hrun).1

end Snagline.Authority
