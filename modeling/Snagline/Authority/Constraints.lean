import Snagline.Authority.Invariants

/-!
# Unique keys (0001_authority.up.sql)

The primary keys and UNIQUE constraints of the semantic tables, as an invariant
of every history. The constraint on the envelope identifiers of deliveries is
the only one that spans two families.
-/

namespace Snagline.Authority
open Kit Ssp

section
variable {db db' : Database} {revision : ℤ} (r : CommitRegistryRequest)

structure Constrained (db : Database) : Prop where
  case : Table.Keyed CaseRow.key db.cases
  caseEnvelope : Table.Keyed CaseRow.envelopeKey db.cases
  caseCommitment : Table.Keyed CaseRow.commitmentKey db.cases
  advice : Table.Keyed AdviceRow.key db.advice
  adviceEnvelope : Table.Keyed AdviceRow.envelopeKey db.advice
  adviceCommitment : Table.Keyed AdviceRow.commitmentKey db.advice
  registry : Table.Keyed RegistryRow.key db.registries
  registryEnvelope : Table.Keyed RegistryRow.envelopeKey db.registries
  registryCommitment : Table.Keyed RegistryRow.commitmentKey db.registries
  delivery : Table.Keyed DeliveryRow.key db.deliveries
  deliveryEnvelope : Table.Keyed DeliveryRow.envelopeKey db.deliveries
  head : Table.Keyed HeadRow.tenantID db.heads
  highWater : Table.Keyed HighWaterRow.key db.highWater

theorem constrained_empty : Constrained {} := by
  constructor <;> exact Table.keyed_nil _

theorem Constrained.keep (h : Constrained db) (hcases : db'.cases = db.cases)
    (hadvice : db'.advice = db.advice) (hregistries : db'.registries = db.registries)
    (hdeliveries : db'.deliveries = db.deliveries)
    (hheads : Table.Keyed HeadRow.tenantID db'.heads)
    (hwater : db'.highWater = db.highWater) : Constrained db' where
  case := hcases ▸ h.case
  caseEnvelope := hcases ▸ h.caseEnvelope
  caseCommitment := hcases ▸ h.caseCommitment
  advice := hadvice ▸ h.advice
  adviceEnvelope := hadvice ▸ h.adviceEnvelope
  adviceCommitment := hadvice ▸ h.adviceCommitment
  registry := hregistries ▸ h.registry
  registryEnvelope := hregistries ▸ h.registryEnvelope
  registryCommitment := hregistries ▸ h.registryCommitment
  delivery := hdeliveries ▸ h.delivery
  deliveryEnvelope := hdeliveries ▸ h.deliveryEnvelope
  head := hheads
  highWater := hwater ▸ h.highWater

theorem Constrained.case_written {r : CommitCaseRequest}
    (h : Constrained db) (written : CaseWritten r revision db db') : Constrained db' where
  case := written.cases ▸ h.case.append written.fresh.key
  caseEnvelope := written.cases ▸ h.caseEnvelope.append written.fresh.envelope
  caseCommitment := written.cases ▸ h.caseCommitment.append written.fresh.commitment
  advice := written.advice ▸ h.advice
  adviceEnvelope := written.advice ▸ h.adviceEnvelope
  adviceCommitment := written.advice ▸ h.adviceCommitment
  registry := written.registries ▸ h.registry
  registryEnvelope := written.registries ▸ h.registryEnvelope
  registryCommitment := written.registries ▸ h.registryCommitment
  delivery := written.deliveries ▸ h.delivery.append written.freshDelivery.key
  deliveryEnvelope := written.deliveries ▸ h.deliveryEnvelope.append written.freshDelivery.envelope
  head := written.heads ▸ h.head
  highWater := written.highWater ▸ h.highWater

theorem Constrained.advice_written {r : CommitAdviceRequest} {c : CaseRow} (h : Constrained db)
    (written : AdviceWritten r c revision db db') :
    Constrained db' where
  case := written.cases ▸ h.case
  caseEnvelope := written.cases ▸ h.caseEnvelope
  caseCommitment := written.cases ▸ h.caseCommitment
  advice := written.advice ▸ h.advice.append written.fresh.key
  adviceEnvelope := written.advice ▸ h.adviceEnvelope.append written.fresh.envelope
  adviceCommitment := written.advice ▸ h.adviceCommitment.append written.fresh.commitment
  registry := written.registries ▸ h.registry
  registryEnvelope := written.registries ▸ h.registryEnvelope
  registryCommitment := written.registries ▸ h.registryCommitment
  delivery := written.deliveries ▸ h.delivery.append written.freshDelivery.key
  deliveryEnvelope := written.deliveries ▸ h.deliveryEnvelope.append written.freshDelivery.envelope
  head := written.heads ▸ h.head
  highWater := written.highWater ▸ h.highWater

theorem advanceAll_keyed (edges : List (Bytes × RegistryEdge))
    {rows : List HighWaterRow} (h : Table.Keyed HighWaterRow.key rows) :
    Table.Keyed HighWaterRow.key (r.advanceAll edges rows) := by
  induction edges generalizing rows with
  | nil => exact h
  | cons e rest ih => exact ih (h.replace (r.highWater e))

theorem headsAfter_keyed {heads : List HeadRow}
    (h : Table.Keyed HeadRow.tenantID heads) :
    Table.Keyed HeadRow.tenantID
      (r.headsAfter (Table.find HeadRow.tenantID r.tenantID heads) heads) := by
  cases hfind : Table.find HeadRow.tenantID r.tenantID heads with
  | some => exact h.update r.tenantID fun _ => rfl
  | none =>
    have habsent := Table.find_eq_none.mp hfind
    exact h.append (Table.clash_eq_false.mpr habsent)

theorem Constrained.registry_written {r : CommitRegistryRequest} (h : Constrained db)
    (written : RegistryWritten r (Table.find HeadRow.tenantID r.tenantID db.heads) revision db db') :
    Constrained db' where
  case := written.cases ▸ h.case
  caseEnvelope := written.cases ▸ h.caseEnvelope
  caseCommitment := written.cases ▸ h.caseCommitment
  advice := written.advice ▸ h.advice
  adviceEnvelope := written.advice ▸ h.adviceEnvelope
  adviceCommitment := written.advice ▸ h.adviceCommitment
  registry := written.registries ▸ h.registry.append written.fresh.key
  registryEnvelope := written.registries ▸ h.registryEnvelope.append written.fresh.envelope
  registryCommitment := written.registries ▸ h.registryCommitment.append written.fresh.commitment
  delivery := written.deliveries ▸ h.delivery
  deliveryEnvelope := written.deliveries ▸ h.deliveryEnvelope
  head := written.heads ▸ headsAfter_keyed r h.head
  highWater := written.highWater ▸ advanceAll_keyed r r.edgeList h.highWater

theorem Constrained.change {c : Call} (h : Constrained db) (hchange : Change db c db') :
    Constrained db' := by
  cases hchange with
  | none => exact h
  | case r revision written => exact h.case_written written
  | advice r c revision written => exact h.advice_written written
  | registry r revision written => exact h.registry_written written
  | halted r =>
    exact h.keep rfl rfl rfl rfl (h.head.update r.tenantID fun _ => rfl) rfl

theorem reachable_constrained (store : Store) (es : List Event) : Constrained (store.run {} es) :=
  run_invariant store Constrained (fun db e h => h.change (step_change store db e)) {} es
    constrained_empty

end

/-! ### Envelope identifiers -/

def Fact.envelopeKey : Fact → Bytes × Bytes
  | .case c => c.envelopeKey
  | .advice a => a.envelopeKey

theorem delivery_envelopeKey (f : Fact) (sequence : ℤ) :
    (f.delivery sequence).envelopeKey = f.envelopeKey := by
  cases f <;> rfl

theorem fact_of_envelope {store : Store} {es : List Event} {f g : Fact}
    (hf : f.CommittedIn (store.run {} es)) (hg : g.CommittedIn (store.run {} es))
    (hkey : f.envelopeKey = g.envelopeKey) : f = g := by
  obtain ⟨facts, hrep⟩ := reachable_represents store es
  have hdb := reachable_constrained store es
  have hf' := (hrep.committed f).mp hf
  have hg' := (hrep.committed g).mp hg
  obtain ⟨n, hn⟩ := hrep.delivered hf'
  obtain ⟨m, hm⟩ := hrep.delivered hg'
  have hsame : f.delivery n = g.delivery m := by
    refine hdb.deliveryEnvelope.eq_of_key hn hm ?_
    rw [delivery_envelopeKey, delivery_envelopeKey, hkey]
  have hrevision := congrArg DeliveryRow.authorityRevision hsame
  rw [Fact.delivery_revision, Fact.delivery_revision] at hrevision
  exact hrep.eq_of_revision hf' hg' hrevision

end Snagline.Authority
