import Snagline.Authority.Constraints
import Snagline.Control.Resubmission

/-!
# Envelope identifiers (store.go:619-630, 740-759)

Each family looks for a taken envelope identifier in its own table. Cases and
advice meet again in the deliveries, where the identifier is unique across both;
registries are not delivered, so nothing compares theirs with the others.
-/

namespace Snagline.Control
open Kit Ssp Registry Authority

inductive CommittedEnvelope where
  | registry (row : RegistryRow)
  | fact (f : Fact)

namespace CommittedEnvelope

def envelopeKey : CommittedEnvelope → Bytes × Bytes
  | .registry r => r.envelopeKey
  | .fact f => f.envelopeKey

def commitment : CommittedEnvelope → Bytes
  | .registry r => r.commitment
  | .fact (.case c) => c.commitment
  | .fact (.advice a) => a.commitment

def isRegistry : CommittedEnvelope → Bool
  | .registry _ => true
  | .fact _ => false

def CommittedIn (db : Database) : CommittedEnvelope → Prop
  | .registry r => r ∈ db.registries
  | .fact f => f.CommittedIn db

end CommittedEnvelope

/-- Two committed envelopes of one tenant with one identifier are the same
envelope, unless exactly one of them is a registry. -/
theorem envelope_id_of_family (d : Deployment) (events : List Event) (x y : CommittedEnvelope) :
    let db := (d.run {} events).db
    x.CommittedIn db → y.CommittedIn db → x.envelopeKey = y.envelopeKey →
      x.isRegistry = y.isRegistry → x = y ∧ x.commitment = y.commitment := by
  intro db hx hy hkey hfamily
  obtain ⟨es, hes⟩ := (run_accounted d events).reachable
  have hdb : db = d.store.run {} es := hes
  have hsame : x = y := by
    cases x with
    | registry =>
      cases y with
      | fact g => cases hfamily
      | registry r' =>
        have hunique := (hdb ▸ reachable_constrained d.store es : Constrained db).registryEnvelope
        rw [hunique.eq_of_key hx hy hkey]
    | fact =>
      cases y with
      | registry r => cases hfamily
      | fact g =>
        rw [hdb] at hx hy
        rw [fact_of_envelope hx hy hkey]
  exact ⟨hsame, congrArg CommittedEnvelope.commitment hsame⟩

namespace Sample

def namesake : Bytes := caseOf "r" "c" "e" "2026-01-01T00:00:06Z"

end Sample

theorem envelope_id_of_family_sample :
    let x : CommittedEnvelope :=
      .registry ⟨[116], 1, [114], Sample.commitment "72", Sample.registry, 1, none, 1⟩
    x.CommittedIn (Sample.deployment.run {} (Sample.events Sample.namesake)).db ∧
      x = x ∧ x.commitment = x.commitment := by
  intro x
  have hx : x.CommittedIn (Sample.deployment.run {} (Sample.events Sample.namesake)).db := by
    show _ ∈ _
    decide +kernel
  exact ⟨hx, envelope_id_of_family Sample.deployment (Sample.events Sample.namesake) x x hx hx rfl rfl⟩

/-- The store commits a registry and a case under one envelope identifier. -/
theorem envelope_id_shared :
    let db := (Sample.deployment.run {} (Sample.events Sample.namesake)).db
    db.registries.map (fun r => (r.envelopeKey, r.commitment)) =
        [(([116], [114]), Sample.commitment "72")] ∧
      db.cases.map (fun c => (c.envelopeKey, c.commitment)) =
        [(([116], [114]), Sample.commitment "63")] ∧
      Sample.commitment "72" ≠ Sample.commitment "63" := by
  decide +kernel

end Snagline.Control
