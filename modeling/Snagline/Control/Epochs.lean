import Snagline.Authority.Constraints
import Snagline.Control.Publication

/-!
# Routing epochs along the accepted registries

`CommitRegistry` compares revision and predecessor of a registry with the locked head
and the generations of its edges with their high water. Epochs are written and never
compared, so along a run they move as the root signed them: forward where every
registry that follows the head was signed so.
-/

namespace Snagline.Control
open Kit Ssp Registry Authority

structure Forward (s s' : Snapshot) : Prop where
  head : s.routingEpoch ≤ s'.routingEpoch
  domains : ∀ domain route route', s.domain domain = some route → s'.domain domain = some route' →
    route.routingEpoch ≤ route'.routingEpoch

theorem Forward.refl (s : Snapshot) : Forward s s where
  head := le_refl _
  domains := by
    intro domain route route' h h'
    rw [h] at h'
    cases h'
    exact le_refl _

def Reads (s : Service) (raw : Bytes) (snapshot : Snapshot) : Prop :=
  ∃ root, RegistryChecked s raw root snapshot

theorem Reads.unique {s : Service} {raw : Bytes} {a b : Snapshot} (ha : Reads s raw a)
    (hb : Reads s raw b) : a = b := by
  obtain ⟨_, ha⟩ := ha
  obtain ⟨_, hb⟩ := hb
  exact (ha.rooted.unique hb.rooted).2

structure Stands (s : Service) (db : Database) (head : HeadRow) (snapshot : Snapshot) : Prop where
  listed : db.headOf s.tenant = some head
  accepted : ∃ r ∈ db.registries, r.key = (s.tenant, head.latestRevision) ∧
    Reads s r.raw snapshot

section
variable {d : Deployment} {events : List Event}

theorem run_chained (d : Deployment) (events : List Event) : Chained (d.run {} events).db := by
  obtain ⟨es, hdb⟩ := (run_accounted d events).reachable
  rw [hdb]
  exact reachable_chained d.store es

theorem reads_of_row {r : RegistryRow} (h : r ∈ (d.run {} events).db.registries) :
    ∃ snapshot, Reads d.service r.raw snapshot ∧ snapshot.routingEpoch = r.routingEpoch := by
  cases (run_accounted d events).registries r h with
  | intro workload clock made root snapshot checked committed =>
    exact ⟨snapshot, ⟨root, checked⟩, (congrArg RegistryRow.routingEpoch committed).symm⟩

theorem mem_registriesOf {db : Database} {tenantID : Bytes} {r : RegistryRow} :
    r ∈ db.registriesOf tenantID ↔ r ∈ db.registries ∧ r.tenantID = tenantID := by
  simp [Database.registriesOf]

/-- The registry the head stands on is the last one accepted. -/
theorem Stands.last {head : HeadRow} {snapshot : Snapshot}
    (h : Stands d.service (d.run {} events).db head snapshot) :
    ∃ r, ((d.run {} events).db.registriesOf d.service.tenant).getLast? = some r ∧
      head.routingEpoch = snapshot.routingEpoch ∧ Reads d.service r.raw snapshot := by
  obtain ⟨hhead, r, hmem, hkey, hreads⟩ := h
  have hchained := (run_chained d events).head d.service.tenant
  rw [hhead] at hchained
  cases hr : ((d.run {} events).db.registriesOf d.service.tenant).getLast? with
  | none =>
    rw [hr] at hchained
    cases hchained
  | some last =>
    rw [hr] at hchained
    have hposition : head.position = last.position := Option.some.inj hchained
    have hrevision : head.latestRevision = last.registryRevision := congrArg Position.revision hposition
    obtain ⟨hlast, htenant⟩ := mem_registriesOf.mp (List.mem_of_getLast? hr)
    have hsame : r = last := by
      obtain ⟨es, hdb⟩ := (run_accounted d events).reachable
      rw [hdb] at hmem hlast
      refine (reachable_constrained d.store es).registry.eq_of_key hmem hlast ?_
      rw [hkey, hrevision, ← htenant]
      rfl
    subst hsame
    obtain ⟨snapshot', hreads', hepoch⟩ := reads_of_row hmem
    have hheadEpoch : head.routingEpoch = r.routingEpoch := congrArg Position.routingEpoch hposition
    refine ⟨r, rfl, ?_, hreads⟩
    rw [hheadEpoch, ← hepoch, hreads.unique hreads']

end

namespace Sample

def revision (id number epoch : String) (previous : Bytes) : Bytes :=
  registryOf id number epoch "e" previous

-- byte 34 of a registry is its identifier
def identifying : Deployment :=
  { deployment with service := { service with primitives := { primitives with
      sha256 := fun message => List.replicate 32 (message.getD 34 0) } } }

def high : Bytes := revision "r" "1" "7" (text "null")
def low : Bytes := revision "q" "2" "3" (34 :: commitment "72" ++ [34])
def published (next : Bytes) : List Event :=
  [.submitRegistry publisher high (second 20), .attempt 0 { nextval := 0 },
    .submitRegistry publisher next (second 20), .attempt 1 { nextval := 1 }]

def read (raw : Bytes) : Option Snapshot :=
  (identifying.service.trust.verify identifying.service.primitives raw (second 20 0)).toOption

end Sample

end Snagline.Control
