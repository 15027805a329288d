import Snagline.Authority.Lookup

/-!
# What the registry head rests on

The head of a tenant is the registry committed last: its row is in the table,
and every edge it lists stands in the high-water table at that revision. A case
is bound to the head it was committed under, so its registry row is there too.
-/

namespace Snagline.Authority
open Kit Ssp

/-- `head` is the head the request made, and the edges of the request are the
last to have been seen. -/
structure Installed (r : CommitRegistryRequest) (head : HeadRow) (db : Database) : Prop where
  tenant : head.tenantID = r.tenantID
  revision : head.latestRevision = r.revision
  commitment : head.latestCommitment = r.commitment
  epoch : head.routingEpoch = r.routingEpoch
  valid : r.validate = .ok ()
  row : ∃ revision, r.row revision ∈ db.registries
  edges : ∀ e ∈ r.edgeList,
    Table.find HighWaterRow.key (r.tenantID, e.1) db.highWater = some (r.highWater e)

theorem Installed.keep {r : CommitRegistryRequest} {head : HeadRow} {db db' : Database}
    (h : Installed r head db) (hrows : db.registries <+: db'.registries)
    (hwater : ∀ id, Table.find HighWaterRow.key (head.tenantID, id) db'.highWater =
      Table.find HighWaterRow.key (head.tenantID, id) db.highWater) : Installed r head db' := by
  obtain ⟨revision, hrow⟩ := h.row
  refine ⟨h.tenant, h.revision, h.commitment, h.epoch, h.valid, ⟨revision, hrows.subset hrow⟩, ?_⟩
  intro e he
  rw [← h.tenant, hwater, h.tenant]
  exact h.edges e he

/-! ### The high-water table after a registry -/

section
variable (r : CommitRegistryRequest)

theorem advance_find (e : Bytes × RegistryEdge) (k : Bytes × Bytes)
    (rows : List HighWaterRow) :
    Table.find HighWaterRow.key k (r.advance e rows) =
      if k = (r.tenantID, e.1) then some (r.highWater e)
      else Table.find HighWaterRow.key k rows :=
  Table.find_replace HighWaterRow.key (r.highWater e) k rows

theorem advanceAll_other (edges : List (Bytes × RegistryEdge))
    (k : Bytes × Bytes) (hk : ∀ e ∈ edges, k ≠ (r.tenantID, e.1)) (rows : List HighWaterRow) :
    Table.find HighWaterRow.key k (r.advanceAll edges rows) =
      Table.find HighWaterRow.key k rows := by
  induction edges generalizing rows with
  | nil => rfl
  | cons e rest ih =>
    have hrest := ih (fun x hx => hk x (List.mem_cons_of_mem _ hx)) (r.advance e rows)
    have hne : k ≠ (r.tenantID, e.1) := hk e List.mem_cons_self
    show Table.find HighWaterRow.key k (r.advanceAll rest (r.advance e rows)) = _
    rw [hrest, advance_find, if_neg hne]

theorem advanceAll_own (edges : List (Bytes × RegistryEdge))
    (hdistinct : edges.Pairwise fun a b => a.1 < b.1) (e : Bytes × RegistryEdge) (he : e ∈ edges)
    (rows : List HighWaterRow) :
    Table.find HighWaterRow.key (r.tenantID, e.1) (r.advanceAll edges rows) =
      some (r.highWater e) := by
  induction edges generalizing rows with
  | nil => cases he
  | cons x rest ih =>
    obtain ⟨hx, hrest⟩ := List.pairwise_cons.mp hdistinct
    show Table.find HighWaterRow.key (r.tenantID, e.1) (r.advanceAll rest (r.advance x rows)) = _
    rcases List.mem_cons.mp he with rfl | he
    · -- no later edge has the same identifier
      have hother : ∀ y ∈ rest, (r.tenantID, e.1) ≠ (r.tenantID, y.1) := by
        intro y hy hsame
        have hlt := hx y hy
        rw [(Prod.mk.inj hsame).2] at hlt
        exact List.lt_irrefl _ hlt
      rw [advanceAll_other r rest _ hother, advance_find, if_pos rfl]
    · exact ih hrest he (r.advance x rows)

theorem CommitRegistryRequest.edgeList_ordered :
    r.edgeList.Pairwise fun a b => a.1 < b.1 := by
  unfold CommitRegistryRequest.edgeList
  cases r.edges with
  | none => exact List.Pairwise.nil
  | some m => exact m.ordered

end

/-! ### Heads after a step -/

section
variable {r : CommitRegistryRequest} {db db' : Database} {revision : ℤ}

theorem RegistryWritten.installed {head : Option HeadRow}
    (written : RegistryWritten r head revision db db')
    (hvalid : r.validate = .ok ()) {made : HeadRow} (htenant : made.tenantID = r.tenantID)
    (hrevision : made.latestRevision = r.revision) (hcommitment : made.latestCommitment = r.commitment)
    (hepoch : made.routingEpoch = r.routingEpoch) : Installed r made db' where
  tenant := htenant
  revision := hrevision
  commitment := hcommitment
  epoch := hepoch
  valid := hvalid
  row := by
    refine ⟨revision, ?_⟩
    rw [written.registries]
    exact List.mem_append_right _ List.mem_cons_self
  edges := by
    intro e he
    rw [written.highWater]
    exact advanceAll_own r r.edgeList r.edgeList_ordered e he db.highWater

-- the edges of another tenant have other keys
theorem RegistryWritten.other_tenant {head : Option HeadRow}
    (written : RegistryWritten r head revision db db')
    {other : HeadRow} (hother : other.tenantID ≠ r.tenantID) {made : CommitRegistryRequest}
    (h : Installed made other db) : Installed made other db' := by
  refine h.keep ?_ ?_
  · rw [written.registries]
    exact List.prefix_append _ _
  · intro id
    rw [written.highWater]
    refine advanceAll_other r r.edgeList _ ?_ db.highWater
    intro e he hsame
    exact hother (Prod.mk.inj hsame).1

theorem RegistryWritten.heads_installed
    (written : RegistryWritten r (Table.find HeadRow.tenantID r.tenantID db.heads) revision db db')
    (hvalid : r.validate = .ok ()) {head : HeadRow} (hhead : head ∈ db'.heads) :
    (head ∈ db.heads ∧ ∀ made, Installed made head db → Installed made head db') ∨
      Installed r head db' := by
  rw [written.heads] at hhead
  unfold CommitRegistryRequest.headsAfter at hhead
  cases hfound : Table.find HeadRow.tenantID r.tenantID db.heads with
  | none =>
    simp only [hfound] at hhead
    rcases List.mem_append.mp hhead with hold | hnew
    · have hother := Table.find_eq_none.mp hfound head hold
      exact Or.inl ⟨hold, fun made h => written.other_tenant hother h⟩
    · rw [List.mem_singleton.mp hnew]
      exact Or.inr (written.installed hvalid rfl rfl rfl rfl)
  | some =>
    simp only [hfound] at hhead
    obtain ⟨x, hx, ⟨hother, rfl⟩ | ⟨htenant, rfl⟩⟩ := Table.mem_update hhead
    · exact Or.inl ⟨hx, fun made h => written.other_tenant hother h⟩
    · exact Or.inr (written.installed hvalid htenant rfl rfl rfl)

theorem Change.installed {db db' : Database} {c : Call} {head : HeadRow} (h : Change db c db')
    (hhead : head ∈ db'.heads) :
    (∃ old ∈ db.heads, ∀ made, Installed made old db → Installed made head db') ∨
      ∃ r, c = .registry r ∧ Installed r head db' := by
  cases h with
  | none => exact Or.inl ⟨head, hhead, fun _ h => h⟩
  | case _ _ written | advice _ _ _ written =>
    refine Or.inl ⟨head, written.heads ▸ hhead, fun made h => h.keep ?_ fun id => ?_⟩
    · rw [written.registries]
    · rw [written.highWater]
  | registry r revision written valid =>
    rcases written.heads_installed valid hhead with ⟨hold, hkeep⟩ | hnew
    · exact Or.inl ⟨head, hold, hkeep⟩
    · exact Or.inr ⟨r, rfl, hnew⟩
  | halted =>
    obtain ⟨x, hx, ⟨-, rfl⟩ | ⟨-, rfl⟩⟩ := Table.mem_update hhead
    · exact Or.inl ⟨head, hx, fun _ h =>
        ⟨h.tenant, h.revision, h.commitment, h.epoch, h.valid, h.row, h.edges⟩⟩
    · exact Or.inl ⟨x, hx, fun _ h =>
        ⟨h.tenant, h.revision, h.commitment, h.epoch, h.valid, h.row, h.edges⟩⟩

end

/-! ### Rows -/

structure Backed (db : Database) : Prop where
  oneRegistry : Table.Keyed RegistryRow.key db.registries
  registryRevision : ∀ r ∈ db.registries, 0 < r.commitRevision
  heads : ∀ head ∈ db.heads, ∃ r, Installed r head db
  cases : ∀ c ∈ db.cases, ∃ r ∈ db.registries, r.key = (c.tenantID, c.registryRevision) ∧
    r.commitment = c.registryHash ∧ r.routingEpoch = c.routingEpoch

theorem backed_empty : Backed {} where
  oneRegistry := Table.keyed_nil _
  registryRevision := by simp
  heads := by simp
  cases := by simp

theorem Backed.change {db db' : Database} {c : Call} (h : Backed db) (hchange : Change db c db') :
    Backed db' := by
  have hheads : ∀ head ∈ db'.heads, ∃ r, Installed r head db' := by
    intro head hhead
    rcases hchange.installed hhead with ⟨old, hold, hkeep⟩ | ⟨r, -, hnew⟩
    · obtain ⟨r, hr⟩ := h.heads old hold
      exact ⟨r, hkeep r hr⟩
    · exact ⟨r, hnew⟩
  have hcases : ∀ row ∈ db.cases, ∃ r ∈ db'.registries,
      r.key = (row.tenantID, row.registryRevision) ∧ r.commitment = row.registryHash ∧
        r.routingEpoch = row.routingEpoch := by
    intro row hrow
    obtain ⟨r, hr, hbinds⟩ := h.cases row hrow
    exact ⟨r, hchange.grows.registries.subset hr, hbinds⟩
  cases hchange with
  | none => exact h
  | case r revision written valid free head live binds =>
    refine ⟨written.registries ▸ h.oneRegistry, written.registries ▸ h.registryRevision, hheads, ?_⟩
    rw [written.cases]
    intro row hrow
    rcases List.mem_append.mp hrow with hold | hnew
    · exact hcases row hold
    · -- the new case names the head, and the head its registry
      rw [List.mem_singleton.mp hnew, written.registries]
      obtain ⟨hmem, htenant⟩ := Table.find_eq_some live.found
      obtain ⟨made, hmade⟩ := h.heads head hmem
      obtain ⟨committed, hcommitted⟩ := hmade.row
      obtain ⟨hrevision, hcommitment, hepoch⟩ := binds
      refine ⟨made.row committed, hcommitted, ?_, ?_, ?_⟩
      · exact Prod.ext (hmade.tenant.symm.trans htenant) (hmade.revision.symm.trans hrevision)
      · exact hmade.commitment.symm.trans hcommitment
      · exact hmade.epoch.symm.trans hepoch
  | advice r c revision written =>
    exact ⟨written.registries ▸ h.oneRegistry, written.registries ▸ h.registryRevision, hheads,
      written.cases ▸ hcases⟩
  | registry r revision written valid next positive =>
    refine ⟨?_, ?_, hheads, written.cases ▸ hcases⟩
    · rw [written.registries]
      exact h.oneRegistry.append written.fresh.key
    · rw [written.registries]
      intro row hrow
      rcases List.mem_append.mp hrow with hold | hnew
      · exact h.registryRevision row hold
      · rw [List.mem_singleton.mp hnew]
        exact positive
  | halted => exact ⟨h.oneRegistry, h.registryRevision, hheads, hcases⟩

theorem reachable_backed (store : Store) (es : List Event) : Backed (store.run {} es) :=
  run_invariant store Backed (fun db e h => h.change (step_change store db e)) {} es backed_empty

theorem Change.new_case {db db' : Database} {c : Call} (h : Change db c db')
    {row : CaseRow} (hrow : row ∈ db'.cases) (hnew : row ∉ db.cases) :
    ∃ head, LiveHead db' row.tenantID head ∧
      head.latestRevision = row.registryRevision := by
  cases h with
  | none | halted => exact absurd hrow hnew
  | case r revision written valid free head live binds =>
    rw [written.cases] at hrow
    rcases List.mem_append.mp hrow with hold | hrow
    · exact absurd hold hnew
    · rw [List.mem_singleton.mp hrow]
      exact ⟨head, ⟨written.heads ▸ live.found, live.live⟩, binds.1⟩
  | advice _ _ _ written | registry _ _ written => exact absurd (written.cases ▸ hrow) hnew

end Snagline.Authority
