import Snagline.Authority.Ledger
import Snagline.Kit.Interleave

/-!
# Commit transactions side by side (store.go:46-349, 597-603, 761-774)

The bodies of the three commits on the interleaving machine. A row of the head
table found by `FOR UPDATE` is the tenant's lock; the identity column of
`authority_revisions` is the counter; a case or advice row is an item, with its
tenant as key and its commit revision as ticket. All other replies are left to
the server, so whatever isolation it provides is among the runs.
-/

namespace Snagline.Authority
open Kit Ssp Interleave

def Fact.tenantID : Fact → Bytes
  | .case c => c.tenantID
  | .advice a => a.tenantID

def Sql.headLock : (s : Sql) → s.Reply → Option Bytes
  | .selectHeadForUpdate tenantID, reply => reply.map fun _ => tenantID
  | _, _ => none

def Sql.revisionDrawn : (s : Sql) → s.Reply → Option ℤ
  | .insertRevision, reply => some reply
  | _, _ => none

def Sql.fact : Sql → Option Fact
  | .insertCase row => some (.case row)
  | .insertAdvice row => some (.advice row)
  | _ => none

def commitRules : Rules Sql Sql.Reply Bytes Fact where
  locks := Sql.headLock
  draws := Sql.revisionDrawn
  writes := Sql.fact
  key := Fact.tenantID
  ticket := Fact.revision

abbrev Cluster := System Sql Sql.Reply SqlState StoreError (Except StoreError CommitReceipt) Bytes Fact

def Store.Starts (store : Store) (p : Body (Except StoreError CommitReceipt)) : Prop :=
  ∃ c : Call, c.validate = .ok () ∧ p = store.body c

/-! ### The bodies are safe -/

section
variable (store : Store) (tenantID : Bytes) {s : Sql}

structure Sql.Plain (s : Sql) : Prop where
  locks : ∀ r, s.headLock r = none
  draws : ∀ r, s.revisionDrawn r = none
  writes : s.fact = none

theorem after_plain (h : s.Plain) (ph : Phase Bytes) (r : s.Reply) :
    ph.after commitRules s r = ph := by
  have hlocks : commitRules.locks s r = none := h.locks r
  have hdraws : commitRules.draws s r = none := h.draws r
  have hwrites : commitRules.writes s = none := h.writes
  unfold Phase.after
  simp [hlocks, hdraws, hwrites]

theorem no_write (h : s.fact = none) (ph : Phase Bytes) (f : Fact)
    (hf : commitRules.writes s = some f) :
    ph.lock = some (commitRules.key f) ∧ ph.ticket = some (commitRules.ticket f) := by
  rw [show commitRules.writes s = none from h] at hf
  cases hf

theorem safe_plain {s : Sql} {wrap : SqlState → StoreError} (h : s.Plain) (ph : Phase Bytes) :
    Safe commitRules (fun _ ph' => ph' = ph) ph (query s wrap) := by
  refine safe_mono (safe_stmt wrap (no_write h.writes ph)) ?_
  rintro r ph' rfl
  exact after_plain h ph r

-- a statement that writes no fact may run in any phase
theorem safe_silent {s : Sql} {wrap : SqlState → StoreError} (h : s.fact = none)
    (ph : Phase Bytes) :
    Safe commitRules (fun _ _ => True) ph (query s wrap) :=
  safe_mono (safe_stmt wrap (no_write h ph)) fun _ _ _ => trivial

theorem safe_liveHead (ph : Phase Bytes) :
    Safe commitRules (fun _ ph' => ph' = ⟨some tenantID, none⟩) ph (liveHead tenantID) := by
  unfold liveHead registryHeadForUpdate
  refine safe_bind (safe_stmt _ fun f hf => nomatch hf) ?_
  rintro reply ph' rfl
  cases reply with
  | none => trivial
  | some =>
    refine safe_bind (safe_require _) ?_
    rintro _ ph' rfl
    rfl

theorem safe_allocateRevision (ticket : Option ℤ) :
    Safe commitRules (fun r ph' => ph' = ⟨some tenantID, some r⟩) ⟨some tenantID, ticket⟩
      allocateRevision := by
  refine safe_mono (safe_stmt _ fun f hf => nomatch hf) ?_
  rintro r ph' rfl
  rfl

theorem safe_insertOutbox (kind : EntityKind)
    (entityID raw : Bytes) (revision : ℤ) (destinations : List (DestinationKind × Bytes))
    (ph : Phase Bytes) :
    Safe commitRules (fun _ _ => True) ph
      (store.insertOutbox tenantID kind entityID raw revision destinations) := by
  induction destinations generalizing ph with
  | nil => trivial
  | cons d rest ih =>
    obtain ⟨dk, key⟩ := d
    exact safe_bind (safe_silent rfl ph) fun _ ph' _ => ih ph'

theorem safe_writeCase (r : CommitCaseRequest) :
    Safe commitRules (fun _ _ => True) ⟨some r.tenantID, none⟩ (store.writeCase r) := by
  unfold Store.writeCase
  refine safe_bind (safe_allocateRevision r.tenantID none) ?_
  rintro revision ph rfl
  refine safe_bind (safe_stmt _ ?_) ?_
  · intro f hf
    cases hf
    exact ⟨rfl, rfl⟩
  · rintro u ph -
    refine safe_bind (safe_silent rfl ph) fun sequence ph _ => ?_
    refine safe_bind (safe_silent rfl ph) fun _ ph _ => ?_
    refine safe_bind (safe_silent rfl ph) fun _ ph _ => ?_
    exact safe_bind (safe_insertOutbox store _ _ _ _ _ _ ph) fun _ _ _ => trivial

theorem safe_commitCase (r : CommitCaseRequest) (ph : Phase Bytes) :
    Safe commitRules (fun _ _ => True) ph (store.commitCase r) := by
  have hexisting : Safe commitRules (fun _ _ => True) ph (existingCase r) := by
    unfold existingCase
    refine safe_bind (safe_silent rfl ph) fun row ph _ => ?_
    cases row with
    | none => trivial
    | some => exact safe_bind (safe_require ph) fun _ _ _ => trivial
  unfold Store.commitCase
  refine safe_bind hexisting fun existing ph _ => ?_
  cases existing with
  | some => trivial
  | none =>
    refine safe_bind (safe_liveHead r.tenantID ph) ?_
    rintro head ph rfl
    refine safe_bind (safe_require _) ?_
    rintro u ph rfl
    refine safe_bind (safe_plain ⟨fun _ => rfl, fun _ => rfl, rfl⟩ _) ?_
    rintro collision ph rfl
    refine safe_bind (safe_require _) ?_
    rintro u ph rfl
    exact safe_bind (safe_writeCase store r) fun _ _ _ => trivial

/- The row keeps the tenant of the request, so its lock is the one of the head. -/
theorem safe_writeAdvice (r : CommitAdviceRequest) (case : CaseRow) :
    Safe commitRules (fun _ _ => True) ⟨some r.tenantID, none⟩ (store.writeAdvice r case) := by
  unfold Store.writeAdvice
  refine safe_bind (safe_plain ⟨fun _ => rfl, fun _ => rfl, rfl⟩ _) ?_
  rintro sequence ph rfl
  refine safe_bind (safe_allocateRevision r.tenantID none) ?_
  rintro revision ph rfl
  refine safe_bind (safe_stmt _ ?_) ?_
  · intro f hf
    cases hf
    exact ⟨rfl, rfl⟩
  · rintro u ph -
    refine safe_bind (safe_silent rfl ph) fun _ ph _ => ?_
    refine safe_bind (safe_silent rfl ph) fun _ ph _ => ?_
    exact safe_bind (safe_insertOutbox store _ _ _ _ _ _ ph) fun _ _ _ => trivial

theorem safe_admitAdvice (r : CommitAdviceRequest) :
    Safe commitRules (fun _ _ => True) ⟨some r.tenantID, none⟩ (store.admitAdvice r) := by
  unfold Store.admitAdvice
  refine safe_bind (safe_plain ⟨fun _ => rfl, fun _ => rfl, rfl⟩ _) ?_
  rintro case ph rfl
  cases case with
  | none => trivial
  | some case =>
    refine safe_bind (safe_require _) ?_
    rintro u ph rfl
    refine safe_bind (safe_plain ⟨fun _ => rfl, fun _ => rfl, rfl⟩ _) ?_
    rintro collision ph rfl
    refine safe_bind (safe_require _) ?_
    rintro u ph rfl
    exact safe_writeAdvice store r case

theorem safe_commitAdvice (r : CommitAdviceRequest) (ph : Phase Bytes) :
    Safe commitRules (fun _ _ => True) ph (store.commitAdvice r) := by
  have hexisting : Safe commitRules (fun _ _ => True) ph (existingAdvice r) := by
    unfold existingAdvice
    refine safe_bind (safe_silent rfl ph) fun row ph _ => ?_
    cases row with
    | none => trivial
    | some =>
      simp only
      split <;> trivial
  unfold Store.commitAdvice
  refine safe_bind hexisting fun existing ph _ => ?_
  cases existing with
  | exact => trivial
  | different => exact safe_bind (safe_liveHead r.tenantID ph) fun _ _ _ => trivial
  | absent =>
    refine safe_bind (safe_liveHead r.tenantID ph) ?_
    rintro head ph rfl
    exact safe_bind (safe_admitAdvice store r) fun _ _ _ => trivial

end

/-! A registry commit writes no fact, so it may draw its revision without a lock,
as the first one of a tenant does. -/

theorem safe_enforceEdgeGenerationHighWater (r : CommitRegistryRequest) (head : Option HeadRow)
    (edges : List (Bytes × RegistryEdge)) (ph : Phase Bytes) :
    Safe commitRules (fun _ _ => True) ph (enforceEdgeGenerationHighWater r head edges) := by
  induction edges generalizing ph with
  | nil => trivial
  | cons e rest ih =>
    obtain ⟨edgeID, edge⟩ := e
    refine safe_bind (safe_silent rfl ph) fun known ph _ => ?_
    refine safe_bind (safe_require ph) fun _ ph _ => ?_
    exact safe_bind (safe_silent rfl ph) fun _ ph _ => ih ph

theorem safe_writeRegistry (store : Store) (r : CommitRegistryRequest) (head : Option HeadRow)
    (ph : Phase Bytes) : Safe commitRules (fun _ _ => True) ph (store.writeRegistry r head) := by
  unfold Store.writeRegistry
  refine safe_bind (safe_silent rfl ph) fun collision ph _ => ?_
  refine safe_bind (safe_require ph) fun _ ph _ => ?_
  refine safe_bind (safe_enforceEdgeGenerationHighWater r head _ ph) fun _ ph _ => ?_
  refine safe_bind (safe_silent rfl ph) fun revision ph _ => ?_
  refine safe_bind (safe_silent rfl ph) fun _ ph _ => ?_
  have hhead : Safe commitRules (fun _ _ => True) ph (writeHead r head) := by
    cases head with
    | none | some => exact safe_silent rfl ph
  refine safe_bind hhead fun _ ph _ => ?_
  exact safe_bind (safe_silent rfl ph) fun _ _ _ => trivial

theorem safe_haltRegistryHead {tenantID reason : Bytes} {e : StoreError} (ph : Phase Bytes) :
    Safe commitRules (fun _ _ => True) ph (haltRegistryHead tenantID reason e) := by
  unfold haltRegistryHead
  refine safe_bind (safe_silent rfl ph) fun affected ph _ => ?_
  exact safe_bind (safe_require ph) fun _ _ _ => trivial

theorem safe_commitRegistry (store : Store) (r : CommitRegistryRequest) (ph : Phase Bytes) :
    Safe commitRules (fun _ _ => True) ph (store.commitRegistry r) := by
  unfold Store.commitRegistry registryHeadForUpdate
  refine safe_bind (safe_silent rfl ph) fun head ph _ => ?_
  cases head with
  | none =>
    refine safe_bind (safe_require ph) fun _ ph _ => ?_
    exact safe_bind (safe_writeRegistry store r none ph) fun _ _ _ => trivial
  | some =>
    refine safe_bind (safe_require ph) fun _ ph _ => ?_
    split
    · exact safe_haltRegistryHead ph
    · split
      · have hexisting : Safe commitRules (fun _ _ => True) ph (existingRegistry r) := by
          unfold existingRegistry
          refine safe_bind (safe_silent rfl ph) fun row ph _ => ?_
          cases row with
          | none => trivial
          | some row =>
            simp only
            split <;> trivial
        refine safe_bind hexisting fun existing ph _ => ?_
        cases existing with
        | some receipt => trivial
        | none => exact safe_haltRegistryHead ph
      · refine safe_bind (safe_require ph) fun _ ph _ => ?_
        split
        · exact safe_bind (safe_writeRegistry store r _ ph) fun _ _ _ => trivial
        · exact safe_haltRegistryHead ph

theorem starts_safe (store : Store) (p : Body (Except StoreError CommitReceipt))
    (h : store.Starts p) : SafeProgram commitRules p := by
  obtain ⟨c, -, rfl⟩ := h
  cases c with
  | case r => exact safe_commitCase store r _
  | advice r => exact safe_commitAdvice store r _
  | registry r => exact safe_commitRegistry store r _

/-! ### What one statement adds to the tables -/

structure Shows (db : Database) (facts : List Fact) : Prop where
  cases : db.cases = facts.filterMap Fact.case?
  advice : db.advice = facts.filterMap Fact.advice?

theorem exec_revisions {s : Sql} {revision : ℤ} {db db' : Database} {r : s.Reply}
    (h : s.exec revision db = .ok (r, db')) : db.revisions ⊆ db'.revisions := by
  cases s with
  | insertRevision =>
    obtain ⟨-, -, rfl⟩ := insertRevision_ok h
    exact List.subset_append_left _ _
  | insertCase =>
    obtain ⟨-, rfl⟩ := insertCase_ok (written_eq_ok.mp h)
    exact List.Subset.refl _
  | insertAdvice =>
    obtain ⟨-, rfl⟩ := insertAdvice_ok (written_eq_ok.mp h)
    exact List.Subset.refl _
  | insertRegistry =>
    obtain ⟨-, rfl⟩ := insertRegistry_ok (written_eq_ok.mp h)
    exact List.Subset.refl _
  | insertHead =>
    rw [insertHead_ok (written_eq_ok.mp h)]
    exact List.Subset.refl _
  | updateHead =>
    rw [updateHead_ok (written_eq_ok.mp h)]
    exact List.Subset.refl _
  | upsertHighWater =>
    rw [upsertHighWater_ok (written_eq_ok.mp h)]
    exact List.Subset.refl _
  | nextDeliverySequence =>
    obtain ⟨-, ⟨rows, rfl⟩, -⟩ := nextDeliverySequence_ok h
    exact List.Subset.refl _
  | insertDelivery =>
    obtain ⟨-, rfl⟩ := insertDelivery_ok (written_eq_ok.mp h)
    exact List.Subset.refl _
  | insertAudit =>
    obtain ⟨-, rfl⟩ := insertAudit_ok (written_eq_ok.mp h)
    exact List.Subset.refl _
  | insertOutbox =>
    rw [insertOutbox_ok (written_eq_ok.mp h)]
    exact List.Subset.refl _
  | _ =>
    -- the reads, and the halt, which only touches the head
    cases h
    exact List.Subset.refl _

/-- The counter stands where the identity column does, or the column has already
given out its revision. -/
def Drawable (counter : ℤ) (w : World) : Prop :=
  counter + 1 = w.revision ∨ w.revision ∈ w.db.revisions

def Counted : ℕ → List Event → Prop
  | _, [] => True
  | n, e :: es => n ≤ e.env.nextval ∧ Counted (e.env.nextval + 1) es

end Snagline.Authority
