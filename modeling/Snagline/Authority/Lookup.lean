import Snagline.Authority.Invariants

/-!
# Exact reads of the authority (store.go:484-535)

A case or registry is read by identifier and commitment together, so a caller
either gets the committed row it means or nothing. A record is its row.
-/

namespace Snagline.Authority
open Kit Ssp

inductive ReadError where
  | invalidRequest | caseNotFound | registryNotFound
  deriving DecidableEq

def resolveCase (tenantID caseID commitment : Bytes) (db : Database) : Except ReadError CaseRow := do
  ensure (validText tenantID && validText caseID && validCommitment commitment) .invalidRequest
  orFail (db.cases.find? fun r => r.key == (tenantID, caseID) && r.commitment == commitment)
    .caseNotFound

def resolveRegistry (tenantID : Bytes) (revision : ℤ) (commitment : Bytes) (db : Database) :
    Except ReadError RegistryRow := do
  ensure (validText tenantID && 0 < revision && validCommitment commitment) .invalidRequest
  orFail (db.registries.find? fun r => r.key == (tenantID, revision) && r.commitment == commitment)
    .registryNotFound

theorem resolveCase_ok {tenantID caseID commitment : Bytes} {db : Database} {row : CaseRow}
    (h : resolveCase tenantID caseID commitment db = .ok row) :
    row ∈ db.cases ∧ row.key = (tenantID, caseID) ∧ row.commitment = commitment := by
  unfold resolveCase at h
  obtain ⟨-, h⟩ := ensure_bind_eq_ok.mp h
  have hfind := orFail_eq_ok.mp h
  have hrow := List.find?_some hfind
  simp only [Bool.and_eq_true, beq_iff_eq] at hrow
  exact ⟨List.mem_of_find?_eq_some hfind, hrow.1, hrow.2⟩

theorem resolveRegistry_ok {tenantID commitment : Bytes} {revision : ℤ} {db : Database}
    {row : RegistryRow} (h : resolveRegistry tenantID revision commitment db = .ok row) :
    row ∈ db.registries ∧ row.key = (tenantID, revision) ∧ row.commitment = commitment := by
  unfold resolveRegistry at h
  obtain ⟨-, h⟩ := ensure_bind_eq_ok.mp h
  have hfind := orFail_eq_ok.mp h
  have hrow := List.find?_some hfind
  simp only [Bool.and_eq_true, beq_iff_eq] at hrow
  exact ⟨List.mem_of_find?_eq_some hfind, hrow.1, hrow.2⟩

/-! ### Reads in a later state -/

theorem find_prefix {α : Type} {p : α → Bool} {xs ys : List α} (h : xs <+: ys) {a : α}
    (ha : xs.find? p = some a) : ys.find? p = some a := by
  obtain ⟨zs, rfl⟩ := h
  rw [List.find?_append, ha]
  rfl

theorem resolveCase_grows {tenantID caseID commitment : Bytes} {db db' : Database} {row : CaseRow}
    (h : resolveCase tenantID caseID commitment db = .ok row) (hgrows : Grows db db') :
    resolveCase tenantID caseID commitment db' = .ok row := by
  unfold resolveCase at h ⊢
  obtain ⟨hvalid, hfind⟩ := ensure_bind_eq_ok.mp h
  refine ensure_bind_eq_ok.mpr ⟨hvalid, orFail_eq_ok.mpr ?_⟩
  exact find_prefix hgrows.cases (orFail_eq_ok.mp hfind)

theorem resolveRegistry_grows {tenantID commitment : Bytes} {revision : ℤ} {db db' : Database}
    {row : RegistryRow} (h : resolveRegistry tenantID revision commitment db = .ok row)
    (hgrows : Grows db db') : resolveRegistry tenantID revision commitment db' = .ok row := by
  unfold resolveRegistry at h ⊢
  obtain ⟨hvalid, hfind⟩ := ensure_bind_eq_ok.mp h
  refine ensure_bind_eq_ok.mpr ⟨hvalid, orFail_eq_ok.mpr ?_⟩
  exact find_prefix hgrows.registries (orFail_eq_ok.mp hfind)

end Snagline.Authority
