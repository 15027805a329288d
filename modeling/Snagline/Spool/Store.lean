import Snagline.Authority.Store
import Snagline.Ssp.Envelope

/-!
# The pending spool (sspedge/edge_case_store.go:43-230, edge_advice_spool.go)

One row a case: the exact wire, and the receipt once the authority has accepted
it. Cases and advice are kept in two tables of the same shape, and the same
three transactions serve both; they differ in one place, where a recorded
acceptance is compared with another. Payloads are encrypted at rest, which is
left out, and a time column holds the instant its text names.
-/

namespace Snagline.Spool
open Kit Ssp

structure PendingCase where
  envelopeID : Bytes
  caseID : Bytes
  commitment : Bytes
  raw : Bytes
  createdAt : Time
  deriving DecidableEq

structure PendingAdvice where
  adviceID : Bytes
  caseID : Bytes
  caseCommitment : Bytes
  commitment : Bytes
  raw : Bytes
  createdAt : Time
  deriving DecidableEq

/-- `AcceptedRemoteCase` and `AcceptedRemoteAdvice`. -/
structure AcceptedRemote where
  envelopeID : Bytes
  caseID : Bytes
  commitment : Bytes
  receipt : Authority.CommitReceipt
  acceptedAt : Time
  deriving DecidableEq

structure Acceptance where
  authorityID : Bytes
  revision : ℤ
  acceptedAt : Time
  deriving DecidableEq

def AcceptedRemote.acceptance (a : AcceptedRemote) : Acceptance :=
  ⟨a.receipt.authorityID, a.receipt.revision, a.acceptedAt⟩

structure Row (π : Type) where
  pending : π
  acceptance : Option Acceptance := none
  deriving DecidableEq

def Row.accept {π : Type} (a : Acceptance) (r : Row π) : Row π := { r with acceptance := some a }

inductive SpoolError where
  | invalidPending
  | wireConflict
  | caseIDRequired
  | invalidReceipt
  | notFound
  | receiptBinding
  | evidenceConflict
  /-- A statement, a constraint or the commit failed. -/
  | database
  deriving DecidableEq

/-! ### One table -/

structure PendingTable (π : Type) where
  caseID : π → Bytes
  /-- The column that is UNIQUE besides. -/
  envelopeID : π → Bytes
  commitment : π → Bytes
  raw : π → Bytes
  valid : π → Bool
  /-- The stored record, then the one to be saved. -/
  sameWire : π → π → Bool
  /-- The stored acceptance, then the one to be recorded. -/
  sameEvidence : Acceptance → Acceptance → Bool

namespace PendingTable

variable {π : Type} (t : PendingTable π)

def key (r : Row π) : Bytes := t.caseID r.pending
def find (caseID : Bytes) (rows : List (Row π)) : Option (Row π) := Table.find t.key caseID rows

def savePending (pending : π) (rows : List (Row π)) : Except SpoolError (List (Row π)) := do
  ensure (t.valid pending) .invalidPending
  match t.find (t.caseID pending) rows with
  | some existing => do
    ensure (t.sameWire existing.pending pending) .wireConflict
    pure rows
  | none => do
    ensure (!Table.clash (fun r => t.envelopeID r.pending) ⟨pending, none⟩ rows) .database
    pure (rows ++ [⟨pending, none⟩])

def loadPending (caseID : Bytes) (rows : List (Row π)) : Except SpoolError (Option π) := do
  ensure (!blank caseID) .caseIDRequired
  pure ((t.find caseID rows).map Row.pending)

def validateAcceptedRemote (a : AcceptedRemote) : Except SpoolError Unit :=
  ensure (!blank a.envelopeID && !blank a.caseID && sha256Hex a.commitment &&
    !blank a.receipt.authorityID && 0 < a.receipt.revision && a.receipt.envelopeID == a.envelopeID &&
    a.receipt.commitment == a.commitment && a.acceptedAt != zeroTime) .invalidReceipt

def markAcceptedRemote (a : AcceptedRemote) (rows : List (Row π)) :
    Except SpoolError (List (Row π)) := do
  validateAcceptedRemote a
  let row ← orFail (t.find a.caseID rows) .notFound
  ensure (t.envelopeID row.pending == a.envelopeID && t.commitment row.pending == a.commitment)
    .receiptBinding
  match row.acceptance with
  | some stored => do
    ensure (t.sameEvidence stored a.acceptance) .evidenceConflict
    pure rows
  | none =>
    pure (Table.update t.key a.caseID (Row.accept a.acceptance) rows)

end PendingTable

/-! ### Cases -/

def validatePendingCase (p : PendingCase) : Bool :=
  !blank p.envelopeID && !blank p.caseID && sha256Hex p.commitment && !p.raw.isEmpty &&
    p.raw.length ≤ maxEnvelopeBytes && p.createdAt != zeroTime

def caseTable : PendingTable PendingCase where
  caseID := PendingCase.caseID
  envelopeID := PendingCase.envelopeID
  commitment := PendingCase.commitment
  raw := PendingCase.raw
  valid := validatePendingCase
  sameWire := fun existing pending =>
    existing.envelopeID == pending.envelopeID && existing.commitment == pending.commitment &&
      existing.createdAt == pending.createdAt && existing.raw == pending.raw
  -- the instant of the local clock counts as evidence
  sameEvidence := fun stored a => stored.authorityID == a.authorityID &&
    stored.revision == a.revision && stored.acceptedAt == a.acceptedAt

def savePendingCase : PendingCase → List (Row PendingCase) → Except SpoolError (List (Row PendingCase)) :=
  caseTable.savePending

def loadPendingCase : Bytes → List (Row PendingCase) → Except SpoolError (Option PendingCase) :=
  caseTable.loadPending

def markCaseAcceptedRemote :
    AcceptedRemote → List (Row PendingCase) → Except SpoolError (List (Row PendingCase)) :=
  caseTable.markAcceptedRemote

/-! ### Advice -/

def validatePendingAdvice (p : PendingAdvice) : Bool :=
  !blank p.adviceID && !blank p.caseID && sha256Hex p.caseCommitment && sha256Hex p.commitment &&
    !p.raw.isEmpty && p.raw.length ≤ maxEnvelopeBytes && p.createdAt != zeroTime

def adviceTable : PendingTable PendingAdvice where
  caseID := PendingAdvice.caseID
  envelopeID := PendingAdvice.adviceID
  commitment := PendingAdvice.commitment
  raw := PendingAdvice.raw
  valid := validatePendingAdvice
  sameWire := fun existing pending =>
    existing.adviceID == pending.adviceID && existing.caseCommitment == pending.caseCommitment &&
      existing.commitment == pending.commitment && existing.createdAt == pending.createdAt &&
      existing.raw == pending.raw
  sameEvidence := fun stored a =>
    stored.authorityID == a.authorityID && stored.revision == a.revision

def savePendingAdvice :
    PendingAdvice → List (Row PendingAdvice) → Except SpoolError (List (Row PendingAdvice)) :=
  adviceTable.savePending

def loadPendingAdvice : Bytes → List (Row PendingAdvice) → Except SpoolError (Option PendingAdvice) :=
  adviceTable.loadPending

def markAdviceAcceptedRemote :
    AcceptedRemote → List (Row PendingAdvice) → Except SpoolError (List (Row PendingAdvice)) :=
  adviceTable.markAcceptedRemote

/-! ### What the transactions keep -/

namespace PendingTable

variable {π : Type} {t : PendingTable π} {rows rows' : List (Row π)}

def stored (t : PendingTable π) (caseID : Bytes) (rows : List (Row π)) : Option Bytes :=
  (t.find caseID rows).map fun r => t.raw r.pending

theorem loadPending_stored {caseID : Bytes} {p : π} (h : t.loadPending caseID rows = .ok (some p)) :
    t.stored caseID rows = some (t.raw p) := by
  obtain ⟨-, h⟩ := ensure_bind_eq_ok.mp h
  obtain ⟨row, hrow, rfl⟩ := Option.map_eq_some_iff.mp (Except.ok.inj h)
  unfold stored
  rw [hrow]
  rfl

theorem stored_eq {caseID raw : Bytes} (h : t.stored caseID rows = some raw) :
    ∃ r, t.find caseID rows = some r ∧ t.raw r.pending = raw := by
  obtain ⟨r, hr, hraw⟩ := Option.map_eq_some_iff.mp h
  exact ⟨r, hr, hraw⟩

theorem savePending_ok (hwire : ∀ a b, t.sameWire a b = true → t.raw a = t.raw b) {pending : π}
    (h : t.savePending pending rows = .ok rows') :
    (∀ caseID raw, t.stored caseID rows = some raw → t.stored caseID rows' = some raw) ∧
      t.stored (t.caseID pending) rows' = some (t.raw pending) := by
  unfold savePending at h
  obtain ⟨-, h⟩ := ensure_bind_eq_ok.mp h
  split at h
  · rename_i existing hexisting
    obtain ⟨hsame, h⟩ := ensure_bind_eq_ok.mp h
    cases h
    refine ⟨fun _ _ hold => hold, ?_⟩
    unfold stored
    rw [hexisting]
    exact congrArg some (hwire _ _ hsame)
  · rename_i hnone
    obtain ⟨-, h⟩ := ensure_bind_eq_ok.mp h
    cases h
    constructor
    · intro caseID raw hold
      obtain ⟨r, hr, hraw⟩ := stored_eq hold
      unfold find at hr
      unfold stored find
      rw [Table.find_append, hr]
      exact congrArg some hraw
    · unfold find at hnone
      unfold stored find
      rw [Table.find_append, hnone]
      simp [key]

theorem markAcceptedRemote_ok {a : AcceptedRemote} (h : t.markAcceptedRemote a rows = .ok rows')
    (caseID : Bytes) : t.stored caseID rows' = t.stored caseID rows := by
  unfold markAcceptedRemote at h
  obtain ⟨-, -, h⟩ := bind_eq_ok.mp h
  obtain ⟨row, -, h⟩ := orFail_bind_eq_ok.mp h
  obtain ⟨-, h⟩ := ensure_bind_eq_ok.mp h
  split at h
  · obtain ⟨-, h⟩ := ensure_bind_eq_ok.mp h
    cases h
    rfl
  · cases h
    unfold stored find
    rw [Table.find_update t.key a.caseID caseID (Row.accept a.acceptance) (fun _ => rfl)]
    split
    · cases Table.find t.key caseID rows <;> rfl
    · rfl

end PendingTable

end Snagline.Spool
