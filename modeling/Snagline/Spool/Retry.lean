import Snagline.Control.Resubmission
import Snagline.Spool.WrittenAhead

/-!
# Retrying what has been accepted

RetryCase and RetryAdvice send the stored wire again and record the receipt they
get. When the row has been accepted before, the recorded acceptance is compared
with the new one: for advice by authority and revision, for a case by the instant
of the local clock as well.
-/

namespace Snagline.Spool
open Kit Ssp Authority

/-! ### A call on its own -/

variable (gateway : Bytes → CommitReceipt)

def World.call (w : World) (p : Call Submission) (st : Tables) : Tables × Except Rejected Submission :=
  let (c, r) := p.drive (w.perform gateway) (st, 0)
  (c.1, r)

def repeatedly (p : Call Submission) : List World → Tables → Tables × List (Except Rejected Submission)
  | [], st => (st, [])
  | w :: later, st =>
    let (st', r) := w.call gateway p st
    let (last, rs) := repeatedly p later st'
    (last, r :: rs)

theorem repeatedly_eq {p : Call Submission} {st : Tables}
    {outcome : World → Except Rejected Submission}
    (h : ∀ w : World, w.call gateway p st = (st, outcome w)) (later : List World) :
    repeatedly gateway p later st = (st, later.map outcome) := by
  induction later with
  | nil => rfl
  | cons w later ih => simp [repeatedly, h w, ih]

/-! ### A recorded row -/

/-- The receipt for the record `p`, as the spool would record it at `now`. -/
def PendingTable.accepted {π : Type} (t : PendingTable π) (p : π) (now : Time) : AcceptedRemote :=
  ⟨t.envelopeID p, t.caseID p, t.commitment p, gateway (t.raw p), now⟩

/-- The row of the case carries the gateway's receipt, recorded at `recordedAt`. -/
structure Recorded {π : Type} (t : PendingTable π) (caseID : Bytes) (rows : List (Row π)) (row : Row π)
    (recordedAt : Time) : Prop where
  found : t.find caseID rows = some row
  valid : ∀ now, now ≠ zeroTime →
    PendingTable.validateAcceptedRemote (t.accepted gateway row.pending now) = .ok ()
  acceptance : row.acceptance = some (t.accepted gateway row.pending recordedAt).acceptance

section Rows
variable {gateway} {π : Type} {t : PendingTable π} {caseID : Bytes} {rows rows' : List (Row π)}
  {row : Row π} {recordedAt : Time}

theorem Recorded.caseID_eq (h : Recorded gateway t caseID rows row recordedAt) :
    t.caseID row.pending = caseID :=
  (Table.find_eq_some h.found).2

theorem Recorded.mark (h : Recorded gateway t caseID rows row recordedAt) (now : Time) :
    t.markAcceptedRemote (t.accepted gateway row.pending now) rows =
      if now = zeroTime then .error .invalidReceipt
      else if t.sameEvidence (t.accepted gateway row.pending recordedAt).acceptance
          (t.accepted gateway row.pending now).acceptance then .ok rows
        else .error .evidenceConflict := by
  unfold PendingTable.markAcceptedRemote
  by_cases hzero : now = zeroTime
  · rw [if_pos hzero]
    have hinvalid : PendingTable.validateAcceptedRemote (t.accepted gateway row.pending now) =
        .error .invalidReceipt := by
      simp [PendingTable.validateAcceptedRemote, PendingTable.accepted, hzero]
    rw [hinvalid]
    rfl
  · have hfound : t.find (t.accepted gateway row.pending now).caseID rows = some row := by
      show t.find (t.caseID row.pending) rows = some row
      rw [h.caseID_eq]
      exact h.found
    have hbinds : (t.envelopeID row.pending == (t.accepted gateway row.pending now).envelopeID &&
        t.commitment row.pending == (t.accepted gateway row.pending now).commitment) = true := by
      simp [PendingTable.accepted]
    rw [if_neg hzero, h.valid now hzero, hfound]
    simp only [ok_bind, orFail, hbinds, h.acceptance, ensure_true]
    cases t.sameEvidence (t.accepted gateway row.pending recordedAt).acceptance
      (t.accepted gateway row.pending now).acceptance with
    | false | true => rfl

theorem validateAcceptedRemote_at {a : AcceptedRemote} {now : Time}
    (h : PendingTable.validateAcceptedRemote a = .ok ()) (hnow : now ≠ zeroTime) :
    PendingTable.validateAcceptedRemote { a with acceptedAt := now } = .ok () := by
  simp only [PendingTable.validateAcceptedRemote, ensure_eq_ok, Bool.and_eq_true, bne_iff_ne] at h ⊢
  exact ⟨h.1, hnow⟩

theorem mark_records
    (hsame : ∀ a b : Acceptance, t.sameEvidence a b = true →
      a.authorityID = b.authorityID ∧ a.revision = b.revision)
    {now : Time} (hfound : t.find (t.caseID row.pending) rows = some row)
    (hmark : t.markAcceptedRemote (t.accepted gateway row.pending now) rows = .ok rows') :
    ∃ row' recordedAt, row'.pending = row.pending ∧
      Recorded gateway t (t.caseID row.pending) rows' row' recordedAt ∧
      ((∀ a b : Acceptance, t.sameEvidence a b = true → a.acceptedAt = b.acceptedAt) →
        recordedAt = now) := by
  unfold PendingTable.markAcceptedRemote at hmark
  obtain ⟨_, hvalid, hmark⟩ := bind_eq_ok.mp hmark
  obtain ⟨row', hrow', hmark⟩ := orFail_bind_eq_ok.mp hmark
  cases hfound.symm.trans hrow'
  obtain ⟨-, hmark⟩ := ensure_bind_eq_ok.mp hmark
  have hlater : ∀ later, later ≠ zeroTime →
      PendingTable.validateAcceptedRemote (t.accepted gateway row.pending later) = .ok () :=
    fun later hlater => validateAcceptedRemote_at (a := t.accepted gateway row.pending now) hvalid hlater
  split at hmark
  · rename_i stored hstored
    obtain ⟨hevidence, hmark⟩ := ensure_bind_eq_ok.mp hmark
    cases hmark
    obtain ⟨hauthority, hrevision⟩ := hsame _ _ hevidence
    refine ⟨row, stored.acceptedAt, rfl, ⟨hfound, hlater, ?_⟩, fun hdate => hdate _ _ hevidence⟩
    rw [hstored]
    obtain ⟨authorityID, revision, acceptedAt⟩ := stored
    cases hauthority
    cases hrevision
    rfl
  · cases hmark
    refine ⟨Row.accept (t.accepted gateway row.pending now).acceptance row, now, rfl,
      ⟨?_, hlater, rfl⟩, fun _ => rfl⟩
    unfold PendingTable.find at hfound ⊢
    rw [Table.find_update t.key _ _ (Row.accept _) (fun _ => rfl), hfound]
    exact if_pos rfl

theorem mark_dated {p : π} {now : Time}
    (hmark : t.markAcceptedRemote (t.accepted gateway p now) rows = .ok rows') : now ≠ zeroTime := by
  unfold PendingTable.markAcceptedRemote at hmark
  obtain ⟨_, hvalid, -⟩ := bind_eq_ok.mp hmark
  simp only [PendingTable.validateAcceptedRemote, ensure_eq_ok, Bool.and_eq_true, bne_iff_ne] at hvalid
  exact hvalid.2

theorem savePending_find {pending : π}
    (hwire : ∀ a b, t.caseID a = t.caseID b → t.sameWire a b = true → a = b)
    (h : t.savePending pending rows = .ok rows') :
    ∃ row, t.find (t.caseID pending) rows' = some row ∧ row.pending = pending := by
  unfold PendingTable.savePending at h
  obtain ⟨-, h⟩ := ensure_bind_eq_ok.mp h
  split at h
  · rename_i existing hexisting
    obtain ⟨hsame, h⟩ := ensure_bind_eq_ok.mp h
    cases h
    have hkey := (Table.find_eq_some hexisting).2
    exact ⟨existing, hexisting, hwire _ _ hkey hsame⟩
  · rename_i hnone
    obtain ⟨-, h⟩ := ensure_bind_eq_ok.mp h
    cases h
    refine ⟨⟨pending, none⟩, ?_, rfl⟩
    unfold PendingTable.find at hnone ⊢
    rw [Table.find_append, hnone]
    simp [PendingTable.key]

end Rows

/-! ### The calls -/

def Answers {π : Type} (t : PendingTable π) (p : π) : Prop :=
  (gateway (t.raw p)).envelopeID = t.envelopeID p ∧ (gateway (t.raw p)).commitment = t.commitment p ∧
    (gateway (t.raw p)).authorityID ≠ [] ∧ 0 < (gateway (t.raw p)).revision

section Outcomes
variable {gateway} {w : World} {st : Tables} {n : ℕ}

section
variable {recordedAt : Time} {caseID : Bytes} {c : Tables × ℕ} {p : PendingAdvice}
  {sub : Submission} {π : Type} {rows : List (Row π)} {t : PendingTable π} {row : Row π}

theorem Recorded.answers (h : Recorded gateway t caseID rows row recordedAt) :
    Answers gateway t row.pending := by
  have hvalid := h.valid (zeroTime + 1) (by decide)
  simp only [PendingTable.validateAcceptedRemote, PendingTable.accepted, ensure_eq_ok,
    Bool.and_eq_true, beq_iff_eq, Bool.not_eq_true'] at hvalid
  obtain ⟨⟨⟨⟨⟨-, hauthority⟩, hrevision⟩, henvelope⟩, hcommitment⟩, -⟩ := hvalid
  refine ⟨henvelope, hcommitment, ?_, of_decide_eq_true hrevision⟩
  intro hempty
  rw [hempty] at hauthority
  cases hauthority

theorem submitPending_answered (s : Service) {p : PendingCase} (h : Answers gateway caseTable p) :
    (s.submitPending p).drive (w.perform gateway) (st, n) =
      match markCaseAcceptedRemote (caseTable.accepted gateway p (w.clock n)) st.cases with
      | .ok cases => (({ st with cases := cases }, n + 1),
          .ok { p.submission with acceptedRemote := true, receipt := gateway p.raw })
      | .error e => ((st, n + 1), .error ⟨p.submission, .markAccepted (.spool e)⟩) := by
  obtain ⟨henvelope, hcommitment, hauthority, hrevision⟩ := h
  have henvelope : ((gateway p.raw).envelopeID == p.envelopeID) = true := beq_iff_eq.mpr henvelope
  have hcommitment : ((gateway p.raw).commitment == p.commitment) = true := beq_iff_eq.mpr hcommitment
  have hcomplete : ((gateway p.raw).authorityID != [] && decide (0 < (gateway p.raw).revision)) = true := by
    simp only [Bool.and_eq_true, bne_iff_ne, decide_eq_true_eq]
    exact ⟨hauthority, hrevision⟩
  unfold Service.submitPending askWith checkWith
  simp only [Prog.drive_bind, Prog.drive_stmt, Prog.drive_require, World.perform, henvelope,
    hcommitment, hcomplete, if_true, mapError_ok, StoreAct.work]
  rw [show caseTable.accepted gateway p (w.clock n) =
    ⟨p.envelopeID, p.caseID, p.commitment, gateway p.raw, w.clock n⟩ from rfl]
  cases markCaseAcceptedRemote ⟨p.envelopeID, p.caseID, p.commitment, gateway p.raw, w.clock n⟩
    st.cases with
  | ok | error => rfl

theorem submitPending_succeeds {s : Service} {p : PendingCase}
    (h : (s.submitPending p).drive (w.perform gateway) (st, n) = (c, .ok sub)) :
    sub = { p.submission with acceptedRemote := true, receipt := gateway p.raw } ∧
      markCaseAcceptedRemote (caseTable.accepted gateway p (w.clock n)) st.cases = .ok c.1.cases := by
  have hanswers : Answers gateway caseTable p := by
    unfold Service.submitPending askWith checkWith at h
    simp only [Prog.drive_bind_eq_ok, Prog.drive_stmt_eq_ok, Prog.drive_require_eq_ok] at h
    obtain ⟨receipt, _, hsubmit, _, _, ⟨henvelope, -⟩, _, _, ⟨hcommitment, -⟩, _, _, ⟨hcomplete, -⟩, -⟩ := h
    cases hsubmit
    simp only [Bool.and_eq_true, bne_iff_ne, decide_eq_true_eq] at hcomplete
    exact ⟨beq_iff_eq.mp henvelope, beq_iff_eq.mp hcommitment, hcomplete⟩
  rw [submitPending_answered s hanswers] at h
  split at h
  · rename_i cases hmark
    cases h
    exact ⟨rfl, hmark⟩
  · cases h

theorem submitPendingAdvice_answered (s : Finalizer)
    (h : Answers gateway adviceTable p) :
    (s.submitPendingAdvice p).drive (w.perform gateway) (st, n) =
      match markAdviceAcceptedRemote (adviceTable.accepted gateway p (w.clock n)) st.advice with
      | .ok advice => (({ st with advice := advice }, n + 1),
          .ok { p.submission with acceptedRemote := true, receipt := gateway p.raw })
      | .error e => ((st, n + 1), .error ⟨p.submission, .markAccepted (.spool e)⟩) := by
  obtain ⟨henvelope, hcommitment, hauthority, hrevision⟩ := h
  have hfits : ((gateway p.raw).envelopeID == p.adviceID && (gateway p.raw).commitment == p.commitment &&
      (gateway p.raw).authorityID != [] && decide (0 < (gateway p.raw).revision)) = true := by
    simp only [Bool.and_eq_true, beq_iff_eq, bne_iff_ne, decide_eq_true_eq]
    exact ⟨⟨⟨henvelope, hcommitment⟩, hauthority⟩, hrevision⟩
  unfold Finalizer.submitPendingAdvice askWith checkWith
  simp only [Prog.drive_bind, Prog.drive_stmt, Prog.drive_require, World.perform, hfits, if_true,
    mapError_ok, StoreAct.work]
  rw [show adviceTable.accepted gateway p (w.clock n) =
    ⟨p.adviceID, p.caseID, p.commitment, gateway p.raw, w.clock n⟩ from rfl]
  cases markAdviceAcceptedRemote ⟨p.adviceID, p.caseID, p.commitment, gateway p.raw, w.clock n⟩
    st.advice with
  | ok | error => rfl

theorem submitPendingAdvice_succeeds {s : Finalizer}
    (h : (s.submitPendingAdvice p).drive (w.perform gateway) (st, n) = (c, .ok sub)) :
    sub = { p.submission with acceptedRemote := true, receipt := gateway p.raw } ∧
      markAdviceAcceptedRemote (adviceTable.accepted gateway p (w.clock n)) st.advice =
        .ok c.1.advice := by
  have hanswers : Answers gateway adviceTable p := by
    unfold Finalizer.submitPendingAdvice askWith checkWith at h
    simp only [Prog.drive_bind_eq_ok, Prog.drive_stmt_eq_ok, Prog.drive_require_eq_ok] at h
    obtain ⟨receipt, _, hsubmit, _, _, ⟨hfits, -⟩, -⟩ := h
    cases hsubmit
    simp only [Bool.and_eq_true, beq_iff_eq, bne_iff_ne, decide_eq_true_eq] at hfits
    obtain ⟨⟨⟨henvelope, hcommitment⟩, hauthority⟩, hrevision⟩ := hfits
    exact ⟨henvelope, hcommitment, hauthority, hrevision⟩
  rw [submitPendingAdvice_answered s hanswers] at h
  split at h
  · rename_i advice hmark
    cases h
    exact ⟨rfl, hmark⟩
  · cases h

theorem Recorded.loaded (h : Recorded gateway t caseID rows row recordedAt) :
    t.loadPending caseID rows = .ok (some row.pending) := by
  have hnamed : (!blank caseID) = true := by
    have hvalid := h.valid (zeroTime + 1) (by decide)
    simp only [PendingTable.validateAcceptedRemote, PendingTable.accepted, ensure_eq_ok,
      Bool.and_eq_true, h.caseID_eq] at hvalid
    exact hvalid.1.1.1.1.1.1.2
  unfold PendingTable.loadPending
  rw [hnamed, h.found]
  rfl

/-- What a retry at `now` reports of a record, given whether the evidence agrees. -/
def retried (known : Submission) (receipt : CommitReceipt) (agrees : Bool) (now : Time) :
    Except Rejected Submission :=
  if now = zeroTime then .error ⟨known, .markAccepted (.spool .invalidReceipt)⟩
  else if agrees then .ok { known with acceptedRemote := true, receipt := receipt }
  else .error ⟨known, .markAccepted (.spool .evidenceConflict)⟩

theorem Recorded.retryCase {row : Row PendingCase}
    (h : Recorded gateway caseTable caseID st.cases row recordedAt) (s : Service) (w : World) :
    w.call gateway (s.retryCase caseID) st =
      (st, retried row.pending.submission (gateway row.pending.raw) (recordedAt == w.clock 0)
        (w.clock 0)) := by
  have hload : loadPendingCase caseID st.cases = .ok (some row.pending) := h.loaded
  have hcall : (s.retryCase caseID).drive (w.perform gateway) (st, 0) =
      (s.submitPending row.pending).drive (w.perform gateway) (st, 0) := by
    unfold Service.retryCase ask
    simp only [Prog.drive_bind, Prog.drive_stmt, World.perform, StoreAct.work, hload, ok_bind]
    rfl
  have hmark : markCaseAcceptedRemote (caseTable.accepted gateway row.pending (w.clock 0)) st.cases = _ :=
    h.mark (w.clock 0)
  have hagrees : caseTable.sameEvidence (caseTable.accepted gateway row.pending recordedAt).acceptance
      (caseTable.accepted gateway row.pending (w.clock 0)).acceptance = (recordedAt == w.clock 0) := by
    simp [caseTable, PendingTable.accepted, AcceptedRemote.acceptance]
  unfold World.call retried
  rw [hcall, submitPending_answered s h.answers, hmark, hagrees]
  by_cases hzero : w.clock 0 = zeroTime
  · rw [if_pos hzero, if_pos hzero]
  · rw [if_neg hzero, if_neg hzero]
    cases recordedAt == w.clock 0 with
    | false | true => rfl

theorem Recorded.retryAdvice {row : Row PendingAdvice}
    (h : Recorded gateway adviceTable caseID st.advice row recordedAt) (s : Finalizer) (w : World) :
    w.call gateway (s.retryAdvice caseID) st =
      (st, retried row.pending.submission (gateway row.pending.raw) true (w.clock 0)) := by
  have hload : loadPendingAdvice caseID st.advice = .ok (some row.pending) := h.loaded
  have hcall : (s.retryAdvice caseID).drive (w.perform gateway) (st, 0) =
      (s.submitPendingAdvice row.pending).drive (w.perform gateway) (st, 0) := by
    unfold Finalizer.retryAdvice ask
    simp only [Prog.drive_bind, Prog.drive_stmt, World.perform, StoreAct.work, hload, ok_bind]
    rfl
  have hmark : markAdviceAcceptedRemote (adviceTable.accepted gateway row.pending (w.clock 0))
      st.advice = _ := h.mark (w.clock 0)
  have hagrees : adviceTable.sameEvidence
      (adviceTable.accepted gateway row.pending recordedAt).acceptance
      (adviceTable.accepted gateway row.pending (w.clock 0)).acceptance = true := by
    simp [adviceTable, PendingTable.accepted, AcceptedRemote.acceptance]
  unfold World.call retried
  rw [hcall, submitPendingAdvice_answered s h.answers, hmark, hagrees]
  by_cases hzero : w.clock 0 = zeroTime
  · rw [if_pos hzero, if_pos hzero]
  · rw [if_neg hzero, if_neg hzero]
    rfl

end

/-! ### The call that records -/

section
variable {sub : Submission} {c : Tables × ℕ} {s : Finalizer} {r : FinalizeAdviceRequest}
  {caseID : Bytes}

theorem call_eq_ok {p : Call Submission} {st' : Tables}
    (h : w.call gateway p st = (st', .ok sub)) :
    ∃ n, p.drive (w.perform gateway) (st, 0) = ((st', n), .ok sub) := by
  unfold World.call at h
  cases hrun : p.drive (w.perform gateway) (st, 0) with
  | mk c =>
    rw [hrun] at h
    cases h
    exact ⟨c.2, rfl⟩

theorem drive_orRefuse_eq_ok {ε α : Type} (x : Except ε α) (wrap : ε → ServiceError)
    (c c' : Tables × ℕ) (a : α) :
    (orRefuse x wrap).drive (w.perform gateway) c = (c', .ok a) ↔ x = .ok a ∧ c' = c := by
  cases x with
  | ok b =>
    show (c, Except.ok b) = (c', Except.ok a) ↔ _
    simp [eq_comm, and_comm]
  | error =>
    show (c, Except.error _) = (c', Except.ok a) ↔ _
    simp

theorem perform_store_eq_ok {a : StoreAct} {c c' : Tables × ℕ} {r : a.Reply}
    (h : w.perform gateway (.store a) c = (c', .ok r)) :
    a.work c.1 = .ok (r, c'.1) ∧ c'.2 = c.2 := by
  obtain ⟨st, n⟩ := c
  unfold World.perform at h
  dsimp only at h
  split at h
  · rename_i hwork
    cases h
    exact ⟨hwork, rfl⟩
  · cases h

theorem caseTable_wire_eq (a b : PendingCase) (hcase : a.caseID = b.caseID)
    (h : caseTable.sameWire a b = true) : a = b := by
  simp only [caseTable, Bool.and_eq_true, beq_iff_eq] at h
  obtain ⟨⟨⟨henvelope, hcommitment⟩, hcreated⟩, hraw⟩ := h
  cases a
  cases b
  simp_all

theorem adviceTable_wire_eq (a b : PendingAdvice) (hcase : a.caseID = b.caseID)
    (h : adviceTable.sameWire a b = true) : a = b := by
  simp only [adviceTable, Bool.and_eq_true, beq_iff_eq] at h
  obtain ⟨⟨⟨⟨hadvice, hcaseCommitment⟩, hcommitment⟩, hcreated⟩, hraw⟩ := h
  cases a
  cases b
  simp_all

theorem retryCase_submits {s : Service}
    (h : (s.retryCase caseID).drive (w.perform gateway) (st, n) = (c, .ok sub)) :
    ∃ row mid, caseTable.find caseID mid.1.cases = some row ∧
      (s.submitPending row.pending).drive (w.perform gateway) mid = (c, .ok sub) := by
  unfold Service.retryCase ask at h
  obtain ⟨found, mid, hload, h⟩ := (Prog.drive_bind_eq_ok _ _ _ _ _ _).mp h
  obtain ⟨hload, -⟩ := perform_store_eq_ok ((Prog.drive_stmt_eq_ok _ _ _ _ _ _).mp hload)
  obtain ⟨found', hfound, hload⟩ := bind_eq_ok.mp hload
  cases hload
  obtain ⟨-, hfound⟩ := ensure_bind_eq_ok.mp hfound
  cases hrow : caseTable.find caseID mid.1.cases with
  | none =>
    rw [hrow] at hfound
    cases hfound
    cases h
  | some row =>
    rw [hrow] at hfound
    cases hfound
    exact ⟨row, mid, hrow, h⟩

theorem openCase_submits {s : Service} {r : OpenCaseRequest}
    (h : (s.openCase r).drive (w.perform gateway) (st, n) = (c, .ok sub)) :
    ∃ row mid, caseTable.find r.caseID mid.1.cases = some row ∧
      (s.submitPending row.pending).drive (w.perform gateway) mid = (c, .ok sub) := by
  unfold Service.openCase ask check at h
  simp only [Prog.drive_bind_eq_ok, Prog.drive_stmt_eq_ok, Prog.drive_require_eq_ok,
    drive_orRefuse_eq_ok] at h
  obtain ⟨_, _, -, found, _, -, _, _, -, now, _, -, envelopeID, _, -, raw, _, -, commitment, _, -,
    _, mid, hsave, h⟩ := h
  obtain ⟨hwork, -⟩ := perform_store_eq_ok hsave
  obtain ⟨cases, hcases, hwork⟩ := bind_eq_ok.mp hwork
  obtain ⟨row, hrow, hpending⟩ := savePending_find caseTable_wire_eq hcases
  refine ⟨row, mid, ?_, hpending ▸ h⟩
  have hmid : mid.1.cases = cases := congrArg Tables.cases (Prod.mk.inj (Except.ok.inj hwork)).2.symm
  rw [hmid]
  exact hrow

theorem retryAdvice_submits
    (h : (s.retryAdvice caseID).drive (w.perform gateway) (st, n) = (c, .ok sub)) :
    ∃ row mid, adviceTable.find caseID mid.1.advice = some row ∧
      (s.submitPendingAdvice row.pending).drive (w.perform gateway) mid = (c, .ok sub) := by
  unfold Finalizer.retryAdvice ask at h
  obtain ⟨found, mid, hload, h⟩ := (Prog.drive_bind_eq_ok _ _ _ _ _ _).mp h
  obtain ⟨hload, -⟩ := perform_store_eq_ok ((Prog.drive_stmt_eq_ok _ _ _ _ _ _).mp hload)
  obtain ⟨found', hfound, hload⟩ := bind_eq_ok.mp hload
  cases hload
  obtain ⟨-, hfound⟩ := ensure_bind_eq_ok.mp hfound
  cases hrow : adviceTable.find caseID mid.1.advice with
  | none =>
    rw [hrow] at hfound
    cases hfound
    cases h
  | some row =>
    rw [hrow] at hfound
    cases hfound
    exact ⟨row, mid, hrow, h⟩

theorem refusePending_fails {p : PendingAdvice}
    {mid c : Tables × ℕ} :
    (s.refusePending r p).drive (w.perform gateway) mid ≠ (c, .ok sub) := by
  intro h
  unfold Finalizer.refusePending at h
  obtain ⟨now, _, -, h⟩ := (Prog.drive_bind_eq_ok _ _ _ _ _ _).mp h
  split at h
  · cases h
  · cases h
  · cases h

theorem finalizeAdvice_submits
    (h : (s.finalizeAdvice r).drive (w.perform gateway) (st, n) = (c, .ok sub)) :
    ∃ row mid, adviceTable.find r.caseID mid.1.advice = some row ∧
      (s.submitPendingAdvice row.pending).drive (w.perform gateway) mid = (c, .ok sub) := by
  unfold Finalizer.finalizeAdvice at h
  obtain ⟨_, _, -, h⟩ := (Prog.drive_bind_eq_ok _ _ _ _ _ _).mp h
  obtain ⟨found, _, -, h⟩ := (Prog.drive_bind_eq_ok _ _ _ _ _ _).mp h
  cases found with
  | some => exact absurd h refusePending_fails
  | none =>
    obtain ⟨record, _, hrecord, h⟩ := (Prog.drive_bind_eq_ok _ _ _ _ _ _).mp h
    cases record with
    | none => cases h
    | some a =>
      have hcase : a.caseID = r.caseID := by
        have hread := congrArg Prod.snd ((Prog.drive_stmt_eq_ok _ _ _ _ _ _).mp hrecord)
        obtain ⟨row, -, rfl⟩ := Option.map_eq_some_iff.mp (Except.ok.inj hread)
        rfl
      unfold ask check at h
      simp only [Prog.drive_bind_eq_ok, Prog.drive_stmt_eq_ok, Prog.drive_require_eq_ok,
        drive_orRefuse_eq_ok] at h
      obtain ⟨_, _, -, now, _, -, _, _, -, id, _, -, raw, _, -, commitment, _, -, _, mid, hsave, h⟩ := h
      obtain ⟨hwork, -⟩ := perform_store_eq_ok hsave
      obtain ⟨advice, hadvice, hwork⟩ := bind_eq_ok.mp hwork
      obtain ⟨row, hrow, hpending⟩ := savePending_find adviceTable_wire_eq hadvice
      refine ⟨row, mid, ?_, hpending ▸ h⟩
      have hmid : mid.1.advice = advice :=
        congrArg Tables.advice (Prod.mk.inj (Except.ok.inj hwork)).2.symm
      rw [hmid, ← hcase]
      exact hrow

end

end Outcomes

inductive CaseCall (s : Service) : Bytes → Call Submission → Prop where
  | openCase (r : OpenCaseRequest) : CaseCall s r.caseID (s.openCase r)
  | retryCase (caseID : Bytes) : CaseCall s caseID (s.retryCase caseID)

inductive AdviceCall (s : Finalizer) : Bytes → Call Submission → Prop where
  | finalizeAdvice (r : FinalizeAdviceRequest) : AdviceCall s r.caseID (s.finalizeAdvice r)
  | retryAdvice (caseID : Bytes) : AdviceCall s caseID (s.retryAdvice caseID)

section Recording
variable {gateway} {w : World} {st₀ st : Tables} {caseID : Bytes} {first : Call Submission}
  {sub : Submission}

theorem CaseCall.records {s : Service} (hfirst : CaseCall s caseID first)
    (h : w.call gateway first st₀ = (st, .ok sub)) :
    ∃ row recordedAt, Recorded gateway caseTable caseID st.cases row recordedAt ∧
      recordedAt ≠ zeroTime ∧
      sub = { row.pending.submission with acceptedRemote := true, receipt := gateway row.pending.raw } := by
  obtain ⟨n, hrun⟩ := call_eq_ok h
  have hsubmits : ∃ row mid, caseTable.find caseID mid.1.cases = some row ∧
      (s.submitPending row.pending).drive (w.perform gateway) mid = ((st, n), .ok sub) := by
    cases hfirst with
    | openCase => exact openCase_submits hrun
    | retryCase => exact retryCase_submits hrun
  obtain ⟨row, ⟨mid, readings⟩, hrow, hrun⟩ := hsubmits
  obtain ⟨hsub, hmark⟩ := submitPending_succeeds hrun
  have hkey : row.pending.caseID = caseID := (Table.find_eq_some hrow).2
  have hfound : caseTable.find (caseTable.caseID row.pending) mid.cases = some row := by
    rw [show caseTable.caseID row.pending = caseID from hkey]
    exact hrow
  have hevidence : ∀ a b : Acceptance, caseTable.sameEvidence a b = true →
      (a.authorityID = b.authorityID ∧ a.revision = b.revision) ∧ a.acceptedAt = b.acceptedAt := by
    intro a b hsame
    simpa only [caseTable, Bool.and_eq_true, beq_iff_eq] using hsame
  obtain ⟨row', recordedAt, hpending, hrecorded, hdate⟩ := mark_records
    (fun a b hsame => (hevidence a b hsame).1) hfound hmark
  refine ⟨row', recordedAt, hkey ▸ hrecorded, ?_, hpending ▸ hsub⟩
  rw [hdate fun a b hsame => (hevidence a b hsame).2]
  exact mark_dated hmark

theorem AdviceCall.records {s : Finalizer} (hfirst : AdviceCall s caseID first)
    (h : w.call gateway first st₀ = (st, .ok sub)) :
    ∃ row recordedAt, Recorded gateway adviceTable caseID st.advice row recordedAt ∧
      sub = { row.pending.submission with acceptedRemote := true, receipt := gateway row.pending.raw } := by
  obtain ⟨n, hrun⟩ := call_eq_ok h
  have hsubmits : ∃ row mid, adviceTable.find caseID mid.1.advice = some row ∧
      (s.submitPendingAdvice row.pending).drive (w.perform gateway) mid = ((st, n), .ok sub) := by
    cases hfirst with
    | finalizeAdvice => exact finalizeAdvice_submits hrun
    | retryAdvice => exact retryAdvice_submits hrun
  obtain ⟨row, ⟨mid, readings⟩, hrow, hrun⟩ := hsubmits
  obtain ⟨hsub, hmark⟩ := submitPendingAdvice_succeeds hrun
  have hkey : row.pending.caseID = caseID := (Table.find_eq_some hrow).2
  have hfound : adviceTable.find (adviceTable.caseID row.pending) mid.advice = some row := by
    rw [show adviceTable.caseID row.pending = caseID from hkey]
    exact hrow
  have hevidence : ∀ a b : Acceptance, adviceTable.sameEvidence a b = true →
      a.authorityID = b.authorityID ∧ a.revision = b.revision := by
    intro a b hsame
    simpa only [adviceTable, Bool.and_eq_true, beq_iff_eq] using hsame
  obtain ⟨row', recordedAt, hpending, hrecorded, -⟩ := mark_records hevidence
    hfound hmark
  exact ⟨row', recordedAt, hkey ▸ hrecorded, hpending ▸ hsub⟩

end Recording

/-- Once a call has recorded the acceptance, retries leave the tables as they are. A retried
case gets the recorded receipt only while the clock shows the recorded instant; a retried
advice gets it at every instant the spool takes for one. -/
theorem retry_after_acceptance :
    (∀ (s s' : Service) (caseID : Bytes) (first : Call Submission) (w : World) (st₀ st : Tables)
        (sub : Submission), CaseCall s caseID first → w.call gateway first st₀ = (st, .ok sub) →
      sub.acceptedRemote = true ∧ ∃ row recordedAt, caseTable.find caseID st.cases = some row ∧
        row.acceptance = some ⟨sub.receipt.authorityID, sub.receipt.revision, recordedAt⟩ ∧
        ∀ later, repeatedly gateway (s'.retryCase caseID) later st = (st, later.map fun w =>
          if w.clock 0 = recordedAt then .ok sub
          else .error ⟨row.pending.submission, .markAccepted (.spool
            (if w.clock 0 = zeroTime then .invalidReceipt else .evidenceConflict))⟩)) ∧
    (∀ (s s' : Finalizer) (caseID : Bytes) (first : Call Submission) (w : World) (st₀ st : Tables)
        (sub : Submission), AdviceCall s caseID first → w.call gateway first st₀ = (st, .ok sub) →
      sub.acceptedRemote = true ∧ ∃ row recordedAt, adviceTable.find caseID st.advice = some row ∧
        row.acceptance = some ⟨sub.receipt.authorityID, sub.receipt.revision, recordedAt⟩ ∧
        ∀ later, repeatedly gateway (s'.retryAdvice caseID) later st = (st, later.map fun w =>
          if w.clock 0 = zeroTime then
            .error ⟨row.pending.submission, .markAccepted (.spool .invalidReceipt)⟩
          else .ok sub)) := by
  constructor
  · intro s s' caseID first w st₀ st sub hfirst h
    obtain ⟨row, recordedAt, hrecorded, hdated, hsub⟩ := hfirst.records h
    subst hsub
    refine ⟨rfl, row, recordedAt, hrecorded.found, hrecorded.acceptance, ?_⟩
    refine repeatedly_eq gateway fun w => (hrecorded.retryCase s' w).trans (congrArg (Prod.mk st) ?_)
    unfold retried
    by_cases hsame : w.clock 0 = recordedAt
    · rw [hsame, if_neg hdated, if_pos rfl]
      simp
    · rw [if_neg hsame, beq_false_of_ne (Ne.symm hsame)]
      by_cases hzero : w.clock 0 = zeroTime
      · rw [if_pos hzero, if_pos hzero]
      · rw [if_neg hzero, if_neg hzero]
        rfl
  · intro s s' caseID first w st₀ st sub hfirst h
    obtain ⟨row, recordedAt, hrecorded, hsub⟩ := hfirst.records h
    subst hsub
    refine ⟨rfl, row, recordedAt, hrecorded.found, hrecorded.acceptance, ?_⟩
    refine repeatedly_eq gateway fun w => (hrecorded.retryAdvice s' w).trans (congrArg (Prod.mk st) ?_)
    unfold retried
    rfl

/-! ### A lost response -/

/-- `Client.OpenCase` (edgeclient/client.go:321-346): when the edge's response is lost or
cannot be read, the client retries once. -/
def clientOpenCase (s : Service) (r : OpenCaseRequest) (w retry : World) (lost : Bool) (st : Tables) :
    Tables × Except Rejected Submission :=
  let (st', reply) := w.call gateway (s.openCase r) st
  if lost then retry.call gateway (s.retryCase r.caseID) st' else (st', reply)

namespace Sample

def signing : Service :=
  { service with
    signCase := fun _ _ => some (Control.Sample.case "2026-01-01T00:00:06Z")
    primitives := Control.Sample.primitives }

def receipt : CommitReceipt := ⟨text "b", 2, text "i", Control.Sample.commitment "63"⟩
def at_ (n : ℤ) : World := { fresh := text "i", clock := Control.Sample.second n }

end Sample

/-- The case is opened and accepted in second 20. The response is lost, and the client's
own retry in second 21 reports a conflict with the stored evidence. -/
theorem retry_conflicts :
    let lost := clientOpenCase (fun _ => Sample.receipt) Sample.signing Sample.request
      (Sample.at_ 20) (Sample.at_ 21) true {}
    ((Sample.at_ 20).call (fun _ => Sample.receipt) (Sample.signing.openCase Sample.request) {}).2 =
        .ok ⟨text "i", text "c", Control.Sample.commitment "63", true, Sample.receipt⟩ ∧
      lost.1.cases.map Row.acceptance = [some ⟨text "b", 2, Control.Sample.second 20 0⟩] ∧
      lost.2 = .error ⟨⟨text "i", text "c", Control.Sample.commitment "63", false, ⟨[], 0, [], []⟩⟩,
        .markAccepted (.spool .evidenceConflict)⟩ := by
  decide +kernel

end Snagline.Spool
