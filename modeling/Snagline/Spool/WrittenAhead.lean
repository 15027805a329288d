import Snagline.Control.Resubmission
import Snagline.Kit.WriteAhead
import Snagline.Spool.Service

/-!
# One signed wire a case

Two calls that race for a case both find nothing pending and sign two different
envelopes. Only one of them is saved, and a call submits nothing but what it has
saved or loaded. So the calls are `Ahead`, and whatever the schedule and the
crashes, one wire leaves the edge for each case, and one for its advice.
-/

namespace Snagline.Spool
open Kit Ssp WriteAhead

inductive Kind where
  | case | advice
  deriving DecidableEq

def Tables.stored (st : Tables) : Kind × Bytes → Option Bytes
  | (.case, caseID) => caseTable.stored caseID st.cases
  | (.advice, caseID) => adviceTable.stored caseID st.advice

/-- How an act may be answered, and the tables after it. A transaction runs, is
rolled back, or commits without the confirmation. -/
inductive Performs : (a : Act) → Tables → Except Failure a.Reply → Tables → Prop where
  | done (a : StoreAct) (st st' : Tables) (r : a.Reply) (work : a.work st = .ok (r, st')) :
      Performs (.store a) st (.ok r) st'
  | refused (a : StoreAct) (st : Tables) (e : SpoolError) (work : a.work st = .error e) :
      Performs (.store a) st (.error (.spool e)) st
  | failed (a : StoreAct) (st : Tables) : Performs (.store a) st (.error (.spool .database)) st
  | lost (a : StoreAct) (st st' : Tables) (r : a.Reply) (work : a.work st = .ok (r, st')) :
      Performs (.store a) st (.error (.spool .database)) st'
  | read (caseID : Bytes) (st : Tables) (db : Edge.Database) :
      Performs (.getCase caseID) st (.ok (getCase caseID db)) st
  | unread (caseID : Bytes) (st : Tables) : Performs (.getCase caseID) st (.error .readModel) st
  | answered (identity : Control.WorkloadIdentity) (raw : Bytes) (st : Tables)
      (receipt : Authority.CommitReceipt) : Performs (.submit identity raw) st (.ok receipt) st
  | unanswered (identity : Control.WorkloadIdentity) (raw : Bytes) (st : Tables) :
      Performs (.submit identity raw) st (.error .gateway) st
  | clock (st : Tables) (now : Time) : Performs .clock st (.ok now) st
  | drawn (st : Tables) (id : Bytes) : Performs .newID st (.ok id) st
  | undrawn (st : Tables) : Performs .newID st (.error .generator) st

/-! ### Surroundings that compute -/

structure World where
  readModel : Edge.Database := {}
  fresh : Bytes := []
  clock : ℕ → Time

def World.perform (gateway : Bytes → Authority.CommitReceipt) (w : World) :
    (a : Act) → Tables × ℕ → (Tables × ℕ) × Except Failure a.Reply
  | .store a, (st, n) =>
    match a.work st with
    | .ok (r, st') => ((st', n), .ok r)
    | .error e => ((st, n), .error (.spool e))
  | .getCase caseID, c => (c, .ok (getCase caseID w.readModel))
  | .submit _ raw, c => (c, .ok (gateway raw))
  | .clock, (st, n) => ((st, n + 1), .ok (w.clock n))
  | .newID, c => (c, .ok w.fresh)

theorem World.performs (gateway : Bytes → Authority.CommitReceipt) (w : World) (a : Act) (st : Tables)
    (n : ℕ) : Performs a st (w.perform gateway a (st, n)).2 (w.perform gateway a (st, n)).1.1 := by
  cases a with
  | store a =>
    cases hwork : a.work st with
    | ok x =>
      simp only [World.perform, hwork]
      exact .done a st x.2 x.1 hwork
    | error e =>
      simp only [World.perform, hwork]
      exact .refused a st e hwork
  | getCase caseID => exact .read caseID st w.readModel
  | submit identity raw => exact .answered identity raw st (gateway raw)
  | clock => exact .clock st (w.clock n)
  | newID => exact .drawn st w.fresh

/-! ### The spool as a medium -/

theorem caseTable_wire (a b : PendingCase) (h : caseTable.sameWire a b = true) :
    caseTable.raw a = caseTable.raw b := by
  simp only [caseTable, Bool.and_eq_true, beq_iff_eq] at h
  exact h.2

theorem adviceTable_wire (a b : PendingAdvice) (h : adviceTable.sameWire a b = true) :
    adviceTable.raw a = adviceTable.raw b := by
  simp only [adviceTable, Bool.and_eq_true, beq_iff_eq] at h
  exact h.2

def StoreAct.learns : (a : StoreAct) → a.Reply → Option ((Kind × Bytes) × Bytes)
  | .loadPendingCase caseID, found => Option.map (fun p : PendingCase => ((.case, caseID), p.raw)) found
  | .savePendingCase p, _ => some ((.case, p.caseID), p.raw)
  | .loadPendingAdvice caseID, found =>
    Option.map (fun p : PendingAdvice => ((.advice, caseID), p.raw)) found
  | .savePendingAdvice p, _ => some ((.advice, p.caseID), p.raw)
  | .markCaseAcceptedRemote _, _ | .markAdviceAcceptedRemote _, _ => none

theorem work_stored {a : StoreAct} {st st' : Tables} {r : a.Reply} (h : a.work st = .ok (r, st')) :
    (∀ k raw, st.stored k = some raw → st'.stored k = some raw) ∧
      ∀ k raw, a.learns r = some (k, raw) → st'.stored k = some raw := by
  cases a with
  | loadPendingCase caseID =>
    obtain ⟨found, hfound, h⟩ := bind_eq_ok.mp h
    cases h
    refine ⟨fun _ _ hold => hold, ?_⟩
    intro k raw hlearns
    obtain ⟨p, rfl, hpair⟩ := Option.map_eq_some_iff.mp hlearns
    cases hpair
    exact PendingTable.loadPending_stored hfound
  | loadPendingAdvice caseID =>
    obtain ⟨found, hfound, h⟩ := bind_eq_ok.mp h
    cases h
    refine ⟨fun _ _ hold => hold, ?_⟩
    intro k raw hlearns
    obtain ⟨p, rfl, hpair⟩ := Option.map_eq_some_iff.mp hlearns
    cases hpair
    exact PendingTable.loadPending_stored hfound
  | savePendingCase =>
    obtain ⟨rows, hrows, h⟩ := bind_eq_ok.mp h
    cases h
    obtain ⟨hkept, hsaved⟩ := PendingTable.savePending_ok caseTable_wire hrows
    constructor
    · rintro ⟨kind, caseID⟩ raw hold
      cases kind with
      | case => exact hkept caseID raw hold
      | advice => exact hold
    · intro k raw hlearns
      cases hlearns
      exact hsaved
  | savePendingAdvice =>
    obtain ⟨rows, hrows, h⟩ := bind_eq_ok.mp h
    cases h
    obtain ⟨hkept, hsaved⟩ := PendingTable.savePending_ok adviceTable_wire hrows
    constructor
    · rintro ⟨kind, caseID⟩ raw hold
      cases kind with
      | case => exact hold
      | advice => exact hkept caseID raw hold
    · intro k raw hlearns
      cases hlearns
      exact hsaved
  | markCaseAcceptedRemote =>
    obtain ⟨rows, hrows, h⟩ := bind_eq_ok.mp h
    cases h
    refine ⟨?_, fun k raw hlearns => by cases hlearns⟩
    rintro ⟨kind, caseID⟩ raw hold
    cases kind with
    | case => exact (PendingTable.markAcceptedRemote_ok hrows caseID).trans hold
    | advice => exact hold
  | markAdviceAcceptedRemote =>
    obtain ⟨rows, hrows, h⟩ := bind_eq_ok.mp h
    cases h
    refine ⟨?_, fun k raw hlearns => by cases hlearns⟩
    rintro ⟨kind, caseID⟩ raw hold
    cases kind with
    | case => exact hold
    | advice => exact (PendingTable.markAcceptedRemote_ok hrows caseID).trans hold

def Act.learns : (a : Act) → a.Reply → Option ((Kind × Bytes) × Bytes)
  | .store a, r => a.learns r
  | .getCase _, _ | .submit _ _, _ | .clock, _ | .newID, _ => none

def Act.sends : Act → Option Bytes
  | .submit _ raw => some raw
  | .store _ | .getCase _ | .clock | .newID => none

def Act.admits : (a : Act) → a.Reply → Prop
  | .getCase caseID, r => ∀ c : CaseRecord, (r : Option CaseRecord) = some c → c.caseID = caseID
  | .store _, _ | .submit _ _, _ | .clock, _ | .newID, _ => True

theorem performs_stored {a : Act} {st st' : Tables} {r : Except Failure a.Reply}
    (h : Performs a st r st') :
    (∀ k raw, st.stored k = some raw → st'.stored k = some raw) ∧
      ∀ x, r = .ok x → ∀ k raw, a.learns x = some (k, raw) → st'.stored k = some raw := by
  have hsame : ∀ k raw, st.stored k = some raw → st.stored k = some raw := fun _ _ hold => hold
  cases h with
  | done a st st' r work =>
    refine ⟨(work_stored work).1, ?_⟩
    intro x hx k raw hlearns
    cases hx
    exact (work_stored work).2 k raw hlearns
  | refused | failed | unread | unanswered | undrawn => exact ⟨hsame, fun x hx => by cases hx⟩
  | lost a st st' r work => exact ⟨(work_stored work).1, fun x hx => by cases hx⟩
  | read | answered | clock | drawn => exact ⟨hsame, fun x hx k raw hlearns => by cases hlearns⟩

theorem performs_admits {a : Act} {st st' : Tables} {r : a.Reply}
    (h : Performs a st (.ok r) st') : a.admits r := by
  cases h with
  | done | answered | clock | drawn => trivial
  | read =>
    intro c hc
    obtain ⟨row, -, rfl⟩ := Option.map_eq_some_iff.mp hc
    rfl

def medium : Medium Act Act.Reply Failure (Kind × Bytes) Bytes Tables where
  stored := Tables.stored
  performs := Performs
  admits := Act.admits
  learns := Act.learns
  sends := Act.sends
  keeps := fun _ _ _ _ h => (performs_stored h).1
  admitted := fun _ _ _ _ h => performs_admits h
  learned := fun _ _ r _ h => (performs_stored h).2 r rfl

/-! ### The four calls -/

section Calls
variable {key : Kind × Bytes} {known : Option Bytes}

theorem leads_orRefuse {ε α : Type} {x : Except ε α} {wrap : ε → ServiceError} :
    Leads medium key (fun _ known' => known' = known) known (orRefuse x wrap) := by
  cases x with
  | ok => rfl
  | error => trivial

theorem leads_idle {a : Act} {wrap : Failure → Rejected} (hsend : a.sends = none)
    (hlearn : ∀ r, a.learns r = none) :
    Leads medium key (fun r known' => a.admits r ∧ known' = known) known (Prog.stmt a wrap) := by
  have hnothing : ∀ v, medium.sends a = some v → known = some v := by
    intro v hv
    rw [show medium.sends a = a.sends from rfl, hsend] at hv
    cases hv
  refine (leads_stmt hnothing).mono ?_
  rintro r known' ⟨hadmits, rfl⟩
  refine ⟨hadmits, ?_⟩
  unfold Medium.after
  rw [show medium.learns a r = a.learns r from rfl, hlearn r]

theorem submitPending_leads (s : Service) (p : PendingCase) :
    Leads medium key (fun _ _ => True) (some p.raw) (s.submitPending p) := by
  unfold Service.submitPending
  refine Leads.bind (leads_stmt fun v hv => hv) ?_
  rintro receipt known ⟨-, rfl⟩
  refine Leads.bind leads_require ?_
  rintro - known ⟨-, rfl⟩
  refine Leads.bind leads_require ?_
  rintro - known ⟨-, rfl⟩
  refine Leads.bind leads_require ?_
  rintro - known ⟨-, rfl⟩
  refine Leads.bind (leads_idle rfl fun _ => rfl) ?_
  rintro now known ⟨-, rfl⟩
  refine Leads.bind (leads_idle rfl fun _ => rfl) ?_
  rintro - known -
  trivial

theorem submitPendingAdvice_leads (s : Finalizer) (p : PendingAdvice) :
    Leads medium key (fun _ _ => True) (some p.raw) (s.submitPendingAdvice p) := by
  unfold Finalizer.submitPendingAdvice
  refine Leads.bind (leads_stmt fun v hv => hv) ?_
  rintro receipt known ⟨-, rfl⟩
  refine Leads.bind leads_require ?_
  rintro - known ⟨-, rfl⟩
  refine Leads.bind (leads_idle rfl fun _ => rfl) ?_
  rintro now known ⟨-, rfl⟩
  refine Leads.bind (leads_idle rfl fun _ => rfl) ?_
  rintro - known -
  trivial

theorem openCase_ahead (s : Service) (r : OpenCaseRequest) :
    Ahead medium (.case, r.caseID) none (s.openCase r) := by
  unfold Service.openCase
  refine Leads.bind leads_orRefuse ?_
  intro _ known hknown
  refine Leads.bind (leads_stmt fun v hv => by cases hv) ?_
  intro found known hknown
  refine Leads.bind leads_require ?_
  intro _ known hknown
  refine Leads.bind (leads_idle rfl fun _ => rfl) ?_
  intro now known hknown
  refine Leads.bind (leads_idle rfl fun _ => rfl) ?_
  intro envelopeID known hknown
  refine Leads.bind leads_orRefuse ?_
  intro raw known hknown
  refine Leads.bind leads_orRefuse ?_
  intro commitment known hknown
  -- whatever was known before, the save has stored this wire
  refine Leads.bind (leads_stmt fun v hv => by cases hv) ?_
  intro _ known hknown
  have hsaved : known = some raw := by
    rw [hknown.2]
    exact if_pos rfl
  rw [hsaved]
  exact submitPending_leads s _

theorem retryCase_ahead (s : Service) (caseID : Bytes) :
    Ahead medium (.case, caseID) none (s.retryCase caseID) := by
  unfold Service.retryCase
  refine Leads.bind (leads_stmt fun v hv => by cases hv) ?_
  intro found known hknown
  cases found with
  | none => trivial
  | some p =>
    have hloaded : known = some p.raw := by
      rw [hknown.2]
      exact if_pos rfl
    rw [hloaded]
    exact submitPending_leads s p

theorem refusePending_leads (s : Finalizer) (r : FinalizeAdviceRequest) (p : PendingAdvice) :
    Leads medium key (fun _ _ => True) known (s.refusePending r p) := by
  unfold Finalizer.refusePending
  refine Leads.bind (leads_idle rfl fun _ => rfl) ?_
  intro now known hknown
  split
  · trivial
  · trivial
  · trivial

theorem finalizeAdvice_ahead (s : Finalizer) (r : FinalizeAdviceRequest) :
    Ahead medium (.advice, r.caseID) known (s.finalizeAdvice r) := by
  unfold Finalizer.finalizeAdvice
  refine Leads.bind leads_orRefuse ?_
  intro _ known hknown
  refine Leads.bind (leads_stmt fun v hv => by cases hv) ?_
  intro found known hknown
  cases found with
  | some p => exact refusePending_leads s r p
  | none =>
    refine Leads.bind (leads_idle rfl fun _ => rfl) ?_
    intro record known hknown
    cases record with
    | none => trivial
    | some c =>
      have hcase : c.caseID = r.caseID := hknown.1 c rfl
      refine Leads.bind leads_require ?_
      intro _ known hknown
      refine Leads.bind (leads_idle rfl fun _ => rfl) ?_
      intro now known hknown
      refine Leads.bind leads_require ?_
      intro _ known hknown
      refine Leads.bind (leads_idle rfl fun _ => rfl) ?_
      intro id known hknown
      refine Leads.bind leads_orRefuse ?_
      intro raw known hknown
      refine Leads.bind leads_orRefuse ?_
      intro commitment known hknown
      refine Leads.bind (leads_stmt fun v hv => by cases hv) ?_
      intro _ known hknown
      -- the row is saved under the case the read model answered with
      have hsaved : known = some raw := by
        rw [hknown.2]
        exact if_pos (congrArg (Prod.mk Kind.advice) hcase)
      rw [hsaved]
      exact submitPendingAdvice_leads s _

theorem retryAdvice_ahead (s : Finalizer) (caseID : Bytes) :
    Ahead medium (.advice, caseID) known (s.retryAdvice caseID) := by
  unfold Finalizer.retryAdvice
  refine Leads.bind (leads_stmt fun v hv => by cases hv) ?_
  intro found known hknown
  cases found with
  | none => trivial
  | some p =>
    have hloaded : known = some p.raw := by
      rw [hknown.2]
      exact if_pos rfl
    rw [hloaded]
    exact submitPendingAdvice_leads s p

end Calls

/-! ### Every schedule -/

/-- The calls there are for a case, and those for its advice, each by a service
and a request of its own. -/
inductive Serves : Kind × Bytes → Call Submission → Prop where
  | openCase (s : Service) (r : OpenCaseRequest) : Serves (.case, r.caseID) (s.openCase r)
  | retryCase (s : Service) (caseID : Bytes) : Serves (.case, caseID) (s.retryCase caseID)
  | finalizeAdvice (s : Finalizer) (r : FinalizeAdviceRequest) :
      Serves (.advice, r.caseID) (s.finalizeAdvice r)
  | retryAdvice (s : Finalizer) (caseID : Bytes) : Serves (.advice, caseID) (s.retryAdvice caseID)

theorem Serves.ahead {key : Kind × Bytes} {p : Call Submission} (h : Serves key p) :
    Ahead medium key none p := by
  cases h with
  | openCase s r => exact openCase_ahead s r
  | retryCase s caseID => exact retryCase_ahead s caseID
  | finalizeAdvice s r => exact finalizeAdvice_ahead s r
  | retryAdvice s caseID => exact retryAdvice_ahead s caseID

/-- Calls start, make their moves in any order, and stop anywhere, a crash of the
process being a stop of all its calls. Each submission carries what the spool then
holds under the call's case, and all the submissions for a case carry one wire. -/
theorem one_wire_per_case (store : Tables)
    (c : System Act Act.Reply Failure Rejected Submission (Kind × Bytes) Bytes Tables)
    (hrun : Steps medium Serves { store := store } c) :
    (∀ sent ∈ c.log, sent.store.stored sent.key = some sent.value) ∧
      ∀ sent ∈ c.log, ∀ sent' ∈ c.log, sent.key = sent'.key → sent.value = sent'.value := by
  have hinv : Inv medium c := (inv_initial store).steps (fun key p h => h.ahead) hrun
  refine ⟨hinv.ahead, ?_⟩
  intro sent hsent sent' hsent' hkey
  exact hinv.sent_unique hsent hsent' hkey

namespace Sample

theorem edge_named : text "e" ≠ [] := by decide
theorem principal_named : text "p" ≠ [] := by decide
theorem author_named : text "ke" ≠ [] := by decide
theorem ttl_positive : (0 : ℤ) < 60000000000 := by decide

open Json in
/-- What a signer sends for the envelope. -/
def signed (e : Envelope) : Bytes :=
  objectText [(text "schema", quote e.schema.schema), (text "id", quote e.id),
    (text "case_id", quote e.caseID), (text "emitted_at", quote e.emittedAt),
    (text "expires_at", quote e.expiresAt),
    (text "routing_epoch", decimal e.routingEpoch),
    (text "registry_revision", decimal e.registryRevision),
    (text "registry_hash", quote e.registryHash),
    (text "author_key_id", quote e.authorKeyID),
    (text "signature_alg", quote e.signatureAlg), (text "body", e.body),
    (text "signature", Control.Sample.signatureText)]

def service : Service where
  edgeID := text "e"
  edgeGeneration := 1
  principalID := text "p"
  authorKeyID := text "ke"
  signCase := fun e _ => some (signed e)
  ttl := 60000000000
  primitives := Control.Sample.primitives
  edgeNamed := edge_named
  generationPositive := Int.one_pos
  principalNamed := principal_named
  authorNamed := author_named
  ttlPositive := ttl_positive

def request : OpenCaseRequest :=
  ⟨text "c", text "d", text "s", text "s", Control.Sample.commitment "00",
    ⟨1, 1, Control.Sample.commitment "72"⟩⟩

/-- The wire of a call that draws the identifier `id` in second `n`. -/
def wire (id : String) (n : ℤ) : Bytes :=
  signed (service.caseEnvelope request (text id) (Control.Sample.second n 0))

/-- Call `id` makes its next moves in second 20 plus `id`. -/
def answered (id : ℕ) (a : Act) (st : Tables) : Except Failure a.Reply × Tables :=
  let w : World := { fresh := [105 + id.toUInt8], clock := Control.Sample.second (20 + id) }
  let x := w.perform (fun _ => ⟨text "b", 2, text "j", Control.Sample.commitment "63"⟩) a (st, 0)
  (x.2, x.1.1)

abbrev Calls := System Act Act.Reply Failure Rejected Submission (Kind × Bytes) Bytes Tables

-- both calls find nothing pending and sign; the second one saves first
def bothSigned (c : Calls) : Calls :=
  (((c.start 0 (.case, text "c") (service.openCase request)).start 1 (.case, text "c")
    (service.openCase request)).advance medium (answered 0) 0 3).advance medium (answered 1) 1 6

def raced (c : Calls) : Calls :=
  (((bothSigned c).advance medium (answered 0) 0 1).start 2 (.case, text "c")
    (service.retryCase (text "c"))).advance medium (answered 2) 2 2

theorem answered_performs (id : ℕ) (a : Act) (st : Tables) :
    medium.performs a st (answered id a st).1 (answered id a st).2 :=
  World.performs _ _ a st 0

theorem raced_steps : Steps medium Serves { store := {} } (raced { store := {} }) :=
  ((((((steps_start rfl (.openCase service request)).trans
    (steps_start rfl (.openCase service request))).trans
    (steps_advance (answered_performs 0) 0 3)).trans
    (steps_advance (answered_performs 1) 1 6)).trans
    (steps_advance (answered_performs 0) 0 1)).trans
    (steps_start (by decide +kernel) (.retryCase service (text "c")))).trans
    (steps_advance (answered_performs 2) 2 2)

end Sample

/-- Two calls race for a case and sign two wires. The one that saves first submits its own,
the other is refused, and a retry submits the first wire again. -/
theorem one_wire_per_case_sample :
    let c := Sample.raced { store := {} }
    Sample.wire "i" 20 ≠ Sample.wire "j" 21 ∧
      c.outcome 0 = some (.error ⟨{}, .savePending (.spool .wireConflict)⟩) ∧
      c.log.map Sent.value = [Sample.wire "j" 21, Sample.wire "j" 21] ∧
      ∀ sent ∈ c.log, sent.store.stored sent.key = some sent.value := by
  intro c
  exact ⟨by decide +kernel, by decide +kernel, by decide +kernel,
    (one_wire_per_case _ c Sample.raced_steps).1⟩

end Snagline.Spool
