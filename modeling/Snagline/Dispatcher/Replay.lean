import Snagline.Dispatcher.Runtime
import Snagline.Kit.Rely

/-!
# Turns that race

Any number of turns share the turn table and the spool, and stop anywhere. The spool has
one advice a case, and once its acceptance is recorded nothing changes it. A turn reports
an acceptance only after the spool has it, or from a completion that was stored after it.
So all reports for a case agree, whatever events and texts they were made for.
-/

namespace Snagline.Dispatcher
open Kit Ssp WriteAhead Rely Spool

structure Store where
  turns : List TurnRow
  tables : Tables

def Outcome.reply {a : TurnAct} : Outcome a → Except Failure (Except TurnError a.Reply)
  | .done r => .ok (.ok r)
  | .refused e => .ok (.error e)
  | .failed | .lost => .error (.spool .database)

/-- What the surroundings of a turn add to those of the finalizer: the case is read from
the authority, and a revision is a 64-bit integer. -/
def fitsEdge : (a : Spool.Act) → Except Failure a.Reply → Prop
  | .getCase _, _ => False
  | .submit _ _, r => ∀ receipt : Authority.CommitReceipt, r = .ok receipt → receipt.revision < 2 ^ 63
  | .store _, _ | .clock, _ | .newID, _ => True

inductive Answers : (a : Act) → Store → Except Failure a.Reply → Store → Prop where
  | turn (a : TurnAct) (st : Store) (o : Outcome a) (rows : List TurnRow)
      (performs : Performs a st.turns o rows) :
      Answers (.turn a) st o.reply { st with turns := rows }
  -- ResolveCase answers for the case it was asked for
  | resolved (caseID : Bytes) (st : Store) (record : CaseRecord)
      (named : record.caseID = caseID) : Answers (.edge (.getCase caseID)) st (.ok (some record)) st
  | unresolved (caseID : Bytes) (st : Store) :
      Answers (.edge (.getCase caseID)) st (.error .readModel) st
  | edge (a : Spool.Act) (st : Store) (r : Except Failure a.Reply) (tables : Tables)
      (performs : Spool.Performs a st.tables r tables) (fits : fitsEdge a r) :
      Answers (.edge a) st r { st with tables := tables }

/-! ### The spool under a turn -/

def Act.learns : (a : Act) → a.Reply → Option ((Kind × Bytes) × Bytes)
  | .turn _, _ => none
  | .edge a, r => a.learns r

def Act.sends : Act → Option Bytes
  | .turn _ => none
  | .edge a => a.sends

def Act.admits : (a : Act) → a.Reply → Prop
  | .turn _, _ => True
  | .edge a, r => a.admits r

theorem answers_stored {a : Act} {st st' : Store} {r : Except Failure a.Reply}
    (h : Answers a st r st') :
    (∀ k raw, st.tables.stored k = some raw → st'.tables.stored k = some raw) ∧
      ∀ x, r = .ok x → ∀ k raw, a.learns x = some (k, raw) → st'.tables.stored k = some raw := by
  cases h with
  | turn | resolved => exact ⟨fun _ _ hold => hold, fun _ _ _ _ hlearns => by cases hlearns⟩
  | unresolved => exact ⟨fun _ _ hold => hold, fun _ hx => by cases hx⟩
  | edge a st r tables performs => exact performs_stored performs

theorem answers_admits {a : Act} {st st' : Store} {r : a.Reply} (h : Answers a st (.ok r) st') :
    a.admits r := by
  generalize hx : Except.ok r = x at h
  cases h with
  | turn => trivial
  | resolved caseID st record named =>
    cases hx
    intro c hc
    cases hc
    exact named
  | unresolved => cases hx
  | edge a st r tables performs =>
    cases hx
    exact performs_admits performs

def medium : Medium Act Act.Reply Failure (Kind × Bytes) Bytes Store where
  stored := fun st => st.tables.stored
  performs := Answers
  admits := Act.admits
  learns := Act.learns
  sends := Act.sends
  keeps := fun _ _ _ _ h => (answers_stored h).1
  admitted := fun _ _ _ _ h => answers_admits h
  learned := fun _ _ r _ h => (answers_stored h).2 r rfl

/-! ### Recorded acceptances -/

section
variable {rows rows' : List (Row PendingAdvice)} {caseID adviceID : Bytes}
  {revision : ℤ} {st st' : Tables}

def Accepted (caseID adviceID : Bytes) (revision : ℤ) (rows : List (Row PendingAdvice)) :
    Prop :=
  ∃ row acceptance, adviceTable.find caseID rows = some row ∧
    row.pending.adviceID = adviceID ∧ row.acceptance = some acceptance ∧
    acceptance.revision = revision

theorem Accepted.unique {caseID adviceID adviceID' : Bytes} {revision revision' : ℤ}
    {rows : List (Row PendingAdvice)} (h : Accepted caseID adviceID revision rows)
    (h' : Accepted caseID adviceID' revision' rows) : adviceID = adviceID' ∧ revision = revision' := by
  obtain ⟨row, acceptance, hfound, hid, hacceptance, hrevision⟩ := h
  obtain ⟨row', acceptance', hfound', hid', hacceptance', hrevision'⟩ := h'
  cases hfound.symm.trans hfound'
  cases hacceptance.symm.trans hacceptance'
  exact ⟨hid.symm.trans hid', hrevision.symm.trans hrevision'⟩

theorem Accepted.save (h : Accepted caseID adviceID revision rows)
    {pending : PendingAdvice} (hsave : Spool.savePendingAdvice pending rows = .ok rows') :
    Accepted caseID adviceID revision rows' := by
  unfold Spool.savePendingAdvice PendingTable.savePending at hsave
  obtain ⟨-, hsave⟩ := ensure_bind_eq_ok.mp hsave
  split at hsave
  · obtain ⟨-, hsave⟩ := ensure_bind_eq_ok.mp hsave
    cases hsave
    exact h
  · obtain ⟨-, hsave⟩ := ensure_bind_eq_ok.mp hsave
    cases hsave
    obtain ⟨row, acceptance, hfound, hrest⟩ := h
    refine ⟨row, acceptance, ?_, hrest⟩
    unfold PendingTable.find at hfound ⊢
    rw [Table.find_append, hfound]
    rfl

theorem mark_accepted {accepted : AcceptedRemote}
    (hmark : Spool.markAdviceAcceptedRemote accepted rows = .ok rows') :
    Accepted accepted.caseID accepted.envelopeID accepted.receipt.revision rows' ∧
      ∀ caseID adviceID revision, Accepted caseID adviceID revision rows →
        Accepted caseID adviceID revision rows' := by
  unfold Spool.markAdviceAcceptedRemote PendingTable.markAcceptedRemote at hmark
  obtain ⟨-, -, hmark⟩ := bind_eq_ok.mp hmark
  obtain ⟨row, hrow, hmark⟩ := orFail_bind_eq_ok.mp hmark
  obtain ⟨hbinds, hmark⟩ := ensure_bind_eq_ok.mp hmark
  rw [Bool.and_eq_true, beq_iff_eq] at hbinds
  have hid : row.pending.adviceID = accepted.envelopeID := hbinds.1
  split at hmark
  · rename_i stored hstored
    obtain ⟨hevidence, hmark⟩ := ensure_bind_eq_ok.mp hmark
    cases hmark
    simp only [adviceTable, Bool.and_eq_true, beq_iff_eq] at hevidence
    exact ⟨⟨row, stored, hrow, hid, hstored, hevidence.2⟩, fun _ _ _ h => h⟩
  · rename_i hnone
    cases hmark
    unfold PendingTable.find at hrow
    have hfind : ∀ caseID, adviceTable.find caseID
        (Table.update adviceTable.key accepted.caseID (Row.accept accepted.acceptance) rows) =
        if caseID = accepted.caseID then
          (Table.find adviceTable.key caseID rows).map (Row.accept accepted.acceptance)
        else Table.find adviceTable.key caseID rows := fun caseID =>
      Table.find_update adviceTable.key accepted.caseID caseID
        (Row.accept accepted.acceptance) (fun _ => rfl) rows
    constructor
    · refine ⟨Row.accept accepted.acceptance row, accepted.acceptance, ?_, hid, rfl, rfl⟩
      rw [hfind, if_pos rfl, hrow]
      rfl
    · rintro caseID adviceID revision ⟨old, acceptance, hfound, hold, hacceptance, hrevision⟩
      have hne : caseID ≠ accepted.caseID := by
        rintro rfl
        cases hfound.symm.trans hrow
        rw [hnone] at hacceptance
        cases hacceptance
      refine ⟨old, acceptance, ?_, hold, hacceptance, hrevision⟩
      rw [hfind, if_neg hne]
      exact hfound

theorem Accepted.work {a : StoreAct} {r : a.Reply} (hwork : a.work st = .ok (r, st'))
    (h : Accepted caseID adviceID revision st.advice) : Accepted caseID adviceID revision st'.advice := by
  cases a with
  | loadPendingCase | savePendingCase | markCaseAcceptedRemote | loadPendingAdvice =>
    obtain ⟨_, -, hrest⟩ := bind_eq_ok.mp hwork
    cases hrest
    exact h
  | savePendingAdvice pending =>
    obtain ⟨_, hsave, hrest⟩ := bind_eq_ok.mp hwork
    cases hrest
    exact h.save hsave
  | markAdviceAcceptedRemote accepted =>
    obtain ⟨_, hmark, hrest⟩ := bind_eq_ok.mp hwork
    cases hrest
    exact (mark_accepted hmark).2 _ _ _ h

theorem Accepted.performs {a : Spool.Act} {r : Except Failure a.Reply}
    (hdone : Spool.Performs a st r st')
    (h : Accepted caseID adviceID revision st.advice) : Accepted caseID adviceID revision st'.advice := by
  cases hdone with
  | done a st st' r work | lost a st st' r work => exact h.work work
  | refused | failed | read | unread | answered | unanswered | clock | drawn | undrawn => exact h

end

/-! ### The turn table -/

/-- The row was made by a turn of its event for a validated request, for the retention
period. If it is completed, its result says what the spool has recorded for the case. -/
def Rightful (times : Bytes → Time → Prop) (advice : List (Row PendingAdvice)) (row : TurnRow) :
    Prop :=
  (∃ made, times row.eventID made ∧ row.expires = unixNano (made + dispatcherTurnRetention)) ∧
  ∃ r : CommandRequest, validateCommandRequest r = true ∧ row.request = r.text ∧
    r.text.length ≤ maxDispatcherCommandRequestBytes ∧
    (row.state = .completed → row.claimToken = none ∧ row.claimExpires = none ∧
      ∃ adviceID revision, row.result = some (acceptedResult adviceID revision).text ∧
        (acceptedResult adviceID revision).text.length ≤ maxDispatcherTurnResultBytes ∧
        adviceID ≠ [] ∧ 0 < revision ∧ revision < 2 ^ 63 ∧ Accepted r.caseID adviceID revision advice)

theorem Rightful.advance {times : Bytes → Time → Prop} {advice advice' : List (Row PendingAdvice)}
    {row : TurnRow} (h : Rightful times advice row)
    (hmore : ∀ caseID adviceID revision, Accepted caseID adviceID revision advice →
      Accepted caseID adviceID revision advice') : Rightful times advice' row := by
  obtain ⟨hmade, r, hvalid, hrequest, hlength, hcompleted⟩ := h
  refine ⟨hmade, r, hvalid, hrequest, hlength, fun hstate => ?_⟩
  obtain ⟨htoken, hexpires, adviceID, revision, hresult, hshort, hid, hpositive, hint64, haccepted⟩ :=
    hcompleted hstate
  exact ⟨htoken, hexpires, adviceID, revision, hresult, hshort, hid, hpositive, hint64,
    hmore _ _ _ haccepted⟩

section
variable {times : Bytes → Time → Prop} {token : ClaimToken} {a : TurnAct} {rows : List TurnRow}
  {reply : a.Reply} {st : Store}

end

/-! ### The finalizer within a turn -/

section Finalizer
variable {times : Bytes → Time → Prop} {known : Store → Prop}
variable (f : Spool.Finalizer) {wrap : Failure → Rejected} {a : Spool.Act}

end Finalizer

/-! ### A turn -/

section Turn
variable {times : Bytes → Time → Prop} {known : Store → Prop}
variable {r : CommandRequest} {caseID : Bytes} {code : String} {now : Time}

def Reported (caseID : Bytes) (out : Output) (st : Store) : Prop :=
  out.exit ≠ 0 ∨ ∃ adviceID revision, out = writeCanonicalResult (acceptedResult adviceID revision).text ∧
    Accepted caseID adviceID revision st.tables.advice

end Turn

/-! ### One wire a case -/

section Ahead
variable {key : Kind × Bytes} {known : Option Bytes}
variable (f : Spool.Finalizer) (r : CommandRequest) {α : Type}

theorem finalizer_ahead {Q : α → Option Bytes → Prop} {p : Call α}
    (h : Leads Spool.medium key Q known p) : Ahead medium key known (finalizer p) := by
  induction p generalizing known with
  | ret | fail => trivial
  | call s k ih =>
    obtain ⟨hsend, hok, herror⟩ := h
    exact ⟨hsend, fun r hr => ih (.ok r) (hok r hr), fun e => ih (.error e) (herror e)⟩

theorem attempt_ahead {a : Act} {k : Except Failure a.Reply → Turn α}
    (hsend : a.sends = none) (hk : ∀ r known, Ahead medium key known (k r)) :
    Ahead medium key known (.call a k) := by
  refine ⟨?_, fun r _ => hk (.ok r) _, fun e => hk (.error e) known⟩
  intro v hv
  rw [show medium.sends a = a.sends from rfl, hsend] at hv
  cases hv

theorem giveUp_ahead {a : TurnAct} {code : String} : Ahead medium key known (giveUp a code) := by
  refine attempt_ahead rfl fun r known => ?_
  match r with
  | .ok (.ok _) | .ok (.error _) | .error _ => trivial

theorem completeTurn_ahead (claim : Bytes) (s : Submission) :
    Ahead medium key known (completeTurn r claim s) := by
  unfold completeTurn
  split
  · trivial
  · refine attempt_ahead rfl fun x known => ?_
    match x with
    | .error _ => trivial
    | .ok now =>
      refine attempt_ahead rfl fun x known => ?_
      match x with
      | .ok (.ok _) | .ok (.error _) | .error _ => trivial

theorem rejectTurn_ahead (claim : Bytes) (e : ServiceError) :
    Ahead medium key known (rejectTurn r claim e) := by
  unfold rejectTurn
  split <;> exact giveUp_ahead

theorem adviseOnce_ahead :
    Ahead medium (.advice, r.caseID) known (adviseOnce f r) := by
  have hfinalize : Leads Spool.medium (.advice, r.caseID) (fun _ _ => True) known
      (f.finalizeAdvice r.advice) := finalizeAdvice_ahead f r.advice
  refine Leads.bind (finalizer_ahead hfinalize) ?_
  intro x known _
  split
  · exact finalizer_ahead (retryAdvice_ahead f r.caseID)
  · trivial

theorem boundTurn_ahead (b : DispatcherTurnBinding) :
    Ahead medium (.advice, r.caseID) known (boundTurn f r b) := by
  unfold boundTurn
  split
  · split <;> trivial
  · split
    · trivial
    · split
      · trivial
      · refine Leads.bind (adviseOnce_ahead f r) ?_
        intro x known _
        cases x with
        | error rejected => exact rejectTurn_ahead r _ rejected.error
        | ok s => exact completeTurn_ahead r _ s

theorem runDispatcherTurn_ahead (now : Time) :
    Ahead medium (.advice, r.caseID) none (runDispatcherTurn f r now) := by
  unfold runDispatcherTurn
  split
  · trivial
  · refine attempt_ahead rfl fun x known => ?_
    unfold afterBind
    split
    · exact boundTurn_ahead f r _
    all_goals trivial

end Ahead

/-! ### A completed event -/

/-- The turn comes to `out` with at most one statement, on the turn table. -/
def Ends (p : Turn Output) (st : Store) (out : Output) : Prop :=
  p = .ret out ∨ ∃ a k, p = .call (.turn a) k ∧
    ∀ reply st', Answers (.turn a) st (.ok reply) st' → k (.ok reply) = .ret out

section Completed
variable {st : Store} {r : CommandRequest} {row : TurnRow} {now : Time}

end Completed

/-! ### Every interleaving -/

abbrev Turns := System Act Act.Reply Failure Empty Output (Kind × Bytes) Bytes Store

inductive Invokes (times : Bytes → Time → Prop) : Kind × Bytes → Turn Output → Prop where
  | turn (f : Spool.Finalizer) (r : CommandRequest) (now : Time) (valid : validateCommandRequest r = true)
      (made : times r.eventID now) : Invokes times (.advice, r.caseID) (runDispatcherTurn f r now)

theorem Invokes.ahead {times : Bytes → Time → Prop} {key : Kind × Bytes} {p : Turn Output}
    (h : Invokes times key p) : Ahead medium key none p := by
  cases h with
  | turn f r now => exact runDispatcherTurn_ahead f r now

/-- The turns read their clocks where `UnixNano` is exact, for the retention period as well. -/
def Exact (times : Bytes → Time → Prop) : Prop :=
  ∀ event (now : ℤ), times event now → -2 ^ 63 ≤ now ∧ now + dispatcherTurnRetention < 2 ^ 63

theorem Exact.unixNano_eq {times : Bytes → Time → Prop} (h : Exact times) {event : Bytes} {now : ℤ}
    (hnow : times event now) :
    unixNano now = now ∧
      unixNano (now + dispatcherTurnRetention) = now + dispatcherTurnRetention := by
  obtain ⟨hlow, hhigh⟩ := h event now hnow
  have hretention : 0 < dispatcherTurnRetention := by decide
  exact ⟨Dispatcher.unixNano_eq hlow (by omega), Dispatcher.unixNano_eq (by omega) hhigh⟩

namespace Sample

-- advice outlives the retention period, so that a late turn still finds it pending
theorem month_positive : (0 : ℤ) < 2592000 * second := by decide

def finalizer : Spool.Finalizer where
  principalID := text "p"
  authorKeyID := text "ke"
  signAdvice := fun e _ => some (Spool.Sample.signed e)
  ttl := 2592000 * second
  primitives := Control.Sample.primitives
  principalNamed := Spool.Sample.principal_named
  authorNamed := Spool.Sample.author_named
  ttlPositive := month_positive

def request (event : Bytes) : CommandRequest :=
  ⟨event, text "c", Control.Sample.commitment "63", text "w", text "s"⟩

def other : Bytes := List.replicate 64 98

def record (caseID : Bytes) : CaseRecord :=
  ⟨text "i", caseID, Control.Sample.commitment "63", text "s",
    ⟨1, 1, Control.Sample.commitment "72"⟩, Control.Sample.second 5000000 0, true⟩

/-- Everything answers, at the time `now`. -/
def replies (now : Time) : (a : Act) → Store → Except Failure a.Reply × Store
  | .turn a, st =>
    match a.work (token 49 first_hex) st.turns with
    | .ok (reply, rows) => (.ok (.ok reply), { st with turns := rows })
    | .error e => (.ok (.error e), st)
  | .edge (.getCase caseID), st => (.ok (some (record caseID)), st)
  | .edge a, st =>
    let x := World.perform (fun _ => ⟨text "b", 5, text "v", Control.Sample.commitment "61"⟩)
      { fresh := text "v", clock := fun _ => now } a (st.tables, 0)
    (x.2, { st with tables := x.1.1 })

def made : Time := Control.Sample.second 20 0

/-- Turn `id` for the event, made at `now`, issues its next `n` statements at `clock`. -/
def turned (id : ℕ) (event : Bytes) (now clock : Time) (n : ℕ) (c : Turns) : Turns :=
  (c.start id (.advice, text "c") (runDispatcherTurn finalizer (request event) now)).advance medium
    (replies clock) id n

def completed : Turns := turned 0 event made made 12 { store := ⟨[], {}⟩ }
end Sample

end Snagline.Dispatcher
