import Snagline.Authority.Causality
import Snagline.Authority.Conflicts
import Snagline.Control.CaseRead

/-!
# How a conflict is answered (controlhttp/server.go:268-311)

The two errors of the store that say an identity is taken are answered with 409, and what
the server has no word for with 503. The first is what a fact meets whose identities belong
to its own family. An envelope identifier of the other family gets as far as the insert of
the delivery, and is answered as if the authority were down.
-/

namespace Snagline.Control
open Kit Ssp Authority

/-- `writeAdmissionError`, on the errors a commit returns. -/
def CallError.reply : CallError → Reply
  | .store .registryHalted => failure 410 "gone"
  | .store .conflictingCase => failure 409 "conflict"
  | .store .finalAdviceAlreadySet => failure 409 "conflict"
  | .store .conflictingRegistry => failure 409 "conflict"
  | .store .registryRevisionSequence => failure 409 "conflict"
  | .store .registryEquivocation => failure 409 "conflict"
  | .store .registryRollback => failure 409 "conflict"
  | .store .edgeGenerationRollback => failure 409 "conflict"
  | .store (.invalidRequest _) => failure 422 "unprocessable"
  | .store .caseBinding => failure 422 "unprocessable"
  | .store .registryBinding => failure 422 "unprocessable"
  | .store .caseNotFound => failure 422 "unprocessable"
  | .store .registryNotFound => failure 422 "unprocessable"
  | _ => failure 503 "unavailable"

def AnsweredWith (reply : Reply) (result : Except CallError CommitReceipt) : Prop :=
  ∃ e, result = .error e ∧ CallError.reply e = reply

theorem reply_of_generic {e : CallError} (h : e.Generic) :
    CallError.reply e = failure 503 "unavailable" := by
  cases e with
  | store =>
    rcases h with h | ⟨operation, state, h⟩
    · rw [h]
      rfl
    · rw [h]
      rfl
  | exhausted => rfl
  | beginFailed | commitFailed | commitLost => exact h.elim

/-- A commit is told of a conflict exactly when `taken` holds, with the error `e`, and is told
that the authority is unavailable when `blocked` holds in its stead. -/
structure Reports (e : StoreError) (taken blocked : Prop)
    (result : Except CallError CommitReceipt) : Prop where
  error : taken → result = .error (.store e)
  conflict : AnsweredWith (failure 409 "conflict") result ↔ taken
  unavailable : ¬taken → blocked → AnsweredWith (failure 503 "unavailable") result

theorem reports_of_outcome {e : StoreError} {taken blocked : Prop}
    {result : Except CallError CommitReceipt}
    (hreply : CallError.reply (.store e) = failure 409 "conflict")
    (htaken : taken → result = .error (.store e))
    (hfree : ¬taken → ∀ e', result = .error e' → e'.Generic)
    (hblocked : blocked → ∃ e', result = .error e') : Reports e taken blocked result where
  error := htaken
  conflict := by
    constructor
    · rintro ⟨e', herror, hanswer⟩
      by_contra hnot
      rw [reply_of_generic (hfree hnot e' herror)] at hanswer
      exact absurd (congrArg Reply.status hanswer) (by decide)
    · intro h
      exact ⟨_, htaken h, hreply⟩
  unavailable := by
    intro hnot h
    obtain ⟨e', herror⟩ := hblocked h
    exact ⟨e', herror, reply_of_generic (hfree hnot e' herror)⟩

/-- For every state the authority can reach and every call that runs undisturbed: an
admissible case is told of a conflict exactly when a case has taken one of its identities,
and an admissible advice exactly when an advice has. When it is only the envelope
identifier, and the other family has it, the answer is that the authority is unavailable. -/
theorem conflicts_reported_iff (store : Store) (es : List Authority.Event)
    (rounds : Fin transactionAttempts → Round) (halone : Alone rounds) :
    (∀ (r : CommitCaseRequest) (head : HeadRow), r.validate = .ok () →
      LiveHead (store.run {} es) r.tenantID head → r.bindsHead head →
      Reports .conflictingCase (r.TakenByCase (store.run {} es))
        (∃ a ∈ (store.run {} es).advice, a.envelopeKey = (r.tenantID, r.envelopeID))
        (store.commit (.case r) rounds (store.run {} es)).2) ∧
    (∀ (r : CommitAdviceRequest) (head : HeadRow) (case : CaseRow), r.validate = .ok () →
      LiveHead (store.run {} es) r.tenantID head →
      Table.find CaseRow.key (r.tenantID, r.caseID) (store.run {} es).cases = some case →
      r.binds case = true →
      Reports .finalAdviceAlreadySet (r.TakenByAdvice (store.run {} es))
        (∃ c ∈ (store.run {} es).cases, c.envelopeKey = (r.tenantID, r.envelopeID))
        (store.commit (.advice r) rounds (store.run {} es)).2) := by
  have hdb := reachable_constrained store es
  constructor
  · intro r head hvalid hlive hbinds
    have hcall : (Call.case r).validate = .ok () := hvalid
    refine reports_of_outcome rfl ?_ ?_ ?_
    · intro htaken
      refine commit_refused hcall halone rfl fun w hquiet hw => ?_
      rw [← hw] at hdb hlive htaken
      exact (commitCase_quiet store hquiet hdb hlive hbinds).1 htaken
    · intro hfree e
      refine commit_generic hcall halone (commitCase_receipt store r) fun w hquiet hw => ?_
      rw [← hw] at hdb hlive hfree
      exact (commitCase_quiet store hquiet hdb hlive hbinds).2 hfree
    · rintro ⟨a, ha, hkey⟩
      exact commit_unwritten hcall halone (commitCase_blocked store es ha hkey)
  · intro r head case hvalid hlive hcase hbinds
    have hcall : (Call.advice r).validate = .ok () := hvalid
    refine reports_of_outcome rfl ?_ ?_ ?_
    · intro htaken
      refine commit_refused hcall halone rfl fun w hquiet hw => ?_
      rw [← hw] at hdb hlive hcase htaken
      exact (commitAdvice_quiet store hquiet hdb hlive hcase hbinds).1 htaken
    · intro hfree e
      refine commit_generic hcall halone (commitAdvice_receipt store r) fun w hquiet hw => ?_
      rw [← hw] at hdb hlive hcase hfree
      exact (commitAdvice_quiet store hquiet hdb hlive hcase hbinds).2 hfree
    · rintro ⟨c, hc, hkey⟩
      exact commit_unwritten hcall halone (commitAdvice_blocked store es hc hkey)

namespace Sample

def reusing : CommitCaseRequest :=
  { Authority.Sample.caseRequest 1000 with
    caseID := [103]
    envelopeID := [102]
    commitment := Authority.Sample.commitment 52 }

def head : HeadRow := ⟨[116], 1, Authority.Sample.commitment 49, 1, false, []⟩
def undisturbed : Fin transactionAttempts → Round := fun _ => ⟨[], { nextval := 3 }⟩

theorem alone_undisturbed : Alone undisturbed where
  others := fun _ => rfl
  clean := by
    intro i
    exact ⟨rfl, List.forall_mem_nil _, rfl⟩
  rollback := fun _ => rfl

end Sample

/-- After a case and its advice: other bytes under the case's identifier are told of the
conflict. -/
theorem conflicts_reported_iff_sample :
    (Authority.Sample.store.commit
      (.case { Authority.Sample.caseRequest 1000 with raw := [91, 93] }) Sample.undisturbed
      (Authority.Sample.store.run {} Authority.Sample.advised)).2 =
        .error (.store .conflictingCase) := by
  have hreports := (conflicts_reported_iff Authority.Sample.store Authority.Sample.advised
    Sample.undisturbed Sample.alone_undisturbed).1
    { Authority.Sample.caseRequest 1000 with raw := [91, 93] } Sample.head (by decide)
    ⟨by decide +kernel, rfl⟩ ⟨rfl, rfl, rfl⟩
  refine hreports.error ⟨(Authority.Sample.caseRequest 1000).row 2, by decide +kernel, ?_⟩
  exact ⟨.inl rfl, by decide⟩

/-- The request is valid and names the live head, the history is that of a case and its
advice, and nothing disturbs the call. -/
theorem advice_envelope_unavailable :
    let db := Authority.Sample.store.run {} Authority.Sample.advised
    Sample.reusing.validate = .ok () ∧
      Table.find HeadRow.tenantID Sample.reusing.tenantID db.heads = some Sample.head ∧
      Sample.head.halted = false ∧ Sample.reusing.bindsHead Sample.head ∧
      Alone Sample.undisturbed ∧
      (∃ a ∈ db.advice, a.tenantID = Sample.reusing.tenantID ∧
        a.envelopeID = Sample.reusing.envelopeID) ∧
      ∃ e, (Authority.Sample.store.commit (.case Sample.reusing) Sample.undisturbed db).2 =
          .error e ∧ e = .store (.sql .writeDelivery .uniqueViolation) ∧
        CallError.reply e = failure 503 "unavailable" := by
  intro db
  refine ⟨by decide, by decide +kernel, rfl, ⟨rfl, rfl, rfl⟩, Sample.alone_undisturbed, ?_, ?_⟩
  · decide +kernel
  · exact ⟨.store (.sql .writeDelivery .uniqueViolation), by decide +kernel, rfl, by decide⟩

end Snagline.Control
