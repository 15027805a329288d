import Snagline.Authority.Constraints
import Snagline.Authority.Replay

/-!
# Identities that are taken (store.go:46-195, 619-630, 740-752)

A fact's identifiers are looked up among the facts of its own family, before anything
is written. What the other family has taken shows at the earliest when the delivery is
inserted, whose envelope identifier both families share, and there it is an error like
any other.
-/

namespace Snagline.Authority
open Kit Ssp

/-! ### Undisturbed bodies -/

def World.Quiet (w : World) : Prop := ∀ f ∈ w.faults, f = none

section
variable {α : Type}

-- a read of a quiet world is answered from its tables
theorem run_read_quiet {s : Sql} {reply : s.Reply} {w : World} (hquiet : w.Quiet)
    (hread : s.exec w.revision w.db = .ok (reply, w.db)) (wrap : SqlState → StoreError) :
    ∃ w', w'.Quiet ∧ w'.db = w.db ∧
      Prog.run World.exec (query s wrap) w = .ok (reply, w') := by
  have hfault : w.faults.head?.join = none := by
    cases hfaults : w.faults with
    | nil => rfl
    | cons f => exact hquiet f (hfaults ▸ List.mem_cons_self)
  have hexec : World.exec s w = .ok (reply, ⟨w.db, w.faults.tail, w.revision⟩) := by
    unfold World.exec
    rw [hfault, hread]
    rfl
  refine ⟨⟨w.db, w.faults.tail, w.revision⟩, ?_, rfl, ?_⟩
  · intro x hx
    exact hquiet x (List.mem_of_mem_tail hx)
  · exact (Prog.run_stmt_eq_ok World.exec s wrap w _).mpr hexec

theorem run_bind_ok {body : Body α} {β : Type} {f : α → Body β} {w w' : World} {a : α}
    (h : Prog.run World.exec body w = .ok (a, w')) :
    Prog.run World.exec (body >>= f) w = Prog.run World.exec (f a) w' := by
  rw [Prog.run_bind, h]

theorem run_require_pass {cond : Bool} (hcond : cond = true) (e : StoreError) (w : World) :
    Prog.run World.exec (Prog.require cond e : Body Unit) w = .ok ((), w) := by
  rw [hcond]
  rfl

theorem run_require_stop {cond : Bool} (hcond : cond = false) (e : StoreError)
    (f : Unit → Body α) (w : World) :
    Prog.run World.exec (Prog.require cond e >>= f) w = .error e := by
  rw [hcond]
  rfl

end

theorem run_liveHead_quiet {tenantID : Bytes} {w : World} (hquiet : w.Quiet) {head : HeadRow}
    (hlive : LiveHead w.db tenantID head) :
    ∃ w', w'.Quiet ∧ w'.db = w.db ∧
      Prog.run World.exec (liveHead tenantID) w = .ok (head, w') := by
  have hread : (Sql.selectHeadForUpdate tenantID).exec w.revision w.db =
      .ok (some head, w.db) := by
    show Except.ok (Table.find HeadRow.tenantID tenantID w.db.heads, w.db) = _
    rw [hlive.found]
  obtain ⟨w', hquiet', hdb, hrun⟩ := run_read_quiet hquiet hread (.sql .lockRegistryHead)
  refine ⟨w', hquiet', hdb, ?_⟩
  unfold liveHead registryHeadForUpdate
  rw [run_bind_ok hrun]
  simp only [hlive.live]
  rfl

/-! ### Errors that are no refusals -/

def StoreError.Generic (e : StoreError) : Prop :=
  e = .retryTransaction ∨ ∃ operation state, e = .sql operation state

theorem orRetry_generic (operation : Operation) (state : SqlState) :
    (orRetry operation state).Generic := by
  unfold orRetry
  split
  · exact .inl rfl
  · exact .inr ⟨operation, state, rfl⟩

/-- Whatever the body ends with when it fails satisfies `P`. -/
def Fails {α : Type} (P : StoreError → Prop) (body : Body α) : Prop :=
  ∀ w e, Prog.run World.exec body w = .error e → P e

section
variable {α β : Type} {P : StoreError → Prop}

theorem Fails.bind {body : Body α} {f : α → Body β} (h : Fails P body) (hf : ∀ a, Fails P (f a)) :
    Fails P (body >>= f) := by
  intro w e herror
  rw [Prog.run_bind] at herror
  cases hrun : Prog.run World.exec body w with
  | error =>
    rw [hrun] at herror
    cases herror
    exact h w e hrun
  | ok x =>
    rw [hrun] at herror
    exact hf x.1 x.2 e herror

theorem fails_query {s : Sql} {wrap : SqlState → StoreError} (h : ∀ state, P (wrap state)) :
    Fails P (query s wrap) := by
  intro w e herror
  unfold query Prog.stmt at herror
  simp only [Prog.run] at herror
  cases hexec : World.exec s w with
  | error state =>
    rw [hexec] at herror
    cases herror
    exact h state
  | ok =>
    rw [hexec] at herror
    cases herror

theorem fails_pure_body (a : α) : Fails P (pure a : Body α) := by
  intro w e herror
  cases herror

end

variable (store : Store)

theorem fails_insertOutbox (tenantID : Bytes) (kind : EntityKind) (entityID raw : Bytes)
    (revision : ℤ) (destinations : List (DestinationKind × Bytes)) : Fails StoreError.Generic
    (store.insertOutbox tenantID kind entityID raw revision destinations) := by
  induction destinations with
  | nil => exact fails_pure_body ()
  | cons d rest ih => exact (fails_query fun state => .inr ⟨_, state, rfl⟩).bind fun _ => ih

theorem fails_writeCase (r : CommitCaseRequest) : Fails StoreError.Generic (store.writeCase r) := by
  have hsql : ∀ {s : Sql} (operation : Operation), Fails StoreError.Generic (query s (.sql operation)) :=
    fun operation => fails_query fun state => .inr ⟨operation, state, rfl⟩
  refine (hsql _).bind fun revision => ?_
  refine (fails_query fun state => orRetry_generic _ state).bind fun _ => ?_
  refine (hsql _).bind fun sequence => ?_
  refine (hsql _).bind fun _ => ?_
  refine (hsql _).bind fun _ => ?_
  exact (fails_insertOutbox store _ _ _ _ _ _).bind fun _ => fails_pure_body _

theorem fails_writeAdvice (r : CommitAdviceRequest) (case : CaseRow) :
    Fails StoreError.Generic (store.writeAdvice r case) := by
  have hsql : ∀ {s : Sql} (operation : Operation), Fails StoreError.Generic (query s (.sql operation)) :=
    fun operation => fails_query fun state => .inr ⟨operation, state, rfl⟩
  refine (hsql _).bind fun sequence => ?_
  refine (hsql _).bind fun revision => ?_
  refine (fails_query fun state => orRetry_generic _ state).bind fun _ => ?_
  refine (hsql _).bind fun _ => ?_
  refine (hsql _).bind fun _ => ?_
  exact (fails_insertOutbox store _ _ _ _ _ _).bind fun _ => fails_pure_body _

/-! ### Taken identities -/

/-- A row other than the one asked for has one of the three identities. The row asked for has
the identifier `id` and passes `same`. -/
def Taken {ρ : Type} (key envelopeKey commitmentKey : ρ → Bytes × Bytes) (same : ρ → Bool)
    (tenantID id envelopeID commitment : Bytes) (rows : List ρ) : Prop :=
  ∃ row ∈ rows, (key row = (tenantID, id) ∨ envelopeKey row = (tenantID, envelopeID) ∨
      commitmentKey row = (tenantID, commitment)) ∧
    ¬(key row = (tenantID, id) ∧ same row = true)

section
variable {ρ : Type} {key envelopeKey commitmentKey : ρ → Bytes × Bytes} {same : ρ → Bool}
  {tenantID id envelopeID commitment : Bytes} {rows : List ρ} {row : ρ}

-- the constraints leave the identities of a row to that row alone
theorem not_taken_of_same (hkey : Table.Keyed key rows) (henvelope : Table.Keyed envelopeKey rows)
    (hcommitment : Table.Keyed commitmentKey rows)
    (hfound : Table.find key (tenantID, id) rows = some row) (hsame : same row = true)
    (he : envelopeKey row = (tenantID, envelopeID))
    (hc : commitmentKey row = (tenantID, commitment)) :
    ¬Taken key envelopeKey commitmentKey same tenantID id envelopeID commitment rows := by
  obtain ⟨hrow, hk⟩ := Table.find_eq_some hfound
  rintro ⟨other, hother, hshared, hdifferent⟩
  refine hdifferent ?_
  have heq : other = row := by
    rcases hshared with h | h | h
    · exact hkey.eq_of_key hother hrow (h.trans hk.symm)
    · exact henvelope.eq_of_key hother hrow (h.trans he.symm)
    · exact hcommitment.eq_of_key hother hrow (h.trans hc.symm)
  exact heq ▸ ⟨hk, hsame⟩

theorem taken_of_different (hfound : Table.find key (tenantID, id) rows = some row)
    (hsame : same row = false) :
    Taken key envelopeKey commitmentKey same tenantID id envelopeID commitment rows := by
  obtain ⟨hrow, hk⟩ := Table.find_eq_some hfound
  refine ⟨row, hrow, .inl hk, ?_⟩
  rw [hsame]
  exact fun h => Bool.noConfusion h.2

theorem taken_iff_carries (hfree : Table.find key (tenantID, id) rows = none) :
    Taken key envelopeKey commitmentKey same tenantID id envelopeID commitment rows ↔
      carries envelopeKey commitmentKey tenantID envelopeID commitment rows = true := by
  have hother := Table.find_eq_none.mp hfree
  unfold carries
  simp only [List.any_eq_true, Bool.or_eq_true, beq_iff_eq]
  constructor
  · rintro ⟨row, hrow, h | h, -⟩
    · exact absurd h (hother row hrow)
    · exact ⟨row, hrow, h⟩
  · rintro ⟨row, hrow, h⟩
    exact ⟨row, hrow, .inr h, fun hown => hother row hrow hown.1⟩

end

/-! ### CommitCase -/

def CommitCaseRequest.TakenByCase (r : CommitCaseRequest) (db : Database) : Prop :=
  Taken CaseRow.key CaseRow.envelopeKey CaseRow.commitmentKey r.matches r.tenantID r.caseID
    r.envelopeID r.commitment db.cases

theorem not_takenByCase {r : CommitCaseRequest} {db : Database} (hdb : Constrained db)
    {row : CaseRow} (hfound : Table.find CaseRow.key (r.tenantID, r.caseID) db.cases = some row)
    (hmatch : r.matches row = true) : ¬r.TakenByCase db := by
  have htenant : row.tenantID = r.tenantID :=
    congrArg Prod.fst (Table.find_eq_some hfound).2
  have hfields := hmatch
  simp only [CommitCaseRequest.matches, Bool.and_eq_true, beq_iff_eq] at hfields
  have henvelope : row.envelopeID = r.envelopeID := by tauto
  have hcommitment : row.commitment = r.commitment := by tauto
  exact not_taken_of_same hdb.case hdb.caseEnvelope hdb.caseCommitment hfound hmatch
    (Prod.ext htenant henvelope) (Prod.ext htenant hcommitment)

theorem commitCase_quiet {r : CommitCaseRequest} {w : World} (hquiet : w.Quiet)
    (hdb : Constrained w.db) {head : HeadRow} (hlive : LiveHead w.db r.tenantID head)
    (hbinds : r.bindsHead head) :
    (r.TakenByCase w.db →
      Prog.run World.exec (store.commitCase r) w = .error .conflictingCase) ∧
    (¬r.TakenByCase w.db → ∀ e, Prog.run World.exec (store.commitCase r) w = .error e →
      e.Generic) := by
  have hread : (Sql.selectCase r.tenantID r.caseID).exec w.revision w.db =
      .ok (Table.find CaseRow.key (r.tenantID, r.caseID) w.db.cases, w.db) := rfl
  obtain ⟨w₁, hquiet₁, hdb₁, hselect⟩ := run_read_quiet hquiet hread (.sql .resolveCase)
  unfold Store.commitCase
  cases hfound : Table.find CaseRow.key (r.tenantID, r.caseID) w.db.cases with
  | some row =>
    rw [hfound] at hselect
    cases hmatch : r.matches row with
    | true =>
      have hexisting : Prog.run World.exec (existingCase r) w =
          .ok (some ⟨[], row.commitRevision, row.envelopeID, row.commitment⟩, w₁) := by
        unfold existingCase
        rw [run_bind_ok hselect]
        exact run_bind_ok (run_require_pass hmatch _ w₁)
      rw [run_bind_ok hexisting]
      refine ⟨fun htaken => absurd htaken (not_takenByCase hdb hfound hmatch), ?_⟩
      intro _ e herror
      cases herror
    | false =>
      have hexisting : Prog.run World.exec (existingCase r) w = .error .conflictingCase := by
        unfold existingCase
        rw [run_bind_ok hselect]
        exact run_require_stop hmatch _ _ w₁
      rw [Prog.run_bind, hexisting]
      exact ⟨fun _ => rfl, fun hfree => absurd (taken_of_different hfound hmatch) hfree⟩
  | none =>
    rw [hfound] at hselect
    have hexisting : Prog.run World.exec (existingCase r) w = .ok (none, w₁) := run_bind_ok hselect
    obtain ⟨w₂, hquiet₂, hdb₂, hhead⟩ := run_liveHead_quiet hquiet₁ (hdb₁ ▸ hlive)
    have hbound : (head.latestRevision == r.registryRevision &&
        head.latestCommitment == r.registryHash && head.routingEpoch == r.routingEpoch) = true := by
      obtain ⟨hrevision, hcommitment, hepoch⟩ := hbinds
      simp [hrevision, hcommitment, hepoch]
    have hsame : w₂.db = w.db := hdb₂.trans hdb₁
    have hcarries : (Sql.caseExists r.tenantID r.envelopeID r.commitment).exec w₂.revision w₂.db =
        .ok (carries CaseRow.envelopeKey CaseRow.commitmentKey r.tenantID r.envelopeID
          r.commitment w.db.cases, w₂.db) := by
      rw [← hsame]
      rfl
    obtain ⟨w₃, -, -, hcollision⟩ := run_read_quiet hquiet₂ hcarries (.sql .collision)
    rw [CommitCaseRequest.TakenByCase, taken_iff_carries hfound, run_bind_ok hexisting]
    simp only
    rw [run_bind_ok hhead, run_bind_ok (run_require_pass hbound _ w₂), run_bind_ok hcollision]
    cases carries CaseRow.envelopeKey CaseRow.commitmentKey r.tenantID r.envelopeID r.commitment
        w.db.cases with
    | true => exact ⟨fun _ => rfl, fun h => absurd rfl h⟩
    | false =>
      refine ⟨fun h => Bool.noConfusion h, ?_⟩
      intro _ e herror
      exact (fails_writeCase store r).bind (fun _ => fails_pure_body _) w₃ e herror

/-! ### CommitAdvice -/

section
variable {r : CommitAdviceRequest} {case : CaseRow} (store : Store) {w : World}

def CommitAdviceRequest.TakenByAdvice (r : CommitAdviceRequest) (db : Database) : Prop :=
  Taken AdviceRow.key AdviceRow.envelopeKey AdviceRow.commitmentKey r.matches r.tenantID r.caseID
    r.envelopeID r.commitment db.advice

theorem not_takenByAdvice {db : Database} (hdb : Constrained db)
    {row : AdviceRow} (hfound : Table.find AdviceRow.key (r.tenantID, r.caseID) db.advice = some row)
    (hmatch : r.matches row = true) : ¬r.TakenByAdvice db := by
  have htenant : row.tenantID = r.tenantID :=
    congrArg Prod.fst (Table.find_eq_some hfound).2
  have hfields := hmatch
  simp only [CommitAdviceRequest.matches, Bool.and_eq_true, beq_iff_eq] at hfields
  have henvelope : row.envelopeID = r.envelopeID := by tauto
  have hcommitment : row.commitment = r.commitment := by tauto
  exact not_taken_of_same hdb.advice hdb.adviceEnvelope hdb.adviceCommitment hfound hmatch
    (Prod.ext htenant henvelope) (Prod.ext htenant hcommitment)

theorem admitAdvice_quiet (hquiet : w.Quiet)
    (hcase : Table.find CaseRow.key (r.tenantID, r.caseID) w.db.cases = some case)
    (hbinds : r.binds case = true) :
    (carries AdviceRow.envelopeKey AdviceRow.commitmentKey r.tenantID r.envelopeID r.commitment
        w.db.advice = true →
      Prog.run World.exec (store.admitAdvice r) w = .error .finalAdviceAlreadySet) ∧
    (¬carries AdviceRow.envelopeKey AdviceRow.commitmentKey r.tenantID r.envelopeID r.commitment
        w.db.advice = true →
      ∀ e, Prog.run World.exec (store.admitAdvice r) w = .error e → e.Generic) := by
  have hread : (Sql.selectCase r.tenantID r.caseID).exec w.revision w.db =
      .ok (some case, w.db) := by
    show Except.ok (Table.find CaseRow.key (r.tenantID, r.caseID) w.db.cases, w.db) = _
    rw [hcase]
  obtain ⟨w₁, hquiet₁, hdb₁, hselect⟩ := run_read_quiet hquiet hread (.sql .lockCommittedCase)
  have hcarries : (Sql.adviceExists r.tenantID r.envelopeID r.commitment).exec w₁.revision w₁.db =
      .ok (carries AdviceRow.envelopeKey AdviceRow.commitmentKey r.tenantID r.envelopeID
        r.commitment w.db.advice, w₁.db) := by
    rw [← hdb₁]
    rfl
  obtain ⟨w₂, -, -, hcollision⟩ := run_read_quiet hquiet₁ hcarries (.sql .collision)
  unfold Store.admitAdvice
  rw [run_bind_ok hselect]
  simp only
  rw [run_bind_ok (run_require_pass hbinds _ w₁), run_bind_ok hcollision]
  cases carries AdviceRow.envelopeKey AdviceRow.commitmentKey r.tenantID r.envelopeID r.commitment
      w.db.advice with
  | true => exact ⟨fun _ => rfl, fun h => absurd rfl h⟩
  | false => exact ⟨fun h => Bool.noConfusion h, fun _ e => fails_writeAdvice store r case w₂ e⟩

theorem commitAdvice_quiet
    (hquiet : w.Quiet) (hdb : Constrained w.db) {head : HeadRow}
    (hlive : LiveHead w.db r.tenantID head)
    (hcase : Table.find CaseRow.key (r.tenantID, r.caseID) w.db.cases = some case)
    (hbinds : r.binds case = true) :
    (r.TakenByAdvice w.db →
      Prog.run World.exec (store.commitAdvice r) w = .error .finalAdviceAlreadySet) ∧
    (¬r.TakenByAdvice w.db → ∀ e, Prog.run World.exec (store.commitAdvice r) w = .error e →
      e.Generic) := by
  have hread : (Sql.selectAdvice r.tenantID r.caseID).exec w.revision w.db =
      .ok (Table.find AdviceRow.key (r.tenantID, r.caseID) w.db.advice, w.db) := rfl
  obtain ⟨w₁, hquiet₁, hdb₁, hselect⟩ := run_read_quiet hquiet hread (.sql .resolveFinalAdvice)
  obtain ⟨w₂, hquiet₂, hdb₂, hhead⟩ := run_liveHead_quiet hquiet₁ (hdb₁ ▸ hlive)
  unfold Store.commitAdvice
  cases hfound : Table.find AdviceRow.key (r.tenantID, r.caseID) w.db.advice with
  | some row =>
    rw [hfound] at hselect
    cases hmatch : r.matches row with
    | true =>
      have hexisting : Prog.run World.exec (existingAdvice r) w =
          .ok (.exact ⟨[], row.commitRevision, row.envelopeID, row.commitment⟩, w₁) := by
        unfold existingAdvice
        rw [run_bind_ok hselect]
        simp only
        rw [if_pos hmatch]
        rfl
      rw [run_bind_ok hexisting]
      refine ⟨fun htaken => absurd htaken (not_takenByAdvice hdb hfound hmatch), ?_⟩
      intro _ e herror
      cases herror
    | false =>
      have hexisting : Prog.run World.exec (existingAdvice r) w = .ok (.different, w₁) := by
        unfold existingAdvice
        rw [run_bind_ok hselect]
        simp only
        rw [if_neg (Bool.eq_false_iff.mp hmatch)]
        rfl
      rw [run_bind_ok hexisting]
      simp only
      rw [run_bind_ok hhead]
      exact ⟨fun _ => rfl, fun hfree => absurd (taken_of_different hfound hmatch) hfree⟩
  | none =>
    rw [hfound] at hselect
    have hexisting : Prog.run World.exec (existingAdvice r) w = .ok (.absent, w₁) :=
      run_bind_ok hselect
    have hsame : w₂.db = w.db := hdb₂.trans hdb₁
    obtain ⟨hrefused, hgeneric⟩ := admitAdvice_quiet store hquiet₂ (hsame ▸ hcase) hbinds
    rw [hsame] at hrefused hgeneric
    rw [CommitAdviceRequest.TakenByAdvice, taken_iff_carries hfound, run_bind_ok hexisting]
    simp only
    rw [run_bind_ok hhead, Prog.run_bind]
    constructor
    · intro hcarries
      rw [hrefused hcarries]
    · intro hfree e herror
      cases hentry : Prog.run World.exec (store.admitAdvice r) w₂ with
      | error e' =>
        rw [hentry] at herror
        cases herror
        exact hgeneric hfree e hentry
      | ok x =>
        rw [hentry] at herror
        cases herror

end

/-! ### Whole calls -/

structure Alone (rounds : Fin transactionAttempts → Round) : Prop where
  others : ∀ i, (rounds i).others = []
  clean : ∀ i, (rounds i).env.Clean
  rollback : ∀ i, (rounds i).env.rollback = none

/-- `StoreError.Generic` for a whole call. -/
def CallError.Generic : CallError → Prop
  | .store e => e.Generic
  | .exhausted _ => True
  | _ => False

theorem quiet_of_clean {env : Attempt} (hclean : env.Clean) (db : Database) :
    World.Quiet ⟨db, env.faults, env.nextval + 1⟩ := hclean.faults

theorem attempt_again {label : EntityKind} {body : Body (Except StoreError CommitReceipt)}
    {env : Attempt} {db db' : Database} (h : attempt label body env db = (db', .again)) :
    db' = db := by
  unfold attempt at h
  split at h
  · cases h
  · split at h
    · split at h <;> cases h
      rfl
    · split at h
      · cases h
      · cases h
      · split at h <;> cases h
        rfl

-- an attempt that asks for another round leaves it the tables it found
theorem rounds_alone (c : Call) (P : Except CallError CommitReceipt → Prop)
    (hexhausted : P (.error (.exhausted c.label))) (db : Database) (rounds : List Round)
    (hothers : ∀ round ∈ rounds, round.others = [])
    (hattempt : ∀ round ∈ rounds, ∀ db' result,
      attempt c.label (store.body c) round.env db = (db', .finished result) → P result) :
    P (store.rounds c rounds db).2 := by
  induction rounds with
  | nil => exact hexhausted
  | cons round rest ih =>
    unfold Store.rounds
    rw [hothers round List.mem_cons_self, run_nil]
    cases ha : attempt c.label (store.body c) round.env db with
    | mk db' ending =>
      cases ending with
      | finished result => exact hattempt round List.mem_cons_self db' result ha
      | again =>
        rw [attempt_again ha]
        exact ih (fun r hr => hothers r (List.mem_cons_of_mem _ hr))
          fun r hr => hattempt r (List.mem_cons_of_mem _ hr)

section
variable {store : Store} {c : Call} {rounds : Fin transactionAttempts → Round} {db : Database}

theorem commit_refused (hvalid : c.validate = .ok ()) (halone : Alone rounds) {e : StoreError}
    (hfinal : e.retryable = false)
    (hbody : ∀ w : World, w.Quiet → w.db = db →
      Prog.run World.exec (store.body c) w = .error e) :
    (store.commit c rounds db).2 = .error (.store e) := by
  have hfirst : List.ofFn rounds = rounds firstRound :: List.ofFn fun i : Fin 2 => rounds i.succ :=
    List.ofFn_succ
  have hattempt : attempt c.label (store.body c) (rounds firstRound).env db =
      (db, .finished (.error (.store e))) := by
    unfold attempt
    simp only [(halone.clean firstRound).begins, halone.rollback firstRound, hfinal,
      hbody _ (quiet_of_clean (halone.clean firstRound) db) rfl]
    rfl
  rw [commit_valid store hvalid, hfirst]
  unfold Store.rounds
  rw [halone.others firstRound, run_nil, hattempt]

theorem commit_generic (hvalid : c.validate = .ok ()) (halone : Alone rounds)
    (hreceipt : ∀ w w' result, Prog.run World.exec (store.body c) w = .ok (result, w') →
      ∃ receipt, result = .ok receipt)
    (hbody : ∀ w : World, w.Quiet → w.db = db → ∀ e,
      Prog.run World.exec (store.body c) w = .error e → e.Generic)
    {e : CallError} (herror : (store.commit c rounds db).2 = .error e) : e.Generic := by
  rw [commit_valid store hvalid] at herror
  refine rounds_alone store c (fun result => ∀ e, result = .error e → e.Generic) ?_ db
    (List.ofFn rounds) ?_ ?_ e herror
  · intro e h
    cases h
    trivial
  · intro round hround
    obtain ⟨i, rfl⟩ := (List.mem_ofFn' _ _).mp hround
    exact halone.others i
  · intro round hround db' result hattempt e hresult
    obtain ⟨i, rfl⟩ := (List.mem_ofFn' _ _).mp hround
    have hclean := halone.clean i
    unfold attempt at hattempt
    simp only [hclean.begins, hclean.commit] at hattempt
    cases hrun : Prog.run World.exec (store.body c)
        ⟨db, (rounds i).env.faults, (rounds i).env.nextval + 1⟩ with
    | error e' =>
      rw [hrun] at hattempt
      simp only at hattempt
      split at hattempt <;> cases hattempt
      cases hresult
      exact hbody _ (quiet_of_clean hclean db) rfl e' hrun
    | ok x =>
      rw [hrun] at hattempt
      obtain ⟨receipt, hx⟩ := hreceipt _ x.2 x.1 hrun
      simp only [hx] at hattempt
      cases hattempt
      cases hresult

theorem commit_unwritten (hvalid : c.validate = .ok ()) (halone : Alone rounds)
    (hbody : ∀ w : World, w.db = db → ∀ x, Prog.run World.exec (store.body c) w ≠ .ok x) :
    ∃ e, (store.commit c rounds db).2 = .error e := by
  rw [commit_valid store hvalid]
  refine rounds_alone store c (fun result => ∃ e, result = .error e) ⟨_, rfl⟩ db
    (List.ofFn rounds) ?_ ?_
  · intro round hround
    obtain ⟨i, rfl⟩ := (List.mem_ofFn' _ _).mp hround
    exact halone.others i
  · intro round _ db' result hattempt
    have hrefuses : Refuses (store.body c) db := by
      intro faults revision
      cases hrun : Prog.run World.exec (store.body c) ⟨db, faults, revision⟩ with
      | error e => exact ⟨e, rfl⟩
      | ok x => exact absurd hrun (hbody _ rfl x)
    refine (attempt_refuses c.label round.env hrefuses).2 result ?_
    rw [hattempt]

end

theorem commitCase_receipt (r : CommitCaseRequest) (w w' : World)
    (result : Except StoreError CommitReceipt)
    (h : Prog.run World.exec (store.commitCase r) w = .ok (result, w')) :
    ∃ receipt, result = .ok receipt := by
  rcases commitCase_run h with ⟨_, -, -, -, hresult⟩ | ⟨-, -, -, hresult⟩
  · exact ⟨_, hresult⟩
  · exact ⟨_, hresult⟩

theorem commitAdvice_receipt (r : CommitAdviceRequest) (w w' : World)
    (result : Except StoreError CommitReceipt)
    (h : Prog.run World.exec (store.commitAdvice r) w = .ok (result, w')) :
    ∃ receipt, result = .ok receipt := by
  rcases commitAdvice_run h with
    ⟨_, -, -, -, hresult⟩ | ⟨-, -, _, -, -, -, hresult⟩
  · exact ⟨_, hresult⟩
  · exact ⟨_, hresult⟩

/-! ### Envelope identifiers of the other family -/

-- every committed fact has its delivery, and deliveries share one envelope constraint
theorem not_freshDelivery {store : Store} {es : List Event} {f : Fact}
    (hf : f.CommittedIn (store.run {} es)) {row : DeliveryRow}
    (hkey : f.envelopeKey = row.envelopeKey) : ¬FreshDelivery row (store.run {} es) := by
  obtain ⟨facts, hrep⟩ := reachable_represents store es
  obtain ⟨n, hn⟩ := hrep.delivered ((hrep.committed f).mp hf)
  intro hfresh
  refine Table.clash_eq_false.mp hfresh.envelope _ hn ?_
  rw [delivery_envelopeKey, hkey]

theorem commitCase_blocked (es : List Event) {r : CommitCaseRequest} {a : AdviceRow}
    (ha : a ∈ (store.run {} es).advice) (hkey : a.envelopeKey = (r.tenantID, r.envelopeID))
    (w : World) (hdb : w.db = store.run {} es) (x : Except StoreError CommitReceipt × World) :
    Prog.run World.exec (store.commitCase r) w ≠ .ok x := by
  intro hrun
  have hfact : (Fact.advice a).CommittedIn (store.run {} es) := ha
  rcases commitCase_run hrun with
    ⟨row, hfound, hmatch, -, -⟩ | ⟨-, -, hwritten, -⟩
  · obtain ⟨hrow, hown⟩ := Table.find_eq_some hfound
    rw [hdb] at hrow
    have htenant : row.tenantID = r.tenantID := congrArg Prod.fst hown
    simp only [CommitCaseRequest.matches, Bool.and_eq_true, beq_iff_eq] at hmatch
    have henvelope : row.envelopeID = r.envelopeID := by tauto
    have hcase : (Fact.case row).CommittedIn (store.run {} es) := hrow
    have heq := fact_of_envelope hcase hfact
      ((Prod.ext htenant henvelope : row.envelopeKey = (r.tenantID, r.envelopeID)).trans hkey.symm)
    cases heq
  · have hfresh := hwritten.freshDelivery
    rw [hdb] at hfresh
    refine not_freshDelivery hfact ?_ hfresh
    exact hkey

theorem commitAdvice_blocked (es : List Event) {r : CommitAdviceRequest} {c : CaseRow}
    (hc : c ∈ (store.run {} es).cases) (hkey : c.envelopeKey = (r.tenantID, r.envelopeID))
    (w : World) (hdb : w.db = store.run {} es) (x : Except StoreError CommitReceipt × World) :
    Prog.run World.exec (store.commitAdvice r) w ≠ .ok x := by
  intro hrun
  have hfact : (Fact.case c).CommittedIn (store.run {} es) := hc
  rcases commitAdvice_run hrun with
    ⟨row, hfound, hmatch, -, -⟩ | ⟨-, -, case, -, -, hwritten, -⟩
  · obtain ⟨hrow, hown⟩ := Table.find_eq_some hfound
    rw [hdb] at hrow
    have htenant : row.tenantID = r.tenantID := congrArg Prod.fst hown
    simp only [CommitAdviceRequest.matches, Bool.and_eq_true, beq_iff_eq] at hmatch
    have henvelope : row.envelopeID = r.envelopeID := by tauto
    have hadvice : (Fact.advice row).CommittedIn (store.run {} es) := hrow
    have heq := fact_of_envelope hadvice hfact
      ((Prod.ext htenant henvelope : row.envelopeKey = (r.tenantID, r.envelopeID)).trans hkey.symm)
    cases heq
  · have hfresh := hwritten.freshDelivery
    rw [hdb] at hfresh
    refine not_freshDelivery hfact ?_ hfresh
    exact hkey

end Snagline.Authority
