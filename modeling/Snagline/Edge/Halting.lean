import Snagline.Edge.Recovery

/-!
# The halt flag and the persisted mode (consumer.go:84-270, store.go:465-492, 571-589)

A consumer keeps its halt in memory, the database keeps a mode. Handle and
Reconcile change the two together, with one exception: a quarantined delivery
halts the consumer and leaves the mode active. A restart then forgets the halt,
and until then no reconciliation can end it.
-/

namespace Snagline.Edge
open Kit Ssp Delivery

/-! ### What an application does to the mode of its generation -/

/-- A delivery is accepted whose envelope ID is taken under another commitment. -/
def Conflicts (p : VerifiedProjection) (db : Database) : Prop :=
  ∃ row ∈ db.projection.identities,
    row.envelopeID = p.envelopeID ∧ row.commitment ≠ p.commitment

structure Stated (verdict : Verdict) (p : Option VerifiedProjection) (id : Generation)
    (db db' : Database) (outcome : ApplyOutcome) : Prop where
  keyed : Table.Keyed StateRow.key db'.states
  mode : (deliveryState id db').mode = .reconciliationRequired ↔
    (deliveryState id db).mode = .reconciliationRequired ∨ outcome = .reconciliationRequired ∨
      outcome = .identityConflict
  quarantined : outcome = .quarantined →
    verdict = .quarantined ∨ verdict = .accepted ∧ ∃ q, p = some q ∧ Conflicts q db

section
variable {s : DB} {d : JournalDelivery} {verdict : Verdict} {reason : Bytes}
  {p : Option VerifiedProjection} {db db' : Database} {outcome : ApplyOutcome}

theorem settleVerdict_quarantined {j : Judged} {seq : ℤ}
    (h : settleVerdict verdict reason p seq db = .ok (db', j)) (hout : j.outcome = .quarantined) :
    verdict = .quarantined ∨ verdict = .accepted ∧ ∃ q, p = some q ∧ Conflicts q db := by
  cases verdict with
  | quarantined => exact .inl rfl
  | rejected =>
    cases h
    cases hout
  | accepted =>
    cases p with
    | none =>
      cases h
      cases hout
    | some q =>
      refine .inr ⟨rfl, q, rfl, ?_⟩
      unfold settleVerdict claimIdentity Projection.claimIdentity at h
      cases hfound : Table.find IdentityRow.envelopeID q.envelopeID db.projection.identities with
      | none =>
        simp only [hfound] at h
        obtain ⟨db₁, -, h⟩ := bind_eq_ok.mp h
        cases h
        cases hout
      | some row =>
        obtain ⟨hmem, hkey⟩ := Table.find_eq_some hfound
        refine ⟨row, hmem, hkey, fun hsame => ?_⟩
        simp only [hfound, if_pos hsame] at h
        cases h
        cases hout

theorem recordDelivery_quarantined {present : Bool}
    (h : s.recordDelivery d verdict reason p present db = .ok (db', .quarantined)) :
    verdict = .quarantined ∨ verdict = .accepted ∧ ∃ q, p = some q ∧ Conflicts q db := by
  obtain ⟨_, j, hsettle, hout, -⟩ := recordDelivery_eq_ok h
  exact settleVerdict_quarantined hsettle hout

theorem stated_required (hkeyed : Table.Keyed StateRow.key db.states) (why : Bytes)
    (hout : outcome = .reconciliationRequired ∨ outcome = .identityConflict) :
    Stated verdict p d.identity db
      (requireReconciliationTx (deliveryState d.identity db) d.deliverySeq why db) outcome where
  keyed := hkeyed.upsert _ fun _ => rfl
  mode := by
    rw [deliveryState_require]
    simp [StateRow.require, hout]
  quarantined := by rcases hout with rfl | rfl <;> exact fun h => by cases h

theorem applyVerified_stated {allow : Bool} (hseq : 0 ≤ d.deliverySeq)
    (hkeyed : Table.Keyed StateRow.key db.states)
    (h : s.applyVerified d verdict reason p allow db = .ok (db', outcome)) :
    Stated verdict p d.identity db db' outcome := by
  have hsame : Stated verdict p d.identity db db .duplicate :=
    ⟨hkeyed, by simp, fun h => by cases h⟩
  cases (applyVerified_applied h).2.2 with
  | duplicate => exact hsame
  | halted why _ stops => exact stated_required hkeyed why stops
  | recorded _ _ _ written =>
    obtain ⟨-, -, -, -, -, hstate⟩ :=
      recordDelivery_ok s d verdict reason p hseq db db' outcome written
    refine ⟨recordDelivery_states written hkeyed, ?_, ?_⟩
    · rw [hstate]
      simp [StateRow.advance, recordDelivery_quiet written]
    · rintro rfl
      exact recordDelivery_quarantined written
  | torn _ _ _ _ _ _ left =>
    rcases left with rfl | hadvance
    · exact hsame
    · have hstate := (advanceDeliveryStateTx_ok d.identity d.deliverySeq hseq db _ _ rfl hadvance).1
      refine ⟨(advance_keyed hkeyed hadvance).1, ?_, fun h => by cases h⟩
      rw [hstate]
      simp [StateRow.advance]

end

/-! ### One application -/

theorem settle_failed {α : Type} {fate : Fate}
    {work : Database → Except EdgeError (Database × α)} {db db' : Database} {e : EdgeError}
    (hfate : fate ≠ .lost) (h : fate.settle work db = (db', .error e)) : db' = db := by
  unfold Fate.settle at h
  split at h
  · cases h
    rfl
  · cases h
    rfl
  · cases h
  · exact absurd rfl hfate

variable {c : JournalConsumer}

theorem apply_failed {turn : Turn} {d : JournalDelivery} {allow : Bool} {db db' : Database}
    {e : ConsumerError} (hfate : turn.fate ≠ .lost)
    (h : c.apply turn d allow db = (db', .error e)) : db' = db := by
  unfold JournalConsumer.apply at h
  split at h
  · cases h
    rfl
  · rename_i verdict reason p hverdict
    cases hsettle : turn.fate.settle (c.store.applyVerified d verdict reason p allow) db with
    | mk db₁ result =>
      rw [hsettle] at h
      cases result with
      | ok outcome => cases h
      | error e' =>
        cases h
        exact settle_failed hfate hsettle

/-- The verdict on the delivery does not claim an envelope ID that the database has under
another commitment. -/
def JournalConsumer.Undisputed (c : JournalConsumer) (turn : Turn) (d : JournalDelivery)
    (db : Database) : Prop :=
  ∀ reason p, c.verdict d.subject (turn.verify d) = some (.accepted, reason, some p) →
    ¬ Conflicts p db

theorem verdict_ne_quarantined {subject : Bytes} {result : Except VerificationError VerifiedProjection}
    {reason : Bytes} {p : Option VerifiedProjection} :
    c.verdict subject result ≠ some (.quarantined, reason, p) := by
  unfold JournalConsumer.verdict
  grind

theorem apply_stated {turn : Turn} {d : JournalDelivery} {allow : Bool} {db db' : Database}
    {outcome : ApplyOutcome} (hseq : 0 ≤ d.deliverySeq) (hown : d.identity = c.identity.key)
    (hkeyed : Table.Keyed StateRow.key db.states)
    (h : c.apply turn d allow db = (db', .ok outcome)) :
    (∃ verdict p, Stated verdict p c.identity.key db db' outcome) ∧
      (c.Undisputed turn d db → outcome ≠ .quarantined) := by
  unfold JournalConsumer.apply at h
  split at h
  · cases h
  · rename_i verdict reason p hverdict
    cases hsettle : turn.fate.settle (c.store.applyVerified d verdict reason p allow) db with
    | mk db₁ result =>
      rw [hsettle] at h
      cases result with
      | error e => cases h
      | ok o =>
        cases h
        have hstated := applyVerified_stated hseq hkeyed (settle_ok _ _ _ _ _ hsettle)
        refine ⟨⟨verdict, p, hown ▸ hstated⟩, fun hfree hout => ?_⟩
        rcases hstated.quarantined hout with rfl | ⟨rfl, q, rfl, hconflict⟩
        · exact verdict_ne_quarantined hverdict
        · exact hfree reason q hverdict hconflict

/-! ### Databases of the edge -/

theorem keyed_move {T : Turn → Prop} {W : (List FrontRow → List FrontRow) → Prop}
    (db db' : Database) (hmove : Move c T W db db') (h : Table.Keyed StateRow.key db.states) :
    Table.Keyed StateRow.key db'.states := by
  cases hmove with
  | apply turn admitted d own verdict reason p judged allow _ outcome applied =>
    exact (applyVerified_stated own.positive.le h applied).keyed
  | require => exact h.upsert _ fun _ => rfl
  | complete through high _ completed => exact (completeReconciliation_keyed h completed).1
  | fronts => exact h

theorem run_keyed (c : JournalConsumer) (es : List Event) :
    Table.Keyed StateRow.key (c.run {} es).node.db.states :=
  run_keeps (T := fun _ => True) (W := fun _ => True) keyed_move es {}
    (fun _ _ _ _ => trivial) (fun _ _ _ _ => trivial) (Table.keyed_nil _)

/-! ### One call -/

def InStep (c : JournalConsumer) (node : Node) : Prop :=
  node.halted = true ↔ (deliveryState c.identity.key node.db).mode = .reconciliationRequired

theorem inStep_start (db : Database) : InStep c (c.start db) := by
  unfold InStep JournalConsumer.start
  simp

theorem InStep.restart {node : Node} (h : InStep c node) : c.start node.db = node := by
  have hflag : ((deliveryState c.identity.key node.db).mode == .reconciliationRequired) =
      node.halted := by
    rw [Bool.eq_iff_iff, beq_iff_eq]
    exact h.symm
  unfold JournalConsumer.start
  rw [hflag]

theorem handleDelivery_inStep {turn : Turn} {d : JournalDelivery} {node : Node}
    (hfate : turn.fate ≠ .lost) (hkeyed : Table.Keyed StateRow.key node.db.states)
    (h : InStep c node) (hrunning : node.halted = false) (hfree : c.Undisputed turn d node.db) :
    InStep c (c.handleDelivery turn d node).1 := by
  have hactive : (deliveryState c.identity.key node.db).mode ≠ .reconciliationRequired := by
    intro hmode
    rw [h.mpr hmode] at hrunning
    cases hrunning
  unfold JournalConsumer.handleDelivery
  split
  · exact h
  · rename_i hseq
    split
    · cases hsettle : turn.fate.settle (requireReconciliation c.identity 0
          (text "delivery_identity_mismatch")) node.db with
      | mk db result =>
        cases result with
        | error e =>
          have hsame := settle_failed hfate hsettle
          subst hsame
          exact h
        | ok u =>
          have hdb := requireReconciliation_ok (settle_ok _ _ _ _ _ hsettle)
          subst hdb
          simp [InStep, deliveryState_require, StateRow.require]
    · rename_i hown
      cases happly : c.apply turn d false node.db with
      | mk db result =>
        cases result with
        | error e =>
          have hsame := apply_failed hfate happly
          subst hsame
          exact h
        | ok outcome =>
          obtain ⟨⟨_, _, hstated⟩, hout⟩ :=
            apply_stated (by omega) (not_not.mp hown) hkeyed happly
          have hmode := hstated.mode
          have hout := hout hfree
          simp only [hactive, false_or] at hmode
          unfold InStep
          dsimp only
          rw [hrunning, Bool.false_or, hmode]
          -- the one outcome that halts and leaves the mode is excluded
          cases outcome with
          | quarantined => exact absurd rfl hout
          | accepted => simp [ApplyOutcome.halts]
          | rejected => simp [ApplyOutcome.halts]
          | duplicate | reconciliationRequired | identityConflict => simp [ApplyOutcome.halts]

theorem handle_inStep {turn : Turn} {m : CarrierMessage} {node : Node} (hfate : turn.fate ≠ .lost)
    (hkeyed : Table.Keyed StateRow.key node.db.states) (h : InStep c node)
    (hfree : ∀ d, c.delivery m = .ok d → c.Undisputed turn d node.db) :
    InStep c (c.handle turn m node).1 := by
  unfold JournalConsumer.handle
  split
  · exact h
  · rename_i hrunning
    split
    · exact h
    · rename_i d hd
      exact handleDelivery_inStep hfate hkeyed h (Bool.eq_false_iff.mpr hrunning) (hfree d hd)

/-! ### Reconcile -/

section
variable (ds : List JournalDelivery) {batch : ReconcileBatch} {turns : List Turn}
  {db db' : Database} {expected : ℤ} {pass : Pass} {node : Node}

theorem contiguous_cons {d : JournalDelivery} {ds : List JournalDelivery}
    (h : c.contiguous expected (d :: ds) = true) :
    d.identity = c.identity.key ∧ d.deliverySeq = expected ∧
      c.contiguous (expected + 1) ds = true := by
  unfold JournalConsumer.contiguous at h
  simp only [Bool.and_eq_true, beq_iff_eq] at h
  exact ⟨h.1.1, h.1.2, h.2⟩

theorem applyBatch_mode
    {db : Database} (hpositive : 0 ≤ expected) (hcontiguous : c.contiguous expected ds = true)
    (hfates : ∀ turn ∈ turns, turn.fate ≠ .lost) (hkeyed : Table.Keyed StateRow.key db.states)
    (hmode : (deliveryState c.identity.key db).mode = .reconciliationRequired) :
    Table.Keyed StateRow.key (c.applyBatch turns ds db).1.states ∧
      (deliveryState c.identity.key (c.applyBatch turns ds db).1).mode =
        .reconciliationRequired := by
  induction ds generalizing turns expected db with
  | nil => simpa [JournalConsumer.applyBatch] using ⟨hkeyed, hmode⟩
  | cons d ds ih =>
    cases turns with
    | nil => exact ⟨hkeyed, hmode⟩
    | cons turn turns =>
      obtain ⟨hown, hseq, hrest⟩ := contiguous_cons hcontiguous
      have hfate := hfates turn List.mem_cons_self
      unfold JournalConsumer.applyBatch
      cases happly : c.apply turn d true db with
      | mk db₁ result =>
        cases result with
        | error e =>
          have hsame := apply_failed hfate happly
          subst hsame
          exact ⟨hkeyed, hmode⟩
        | ok outcome =>
          obtain ⟨⟨_, _, hstated⟩, -⟩ := apply_stated (by omega) hown hkeyed happly
          have hmode₁ := hstated.mode.mpr (Or.inl hmode)
          dsimp only
          split
          · exact ⟨hstated.keyed, hmode₁⟩
          · exact ih (by omega) hrest (fun t ht => hfates t (List.mem_cons_of_mem _ ht))
              hstated.keyed hmode₁

theorem batch_contiguous {source : DeliverySource} {state : StateRow}
    (h : c.batch source state = .ok batch) : 0 ≤ state.lastContiguousSeq ∧
      c.contiguous (state.lastContiguousSeq + 1) batch.deliveries = true := by
  unfold JournalConsumer.batch at h
  obtain ⟨fetched, hfetch, h⟩ := bind_eq_ok.mp h
  obtain ⟨-, h⟩ := ensure_bind_eq_ok.mp h
  obtain ⟨-, h⟩ := ensure_bind_eq_ok.mp h
  obtain ⟨hcontiguous, h⟩ := ensure_bind_eq_ok.mp h
  cases h
  unfold JournalConsumer.fetchAfter at hfetch
  obtain ⟨hafter, -⟩ := ensure_bind_eq_ok.mp hfetch
  exact ⟨by simpa using hafter, hcontiguous⟩

theorem completeReconciliation_active {id : EdgeIdentity} {through high : ℤ}
    (hkeyed : Table.Keyed StateRow.key db.states)
    (h : completeReconciliation id through high db = .ok (db', ())) :
    (deliveryState id.key db').mode = .active := by
  unfold completeReconciliation at h
  obtain ⟨-, h⟩ := ensure_bind_eq_ok.mp h
  obtain ⟨hone, h⟩ := ensure_bind_eq_ok.mp h
  have hdb := congrArg Prod.fst (Except.ok.inj h)
  dsimp only at hdb
  obtain ⟨row, hrow⟩ : ∃ row, row ∈ db.states.filter fun r =>
      r.key == id.key && r.completes through high :=
    List.exists_mem_of_length_pos (by rw [beq_iff_eq.mp hone]; decide)
  obtain ⟨hmem, hhit⟩ := List.mem_filter.mp hrow
  have hkey : row.key = id.key := by
    simp only [Bool.and_eq_true, beq_iff_eq] at hhit
    exact hhit.1
  have hfound := hkeyed.find_mem hmem
  rw [hkey] at hfound
  rw [← hdb]
  unfold deliveryState deliveryStateTx
  rw [Table.find_map StateRow.key id.key _ (by intro r; split <;> rfl) db.states, hfound,
    Option.map_some, Option.getD_some, if_pos hhit]

theorem reconcile_inStep (hfate : pass.fate ≠ .lost)
    (hfates : ∀ turn ∈ pass.turns, turn.fate ≠ .lost)
    (hkeyed : Table.Keyed StateRow.key node.db.states) (h : InStep c node) :
    InStep c (c.reconcile pass node).1 := by
  unfold JournalConsumer.reconcile
  split
  · exact h
  · rename_i hhalted
    have hflag : node.halted = true := by simpa using hhalted
    split
    · exact h
    · split
      · exact h
      · rename_i batch hbatch
        obtain ⟨hnonneg, hcontiguous⟩ := batch_contiguous hbatch
        obtain ⟨hkeyed', hmode⟩ := applyBatch_mode batch.deliveries (by omega) hcontiguous hfates
          hkeyed (h.mp hflag)
        cases happly : c.applyBatch pass.turns batch.deliveries node.db with
        | mk db result =>
          rw [happly] at hkeyed' hmode
          have hkept : InStep c { node with db := db } := ⟨fun _ => hmode, fun _ => hflag⟩
          cases result with
          | error e => exact hkept
          | ok u =>
            dsimp only
            unfold JournalConsumer.finish
            dsimp only
            split
            · exact hkept
            · split
              · exact hkept
              · split
                · exact hkept
                · cases hsettle : pass.fate.settle (completeReconciliation c.identity
                      batch.completeThrough batch.highWatermark) db with
                  | mk db' result =>
                    cases result with
                    | error e =>
                      have hsame := settle_failed hfate hsettle
                      subst hsame
                      exact hkept
                    | ok u =>
                      have hactive := completeReconciliation_active hkeyed'
                        (settle_ok _ _ _ _ _ hsettle)
                      simp [InStep, hactive]

end

/-! ### Sequences of calls -/

inductive ConsumerCall where
  | handle (turn : Turn) (m : CarrierMessage)
  | reconcile (pass : Pass)

def JournalConsumer.perform (c : JournalConsumer) (node : Node) : ConsumerCall → Node
  | .handle turn m => (c.handle turn m node).1
  | .reconcile pass => (c.reconcile pass node).1

def JournalConsumer.performAll (c : JournalConsumer) (node : Node) (calls : List ConsumerCall) :
    Node :=
  calls.foldl c.perform node

def ConsumerCall.turns : ConsumerCall → List Turn
  | .handle turn _ => [turn]
  | .reconcile pass => pass.turns

def ConsumerCall.Honest : ConsumerCall → Prop
  | .handle turn _ => turn.fate ≠ .lost
  | .reconcile pass => pass.fate ≠ .lost ∧ ∀ turn ∈ pass.turns, turn.fate ≠ .lost

def JournalConsumer.Calm (c : JournalConsumer) (node : Node) : ConsumerCall → Prop
  | .handle turn m => ∀ d, c.delivery m = .ok d → c.Undisputed turn d node.db
  | .reconcile _ => True

theorem perform_keeps {P : Database → Prop} {T : Turn → Prop}
    {W : (List FrontRow → List FrontRow) → Prop}
    (hmove : ∀ db db', Move c T W db db' → P db → P db') (call : ConsumerCall)
    (hturns : ∀ t ∈ call.turns, T t) {node : Node} (h : P node.db) :
    P (c.perform node call).db := by
  cases call with
  | handle turn m => exact handle_keeps hmove turn (hturns turn List.mem_cons_self) m node h
  | reconcile pass => exact reconcile_keeps hmove pass hturns node h

theorem performAll_keeps {P : Database → Prop} {T : Turn → Prop}
    {W : (List FrontRow → List FrontRow) → Prop}
    (hmove : ∀ db db', Move c T W db db' → P db → P db') (calls : List ConsumerCall)
    (hturns : ∀ call ∈ calls, ∀ t ∈ call.turns, T t) {node : Node} (h : P node.db) :
    P (c.performAll node calls).db := by
  induction calls generalizing node with
  | nil => exact h
  | cons call calls ih =>
    exact ih (fun x hx => hturns x (List.mem_cons_of_mem _ hx))
      (perform_keeps hmove call (hturns call List.mem_cons_self) h)

theorem perform_inStep {call : ConsumerCall} {node : Node} (hhonest : call.Honest)
    (hkeyed : Table.Keyed StateRow.key node.db.states) (hcalm : c.Calm node call)
    (h : InStep c node) : InStep c (c.perform node call) := by
  cases call with
  | handle => exact handle_inStep hhonest hkeyed h hcalm
  | reconcile => exact reconcile_inStep hhonest.1 hhonest.2 hkeyed h

theorem performAll_inStep (calls : List ConsumerCall) {node : Node}
    (hhonest : ∀ call ∈ calls, call.Honest)
    (hcalm : ∀ past call later, calls = past ++ call :: later →
      c.Calm (c.performAll node past) call)
    (hkeyed : Table.Keyed StateRow.key node.db.states) (h : InStep c node) :
    InStep c (c.performAll node calls) := by
  induction calls generalizing node with
  | nil => exact h
  | cons call calls ih =>
    have hfirst := hcalm [] call calls rfl
    refine ih (fun x hx => hhonest x (List.mem_cons_of_mem _ hx)) ?_
      (perform_keeps (T := fun _ => True) (W := fun _ => True) keyed_move call
        (fun _ _ => trivial) hkeyed)
      (perform_inStep (hhonest call List.mem_cons_self) hkeyed hfirst h)
    intro past x later hcalls
    exact hcalm (call :: past) x later (by rw [hcalls]; rfl)

/-- As long as no delivery that Handle is given is accepted under an envelope ID the
database has with another commitment, the flag of a consumer is the mode of its database,
and a restart changes nothing. Where the verdicts on the authority's log can be recorded,
and the verifier never said anything else, a halted consumer is resumed by one fair pass
whose page reaches the end of the log. -/
theorem halt_is_persisted (c : JournalConsumer) (es : List Event) (calls : List ConsumerCall)
    (hhonest : ∀ call ∈ calls, call.Honest)
    (hcalm : ∀ past call later, calls = past ++ call :: later →
      c.Calm (c.performAll (c.start (c.run {} es).node.db) past) call) :
    let node := c.performAll (c.start (c.run {} es).node.db) calls
    let state := deliveryState c.identity.key node.db
    (node.halted = true ↔ state.mode = .reconciliationRequired) ∧
      c.start node.db = node ∧
      ∀ log judge, Recoverable c log judge →
        (∀ e ∈ es, ∀ t ∈ e.turns, Faithful c log judge t) →
        (∀ e ∈ es, ∀ f ∈ e.frontWork, Tidy f) →
        (∀ call ∈ calls, ∀ t ∈ call.turns, Faithful c log judge t) →
        node.halted = true → ∀ pass, Fair c log judge pass →
        (log.entries.length : ℤ) ≤ state.lastContiguousSeq + c.limit →
        ∃ after result, c.reconcile pass node = (after, .ok result) ∧ after.halted = false ∧
          result.resumed = true := by
  intro node state
  have hstep : InStep c node :=
    performAll_inStep calls hhonest hcalm (run_keyed c es) (inStep_start _)
  refine ⟨hstep, hstep.restart, ?_⟩
  intro log judge hrec hturns hfronts hcalls hhalted pass hfair hreach
  have hready : Ready c log judge node.db :=
    performAll_keeps (ready_move c log judge) calls hcalls (run_ready hturns hfronts)
  obtain ⟨after, result, hpass, -, hpassed⟩ :=
    hfair.reconcile hrec hready ⟨hhalted, hstep.mp hhalted⟩
  refine ⟨after, result, hpass, ?_⟩
  cases hpassed with
  | resumed resumed running => exact ⟨running, resumed⟩
  | progressed _ _ further short =>
    have hlast := hreach.trans further
    omega

namespace Sample

/-- Delivery `digit` of the carrier. -/
def numbered (digit byte : UInt8) : CarrierMessage :=
  ⟨some (streamName, 1), edgeDeliverySubject sha256 identity, [byte],
    [(headerOutboxID, [111]), (headerFactSequence, [49]), (headerDeliverySequence, [digit]),
      (headerEdgeGeneration, [49])]⟩

/-- The delivery is verified as an envelope [118] with this commitment. -/
def presented (digit : UInt8) (commitment : Bytes) : ConsumerCall :=
  .handle ⟨fun _ => .ok { projection with commitment := commitment }, .done⟩ (numbered digit 7)

def ahead : List ConsumerCall := [.handle answeredTurn (numbered 50 8)]

def nothingNew (last : ℤ) : Pass := ⟨false, fun _ _ _ => some ⟨[], last, last⟩, [], false, .done⟩
def otherDigest : Bytes := text "sha256:" ++ List.replicate 64 49

end Sample

/-- The second delivery of the log comes first and halts the edge, for a restart as well;
one pass then resumes it. -/
theorem halt_is_persisted_sample :
    let c := Sample.consumer
    let node := c.performAll (c.start {}) Sample.ahead
    node.halted = true ∧ (deliveryState c.identity.key node.db).mode = .reconciliationRequired ∧
      c.start node.db = node ∧ ∃ after result, c.reconcile Sample.fairPass node =
        (after, .ok result) ∧ after.halted = false ∧ result.resumed = true := by
  intro c node
  have hcall : ∀ call ∈ Sample.ahead, call = .handle Sample.answeredTurn (Sample.numbered 50 8) :=
    fun call => List.mem_singleton.mp
  have hhonest : ∀ call ∈ Sample.ahead, call.Honest := by
    intro call h
    rw [hcall call h]
    exact Fate.noConfusion
  have hcalm : ∀ past call later, Sample.ahead = past ++ call :: later →
      c.Calm (c.performAll (c.start (c.run {} []).node.db) past) call := by
    intro past call later hcalls
    cases past with
    | nil =>
      cases hcalls
      rintro d - reason p - ⟨row, hrow, -⟩
      cases hrow
    | cons =>
      have hlength := congrArg List.length hcalls
      simp [Sample.ahead] at hlength
  have hhalted : node.halted = true := by decide +kernel
  obtain ⟨hflag, hrestart, hresumes⟩ := halt_is_persisted c [] Sample.ahead hhonest hcalm
  refine ⟨hhalted, hflag.mp hhalted, hrestart, ?_⟩
  refine hresumes Sample.answeredLog Sample.answeredJudge Sample.answered_recoverable
    (fun _ he => by cases he) (fun _ he => by cases he) ?_ hhalted Sample.fairPass
    Sample.fairPass_fair (by decide +kernel)
  intro call h t ht
  rw [hcall call h] at ht
  rw [List.mem_singleton.mp ht]
  exact Sample.answeredTurn_answers.faithful

/-- Two deliveries carry one envelope identifier with different commitments. The
second one halts the consumer only in memory: a restart forgets the halt, and
Reconcile refuses a complete batch. -/
theorem quarantine_is_not_persisted :
    let c := Sample.consumer
    let node := c.performAll (c.start {})
      [Sample.presented 49 Sample.digest, Sample.presented 50 Sample.otherDigest]
    node.halted = true ∧ (deliveryState c.identity.key node.db).mode = .active ∧
      (c.start node.db).halted = false ∧
      (c.reconcile (Sample.nothingNew 2) node).2.map (fun _ => ()) =
        .error (.store .notContiguous) := by
  decide +kernel

end Snagline.Edge
