import Snagline.Edge.Consumer

/-!
# What the edge transactions change

One lemma per transaction on the delivery state, the case list of `applyTx`, and
the moves an event is made of. A property of the database that no move breaks
holds after every run.
-/

namespace Snagline.Edge
open Kit Ssp Delivery

/-! ### The state row of a generation -/

theorem deliveryState_key (id : Generation) (db : Database) : (deliveryState id db).key = id := by
  unfold deliveryState deliveryStateTx
  cases h : Table.find StateRow.key id db.states with
  | none => rfl
  | some => exact (Table.find_eq_some h).2

theorem deliveryState_require (id : Generation) (observed : ℤ) (reason : Bytes) (db : Database) :
    deliveryState id (requireReconciliationTx (deliveryState id db) observed reason db) =
      (deliveryState id db).require observed reason := by
  have hkey : ((deliveryState id db).require observed reason).key = id := deliveryState_key id db
  have hfind := Table.find_upsert StateRow.key ((deliveryState id db).require observed reason)
    (StateRow.require ((deliveryState id db).require observed reason).highWatermark reason)
    (fun _ => rfl) db.states
  rw [hkey] at hfind
  have hrow : deliveryState id (requireReconciliationTx (deliveryState id db) observed reason db) =
      ((Table.find StateRow.key id db.states).map
        (StateRow.require ((deliveryState id db).require observed reason).highWatermark reason)).getD
        ((deliveryState id db).require observed reason) := by
    unfold deliveryState deliveryStateTx requireReconciliationTx
    simp only [deliveryState, deliveryStateTx] at hfind
    rw [hfind]
    rfl
  rw [hrow]
  cases hr : Table.find StateRow.key id db.states with
  | none => rfl
  | some r =>
    have hstate : deliveryState id db = r := by simp [deliveryState, deliveryStateTx, hr]
    simp only [Option.map_some, Option.getD_some, hstate, StateRow.require]
    have hmax : max r.highWatermark (max r.highWatermark observed) = max r.highWatermark observed := by
      omega
    rw [hmax]

theorem advanceDeliveryStateTx_ok (id : Generation) (seq : ℤ) (hseq : 0 ≤ seq) (db db' : Database)
    (hstates : Option StateRow) (hp : deliveryStateTx id db = hstates)
    (h : advanceDeliveryStateTx id hstates.isSome seq db = .ok db') :
    deliveryState id db' = (deliveryState id db).advance seq ∧
      db'.deliveries = db.deliveries ∧ db'.projection = db.projection := by
  unfold advanceDeliveryStateTx at h
  cases hstates with
  | none =>
    simp only [Option.isSome_none, Bool.false_eq_true, if_false] at h
    split at h
    · cases h
    · rename_i hfresh
      have hdb := Except.ok.inj h
      subst hdb
      refine ⟨?_, rfl, rfl⟩
      have hold : deliveryState id db = StateRow.initial id := by simp [deliveryState, hp]
      have hmax : max 0 seq = seq := by omega
      unfold deliveryStateTx at hp
      unfold deliveryState deliveryStateTx
      rw [Table.find_append, hp]
      simp [StateRow.key, StateRow.initial, StateRow.advance, hmax]
  | some =>
    simp only [Option.isSome_some, if_true] at h
    have hdb := Except.ok.inj h
    subst hdb
    refine ⟨?_, rfl, rfl⟩
    unfold deliveryStateTx at hp
    unfold deliveryState deliveryStateTx
    rw [Table.find_update StateRow.key id id (StateRow.advance seq) (fun _ => rfl), if_pos rfl, hp]
    rfl

theorem advanceDeliveryStateTx_frame {id : Generation} {present : Bool} {seq : ℤ}
    {db db' : Database} (h : advanceDeliveryStateTx id present seq db = .ok db') :
    db'.projection = db.projection ∧ db'.front = db.front := by
  unfold advanceDeliveryStateTx at h
  split at h
  · cases h
    exact ⟨rfl, rfl⟩
  · dsimp only at h
    split at h <;> cases h
    exact ⟨rfl, rfl⟩

theorem completeReconciliation_ok (id : EdgeIdentity) (through high : ℤ) (db db' : Database)
    (h : completeReconciliation id through high db = .ok (db', ())) :
    (deliveryState id.key db').lastContiguousSeq = (deliveryState id.key db).lastContiguousSeq ∧
      (deliveryState id.key db').highWatermark = (deliveryState id.key db).highWatermark ∧
      ((deliveryState id.key db').mode = (deliveryState id.key db).mode ∨
        (deliveryState id.key db).lastContiguousSeq = (deliveryState id.key db).highWatermark) ∧
      db'.deliveries = db.deliveries ∧ db'.projection = db.projection := by
  unfold completeReconciliation at h
  obtain ⟨hbounds, h⟩ := ensure_bind_eq_ok.mp h
  obtain ⟨-, h⟩ := ensure_bind_eq_ok.mp h
  simp only [Bool.and_eq_true, beq_iff_eq] at hbounds
  have hdb := congrArg Prod.fst (Except.ok.inj h)
  subst hdb
  refine ⟨?_, ?_, ?_, rfl, rfl⟩
  all_goals
    simp only [deliveryState, deliveryStateTx]
    rw [Table.find_map StateRow.key id.key _ (by intro r; split <;> rfl) db.states]
    cases hr : Table.find StateRow.key id.key db.states with
    | none => simp
    | some =>
      simp only [Option.map_some, Option.getD_some]
      split
      · rename_i hit
        simp only [StateRow.completes, Bool.and_eq_true, beq_iff_eq] at hit
        first | rfl | exact .inr (by omega)
      · first | rfl | exact .inl rfl

/-! ### applyTx -/

inductive Applied (s : DB) (d : JournalDelivery) (verdict : Verdict) (reason : Bytes)
    (p : Option VerifiedProjection) (db : Database) : Database → ApplyOutcome → Prop where
  | duplicate (old : d.deliverySeq ≤ (deliveryState d.identity db).lastContiguousSeq) :
      Applied s d verdict reason p db db .duplicate
  | halted (why : Bytes) (outcome : ApplyOutcome)
      (stops : outcome = .reconciliationRequired ∨ outcome = .identityConflict) :
      Applied s d verdict reason p db
        (requireReconciliationTx (deliveryState d.identity db) d.deliverySeq why db) outcome
  | recorded (db' : Database) (outcome : ApplyOutcome)
      (next : d.deliverySeq = (deliveryState d.identity db).lastContiguousSeq + 1)
      (written : s.recordDelivery d verdict reason p (deliveryStateTx d.identity db).isSome db =
        .ok (db', outcome)) :
      Applied s d verdict reason p db db' outcome
  /-- The row is there but the state was not advanced through it. -/
  | torn (db' : Database) (row : DeliveryRow) (there : row ∈ db.deliveries)
      (own : row.identity = d.identity) (sequence : row.deliverySeq = d.deliverySeq)
      (next : d.deliverySeq = (deliveryState d.identity db).lastContiguousSeq + 1)
      (left : db' = db ∨ advanceDeliveryStateTx d.identity (deliveryStateTx d.identity db).isSome
        d.deliverySeq db = .ok db') :
      Applied s d verdict reason p db db' .duplicate

theorem applyTx_applied {s : DB} {d : JournalDelivery} {verdict : Verdict} {reason : Bytes}
    {p : Option VerifiedProjection} {allow : Bool} {db db' : Database} {outcome : ApplyOutcome}
    (h : s.applyTx d verdict reason p allow db = .ok (db', outcome)) :
    Applied s d verdict reason p db db' outcome := by
  unfold DB.applyTx at h
  simp only at h
  split at h
  · rename_i hold
    split at h
    · cases h
      exact .halted _ _ (.inl rfl)
    · split at h
      · cases h
        exact .duplicate hold
      · cases h
        exact .halted _ _ (.inr rfl)
  · split at h
    · cases h
      exact .halted _ _ (.inl rfl)
    · rename_i hgap
      have hnext : d.deliverySeq = (deliveryState d.identity db).lastContiguousSeq + 1 := by
        by_contra hne
        exact hgap (.inl hne)
      split at h
      · exact .recorded db' outcome hnext h
      · rename_i row hrow
        obtain ⟨hmem, hkey⟩ := Table.find_eq_some hrow
        have hown : row.identity = d.identity := congrArg Prod.fst hkey
        have hseq : row.deliverySeq = d.deliverySeq := congrArg Prod.snd hkey
        split at h
        · cases h
          exact .halted _ _ (.inr rfl)
        · split at h
          · obtain ⟨db₁, hadvance, h⟩ := bind_eq_ok.mp h
            cases h
            exact .torn _ row hmem hown hseq hnext (.inr hadvance)
          · cases h
            exact .torn _ row hmem hown hseq hnext (.inl rfl)

theorem applyVerified_applied {s : DB} {d : JournalDelivery} {verdict : Verdict} {reason : Bytes}
    {p : Option VerifiedProjection} {allow : Bool} {db db' : Database} {outcome : ApplyOutcome}
    (h : s.applyVerified d verdict reason p allow db = .ok (db', outcome)) :
    s.validateDelivery d verdict reason p = .ok () ∧ d.tenantID = s.tenant ∧
      Applied s d verdict reason p db db' outcome := by
  unfold DB.applyVerified at h
  obtain ⟨_, hvalid, h⟩ := bind_eq_ok.mp h
  obtain ⟨htenant, h⟩ := ensure_bind_eq_ok.mp h
  exact ⟨hvalid, beq_iff_eq.mp htenant, applyTx_applied h⟩

/-! ### Recording a delivery -/

section
variable {p : Option VerifiedProjection} {verdict : Verdict} {db db' : Database} {reason : Bytes}

theorem claimIdentity_frame (id commitment : Bytes) (seq : ℤ) (db : Database) :
    (claimIdentity id commitment seq db).1.states = db.states ∧
      (claimIdentity id commitment seq db).1.deliveries = db.deliveries := ⟨rfl, rfl⟩

theorem persistProjection_ok {p : VerifiedProjection} {db db' : Database}
    (h : persistProjection p db = .ok db') :
    db.projection.persist p = .ok db'.projection ∧ db'.states = db.states ∧
      db'.deliveries = db.deliveries := by
  unfold persistProjection at h
  obtain ⟨t, ht, h⟩ := bind_eq_ok.mp h
  obtain ⟨front, -, h⟩ := bind_eq_ok.mp h
  cases h
  exact ⟨ht, rfl, rfl⟩

theorem settleVerdict_frame {verdict : Verdict} {reason : Bytes} {p : Option VerifiedProjection}
    {seq : ℤ} {db db' : Database} {j : Judged}
    (h : settleVerdict verdict reason p seq db = .ok (db', j)) :
    db'.states = db.states ∧ db'.deliveries = db.deliveries := by
  unfold settleVerdict at h
  split at h
  · rename_i p
    have hclaim := claimIdentity_frame p.envelopeID p.commitment seq db
    split at h
    · rename_i heq
      cases h
      rw [heq] at hclaim
      exact hclaim
    · rename_i heq
      cases h
      rw [heq] at hclaim
      exact hclaim
    · rename_i heq
      rw [heq] at hclaim
      obtain ⟨db₁, hpersist, h⟩ := bind_eq_ok.mp h
      cases h
      have hframe := (persistProjection_ok hpersist).2
      exact ⟨hframe.1.trans hclaim.1, hframe.2.trans hclaim.2⟩
  · cases h
    exact ⟨rfl, rfl⟩

theorem recordDelivery_eq_ok {s : DB} {d : JournalDelivery} {verdict : Verdict} {reason : Bytes}
    {p : Option VerifiedProjection} {present : Bool} {db db' : Database} {outcome : ApplyOutcome}
    (h : s.recordDelivery d verdict reason p present db = .ok (db', outcome)) :
    ∃ db₁ j, settleVerdict verdict reason p d.deliverySeq db = .ok (db₁, j) ∧ j.outcome = outcome ∧
      advanceDeliveryStateTx d.identity present d.deliverySeq
        { db₁ with deliveries := db₁.deliveries ++ [s.journalRow d p j] } = .ok db' := by
  unfold DB.recordDelivery at h
  obtain ⟨⟨db₁, j⟩, hsettle, h⟩ := bind_eq_ok.mp h
  obtain ⟨db₂, hinsert, h⟩ := bind_eq_ok.mp h
  obtain ⟨db₃, hadvance, h⟩ := bind_eq_ok.mp h
  cases h
  unfold insertDelivery at hinsert
  split at hinsert
  · cases hinsert
  · cases hinsert
    exact ⟨db₁, j, hsettle, rfl, hadvance⟩

theorem recordDelivery_ok (s : DB) (d : JournalDelivery) (verdict : Verdict) (reason : Bytes)
    (p : Option VerifiedProjection) (hseq : 0 ≤ d.deliverySeq) (db db' : Database)
    (outcome : ApplyOutcome)
    (h : s.recordDelivery d verdict reason p (deliveryStateTx d.identity db).isSome db =
      .ok (db', outcome)) :
    ∃ db₁ j, settleVerdict verdict reason p d.deliverySeq db = .ok (db₁, j) ∧
      db'.projection = db₁.projection ∧
      db'.deliveries = db.deliveries ++ [s.journalRow d p j] ∧
      deliveryState d.identity db' = (deliveryState d.identity db).advance d.deliverySeq := by
  obtain ⟨db₁, j, hsettle, -, hadvance⟩ := recordDelivery_eq_ok h
  obtain ⟨hstates, hrows⟩ := settleVerdict_frame hsettle
  have hsame : deliveryStateTx d.identity db = deliveryStateTx d.identity
      { db₁ with deliveries := db₁.deliveries ++ [s.journalRow d p j] } := by
    unfold deliveryStateTx
    rw [hstates]
  obtain ⟨hstate, hdeliveries, hprojection⟩ :=
    advanceDeliveryStateTx_ok d.identity d.deliverySeq hseq _ db' _ rfl (hsame ▸ hadvance)
  refine ⟨db₁, j, hsettle, hprojection, ?_, ?_⟩
  · rw [hdeliveries, ← hrows]
  · rw [hstate]
    unfold deliveryState
    rw [← hsame]

theorem settleVerdict_quiet
    {seq : ℤ} {j : Judged}
    (h : settleVerdict verdict reason p seq db = .ok (db', j)) :
    j.outcome ≠ .reconciliationRequired ∧ j.outcome ≠ .identityConflict := by
  unfold settleVerdict at h
  split at h
  · split at h
    · cases h
      simp
    · cases h
      simp
    · obtain ⟨db₁, -, h⟩ := bind_eq_ok.mp h
      cases h
      simp
  · cases h
    cases verdict with
    | accepted | rejected | quarantined => simp [Verdict.outcome]

theorem recordDelivery_quiet {s : DB} {d : JournalDelivery} {present : Bool}
    {outcome : ApplyOutcome}
    (h : s.recordDelivery d verdict reason p present db = .ok (db', outcome)) :
    outcome ≠ .reconciliationRequired ∧ outcome ≠ .identityConflict := by
  obtain ⟨_, j, hsettle, rfl, -⟩ := recordDelivery_eq_ok h
  exact settleVerdict_quiet hsettle

end

/-! ### Moves -/

structure JournalConsumer.Own (c : JournalConsumer) (d : JournalDelivery) : Prop where
  identity : d.identity = c.identity.key
  subject : d.subject = edgeDeliverySubject c.store.sha256 c.identity
  positive : 0 < d.deliverySeq
  bytes : d.raw ≠ []

/-- The committed transactions of a consumer whose verifier only ever answers as
`T` allows and whose fronts work as `W` allows. -/
inductive Move (c : JournalConsumer) (T : Turn → Prop) (W : (List FrontRow → List FrontRow) → Prop)
    (db : Database) : Database → Prop where
  | apply (turn : Turn) (admitted : T turn) (d : JournalDelivery) (own : c.Own d)
      (verdict : Verdict) (reason : Bytes) (p : Option VerifiedProjection)
      (judged : c.verdict d.subject (turn.verify d) = some (verdict, reason, p)) (allow : Bool)
      (db' : Database) (outcome : ApplyOutcome)
      (applied : c.store.applyVerified d verdict reason p allow db = .ok (db', outcome)) :
      Move c T W db db'
  /-- Nobody claims to have observed more than the state already knows. -/
  | require (observed : ℤ) (reason : Bytes)
      (modest : observed ≤ max 0 (deliveryState c.identity.key db).highWatermark) :
      Move c T W db
        (requireReconciliationTx (deliveryState c.identity.key db) observed reason db)
  | complete (through high : ℤ) (db' : Database)
      (completed : completeReconciliation c.identity through high db = .ok (db', ())) :
      Move c T W db db'
  | fronts (work : List FrontRow → List FrontRow) (allowed : W work) :
      Move c T W db { db with front := work db.front }

theorem settle_db {α : Type} (fate : Fate) (work : Database → Except EdgeError (Database × α))
    (db : Database) :
    (fate.settle work db).1 = db ∨ ∃ a, work db = .ok ((fate.settle work db).1, a) := by
  unfold Fate.settle
  cases hwork : work db with
  | error => cases fate <;> exact .inl rfl
  | ok result =>
    cases fate with
    | failed => exact .inl rfl
    | done | lost => exact .inr ⟨result.2, rfl⟩

theorem settle_ok {α : Type} (fate : Fate) (work : Database → Except EdgeError (Database × α))
    (db db' : Database) (a : α) (h : fate.settle work db = (db', .ok a)) :
    work db = .ok (db', a) := by
  unfold Fate.settle at h
  split at h
  · cases h
  · cases h
  · rename_i hwork
    cases h
    exact hwork
  · cases h

theorem requireReconciliation_ok {id : EdgeIdentity} {observed : ℤ} {reason : Bytes}
    {db db' : Database} {u : Unit} (h : requireReconciliation id observed reason db = .ok (db', u)) :
    db' = requireReconciliationTx (deliveryState id.key db) observed reason db := by
  unfold requireReconciliation at h
  obtain ⟨-, h⟩ := ensure_bind_eq_ok.mp h
  cases h
  rfl

theorem delivery_own (c : JournalConsumer) (m : CarrierMessage) (d : JournalDelivery)
    (h : c.delivery m = .ok d) (hid : d.identity = c.identity.key) (hseq : 0 < d.deliverySeq) :
    c.Own d := by
  unfold JournalConsumer.delivery at h
  obtain ⟨⟨stream, sequence⟩, -, h⟩ := orFail_bind_eq_ok.mp h
  obtain ⟨hmeta, h⟩ := ensure_bind_eq_ok.mp h
  obtain ⟨-, h⟩ := ensure_bind_eq_ok.mp h
  obtain ⟨_, -, h⟩ := bind_eq_ok.mp h
  obtain ⟨seq, -, h⟩ := bind_eq_ok.mp h
  obtain ⟨generation, -, h⟩ := bind_eq_ok.mp h
  simp only [Bool.and_eq_true, beq_iff_eq] at hmeta
  obtain ⟨⟨⟨-, hsubject⟩, hdata⟩, -⟩ := hmeta
  cases h
  exact ⟨hid, hsubject, hseq, by simpa using hdata⟩

theorem convert_own (c : JournalConsumer) (expected : ℤ) (hpos : 0 < expected)
    (es : List Authority.EdgeDelivery) (ds : List JournalDelivery)
    (h : c.convert expected es = .ok ds) : ∀ d ∈ ds, c.Own d := by
  induction es generalizing expected ds with
  | nil =>
    cases h
    simp
  | cons e es ih =>
    unfold JournalConsumer.convert at h
    obtain ⟨hentry, h⟩ := ensure_bind_eq_ok.mp h
    obtain ⟨rest, hrest, h⟩ := bind_eq_ok.mp h
    cases h
    simp only [acceptableEntry, Bool.and_eq_true, beq_iff_eq] at hentry
    obtain ⟨⟨⟨⟨⟨⟨⟨hseq, -⟩, -⟩, -⟩, -⟩, -⟩, hraw⟩, -⟩ := hentry
    intro d hd
    rcases List.mem_cons.mp hd with rfl | hd
    · have hpositive : 0 < e.sequence := by omega
      exact ⟨rfl, rfl, hpositive, by simpa [JournalConsumer.reconciled] using hraw⟩
    · exact ih (expected + 1) (by omega) rest hrest d hd

theorem batch_own {c : JournalConsumer} {source : DeliverySource} {state : StateRow}
    {batch : ReconcileBatch} (h : c.batch source state = .ok batch) :
    ∀ d ∈ batch.deliveries, c.Own d := by
  unfold JournalConsumer.batch JournalConsumer.fetchAfter at h
  obtain ⟨fetched, hfetch, h⟩ := bind_eq_ok.mp h
  obtain ⟨-, h⟩ := ensure_bind_eq_ok.mp h
  obtain ⟨-, h⟩ := ensure_bind_eq_ok.mp h
  obtain ⟨-, h⟩ := ensure_bind_eq_ok.mp h
  obtain ⟨hcursor, hfetch⟩ := ensure_bind_eq_ok.mp hfetch
  obtain ⟨page, -, hfetch⟩ := orFail_bind_eq_ok.mp hfetch
  obtain ⟨-, hfetch⟩ := ensure_bind_eq_ok.mp hfetch
  obtain ⟨ds, hconvert, hfetch⟩ := bind_eq_ok.mp hfetch
  cases h
  cases hfetch
  have hnonneg : 0 ≤ state.lastContiguousSeq := of_decide_eq_true hcursor
  exact convert_own c (state.lastContiguousSeq + 1) (by omega) page.deliveries ds hconvert

def Event.turns : Event → List Turn
  | .handleNext _ turn _ _ => [turn]
  | .reconcile pass => pass.turns
  | .reconcileAuthoritative _ passes => passes.flatMap Pass.turns
  | .restart => []
  | .fronts _ => []

def Event.frontWork : Event → List (List FrontRow → List FrontRow)
  | .fronts work => [work]
  | _ => []

section Keeps

variable {c : JournalConsumer} {T : Turn → Prop} {W : (List FrontRow → List FrontRow) → Prop}
  {P : Database → Prop} (hmove : ∀ db db', Move c T W db db' → P db → P db')

include hmove

theorem apply_keeps (turn : Turn) (hturn : T turn) (d : JournalDelivery) (hown : c.Own d)
    (reconciling : Bool) (db : Database) (h : P db) : P (c.apply turn d reconciling db).1 := by
  unfold JournalConsumer.apply
  cases hv : c.verdict d.subject (turn.verify d) with
  | none => exact h
  | some args =>
    obtain ⟨verdict, reason, p⟩ := args
    rcases settle_db turn.fate (c.store.applyVerified d verdict reason p reconciling) db with
      hsame | ⟨outcome, hdone⟩
    · exact hsame.symm ▸ h
    · exact hmove db _ (.apply turn hturn d hown verdict reason p hv reconciling _ outcome hdone) h

theorem require_keeps (fate : Fate) (observed : ℤ) (reason : Bytes) (db : Database)
    (hmodest : observed ≤ max 0 (deliveryState c.identity.key db).highWatermark) (h : P db) :
    P (fate.settle (requireReconciliation c.identity observed reason) db).1 := by
  rcases settle_db fate (requireReconciliation c.identity observed reason) db with
    hsame | ⟨u, hdone⟩
  · exact hsame.symm ▸ h
  · have hdb := requireReconciliation_ok hdone
    rw [hdb]
    exact hmove db _ (.require observed reason hmodest) h

theorem applyBatch_keeps (turns : List Turn) (hturns : ∀ t ∈ turns, T t) (ds : List JournalDelivery)
    (hown : ∀ d ∈ ds, c.Own d) (db : Database) (h : P db) : P (c.applyBatch turns ds db).1 := by
  induction ds generalizing turns db with
  | nil => simpa [JournalConsumer.applyBatch] using h
  | cons d ds ih =>
    cases turns with
    | nil => exact h
    | cons turn turns =>
      have happly := apply_keeps hmove turn (hturns turn List.mem_cons_self) d
        (hown d List.mem_cons_self) true db h
      unfold JournalConsumer.applyBatch
      cases hr : c.apply turn d true db with
      | mk db₁ result =>
        rw [hr] at happly
        cases result with
        | error e => exact happly
        | ok outcome =>
          dsimp only
          split
          · exact happly
          · exact ih turns (fun t ht => hturns t (List.mem_cons_of_mem _ ht))
              (fun x hx => hown x (List.mem_cons_of_mem _ hx)) db₁ happly

theorem finish_keeps (pass : Pass) (batch : ReconcileBatch) (node : Node) (h : P node.db) :
    P (c.finish pass batch node).1.db := by
  unfold JournalConsumer.finish
  have hcomplete : P (pass.fate.settle
      (completeReconciliation c.identity batch.completeThrough batch.highWatermark) node.db).1 := by
    rcases settle_db pass.fate
        (completeReconciliation c.identity batch.completeThrough batch.highWatermark) node.db with
      hsame | ⟨u, hdone⟩
    · exact hsame.symm ▸ h
    · exact hmove _ _ (.complete _ _ _ hdone) h
  dsimp only
  split
  · exact h
  · split
    · exact h
    · split
      · exact h
      · split <;> rename_i heq <;> rw [heq] at hcomplete <;> exact hcomplete

theorem reconcile_keeps (pass : Pass) (hturns : ∀ t ∈ pass.turns, T t) (node : Node)
    (h : P node.db) : P (c.reconcile pass node).1.db := by
  unfold JournalConsumer.reconcile
  split
  · exact h
  · split
    · exact h
    · split
      · exact h
      · rename_i batch hbatch
        have hown := batch_own hbatch
        have happlied := applyBatch_keeps hmove pass.turns hturns batch.deliveries hown node.db h
        split <;> rename_i heq <;> rw [heq] at happlied
        · exact happlied
        · exact finish_keeps hmove pass batch _ happlied

theorem reconcileLoop_keeps (passes : List Pass) (hturns : ∀ pass ∈ passes, ∀ t ∈ pass.turns, T t)
    (node : Node) (h : P node.db) : P (c.reconcileLoop passes node).1 := by
  induction passes generalizing node with
  | nil => exact h
  | cons pass passes ih =>
    have hpass := reconcile_keeps hmove pass (hturns pass List.mem_cons_self) node h
    unfold JournalConsumer.reconcileLoop
    split
    · exact h
    · split <;> rename_i heq <;> rw [heq] at hpass
      · exact hpass
      · split
        · exact hpass
        · split
          · exact hpass
          · exact ih (fun q hq => hturns q (List.mem_cons_of_mem _ hq)) _ hpass

theorem reconcileAuthoritative_keeps (fate : Fate) (passes : List Pass)
    (hturns : ∀ pass ∈ passes, ∀ t ∈ pass.turns, T t) (node : Node) (h : P node.db) :
    P (c.reconcileAuthoritative fate passes node).1.db := by
  have hrequire := require_keeps hmove fate (deliveryState c.identity.key node.db).highWatermark
    (text "authoritative_reconciliation") node.db (le_max_right _ _) h
  unfold JournalConsumer.reconcileAuthoritative
  split <;> rename_i heq <;> rw [heq] at hrequire
  · exact hrequire
  · exact reconcileLoop_keeps hmove passes hturns (c.start _) hrequire

theorem handle_keeps (turn : Turn) (hturn : T turn) (m : CarrierMessage) (node : Node)
    (h : P node.db) : P (c.handle turn m node).1.db := by
  unfold JournalConsumer.handle
  split
  · exact h
  · split
    · exact h
    · rename_i d hd
      unfold JournalConsumer.handleDelivery
      split
      · exact h
      · rename_i hseq
        split
        · have hrequire := require_keeps hmove turn.fate 0 (text "delivery_identity_mismatch")
            node.db (le_max_left _ _) h
          split <;> rename_i heq <;> rw [heq] at hrequire <;> exact hrequire
        · rename_i hid
          have hown := delivery_own c m d hd (not_not.mp hid) (by omega)
          have happly := apply_keeps hmove turn hturn d hown false node.db h
          split <;> rename_i heq <;> rw [heq] at happly <;> exact happly

theorem handleNext_keeps (fetch : Fetch) (turn : Turn) (hturn : T turn) (nakFails : Bool)
    (ack : AckFate) (node : Node) (h : P node.db) :
    P (c.handleNext fetch turn nakFails ack node).node.db := by
  unfold JournalConsumer.handleNext
  split
  · exact h
  · split
    · exact h
    · exact h
    · rename_i m
      have hhandle := handle_keeps hmove turn hturn m node h
      split <;> rename_i heq <;> rw [heq] at hhandle
      · split
        · exact hhandle
        · split <;> exact hhandle
      · cases ack <;> exact hhandle

theorem step_keeps (w : World) (e : Event) (hturns : ∀ t ∈ e.turns, T t)
    (hfronts : ∀ f ∈ e.frontWork, W f) (h : P w.node.db) : P (c.step w e).node.db := by
  cases e with
  | handleNext fetch turn nakFails ack =>
    exact handleNext_keeps hmove fetch turn (hturns turn List.mem_cons_self) nakFails ack w.node h
  | reconcile pass => exact reconcile_keeps hmove pass hturns w.node h
  | reconcileAuthoritative fate passes =>
    refine reconcileAuthoritative_keeps hmove fate passes ?_ w.node h
    intro pass hpass t ht
    exact hturns t (List.mem_flatMap.mpr ⟨pass, hpass, ht⟩)
  | restart => exact h
  | fronts work => exact hmove _ _ (.fronts work (hfronts work List.mem_cons_self)) h

theorem run_keeps (es : List Event) (w : World) (hturns : ∀ e ∈ es, ∀ t ∈ e.turns, T t)
    (hfronts : ∀ e ∈ es, ∀ f ∈ e.frontWork, W f) (h : P w.node.db) :
    P (c.run w es).node.db := by
  induction es generalizing w with
  | nil => exact h
  | cons e es ih =>
    have hstep := step_keeps hmove w e (hturns e List.mem_cons_self) (hfronts e List.mem_cons_self) h
    exact ih (c.step w e) (fun e' he => hturns e' (List.mem_cons_of_mem _ he))
      (fun e' he => hfronts e' (List.mem_cons_of_mem _ he)) hstep

end Keeps

end Snagline.Edge
