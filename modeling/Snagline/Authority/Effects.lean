import Snagline.Authority.Transaction

/-!
# What a successful statement says

For each statement, the tables before and after it, and the rules that take the
run of a body apart one statement at a time.
-/

namespace Snagline.Authority
open Kit Ssp

/-! ### Statements -/

theorem written_eq_ok {x : Except SqlState Database} {u : Unit} {db : Database} :
    written x = .ok (u, db) ↔ x = .ok db := by
  cases x with
  | error | ok => simp [written, Except.map]

structure FreshCase (row : CaseRow) (db : Database) : Prop where
  key : Table.clash CaseRow.key row db.cases = false
  envelope : Table.clash CaseRow.envelopeKey row db.cases = false
  commitment : Table.clash CaseRow.commitmentKey row db.cases = false

theorem insertCase_ok {row : CaseRow} {db db' : Database} (h : insertCase row db = .ok db') :
    FreshCase row db ∧ db' = { db with cases := db.cases ++ [row] } := by
  unfold insertCase at h
  simp only [ensure_bind_eq_ok, Bool.and_eq_true, Bool.not_eq_true'] at h
  obtain ⟨-, ⟨⟨hk, he⟩, hc⟩, -, hdb⟩ := h
  exact ⟨⟨hk, he, hc⟩, (Except.ok.inj hdb).symm⟩

structure FreshAdvice (row : AdviceRow) (db : Database) : Prop where
  key : Table.clash AdviceRow.key row db.advice = false
  envelope : Table.clash AdviceRow.envelopeKey row db.advice = false
  commitment : Table.clash AdviceRow.commitmentKey row db.advice = false

theorem insertAdvice_ok {row : AdviceRow} {db db' : Database} (h : insertAdvice row db = .ok db') :
    FreshAdvice row db ∧ db' = { db with advice := db.advice ++ [row] } := by
  unfold insertAdvice at h
  simp only [ensure_bind_eq_ok, Bool.and_eq_true, Bool.not_eq_true'] at h
  obtain ⟨-, ⟨⟨hk, he⟩, hc⟩, -, hdb⟩ := h
  exact ⟨⟨hk, he, hc⟩, (Except.ok.inj hdb).symm⟩

structure FreshRegistry (row : RegistryRow) (db : Database) : Prop where
  key : Table.clash RegistryRow.key row db.registries = false
  envelope : Table.clash RegistryRow.envelopeKey row db.registries = false
  commitment : Table.clash RegistryRow.commitmentKey row db.registries = false

theorem insertRegistry_ok {row : RegistryRow} {db db' : Database}
    (h : insertRegistry row db = .ok db') :
    FreshRegistry row db ∧ db' = { db with registries := db.registries ++ [row] } := by
  unfold insertRegistry at h
  simp only [ensure_bind_eq_ok, Bool.and_eq_true, Bool.not_eq_true'] at h
  obtain ⟨-, ⟨⟨hk, he⟩, hc⟩, -, hdb⟩ := h
  exact ⟨⟨hk, he, hc⟩, (Except.ok.inj hdb).symm⟩

structure FreshDelivery (row : DeliveryRow) (db : Database) : Prop where
  key : Table.clash DeliveryRow.key row db.deliveries = false
  envelope : Table.clash DeliveryRow.envelopeKey row db.deliveries = false

theorem insertDelivery_ok {row : DeliveryRow} {db db' : Database}
    (h : insertDelivery row db = .ok db') :
    FreshDelivery row db ∧ db' = { db with deliveries := db.deliveries ++ [row] } := by
  unfold insertDelivery at h
  simp only [ensure_bind_eq_ok, Bool.and_eq_true, Bool.not_eq_true'] at h
  obtain ⟨-, ⟨hk, he⟩, -, hdb⟩ := h
  exact ⟨⟨hk, he⟩, (Except.ok.inj hdb).symm⟩

theorem insertAudit_ok {row : AuditRow} {db db' : Database} (h : insertAudit row db = .ok db') :
    Table.clash AuditRow.authorityRevision row db.audit = false ∧
      db' = { db with audit := db.audit ++ [row] } := by
  unfold insertAudit at h
  simp only [ensure_bind_eq_ok, Bool.not_eq_true'] at h
  obtain ⟨-, hk, -, hdb⟩ := h
  exact ⟨hk, (Except.ok.inj hdb).symm⟩

theorem insertOutbox_ok {row : OutboxRow} {db db' : Database} (h : insertOutbox row db = .ok db') :
    db' = { db with outbox := db.outbox ++ [row] } := by
  unfold insertOutbox at h
  simp only [ensure_bind_eq_ok] at h
  obtain ⟨-, -, -, hdb⟩ := h
  exact (Except.ok.inj hdb).symm

theorem insertRevision_ok {revision r : ℤ} {db db' : Database}
    (h : insertRevision revision db = .ok (r, db')) :
    r = revision ∧ revision ∉ db.revisions ∧
      db' = { db with revisions := db.revisions ++ [revision] } := by
  unfold insertRevision at h
  simp only [ensure_bind_eq_ok, Bool.not_eq_true'] at h
  obtain ⟨hfresh, hdb⟩ := h
  have hpair := Except.ok.inj hdb
  have hr := congrArg Prod.fst hpair
  have hd := congrArg Prod.snd hpair
  refine ⟨hr.symm, ?_, hd.symm⟩
  intro hmem
  rw [List.contains_iff_mem.mpr hmem] at hfresh
  cases hfresh

/-! ### The sequence counter -/

def nextSequence (db : Database) (log : Bytes × Bytes × ℤ) : ℤ :=
  ((Table.find SequenceRow.key log db.sequences).map fun r => r.nextSequence).getD 1

theorem nextDeliverySequence_ok {tenantID edgeID : Bytes} {generation sequence : ℤ}
    {db db' : Database}
    (h : nextDeliverySequence tenantID edgeID generation db = .ok (sequence, db')) :
    sequence = nextSequence db (tenantID, edgeID, generation) ∧
      (∃ rows, db' = { db with sequences := rows }) ∧
      ∀ log, nextSequence db' log =
        if log = (tenantID, edgeID, generation) then nextSequence db log + 1
        else nextSequence db log := by
  unfold nextDeliverySequence at h
  simp only [ensure_bind_eq_ok] at h
  obtain ⟨-, h⟩ := h
  cases hfind : Table.find SequenceRow.key (tenantID, edgeID, generation) db.sequences with
  | none =>
    simp only [hfind] at h
    have hpair := Except.ok.inj h
    have hs := congrArg Prod.fst hpair
    have hd := congrArg Prod.snd hpair
    simp only at hs hd
    subst hd
    refine ⟨by simp [nextSequence, hfind, ← hs], ⟨_, rfl⟩, ?_⟩
    intro log
    simp only [nextSequence, Table.find_append, SequenceRow.key]
    by_cases hl : log = (tenantID, edgeID, generation)
    · subst hl
      simp [hfind]
    · have hne : ¬ (tenantID, edgeID, generation) = log := fun e => hl e.symm
      simp [hl, hne]
  | some =>
    simp only [hfind, ensure_bind_eq_ok] at h
    obtain ⟨-, h⟩ := h
    have hpair := Except.ok.inj h
    have hs := congrArg Prod.fst hpair
    have hd := congrArg Prod.snd hpair
    simp only at hs hd
    subst hd
    refine ⟨by simp [nextSequence, hfind, hs], ⟨_, rfl⟩, ?_⟩
    intro log
    simp only [nextSequence]
    rw [Table.find_update]
    · by_cases hl : log = (tenantID, edgeID, generation)
      · subst hl
        simp [hfind]
      · simp [hl]
    · intro r
      rfl

/-! ### Running a statement of a body -/

theorem exec_ok {s : Sql} {w w' : World} {r : s.Reply} (h : World.exec s w = .ok (r, w')) :
    s.exec w.revision w.db = .ok (r, w'.db) ∧ w'.revision = w.revision := by
  unfold World.exec at h
  cases hf : w.faults.head?.join with
  | some => simp [hf] at h
  | none =>
    simp only [hf] at h
    cases hx : s.exec w.revision w.db with
    | error e => simp [hx, Except.map] at h
    | ok x =>
      rw [hx] at h
      have hpair := Except.ok.inj h
      have hr := congrArg Prod.fst hpair
      have hw := congrArg Prod.snd hpair
      simp only at hr hw
      subst hr hw
      exact ⟨rfl, rfl⟩

theorem run_query_bind {α : Type} {s : Sql} {wrap : SqlState → StoreError} {f : s.Reply → Body α}
    {w : World} {x : α × World} (h : Prog.run World.exec (query s wrap >>= f) w = .ok x) :
    ∃ r w', s.exec w.revision w.db = .ok (r, w'.db) ∧ w'.revision = w.revision ∧
      Prog.run World.exec (f r) w' = .ok x := by
  obtain ⟨r, w', hq, hf⟩ := (Prog.run_bind_eq_ok World.exec _ _ _ _).mp h
  have hs := (Prog.run_stmt_eq_ok World.exec s wrap w (r, w')).mp hq
  obtain ⟨hx, hrev⟩ := exec_ok hs
  exact ⟨r, w', hx, hrev, hf⟩

-- a statement that only reads: its reply is `value` of the tables, which stay as they are
theorem run_read_bind {α : Type} (s : Sql) (value : Database → s.Reply)
    (hread : ∀ revision db, s.exec revision db = .ok (value db, db))
    (wrap : SqlState → StoreError) (f : s.Reply → Body α) (w : World) (x : α × World)
    (h : Prog.run World.exec (query s wrap >>= f) w = .ok x) :
    ∃ w', w'.db = w.db ∧ w'.revision = w.revision ∧
      Prog.run World.exec (f (value w.db)) w' = .ok x := by
  obtain ⟨r, w', hexec, hrev, hf⟩ := run_query_bind h
  rw [hread] at hexec
  have hpair := Except.ok.inj hexec
  have hr := congrArg Prod.fst hpair
  have hdb := congrArg Prod.snd hpair
  simp only at hr hdb
  subst hr
  exact ⟨w', hdb.symm, hrev, hf⟩

theorem run_require_bind {α : Type} {b : Bool} {e : StoreError} {f : Unit → Body α} {w : World}
    {x : α × World} (h : Prog.run World.exec (Prog.require b e >>= f) w = .ok x) :
    b = true ∧ Prog.run World.exec (f ()) w = .ok x := by
  obtain ⟨u, w', hq, hf⟩ := (Prog.run_bind_eq_ok World.exec _ _ _ _).mp h
  obtain ⟨hb, hpair⟩ := (Prog.run_require_eq_ok World.exec b e w (u, w')).mp hq
  cases hpair
  exact ⟨hb, hf⟩

/-- One row of the loop in `insertOutbox`; `id` gives each destination its identifier. -/
def announce (id : DestinationKind × Bytes → Bytes) (tenantID : Bytes) (kind : EntityKind)
    (entityID raw : Bytes) (revision : ℤ) (d : DestinationKind × Bytes) : OutboxRow :=
  ⟨id d, tenantID, kind, entityID, d.1, d.2, raw, revision⟩

-- the outbox is the only table the loop over destinations touches
theorem insertOutbox_run {store : Store} {tenantID : Bytes} {kind : EntityKind}
    {entityID raw : Bytes} {revision : ℤ} {destinations : List (DestinationKind × Bytes)}
    {w : World} {x : Unit × World}
    (h : Prog.run World.exec
      (store.insertOutbox tenantID kind entityID raw revision destinations) w = .ok x) :
    let id := fun d : DestinationKind × Bytes => store.deterministicOutboxID
      [tenantID, kind.text, entityID, decimal revision, d.1.text, d.2]
    let rows := destinations.map (announce id tenantID kind entityID raw revision)
    x.2.revision = w.revision ∧ x.2.db = { w.db with outbox := w.db.outbox ++ rows } := by
  induction destinations generalizing w with
  | nil =>
    have hx := Except.ok.inj h
    subst hx
    exact ⟨rfl, by simp⟩
  | cons d rest ih =>
    obtain ⟨u, w₁, hexec, hrev, hrest⟩ := run_query_bind h
    have hdb := insertOutbox_ok (written_eq_ok.mp hexec)
    obtain ⟨hrev', hrows⟩ := ih hrest
    refine ⟨hrev'.trans hrev, ?_⟩
    rw [hrows, hdb]
    simp only [List.append_assoc, List.map_cons]
    rfl

end Snagline.Authority
