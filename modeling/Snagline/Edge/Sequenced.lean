import Snagline.Edge.Effects

/-!
# The journal under arbitrary calls

Any caller may call the four transactions of the edge store in any order and with
any arguments. For every generation the rows stay exactly the sequences up to the
last contiguous one, the watermark stays above it, and a halted generation becomes
active again only by completing at its own watermark.
-/

namespace Snagline.Edge
open Kit Ssp Delivery

/-- One call. An identity that `validate` refuses reaches no table, so there is
none here. -/
inductive JournalCall where
  | apply (d : JournalDelivery) (verdict : Verdict) (reason : Bytes)
      (p : Option VerifiedProjection) (allowReconciliation : Bool)
  | require (id : EdgeIdentity) (observed : ℤ) (reason : Bytes)
  | complete (id : EdgeIdentity) (completeThrough high : ℤ)

def JournalCall.work (s : DB) (db : Database) :
    JournalCall → Except EdgeError (Database × Option ApplyOutcome)
  | .apply d verdict reason p allow => do
    let (db, outcome) ← s.applyVerified d verdict reason p allow db
    pure (db, some outcome)
  | .require id observed reason => do
    let (db, _) ← requireReconciliation id observed reason db
    pure (db, none)
  | .complete id completeThrough high => do
    let (db, _) ← completeReconciliation id completeThrough high db
    pure (db, none)

structure JournalStep where
  call : JournalCall
  fate : Fate

def DB.call (s : DB) (db : Database) (step : JournalStep) :
    Database × Except EdgeError (Option ApplyOutcome) :=
  step.fate.settle (fun db => step.call.work s db) db

def DB.calls (s : DB) (db : Database) (steps : List JournalStep) : Database :=
  steps.foldl (fun db step => (s.call db step).1) db

def rowsOf (g : Generation) (db : Database) : List DeliveryRow :=
  db.deliveries.filter fun r => r.identity = g

/-! ### Other generations -/

theorem deliveryState_require_other {id g : Generation} (hne : g ≠ id) (observed : ℤ)
    (reason : Bytes) (db : Database) :
    deliveryState g (requireReconciliationTx (deliveryState id db) observed reason db) =
      deliveryState g db := by
  have hkey : ((deliveryState id db).require observed reason).key = id := deliveryState_key id db
  have hfind : Table.find StateRow.key g
      (requireReconciliationTx (deliveryState id db) observed reason db).states =
        Table.find StateRow.key g db.states :=
    Table.find_upsert_other StateRow.key ((deliveryState id db).require observed reason)
      (StateRow.require ((deliveryState id db).require observed reason).highWatermark reason)
      (fun _ => rfl) db.states fun hsame => hne (hsame.trans hkey)
  show (Table.find StateRow.key g
    (requireReconciliationTx (deliveryState id db) observed reason db).states).getD _ = _
  rw [hfind]
  rfl

theorem deliveryState_advance_other {id g : Generation} (hne : g ≠ id) {present : Bool} {seq : ℤ}
    {db db' : Database} (h : advanceDeliveryStateTx id present seq db = .ok db') :
    deliveryState g db' = deliveryState g db := by
  unfold advanceDeliveryStateTx at h
  split at h
  · cases h
    unfold deliveryState deliveryStateTx
    dsimp only
    rw [Table.find_update StateRow.key id g (StateRow.advance seq) (fun _ => rfl), if_neg hne]
  · dsimp only at h
    split at h
    · cases h
    · cases h
      unfold deliveryState deliveryStateTx
      dsimp only
      rw [Table.find_append, if_neg (fun hsame => hne hsame.symm), Option.or_none]

theorem recordDelivery_other {s : DB} {d : JournalDelivery} {verdict : Verdict} {reason : Bytes}
    {p : Option VerifiedProjection} {present : Bool} {db db' : Database} {outcome : ApplyOutcome}
    (h : s.recordDelivery d verdict reason p present db = .ok (db', outcome)) {g : Generation}
    (hne : g ≠ d.identity) : deliveryState g db' = deliveryState g db := by
  obtain ⟨db₁, j, hsettle, -, hadvance⟩ := recordDelivery_eq_ok h
  have hstates := (settleVerdict_frame hsettle).1
  rw [deliveryState_advance_other hne hadvance]
  unfold deliveryState deliveryStateTx
  dsimp only
  rw [hstates]

/-! ### What a call does to one generation -/

/-- Everything a call can do to generation `g`. -/
inductive Moved (call : JournalCall) (g : Generation) (db db' : Database) : Prop where
  | kept (state : deliveryState g db' = deliveryState g db) (rows : rowsOf g db' = rowsOf g db)
  | required (observed : ℤ) (reason : Bytes)
      (state : deliveryState g db' = (deliveryState g db).require observed reason)
      (rows : rowsOf g db' = rowsOf g db)
  | advanced (row : DeliveryRow)
      (next : row.deliverySeq = (deliveryState g db).lastContiguousSeq + 1)
      (state : deliveryState g db' = (deliveryState g db).advance row.deliverySeq)
      (rows : rowsOf g db' = rowsOf g db ++ [row])
  | completed (id : EdgeIdentity) (own : id.key = g)
      (argument : call = .complete id (deliveryState g db).lastContiguousSeq
        (deliveryState g db).lastContiguousSeq)
      (through : (deliveryState g db).lastContiguousSeq = (deliveryState g db).highWatermark)
      (state : deliveryState g db' = { deliveryState g db with mode := .active, reason := [] })
      (rows : rowsOf g db' = rowsOf g db)

theorem require_moved (call : JournalCall) (id g : Generation) (observed : ℤ) (reason : Bytes)
    (db : Database) :
    Moved call g db (requireReconciliationTx (deliveryState id db) observed reason db) := by
  by_cases hsame : g = id
  · subst hsame
    exact .required observed reason (deliveryState_require g observed reason db) rfl
  · exact .kept (deliveryState_require_other hsame observed reason db) rfl

theorem complete_moved {id : EdgeIdentity} {through high : ℤ} {db db' : Database}
    (h : completeReconciliation id through high db = .ok (db', ())) (g : Generation) :
    Moved (.complete id through high) g db db' := by
  unfold completeReconciliation at h
  obtain ⟨hbounds, h⟩ := ensure_bind_eq_ok.mp h
  obtain ⟨-, h⟩ := ensure_bind_eq_ok.mp h
  simp only [Bool.and_eq_true, beq_iff_eq] at hbounds
  have hdb := congrArg Prod.fst (Except.ok.inj h)
  dsimp only at hdb
  have hrows : rowsOf g db' = rowsOf g db := by rw [← hdb]; rfl
  have hfind : Table.find StateRow.key g db'.states = (Table.find StateRow.key g db.states).map
      fun r => if r.key == id.key && r.completes through high then
        { r with mode := .active, reason := [] } else r := by
    rw [← hdb]
    refine Table.find_map StateRow.key g _ ?_ db.states
    intro r
    split
    · rfl
    · rfl
  have hstate : deliveryState g db' =
      ((Table.find StateRow.key g db'.states).getD (.initial g)) := rfl
  cases hr : Table.find StateRow.key g db.states with
  | none =>
    have hold : deliveryState g db = .initial g := by simp [deliveryState, deliveryStateTx, hr]
    refine .kept ?_ hrows
    rw [hstate, hfind, hr, hold]
    rfl
  | some r =>
    have hold : deliveryState g db = r := by simp [deliveryState, deliveryStateTx, hr]
    have hkey : r.key = g := (Table.find_eq_some hr).2
    rw [hr, Option.map_some] at hfind
    rw [hfind, Option.getD_some] at hstate
    by_cases hit : (r.key == id.key && r.completes through high) = true
    · rw [if_pos hit] at hstate
      simp only [StateRow.completes, Bool.and_eq_true, beq_iff_eq] at hit
      obtain ⟨hid, ⟨-, hlast⟩, hhigh⟩ := hit
      have hequal : r.lastContiguousSeq = r.highWatermark := by
        rw [hlast, hhigh]
        exact hbounds.2
      refine .completed id (hid.symm.trans hkey) ?_ (hold.symm ▸ hequal) (hold.symm ▸ hstate) hrows
      rw [hold, hlast, ← hbounds.2]
    · rw [if_neg hit] at hstate
      exact .kept (hstate.trans hold.symm) hrows

/-! ### The invariant -/

section
variable {db db' : Database} {g : Generation} {p : Option VerifiedProjection} {call : JournalCall}
  {d : JournalDelivery} {verdict : Verdict} {s : DB} {reason : Bytes} {outcome : ApplyOutcome}

structure Sequenced (g : Generation) (db : Database) : Prop where
  rows : (rowsOf g db).map DeliveryRow.deliverySeq =
    (List.range' 1 (deliveryState g db).lastContiguousSeq.toNat).map Int.ofNat
  nonneg : 0 ≤ (deliveryState g db).lastContiguousSeq
  bounded : (deliveryState g db).lastContiguousSeq ≤ (deliveryState g db).highWatermark

theorem sequenced_empty (g : Generation) : Sequenced g {} := ⟨rfl, le_refl 0, le_refl 0⟩

theorem Sequenced.moved
    (h : Sequenced g db) (hmoved : Moved call g db db') : Sequenced g db' := by
  have hnonneg := h.nonneg
  have hbounded := h.bounded
  cases hmoved with
  | kept state rows =>
    exact ⟨by rw [rows, state]; exact h.rows, by rw [state]; omega, by rw [state]; omega⟩
  | required observed reason state rows =>
    refine ⟨by rw [rows, state]; exact h.rows, ?_, ?_⟩
    · rw [state]
      exact hnonneg
    · rw [state]
      show (deliveryState g db).lastContiguousSeq ≤ max (deliveryState g db).highWatermark observed
      omega
  | advanced row next state rows =>
    have hlast : (deliveryState g db').lastContiguousSeq = row.deliverySeq := by rw [state]; rfl
    have hhigh : (deliveryState g db').highWatermark =
        max (deliveryState g db).highWatermark row.deliverySeq := by rw [state]; rfl
    refine ⟨?_, by omega, by omega⟩
    have hcount : row.deliverySeq.toNat = (deliveryState g db).lastContiguousSeq.toNat + 1 := by omega
    have hnew : Int.ofNat (1 + (deliveryState g db).lastContiguousSeq.toNat) = row.deliverySeq := by
      simp only [Int.ofNat_eq_natCast]
      omega
    rw [rows, hlast, List.map_append, h.rows, hcount, List.range'_1_concat, List.map_append]
    rw [List.map_singleton, List.map_singleton, hnew]
  | completed id own argument through state rows =>
    exact ⟨by rw [rows, state]; exact h.rows, by rw [state]; exact hnonneg,
      by rw [state]; exact hbounded⟩

theorem Sequenced.row_le {db : Database} (h : Sequenced g db) {row : DeliveryRow}
    (hmem : row ∈ db.deliveries) (hown : row.identity = g) :
    row.deliverySeq ≤ (deliveryState g db).lastContiguousSeq := by
  have hnonneg := h.nonneg
  have hrow : row ∈ rowsOf g db := List.mem_filter.mpr ⟨hmem, decide_eq_true hown⟩
  have hin := List.mem_map_of_mem (f := DeliveryRow.deliverySeq) hrow
  rw [h.rows] at hin
  obtain ⟨n, hn, heq⟩ := List.mem_map.mp hin
  have hbound := (List.mem_range'_1.mp hn).2
  simp only [Int.ofNat_eq_natCast] at heq
  omega

theorem Sequenced.found_iff {db : Database} (h : Sequenced g db) {seq : ℤ}
    (hseq : 0 < seq) :
    (Table.find DeliveryRow.key (g, seq) db.deliveries).isSome = true ↔
      seq ≤ (deliveryState g db).lastContiguousSeq := by
  have hnonneg := h.nonneg
  constructor
  · intro hfound
    obtain ⟨row, hrow⟩ := Option.isSome_iff_exists.mp hfound
    obtain ⟨hmem, hkey⟩ := Table.find_eq_some hrow
    have hsequence : row.deliverySeq = seq := congrArg Prod.snd hkey
    exact hsequence ▸ h.row_le hmem (congrArg Prod.fst hkey)
  · intro hle
    have hin : seq ∈ (rowsOf g db).map DeliveryRow.deliverySeq := by
      rw [h.rows, List.mem_map]
      refine ⟨seq.toNat, List.mem_range'_1.mpr ⟨by omega, by omega⟩, ?_⟩
      simp only [Int.ofNat_eq_natCast]
      omega
    obtain ⟨row, hrow, hsequence⟩ := List.mem_map.mp hin
    obtain ⟨hmem, hown⟩ := List.mem_filter.mp hrow
    rw [← Option.ne_none_iff_isSome]
    intro hnone
    refine Table.find_eq_none.mp hnone row hmem ?_
    exact Prod.ext (of_decide_eq_true hown) hsequence

theorem validateDelivery_positive
    (h : s.validateDelivery d verdict reason p = .ok ()) : 0 < d.deliverySeq := by
  unfold DB.validateDelivery at h
  obtain ⟨hd, -⟩ := ensure_bind_eq_ok.mp h
  simp only [Bool.and_eq_true, decide_eq_true_eq] at hd
  exact hd.1.1.1.1.1

theorem record_moved
    (hpositive : 0 < d.deliverySeq)
    (next : d.deliverySeq = (deliveryState d.identity db).lastContiguousSeq + 1)
    (written : s.recordDelivery d verdict reason p (deliveryStateTx d.identity db).isSome db =
      .ok (db', outcome)) (call : JournalCall) (g : Generation) : Moved call g db db' := by
  obtain ⟨db₁, j, -, -, hrows, hstate⟩ :=
    recordDelivery_ok s d verdict reason p hpositive.le db db' outcome written
  by_cases hsame : g = d.identity
  · subst hsame
    refine .advanced (s.journalRow d p j) next hstate ?_
    have hown : (s.journalRow d p j).identity = d.identity := rfl
    unfold rowsOf
    rw [hrows, List.filter_append]
    simp [hown]
  · refine .kept (recordDelivery_other written hsame) ?_
    have hother : ¬ (s.journalRow d p j).identity = g := fun e => hsame e.symm
    unfold rowsOf
    rw [hrows, List.filter_append]
    simp [hother]

theorem apply_moved {allow : Bool}
    (hseq : ∀ g, Sequenced g db)
    (h : s.applyVerified d verdict reason p allow db = .ok (db', outcome)) (call : JournalCall)
    (g : Generation) : Moved call g db db' := by
  obtain ⟨hvalid, -, hcases⟩ := applyVerified_applied h
  have hpositive := validateDelivery_positive hvalid
  cases hcases with
  | duplicate => exact .kept rfl rfl
  | halted why => exact require_moved call d.identity g d.deliverySeq why db
  | torn _ row there own =>
    have hle := (hseq d.identity).row_le there own
    omega
  | recorded _ _ next written => exact record_moved hpositive next written call g

theorem work_moved {o : Option ApplyOutcome}
    (hseq : ∀ g, Sequenced g db) (h : call.work s db = .ok (db', o)) (g : Generation) :
    Moved call g db db' := by
  cases call with
  | apply =>
    obtain ⟨⟨db₁, outcome⟩, happlied, h⟩ := bind_eq_ok.mp h
    cases h
    exact apply_moved hseq happlied _ g
  | require id observed reason =>
    obtain ⟨⟨db₁, u⟩, hrequired, h⟩ := bind_eq_ok.mp h
    cases h
    rw [requireReconciliation_ok hrequired]
    exact require_moved _ id.key g observed reason db
  | complete =>
    obtain ⟨⟨db₁, u⟩, hcompleted, h⟩ := bind_eq_ok.mp h
    cases h
    exact complete_moved hcompleted g

theorem call_moved {db : Database} (hseq : ∀ g, Sequenced g db) (step : JournalStep)
    (g : Generation) : Moved step.call g db (s.call db step).1 := by
  rcases settle_db step.fate (fun db => step.call.work s db) db with hsame | ⟨o, hwork⟩
  · have hdb : (s.call db step).1 = db := hsame
    rw [hdb]
    exact .kept rfl rfl
  · exact work_moved hseq hwork g

theorem calls_sequenced (s : DB) (steps : List JournalStep) (db : Database)
    (hseq : ∀ g, Sequenced g db) (g : Generation) : Sequenced g (s.calls db steps) := by
  induction steps generalizing db with
  | nil => exact hseq g
  | cons step steps ih =>
    exact ih (s.call db step).1 fun g' => (hseq g').moved (call_moved hseq step g')

theorem Moved.monotone
    (h : Moved call g db db') :
    (deliveryState g db).lastContiguousSeq ≤ (deliveryState g db').lastContiguousSeq ∧
      (deliveryState g db).highWatermark ≤ (deliveryState g db').highWatermark := by
  cases h with
  | kept state => rw [state]; exact ⟨le_refl _, le_refl _⟩
  | required observed reason state =>
    rw [state]
    exact ⟨le_refl _, le_max_left _ _⟩
  | advanced row next state =>
    have hlast : (deliveryState g db').lastContiguousSeq = row.deliverySeq := by rw [state]; rfl
    refine ⟨by omega, ?_⟩
    rw [state]
    exact le_max_left _ _
  | completed id own argument through state =>
    rw [state]
    exact ⟨le_refl _, le_refl _⟩

theorem Moved.activated
    (h : Moved call g db db') (hhalted : (deliveryState g db).mode = .reconciliationRequired)
    (hactive : (deliveryState g db').mode = .active) :
    ∃ id : EdgeIdentity, id.key = g ∧
      call = .complete id (deliveryState g db).lastContiguousSeq
        (deliveryState g db).lastContiguousSeq ∧
      (deliveryState g db).lastContiguousSeq = (deliveryState g db).highWatermark := by
  cases h with
  | kept state =>
    rw [state, hhalted] at hactive
    cases hactive
  | required observed reason state =>
    rw [state] at hactive
    cases hactive
  | advanced row next state =>
    rw [state] at hactive
    have hmode : (deliveryState g db).mode = .active := hactive
    rw [hhalted] at hmode
    cases hmode
  | completed id own argument through => exact ⟨id, own, argument, through⟩

theorem settle_error {α : Type} {fate : Fate}
    {work : Database → Except EdgeError (Database × α)} {db : Database} {e : EdgeError}
    (hfate : fate ≠ .lost) (h : (fate.settle work db).2 = .error e) :
    (fate.settle work db).1 = db := by
  cases hwork : work db with
  | error => cases fate <;> simp only [Fate.settle, hwork]
  | ok =>
    cases fate with
    | failed => simp only [Fate.settle]
    | lost => exact absurd rfl hfate
    | done =>
      simp only [Fate.settle, hwork] at h
      cases h

/-- The state of the edge journal after any calls: for every generation the rows
are the sequences 1 up to the last contiguous one, which the watermark bounds. Of
any further call: neither number falls, an error (other than a lost confirmation
of a commit) changes nothing, and only a completion at both numbers activates a
halted generation. The lookups of `applyTx` find a row up to the last contiguous
sequence and none right after it. -/
theorem edge_journal_invariant (s : DB) (steps : List JournalStep) (g : Generation) :
    let db := s.calls {} steps
    let state := deliveryState g db
    (rowsOf g db).map DeliveryRow.deliverySeq =
      (List.range' 1 state.lastContiguousSeq.toNat).map Int.ofNat ∧
    0 ≤ state.lastContiguousSeq ∧ state.lastContiguousSeq ≤ state.highWatermark ∧
    (∀ step : JournalStep,
      let after := deliveryState g (s.call db step).1
      state.lastContiguousSeq ≤ after.lastContiguousSeq ∧
      state.highWatermark ≤ after.highWatermark ∧
      (step.fate ≠ .lost → ∀ e, (s.call db step).2 = .error e → (s.call db step).1 = db) ∧
      (state.mode = .reconciliationRequired → after.mode = .active →
        ∃ id : EdgeIdentity, id.key = g ∧
          step.call = .complete id state.lastContiguousSeq state.lastContiguousSeq ∧
          state.lastContiguousSeq = state.highWatermark)) ∧
    (∀ seq, 0 < seq →
      (seq ≤ state.lastContiguousSeq →
        Table.find DeliveryRow.key (g, seq) db.deliveries ≠ none) ∧
      (seq = state.lastContiguousSeq + 1 →
        Table.find DeliveryRow.key (g, seq) db.deliveries = none)) := by
  intro db state
  have hall := calls_sequenced s steps {} sequenced_empty
  have hseq := hall g
  refine ⟨hseq.rows, hseq.nonneg, hseq.bounded, ?_, ?_⟩
  · intro step
    have hmoved := call_moved (s := s) hall step g
    obtain ⟨hlast, hhigh⟩ := hmoved.monotone
    exact ⟨hlast, hhigh, fun hfate e he => settle_error hfate he,
      fun hhalted hactive => hmoved.activated hhalted hactive⟩
  · intro seq hpositive
    have hfound := hseq.found_iff hpositive
    refine ⟨fun hle => Option.ne_none_iff_isSome.mpr (hfound.mpr hle), fun hnext => ?_⟩
    by_contra hsome
    have hle := hfound.mp (Option.ne_none_iff_isSome.mp hsome)
    have hstate : (deliveryState g (s.calls {} steps)).lastContiguousSeq =
      state.lastContiguousSeq := rfl
    omega

end

end Snagline.Edge
