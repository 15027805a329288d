import Snagline.Edge.Paging
import Snagline.Edge.Replayable
import Snagline.Edge.Sequenced

/-!
# Reconciliation ends

The watermark of an edge never passes the end of its log, because only a verified
delivery can raise it. So the bounds of a page always hold, each pass brings the
edge at least one entry further, and the pass that reaches the end resumes.
-/

namespace Snagline.Edge
open Kit Ssp Delivery Authority

/-! ### The outbox -/

/-- The outbox rows are named as `frontRow` names them. -/
def Fronted (rows : List FrontRow) : Prop :=
  ∀ r ∈ rows, r.messageID = (frontRow r.adviceID r.front).messageID

def Tidy (work : List FrontRow → List FrontRow) : Prop :=
  ∀ rows, ∀ r ∈ work rows, ∃ x ∈ rows, x.key = r.key ∧ x.messageID = r.messageID

variable {rows : List FrontRow}

theorem Fronted.tidy (h : Fronted rows) {work : List FrontRow → List FrontRow} (hwork : Tidy work) :
    Fronted (work rows) := by
  intro r hr
  obtain ⟨x, hx, hkey, hmessage⟩ := hwork rows r hr
  simp only [FrontRow.key, Prod.mk.injEq] at hkey
  rw [← hmessage, h x hx, hkey.1, hkey.2]

theorem frontRow_injective {a b : Bytes} {f g : Front}
    (h : (frontRow a f).messageID = (frontRow b g).messageID) : f = g ∧ a = b := by
  simp only [frontRow, List.append_assoc] at h
  have hname := List.append_cancel_left h
  have hlength : f.name.length = g.name.length := by
    cases f <;> cases g <;> decide
  obtain ⟨hfront, hrest⟩ := List.append_inj hname hlength
  refine ⟨?_, List.append_cancel_left hrest⟩
  cases f <;> cases g
  · rfl
  · exact absurd hfront (by decide)
  · exact absurd hfront (by decide)
  · rfl

theorem Fronted.insert (h : Fronted rows) (adviceID : Bytes) (front : Front) :
    ∃ rows', insertOrIgnore FrontRow.key FrontRow.messageID (frontRow adviceID front) rows =
      .ok rows' ∧ Fronted rows' := by
  obtain ⟨rows', hrows, hkind⟩ := insertOrIgnore_succeeds FrontRow.key FrontRow.messageID
    (frontRow adviceID front) rows (by
      rintro ⟨x, hx, hsame⟩
      rw [h x hx] at hsame
      obtain ⟨hfront, hadvice⟩ := frontRow_injective hsame
      exact ⟨x, hx, Prod.ext hfront hadvice⟩)
  refine ⟨rows', hrows, ?_⟩
  rcases hkind with ⟨hsame, -⟩ | happend
  · exact hsame ▸ h
  · intro r hr
    rw [happend] at hr
    rcases List.mem_append.mp hr with hr | hr
    · exact h r hr
    · cases List.mem_singleton.mp hr
      rfl

theorem Fronted.persist (h : Fronted rows) (p : VerifiedProjection) :
    ∃ rows', persistFront p rows = .ok rows' ∧ Fronted rows' := by
  unfold persistFront
  split
  · rename_i a _ _
    obtain ⟨first, hfirst, hfronted⟩ := h.insert a.adviceID .cli
    obtain ⟨second, hsecond, hdone⟩ := hfronted.insert a.adviceID .amq
    exact ⟨second, bind_eq_ok.mpr ⟨first, hfirst, hsecond⟩, hdone⟩
  · exact ⟨rows, rfl, h⟩

theorem Fronted.quarantine (h : Fronted rows) (id : Bytes) (advice : List AdviceRow) :
    Fronted (quarantineFront id advice rows) := by
  intro r hr
  unfold quarantineFront at hr
  obtain ⟨x, hx, rfl⟩ := List.mem_map.mp hr
  split
  · exact h x hx
  · exact h x hx

theorem Fronted.settle {db : Database} (h : Fronted db.front) {verdict : Verdict} {reason : Bytes}
    {p : Option VerifiedProjection} {seq : ℤ} {t : Projection} {j : Judged}
    (hsettle : db.projection.settle verdict reason p seq = .ok (t, j)) :
    ∃ db', settleVerdict verdict reason p seq db = .ok (db', j) ∧ Fronted db'.front := by
  unfold Projection.settle at hsettle
  unfold settleVerdict claimIdentity
  cases verdict with
  | rejected | quarantined =>
    cases hsettle
    exact ⟨db, rfl, h⟩
  | accepted =>
    cases p with
    | none =>
      cases hsettle
      exact ⟨db, rfl, h⟩
    | some p =>
      cases hclaim : db.projection.claimIdentity p.envelopeID p.commitment seq with
      | mk claimed outcome =>
        simp only [hclaim] at hsettle ⊢
        cases outcome with
        | quarantined =>
          cases hsettle
          exact ⟨_, rfl, h.quarantine p.envelopeID t.advice⟩
        | duplicate =>
          cases hsettle
          exact ⟨_, rfl, h⟩
        | _ =>
          obtain ⟨t₁, ht₁, hsettle⟩ := bind_eq_ok.mp hsettle
          cases hsettle
          obtain ⟨rows, hrows, hfronted⟩ := h.persist p
          refine ⟨⟨db.states, db.deliveries, t, rows⟩, ?_, hfronted⟩
          refine bind_eq_ok.mpr ⟨⟨db.states, db.deliveries, t, rows⟩, ?_, rfl⟩
          unfold persistProjection
          refine bind_eq_ok.mpr ⟨t, ht₁, ?_⟩
          exact bind_eq_ok.mpr ⟨rows, hrows, rfl⟩

/-! ### What every reachable journal has -/

section
variable {db db' : Database} {present : Bool} {p : Option VerifiedProjection}
  {outcome : ApplyOutcome} {d : JournalDelivery} {verdict : Verdict} {reason : Bytes} {s : DB}

theorem advance_keyed {id : Generation} {seq : ℤ}
    (hkeyed : Table.Keyed StateRow.key db.states)
    (h : advanceDeliveryStateTx id present seq db = .ok db') :
    Table.Keyed StateRow.key db'.states ∧ db'.front = db.front := by
  unfold advanceDeliveryStateTx at h
  split at h
  · cases h
    exact ⟨hkeyed.update id fun _ => rfl, rfl⟩
  · dsimp only at h
    split at h
    · cases h
    · rename_i hfresh
      cases h
      exact ⟨hkeyed.append (Bool.eq_false_iff.mpr hfresh), rfl⟩

theorem recordDelivery_states
    (h : s.recordDelivery d verdict reason p present db = .ok (db', outcome))
    (hkeyed : Table.Keyed StateRow.key db.states) : Table.Keyed StateRow.key db'.states := by
  obtain ⟨db₁, j, hsettle, -, hadvance⟩ := recordDelivery_eq_ok h
  have hstates := (settleVerdict_frame hsettle).1
  exact (advance_keyed (hstates.symm ▸ hkeyed) hadvance).1

theorem recordDelivery_fronted
    (hkeyed : Table.Keyed StateRow.key db.states) (hfronted : Fronted db.front)
    (h : s.recordDelivery d verdict reason p present db = .ok (db', outcome)) :
    Fronted db'.front := by
  obtain ⟨db₁, j, hsettle, -, hadvance⟩ := recordDelivery_eq_ok h
  have hstates := (settleVerdict_frame hsettle).1
  obtain ⟨same, hsame, hfront⟩ :=
    hfronted.settle (settleVerdict_projection hsettle)
  rw [hsame] at hsettle
  cases hsettle
  exact (advance_keyed (hstates.symm ▸ hkeyed) hadvance).2.symm ▸ hfront

structure Ready (c : JournalConsumer) (log : EdgeLog) (judge : Judge) (db : Database) :
    Prop where
  holds : ∃ k l, Holds c log judge db k l
  sequenced : ∀ g, Sequenced g db
  within : (deliveryState c.identity.key db).highWatermark ≤ log.entries.length
  keyed : Table.Keyed StateRow.key db.states
  fronted : Fronted db.front

theorem ready_empty (c : JournalConsumer) (log : EdgeLog) (judge : Judge) :
    Ready c log judge {} :=
  ⟨⟨0, {}, holds_empty c log judge⟩, sequenced_empty, Int.natCast_nonneg _,
    Table.keyed_nil StateRow.key, fun _ h => nomatch h⟩

end

variable {c : JournalConsumer} {log : EdgeLog} {judge : Judge}

theorem Ready.require {db : Database} (h : Ready c log judge db) (observed : ℤ) (reason : Bytes)
    (hobserved : observed ≤ log.entries.length)
    (hholds : ∃ k l, Holds c log judge
      (requireReconciliationTx (deliveryState c.identity.key db) observed reason db) k l) :
    Ready c log judge
      (requireReconciliationTx (deliveryState c.identity.key db) observed reason db) := by
  refine ⟨hholds, ?_, ?_, h.keyed.upsert _ fun _ => rfl, h.fronted⟩
  · intro g
    exact (h.sequenced g).moved
      (require_moved (.require c.identity observed reason) c.identity.key g observed reason db)
  · rw [deliveryState_require]
    have hwithin := h.within
    show max (deliveryState c.identity.key db).highWatermark observed ≤ _
    omega

theorem Ready.apply {db db' : Database} (h : Ready c log judge db) {turn : Turn}
    (hturn : Faithful c log judge turn) {d : JournalDelivery} (hown : c.Own d) {verdict : Verdict}
    {reason : Bytes} {p : Option VerifiedProjection}
    (hjudged : c.verdict d.subject (turn.verify d) = some (verdict, reason, p)) {allow : Bool}
    {outcome : ApplyOutcome}
    (happlied : c.store.applyVerified d verdict reason p allow db = .ok (db', outcome)) :
    Ready c log judge db' := by
  have hholds : ∃ k l, Holds c log judge db' k l := by
    obtain ⟨k, l, hk⟩ := h.holds
    exact hk.apply turn hturn d hown verdict reason p hjudged allow outcome happlied
  have hbound : d.deliverySeq ≤ log.entries.length := by
    obtain ⟨k, e, hentry, -, hk, -⟩ := faithful_verdict hturn hown hjudged
    have hlt := (List.getElem?_eq_some_iff.mp hentry).1
    omega
  have hmoved := apply_moved h.sequenced happlied (.require c.identity 0 [])
  have hsequenced : ∀ g, Sequenced g db' := fun g => (h.sequenced g).moved (hmoved g)
  have hwithin := h.within
  obtain ⟨-, -, hcases⟩ :=
    applyVerified_applied happlied
  cases hcases with
  | duplicate => exact h
  | halted why =>
    rw [hown.identity] at hholds ⊢
    exact h.require d.deliverySeq why hbound hholds
  | torn _ row there =>
    obtain ⟨k, l, hk⟩ := h.holds
    have hle := hk.row_le row there
    have hlast := hk.last
    rw [← hown.identity] at hlast
    omega
  | recorded _ _ next written =>
    refine ⟨hholds, hsequenced, ?_, recordDelivery_states written h.keyed,
      recordDelivery_fronted h.keyed h.fronted written⟩
    obtain ⟨-, -, -, -, -, hstate⟩ :=
      recordDelivery_ok c.store d verdict reason p hown.positive.le db db' outcome written
    rw [← hown.identity] at hwithin ⊢
    rw [hstate]
    show max (deliveryState d.identity db).highWatermark d.deliverySeq ≤ _
    omega

theorem completeReconciliation_keyed {id : EdgeIdentity} {through high : ℤ} {db db' : Database}
    (hkeyed : Table.Keyed StateRow.key db.states)
    (h : completeReconciliation id through high db = .ok (db', ())) :
    Table.Keyed StateRow.key db'.states ∧ db'.front = db.front := by
  unfold completeReconciliation at h
  obtain ⟨-, h⟩ := ensure_bind_eq_ok.mp h
  obtain ⟨-, h⟩ := ensure_bind_eq_ok.mp h
  cases h
  refine ⟨hkeyed.map ?_, rfl⟩
  intro r
  split
  · rfl
  · rfl

theorem completeReconciliation_succeeds (id : EdgeIdentity) {db : Database} {through : ℤ}
    (hthrough : 0 ≤ through) (hkeyed : Table.Keyed StateRow.key db.states)
    (hmode : (deliveryState id.key db).mode = .reconciliationRequired)
    (hlast : (deliveryState id.key db).lastContiguousSeq = through)
    (hhigh : (deliveryState id.key db).highWatermark = through) :
    ∃ db', completeReconciliation id through through db = .ok (db', ()) ∧
      deliveryState id.key db' = { deliveryState id.key db with mode := .active, reason := [] } := by
  -- a halted edge has a row, and the key makes it the only one
  obtain ⟨row, hrow⟩ : ∃ row, Table.find StateRow.key id.key db.states = some row := by
    cases hfind : Table.find StateRow.key id.key db.states with
    | some row => exact ⟨row, rfl⟩
    | none =>
      simp [deliveryState, deliveryStateTx, hfind, StateRow.initial] at hmode
  have hstate : deliveryState id.key db = row := by
    simp [deliveryState, deliveryStateTx, hrow]
  obtain ⟨hmem, hkey⟩ := Table.find_eq_some hrow
  rw [hstate] at hlast hmode hhigh
  have hcompletes : row.completes through through = true := by
    simp [StateRow.completes, hmode, hlast, hhigh]
  have hone : (db.states.filter fun r => r.key == id.key &&
      r.completes through through).length = 1 := by
    refine hkeyed.filter_length hmem _ (by simp [hkey, hcompletes]) ?_
    intro r hr
    simp only [Bool.and_eq_true, beq_iff_eq] at hr
    exact hr.1.trans hkey.symm
  have hdone : ∃ db', completeReconciliation id through through db = .ok (db', ()) := by
    unfold completeReconciliation
    simp only [beq_self_eq_true, Bool.and_true, hthrough, decide_true, ensure_true, hone, ok_bind]
    exact ⟨_, rfl⟩
  obtain ⟨db', hcompleted⟩ := hdone
  refine ⟨db', hcompleted, ?_⟩
  unfold completeReconciliation at hcompleted
  obtain ⟨-, hcompleted⟩ := ensure_bind_eq_ok.mp hcompleted
  obtain ⟨-, hcompleted⟩ := ensure_bind_eq_ok.mp hcompleted
  have hdb := congrArg Prod.fst (Except.ok.inj hcompleted)
  dsimp only at hdb
  rw [hstate, ← hdb]
  unfold deliveryState deliveryStateTx
  rw [Table.find_map StateRow.key id.key _ (by intro r; split <;> rfl) db.states, hrow]
  simp [hkey, hcompletes]

theorem ready_move (c : JournalConsumer) (log : EdgeLog) (judge : Judge)
    (db db' : Database) (hmove : Move c (Faithful c log judge) Tidy db db')
    (h : Ready c log judge db) : Ready c log judge db' := by
  have hholds := holds_move c log judge db db' hmove h.holds
  cases hmove with
  | apply turn admitted d own verdict reason p judged allow _ outcome applied =>
    exact h.apply admitted own judged applied
  | require observed reason =>
    have hwithin := h.within
    exact h.require observed reason (by omega) hholds
  | complete through high _ completed =>
    obtain ⟨hkeyed, hfront⟩ := completeReconciliation_keyed h.keyed completed
    have hwatermark := (completeReconciliation_ok c.identity through high db db' completed).2.1
    refine ⟨hholds, ?_, ?_, hkeyed, hfront.symm ▸ h.fronted⟩
    · intro g
      exact (h.sequenced g).moved (complete_moved completed g)
    · rw [hwatermark]
      exact h.within
  | fronts work allowed =>
    refine ⟨hholds, ?_, h.within, h.keyed, h.fronted.tidy allowed⟩
    intro g
    exact ⟨(h.sequenced g).rows, (h.sequenced g).nonneg, (h.sequenced g).bounded⟩

theorem run_ready {c : JournalConsumer} {log : EdgeLog} {judge : Judge} {es : List Event}
    (hturns : ∀ e ∈ es, ∀ t ∈ e.turns, Faithful c log judge t)
    (hfronts : ∀ e ∈ es, ∀ f ∈ e.frontWork, Tidy f) :
    Ready c log judge (c.run {} es).node.db :=
  run_keeps (ready_move c log judge) es {} hturns hfronts (ready_empty c log judge)

/-! ### One entry -/

section
variable {e : EdgeDelivery} {turn : Turn} {k : ℕ}

/-- During recovery the verifier reads the whole log and always says what it
makes of an entry. -/
structure Answers (c : JournalConsumer) (log : EdgeLog) (judge : Judge) (turn : Turn) :
    Prop where
  commits : turn.fate = .done
  exact : ∃ source content, turn.verify = verifyExact c.identity.tenantID source content ∧
    (∀ after limit, source c.identity.key after limit =
      some (deliveryPage log.entries after limit)) ∧
    ∀ d, ∀ e ∈ log.entries, content d e = (judge e).mapError .permanent

theorem Answers.faithful (h : Answers c log judge turn) :
    Faithful c log judge turn := by
  obtain ⟨source, content, hverify, hpages, hcontent⟩ := h.exact
  refine ⟨source, content, hverify, ?_, fun d e he => .inr (hcontent d e he)⟩
  intro after limit
  refine .inr ⟨log.entries.length, ?_⟩
  rw [List.take_length]
  exact hpages after limit

theorem reconciled_own (hrec : Recoverable c log judge)
    (hentry : log.entries[k]? = some e) : c.Own (c.reconciled e) := by
  refine ⟨rfl, rfl, ?_, (hrec.complete e (List.mem_of_getElem? hentry)).raw⟩
  have hseq := log.sequence_eq k e hentry
  show 0 < e.sequence
  omega

theorem Answers.judged (h : Answers c log judge turn)
    (hrec : Recoverable c log judge)
    (hentry : log.entries[k]? = some e) :
    c.verdict (c.reconciled e).subject (turn.verify (c.reconciled e)) = c.judged judge e := by
  obtain ⟨source, content, hverify, hpages, hcontent⟩ := h.exact
  have hown := reconciled_own hrec hentry
  have hseq := log.sequence_eq k e hentry
  have hpage := log.page_deliveries k 1
  have hone : ((log.entries.drop k).take (1 : ℤ).toNat) = [e] := by
    obtain ⟨hk, hget⟩ := List.getElem?_eq_some_iff.mp hentry
    rw [List.drop_eq_getElem_cons hk, hget]
    rfl
  have hcursor : (c.reconciled e).deliverySeq - 1 = (k : ℤ) := by
    show e.sequence - 1 = k
    omega
  have hexact : resolveExactDelivery source c.identity.tenantID (c.reconciled e) = .ok e := by
    unfold resolveExactDelivery
    have hsource : source (c.identity.tenantID, (c.reconciled e).edgeID,
        (c.reconciled e).edgeGeneration) ((c.reconciled e).deliverySeq - 1) 1 =
        some (deliveryPage log.entries k 1) := by
      rw [hcursor]
      exact hpages k 1
    rw [hsource]
    dsimp only
    rw [hpage, hone]
    exact if_pos ⟨rfl, rfl⟩
  rw [hverify, verifyExact_own hown.positive hown.identity hown.bytes, hexact, ok_bind,
    hcontent _ e (List.mem_of_getElem? hentry)]
  rfl

theorem settle_done {α : Type} {work : Database → Except EdgeError (Database × α)}
    {db db' : Database} {a : α} (h : work db = .ok (db', a)) :
    Fate.done.settle work db = (db', .ok a) := by
  unfold Fate.settle
  rw [h]

theorem advance_succeeds (id : Generation) (seq : ℤ) (db : Database) :
    ∃ db', advanceDeliveryStateTx id (deliveryStateTx id db).isSome seq db = .ok db' := by
  unfold advanceDeliveryStateTx
  cases hstored : deliveryStateTx id db with
  | some => exact ⟨_, rfl⟩
  | none =>
    have hfree := Table.find_eq_none.mp hstored
    have hfresh : Table.clash StateRow.key
        { StateRow.initial id with lastContiguousSeq := seq, highWatermark := seq } db.states =
        false := Table.clash_eq_false.mpr hfree
    simp only [Option.isSome_none, Bool.false_eq_true, if_false, hfresh]
    exact ⟨_, rfl⟩

theorem Ready.next (hrec : Recoverable c log judge) {db : Database} (h : Ready c log judge db)
    (hk : (deliveryState c.identity.key db).lastContiguousSeq = k) (hentry : log.entries[k]? = some e)
    (hturn : Answers c log judge turn) :
    ∃ db' outcome, c.apply turn (c.reconciled e) true db = (db', .ok outcome) ∧
      outcome.halts = false ∧ Ready c log judge db' ∧
      deliveryState c.identity.key db' = (deliveryState c.identity.key db).advance (k + 1) := by
  have hown := reconciled_own hrec hentry
  have hmem := List.mem_of_getElem? hentry
  have hseq := log.sequence_eq k e hentry
  have hnext : (c.reconciled e).deliverySeq = (k : ℤ) + 1 := hseq
  obtain ⟨k', l, hholds⟩ := h.holds
  have hsame : k' = k := by
    have hlast := hholds.last
    omega
  subst hsame
  -- the verdict can be settled against what the entries before it left
  obtain ⟨⟨verdict, reason, p⟩, hjudged⟩ : ∃ args, c.judged judge e = some args := by
    rcases judged_cases c judge e with ⟨reason, p, hrejected⟩ | ⟨p, haccepts⟩
    · exact ⟨_, hrejected⟩
    · exact ⟨_, haccepts⟩
  obtain ⟨t, j, hsettle, hcalm, -⟩ :=
    (replica_projected hrec hholds.replica).settle hrec hentry hjudged
  rw [← hholds.projection] at hsettle
  obtain ⟨db₁, hverdict, -⟩ := h.fronted.settle hsettle
  obtain ⟨hstates, hrows⟩ := settleVerdict_frame hverdict
  have hfree : Table.find DeliveryRow.key ((c.reconciled e).identity, (c.reconciled e).deliverySeq)
      db.deliveries = none := by
    rw [← Option.not_isSome_iff_eq_none, hown.identity,
      (h.sequenced c.identity.key).found_iff hown.positive]
    omega
  have hinsert : insertDelivery (c.store.journalRow (c.reconciled e) p j) db₁ =
      .ok { db₁ with deliveries := db₁.deliveries ++ [c.store.journalRow (c.reconciled e) p j] } := by
    unfold insertDelivery
    rw [if_neg]
    rw [Bool.not_eq_true, Table.clash_eq_false, hrows]
    exact Table.find_eq_none.mp hfree
  have hsamestates : deliveryStateTx (c.reconciled e).identity { db₁ with
      deliveries := db₁.deliveries ++ [c.store.journalRow (c.reconciled e) p j] } =
      deliveryStateTx (c.reconciled e).identity db := by
    unfold deliveryStateTx
    rw [hstates]
  obtain ⟨db₂, hadvanced⟩ := advance_succeeds (c.reconciled e).identity
    (c.reconciled e).deliverySeq { db₁ with
      deliveries := db₁.deliveries ++ [c.store.journalRow (c.reconciled e) p j] }
  rw [hsamestates] at hadvanced
  have hwritten : c.store.recordDelivery (c.reconciled e) verdict reason p
      (deliveryStateTx (c.reconciled e).identity db).isSome db = .ok (db₂, j.outcome) := by
    unfold DB.recordDelivery
    refine bind_eq_ok.mpr ⟨(db₁, j), hverdict, ?_⟩
    refine bind_eq_ok.mpr ⟨_, hinsert, ?_⟩
    exact bind_eq_ok.mpr ⟨db₂, hadvanced, rfl⟩
  have happlied : c.store.applyVerified (c.reconciled e) verdict reason p true db =
      .ok (db₂, j.outcome) := by
    unfold DB.applyVerified
    refine bind_eq_ok.mpr ⟨(), hrec.formed e hmem _ _ _ hjudged, ?_⟩
    refine ensure_bind_eq_ok.mpr ⟨beq_iff_eq.mpr hrec.tenant, ?_⟩
    unfold DB.applyTx
    dsimp only
    rw [hfree, hown.identity, hk, if_neg (by omega), if_neg (by simp [hnext])]
    rw [hown.identity] at hwritten
    exact hwritten
  have hargs := (hturn.judged hrec hentry).trans hjudged
  refine ⟨db₂, j.outcome, ?_, hcalm, h.apply hturn.faithful hown hargs happlied, ?_⟩
  · unfold JournalConsumer.apply
    rw [hargs, hturn.commits]
    dsimp only
    rw [settle_done happlied]
    rfl
  · obtain ⟨-, -, -, -, -, hstate⟩ := recordDelivery_ok c.store (c.reconciled e) verdict reason p
      hown.positive.le db db₂ j.outcome hwritten
    rw [hown.identity, hnext] at hstate
    exact hstate

end

/-! ### One pass -/

theorem Ready.batch (hrec : Recoverable c log judge) (entries : List EdgeDelivery)
    {db : Database} (h : Ready c log judge db) {k : ℕ}
    (hk : (deliveryState c.identity.key db).lastContiguousSeq = k)
    (hentries : ∀ i e, entries[i]? = some e → log.entries[k + i]? = some e) (turns : List Turn)
    (hturns : ∀ t ∈ turns, Answers c log judge t) (henough : entries.length ≤ turns.length) :
    ∃ db', c.applyBatch turns (entries.map c.reconciled) db = (db', .ok ()) ∧
      Ready c log judge db' ∧
      (deliveryState c.identity.key db').lastContiguousSeq = k + entries.length ∧
      (deliveryState c.identity.key db').mode = (deliveryState c.identity.key db).mode := by
  induction entries generalizing db k turns with
  | nil => exact ⟨db, by simp [JournalConsumer.applyBatch], h, by simpa using hk, rfl⟩
  | cons e rest ih =>
    cases turns with
    | nil => simp at henough
    | cons turn turns =>
      have hentry : log.entries[k]? = some e := hentries 0 e rfl
      obtain ⟨db₁, outcome, happly, hcalm, hready, hstate⟩ :=
        h.next hrec hk hentry (hturns turn List.mem_cons_self)
      have hlast : (deliveryState c.identity.key db₁).lastContiguousSeq = ((k + 1 : ℕ) : ℤ) := by
        rw [hstate]
        rfl
      obtain ⟨db', hrest, hready', hlast', hmode'⟩ := ih hready hlast
        (fun i x hx => by
          have hi := hentries (i + 1) x (by simpa using hx)
          rwa [Nat.add_assoc, Nat.add_comm 1 i])
        turns (fun t ht => hturns t (List.mem_cons_of_mem _ ht)) (by simpa using henough)
      refine ⟨db', ?_, hready', ?_, ?_⟩
      · rw [List.map_cons]
        unfold JournalConsumer.applyBatch
        rw [happly]
        simp only [hcalm, Bool.false_eq_true, if_false]
        exact hrest
      · rw [hlast']
        simp only [List.length_cons]
        omega
      · rw [hmode', hstate]
        rfl

theorem Ready.complete {db : Database} (h : Ready c log judge db)
    (hlast : (deliveryState c.identity.key db).lastContiguousSeq = log.entries.length)
    (hmode : (deliveryState c.identity.key db).mode = .reconciliationRequired) :
    ∃ db', completeReconciliation c.identity log.entries.length log.entries.length db =
        .ok (db', ()) ∧ Ready c log judge db' ∧
      deliveryState c.identity.key db' =
        { deliveryState c.identity.key db with mode := .active, reason := [] } := by
  have hwithin := h.within
  have hbounded := (h.sequenced c.identity.key).bounded
  have hhigh : (deliveryState c.identity.key db).highWatermark = log.entries.length := by omega
  obtain ⟨db', hcompleted, hstate⟩ :=
    completeReconciliation_succeeds c.identity (Int.natCast_nonneg _) h.keyed hmode hlast hhigh
  exact ⟨db', hcompleted, ready_move c log judge db db' (.complete _ _ _ hcompleted) h, hstate⟩

theorem contiguous_reconciled (c : JournalConsumer) (entries : List EdgeDelivery)
    (expected : ℤ) (hnumbered : ∀ i e, entries[i]? = some e → e.sequence = expected + (i : ℕ)) :
    c.contiguous expected (entries.map c.reconciled) = true := by
  induction entries generalizing expected with
  | nil => rfl
  | cons e rest ih =>
    have hsequence : e.sequence = expected := by
      have h := hnumbered 0 e rfl
      omega
    have hrest := ih (expected + 1) (fun i x hx => by
      have h := hnumbered (i + 1) x (by simpa using hx)
      omega)
    have hidentity : (c.reconciled e).identity = c.identity.key := rfl
    have hnumber : (c.reconciled e).deliverySeq = expected := hsequence
    rw [List.map_cons]
    unfold JournalConsumer.contiguous
    simp [hidentity, hnumber, hrest]

/-- Nothing fails for the time of the pass, the authority serves its log, and
there is a turn for every entry a page can hold. -/
structure Fair (c : JournalConsumer) (log : EdgeLog) (judge : Judge) (pass : Pass) :
    Prop where
  read : pass.readFails = false
  reread : pass.rereadFails = false
  commits : pass.fate = .done
  pages : ∀ after limit, pass.source c.identity.key after limit =
    some (deliveryPage log.entries after limit)
  turns : ∀ t ∈ pass.turns, Answers c log judge t
  enough : c.limit ≤ pass.turns.length

theorem Fair.batch {pass : Pass} (h : Fair c log judge pass) (hrec : Recoverable c log judge)
    {db : Database} (hready : Ready c log judge db) {k : ℕ}
    (hk : (deliveryState c.identity.key db).lastContiguousSeq = k) :
    ∃ page next, PageOf log k c.limit page next ∧
      (next < log.entries.length → (k : ℤ) + c.limit ≤ next) ∧
      c.batch pass.source (deliveryState c.identity.key db) =
        .ok ⟨page.deliveries.map c.reconciled, log.entries.length, next⟩ := by
  have hwithin := hready.within
  have hbounded := (hready.sequenced c.identity.key).bounded
  have hpage := pageOf log k c.limit (by omega) c.bounded.1
  have hmember : ∀ e ∈ (deliveryPage log.entries k c.limit).deliveries, e ∈ log.entries :=
    fun e he => mem_deliveryPage he
  refine ⟨_, _, hpage, by omega, ?_⟩
  have hforward := hpage.forward
  have hnext := hpage.within
  rcases hpage.reconciler (fun e he => hrec.complete e (hmember e he)) c rfl pass.source
      (h.pages k c.limit) with ⟨-, hfetch⟩ | ⟨e, he, hover, -⟩
  · have hbounds : (decide ((deliveryState c.identity.key db).highWatermark ≤ log.entries.length) &&
        decide ((k : ℤ) ≤ ((min (k + c.limit.toNat) log.entries.length : ℕ) : ℤ)) &&
        decide (((min (k + c.limit.toNat) log.entries.length : ℕ) : ℤ) ≤ log.entries.length)) =
        true := by
      simp only [Bool.and_eq_true, decide_eq_true_eq]
      omega
    have hrange : (((deliveryPage log.entries k c.limit).deliveries.map
        c.reconciled).length == ((min (k + c.limit.toNat) log.entries.length : ℕ) : ℤ) - k) =
        true := by
      rw [List.length_map, hpage.length, beq_iff_eq]
      omega
    unfold JournalConsumer.batch
    rw [hk, hfetch, ok_bind]
    simp only [hpage.highWatermark, hpage.completeThrough, hbounds, hrange, ensure_true, ok_bind,
      contiguous_reconciled c _ (k + 1) hpage.numbered]
    rfl
  · exact absurd (hrec.sized e (hmember e he)) (by omega)

structure Current (c : JournalConsumer) (log : EdgeLog) (db : Database) : Prop where
  mode : (deliveryState c.identity.key db).mode = .active
  last : (deliveryState c.identity.key db).lastContiguousSeq = log.entries.length
  high : (deliveryState c.identity.key db).highWatermark = log.entries.length

structure Halted (c : JournalConsumer) (node : Node) : Prop where
  flag : node.halted = true
  mode : (deliveryState c.identity.key node.db).mode = .reconciliationRequired

inductive Passed (c : JournalConsumer) (log : EdgeLog) (node after : Node)
    (result : ReconcileResult) : Prop where
  | resumed (resumed : result.resumed = true) (running : after.halted = false)
      (current : Current c log after.db)
  | progressed (resumed : result.resumed = false) (halted : Halted c after)
      (further : (deliveryState c.identity.key node.db).lastContiguousSeq + c.limit ≤
        (deliveryState c.identity.key after.db).lastContiguousSeq)
      (short : (deliveryState c.identity.key after.db).lastContiguousSeq < log.entries.length)

theorem Fair.reconcile {pass : Pass} (h : Fair c log judge pass) (hrec : Recoverable c log judge)
    {node : Node} (hready : Ready c log judge node.db) (hhalted : Halted c node) :
    ∃ after result, c.reconcile pass node = (after, .ok result) ∧ Ready c log judge after.db ∧
      Passed c log node after result := by
  obtain ⟨k, l, hholds⟩ := hready.holds
  obtain ⟨page, next, hpage, hfull, hbatch⟩ := h.batch hrec hready hholds.last
  have hforward := hpage.forward
  have hwithin := hpage.within
  have hshort := hpage.short
  have hlimit := h.enough
  obtain ⟨db, happlied, hready', hlast, hmode⟩ := hready.batch hrec page.deliveries hholds.last
    (fun i e he => by
      rw [hpage.deliveries, List.getElem?_take] at he
      split at he
      · rwa [List.getElem?_drop] at he
      · cases he)
    pass.turns h.turns (by rw [hpage.length]; omega)
  have hreached : (deliveryState c.identity.key db).lastContiguousSeq = (next : ℤ) := by
    rw [hlast, hpage.length]
    omega
  rw [hhalted.mode] at hmode
  have hpass : c.reconcile pass node = c.finish pass
      ⟨page.deliveries.map c.reconciled, log.entries.length, next⟩ { node with db := db } := by
    unfold JournalConsumer.reconcile
    simp only [hhalted.flag, h.read, hbatch, happlied, Bool.not_true, Bool.false_eq_true, if_false]
  rw [hpass]
  unfold JournalConsumer.finish
  simp only [h.reread, hreached, ne_eq, not_true_eq_false, Bool.false_eq_true, if_false]
  by_cases hend : next = log.entries.length
  · subst hend
    obtain ⟨db', hcompleted, hready'', hstate⟩ := hready'.complete hreached hmode
    have hhigh : (deliveryState c.identity.key db).highWatermark = log.entries.length := by
      have hupper := hready'.within
      have hlower := (hready'.sequenced c.identity.key).bounded
      omega
    simp only [not_true_eq_false, if_false, h.commits, settle_done hcompleted]
    refine ⟨_, _, rfl, hready'', .resumed rfl rfl ⟨?_, ?_, ?_⟩⟩
    · rw [hstate]
    · rw [hstate]
      exact hreached
    · rw [hstate]
      exact hhigh
  · have hne : ¬ ((next : ℤ) = log.entries.length) := by omega
    simp only [hne, not_false_eq_true, if_true]
    have hstart := hholds.last
    refine ⟨_, _, rfl, hready', .progressed rfl ⟨hhalted.flag, hmode⟩ ?_ ?_⟩
    · dsimp only
      omega
    · dsimp only
      omega

/-! ### The loops -/

theorem Ready.reached {db : Database} (h : Ready c log judge db) :
    (deliveryState c.identity.key db).lastContiguousSeq ≤ log.entries.length :=
  (h.sequenced c.identity.key).bounded.trans h.within

theorem reconcileEdge_fair (hrec : Recoverable c log judge) (passes : List Pass)
    (hfair : ∀ pass ∈ passes, Fair c log judge pass) {node : Node}
    (hready : Ready c log judge node.db) (hhalted : Halted c node)
    (henough : (log.entries.length : ℤ) <
      (deliveryState c.identity.key node.db).lastContiguousSeq + passes.length) :
    ∃ after, c.reconcileEdge passes node = (after, .ok ()) ∧ after.halted = false ∧
      Current c log after.db := by
  induction passes generalizing node with
  | nil =>
    have hreached := hready.reached
    simp only [List.length_nil, Nat.cast_zero, add_zero] at henough
    omega
  | cons pass passes ih =>
    obtain ⟨after, result, hpass, hready', hpassed⟩ :=
      (hfair pass List.mem_cons_self).reconcile hrec hready hhalted
    have hfair' : ∀ p ∈ passes, Fair c log judge p :=
      fun p hp => hfair p (List.mem_cons_of_mem _ hp)
    unfold JournalConsumer.reconcileEdge
    simp only [hhalted.flag, Bool.not_true, Bool.false_eq_true, if_false, hpass]
    cases hpassed with
    | resumed _ running current =>
      refine ⟨after, ?_, running, current⟩
      -- the next look at the flag ends the loop
      cases passes with
      | nil | cons => simp [JournalConsumer.reconcileEdge, running]
    | progressed _ halted further short =>
      have hpositive := c.bounded.1
      refine ih hfair' hready' halted ?_
      simp only [List.length_cons, Nat.cast_add, Nat.cast_one] at henough
      omega

theorem reconcileLoop_fair (hrec : Recoverable c log judge) (passes : List Pass)
    (hfair : ∀ pass ∈ passes, Fair c log judge pass) {node : Node}
    (hready : Ready c log judge node.db) (hhalted : Halted c node)
    (henough : (log.entries.length : ℤ) <
      (deliveryState c.identity.key node.db).lastContiguousSeq + passes.length) :
    ∃ db, c.reconcileLoop passes node = (db, .ok ()) ∧ Current c log db := by
  induction passes generalizing node with
  | nil =>
    have hreached := hready.reached
    simp only [List.length_nil, Nat.cast_zero, add_zero] at henough
    omega
  | cons pass passes ih =>
    obtain ⟨after, result, hpass, hready', hpassed⟩ :=
      (hfair pass List.mem_cons_self).reconcile hrec hready hhalted
    have hfair' : ∀ p ∈ passes, Fair c log judge p :=
      fun p hp => hfair p (List.mem_cons_of_mem _ hp)
    unfold JournalConsumer.reconcileLoop
    simp only [hhalted.flag, Bool.not_true, Bool.false_eq_true, if_false, hpass]
    cases hpassed with
    | resumed resumed _ current => exact ⟨after.db, by simp [resumed], current⟩
    | progressed resumed halted further short =>
      have hpositive := c.bounded.1
      have hmoved : ¬ (deliveryState c.identity.key after.db).lastContiguousSeq ≤
          (deliveryState c.identity.key node.db).lastContiguousSeq := by omega
      simp only [resumed, Bool.false_eq_true, if_false, hmoved]
      refine ih hfair' hready' halted ?_
      simp only [List.length_cons, Nat.cast_add, Nat.cast_one] at henough
      omega

/-- From every edge state a run can lead to, with whatever the carrier forged on
the way, the watermark is within the log. A fair pass of a halted consumer
succeeds, and it resumes, exactly at the end of the log, or moves on. Both loops
end, after no more passes than there are entries left and one, with the edge
active at the end of the log. -/
theorem reconciliation_progress (c : JournalConsumer) (log : EdgeLog) (judge : Judge)
    (hrec : Recoverable c log judge) (es : List Event)
    (hturns : ∀ e ∈ es, ∀ t ∈ e.turns, Faithful c log judge t)
    (hfronts : ∀ e ∈ es, ∀ f ∈ e.frontWork, Tidy f) :
    let node := (c.run {} es).node
    let last := fun n : Node => (deliveryState c.identity.key n.db).lastContiguousSeq
    (deliveryState c.identity.key node.db).highWatermark ≤ log.entries.length ∧
    (Halted c node →
      (∀ pass, Fair c log judge pass → ∃ after result,
        c.reconcile pass node = (after, .ok result) ∧
        (result.resumed = true ∧ Current c log after.db ∨ last node < last after) ∧
        (result.resumed = true ↔ last after = log.entries.length)) ∧
      ∀ passes, (∀ pass ∈ passes, Fair c log judge pass) →
        (log.entries.length : ℤ) < last node + passes.length →
        ∃ after, c.reconcileEdge passes node = (after, .ok ()) ∧ after.halted = false ∧
          Current c log after.db) ∧
    ∀ passes, (∀ pass ∈ passes, Fair c log judge pass) →
      (log.entries.length : ℤ) < last node + passes.length →
      ∃ after, c.reconcileAuthoritative .done passes node = (after, .ok ()) ∧
        Current c log after.db := by
  intro node last
  have hready := run_ready hturns hfronts
  refine ⟨hready.within, ?_, ?_⟩
  · intro hhalted
    refine ⟨?_, ?_⟩
    · intro pass hfair
      obtain ⟨after, result, hpass, -, hpassed⟩ := hfair.reconcile hrec hready hhalted
      refine ⟨after, result, hpass, ?_⟩
      cases hpassed with
      | resumed resumed _ current =>
        exact ⟨.inl ⟨resumed, current⟩, iff_of_true resumed current.last⟩
      | progressed resumed _ further short =>
        have hmoved := lt_of_lt_of_le (lt_add_of_pos_right _ c.bounded.1) further
        refine ⟨.inr hmoved, iff_of_false (by simp [resumed]) ?_⟩
        exact ne_of_lt short
    · intro passes hfair henough
      exact reconcileEdge_fair hrec passes hfair hready hhalted henough
  · intro passes hfair henough
    have hhigh : 0 ≤ (deliveryState c.identity.key node.db).highWatermark := by
      have hnonneg := (hready.sequenced c.identity.key).nonneg
      have hbounded := (hready.sequenced c.identity.key).bounded
      exact le_trans hnonneg hbounded
    have hrequired : requireReconciliation c.identity
        (deliveryState c.identity.key node.db).highWatermark
        (text "authoritative_reconciliation") node.db =
        .ok (requireReconciliationTx (deliveryState c.identity.key node.db)
          (deliveryState c.identity.key node.db).highWatermark
          (text "authoritative_reconciliation") node.db, ()) := by
      unfold requireReconciliation
      rw [decide_eq_true hhigh]
      rfl
    have hready' := ready_move c log judge node.db _
      (.require _ (text "authoritative_reconciliation") (le_max_right _ _)) hready
    have hstate := deliveryState_require c.identity.key
      (deliveryState c.identity.key node.db).highWatermark (text "authoritative_reconciliation")
      node.db
    unfold JournalConsumer.reconcileAuthoritative
    rw [settle_done hrequired]
    dsimp only
    have hstart : Halted c (c.start (requireReconciliationTx (deliveryState c.identity.key node.db)
        (deliveryState c.identity.key node.db).highWatermark
        (text "authoritative_reconciliation") node.db)) :=
      ⟨by simp [JournalConsumer.start, hstate, StateRow.require],
        by simp [JournalConsumer.start, hstate, StateRow.require]⟩
    obtain ⟨db, hloop, hcurrent⟩ := reconcileLoop_fair hrec passes hfair hready' hstart (by
      show _ < (deliveryState c.identity.key (requireReconciliationTx _ _ _ _)).lastContiguousSeq + _
      rw [hstate]
      exact henough)
    rw [hloop]
    exact ⟨_, rfl, hcurrent⟩

namespace Sample

def answered : Advice :=
  ⟨[97], [99], digest, [116], [101], .edge, edgeRoutingToken sha256 [101] 1, 1, 1, 1, digest, 0⟩

def answer : VerifiedProjection := ⟨[119], digest, .advice, none, some answered⟩

def answeredLog : EdgeLog :=
  ⟨[⟨1, .case, [99], [118], digest, [7], 1⟩, ⟨2, .advice, [99], [119], digest, [8], 1⟩], rfl⟩

def answeredJudge : Judge := fun e => if e.sequence = 1 then .ok projection else .ok answer

theorem accepted_cases {k : ℕ} {p : VerifiedProjection}
    (h : AcceptedAt consumer answeredLog answeredJudge k p) :
    k = 0 ∧ p = projection ∨ k = 1 ∧ p = answer := by
  obtain ⟨e, he, haccepts⟩ := h
  unfold JournalConsumer.Accepts at haccepts
  match k, he with
  | 0, he =>
    cases he
    have hjudged : consumer.judged answeredJudge ⟨1, .case, [99], [118], digest, [7], 1⟩ =
        some (.accepted, [], some projection) := by decide
    rw [hjudged] at haccepts
    cases haccepts
    exact .inl ⟨rfl, rfl⟩
  | 1, he =>
    cases he
    have hjudged : consumer.judged answeredJudge ⟨2, .advice, [99], [119], digest, [8], 1⟩ =
        some (.accepted, [], some answer) := by decide
    rw [hjudged] at haccepts
    cases haccepts
    exact .inr ⟨rfl, rfl⟩
  | k + 2, he => simp [answeredLog] at he

theorem answered_opens : Opens consumer answeredLog answeredJudge 0 projection opened :=
  ⟨⟨_, rfl, by unfold JournalConsumer.Accepts; decide⟩, rfl, rfl,
    fun i hi => absurd hi (Nat.not_lt_zero i), fun i hi => absurd hi (Nat.not_lt_zero i)⟩

theorem answered_recoverable : Recoverable consumer answeredLog answeredJudge where
  tenant := rfl
  complete := by
    intro e he
    simp only [answeredLog, List.mem_cons, List.not_mem_nil, or_false] at he
    rcases he with rfl | rfl
    · exact ⟨by decide, by decide, by decide, by decide, by decide, by decide⟩
    · exact ⟨by decide, by decide, by decide, by decide, by decide, by decide⟩
  sized := by
    intro e he
    simp only [answeredLog, List.mem_cons, List.not_mem_nil, or_false] at he
    rcases he with rfl | rfl
    · decide
    · decide
  formed := by
    intro e he verdict reason p hjudged
    simp only [answeredLog, List.mem_cons, List.not_mem_nil, or_false] at he
    rcases he with rfl | rfl
    · have hargs : consumer.judged answeredJudge ⟨1, .case, [99], [118], digest, [7], 1⟩ =
          some (.accepted, [], some projection) := by decide
      rw [hargs] at hjudged
      cases hjudged
      decide
    · have hargs : consumer.judged answeredJudge ⟨2, .advice, [99], [119], digest, [8], 1⟩ =
          some (.accepted, [], some answer) := by decide
      rw [hargs] at hjudged
      cases hjudged
      decide
  unconflicted := by
    intro i j p q hp hq _
    rcases accepted_cases hp with ⟨-, rfl⟩ | ⟨-, rfl⟩
    · rcases accepted_cases hq with ⟨-, rfl⟩ | ⟨-, rfl⟩
      · rfl
      · rfl
    · rcases accepted_cases hq with ⟨-, rfl⟩ | ⟨-, rfl⟩
      · rfl
      · rfl
  bound := by
    intro k p advice hp hfamily hadvice
    rcases accepted_cases hp with ⟨-, rfl⟩ | ⟨rfl, rfl⟩
    · cases hfamily
    · cases hadvice
      exact ⟨0, projection, opened, Nat.one_pos, answered_opens, rfl, by decide⟩

def answeredSource : DeliverySource := fun _ after limit =>
  some (deliveryPage answeredLog.entries after limit)

def answeredTurn : Turn :=
  ⟨verifyExact [116] answeredSource fun _ e => (answeredJudge e).mapError .permanent, .done⟩

theorem answeredTurn_answers : Answers consumer answeredLog answeredJudge answeredTurn :=
  ⟨rfl, answeredSource, _, rfl, fun _ _ => rfl, fun _ _ _ => rfl⟩

def fairPass : Pass := ⟨false, answeredSource, List.replicate 10 answeredTurn, false, .done⟩

theorem fairPass_fair : Fair consumer answeredLog answeredJudge fairPass where
  read := rfl
  reread := rfl
  commits := rfl
  pages := fun _ _ => rfl
  turns := fun _ ht => List.eq_of_mem_replicate ht ▸ answeredTurn_answers
  enough := by decide

def foreign : List Event :=
  [.handleNext (.message ⟨some (streamName, 1), edgeDeliverySubject sha256 identity, [9],
    [(headerOutboxID, [111]), (headerFactSequence, [49]), (headerDeliverySequence, [49]),
      (headerEdgeGeneration, [50])]⟩) answeredTurn false .confirmed]

end Sample

theorem reconciliation_progress_sample :
    Halted Sample.consumer (Sample.consumer.run {} Sample.foreign).node ∧
      ∃ after, Sample.consumer.reconcileEdge [Sample.fairPass, Sample.fairPass, Sample.fairPass]
        (Sample.consumer.run {} Sample.foreign).node = (after, .ok ()) ∧ after.halted = false ∧
        Current Sample.consumer Sample.answeredLog after.db := by
  have hhalted : Halted Sample.consumer (Sample.consumer.run {} Sample.foreign).node :=
    ⟨by decide, by decide⟩
  refine ⟨hhalted, ?_⟩
  obtain ⟨-, hloops, -⟩ := reconciliation_progress Sample.consumer Sample.answeredLog
    Sample.answeredJudge Sample.answered_recoverable Sample.foreign
    (by
      intro e he t ht
      cases List.mem_singleton.mp he
      cases List.mem_singleton.mp ht
      exact Sample.answeredTurn_answers.faithful)
    (by
      intro e he f hf
      cases List.mem_singleton.mp he
      cases hf)
  refine (hloops hhalted).2 [Sample.fairPass, Sample.fairPass, Sample.fairPass] ?_ (by decide)
  intro pass hpass
  have hsame : pass = Sample.fairPass := by simpa using hpass
  exact hsame ▸ Sample.fairPass_fair

end Snagline.Edge
