import Snagline.Authority.Concurrent
import Snagline.Authority.Constraints
import Snagline.Kit.Snapshot

/-!
# Commit transactions on snapshots (store.go:46-349, 558-617)

The three commit bodies on the snapshot machine, with the tables themselves as
its state. A commit adds the session's rows, keeps the unique keys of the
schema, and rewrites a row of the heads, the high water or the sequences only if
no other session has rewritten it since the snapshot. The server's SERIALIZABLE
level refuses more commits than that; none of the results needs it to.
-/

namespace Snagline.Authority
open Kit Ssp Snapshot

structure Installs (s v d d' : Database) : Prop where
  revisions : Appends s.revisions v.revisions d.revisions d'.revisions
  cases : Appends s.cases v.cases d.cases d'.cases
  advice : Appends s.advice v.advice d.advice d'.advice
  registries : Appends s.registries v.registries d.registries d'.registries
  deliveries : Appends s.deliveries v.deliveries d.deliveries d'.deliveries
  audit : Appends s.audit v.audit d.audit d'.audit
  outbox : Appends s.outbox v.outbox d.outbox d'.outbox
  sequences : Replaces SequenceRow.key s.sequences v.sequences d.sequences d'.sequences
  heads : Replaces HeadRow.tenantID s.heads v.heads d.heads d'.heads
  highWater : Replaces HighWaterRow.key s.highWater v.highWater d.highWater d'.highWater
  unique : Constrained d'

def Sql.drawsRevision : Sql → Bool
  | .insertRevision => true
  | _ => false

theorem exec_steady (s : Sql) (h : s.drawsRevision = false) (t t' : ℤ) (db : Database) :
    s.exec t db = s.exec t' db := by
  cases s with
  | insertRevision => cases h
  | _ => rfl

def commitEngine : Engine Sql Sql.Reply SqlState Database where
  exec := Sql.exec
  draws := Sql.drawsRevision
  steady := exec_steady
  installs := Installs

abbrev Server :=
  Snapshot.Server Sql Sql.Reply SqlState StoreError (Except StoreError CommitReceipt) Database

variable (store : Store)

/-- The states of the server, from empty tables, under any interleaving of commit calls. -/
def Store.Reaches (σ : Server) : Prop :=
  Steps commitEngine store.Starts (start {}) σ

/-! ### Every body draws one revision at most -/

section
variable (store : Store)

theorem draws_query {s : Sql} {wrap : SqlState → StoreError} (h : s.drawsRevision = false) :
    AtMost Sql.drawsRevision 0 (query s wrap) := by
  have hstmt := @atMost_stmt Sql Sql.Reply SqlState StoreError Sql.drawsRevision s wrap
  rw [h] at hstmt
  exact hstmt

theorem draws_allocateRevision : AtMost Sql.drawsRevision 1 allocateRevision :=
  atMost_stmt Sql.insertRevision _

theorem draws_insertOutbox (tenantID : Bytes) (kind : EntityKind)
    (entityID raw : Bytes) (revision : ℤ) (destinations : List (DestinationKind × Bytes)) :
    AtMost Sql.drawsRevision 0
      (store.insertOutbox tenantID kind entityID raw revision destinations) := by
  induction destinations with
  | nil => trivial
  | cons d rest ih => exact quiet_bind (draws_query rfl) fun _ => ih

theorem draws_liveHead (tenantID : Bytes) : AtMost Sql.drawsRevision 0 (liveHead tenantID) := by
  unfold liveHead registryHeadForUpdate
  refine bind_quiet (draws_query rfl) ?_
  intro head
  cases head with
  | none => trivial
  | some => exact bind_quiet atMost_require fun _ => trivial

theorem draws_writeCase (r : CommitCaseRequest) :
    AtMost Sql.drawsRevision 1 (store.writeCase r) := by
  unfold Store.writeCase
  refine bind_quiet draws_allocateRevision fun revision => ?_
  refine bind_quiet (draws_query rfl) fun _ => ?_
  refine bind_quiet (draws_query rfl) fun sequence => ?_
  refine bind_quiet (draws_query rfl) fun _ => ?_
  refine bind_quiet (draws_query rfl) fun _ => ?_
  exact bind_quiet (draws_insertOutbox store _ _ _ _ _ _) fun _ => trivial

theorem draws_commitCase (r : CommitCaseRequest) :
    AtMost Sql.drawsRevision 1 (store.commitCase r) := by
  have hexisting : AtMost Sql.drawsRevision 0 (existingCase r) := by
    unfold existingCase
    refine bind_quiet (draws_query rfl) fun row => ?_
    cases row with
    | none => trivial
    | some => exact bind_quiet atMost_require fun _ => trivial
  unfold Store.commitCase
  refine quiet_bind hexisting fun existing => ?_
  cases existing with
  | some => trivial
  | none =>
    refine quiet_bind (draws_liveHead _) fun head => ?_
    refine quiet_bind atMost_require fun _ => ?_
    refine quiet_bind (draws_query rfl) fun collision => ?_
    refine quiet_bind atMost_require fun _ => ?_
    exact bind_quiet (draws_writeCase store r) fun _ => trivial

theorem draws_writeAdvice (r : CommitAdviceRequest) (case : CaseRow) :
    AtMost Sql.drawsRevision 1 (store.writeAdvice r case) := by
  unfold Store.writeAdvice
  refine quiet_bind (draws_query rfl) fun sequence => ?_
  refine bind_quiet draws_allocateRevision fun revision => ?_
  refine bind_quiet (draws_query rfl) fun _ => ?_
  refine bind_quiet (draws_query rfl) fun _ => ?_
  refine bind_quiet (draws_query rfl) fun _ => ?_
  exact bind_quiet (draws_insertOutbox store _ _ _ _ _ _) fun _ => trivial

theorem draws_commitAdvice (r : CommitAdviceRequest) :
    AtMost Sql.drawsRevision 1 (store.commitAdvice r) := by
  have hexisting : AtMost Sql.drawsRevision 0 (existingAdvice r) := by
    unfold existingAdvice
    refine bind_quiet (draws_query rfl) fun row => ?_
    cases row with
    | none => trivial
    | some =>
      simp only
      split <;> trivial
  have hadmit : AtMost Sql.drawsRevision 1 (store.admitAdvice r) := by
    unfold Store.admitAdvice
    refine quiet_bind (draws_query rfl) fun case => ?_
    cases case with
    | none => trivial
    | some case =>
      refine quiet_bind atMost_require fun _ => ?_
      refine quiet_bind (draws_query rfl) fun collision => ?_
      exact quiet_bind atMost_require fun _ => draws_writeAdvice store r case
  unfold Store.commitAdvice
  refine quiet_bind hexisting fun existing => ?_
  cases existing with
  | exact => trivial
  | different => exact quiet_bind (draws_liveHead _) fun _ => trivial
  | absent =>
    refine quiet_bind (draws_liveHead _) fun head => ?_
    exact bind_quiet hadmit fun _ => trivial

theorem draws_haltRegistryHead (tenantID reason : Bytes) (e : StoreError) :
    AtMost Sql.drawsRevision 0 (haltRegistryHead tenantID reason e) := by
  unfold haltRegistryHead
  refine bind_quiet (draws_query rfl) fun affected => ?_
  exact bind_quiet atMost_require fun _ => trivial

variable (r : CommitRegistryRequest)

theorem draws_enforceEdgeGenerationHighWater (head : Option HeadRow)
    (edges : List (Bytes × RegistryEdge)) :
    AtMost Sql.drawsRevision 0 (enforceEdgeGenerationHighWater r head edges) := by
  induction edges with
  | nil => trivial
  | cons e rest ih =>
    refine bind_quiet (draws_query rfl) fun known => ?_
    refine bind_quiet atMost_require fun _ => ?_
    exact bind_quiet (draws_query rfl) fun _ => ih

theorem draws_writeRegistry (head : Option HeadRow) :
    AtMost Sql.drawsRevision 1 (store.writeRegistry r head) := by
  have hhead : AtMost Sql.drawsRevision 0 (writeHead r head) := by
    cases head with
    | none | some => exact draws_query rfl
  unfold Store.writeRegistry
  refine quiet_bind (draws_query rfl) fun collision => ?_
  refine quiet_bind atMost_require fun _ => ?_
  refine quiet_bind (draws_enforceEdgeGenerationHighWater r head _) fun _ => ?_
  refine bind_quiet draws_allocateRevision fun revision => ?_
  refine bind_quiet (draws_query rfl) fun _ => ?_
  refine bind_quiet hhead fun _ => ?_
  exact bind_quiet (draws_query rfl) fun _ => trivial

theorem draws_commitRegistry : AtMost Sql.drawsRevision 1 (store.commitRegistry r) := by
  have hhalt : ∀ reason e, AtMost Sql.drawsRevision 1 (haltRegistryHead r.tenantID reason e) :=
    fun reason e => (draws_haltRegistryHead r.tenantID reason e).mono (Nat.zero_le 1)
  unfold Store.commitRegistry registryHeadForUpdate
  refine quiet_bind (draws_query rfl) fun head => ?_
  cases head with
  | none =>
    refine quiet_bind atMost_require fun _ => ?_
    exact bind_quiet (draws_writeRegistry store r none) fun _ => trivial
  | some =>
    refine quiet_bind atMost_require fun _ => ?_
    split
    · exact hhalt _ _
    · split
      · have hexisting : AtMost Sql.drawsRevision 0 (existingRegistry r) := by
          unfold existingRegistry
          refine bind_quiet (draws_query rfl) fun row => ?_
          cases row with
          | none => trivial
          | some row =>
            simp only
            split <;> trivial
        refine quiet_bind hexisting fun existing => ?_
        cases existing with
        | some receipt => trivial
        | none => exact hhalt _ _
      · refine quiet_bind atMost_require fun _ => ?_
        split
        · exact bind_quiet (draws_writeRegistry store r _) fun _ => trivial
        · exact hhalt _ _

theorem starts_draw_once (p : Body (Except StoreError CommitReceipt))
    (h : store.Starts p) : AtMost Sql.drawsRevision 1 p := by
  obtain ⟨c, -, rfl⟩ := h
  cases c with
  | case r => exact draws_commitCase store r
  | advice r => exact draws_commitAdvice store r
  | registry r => exact draws_commitRegistry store r

end

/-! ### What a finished session did -/

theorem unfolds_run {t : ℤ} {p q : Body (Except StoreError CommitReceipt)} {s v : Database}
    (h : Unfolds commitEngine t p s q v) :
    Prog.run World.exec p ⟨s, [], t⟩ = Prog.run World.exec q ⟨v, [], t⟩ := by
  induction h with
  | refl => rfl
  | @reply stmt k v v' r before done ih =>
    have hexec : World.exec stmt ⟨v, [], t⟩ = .ok (r, ⟨v', [], t⟩) := by
      have hdone : stmt.exec t v = .ok (r, v') := done
      simp only [World.exec, List.head?_nil, Option.join_none, hdone, Except.map, List.tail_nil]
    rw [ih]
    simp only [Prog.run, hexec]

theorem finished_change {store : Store} {p : Body (Except StoreError CommitReceipt)}
    (hp : store.Starts p) {s v : Database} {n m : ℤ} (hn : 0 ≤ n)
    {result : Except StoreError CommitReceipt} {drawn : Option ℤ}
    (h : Progress commitEngine p s n m v (.ret result) drawn) :
    ∃ c, Change s c v ∧ (v.revisions = s.revisions ∨
      ∃ t, n < t ∧ t ≤ m ∧ v.revisions = s.revisions ++ [t]) := by
  obtain ⟨c, hvalid, rfl⟩ := hp
  have hchange : ∀ t, 0 < t → Unfolds commitEngine t (store.body c) s (.ret result) v →
      Change s c v ∧ (v.revisions = s.revisions ∨ v.revisions = s.revisions ++ [t]) :=
    fun t ht hrun => body_change hvalid ht (unfolds_run hrun)
  cases h with
  | before _ once run =>
    -- the outcome does not depend on the ticket, so none is among the rows
    obtain ⟨hdone, hone⟩ := hchange 1 (by omega) (run 1)
    obtain ⟨-, htwo⟩ := hchange 2 (by omega) (run 2)
    refine ⟨c, hdone, Or.inl ?_⟩
    rcases hone with hsame | hone
    · exact hsame
    · rcases htwo with hsame | htwo
      · exact hsame
      · rw [hone] at htwo
        have htickets := List.append_cancel_left htwo
        simp at htickets
  | after _ t later drawn none run =>
    obtain ⟨hdone, hrevisions⟩ := hchange t (by omega) run
    refine ⟨c, hdone, ?_⟩
    rcases hrevisions with hsame | hdrew
    · exact Or.inl hsame
    · exact Or.inr ⟨t, later, drawn, hdrew⟩

/-! ### A history of attempts is a run of the machine -/

theorem session_runs (id : ℕ) (p : Body (Except StoreError CommitReceipt)) (w w' : World)
    (result : Except StoreError CommitReceipt) (σ : Server) (s : Database) (drawn : Option ℤ)
    (hrun : Prog.run World.exec p w = .ok (result, w'))
    (hat : σ.running id = some ⟨p, s, w.db, drawn⟩) (hdraw : Drawable σ.counter w) :
    ∃ (σ' : Server) (drawn' : Option ℤ), Steps commitEngine store.Starts σ σ' ∧
      σ'.running id = some ⟨.ret result, s, w'.db, drawn'⟩ ∧ σ'.committed = σ.committed ∧
      σ'.counter ≤ max σ.counter w.revision ∧
      ∀ other, other ≠ id → σ'.running other = σ.running other := by
  induction p generalizing w σ drawn with
  | ret =>
    cases hrun
    exact ⟨σ, drawn, .refl, hat, rfl, le_max_left _ _, fun _ _ => rfl⟩
  | fail => cases hrun
  | call q k ih =>
    simp only [Prog.run] at hrun
    cases hexec : World.exec q w with
    | error f =>
      rw [hexec] at hrun
      let σ₁ : Server := σ.put id (some ⟨k (.error f), s, w.db, drawn⟩)
      have hstep : Step commitEngine store.Starts σ σ₁ := .fault σ id q k s w.db drawn f hat
      obtain ⟨σ', drawn', hsteps, hended, hcommitted, hcounter, hothers⟩ :=
        ih (.error f) w σ₁ drawn hrun put_self hdraw
      refine ⟨σ', drawn', hsteps.head hstep, hended, hcommitted, hcounter, ?_⟩
      intro other hne
      exact (hothers other hne).trans (put_other _ hne _)
    | ok x =>
      obtain ⟨r, w₁⟩ := x
      rw [hexec] at hrun
      obtain ⟨hq, hrev⟩ := exec_ok hexec
      have hkept := exec_revisions hq
      cases hquiet : q.drawsRevision with
      | false =>
        have hdone : q.exec (σ.counter + 1) w.db = .ok (r, w₁.db) :=
          (exec_steady q hquiet _ _ _).trans hq
        let σ₁ : Server := σ.put id (some ⟨k (.ok r), s, w₁.db, drawn⟩)
        have hstep : Step commitEngine store.Starts σ σ₁ :=
          .reply σ id q k s w.db w₁.db drawn r hat hquiet hdone
        have hdraw₁ : Drawable σ.counter w₁ := by
          rcases hdraw with hnext | hused
          · exact Or.inl (hnext.trans hrev.symm)
          · exact Or.inr (hrev ▸ hkept hused)
        obtain ⟨σ', drawn', hsteps, hended, hcommitted, hcounter, hothers⟩ :=
          ih (.ok r) w₁ σ₁ drawn hrun put_self hdraw₁
        refine ⟨σ', drawn', hsteps.head hstep, hended, hcommitted, hrev ▸ hcounter, ?_⟩
        intro other hne
        exact (hothers other hne).trans (put_other _ hne _)
      | true =>
        cases q with
        | insertRevision =>
          obtain ⟨rfl, hunused, hdb⟩ := insertRevision_ok hq
          have hnext : σ.counter + 1 = w.revision := hdraw.resolve_right hunused
          have hdone : Sql.insertRevision.exec (σ.counter + 1) w.db = .ok (w.revision, w₁.db) :=
            hnext ▸ hq
          let σ₁ : Server :=
            { σ.put id (some ⟨k (.ok w.revision), s, w₁.db, some (σ.counter + 1)⟩) with
              counter := σ.counter + 1 }
          have hstep : Step commitEngine store.Starts σ σ₁ :=
            .draw σ id .insertRevision k s w.db w₁.db drawn w.revision hat rfl hdone
          have hdraw₁ : Drawable (σ.counter + 1) w₁ := by
            refine Or.inr ?_
            rw [hrev, hdb]
            exact List.mem_append_right _ (List.mem_singleton_self _)
          obtain ⟨σ', drawn', hsteps, hended, hcommitted, hcounter, hothers⟩ :=
            ih (.ok w.revision) w₁ σ₁ _ hrun put_self hdraw₁
          refine ⟨σ', drawn', hsteps.head hstep, hended, hcommitted, ?_, ?_⟩
          · refine hcounter.trans ?_
            rw [hrev]
            exact max_le (hnext ▸ le_max_right _ _) (le_max_right _ _)
          · intro other hne
            exact (hothers other hne).trans (put_other σ hne _)
        | _ => cases hquiet

theorem Change.installs {db db' : Database} {c : Call} (h : Change db c db')
    (hdb : Constrained db) :
    Installs db db' db db' := by
  have hunique := hdb.change h
  have halone : ∀ {ρ : Type} {s v new : List ρ}, v = s ++ new → Appends s v s v :=
    fun hv => ⟨_, hv, hv⟩
  have hsame : ∀ {ρ : Type} {s v : List ρ}, v = s → Appends s v s v := by
    intro ρ s v hv
    rw [hv]
    exact appends_same s s
  cases h with
  | none | halted =>
    exact ⟨hsame rfl, hsame rfl, hsame rfl, hsame rfl, hsame rfl, hsame rfl, hsame rfl,
      replaces_alone, replaces_alone, replaces_alone, hunique⟩
  | case r revision written =>
    obtain ⟨id, hout⟩ := written.outbox
    exact ⟨halone written.revisions, halone written.cases, hsame written.advice,
      hsame written.registries, halone written.deliveries, halone written.audit, halone hout,
      replaces_alone, replaces_alone, replaces_alone, hunique⟩
  | advice r c revision written =>
    obtain ⟨id, hout⟩ := written.outbox
    exact ⟨halone written.revisions, hsame written.cases, halone written.advice,
      hsame written.registries, halone written.deliveries, halone written.audit, halone hout,
      replaces_alone, replaces_alone, replaces_alone, hunique⟩
  | registry r revision written =>
    exact ⟨halone written.revisions, hsame written.cases, hsame written.advice,
      halone written.registries, hsame written.deliveries, halone written.audit,
      hsame written.outbox, replaces_alone, replaces_alone, replaces_alone,
      hunique⟩

theorem counter_skips (σ : Server) (n : ℕ) :
    Steps commitEngine store.Starts σ { σ with counter := σ.counter + n } := by
  induction n with
  | zero => simpa using Relation.ReflTransGen.refl
  | succ n ih =>
    refine ih.tail ?_
    have hskip : Step commitEngine store.Starts { σ with counter := σ.counter + n }
        { σ with counter := σ.counter + n + 1 } := .skip _
    rw [show σ.counter + (↑(n + 1) : ℤ) = σ.counter + n + 1 by push_cast; ring]
    exact hskip

theorem attempt_reached (e : Event) (σ : Server) (hidle : ∀ id, σ.running id = none)
    (hdb : Constrained σ.committed) (hcounter : σ.counter ≤ e.env.nextval) :
    ∃ σ' : Server, Steps commitEngine store.Starts σ σ' ∧ (∀ id, σ'.running id = none) ∧
      σ'.committed = store.step σ.committed e ∧ σ'.counter ≤ e.env.nextval + 1 := by
  rcases step_body store σ.committed e with hsame | ⟨result, w, hvalid, hw, hrun⟩
  · exact ⟨σ, .refl, hidle, hsame.symm, by omega⟩
  · obtain ⟨n, hn⟩ := Int.le.dest hcounter
    let σ₁ : Server := { σ with counter := σ.counter + n }
    let σ₂ : Server := σ₁.put 0 (some ⟨store.body e.call, σ.committed, σ.committed, none⟩)
    have hbegin : Step commitEngine store.Starts σ₁ σ₂ :=
      .begin σ₁ 0 _ (hidle 0) ⟨e.call, hvalid, rfl⟩
    have hdraw : Drawable σ₂.counter ⟨σ.committed, e.env.faults, e.env.nextval + 1⟩ :=
      Or.inl (by show σ.counter + n + 1 = _; rw [hn])
    obtain ⟨σ₃, drawn, hsteps, hended, hcommitted, hcount, hothers⟩ := session_runs store 0 _ _ w
      result σ₂ σ.committed none hrun put_self hdraw
    have hinstalls : Installs σ.committed w.db σ₃.committed w.db := by
      rw [hcommitted]
      exact (hw ▸ step_change store σ.committed e).installs hdb
    refine ⟨_, ((counter_skips store σ n).tail hbegin).trans
      (hsteps.tail (.commit σ₃ 0 result σ.committed w.db w.db drawn hended hinstalls)), ?_, hw, ?_⟩
    · intro other
      show (σ₃.put 0 none).running other = none
      by_cases h : other = 0
      · rw [h, put_self]
      · rw [put_other _ h, hothers other h, put_other _ h]
        exact hidle other
    · show σ₃.counter ≤ _
      have hnext : σ₂.counter = e.env.nextval := hn
      rw [hnext] at hcount
      exact hcount.trans (max_le (by omega) le_rfl)

theorem history_reached (es : List Event) (hcounted : Counted 0 es) :
    ∃ σ : Server, store.Reaches σ ∧ σ.committed = store.run {} es := by
  have hgeneral : ∀ (es : List Event) (n : ℕ) (σ : Server), Counted n es →
      (∀ id, σ.running id = none) → Constrained σ.committed → σ.counter ≤ n →
      ∃ σ' : Server, Steps commitEngine store.Starts σ σ' ∧
        σ'.committed = store.run σ.committed es := by
    intro es
    induction es with
    | nil => exact fun n σ _ _ _ _ => ⟨σ, .refl, rfl⟩
    | cons e es ih =>
      intro n σ hcounted hidle hdb hle
      obtain ⟨hn, hrest⟩ := hcounted
      obtain ⟨σ₁, hsteps, hidle₁, hdb₁, hcounter₁⟩ := attempt_reached store e σ hidle hdb (by omega)
      have hconstrained : Constrained σ₁.committed := by
        rw [hdb₁]
        exact hdb.change (step_change store σ.committed e)
      obtain ⟨σ', hsteps', hdb'⟩ := ih (e.env.nextval + 1) σ₁ hrest hidle₁ hconstrained
        (by push_cast; exact hcounter₁)
      exact ⟨σ', hsteps.trans hsteps', by rw [hdb', hdb₁]; rfl⟩
  exact hgeneral es 0 (start {}) hcounted (fun _ => rfl) constrained_empty le_rfl

end Snagline.Authority
