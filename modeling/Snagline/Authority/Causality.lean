import Snagline.Authority.Deliveries
import Snagline.Authority.Isolation
import Snagline.Authority.Projection
import Snagline.Authority.Replay

/-!
# An advice comes after its case (store.go:75-112, 127-195, 597-617)

CommitCase draws its revision and then its sequence, CommitAdvice the other way
round. What orders the two facts is neither: the advice found the case in its
snapshot, so the case had been committed, with its revision drawn and its
sequence taken, before the advice began.
-/

namespace Snagline.Authority
open Kit Ssp Snapshot

section
variable {s v d d' : Database} {log : Bytes × Bytes × ℤ}

structure After (s d : Database) : Prop where
  grows : Grows s d
  sequences : ∀ log, nextSequence s log ≤ nextSequence d log

theorem After.refl (d : Database) : After d d := ⟨Grows.refl d, fun _ => le_rfl⟩

theorem After.trans {a b c : Database} (h : After a b) (h' : After b c) : After a c :=
  ⟨h.grows.trans h'.grows, fun log => (h.sequences log).trans (h'.sequences log)⟩

theorem Change.sequences_le {s v : Database} {c : Call} (h : Change s c v) (log : Bytes × Bytes × ℤ) :
    nextSequence s log ≤ nextSequence v log := by
  cases h with
  | none | halted => exact le_rfl
  | case _ _ written | advice _ _ _ written =>
    rw [written.sequences]
    split <;> omega
  | registry r revision written =>
    unfold nextSequence
    rw [written.sequences]

theorem Installs.nextSequence (h : Installs s v d d')
    (log : Bytes × Bytes × ℤ) :
    (Authority.nextSequence v log = Authority.nextSequence s log ∧
      Authority.nextSequence d' log = Authority.nextSequence d log) ∨
    (Authority.nextSequence d log = Authority.nextSequence s log ∧
      Authority.nextSequence d' log = Authority.nextSequence v log) := by
  unfold Authority.nextSequence
  rcases h.sequences log with ⟨hv, hd⟩ | ⟨hd, hv⟩
  · exact Or.inl ⟨by rw [hv], by rw [hd]⟩
  · exact Or.inr ⟨by rw [hd], by rw [hv]⟩

theorem Installs.after {c : Call} (h : Installs s v d d') (hchange : Change s c v) :
    After d d' where
  grows := ⟨h.cases.grows, h.advice.grows, h.registries.grows, h.deliveries.grows⟩
  sequences := by
    intro log
    have hle := hchange.sequences_le log
    rcases h.nextSequence log with ⟨-, hd⟩ | ⟨hd, hv⟩
    · exact hd.ge
    · omega

theorem Installs.sequence_kept (h : Installs s v d d')
    (hv : Authority.nextSequence v log = Authority.nextSequence s log) :
    Authority.nextSequence d' log = Authority.nextSequence d log := by
  rcases h.nextSequence log with ⟨-, hd⟩ | ⟨hd, hd'⟩
  · exact hd
  · rw [hd', hv, hd]

theorem Installs.sequence_taken (h : Installs s v d d')
    (hv : Authority.nextSequence v log = Authority.nextSequence s log + 1) :
    Authority.nextSequence d log = Authority.nextSequence s log ∧
      Authority.nextSequence d' log = Authority.nextSequence s log + 1 := by
  rcases h.nextSequence log with ⟨hsame, -⟩ | ⟨hd, hd'⟩
  · omega
  · exact ⟨hd, hd'.trans hv⟩

end

/-! ### The invariant -/

section
variable {s v d d' : Database} (store : Store) {c : CaseRow} {m : ℤ}

/-- The case `c` is what the advice `a` binds, and it is ahead of it in both orders. -/
structure AdviceRow.Preceded (a : AdviceRow) (c : CaseRow) (k : ℤ) (db : Database) : Prop where
  committed : c ∈ db.cases
  binds : a.BindsCase c
  revision : c.commitRevision < a.commitRevision
  case : (Fact.case c).delivery k ∈ db.deliveries
  advice : (Fact.advice a).delivery a.deliverySequence ∈ db.deliveries
  log : (Fact.advice a).log = (Fact.case c).log
  sequence : k < a.deliverySequence

theorem AdviceRow.Preceded.later {a : AdviceRow} {k : ℤ} {d d' : Database}
    (h : a.Preceded c k d) (hgrows : Grows d d') : a.Preceded c k d' :=
  ⟨hgrows.cases.subset h.committed, h.binds, h.revision, hgrows.deliveries.subset h.case,
    hgrows.deliveries.subset h.advice, h.log, h.sequence⟩

/-- What holds of the committed tables when `n` revisions have been handed out. -/
structure Ordered (db : Database) (n : ℤ) : Prop where
  counter : 0 ≤ n
  cases : ∀ c ∈ db.cases, c.commitRevision ≤ n
  numbered : ∀ d ∈ db.deliveries, d.deliverySequence < nextSequence db d.log
  delivered : ∀ c ∈ db.cases, ∃ k, (Fact.case c).delivery k ∈ db.deliveries
  advice : ∀ a ∈ db.advice, ∃ c k, a.Preceded c k db
  carried : ∀ d ∈ db.deliveries, d.deliveryKind = .advice →
    ∃ a ∈ db.advice, d = (Fact.advice a).delivery a.deliverySequence
  unique : Constrained db

theorem ordered_empty : Ordered {} 0 where
  counter := le_rfl
  cases := by simp
  numbered := by simp
  delivered := by simp
  advice := by simp
  carried := by simp
  unique := constrained_empty

theorem Ordered.count {db : Database} {n : ℤ} (h : Ordered db n) : Ordered db (n + 1) where
  counter := by have := h.counter; omega
  cases := by
    intro c hc
    have := h.cases c hc
    omega
  numbered := h.numbered
  delivered := h.delivered
  advice := h.advice
  carried := h.carried
  unique := h.unique

theorem Ordered.quiet (h : Ordered d m) (hinstalls : Installs s v d d')
    (hcases : v.cases = s.cases) (hadvice : v.advice = s.advice)
    (hdeliveries : v.deliveries = s.deliveries)
    (hsequences : ∀ log, nextSequence v log = nextSequence s log) : Ordered d' m := by
  have hc := hinstalls.cases.same hcases
  have ha := hinstalls.advice.same hadvice
  have hd := hinstalls.deliveries.same hdeliveries
  have hgrows : Grows d d' := ⟨hinstalls.cases.grows, hinstalls.advice.grows,
    hinstalls.registries.grows, hinstalls.deliveries.grows⟩
  refine ⟨h.counter, hc ▸ h.cases, ?_, ?_, ?_, ?_, hinstalls.unique⟩
  · intro row hrow
    rw [hinstalls.sequence_kept (hsequences _)]
    exact h.numbered row (hd ▸ hrow)
  · rw [hc, hd]
    exact h.delivered
  · intro a hrow
    obtain ⟨c, k, hbefore⟩ := h.advice a (ha ▸ hrow)
    exact ⟨c, k, hbefore.later hgrows⟩
  · rw [ha, hd]
    exact h.carried

theorem Ordered.numbered_append (h : Ordered d m)
    (hinstalls : Installs s v d d') (hafter : After d d') {row : DeliveryRow}
    (hrows : d'.deliveries = d.deliveries ++ [row])
    (hnext : nextSequence v row.log = nextSequence s row.log + 1)
    (hrow : row.deliverySequence = nextSequence s row.log) :
    ∀ x ∈ d'.deliveries, x.deliverySequence < nextSequence d' x.log := by
  intro x hx
  rw [hrows] at hx
  rcases List.mem_append.mp hx with hold | hnew
  · exact (h.numbered x hold).trans_le (hafter.sequences x.log)
  · cases List.mem_singleton.mp hnew
    have htaken := (hinstalls.sequence_taken hnext).2
    omega

theorem Ordered.case_commit {m revision : ℤ} {r : CommitCaseRequest}
    (h : Ordered d m) (hinstalls : Installs s v d d') (hafter : After d d')
    (hdrawn : revision ≤ m) (written : CaseWritten r revision s v) : Ordered d' m := by
  have hcases := hinstalls.cases.rows written.cases
  have hadvice := hinstalls.advice.same written.advice
  have hdeliveries := hinstalls.deliveries.rows written.deliveries
  refine ⟨h.counter, ?_, ?_, ?_, ?_, ?_, hinstalls.unique⟩
  · intro c hc
    rw [hcases] at hc
    rcases List.mem_append.mp hc with hold | hnew
    · exact h.cases c hold
    · cases List.mem_singleton.mp hnew
      exact hdrawn
  · refine h.numbered_append hinstalls hafter hdeliveries ?_ rfl
    exact (written.sequences r.log).trans (if_pos rfl)
  · intro c hc
    rw [hcases] at hc
    rw [hdeliveries]
    rcases List.mem_append.mp hc with hold | hnew
    · obtain ⟨k, hk⟩ := h.delivered c hold
      exact ⟨k, List.mem_append_left _ hk⟩
    · cases List.mem_singleton.mp hnew
      exact ⟨nextSequence s r.log, List.mem_append_right _ (List.mem_singleton_self _)⟩
  · intro a ha
    obtain ⟨c, k, hbefore⟩ := h.advice a (hadvice ▸ ha)
    exact ⟨c, k, hbefore.later hafter.grows⟩
  · intro x hx hkind
    rw [hdeliveries] at hx
    rw [hadvice]
    rcases List.mem_append.mp hx with hold | hnew
    · exact h.carried x hold hkind
    · cases List.mem_singleton.mp hnew
      cases hkind

theorem Ordered.advice_commit {n m revision : ℤ} {r : CommitAdviceRequest}
    (hsnapshot : Ordered s n) (h : Ordered d m) (hinstalls : Installs s v d d')
    (hsince : After s d) (hafter : After d d') (hlater : n < revision)
    (hfound : Table.find CaseRow.key (r.tenantID, r.caseID) s.cases = some c)
    (hbinds : r.binds c = true) (written : AdviceWritten r c revision s v) : Ordered d' m := by
  obtain ⟨hmem, hkey⟩ := Table.find_eq_some hfound
  have hcases := hinstalls.cases.same written.cases
  have hadvice := hinstalls.advice.rows written.advice
  have hdeliveries := hinstalls.deliveries.rows written.deliveries
  have htenant : r.tenantID = c.tenantID := (congrArg Prod.fst hkey).symm
  have hlog : (r.delivery c (nextSequence s c.log) revision).log = c.log := by
    unfold DeliveryRow.log CaseRow.log CommitAdviceRequest.delivery
    rw [htenant]
  have hown : (Fact.advice (r.row c (nextSequence s c.log) revision)).delivery
      (nextSequence s c.log) = r.delivery c (nextSequence s c.log) revision := rfl
  refine ⟨h.counter, hcases ▸ h.cases, ?_, ?_, ?_, ?_, hinstalls.unique⟩
  · refine h.numbered_append hinstalls hafter hdeliveries ?_ ?_
    · rw [hlog, written.sequences, if_pos rfl]
    · rw [hlog]
      rfl
  · intro x hx
    obtain ⟨k, hk⟩ := h.delivered x (hcases ▸ hx)
    exact ⟨k, hafter.grows.deliveries.subset hk⟩
  · intro a ha
    rw [hadvice] at ha
    rcases List.mem_append.mp ha with hold | hnew
    · obtain ⟨c', k, hbefore⟩ := h.advice a hold
      exact ⟨c', k, hbefore.later hafter.grows⟩
    · cases List.mem_singleton.mp hnew
      obtain ⟨k, hk⟩ := hsnapshot.delivered c hmem
      have hgrown := hsince.grows.trans hafter.grows
      have hnumber := hsnapshot.numbered _ hk
      rw [Fact.delivery_sequence, Fact.delivery_log] at hnumber
      refine ⟨c, k, hgrown.cases.subset hmem, row_bindsCase _ _ hkey hbinds, ?_,
        hgrown.deliveries.subset hk, ?_, ?_, hnumber⟩
      · have hold := hsnapshot.cases c hmem
        exact hold.trans_lt hlater
      · rw [hdeliveries]
        exact List.mem_append_right _ (List.mem_singleton_self _)
      · rw [← Fact.delivery_log (nextSequence s c.log), hown, hlog]
        rfl
  · intro x hx hkind
    rw [hdeliveries] at hx
    rw [hadvice]
    rcases List.mem_append.mp hx with hold | hnew
    · obtain ⟨a, ha, hrow⟩ := h.carried x hold hkind
      exact ⟨a, List.mem_append_left _ ha, hrow⟩
    · cases List.mem_singleton.mp hnew
      exact ⟨_, List.mem_append_right _ (List.mem_singleton_self _), rfl⟩

theorem commits_ordered : Snapshot.Kept commitEngine store.Starts Ordered After where
  once := starts_draw_once store
  count := fun _ _ h => h.count
  refl := After.refl
  trans := fun _ _ _ h h' => h.trans h'
  commit := by
    intro p result s v d d' n m drawn hp hsnapshot hle hsince h hprogress hinstalls
    obtain ⟨_, hchange, hrevisions⟩ := finished_change hp hsnapshot.counter hprogress
    have hafter := Installs.after hinstalls hchange
    refine ⟨?_, hafter⟩
    -- a revision among the rows is the one the session drew
    have hticket : ∀ revision, v.revisions = s.revisions ++ [revision] → n < revision ∧ revision ≤ m := by
      intro revision hrows
      rcases hrevisions with hsame | ⟨t, hlater, hdrawn, ht⟩
      · rw [hsame] at hrows
        have hlength := congrArg List.length hrows
        simp at hlength
      · rw [ht] at hrows
        cases List.append_cancel_left hrows
        exact ⟨hlater, hdrawn⟩
    cases hchange with
    | none | halted => exact h.quiet hinstalls rfl rfl rfl fun _ => rfl
    | case r revision written =>
      exact h.case_commit hinstalls hafter (hticket _ written.revisions).2 written
    | advice r c revision written valid free head live found binds =>
      exact hsnapshot.advice_commit h hinstalls hsince hafter (hticket _ written.revisions).1 found
        binds written
    | registry r revision written =>
      refine h.quiet hinstalls written.cases written.advice written.deliveries fun log => ?_
      unfold nextSequence
      rw [written.sequences]

theorem reaches_ordered {σ : Server} (h : store.Reaches σ) :
    Ordered σ.committed σ.counter :=
  (Sound.steps (commits_ordered store) ordered_empty h).committed

end

/-! ### The order of the two streams -/

theorem mem_edgeLog {db : Database} {log : Bytes × Bytes × ℤ} {row : DeliveryRow}
    (hrow : row ∈ db.deliveries) (hlog : row.log = log) : row.delivery ∈ edgeLog log db :=
  List.mem_map_of_mem (List.mem_filter.mpr ⟨hrow, decide_eq_true hlog⟩)

/-- Under any interleaving of commit calls: the case an advice binds is the only
one with its identifiers, has the smaller revision, and the smaller sequence of
the log both are delivered in; so in each beginning of that log, and in each
beginning of the tenant's projection stream, the case stands before the advice. -/
theorem advice_after_case (store : Store) (σ : Server) (h : store.Reaches σ) :
    let db := σ.committed
    (∀ a ∈ db.advice, ∃ c k, a.Preceded c k db ∧ ∀ c' ∈ db.cases, c'.key = a.key → c' = c) ∧
    (∀ log front, front <+: (edgeLog log db).mergeSort deliveredBefore →
      ∀ (i : ℕ) e, front[i]? = some e → e.kind = .advice →
        ∃ a ∈ db.advice, e = ((Fact.advice a).delivery a.deliverySequence).delivery ∧
          ∃ c k, a.Preceded c k db ∧
            ∃ j, j < i ∧ front[j]? = some ((Fact.case c).delivery k).delivery) ∧
    (∀ tenantID front, front <+: (projectionFacts tenantID db).mergeSort notAfter →
      ∀ (i : ℕ) f, front[i]? = some f → f.kind = .advice →
        ∃ a ∈ db.advice, f = a.projection ∧
          ∃ c k, a.Preceded c k db ∧ ∃ j, j < i ∧ front[j]? = some c.projection) := by
  intro db
  have hdb : Ordered db σ.counter := reaches_ordered store h
  refine ⟨?_, ?_, ?_⟩
  · intro a ha
    obtain ⟨c, k, hbefore⟩ := hdb.advice a ha
    refine ⟨c, k, hbefore, ?_⟩
    intro c' hc' hkey
    exact hdb.unique.case.eq_of_key hc' hbefore.committed (hkey.trans hbefore.binds.key)
  · intro log front hfront i e he hkind
    have hmem := hfront.subset (List.mem_of_getElem? he)
    obtain ⟨row, hrow, hdelivery⟩ := List.mem_map.mp (List.mem_mergeSort.mp hmem)
    obtain ⟨hstored, hlog⟩ := List.mem_filter.mp hrow
    have hadvice : row.deliveryKind = .advice := by
      rw [← hkind, ← hdelivery]
      rfl
    obtain ⟨a, ha, hsame⟩ := hdb.carried row hstored hadvice
    obtain ⟨c, k, hbefore⟩ := hdb.advice a ha
    refine ⟨a, ha, by rw [← hdelivery, hsame], c, k, hbefore, ?_⟩
    have hcase : ((Fact.case c).delivery k).log = log := by
      rw [Fact.delivery_log, ← hbefore.log, ← of_decide_eq_true hlog, hsame, Fact.delivery_log]
    refine Cursor.earlier (Cursor.mergeSort_sorted EdgeDelivery.sequence _)
      (List.mem_mergeSort.mpr (mem_edgeLog hbefore.case hcase)) hfront he ?_
    rw [← hdelivery, hsame]
    exact hbefore.sequence
  · intro tenantID front hfront i f hf hkind
    have hmem := List.mem_mergeSort.mp (hfront.subset (List.mem_of_getElem? hf))
    rcases List.mem_append.mp hmem with hcase | hadvice
    · obtain ⟨c, -, hprojection⟩ := List.mem_map.mp hcase
      rw [← hprojection] at hkind
      cases hkind
    · obtain ⟨a, ha, hprojection⟩ := List.mem_map.mp hadvice
      obtain ⟨hstored, htenant⟩ := List.mem_filter.mp ha
      obtain ⟨c, k, hbefore⟩ := hdb.advice a hstored
      refine ⟨a, hstored, hprojection.symm, c, k, hbefore, ?_⟩
      have hc : c.projection ∈ projectionFacts tenantID db := by
        refine List.mem_append_left _ (List.mem_map_of_mem (List.mem_filter.mpr ⟨hbefore.committed, ?_⟩))
        have hsame : a.tenantID = c.tenantID := congrArg Prod.fst hbefore.binds.key
        rw [← hsame]
        exact htenant
      refine Cursor.earlier (Cursor.mergeSort_sorted ProjectionFact.authorityRevision _)
        (List.mem_mergeSort.mpr hc) hfront hf ?_
      rw [← hprojection]
      exact hbefore.revision

namespace Sample

def adviceRequest : CommitAdviceRequest where
  tenantID := [116]
  caseID := [99]
  envelopeID := [102]
  caseCommitment := commitment 50
  commitment := commitment 51
  raw := [123, 125]
  routingEpoch := 1
  registryRevision := 1
  registryHash := commitment 49
  authenticatedPrincipalID := []
  authenticatedEdgeID := []
  decision := []

def advised : List Event := [adoption, admission 1000, ⟨.advice adviceRequest, { nextval := 2 }⟩]

end Sample

theorem advice_after_case_sample :
    ∃ σ : Server, Sample.store.Reaches σ ∧ σ.committed.advice.length = 1 ∧
      ∀ a ∈ σ.committed.advice, ∃ c k, a.Preceded c k σ.committed ∧
        ∀ c' ∈ σ.committed.cases, c'.key = a.key → c' = c := by
  obtain ⟨σ, hreaches, hdb⟩ := history_reached Sample.store Sample.advised
    ⟨by decide, by decide, by decide, trivial⟩
  refine ⟨σ, hreaches, ?_, (advice_after_case Sample.store σ hreaches).1⟩
  rw [hdb]
  decide +kernel

/-! ### One order for all facts of a log -/

section
variable {s v : Database}

/-- How the tables grow: a log whose counter stands still has no new row. -/
structure Since (s d : Database) : Prop where
  after : After s d
  rows : ∀ x ∈ d.deliveries, nextSequence d x.log = nextSequence s x.log → x ∈ s.deliveries

theorem Since.trans {a b c : Database} (h : Since a b) (h' : Since b c) : Since a c where
  after := h.after.trans h'.after
  rows := by
    intro x hx hsame
    have hab := h.after.sequences x.log
    have hbc := h'.after.sequences x.log
    exact h.rows x (h'.rows x hx (by omega)) (by omega)

/-- The rows of a log follow the revisions, of which `n` have been handed out. -/
structure Aligned (db : Database) (n : ℤ) : Prop where
  ordered : Ordered db n
  dated : ∀ x ∈ db.deliveries, x.authorityRevision ≤ n
  agree : ∀ x ∈ db.deliveries, ∀ y ∈ db.deliveries, x.log = y.log →
    x.deliverySequence < y.deliverySequence → x.authorityRevision < y.authorityRevision

theorem Change.delivers {c : Call} (h : Change s c v) : v.deliveries = s.deliveries ∨
    ∃ x, v.deliveries = s.deliveries ++ [x] ∧ v.revisions = s.revisions ++ [x.authorityRevision] ∧
      x.deliverySequence = nextSequence s x.log ∧
      nextSequence v x.log = nextSequence s x.log + 1 := by
  cases h with
  | none | halted => exact .inl rfl
  | case r revision written =>
    exact .inr ⟨_, written.deliveries, written.revisions, rfl,
      (written.sequences r.log).trans (if_pos rfl)⟩
  | advice r c revision written valid free head live found =>
    have hlog : (r.delivery c (nextSequence s c.log) revision).log = c.log := by
      have htenant : c.tenantID = r.tenantID := congrArg Prod.fst (Table.find_eq_some found).2
      unfold CaseRow.log
      rw [htenant]
      rfl
    refine .inr ⟨_, written.deliveries, written.revisions, ?_, ?_⟩
    · rw [hlog]
      rfl
    · rw [hlog, written.sequences, if_pos rfl]
  | registry r revision written => exact .inl written.deliveries

theorem commits_aligned (store : Store) :
    Snapshot.Kept commitEngine store.Starts Aligned Since where
  once := starts_draw_once store
  count := fun _ _ h => ⟨h.ordered.count, fun x hx => (h.dated x hx).trans (by omega), h.agree⟩
  refl := fun d => ⟨After.refl d, fun _ hx _ => hx⟩
  trans := fun _ _ _ h h' => h.trans h'
  commit := by
    intro p result s v d d' n m drawn hp hsnapshot hle hsince h hprogress hinstalls
    obtain ⟨hordered, hafter⟩ := (commits_ordered store).commit p result s v d d' n m drawn hp
      hsnapshot.ordered hle hsince.after h.ordered hprogress hinstalls
    obtain ⟨_, hchange, hrevisions⟩ := finished_change hp hsnapshot.ordered.counter hprogress
    rcases hchange.delivers with hsame | ⟨x, hrows, hrevision, hx, hnext⟩
    · have hkept := hinstalls.deliveries.same hsame
      exact ⟨⟨hordered, hkept ▸ h.dated, hkept ▸ h.agree⟩, hafter, fun y hy _ => hkept ▸ hy⟩
    · have hkept := hinstalls.deliveries.rows hrows
      obtain ⟨hbase, htop⟩ := hinstalls.sequence_taken hnext
      obtain ⟨hlater, hdrawn⟩ : n < x.authorityRevision ∧ x.authorityRevision ≤ m := by
        rcases hrevisions with hsame | ⟨t, hlater, hdrawn, ht⟩
        · simp [hsame] at hrevision
        · cases List.append_cancel_left (ht.symm.trans hrevision)
          exact ⟨hlater, hdrawn⟩
      -- the counter is still that of the snapshot, so all other rows of the log were in it
      have hold : ∀ y ∈ d.deliveries, y.log = x.log →
          y.deliverySequence < x.deliverySequence ∧ y.authorityRevision < x.authorityRevision := by
        intro y hy hlog
        have hnumber := h.ordered.numbered y hy
        have hdated := hsnapshot.dated y (hsince.rows y hy (hlog ▸ hbase))
        rw [hlog] at hnumber
        omega
      refine ⟨⟨hordered, ?_, ?_⟩, hafter, ?_⟩
      all_goals simp only [hkept, List.mem_append, List.mem_singleton]
      · rintro y (hy | rfl)
        · exact h.dated y hy
        · exact hdrawn
      · rintro y (hy | rfl) z (hz | rfl) hlog hlt
        · exact h.agree y hy z hz hlog hlt
        · exact (hold y hy hlog).2
        · have := (hold z hz hlog.symm).1
          omega
        · omega
      · rintro y (hy | rfl) hstill
        · exact hy
        · omega

end

/-- Under any interleaving of commit calls the deliveries of an edge generation are numbered in
the order of their authority revisions. -/
theorem delivery_order_agrees (store : Store) (σ : Server) (h : store.Reaches σ) :
    ∀ x ∈ σ.committed.deliveries, ∀ y ∈ σ.committed.deliveries, x.log = y.log →
      (x.deliverySequence < y.deliverySequence ↔ x.authorityRevision < y.authorityRevision) := by
  intro x hx y hy hlog
  have haligned : Aligned σ.committed σ.counter := by
    refine (Sound.steps (commits_aligned store) ⟨ordered_empty, ?_, ?_⟩ h).committed <;> simp
  refine ⟨haligned.agree x hx y hy hlog, fun hlt => ?_⟩
  rcases lt_trichotomy x.deliverySequence y.deliverySequence with hless | hsame | hmore
  · exact hless
  · have hrow : x = y := haligned.ordered.unique.delivery.eq_of_key hx hy
      (congrArg₂ Prod.mk hlog hsame)
    rw [hrow] at hlt
    omega
  · have hback := haligned.agree y hy x hx hlog.symm hmore
    omega

theorem delivery_order_agrees_sample :
    ∃ σ : Server, Sample.store.Reaches σ ∧ σ.committed.deliveries.length = 2 ∧
      ∀ x ∈ σ.committed.deliveries, ∀ y ∈ σ.committed.deliveries, x.log = y.log →
        (x.deliverySequence < y.deliverySequence ↔ x.authorityRevision < y.authorityRevision) := by
  obtain ⟨σ, hreaches, hdb⟩ := history_reached Sample.store Sample.advised
    ⟨by decide, by decide, by decide, trivial⟩
  exact ⟨σ, hreaches, by rw [hdb]; decide +kernel, delivery_order_agrees Sample.store σ hreaches⟩

end Snagline.Authority
