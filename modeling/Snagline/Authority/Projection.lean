import Snagline.Authority.Concurrent
import Snagline.Kit.Cursor

/-!
# Reading committed facts behind a cursor (store.go:436-482, authority_source.go)

ListProjectionFacts pages through the facts of one tenant by commit revision.
The projector continues after the largest revision it has got, so a fact that
became visible with a smaller one would be lost. None does: the revisions of a
tenant's facts become visible in their order.
-/

namespace Snagline.Authority
open Kit Ssp Interleave Cursor

structure ProjectionFactQuery where
  tenantID : Bytes
  afterAuthoritySequence : ℤ
  limit : ℤ

structure ProjectionFact where
  authorityRevision : ℤ
  kind : EntityKind
  caseID : Bytes
  envelopeID : Bytes
  commitment : Bytes
  raw : Bytes
  deriving DecidableEq

structure ProjectionFactPage where
  facts : List ProjectionFact
  highWatermark : ℤ

inductive ProjectionError where
  | invalidQuery
  deriving DecidableEq

def ProjectionFactQuery.validate (q : ProjectionFactQuery) : Except ProjectionError Unit :=
  ensure (validText q.tenantID && 0 ≤ q.afterAuthoritySequence && 0 < q.limit && q.limit ≤ 1000)
    .invalidQuery

def CaseRow.projection (c : CaseRow) : ProjectionFact :=
  ⟨c.commitRevision, .case, c.caseID, c.envelopeID, c.commitment, c.raw⟩

def AdviceRow.projection (a : AdviceRow) : ProjectionFact :=
  ⟨a.commitRevision, .advice, a.caseID, a.envelopeID, a.commitment, a.raw⟩

def projectionFacts (tenantID : Bytes) (db : Database) : List ProjectionFact :=
  (db.cases.filter fun c => c.tenantID = tenantID).map CaseRow.projection ++
    (db.advice.filter fun a => a.tenantID = tenantID).map AdviceRow.projection

/-- `ORDER BY commit_revision`. -/
def notAfter (f g : ProjectionFact) : Bool := f.authorityRevision ≤ g.authorityRevision

def listProjectionFacts (q : ProjectionFactQuery) (db : Database) :
    Except ProjectionError ProjectionFactPage := do
  q.validate
  let facts := projectionFacts q.tenantID db
  let later := facts.filter fun f => q.afterAuthoritySequence < f.authorityRevision
  pure ⟨(later.mergeSort notAfter).take q.limit.toNat, (facts.map ProjectionFact.authorityRevision).max?.getD 0⟩

/-! ### AuthoritySource.ReadAfter -/

structure CommittedFact where
  sequence : ℕ
  envelopeID : Bytes
  commitment : Bytes
  raw : Bytes
  deriving DecidableEq

inductive SourceError where
  | unconfigured
  | checkpointRange
  | nonAdvancing
  | list (e : ProjectionError)
  deriving DecidableEq

def ProjectionFact.committed (f : ProjectionFact) : CommittedFact :=
  ⟨f.authorityRevision.toNat, f.envelopeID, f.commitment, f.raw⟩

def readAfter (tenantID : Bytes) (after : ℕ) (limit : ℤ) (db : Database) :
    Except SourceError (List CommittedFact) := do
  ensure (!blank tenantID) .unconfigured
  ensure (after < 2 ^ 63) .checkpointRange
  let page ← (listProjectionFacts ⟨tenantID, after, limit⟩ db).mapError .list
  page.facts.mapM fun f => do
    ensure ((after : ℤ) < f.authorityRevision && 0 < f.authorityRevision) .nonAdvancing
    pure f.committed

/-! ### What a page is of the committed facts -/

section
variable (tenantID : Bytes) {σ : Cluster}

def Fact.projection : Fact → ProjectionFact
  | .case c => c.projection
  | .advice a => a.projection

@[simp] theorem Fact.projection_revision (f : Fact) :
    f.projection.authorityRevision = f.revision := by
  cases f <;> rfl

def visible (tenantID : Bytes) (facts : List Fact) : List ProjectionFact :=
  (facts.filter fun f => f.tenantID = tenantID).map Fact.projection

theorem mem_visible (facts : List Fact) (p : ProjectionFact) :
    p ∈ visible tenantID facts ↔ ∃ f ∈ facts, f.tenantID = tenantID ∧ f.projection = p := by
  simp [visible, and_assoc]

theorem visible_append (facts new : List Fact) :
    visible tenantID (facts ++ new) = visible tenantID facts ++ visible tenantID new := by
  simp [visible]

theorem visible_cons (f : Fact) (facts : List Fact) :
    visible tenantID (f :: facts) =
      (if f.tenantID = tenantID then [f.projection] else []) ++ visible tenantID facts := by
  by_cases h : f.tenantID = tenantID
  · simp [visible, h]
  · simp [visible, h]

/- The tables hold the same facts, sorted by kind. -/
theorem projectionFacts_perm (db : Database) (facts : List Fact)
    (h : Shows db facts) : (projectionFacts tenantID db).Perm (visible tenantID facts) := by
  unfold projectionFacts
  rw [h.cases, h.advice]
  clear h
  induction facts with
  | nil => exact List.Perm.refl _
  | cons f facts ih =>
    rw [visible_cons]
    cases f with
    | case c =>
      rw [List.filterMap_cons_some (show Fact.case? (.case c) = some c from rfl),
        List.filterMap_cons_none (show Fact.advice? (.case c) = none from rfl)]
      by_cases hc : (Fact.case c).tenantID = tenantID
      · rw [if_pos hc, List.filter_cons_of_pos (by simpa [Fact.tenantID] using hc)]
        exact ih.cons c.projection
      · rw [if_neg hc, List.filter_cons_of_neg (by simpa [Fact.tenantID] using hc)]
        exact ih
    | advice a =>
      rw [List.filterMap_cons_none (show Fact.case? (.advice a) = none from rfl),
        List.filterMap_cons_some (show Fact.advice? (.advice a) = some a from rfl)]
      by_cases ha : (Fact.advice a).tenantID = tenantID
      · rw [if_pos ha, List.filter_cons_of_pos (by simpa [Fact.tenantID] using ha)]
        exact List.perm_middle.trans (ih.cons a.projection)
      · rw [if_neg ha, List.filter_cons_of_neg (by simpa [Fact.tenantID] using ha)]
        exact ih

theorem visible_numbered (h : Inv commitRules σ) :
    Numbered ProjectionFact.authorityRevision (visible tenantID σ.committed) where
  positive := by
    intro p hp
    obtain ⟨f, hf, -, rfl⟩ := (mem_visible _ _ _).mp hp
    rw [Fact.projection_revision]
    exact (h.range f hf).1
  order := by
    unfold visible
    rw [List.pairwise_map]
    refine (h.order.filter _).imp_of_mem ?_
    intro f g hf hg hbefore
    have hf' : f.tenantID = tenantID := by simpa using (List.mem_filter.mp hf).2
    have hg' : g.tenantID = tenantID := by simpa using (List.mem_filter.mp hg).2
    rw [Fact.projection_revision, Fact.projection_revision]
    exact hbefore (hf'.trans hg'.symm)

theorem listProjectionFacts_facts (h : Inv commitRules σ) (q : ProjectionFactQuery)
    (db : Database) (hshows : Shows db σ.committed) (result : ProjectionFactPage)
    (hlist : listProjectionFacts q db = .ok result) :
    result.facts = page ProjectionFact.authorityRevision q.afterAuthoritySequence q.limit.toNat
      (visible q.tenantID σ.committed) ∧ 0 < q.limit.toNat := by
  unfold listProjectionFacts ProjectionFactQuery.validate at hlist
  simp only [ensure_bind_eq_ok, Bool.and_eq_true, decide_eq_true_eq] at hlist
  obtain ⟨⟨⟨-, hlimit⟩, -⟩, hresult⟩ := hlist
  have hperm := (projectionFacts_perm q.tenantID db σ.committed hshows).filter
    fun f => decide (q.afterAuthoritySequence < f.authorityRevision)
  have horder := (visible_numbered q.tenantID h).order.filter
    fun f => decide (q.afterAuthoritySequence < f.authorityRevision)
  refine ⟨?_, by omega⟩
  rw [← Except.ok.inj hresult]
  -- sorting puts the rows of both tables back into the order of their commits
  exact congrArg (List.take q.limit.toNat) (mergeSort_eq hperm horder)

end

/-! ### A reader beside the transactions -/

section
variable {tenantID : Bytes} {x : Cluster × Checkpoint} {store : Store}

abbrev Checkpoint := Reader ProjectionFact

/-- Commit transactions run side by side while the projector of one tenant reads,
each time after the largest revision it has got. The number counts the reads. -/
inductive Watch (store : Store) (tenantID : Bytes) :
    ℕ → Cluster × Checkpoint → Cluster × Checkpoint → Prop where
  | refl (x : Cluster × Checkpoint) : Watch store tenantID 0 x x
  | step {n : ℕ} {x : Cluster × Checkpoint} {σ σ' : Cluster} {r : Checkpoint}
      (before : Watch store tenantID n x (σ, r)) (move : Step commitRules store.Starts σ σ') :
      Watch store tenantID n x (σ', r)
  | read {n : ℕ} {x : Cluster × Checkpoint} {σ : Cluster} {r : Checkpoint}
      (before : Watch store tenantID n x (σ, r)) (limit : ℤ) (db : Database)
      (snapshot : Shows db σ.committed) (result : ProjectionFactPage)
      (list : listProjectionFacts ⟨tenantID, r.cursor, limit⟩ db = .ok result) :
      Watch store tenantID (n + 1) x (σ, r.take ProjectionFact.authorityRevision result.facts)

structure Kept (tenantID : Bytes) (x : Cluster × Checkpoint) : Prop where
  sound : Inv commitRules x.1
  follows : Follows ProjectionFact.authorityRevision (visible tenantID x.1.committed) x.2

theorem kept_initial (tenantID : Bytes) : Kept tenantID (initial, Reader.initial) where
  sound := inv_initial commitRules
  follows := follows_initial (visible_numbered tenantID (inv_initial commitRules))

theorem visible_mono (tenantID : Bytes) {facts facts' : List Fact} (h : facts <+: facts') :
    visible tenantID facts <+: visible tenantID facts' := by
  obtain ⟨new, rfl⟩ := h
  rw [visible_append]
  exact List.prefix_append _ _

theorem min_succ_le {total total' start got n limit : ℕ} (hgot : min total (start + n) ≤ got)
    (htotal : total ≤ total') (hlimit : 0 < limit) :
    min total (start + (n + 1)) ≤ min total' (got + limit) := by
  omega

/- A read gets everything up to its limit, and what the transactions add comes
after it. -/
theorem Kept.watch {n : ℕ} {x y : Cluster × Checkpoint}
    (h : Kept tenantID x) (hwatch : Watch store tenantID n x y) :
    Kept tenantID y ∧ x.1.committed <+: y.1.committed ∧
      min (visible tenantID x.1.committed).length (x.2.returned.length + n) ≤
        y.2.returned.length := by
  induction hwatch with
  | refl => exact ⟨h, List.prefix_rfl, min_le_right _ _⟩
  | step before move ih =>
    obtain ⟨hkept, hgrows, hlength⟩ := ih h
    have hsound := hkept.sound.step (starts_safe store) move
    have hmore := step_committed move
    exact ⟨⟨hsound, hkept.follows.grow (visible_mono tenantID hmore)
      (visible_numbered tenantID hsound)⟩, hgrows.trans hmore, hlength⟩
  | read before limit db snapshot result list ih =>
    obtain ⟨hkept, hgrows, hlength⟩ := ih h
    obtain ⟨hfacts, hlimit⟩ := listProjectionFacts_facts hkept.sound _ db snapshot result list
    obtain ⟨hfollows, hreturned⟩ :=
      hkept.follows.read (visible_numbered tenantID hkept.sound) limit.toNat
    have htotal := (visible_mono tenantID hgrows).length_le
    simp only at hfacts hlimit hlength hgrows htotal ⊢
    rw [hfacts]
    refine ⟨⟨hkept.sound, hfollows⟩, hgrows, ?_⟩
    rw [hreturned]
    exact min_succ_le hlength htotal hlimit

theorem readAfter_facts {σ : Cluster} (h : Inv commitRules σ) (tenantID : Bytes) (after : ℕ)
    (limit : ℤ) (db : Database) (hshows : Shows db σ.committed) (hafter : after < 2 ^ 63)
    (result : ProjectionFactPage)
    (hlist : listProjectionFacts ⟨tenantID, after, limit⟩ db = .ok result) :
    readAfter tenantID after limit db = .ok (result.facts.map ProjectionFact.committed) := by
  obtain ⟨hfacts, -⟩ := listProjectionFacts_facts h _ db hshows result hlist
  have htenant : blank tenantID = false := by
    unfold listProjectionFacts ProjectionFactQuery.validate at hlist
    simp only [ensure_bind_eq_ok, Bool.and_eq_true] at hlist
    simpa [validText] using hlist.1.1.1.1
  -- no fact of the page is behind the cursor
  have hahead : ∀ f ∈ result.facts, (after : ℤ) < f.authorityRevision := by
    intro f hf
    rw [hfacts] at hf
    exact of_decide_eq_true (List.mem_filter.mp (List.mem_of_mem_take hf)).2
  unfold readAfter
  rw [htenant, hlist]
  simp only [Bool.not_false, ensure_true, hafter, decide_true, ok_bind, Except.mapError]
  apply mapM_eq_ok
  intro f hf
  have hlt := hahead f hf
  have hpos : 0 < f.authorityRevision := by omega
  simp [hlt, hpos]

theorem Kept.cursor_nonneg (h : Kept tenantID x) :
    0 ≤ x.2.cursor := by
  rcases h.follows.stands with hzero | ⟨p, hp, hcursor⟩
  · exact le_of_eq hzero.symm
  · rw [← hcursor]
    exact le_of_lt ((visible_numbered tenantID h.sound).positive p (h.follows.seen.subset hp))

theorem Kept.returned_mem (h : Kept tenantID x)
    (p : ProjectionFact) : p ∈ x.2.returned ↔
      p ∈ visible tenantID x.1.committed ∧ p.authorityRevision ≤ x.2.cursor := by
  constructor
  · intro hp
    exact ⟨h.follows.seen.subset hp, h.follows.behind p hp⟩
  · rintro ⟨hp, hcursor⟩
    by_contra hunseen
    have := h.follows.ahead p hp hunseen
    omega

theorem Kept.returned_order (h : Kept tenantID x) :
    x.2.returned.Pairwise fun p q => p.authorityRevision < q.authorityRevision :=
  (visible_numbered tenantID h.sound).order.sublist h.follows.seen.sublist

theorem Kept.caught_up {m : ℕ} {x y : Cluster × Checkpoint}
    (h : Kept tenantID x) (hwatch : Watch store tenantID m x y)
    (hreads : (visible tenantID x.1.committed).length ≤ x.2.returned.length + m) :
    visible tenantID x.1.committed <+: y.2.returned := by
  obtain ⟨hkept, hgrows, hlength⟩ := h.watch hwatch
  rw [min_eq_left hreads] at hlength
  exact List.prefix_of_prefix_length_le (visible_mono tenantID hgrows) hkept.follows.seen hlength

/-- The projector's cursor never skips a fact. A fact that becomes visible after
another of its tenant has the larger revision. Hence a projector that always
continues after the largest revision it has got holds, in increasing order and
each once, exactly the facts up to its cursor; its next read succeeds; and
whatever is visible at some point it has got after as many reads as there were
facts left, whatever is committed in between. -/
theorem projector_never_skips (store : Store) (tenantID : Bytes) :
    (∀ σ σ' : Cluster, Steps commitRules store.Starts initial σ →
      Steps commitRules store.Starts σ σ' → ∀ f ∈ σ.committed, ∀ g ∈ σ'.committed,
        g ∉ σ.committed → f.tenantID = g.tenantID → f.revision < g.revision) ∧
    (∀ n (σ : Cluster) (r : Checkpoint),
      Watch store tenantID n (initial, Reader.initial) (σ, r) →
      (r.returned.Pairwise fun p q => p.authorityRevision < q.authorityRevision) ∧
      (∀ p, p ∈ r.returned ↔ p ∈ visible tenantID σ.committed ∧ p.authorityRevision ≤ r.cursor) ∧
      (∀ limit db, validText tenantID = true → 0 < limit → limit ≤ 1000 → Shows db σ.committed →
        ∃ result, listProjectionFacts ⟨tenantID, r.cursor, limit⟩ db = .ok result ∧
          (r.cursor < 2 ^ 63 → readAfter tenantID r.cursor.toNat limit db =
            .ok (result.facts.map ProjectionFact.committed))) ∧
      (∀ m σ' r', Watch store tenantID m (σ, r) (σ', r') →
        (visible tenantID σ.committed).length ≤ r.returned.length + m →
        ∀ f ∈ σ.committed, f.tenantID = tenantID → r'.returned.count f.projection = 1)) := by
  refine ⟨?_, ?_⟩
  · intro σ σ' hreach hsteps f hf g hg hnew hsame
    have hinv := (inv_initial commitRules).steps (starts_safe store) hreach
    obtain ⟨new, hcommitted, hlater⟩ := later_larger (starts_safe store) hinv hsteps
    rw [hcommitted] at hg
    exact hlater f hf g ((List.mem_append.mp hg).resolve_left hnew) hsame
  · intro n σ r hwatch
    have hkept := ((kept_initial tenantID).watch hwatch).1
    refine ⟨hkept.returned_order, hkept.returned_mem, ?_, ?_⟩
    · intro limit db htenant hpos hle hshows
      have hcursor : 0 ≤ r.cursor := hkept.cursor_nonneg
      have hvalid : (⟨tenantID, r.cursor, limit⟩ : ProjectionFactQuery).validate = .ok () := by
        simp [ProjectionFactQuery.validate, htenant, hpos, hle, hcursor]
      have hlist : ∃ result, listProjectionFacts ⟨tenantID, r.cursor, limit⟩ db = .ok result := by
        unfold listProjectionFacts
        rw [hvalid]
        exact ⟨_, rfl⟩
      obtain ⟨result, hresult⟩ := hlist
      refine ⟨result, hresult, ?_⟩
      intro hrange
      obtain ⟨after, hafter⟩ := Int.eq_ofNat_of_zero_le hcursor
      rw [hafter] at hresult hrange ⊢
      exact readAfter_facts hkept.sound tenantID after limit db hshows (by exact_mod_cast hrange)
        result hresult
    · intro m σ' r' hwatch' hreads f hf htenant
      have hkept' := (hkept.watch hwatch').1
      have hmem : f.projection ∈ r'.returned :=
        (hkept.caught_up hwatch' hreads).subset ((mem_visible _ _ _).mpr ⟨f, hf, htenant, rfl⟩)
      have hnodup : r'.returned.Nodup := hkept'.returned_order.imp fun hlt heq => by
        rw [heq] at hlt
        exact lt_irrefl _ hlt
      exact List.count_eq_one_of_mem hnodup hmem

end

end Snagline.Authority
