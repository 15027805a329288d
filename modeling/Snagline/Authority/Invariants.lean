import Snagline.Authority.Ledger

/-!
# One meaning for every case, one delivery for every fact

The two safety results about the authority tables, for every history of commit
attempts: rows never change and never compete, and each edge generation has a
gapless log in which every fact occurs once.
-/

namespace Snagline.Authority
open Kit Ssp

structure AdviceRow.BindsCase (a : AdviceRow) (c : CaseRow) : Prop where
  key : a.key = c.key
  commitment : a.caseCommitment = c.commitment
  routingEpoch : a.routingEpoch = c.routingEpoch
  registryRevision : a.registryRevision = c.registryRevision
  registryHash : a.registryHash = c.registryHash
  edge : a.targetEdgeID = c.issuerEdgeID
  generation : a.targetEdgeGeneration = c.issuerEdgeGeneration

structure Consistent (db : Database) : Prop where
  oneCase : Table.Keyed CaseRow.key db.cases
  oneAdvice : Table.Keyed AdviceRow.key db.advice
  binds : ∀ a ∈ db.advice, ∃ c ∈ db.cases, a.BindsCase c

theorem consistent_empty : Consistent {} where
  oneCase := Table.keyed_nil _
  oneAdvice := Table.keyed_nil _
  binds := by simp

theorem row_bindsCase {r : CommitAdviceRequest} {c : CaseRow} (sequence revision : ℤ)
    (hkey : c.key = (r.tenantID, r.caseID)) (h : r.binds c = true) :
    (r.row c sequence revision).BindsCase c := by
  simp only [CommitAdviceRequest.binds, Bool.and_eq_true, beq_iff_eq] at h
  obtain ⟨⟨⟨hcommitment, hepoch⟩, hrevision⟩, hhash⟩ := h
  exact ⟨hkey.symm, hcommitment, hepoch, hrevision, hhash, rfl, rfl⟩

theorem Consistent.change {db db' : Database} {c : Call} (h : Consistent db)
    (hchange : Change db c db') :
    Consistent db' := by
  cases hchange with
  | none => exact h
  | case r revision written valid free head live binds =>
    refine ⟨?_, ?_, ?_⟩
    · rw [written.cases]
      exact h.oneCase.append written.fresh.key
    · rw [written.advice]
      exact h.oneAdvice
    · intro a ha
      rw [written.advice] at ha
      obtain ⟨c, hc, hb⟩ := h.binds a ha
      rw [written.cases]
      exact ⟨c, List.mem_append_left _ hc, hb⟩
  | advice r c revision written valid free head live found binds =>
    obtain ⟨hmem, hkey⟩ := Table.find_eq_some found
    refine ⟨?_, ?_, ?_⟩
    · rw [written.cases]
      exact h.oneCase
    · rw [written.advice]
      exact h.oneAdvice.append written.fresh.key
    · intro a ha
      rw [written.cases]
      rw [written.advice] at ha
      rcases List.mem_append.mp ha with hold | hnew
      · exact h.binds a hold
      · rw [List.mem_singleton.mp hnew]
        exact ⟨c, hmem, row_bindsCase _ revision hkey binds⟩
  | registry r revision written =>
    exact ⟨written.cases ▸ h.oneCase, written.advice ▸ h.oneAdvice, by
      rw [written.cases, written.advice]
      exact h.binds⟩
  | halted => exact ⟨h.oneCase, h.oneAdvice, h.binds⟩

theorem reachable_consistent (store : Store) (es : List Event) : Consistent (store.run {} es) :=
  run_invariant store Consistent (fun db e h => h.change (step_change store db e)) {} es
    consistent_empty

structure Grows (db db' : Database) : Prop where
  cases : db.cases <+: db'.cases
  advice : db.advice <+: db'.advice
  registries : db.registries <+: db'.registries
  deliveries : db.deliveries <+: db'.deliveries

theorem Grows.refl (db : Database) : Grows db db :=
  ⟨List.prefix_rfl, List.prefix_rfl, List.prefix_rfl, List.prefix_rfl⟩

theorem Grows.trans {a b c : Database} (h : Grows a b) (h' : Grows b c) : Grows a c :=
  ⟨h.cases.trans h'.cases, h.advice.trans h'.advice, h.registries.trans h'.registries,
    h.deliveries.trans h'.deliveries⟩

theorem Change.grows {db db' : Database} {c : Call} (h : Change db c db') : Grows db db' := by
  cases h with
  | none => exact Grows.refl _
  | case r revision written =>
    refine ⟨?_, ?_, ?_, ?_⟩
    · rw [written.cases]; exact List.prefix_append _ _
    · rw [written.advice]
    · rw [written.registries]
    · rw [written.deliveries]; exact List.prefix_append _ _
  | advice r c revision written =>
    refine ⟨?_, ?_, ?_, ?_⟩
    · rw [written.cases]
    · rw [written.advice]; exact List.prefix_append _ _
    · rw [written.registries]
    · rw [written.deliveries]; exact List.prefix_append _ _
  | registry r revision written =>
    refine ⟨?_, ?_, ?_, ?_⟩
    · rw [written.cases]
    · rw [written.advice]
    · rw [written.registries]; exact List.prefix_append _ _
    · rw [written.deliveries]
  | halted => exact ⟨List.prefix_rfl, List.prefix_rfl, List.prefix_rfl, List.prefix_rfl⟩

theorem run_grows (store : Store) (db : Database) (es : List Event) : Grows db (store.run db es) :=
  run_invariant store (Grows db) (fun db' e h => h.trans (step_change store db' e).grows) db es
    (Grows.refl db)

/-- Single meaning. At every point of every history a case identifier has at
most one case row and at most one advice row, an advice row agrees with its case
row, and whatever is committed by then is still there, unchanged, at any later
point. -/
theorem authority_single_meaning (store : Store) (es later : List Event) :
    let db := store.run {} es
    Table.Keyed CaseRow.key db.cases ∧ Table.Keyed AdviceRow.key db.advice ∧
      (∀ a ∈ db.advice, ∃ c ∈ db.cases, a.BindsCase c) ∧
      Grows db (store.run db later) := by
  intro db
  have h := reachable_consistent store es
  exact ⟨h.oneCase, h.oneAdvice, h.binds, run_grows store db later⟩

/-! ### What an attempt leaves of the call it is for -/

section
variable {db db' : Database} {revision : ℤ} (store : Store)

structure Extends (db db' : Database) : Prop where
  grows : Grows db db'
  audit : db.audit <+: db'.audit

theorem Extends.refl (db : Database) : Extends db db := ⟨Grows.refl db, List.prefix_rfl⟩

theorem Change.extends {c : Call} (h : Change db c db') : Extends db db' := by
  refine ⟨h.grows, ?_⟩
  cases h with
  | none | halted => exact List.prefix_rfl
  | case _ _ written | advice _ _ _ written | registry _ _ written =>
    rw [written.audit]
    exact List.prefix_append _ _

theorem step_extends (db : Database) (e : Event) : Extends db (store.step db e) :=
  (step_change store db e).extends

/-- The rows of `db'` that are not of `db` are those the call asks for. -/
structure Added (c : Call) (db db' : Database) : Prop where
  cases : ∀ row ∈ db'.cases, row ∈ db.cases ∨
    ∃ r revision, c = .case r ∧ r.validate = .ok () ∧ row = r.row revision ∧
      r.audit revision ∈ db'.audit
  advice : ∀ row ∈ db'.advice, row ∈ db.advice ∨
    ∃ r case sequence revision, c = .advice r ∧ r.validate = .ok () ∧
      Table.find CaseRow.key (r.tenantID, r.caseID) db.cases = some case ∧
      row = r.row case sequence revision ∧ r.audit revision ∈ db'.audit
  registries : ∀ row ∈ db'.registries, row ∈ db.registries ∨
    ∃ r revision, c = .registry r ∧ row = r.row revision

theorem CaseWritten.added {r : CommitCaseRequest}
    (written : CaseWritten r revision db db') (valid : r.validate = .ok ()) :
    Added (.case r) db db' := by
  refine ⟨?_, fun row hrow => Or.inl (written.advice ▸ hrow),
    fun row hrow => Or.inl (written.registries ▸ hrow)⟩
  intro row hrow
  rw [written.cases] at hrow
  rcases List.mem_append.mp hrow with hold | hnew
  · exact Or.inl hold
  · refine Or.inr ⟨r, revision, rfl, valid, List.mem_singleton.mp hnew, ?_⟩
    rw [written.audit]
    exact List.mem_append_right _ List.mem_cons_self

theorem AdviceWritten.added {r : CommitAdviceRequest} {case : CaseRow}
    (written : AdviceWritten r case revision db db')
    (valid : r.validate = .ok ())
    (found : Table.find CaseRow.key (r.tenantID, r.caseID) db.cases = some case) :
    Added (.advice r) db db' := by
  refine ⟨fun row hrow => Or.inl (written.cases ▸ hrow), ?_,
    fun row hrow => Or.inl (written.registries ▸ hrow)⟩
  intro row hrow
  rw [written.advice] at hrow
  rcases List.mem_append.mp hrow with hold | hnew
  · exact Or.inl hold
  · refine Or.inr ⟨r, case, _, revision, rfl, valid, found, List.mem_singleton.mp hnew, ?_⟩
    rw [written.audit]
    exact List.mem_append_right _ List.mem_cons_self

theorem RegistryWritten.added {r : CommitRegistryRequest} {head : Option HeadRow}
    (written : RegistryWritten r head revision db db') :
    Added (.registry r) db db' := by
  refine ⟨fun row hrow => Or.inl (written.cases ▸ hrow),
    fun row hrow => Or.inl (written.advice ▸ hrow), ?_⟩
  intro row hrow
  rw [written.registries] at hrow
  rcases List.mem_append.mp hrow with hold | hnew
  · exact Or.inl hold
  · exact Or.inr ⟨r, revision, rfl, List.mem_singleton.mp hnew⟩

theorem step_added (db : Database) (c : Call) (env : Attempt) :
    Added c db (store.step db ⟨c, env⟩) := by
  have hchange : Change db c (store.step db ⟨c, env⟩) := step_change store db ⟨c, env⟩
  generalize store.step db ⟨c, env⟩ = db' at hchange
  cases hchange with
  | none | halted => exact ⟨fun _ => Or.inl, fun _ => Or.inl, fun _ => Or.inl⟩
  | case r revision written valid => exact written.added valid
  | advice r c revision written valid free head live found => exact written.added valid found
  | registry r revision written => exact written.added

end

/-! ### The delivery log -/

section
variable {facts : List Fact} {db : Database} {f : Fact}

def Fact.CommittedIn (db : Database) : Fact → Prop
  | .case c => c ∈ db.cases
  | .advice a => a ∈ db.advice

def DeliveryRow.Carries (d : DeliveryRow) (f : Fact) : Prop :=
  let e := f.delivery d.deliverySequence
  d.caseID = e.caseID ∧ d.envelopeID = e.envelopeID ∧ d.commitment = e.commitment ∧
    d.raw = e.raw ∧ d.authorityRevision = e.authorityRevision

theorem DeliveryRow.Carries.revision {d : DeliveryRow} (h : d.Carries f) :
    d.authorityRevision = f.revision := by
  rw [h.2.2.2.2, Fact.delivery_revision]

theorem Fact.delivery_carries (f : Fact) (sequence : ℤ) : (f.delivery sequence).Carries f := by
  unfold DeliveryRow.Carries
  rw [Fact.delivery_sequence]
  exact ⟨rfl, rfl, rfl, rfl, rfl⟩

theorem Represents.committed (h : Represents db facts)
    (f : Fact) : f.CommittedIn db ↔ f ∈ facts := by
  cases f with
  | case c => exact h.case_mem c
  | advice a => exact h.advice_mem a

theorem Represents.eq_of_revision (h : Represents db facts)
    {f g : Fact} (hf : f ∈ facts) (hg : g ∈ facts) (hr : f.revision = g.revision) : f = g :=
  List.inj_on_of_nodup_map h.distinct hf hg hr

theorem Represents.delivery_mem (h : Represents db facts)
    (d : DeliveryRow) : d ∈ db.deliveries ↔
      ∃ p ∈ Numbering.number Fact.log facts, d = p.1.delivery p.2 := by
  rw [h.deliveries, deliveriesOf, List.mem_map]
  constructor
  · rintro ⟨p, hp, rfl⟩
    exact ⟨p, hp, rfl⟩
  · rintro ⟨p, hp, rfl⟩
    exact ⟨p, hp, rfl⟩

theorem Represents.number_mem {p : Fact × ℕ}
    (hp : p ∈ Numbering.number Fact.log facts) : p.1 ∈ facts := by
  have hmem := List.mem_map_of_mem (f := Prod.fst) hp
  rwa [Numbering.number_map_fst] at hmem

theorem Represents.delivered (h : Represents db facts)
    (hf : f ∈ facts) : ∃ n : ℕ, f.delivery n ∈ db.deliveries := by
  rw [← Numbering.number_map_fst Fact.log facts, List.mem_map] at hf
  obtain ⟨p, hp, rfl⟩ := hf
  exact ⟨p.2, (h.delivery_mem _).mpr ⟨p, hp, rfl⟩⟩

-- the revision identifies a delivery as it identifies a fact
theorem Represents.deliveries_distinct
    (h : Represents db facts) : (db.deliveries.map DeliveryRow.authorityRevision).Nodup := by
  have hmap : db.deliveries.map DeliveryRow.authorityRevision = facts.map Fact.revision := by
    rw [h.deliveries, deliveriesOf, List.map_map]
    conv_rhs => rw [← Numbering.number_map_fst Fact.log facts, List.map_map]
    apply List.map_congr_left
    intro p _
    simp
  rw [hmap]
  exact h.distinct

def Fact.CaseLog (db : Database) (log : Bytes × Bytes × ℤ) : Fact → Prop
  | .case c => log = c.log
  | .advice a => ∃ c ∈ db.cases, a.BindsCase c ∧ log = c.log

theorem Consistent.caseLog (h : Consistent db) (f : Fact) (hf : f.CommittedIn db) :
    f.CaseLog db f.log := by
  cases f with
  | case => rfl
  | advice a =>
    obtain ⟨c, hc, hb⟩ := h.binds a hf
    refine ⟨c, hc, hb, ?_⟩
    have htenant : a.tenantID = c.tenantID := congrArg Prod.fst hb.key
    show (a.tenantID, a.targetEdgeID, a.targetEdgeGeneration) = c.log
    rw [htenant, hb.edge, hb.generation]
    rfl

/-- Contiguous delivery log. After every history, the sequences of each edge
generation are 1, 2, ... up to the one before the counter, in that order; each
delivery carries exactly one committed fact; and each committed fact is carried
by exactly one delivery, in the log of the edge generation of its case. -/
theorem authority_contiguous_log (store : Store) (es : List Event) :
    let db := store.run {} es
    (∀ log, (db.deliveries.filter fun d => d.log = log).map DeliveryRow.deliverySequence =
      (List.range' 1 (nextSequence db log - 1).toNat).map Int.ofNat) ∧
    (∀ d ∈ db.deliveries, ∃ f : Fact, f.CommittedIn db ∧ d = f.delivery d.deliverySequence ∧
      d.Carries f ∧ ∀ g : Fact, g.CommittedIn db → d.Carries g → g = f) ∧
    (∀ f : Fact, f.CommittedIn db →
      ∃ d ∈ db.deliveries, d.Carries f ∧ f.CaseLog db d.log ∧
        db.deliveries.countP (fun e => e.authorityRevision = f.revision) = 1) := by
  intro db
  obtain ⟨facts, h⟩ := reachable_represents store es
  have hconsistent := reachable_consistent store es
  refine ⟨?_, ?_, ?_⟩
  · intro log
    have hnext : (nextSequence db log - 1).toNat = Numbering.ordinal Fact.log facts log - 1 := by
      rw [h.sequences]
      omega
    rw [hnext]
    exact h.sequences_of_log log
  · intro d hd
    obtain ⟨p, hp, rfl⟩ := (h.delivery_mem d).mp hd
    have hmem := Represents.number_mem hp
    refine ⟨p.1, (h.committed p.1).mpr hmem, by rw [Fact.delivery_sequence],
      p.1.delivery_carries p.2, ?_⟩
    intro g hg hcarries
    have hrevision := hcarries.revision
    rw [Fact.delivery_revision] at hrevision
    exact h.eq_of_revision ((h.committed g).mp hg) hmem hrevision.symm
  · intro f hf
    have hmem := (h.committed f).mp hf
    obtain ⟨n, hd⟩ := h.delivered hmem
    refine ⟨f.delivery n, hd, f.delivery_carries n, ?_, ?_⟩
    · rw [Fact.delivery_log]
      exact hconsistent.caseLog f hf
    · have hrev : f.revision ∈ db.deliveries.map DeliveryRow.authorityRevision :=
        List.mem_map.mpr ⟨_, hd, Fact.delivery_revision _ _⟩
      have hcount := List.count_eq_one_of_mem h.deliveries_distinct hrev
      rw [List.count_eq_countP, List.countP_map] at hcount
      rw [← hcount]
      apply List.countP_congr
      intro e _
      simp

end

end Snagline.Authority
