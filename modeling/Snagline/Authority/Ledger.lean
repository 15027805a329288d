import Snagline.Authority.Committed
import Snagline.Kit.Numbering

/-!
# The authority as a ledger of facts

What the tables are for: an append-only list of facts, each a case or the final
advice on a case, numbered within the log of the edge generation it goes to. The
case, advice and delivery tables are projections of that list (`Represents`),
and every attempt of every call extends the list or leaves it alone.
-/

namespace Snagline.Authority
open Kit Ssp

inductive Fact where
  | case (row : CaseRow)
  | advice (row : AdviceRow)
  deriving DecidableEq

def AdviceRow.log (a : AdviceRow) : Bytes × Bytes × ℤ :=
  (a.tenantID, a.targetEdgeID, a.targetEdgeGeneration)

namespace Fact

def log : Fact → Bytes × Bytes × ℤ
  | .case c => c.log
  | .advice a => a.log

def revision : Fact → ℤ
  | .case c => c.commitRevision
  | .advice a => a.commitRevision

def delivery (sequence : ℤ) : Fact → DeliveryRow
  | .case c => ⟨c.tenantID, c.issuerEdgeID, c.issuerEdgeGeneration, sequence, .case, c.caseID,
      c.envelopeID, c.commitment, c.raw, c.commitRevision⟩
  | .advice a => ⟨a.tenantID, a.targetEdgeID, a.targetEdgeGeneration, sequence, .advice, a.caseID,
      a.envelopeID, a.commitment, a.raw, a.commitRevision⟩

def case? : Fact → Option CaseRow
  | .case c => some c
  | .advice _ => none

def advice? : Fact → Option AdviceRow
  | .case _ => none
  | .advice a => some a

@[simp] theorem delivery_log (n : ℤ) (f : Fact) : (f.delivery n).log = f.log := by
  cases f <;> rfl

@[simp] theorem delivery_sequence (n : ℤ) (f : Fact) : (f.delivery n).deliverySequence = n := by
  cases f <;> rfl

@[simp] theorem delivery_revision (n : ℤ) (f : Fact) :
    (f.delivery n).authorityRevision = f.revision := by
  cases f <;> rfl

end Fact

section
variable {db db' : Database} {facts : List Fact} (store : Store)

def deliveriesOf (facts : List Fact) : List DeliveryRow :=
  (Numbering.number Fact.log facts).map fun p => p.1.delivery p.2

structure Represents (db : Database) (facts : List Fact) : Prop where
  cases : db.cases = facts.filterMap Fact.case?
  advice : db.advice = facts.filterMap Fact.advice?
  deliveries : db.deliveries = deliveriesOf facts
  sequences : ∀ log, nextSequence db log = Numbering.ordinal Fact.log facts log
  distinct : (facts.map Fact.revision).Nodup
  drawn : ∀ f ∈ facts, f.revision ∈ db.revisions

theorem represents_empty : Represents {} [] where
  cases := rfl
  advice := rfl
  deliveries := rfl
  sequences := fun _ => rfl
  distinct := List.nodup_nil
  drawn := by simp

/- One more fact: its row, its delivery at the next number of its log, and the
counter of that log, all under a revision nobody had. -/
theorem Represents.extend (h : Represents db facts)
    (f : Fact) (hcases : db'.cases = db.cases ++ (f.case?).toList)
    (hadvice : db'.advice = db.advice ++ (f.advice?).toList)
    (hdeliveries : db'.deliveries = db.deliveries ++ [f.delivery (nextSequence db f.log)])
    (hsequences : ∀ log, nextSequence db' log =
      if log = f.log then nextSequence db log + 1 else nextSequence db log)
    (hunused : f.revision ∉ db.revisions)
    (hrevisions : db'.revisions = db.revisions ++ [f.revision]) :
    Represents db' (facts ++ [f]) where
  cases := by
    rw [hcases, h.cases, List.filterMap_append]
    cases f <;> rfl
  advice := by
    rw [hadvice, h.advice, List.filterMap_append]
    cases f <;> rfl
  deliveries := by
    unfold deliveriesOf
    rw [hdeliveries, h.deliveries, Numbering.number_append, List.map_append, h.sequences]
    rfl
  sequences := by
    intro log
    rw [hsequences, h.sequences, Numbering.ordinal_append]
    by_cases hl : log = f.log
    · simp [hl]
    · have hne : ¬ f.log = log := fun e => hl e.symm
      simp [hl, hne]
  distinct := by
    rw [List.map_append, List.nodup_append]
    refine ⟨h.distinct, by simp, ?_⟩
    intro a ha b hb hab
    obtain ⟨g, hg, rfl⟩ := List.mem_map.mp ha
    simp only [List.map_cons, List.map_nil, List.mem_singleton] at hb
    exact hunused (hb ▸ hab ▸ h.drawn g hg)
  drawn := by
    intro g hg
    rw [hrevisions]
    rcases List.mem_append.mp hg with hold | hnew
    · exact List.mem_append_left _ (h.drawn g hold)
    · rw [List.mem_singleton.mp hnew]
      simp

/- A change outside the fact tables keeps the ledger. -/
theorem Represents.keep (h : Represents db facts)
    (hcases : db'.cases = db.cases) (hadvice : db'.advice = db.advice)
    (hdeliveries : db'.deliveries = db.deliveries) (hsequences : db'.sequences = db.sequences)
    (hrevisions : ∀ r ∈ db.revisions, r ∈ db'.revisions) : Represents db' facts where
  cases := hcases.trans h.cases
  advice := hadvice.trans h.advice
  deliveries := hdeliveries.trans h.deliveries
  sequences := by
    intro log
    rw [← h.sequences]
    unfold nextSequence
    rw [hsequences]
  distinct := h.distinct
  drawn := fun f hf => hrevisions _ (h.drawn f hf)

theorem Represents.change {c : Call} (h : Represents db facts)
    (hchange : Change db c db') : ∃ new, Represents db' (facts ++ new) := by
  cases hchange with
  | none => exact ⟨[], by simpa using h⟩
  | case r revision written =>
    exact ⟨[.case (r.row revision)], h.extend (.case (r.row revision)) written.cases
      (by simpa [Fact.advice?] using written.advice) written.deliveries written.sequences
      written.unused written.revisions⟩
  | advice r c revision written valid free head live found =>
    have hkey := (Table.find_eq_some found).2
    have htenant : c.tenantID = r.tenantID := congrArg Prod.fst hkey
    have hlog : (Fact.advice (r.row c (nextSequence db c.log) revision)).log = c.log := by
      show (r.tenantID, c.issuerEdgeID, c.issuerEdgeGeneration) = c.log
      rw [← htenant]
      rfl
    refine ⟨[.advice (r.row c (nextSequence db c.log) revision)], h.extend _
      (by simpa [Fact.case?] using written.cases) written.advice ?_ ?_ written.unused
      written.revisions⟩
    · rw [hlog]
      exact written.deliveries
    · rw [hlog]
      exact written.sequences
  | registry r revision written =>
    refine ⟨[], ?_⟩
    rw [List.append_nil]
    refine h.keep written.cases written.advice written.deliveries written.sequences ?_
    intro x hx
    rw [written.revisions]
    exact List.mem_append_left _ hx
  | halted =>
    refine ⟨[], ?_⟩
    rw [List.append_nil]
    exact h.keep rfl rfl rfl rfl (fun _ hx => hx)

theorem run_represents (db : Database) (facts : List Fact) (es : List Event)
    (h : Represents db facts) : ∃ new, Represents (store.run db es) (facts ++ new) := by
  induction es generalizing db facts with
  | nil => exact ⟨[], by simpa using h⟩
  | cons e es ih =>
    obtain ⟨new, hnew⟩ := h.change (step_change store db e)
    obtain ⟨later, hlater⟩ := ih (store.step db e) (facts ++ new) hnew
    exact ⟨new ++ later, by rw [← List.append_assoc]; exact hlater⟩

theorem reachable_represents (es : List Event) :
    ∃ facts, Represents (store.run {} es) facts := by
  obtain ⟨facts, h⟩ := run_represents store {} [] es represents_empty
  exact ⟨facts, by simpa using h⟩

end

/-! ### The delivery log -/

theorem Represents.case_mem {db : Database} {facts : List Fact} (h : Represents db facts)
    (c : CaseRow) : c ∈ db.cases ↔ Fact.case c ∈ facts := by
  rw [h.cases, List.mem_filterMap]
  constructor
  · rintro ⟨f, hf, hc⟩
    cases f with
    | case =>
      cases hc
      exact hf
    | advice => cases hc
  · intro hf
    exact ⟨_, hf, rfl⟩

theorem Represents.advice_mem {db : Database} {facts : List Fact} (h : Represents db facts)
    (a : AdviceRow) : a ∈ db.advice ↔ Fact.advice a ∈ facts := by
  rw [h.advice, List.mem_filterMap]
  constructor
  · rintro ⟨f, hf, ha⟩
    cases f with
    | case => cases ha
    | advice =>
      cases ha
      exact hf
  · intro hf
    exact ⟨_, hf, rfl⟩

theorem Represents.sequences_of_log {db : Database} {facts : List Fact} (h : Represents db facts)
    (log : Bytes × Bytes × ℤ) :
    (db.deliveries.filter fun d => d.log = log).map DeliveryRow.deliverySequence =
      (List.range' 1 (Numbering.ordinal Fact.log facts log - 1)).map Int.ofNat := by
  rw [h.deliveries, deliveriesOf, List.filter_map, List.map_map,
    ← Numbering.number_log Fact.log facts log, List.map_map]
  have hfilter : ((fun d : DeliveryRow => decide (d.log = log)) ∘
      fun p : Fact × ℕ => p.1.delivery p.2) = fun p => decide (p.1.log = log) := by
    funext p
    simp
  rw [hfilter]
  apply List.map_congr_left
  intro p _
  simp

end Snagline.Authority
