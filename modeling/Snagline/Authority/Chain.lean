import Snagline.Authority.Committed

/-!
# The registry chain of a tenant

The accepted registries of a tenant have consecutive revisions, each naming the
commitment of the one before, and the head stands at the last of them. A halted
head admits nothing any more and never moves.
-/

namespace Snagline.Authority
open Kit Ssp

def Database.registriesOf (db : Database) (tenantID : Bytes) : List RegistryRow :=
  db.registries.filter fun r => r.tenantID = tenantID

def Database.casesOf (db : Database) (tenantID : Bytes) : List CaseRow :=
  db.cases.filter fun r => r.tenantID = tenantID

def Database.adviceOf (db : Database) (tenantID : Bytes) : List AdviceRow :=
  db.advice.filter fun r => r.tenantID = tenantID

def Database.headOf (db : Database) (tenantID : Bytes) : Option HeadRow :=
  Table.find HeadRow.tenantID tenantID db.heads

structure Position where
  revision : ℤ
  commitment : Bytes
  routingEpoch : ℤ
  deriving DecidableEq

def HeadRow.position (h : HeadRow) : Position := ⟨h.latestRevision, h.latestCommitment, h.routingEpoch⟩

def RegistryRow.position (r : RegistryRow) : Position :=
  ⟨r.registryRevision, r.commitment, r.routingEpoch⟩

/-- `next` is the link after `r`. -/
def RegistryRow.Precedes (r next : RegistryRow) : Prop :=
  next.registryRevision = r.registryRevision + 1 ∧ next.previousCommitment = some r.commitment

structure Linked (rows : List RegistryRow) : Prop where
  first : ∀ r ∈ rows.head?, r.previousCommitment = none
  chain : rows.IsChain RegistryRow.Precedes

theorem linked_nil : Linked [] := ⟨by simp, .nil⟩

theorem Linked.append {rows : List RegistryRow} (h : Linked rows) {r : RegistryRow}
    (hfirst : rows = [] → r.previousCommitment = none)
    (hnext : ∀ last, rows.getLast? = some last → last.Precedes r) : Linked (rows ++ [r]) := by
  constructor
  · cases rows with
    | nil =>
      intro x hx
      cases hx
      exact hfirst rfl
    | cons => exact h.first
  · rw [List.isChain_append]
    refine ⟨h.chain, .singleton r, ?_⟩
    intro last hlast x hx
    cases hx
    exact hnext last hlast

/-! ### The chain and its head -/

section
variable {db db' : Database} {r : CommitRegistryRequest}

structure Chained (db : Database) : Prop where
  linked : ∀ tenantID, Linked (db.registriesOf tenantID)
  head : ∀ tenantID, (db.headOf tenantID).map HeadRow.position =
    (db.registriesOf tenantID).getLast?.map RegistryRow.position
  named : ∀ r ∈ db.registries, r.commitment ≠ []

theorem chained_empty : Chained {} where
  linked := fun _ => linked_nil
  head := fun _ => rfl
  named := by simp

theorem Chained.frame (h : Chained db)
    (hregistries : db'.registries = db.registries)
    (hheads : ∀ tenantID, (db'.headOf tenantID).map HeadRow.position =
      (db.headOf tenantID).map HeadRow.position) : Chained db' := by
  have hrows : ∀ tenantID, db'.registriesOf tenantID = db.registriesOf tenantID := by
    intro tenantID
    unfold Database.registriesOf
    rw [hregistries]
  refine ⟨fun tenantID => hrows tenantID ▸ h.linked tenantID, fun tenantID => ?_,
    hregistries ▸ h.named⟩
  rw [hheads, hrows]
  exact h.head tenantID

theorem headOf_own
    (hheads : db'.heads = r.headsAfter (db.headOf r.tenantID) db.heads) :
    (db'.headOf r.tenantID).map HeadRow.position =
      some ⟨r.revision, r.commitment, r.routingEpoch⟩ := by
  unfold CommitRegistryRequest.headsAfter Database.headOf at *
  rw [hheads]
  cases hfound : Table.find HeadRow.tenantID r.tenantID db.heads with
  | none =>
    have hown : r.head.tenantID = r.tenantID := rfl
    rw [Table.find_append, hfound, if_pos hown]
    rfl
  | some =>
    rw [Table.find_update HeadRow.tenantID _ _
      (HeadRow.advanced r.revision r.commitment r.routingEpoch) (fun _ => rfl), if_pos rfl, hfound]
    rfl

theorem headOf_other {head : Option HeadRow}
    (hheads : db'.heads = r.headsAfter head db.heads) {tenantID : Bytes}
    (hne : r.tenantID ≠ tenantID) : db'.headOf tenantID = db.headOf tenantID := by
  unfold CommitRegistryRequest.headsAfter Database.headOf at *
  rw [hheads]
  cases head with
  | none =>
    have hother : ¬ r.head.tenantID = tenantID := hne
    rw [Table.find_append, if_neg hother, Option.or_none]
  | some =>
    rw [Table.find_update HeadRow.tenantID _ _
      (HeadRow.advanced r.revision r.commitment r.routingEpoch) (fun _ => rfl),
      if_neg (Ne.symm hne)]

theorem headOf_halted (tenantID reason other : Bytes) :
    ((db.halt tenantID reason).headOf other).map HeadRow.position =
      (db.headOf other).map HeadRow.position := by
  unfold Database.headOf Database.halt
  rw [Table.find_update HeadRow.tenantID _ _ (HeadRow.stopped reason) (fun _ => rfl)]
  split
  · rw [Option.map_map]
    rfl
  · rfl

theorem CommitRegistryRequest.commitment_ne_nil
    (valid : r.validate = .ok ()) : r.commitment ≠ [] := by
  unfold CommitRegistryRequest.validate at valid
  simp only [ensure_bind_eq_ok, Bool.and_eq_true] at valid
  have hcommitment : validCommitment r.commitment = true := valid.1.1.1.1.1.2
  intro hnil
  rw [hnil] at hcommitment
  cases hcommitment

theorem registriesOf_append {row : RegistryRow}
    (h : db'.registries = db.registries ++ [row]) (tenantID : Bytes) :
    db'.registriesOf tenantID =
      db.registriesOf tenantID ++ if row.tenantID = tenantID then [row] else [] := by
  unfold Database.registriesOf
  rw [h, List.filter_append]
  by_cases hsame : row.tenantID = tenantID
  · simp [hsame]
  · simp [hsame]

theorem Chained.follows {db : Database} (h : Chained db)
    (next : r.Follows (db.headOf r.tenantID)) (revision : ℤ) :
    Linked (db.registriesOf r.tenantID ++ [r.row revision]) := by
  have hhead := h.head r.tenantID
  refine (h.linked r.tenantID).append ?_ ?_
  · intro hnil
    rw [hnil] at hhead
    cases hfound : db.headOf r.tenantID with
    | none =>
      rw [hfound] at next
      have hprevious : r.previousCommitment = [] := next
      show nullableText r.previousCommitment = none
      rw [hprevious]
      rfl
    | some =>
      rw [hfound] at hhead
      cases hhead
  · intro last hlast
    rw [hlast] at hhead
    cases hfound : db.headOf r.tenantID with
    | none =>
      rw [hfound] at hhead
      cases hhead
    | some head =>
      rw [hfound] at next hhead
      obtain ⟨-, hrevision, hprevious⟩ := next
      have hposition : head.position = last.position := Option.some.inj hhead
      have hat : head.latestRevision = last.registryRevision := congrArg Position.revision hposition
      have hnamed : head.latestCommitment = last.commitment :=
        congrArg Position.commitment hposition
      have hmem : last ∈ db.registries :=
        (List.mem_filter.mp (List.mem_of_getLast? hlast)).1
      constructor
      · show r.revision = last.registryRevision + 1
        rw [hrevision, hat]
      · show nullableText r.previousCommitment = some last.commitment
        rw [hprevious, hnamed]
        unfold nullableText
        rw [if_neg]
        intro hempty
        exact h.named last hmem (List.isEmpty_iff.mp hempty)

theorem Chained.register (h : Chained db)
    {revision : ℤ} (valid : r.validate = .ok ()) (next : r.Follows (db.headOf r.tenantID))
    (written : RegistryWritten r (db.headOf r.tenantID) revision db db') : Chained db' := by
  have hrows := registriesOf_append written.registries
  refine ⟨fun tenantID => ?_, fun tenantID => ?_, ?_⟩
  · rw [hrows]
    by_cases hsame : (r.row revision).tenantID = tenantID
    · rw [if_pos hsame, ← hsame]
      exact h.follows next revision
    · rw [if_neg hsame, List.append_nil]
      exact h.linked tenantID
  · rw [hrows]
    by_cases hsame : (r.row revision).tenantID = tenantID
    · have hown : r.tenantID = tenantID := hsame
      rw [if_pos hsame, List.getLast?_append, ← hown, headOf_own written.heads]
      rfl
    · rw [if_neg hsame, List.append_nil, headOf_other written.heads hsame]
      exact h.head tenantID
  · rw [written.registries]
    intro row hrow
    rcases List.mem_append.mp hrow with hold | hnew
    · exact h.named row hold
    · rw [List.mem_singleton.mp hnew]
      exact CommitRegistryRequest.commitment_ne_nil valid

theorem Chained.change {c : Call} (h : Chained db) (hchange : Change db c db') :
    Chained db' := by
  have hkeep (heads : db'.heads = db.heads) (tenantID : Bytes) :
      (db'.headOf tenantID).map HeadRow.position = (db.headOf tenantID).map HeadRow.position := by
    unfold Database.headOf
    rw [heads]
  cases hchange with
  | none => exact h
  | case _ _ written | advice _ _ _ written =>
    exact h.frame written.registries (hkeep written.heads)
  | registry r revision written valid next => exact h.register valid next written
  | halted => exact h.frame rfl (headOf_halted _ _)

theorem reachable_chained (store : Store) (es : List Event) : Chained (store.run {} es) :=
  run_invariant store Chained (fun db e h => h.change (step_change store db e)) {} es chained_empty

end

/-! ### A halted head -/

section
variable {tenantID : Bytes} {db db' : Database}

def Database.stopped (db : Database) (tenantID : Bytes) : Prop :=
  ∃ head, db.headOf tenantID = some head ∧ head.halted = true

structure Frozen (tenantID : Bytes) (db db' : Database) : Prop where
  registries : db'.registriesOf tenantID = db.registriesOf tenantID
  cases : db'.casesOf tenantID = db.casesOf tenantID
  advice : db'.adviceOf tenantID = db.adviceOf tenantID
  head : (db'.headOf tenantID).map HeadRow.position = (db.headOf tenantID).map HeadRow.position

theorem Frozen.refl (tenantID : Bytes) (db : Database) : Frozen tenantID db db :=
    ⟨rfl, rfl, rfl, rfl⟩

theorem Frozen.trans {a b c : Database} (hab : Frozen tenantID a b)
    (hbc : Frozen tenantID b c) : Frozen tenantID a c :=
  ⟨hbc.registries.trans hab.registries, hbc.cases.trans hab.cases, hbc.advice.trans hab.advice,
    hbc.head.trans hab.head⟩

theorem LiveHead.not_stopped {db : Database} {head : HeadRow}
    (h : LiveHead db tenantID head) : ¬ db.stopped tenantID := by
  rintro ⟨head', hfound, hhalted⟩
  have hsame : head = head' := Option.some.inj (h.found.symm.trans hfound)
  rw [← hsame, h.live] at hhalted
  cases hhalted

theorem CommitRegistryRequest.Follows.not_stopped {db : Database} {r : CommitRegistryRequest}
    (h : r.Follows (db.headOf r.tenantID)) : ¬ db.stopped r.tenantID := by
  rintro ⟨head, hfound, hhalted⟩
  rw [hfound] at h
  rw [h.1] at hhalted
  cases hhalted

theorem filter_append_other {ρ : Type} (tenantOf : ρ → Bytes) {rows : List ρ} {row : ρ}
    (h : tenantOf row ≠ tenantID) :
    (rows ++ [row]).filter (fun r => tenantOf r = tenantID) =
      rows.filter fun r => tenantOf r = tenantID := by
  simp [h]

theorem stopped_of_heads (h : db.stopped tenantID)
    (hheads : db'.heads = db.heads) : db'.stopped tenantID := by
  unfold Database.stopped Database.headOf at h ⊢
  rw [hheads]
  exact h

theorem stopped_of_halted {tenantID other reason : Bytes} (h : db.stopped tenantID) :
    (db.halt other reason).stopped tenantID := by
  obtain ⟨head, hfound, hstopped⟩ := h
  unfold Database.stopped Database.headOf Database.halt at *
  rw [Table.find_update HeadRow.tenantID _ _ (HeadRow.stopped reason) (fun _ => rfl), hfound]
  split
  · exact ⟨_, rfl, rfl⟩
  · exact ⟨head, rfl, hstopped⟩

-- an attempt that adds a row for the tenant saw its head live, so it is another tenant's
theorem stopped_change {c : Call} (h : db.stopped tenantID)
    (hchange : Change db c db') : db'.stopped tenantID ∧ Frozen tenantID db db' := by
  cases hchange with
  | none => exact ⟨h, Frozen.refl tenantID db⟩
  | case r revision written valid free head live =>
    have hne : r.tenantID ≠ tenantID := fun e => live.not_stopped (e ▸ h)
    have hhead : db'.headOf tenantID = db.headOf tenantID := by
      unfold Database.headOf
      rw [written.heads]
    refine ⟨stopped_of_heads h written.heads, ?_, ?_, ?_, by rw [hhead]⟩
    · unfold Database.registriesOf
      rw [written.registries]
    · unfold Database.casesOf
      rw [written.cases, filter_append_other CaseRow.tenantID hne]
    · unfold Database.adviceOf
      rw [written.advice]
  | advice r c revision written valid free head live =>
    have hne : r.tenantID ≠ tenantID := fun e => live.not_stopped (e ▸ h)
    have hhead : db'.headOf tenantID = db.headOf tenantID := by
      unfold Database.headOf
      rw [written.heads]
    refine ⟨stopped_of_heads h written.heads, ?_, ?_, ?_, by rw [hhead]⟩
    · unfold Database.registriesOf
      rw [written.registries]
    · unfold Database.casesOf
      rw [written.cases]
    · unfold Database.adviceOf
      rw [written.advice, filter_append_other AdviceRow.tenantID hne]
  | registry r revision written valid next =>
    have hne : r.tenantID ≠ tenantID := by
      intro e
      refine CommitRegistryRequest.Follows.not_stopped next ?_
      rw [e]
      exact h
    have hhead : db'.headOf tenantID = db.headOf tenantID := headOf_other written.heads hne
    refine ⟨?_, ?_, ?_, ?_, by rw [hhead]⟩
    · unfold Database.stopped
      rw [hhead]
      exact h
    · unfold Database.registriesOf
      rw [written.registries, filter_append_other RegistryRow.tenantID hne]
    · unfold Database.casesOf
      rw [written.cases]
    · unfold Database.adviceOf
      rw [written.advice]
  | halted =>
    exact ⟨stopped_of_halted h, rfl, rfl, rfl, headOf_halted _ _ tenantID⟩

theorem run_stopped (store : Store) {tenantID : Bytes} {db : Database} (es : List Event)
    (h : db.stopped tenantID) :
    (store.run db es).stopped tenantID ∧ Frozen tenantID db (store.run db es) := by
  refine run_invariant store (fun db' => db'.stopped tenantID ∧ Frozen tenantID db db') ?_ db es
    ⟨h, Frozen.refl tenantID db⟩
  rintro db' e ⟨hstopped, hfrozen⟩
  obtain ⟨hstopped', hstep⟩ := stopped_change hstopped (step_change store db' e)
  exact ⟨hstopped', hfrozen.trans hstep⟩

/-- The rows of a tenant are one chain that ends at the head, and a halted head
ends it for good. -/
theorem registry_chain (store : Store) (es : List Event) (tenantID : Bytes) :
    let db := store.run {} es
    Linked (db.registriesOf tenantID) ∧
    (db.headOf tenantID).map HeadRow.position =
      (db.registriesOf tenantID).getLast?.map RegistryRow.position ∧
    ∀ head, db.headOf tenantID = some head → head.halted = true → ∀ later : List Event,
      Frozen tenantID db (store.run db later) := by
  intro db
  have hchained := reachable_chained store es
  refine ⟨hchained.linked tenantID, hchained.head tenantID, ?_⟩
  intro head hfound hhalted later
  exact (run_stopped store later ⟨head, hfound, hhalted⟩).2


end

/-! ### What stops a head -/

theorem CommitRegistryRequest.headOf_live {r : CommitRegistryRequest} {db db' : Database}
    (next : r.Follows (db.headOf r.tenantID))
    (hheads : db'.heads = r.headsAfter (db.headOf r.tenantID) db.heads) :
    ¬ db'.stopped r.tenantID := by
  rintro ⟨head, hfound, hhalted⟩
  unfold CommitRegistryRequest.headsAfter Database.headOf at *
  rw [hheads] at hfound
  cases hold : Table.find HeadRow.tenantID r.tenantID db.heads with
  | none =>
    have hown : r.head.tenantID = r.tenantID := rfl
    rw [hold] at hfound
    dsimp only at hfound
    rw [Table.find_append, hold, if_pos hown] at hfound
    cases hfound
    cases hhalted
  | some old =>
    rw [hold] at hfound next
    dsimp only at hfound
    rw [Table.find_update HeadRow.tenantID _ _
      (HeadRow.advanced r.revision r.commitment r.routingEpoch) (fun _ => rfl), if_pos rfl, hold]
      at hfound
    cases hfound
    have hlive : old.halted = false := next.1
    have hkept : old.halted = true := hhalted
    rw [hlive] at hkept
    cases hkept

theorem not_stopped_of_head {db db' : Database} {tenantID : Bytes} (h : ¬ db.stopped tenantID)
    (hhead : db'.headOf tenantID = db.headOf tenantID) : ¬ db'.stopped tenantID := by
  unfold Database.stopped at *
  rwa [hhead]

theorem Change.stops {db db' : Database} {c : Call} {tenantID : Bytes} (h : Change db c db')
    (hlive : ¬ db.stopped tenantID) (hstopped : db'.stopped tenantID) :
    ∃ r head reason e, c = .registry r ∧ r.tenantID = tenantID ∧ LiveHead db tenantID head ∧
      r.Halts head db reason e := by
  have hkept : db'.headOf tenantID ≠ db.headOf tenantID :=
    fun hhead => not_stopped_of_head hlive hhead hstopped
  cases h with
  | none => exact absurd hstopped hlive
  | case _ _ written | advice _ _ _ written =>
    refine absurd ?_ hkept
    unfold Database.headOf
    rw [written.heads]
  | registry r revision written valid next =>
    by_cases hown : r.tenantID = tenantID
    · subst hown
      exact absurd hstopped (CommitRegistryRequest.headOf_live next written.heads)
    · exact absurd (headOf_other written.heads hown) hkept
  | halted r head reason e live contradicts =>
    by_cases hown : r.tenantID = tenantID
    · subst hown
      exact ⟨r, head, reason, e, rfl, rfl, live, contradicts⟩
    · refine absurd ?_ hkept
      exact (Table.find_update HeadRow.tenantID _ _ (HeadRow.stopped reason)
        (fun _ => rfl) _).trans (if_neg (Ne.symm hown))

end Snagline.Authority
