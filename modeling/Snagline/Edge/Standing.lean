import Snagline.Edge.Recovery

/-!
# Accepted advice and its case (sspedge/store.go:591-669)

Advice is written under an accepted case that it binds exactly. Afterwards the row of
that case changes in one way only: a delivery that claims the envelope of the case with
another commitment quarantines it. The advice, under an envelope of its own, is left as
it is.
-/

namespace Snagline.Edge
open Kit

structure Application where
  delivery : JournalDelivery
  verdict : Verdict
  reason : Bytes
  projection : Option VerifiedProjection
  allowReconciliation : Bool

namespace DB

def apply (s : DB) (db : Database) (a : Application) : Database :=
  match s.applyVerified a.delivery a.verdict a.reason a.projection a.allowReconciliation db with
  | .ok (db', _) => db'
  | .error _ => db

def applyAll (s : DB) (db : Database) (applications : List Application) : Database :=
  applications.foldl s.apply db

end DB

/-- An accepted verdict on an envelope `id` with this commitment. -/
def Application.Claims (x : Application) (id commitment : Bytes) : Prop :=
  x.verdict = .accepted ∧
    ∃ p, x.projection = some p ∧ p.envelopeID = id ∧ p.commitment = commitment

structure Standing (claims : Bytes → Bytes → Prop) (t : Projection) : Prop where
  cases : ∀ r ∈ t.cases, (Table.find IdentityRow.envelopeID r.envelopeID t.identities).map
    IdentityRow.commitment = some r.commitment
  accepted : ∀ r ∈ t.cases, r.state = .accepted ∨
    ∃ commitment, claims r.envelopeID commitment ∧ commitment ≠ r.commitment
  advice : ∀ a ∈ t.advice, a.state = .accepted →
    ∃ r, Table.find CaseRow.key a.advice.caseID t.cases = some r ∧ a.advice.binds r = true

section
variable {claims : Bytes → Bytes → Prop} {t t' : Projection}

theorem standing_empty : Standing claims {} := by
  constructor <;> simp

/-! ### Claims -/

theorem Standing.first (h : Standing claims t) (row : IdentityRow) :
    Standing claims { t with identities := t.identities ++ [row] } where
  cases := by
    intro r hr
    obtain ⟨i, hi, hsame⟩ := Option.map_eq_some_iff.mp (h.cases r hr)
    rw [Table.find_append, hi]
    exact congrArg some hsame
  accepted := h.accepted
  advice := h.advice

theorem find_quarantined (id caseID : Bytes) (cases : List CaseRow) :
    Table.find CaseRow.key caseID
        (Table.update CaseRow.envelopeID id (fun r => { r with state := .quarantined }) cases) =
      (Table.find CaseRow.key caseID cases).map fun r =>
        if r.envelopeID = id then { r with state := .quarantined } else r := by
  have hmap : Table.update CaseRow.envelopeID id (fun r => { r with state := .quarantined }) cases =
      cases.map fun r => if r.envelopeID = id then { r with state := .quarantined } else r := by
    unfold Table.update
    simp only [beq_iff_eq]
  rw [hmap]
  refine Table.find_map CaseRow.key caseID _ ?_ cases
  intro r
  split <;> rfl

theorem Standing.conflict (h : Standing claims t) {id commitment : Bytes} {i : IdentityRow}
    (hfound : Table.find IdentityRow.envelopeID id t.identities = some i)
    (hother : i.commitment ≠ commitment) (hclaims : claims id commitment) (seq : ℤ) :
    Standing claims
      { identities :=
          Table.update IdentityRow.envelopeID id (IdentityRow.quarantine commitment seq) t.identities
        cases := Table.update CaseRow.envelopeID id (fun r => { r with state := .quarantined }) t.cases
        advice :=
          Table.update AdviceRow.envelopeID id (fun r => { r with state := .quarantined }) t.advice } where
  cases := by
    intro r hr
    obtain ⟨x, hx, hcase⟩ := Table.mem_update hr
    have hsame := h.cases x hx
    rw [Table.find_update IdentityRow.envelopeID id _ (IdentityRow.quarantine commitment seq)
      fun _ => rfl]
    rcases hcase with ⟨hne, rfl⟩ | ⟨rfl, rfl⟩
    · rw [if_neg hne]
      exact hsame
    · rw [hfound] at hsame
      rw [if_pos rfl, hfound]
      exact hsame
  accepted := by
    intro r hr
    obtain ⟨x, hx, ⟨-, rfl⟩ | ⟨rfl, rfl⟩⟩ := Table.mem_update hr
    · exact h.accepted r hx
    · have hsame := h.cases x hx
      rw [hfound] at hsame
      exact .inr ⟨commitment, hclaims, fun heq => hother ((Option.some.inj hsame).trans heq.symm)⟩
  advice := by
    intro a ha hstate
    obtain ⟨x, hx, ⟨-, rfl⟩ | ⟨-, rfl⟩⟩ := Table.mem_update ha
    · obtain ⟨r, hr, hbinds⟩ := h.advice a hx hstate
      refine ⟨if r.envelopeID = id then { r with state := .quarantined } else r, ?_, ?_⟩
      · rw [find_quarantined, hr]
        rfl
      · split <;> exact hbinds
    · cases hstate

theorem Standing.claim (h : Standing claims t) {id commitment : Bytes}
    (hclaims : claims id commitment) (seq : ℤ) :
    Standing claims (t.claimIdentity id commitment seq).1 ∧
      ((t.claimIdentity id commitment seq).2 ≠ .quarantined →
        (Table.find IdentityRow.envelopeID id (t.claimIdentity id commitment seq).1.identities).map
          IdentityRow.commitment = some commitment) := by
  unfold Projection.claimIdentity
  cases hfound : Table.find IdentityRow.envelopeID id t.identities with
  | none =>
    refine ⟨h.first _, ?_⟩
    intro _
    rw [Table.find_append, hfound]
    simp
  | some i =>
    dsimp only
    split
    · rename_i hsame
      exact ⟨h, fun _ => by rw [hfound, ← hsame]; rfl⟩
    · rename_i hother
      exact ⟨h.conflict hfound hother hclaims seq, fun hnot => absurd rfl hnot⟩

/-! ### Writing -/

theorem insertOrIgnore_ok {ρ κ : Type} [DecidableEq κ] {key : ρ → κ} {other : ρ → Bytes} {row : ρ}
    {rows rows' : List ρ} (h : insertOrIgnore key other row rows = .ok rows') :
    rows' = rows ∨ rows' = rows ++ [row] := by
  unfold insertOrIgnore at h
  split at h
  · cases h
    exact .inl rfl
  · split at h
    · cases h
    · cases h
      exact .inr rfl

theorem Standing.persist (h : Standing claims t) {p : VerifiedProjection}
    (hidentity : (Table.find IdentityRow.envelopeID p.envelopeID t.identities).map
      IdentityRow.commitment = some p.commitment) (hpersist : t.persist p = .ok t') :
    Standing claims t' := by
  unfold Projection.persist at hpersist
  cases hfamily : p.family with
  | case =>
    rw [hfamily] at hpersist
    obtain ⟨c, -, hpersist⟩ := orFail_bind_eq_ok.mp hpersist
    obtain ⟨rows, hrows, hpersist⟩ := bind_eq_ok.mp hpersist
    cases hpersist
    rcases insertOrIgnore_ok hrows with rfl | rfl
    · exact h
    · constructor
      · intro r hr
        rcases List.mem_append.mp hr with hold | hnew
        · exact h.cases r hold
        · rw [List.mem_singleton.mp hnew]
          exact hidentity
      · intro r hr
        rcases List.mem_append.mp hr with hold | hnew
        · exact h.accepted r hold
        · exact .inl (List.mem_singleton.mp hnew ▸ rfl)
      · intro a ha hstate
        obtain ⟨r, hr, hbinds⟩ := h.advice a ha hstate
        refine ⟨r, ?_, hbinds⟩
        rw [Table.find_append, hr]
        rfl
  | advice =>
    rw [hfamily] at hpersist
    obtain ⟨a, -, hpersist⟩ := orFail_bind_eq_ok.mp hpersist
    obtain ⟨r, hr, hpersist⟩ := orFail_bind_eq_ok.mp hpersist
    obtain ⟨hbinds, hpersist⟩ := ensure_bind_eq_ok.mp hpersist
    obtain ⟨rows, hrows, hpersist⟩ := bind_eq_ok.mp hpersist
    cases hpersist
    rcases insertOrIgnore_ok hrows with rfl | rfl
    · exact h
    · refine ⟨h.cases, h.accepted, ?_⟩
      intro x hx hstate
      rcases List.mem_append.mp hx with hold | hnew
      · exact h.advice x hold hstate
      · rw [List.mem_singleton.mp hnew]
        exact ⟨r, (Option.filter_eq_some_iff.mp hr).1, hbinds⟩

theorem Standing.settle {verdict : Verdict} {reason : Bytes} {p : Option VerifiedProjection}
    {seq : ℤ} {db db' : Database} {j : Judged} (h : Standing claims db.projection)
    (hclaims : ∀ q, verdict = .accepted → p = some q → claims q.envelopeID q.commitment)
    (hsettle : settleVerdict verdict reason p seq db = .ok (db', j)) :
    Standing claims db'.projection := by
  unfold settleVerdict at hsettle
  split at hsettle
  · rename_i p
    have hclaim : Standing claims (claimIdentity p.envelopeID p.commitment seq db).1.projection ∧
        ((claimIdentity p.envelopeID p.commitment seq db).2 ≠ .quarantined →
          (Table.find IdentityRow.envelopeID p.envelopeID
            (claimIdentity p.envelopeID p.commitment seq db).1.projection.identities).map
            IdentityRow.commitment = some p.commitment) :=
      h.claim (hclaims p rfl rfl) seq
    split at hsettle
    · rename_i heq
      cases hsettle
      rw [heq] at hclaim
      exact hclaim.1
    · rename_i heq
      cases hsettle
      rw [heq] at hclaim
      exact hclaim.1
    · rename_i hquarantined _ heq
      obtain ⟨db₁, hpersist, hsettle⟩ := bind_eq_ok.mp hsettle
      cases hsettle
      rw [heq] at hclaim
      exact hclaim.1.persist (hclaim.2 hquarantined) (persistProjection_ok hpersist).1
  · cases hsettle
    exact h

end

/-! ### Applications -/

section
variable {db db' : Database} {p : Option VerifiedProjection} {s : DB} {outcome : ApplyOutcome}
  {d : JournalDelivery} {verdict : Verdict} {present : Bool} {reason : Bytes}

theorem recordDelivery_projection
    (h : s.recordDelivery d verdict reason p present db = .ok (db', outcome)) :
    ∃ db₁ j, settleVerdict verdict reason p d.deliverySeq db = .ok (db₁, j) ∧
      db'.projection = db₁.projection := by
  obtain ⟨db₁, j, hsettle, -, hadvance⟩ := recordDelivery_eq_ok h
  have hsame := (advanceDeliveryStateTx_frame hadvance).1
  exact ⟨db₁, j, hsettle, hsame⟩

theorem applied_projection (h : Applied s d verdict reason p db db' outcome) :
    db'.projection = db.projection ∨
      ∃ db₁ j, settleVerdict verdict reason p d.deliverySeq db = .ok (db₁, j) ∧
        db'.projection = db₁.projection := by
  cases h with
  | duplicate | halted => exact .inl rfl
  | recorded _ _ _ written => exact .inr (recordDelivery_projection written)
  | torn _ _ _ _ _ _ left =>
    rcases left with rfl | hadvance
    · exact .inl rfl
    · exact .inl (advanceDeliveryStateTx_frame hadvance).1

theorem Standing.apply {claims : Bytes → Bytes → Prop} (h : Standing claims db.projection)
    {x : Application} (hclaims : ∀ id commitment, x.Claims id commitment → claims id commitment) :
    Standing claims (s.apply db x).projection := by
  unfold DB.apply
  split
  · rename_i happly
    rcases applied_projection (applyVerified_applied happly).2.2 with hsame | ⟨db₁, j, hsettle, hsame⟩
    · rw [hsame]
      exact h
    · rw [hsame]
      exact h.settle (fun q hverdict hq => hclaims _ _ ⟨hverdict, q, hq, rfl, rfl⟩) hsettle
  · exact h

theorem Standing.applyAll {claims : Bytes → Bytes → Prop} {applications : List Application}
    (hclaims : ∀ x ∈ applications, ∀ id commitment, x.Claims id commitment → claims id commitment)
    (h : Standing claims db.projection) :
    Standing claims (s.applyAll db applications).projection := by
  induction applications generalizing db with
  | nil => exact h
  | cons x rest ih =>
    exact ih (fun y hy => hclaims y (List.mem_cons_of_mem _ hy)) (h.apply (hclaims x List.mem_cons_self))

/-- In every state the journal reaches, accepted advice has a case row with its case ID
and exactly the coordinates it recorded. That row is accepted as well unless one of the
applications claims its envelope with another commitment. -/
theorem accepted_advice_case (s : DB) (applications : List Application) (a : AdviceRow)
    (ha : a ∈ (s.applyAll {} applications).projection.advice) (hstate : a.state = .accepted) :
    ∃ r, Table.find CaseRow.key a.advice.caseID (s.applyAll {} applications).projection.cases =
        some r ∧ a.advice.binds r = true ∧
      ((∀ x ∈ applications, ∀ commitment, x.Claims r.envelopeID commitment →
        commitment = r.commitment) → r.state = .accepted) := by
  have h : Standing (fun id commitment => ∃ x ∈ applications, x.Claims id commitment)
      (s.applyAll {} applications).projection :=
    standing_empty.applyAll fun x hx _ _ hclaims => ⟨x, hx, hclaims⟩
  obtain ⟨r, hr, hbinds⟩ := h.advice a ha hstate
  refine ⟨r, hr, hbinds, fun hone => ?_⟩
  rcases h.accepted r (Table.find_eq_some hr).1 with haccepted | ⟨commitment, ⟨x, hx, hclaims⟩, hother⟩
  · exact haccepted
  · exact absurd (hone x hx commitment hclaims) hother

end

namespace Sample

def journal : DB := ⟨[116], sha256⟩

def delivered (seq : ℤ) (raw : Bytes) (p : VerifiedProjection) : Application :=
  ⟨⟨Delivery.streamName, 1, seq, [116], [101], 1, [115], raw⟩, .accepted, [], some p, false⟩

def advised : List Application := [delivered 1 [7] projection, delivered 2 [8] answer]

def conflicting : Application :=
  delivered 3 [9] { projection with commitment := text "sha256:" ++ List.replicate 64 49 }

def adviceRow : AdviceRow := ⟨[119], digest, answered, .accepted⟩

end Sample

/-- A case and advice on it, each with one commitment: both are accepted. -/
theorem accepted_advice_case_sample :
    ∃ r, Table.find CaseRow.key [99] (Sample.journal.applyAll {} Sample.advised).projection.cases =
        some r ∧ Sample.answered.binds r = true ∧ r.state = .accepted := by
  obtain ⟨r, hr, hbinds, haccepted⟩ := accepted_advice_case Sample.journal Sample.advised
    Sample.adviceRow (by decide +kernel) rfl
  refine ⟨r, hr, hbinds, haccepted ?_⟩
  have hcommitment : (Table.find CaseRow.key [99] (Sample.journal.applyAll {}
      Sample.advised).projection.cases).map CaseRow.commitment = some Sample.digest := by
    decide +kernel
  rw [show Table.find CaseRow.key [99] _ = some r from hr] at hcommitment
  rintro x hx commitment ⟨-, p, hp, -, rfl⟩
  simp only [Sample.advised, List.mem_cons, List.not_mem_nil, or_false] at hx
  rcases hx with rfl | rfl
  all_goals
    cases hp
    exact (Option.some.inj hcommitment).symm

/-- The second commitment for the case's envelope quarantines the case and leaves the
advice accepted and its outbox rows pending. -/
theorem advice_outlives_case :
    let db := Sample.journal.applyAll {} (Sample.advised ++ [Sample.conflicting])
    db.projection.cases.map (fun r => (r.key, r.state)) = [([99], .quarantined)] ∧
      db.projection.advice = [Sample.adviceRow] ∧ Sample.adviceRow.state = .accepted ∧
      Sample.adviceRow.advice.caseID = [99] ∧
      db.front.map (fun r => (r.front, r.adviceID, r.state)) =
        [(.cli, [97], .pending), (.amq, [97], .pending)] := by
  decide +kernel

end Snagline.Edge
