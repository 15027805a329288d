import Snagline.Edge.Convergence

/-!
# A log that can be recorded to its end

Whether an entry can be recorded depends on the entries before it alone: no other
content was accepted under its envelope ID, and the case an advice answers was
accepted and is the one the projection kept. Then no transaction of a
reconciliation fails, whatever state it starts from.
-/

namespace Snagline.Edge
open Kit Ssp Delivery Authority

def JournalConsumer.judged (c : JournalConsumer) (judge : Judge) (e : EdgeDelivery) :
    Option (Verdict × Bytes × Option VerifiedProjection) :=
  c.verdict (c.reconciled e).subject ((judge e).mapError .permanent)

def JournalConsumer.Accepts (c : JournalConsumer) (judge : Judge) (e : EdgeDelivery)
    (p : VerifiedProjection) : Prop :=
  c.judged judge e = some (.accepted, [], some p)

/-- Entry `k` is accepted as the projection `p`. -/
def AcceptedAt (c : JournalConsumer) (log : EdgeLog) (judge : Judge) (k : ℕ)
    (p : VerifiedProjection) : Prop :=
  ∃ e, log.entries[k]? = some e ∧ c.Accepts judge e p

/-- Entry `j` opens the case: none before it is accepted under the same envelope
ID or for the same case. -/
structure Opens (c : JournalConsumer) (log : EdgeLog) (judge : Judge) (j : ℕ)
    (p : VerifiedProjection) (case : Case) : Prop where
  accepted : AcceptedAt c log judge j p
  family : p.family = .case
  opened : p.case = some case
  envelope : ∀ i < j, ∀ q, AcceptedAt c log judge i q → q.envelopeID ≠ p.envelopeID
  first : ∀ i < j, ∀ q other, AcceptedAt c log judge i q → q.family = .case →
    q.case = some other → other.caseID ≠ case.caseID

/-- The verdicts on a log can be recorded: each is well formed, no two accepted
envelopes with one ID have different commitments, and an accepted advice exactly
binds the accepted case entry that opened its case. -/
structure Recoverable (c : JournalConsumer) (log : EdgeLog) (judge : Judge) : Prop where
  tenant : c.identity.tenantID = c.store.tenant
  complete : ∀ e ∈ log.entries, e.Complete
  sized : ∀ e ∈ log.entries, e.raw.length ≤ maxEnvelopeBytes
  formed : ∀ e ∈ log.entries, ∀ verdict reason p, c.judged judge e = some (verdict, reason, p) →
    c.store.validateDelivery (c.reconciled e) verdict reason p = .ok ()
  unconflicted : ∀ i j p q, AcceptedAt c log judge i p → AcceptedAt c log judge j q →
    p.envelopeID = q.envelopeID → p.commitment = q.commitment
  bound : ∀ k p advice, AcceptedAt c log judge k p → p.family = .advice →
    p.advice = some advice → ∃ j q case, j < k ∧ Opens c log judge j q case ∧
      case.caseID = advice.caseID ∧
      advice.binds ⟨q.envelopeID, q.commitment, case, .accepted⟩ = true

/-- What the first `k` entries leave in the projection. -/
structure Projected (c : JournalConsumer) (log : EdgeLog) (judge : Judge) (k : ℕ)
    (t : Projection) : Prop where
  identities : ∀ row ∈ t.identities, ∃ j < k, ∃ p, AcceptedAt c log judge j p ∧
    p.envelopeID = row.envelopeID ∧ p.commitment = row.commitment
  claimedCase : ∀ row ∈ t.cases, ∃ id ∈ t.identities, id.envelopeID = row.envelopeID
  claimedAdvice : ∀ row ∈ t.advice, ∃ id ∈ t.identities, id.envelopeID = row.envelopeID
  cases : ∀ row ∈ t.cases, ∃ j < k, ∃ p, AcceptedAt c log judge j p ∧ p.family = .case ∧
    p.case = some row.case
  opened : ∀ j < k, ∀ p case, Opens c log judge j p case →
    Table.find CaseRow.key case.caseID t.cases =
      some ⟨p.envelopeID, p.commitment, case, .accepted⟩

theorem projected_empty (c : JournalConsumer) (log : EdgeLog) (judge : Judge) :
    Projected c log judge 0 {} := by
  refine ⟨by simp, by simp, by simp, by simp, ?_⟩
  intro j hj
  omega

variable {c : JournalConsumer} {log : EdgeLog} {judge : Judge}

theorem AcceptedAt.unique {k : ℕ} {p q : VerifiedProjection} (h : AcceptedAt c log judge k p)
    (h' : AcceptedAt c log judge k q) : p = q := by
  obtain ⟨e, he, hp⟩ := h
  obtain ⟨e', he', hq⟩ := h'
  have hsame : e = e' := Option.some.inj (he.symm.trans he')
  subst hsame
  unfold JournalConsumer.Accepts at hp hq
  rw [hp] at hq
  simpa using hq

theorem Projected.keep {k : ℕ} {t : Projection} (h : Projected c log judge k t)
    (hopens : ∀ p case, ¬ Opens c log judge k p case) : Projected c log judge (k + 1) t := by
  refine ⟨?_, h.claimedCase, h.claimedAdvice, ?_, ?_⟩
  · intro row hrow
    obtain ⟨j, hj, hrest⟩ := h.identities row hrow
    exact ⟨j, by omega, hrest⟩
  · intro row hrow
    obtain ⟨j, hj, hrest⟩ := h.cases row hrow
    exact ⟨j, by omega, hrest⟩
  · intro j hj p case hcase
    by_cases hk : j = k
    · subst hk
      exact absurd hcase (hopens p case)
    · exact h.opened j (by omega) p case hcase

theorem Projected.claim {k : ℕ} {t t' : Projection} (h : Projected c log judge k t)
    {p : VerifiedProjection} (hp : AcceptedAt c log judge k p) (seq : ℤ)
    (hids : t'.identities = t.identities ++ [⟨p.envelopeID, p.commitment, .accepted, seq, none, none⟩])
    (hcases : t'.cases = t.cases ∨ ∃ case, p.family = .case ∧ p.case = some case ∧
      t'.cases = t.cases ++ [⟨p.envelopeID, p.commitment, case, .accepted⟩])
    (hadvice : t'.advice = t.advice ∨ ∃ advice, t'.advice =
      t.advice ++ [⟨p.envelopeID, p.commitment, advice, .accepted⟩])
    (hopened : ∀ case, Opens c log judge k p case →
      Table.find CaseRow.key case.caseID t'.cases =
        some ⟨p.envelopeID, p.commitment, case, .accepted⟩) :
    Projected c log judge (k + 1) t' := by
  have hold : ∀ id ∈ t.identities, id ∈ t'.identities := by
    intro id hid
    rw [hids]
    exact List.mem_append_left _ hid
  have hnew : ∃ id ∈ t'.identities, id.envelopeID = p.envelopeID := by
    rw [hids]
    exact ⟨_, List.mem_append_right _ (List.mem_singleton.mpr rfl), rfl⟩
  refine ⟨?_, ?_, ?_, ?_, ?_⟩
  · intro row hrow
    rw [hids] at hrow
    rcases List.mem_append.mp hrow with hrow | hrow
    · obtain ⟨j, hj, hrest⟩ := h.identities row hrow
      exact ⟨j, by omega, hrest⟩
    · cases List.mem_singleton.mp hrow
      exact ⟨k, by omega, p, hp, rfl, rfl⟩
  · intro row hrow
    rcases hcases with hsame | ⟨case, -, -, happend⟩
    · rw [hsame] at hrow
      obtain ⟨id, hid, henv⟩ := h.claimedCase row hrow
      exact ⟨id, hold id hid, henv⟩
    · rw [happend] at hrow
      rcases List.mem_append.mp hrow with hrow | hrow
      · obtain ⟨id, hid, henv⟩ := h.claimedCase row hrow
        exact ⟨id, hold id hid, henv⟩
      · cases List.mem_singleton.mp hrow
        exact hnew
  · intro row hrow
    rcases hadvice with hsame | ⟨advice, happend⟩
    · rw [hsame] at hrow
      obtain ⟨id, hid, henv⟩ := h.claimedAdvice row hrow
      exact ⟨id, hold id hid, henv⟩
    · rw [happend] at hrow
      rcases List.mem_append.mp hrow with hrow | hrow
      · obtain ⟨id, hid, henv⟩ := h.claimedAdvice row hrow
        exact ⟨id, hold id hid, henv⟩
      · cases List.mem_singleton.mp hrow
        exact hnew
  · intro row hrow
    rcases hcases with hsame | ⟨case, hfamily, hcase, happend⟩
    · rw [hsame] at hrow
      obtain ⟨j, hj, hrest⟩ := h.cases row hrow
      exact ⟨j, by omega, hrest⟩
    · rw [happend] at hrow
      rcases List.mem_append.mp hrow with hrow | hrow
      · obtain ⟨j, hj, hrest⟩ := h.cases row hrow
        exact ⟨j, by omega, hrest⟩
      · cases List.mem_singleton.mp hrow
        exact ⟨k, by omega, p, hp, hfamily, hcase⟩
  · intro j hj q case hq
    by_cases hk : j = k
    · subst hk
      cases hp.unique hq.accepted
      exact hopened case hq
    · have hfound := h.opened j (by omega) q case hq
      rcases hcases with hsame | ⟨_, -, -, happend⟩
      · rw [hsame, hfound]
      · rw [happend, Table.find_append, hfound]
        rfl

/-! ### No entry fails -/

section
variable {t : Projection} {k : ℕ} {p : VerifiedProjection}

theorem insertOrIgnore_succeeds {ρ κ : Type} [DecidableEq κ] (key : ρ → κ) (other : ρ → Bytes)
    (row : ρ) (rows : List ρ)
    (h : (∃ x ∈ rows, other x = other row) → ∃ x ∈ rows, key x = key row) :
    ∃ rows', insertOrIgnore key other row rows = .ok rows' ∧
      (rows' = rows ∧ (∃ x ∈ rows, key x = key row) ∨ rows' = rows ++ [row]) := by
  unfold insertOrIgnore Table.clash
  by_cases hkey : ∃ x ∈ rows, key x = key row
  · exact ⟨rows, if_pos (by simpa using hkey), .inl ⟨rfl, hkey⟩⟩
  · have hother : ¬ ∃ x ∈ rows, other x = other row := fun hx => hkey (h hx)
    refine ⟨rows ++ [row], ?_, .inr rfl⟩
    rw [if_neg (by simpa using hkey), if_neg (by simpa using hother)]

theorem validateDelivery_accepted {s : DB} {d : JournalDelivery} {reason : Bytes}
    {p : VerifiedProjection} (h : s.validateDelivery d .accepted reason (some p) = .ok ()) :
    (p.family = .case ∧ ∃ case, p.case = some case) ∨
      p.family = .advice ∧ ∃ advice, p.advice = some advice := by
  unfold DB.validateDelivery at h
  obtain ⟨-, h⟩ := ensure_bind_eq_ok.mp h
  obtain ⟨-, h⟩ := ensure_bind_eq_ok.mp h
  unfold DB.validateAccepted at h
  obtain ⟨-, h⟩ := ensure_bind_eq_ok.mp h
  split at h <;> rename_i hfamily
  · obtain ⟨case, hcase, -⟩ := orFail_bind_eq_ok.mp h
    exact .inl ⟨hfamily, case, hcase⟩
  · obtain ⟨advice, hadvice, -⟩ := orFail_bind_eq_ok.mp h
    exact .inr ⟨hfamily, advice, hadvice⟩

theorem judged_cases (c : JournalConsumer) (judge : Judge) (e : EdgeDelivery) :
    (∃ reason p, c.judged judge e = some (.rejected, reason, p)) ∨ ∃ p, c.Accepts judge e p := by
  unfold JournalConsumer.Accepts JournalConsumer.judged JournalConsumer.verdict
  cases judge e with
  | error reason => exact .inl ⟨reason, none, rfl⟩
  | ok p =>
    simp only [mapError_ok]
    split
    · exact .inr ⟨p, rfl⟩
    · exact .inl ⟨_, some p, rfl⟩

theorem Projected.fresh (h : Projected c log judge k t) (id : Bytes)
    (hfree : Table.find IdentityRow.envelopeID id t.identities = none) :
    (∀ row ∈ t.cases, row.envelopeID ≠ id) ∧ ∀ row ∈ t.advice, row.envelopeID ≠ id := by
  have hnone := Table.find_eq_none.mp hfree
  refine ⟨?_, ?_⟩
  · intro row hrow heq
    obtain ⟨x, hx, henv⟩ := h.claimedCase row hrow
    exact hnone x hx (henv.trans heq)
  · intro row hrow heq
    obtain ⟨x, hx, henv⟩ := h.claimedAdvice row hrow
    exact hnone x hx (henv.trans heq)

theorem Projected.unopened (h : Projected c log judge k t) {case : Case}
    (hopens : Opens c log judge k p case) :
    Table.find CaseRow.key case.caseID t.cases = none := by
  refine Table.find_eq_none.mpr ?_
  intro row hrow heq
  obtain ⟨j, hj, q, hq, hfamily, hcase⟩ := h.cases row hrow
  exact hopens.first j hj q row.case hq hfamily hcase heq

theorem Projected.persist (hrec : Recoverable c log judge)
    (h : Projected c log judge k t) (hp : AcceptedAt c log judge k p)
    (seq : ℤ) (hfree : Table.find IdentityRow.envelopeID p.envelopeID t.identities = none) :
    ∃ t', Projection.persist p { t with
        identities := t.identities ++ [⟨p.envelopeID, p.commitment, .accepted, seq, none, none⟩] } =
        .ok t' ∧ Projected c log judge (k + 1) t' := by
  obtain ⟨hcasefree, hadvicefree⟩ := h.fresh p.envelopeID hfree
  obtain ⟨e, hentry, haccepts⟩ := id hp
  have hvalid := hrec.formed e (List.mem_of_getElem? hentry) _ _ _ haccepts
  rcases validateDelivery_accepted hvalid with ⟨hfamily, case, hcase⟩ | ⟨hfamily, advice, hadvice⟩
  · obtain ⟨rows, hrows, hkind⟩ := insertOrIgnore_succeeds CaseRow.key CaseRow.envelopeID
      ⟨p.envelopeID, p.commitment, case, .accepted⟩ t.cases
      (by
        rintro ⟨x, hx, heq⟩
        exact absurd heq (hcasefree x hx))
    refine ⟨⟨t.identities ++ [⟨p.envelopeID, p.commitment, .accepted, seq, none, none⟩], rows,
      t.advice⟩, ?_, ?_⟩
    · unfold Projection.persist
      simp only [hfamily, hcase, orFail, ok_bind, hrows]
      rfl
    · refine h.claim hp seq rfl ?_ (.inl rfl) ?_
      · rcases hkind with ⟨hsame, -⟩ | happend
        · exact .inl hsame
        · exact .inr ⟨case, hfamily, hcase, happend⟩
      · intro opened hopens
        have hsame : opened = case := Option.some.inj (hopens.opened.symm.trans hcase)
        subst hsame
        have hnone := h.unopened hopens
        -- no row has the key yet, so the insert went through
        rcases hkind with ⟨-, x, hx, heq⟩ | happend
        · exact absurd heq (Table.find_eq_none.mp hnone x hx)
        · show Table.find CaseRow.key opened.caseID rows = _
          rw [happend, Table.find_append, hnone]
          simp [CaseRow.key]
  · obtain ⟨j, q, case, hj, hopens, hid, hbinds⟩ := hrec.bound k p advice hp hfamily hadvice
    have hrow := h.opened j hj q case hopens
    have haccepted : acceptedCase advice.caseID t.cases =
        some ⟨q.envelopeID, q.commitment, case, .accepted⟩ := by
      unfold acceptedCase
      rw [← hid, hrow]
      rfl
    obtain ⟨rows, hrows, hkind⟩ := insertOrIgnore_succeeds AdviceRow.key AdviceRow.envelopeID
      ⟨p.envelopeID, p.commitment, advice, .accepted⟩ t.advice
      (by
        rintro ⟨x, hx, heq⟩
        exact absurd heq (hadvicefree x hx))
    refine ⟨⟨t.identities ++ [⟨p.envelopeID, p.commitment, .accepted, seq, none, none⟩], t.cases,
      rows⟩, ?_, ?_⟩
    · unfold Projection.persist
      simp only [hfamily, hadvice, haccepted, hbinds, orFail, ok_bind, ensure_true, hrows]
      rfl
    · refine h.claim hp seq rfl (.inl rfl) ?_ ?_
      · rcases hkind with ⟨hsame, -⟩ | happend
        · exact .inl hsame
        · exact .inr ⟨advice, happend⟩
      · intro opened hopened
        rw [hopened.family] at hfamily
        cases hfamily

theorem Projected.settle (hrec : Recoverable c log judge)
    (h : Projected c log judge k t) {e : EdgeDelivery} (hentry : log.entries[k]? = some e)
    {verdict : Verdict} {reason : Bytes} {p : Option VerifiedProjection}
    (hjudged : c.judged judge e = some (verdict, reason, p)) :
    ∃ t' j, t.settle verdict reason p e.sequence = .ok (t', j) ∧ j.outcome.halts = false ∧
      Projected c log judge (k + 1) t' := by
  rcases judged_cases c judge e with ⟨why, q, hrejected⟩ | ⟨q, haccepts⟩
  · rw [hrejected] at hjudged
    cases hjudged
    refine ⟨t, _, rfl, rfl, h.keep ?_⟩
    intro q case hopens
    obtain ⟨e', he', haccepts⟩ := hopens.accepted
    cases Option.some.inj (hentry.symm.trans he')
    unfold JournalConsumer.Accepts at haccepts
    rw [hrejected] at haccepts
    cases haccepts
  · have hq : AcceptedAt c log judge k q := ⟨e, hentry, haccepts⟩
    unfold JournalConsumer.Accepts at haccepts
    rw [haccepts] at hjudged
    cases hjudged
    unfold Projection.settle Projection.claimIdentity
    cases hfind : Table.find IdentityRow.envelopeID q.envelopeID t.identities with
    | none =>
      obtain ⟨t', hpersist, hnext⟩ := h.persist hrec hq e.sequence hfind
      refine ⟨t', ⟨.accepted, [], .accepted⟩, ?_, rfl, hnext⟩
      simp only [hfind, hpersist, ok_bind]
      rfl
    | some stored =>
      obtain ⟨hmem, hkey⟩ := Table.find_eq_some hfind
      obtain ⟨j, hj, q', hq', henv, hcommitment⟩ := h.identities stored hmem
      have hsame : stored.commitment = q.commitment :=
        hcommitment.symm.trans (hrec.unconflicted j k q' q hq' hq (henv.trans hkey))
      refine ⟨t, ⟨.accepted, [], .duplicate⟩, ?_, rfl, h.keep ?_⟩
      · simp only [hfind, if_pos hsame]
        rfl
      intro p case hopens
      cases hq.unique hopens.accepted
      exact hopens.envelope j hj q' hq' (henv.trans hkey)

theorem replica_projected (hrec : Recoverable c log judge) {l : Ledger}
    (h : Replica.At (c.record judge) {} log.entries k l) :
    Projected c log judge k l.projection := by
  refine h.invariant (fun k l => Projected c log judge k l.projection) (projected_empty c log judge) ?_
  intro k l l' e hentry hprojected hrecord
  unfold JournalConsumer.record at hrecord
  obtain ⟨⟨verdict, reason, p⟩, hjudged, hrecord⟩ := orFail_bind_eq_ok.mp hrecord
  obtain ⟨_, -, hrecord⟩ := bind_eq_ok.mp hrecord
  obtain ⟨-, hrecord⟩ := ensure_bind_eq_ok.mp hrecord
  obtain ⟨⟨t, j⟩, hsettle, hrecord⟩ := bind_eq_ok.mp hrecord
  cases hrecord
  obtain ⟨t', j', hsettled, -, hnext⟩ := hprojected.settle hrec hentry hjudged
  rw [hsettled] at hsettle
  cases hsettle
  exact hnext

end

end Snagline.Edge
