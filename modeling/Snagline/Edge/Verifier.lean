import Snagline.Edge.Consumer

/-!
# The edge verifier (sspedge/authority_verifier.go)

A delivery is verified against the authority: first that the authority has
exactly these bytes at this sequence, then what they say.
-/

namespace Snagline.Edge
open Kit Ssp Delivery Authority

/-- A coordinate the carrier gives is not evidence: bytes the authority does not
have at that sequence are retried, never recorded. -/
def resolveExactDelivery (source : DeliverySource) (tenant : Bytes) (d : JournalDelivery) :
    Except VerificationError EdgeDelivery :=
  match source (tenant, d.edgeID, d.edgeGeneration) (d.deliverySeq - 1) 1 with
  | none => .error .transient
  | some page =>
    match page.deliveries with
    | [e] => if e.sequence = d.deliverySeq ∧ e.raw = d.raw then .ok e else .error .transient
    | _ => .error .transient

/-- `Verify`, up to what `content` makes of the exact delivery. -/
def verifyExact (tenant : Bytes) (source : DeliverySource)
    (content : JournalDelivery → EdgeDelivery →
      Except VerificationError VerifiedProjection)
    (d : JournalDelivery) : Except VerificationError VerifiedProjection := do
  ensure (d.tenantID == tenant && d.edgeID != [] && 0 < d.edgeGeneration && 0 < d.deliverySeq &&
    !d.raw.isEmpty) (.permanent (text "delivery_identity_mismatch"))
  let e ← resolveExactDelivery source tenant d
  content d e

theorem resolveExactDelivery_ok {source : DeliverySource} {tenant : Bytes} {d : JournalDelivery}
    {e : EdgeDelivery} (h : resolveExactDelivery source tenant d = .ok e) :
    ∃ page, source (tenant, d.edgeID, d.edgeGeneration) (d.deliverySeq - 1) 1 = some page ∧
      e ∈ page.deliveries ∧ e.sequence = d.deliverySeq ∧ e.raw = d.raw := by
  unfold resolveExactDelivery at h
  cases hpage : source (tenant, d.edgeID, d.edgeGeneration) (d.deliverySeq - 1) 1 with
  | none =>
    rw [hpage] at h
    cases h
  | some page =>
    rw [hpage] at h
    dsimp only at h
    split at h
    · rename_i x hlist
      split at h
      · rename_i hexact
        cases h
        exact ⟨page, rfl, by simp [hlist], hexact.1, hexact.2⟩
      · cases h
    · cases h

theorem resolveExactDelivery_error {source : DeliverySource} {tenant : Bytes} {d : JournalDelivery}
    {e : VerificationError} (h : resolveExactDelivery source tenant d = .error e) :
    e = .transient := by
  unfold resolveExactDelivery at h
  split at h
  · cases h
    rfl
  · split at h
    · split at h
      · cases h
      · cases h
        rfl
    · cases h
      rfl

theorem verifyExact_eq {tenant : Bytes} {d : JournalDelivery} (htenant : d.tenantID = tenant)
    (hedge : d.edgeID ≠ []) (hgeneration : 0 < d.edgeGeneration) (hd : 0 < d.deliverySeq)
    (hraw : d.raw ≠ []) (source : DeliverySource)
    (content : JournalDelivery → EdgeDelivery →
      Except VerificationError VerifiedProjection) :
    verifyExact tenant source content d = resolveExactDelivery source tenant d >>= content d := by
  have hcheck : (d.tenantID == tenant && d.edgeID != [] && 0 < d.edgeGeneration &&
      0 < d.deliverySeq && !d.raw.isEmpty) = true := by
    simp [htenant, hedge, hgeneration, hd, hraw]
  unfold verifyExact
  rw [hcheck]
  rfl

theorem verifyExact_own {c : JournalConsumer} {d : JournalDelivery} (hd : 0 < d.deliverySeq)
    (hid : d.identity = c.identity.key) (hraw : d.raw ≠ []) (source : DeliverySource)
    (content : JournalDelivery → EdgeDelivery →
      Except VerificationError VerifiedProjection) :
    verifyExact c.identity.tenantID source content d =
      resolveExactDelivery source c.identity.tenantID d >>= content d := by
  have htenant : d.tenantID = c.identity.tenantID := congrArg Prod.fst hid
  have hedge : d.edgeID = c.identity.edgeID := congrArg (fun k => k.2.1) hid
  have hgeneration : d.edgeGeneration = c.identity.generation := congrArg (fun k => k.2.2) hid
  exact verifyExact_eq htenant (hedge ▸ c.identity.edgeNamed) (hgeneration ▸ c.identity.positive) hd
    hraw source content

end Snagline.Edge
