import Snagline.Registry.Snapshot

/-!
# Root verification (ssp/verified_registry.go, registry/verifier.go)

A registry envelope is accepted under the one key the deployment pins. What it
says is fixed by its bytes; only whether it may be used depends on the instant
it is verified at.
-/

namespace Snagline.Registry
open Kit Ssp

/-- A trust root `NewTrust` accepted. -/
structure Trust where
  authorKeyID : Bytes
  named : authorKeyID ≠ []
  publicKey : VerifyingKey

inductive RootError where
  | envelope (cause : VerifyError)
  | family (family : Family)
  | author (id : Bytes)
  | commitment (cause : VerifyError)
  | decode (cause : RegistryError)
  deriving DecidableEq

/-- `errors.Is(err, ssp.ErrExpiredEnvelope)`. -/
def RootError.isExpired : RootError → Bool
  | .envelope cause | .commitment cause => cause.isExpired
  | .family _ | .author _ | .decode _ => false

/-- `errors.Is(err, ssp.ErrInvalidEnvelope)`. -/
def RootError.isInvalid : RootError → Bool
  | .envelope cause | .commitment cause => cause.isInvalid
  | .family _ | .author _ | .decode _ => false

namespace Trust

variable (trust : Trust)

def keys : List (Bytes × VerifyingKey) := [(trust.authorKeyID, trust.publicKey)]

/-- `VerifyRegistry`: the verified envelope and its commitment. -/
def verifyRegistry (p : Primitives) (raw : Bytes) (now : Time) :
    Except RootError (Envelope × Bytes) := do
  let e ← (p.verify raw trust.keys now).mapError .envelope
  ensure (e.schema == .registry) (.family e.schema)
  ensure (e.authorKeyID == trust.authorKeyID) (.author e.authorKeyID)
  let commitment ← (p.envelopeCommitment raw now).mapError .commitment
  pure (e, commitment)

/-- `Verifier.Verify` with the clock at `now`. -/
def verify (p : Primitives) (raw : Bytes) (now : Time) : Except RootError Snapshot := do
  let proof ← trust.verifyRegistry p raw now
  (decodeRegistry proof.1 proof.2).mapError .decode

/-- The bytes are a registry of this root and say `s`. -/
structure Rooted (p : Primitives) (raw : Bytes) (e : Envelope) (s : Snapshot) : Prop where
  authentic : p.Authentic raw trust.keys e
  family : e.schema = .registry
  author : e.authorKeyID = trust.authorKeyID
  commitment : p.commitmentOf raw = .ok s.commitment
  decoded : decodeRegistry e s.commitment = .ok s

theorem verify_eq_ok (p : Primitives) (raw : Bytes) (now : Time) (s : Snapshot) :
    trust.verify p raw now = .ok s ↔ ∃ e, trust.Rooted p raw e s ∧ e.LiveAt now := by
  unfold verify verifyRegistry
  simp only [bind_eq_ok, mapError_eq_ok, Ssp.verify_eq_ok, envelopeCommitment_eq_ok, ensure_eq_ok,
    beq_iff_eq]
  constructor
  · rintro ⟨proof, ⟨e, ⟨hauthentic, hlive⟩, _, hfamily, _, hauthor, commitment, ⟨-, hcommitment⟩,
      hproof⟩, hdecode⟩
    cases hproof
    have hsame := (decodeRegistry_ok hdecode).1
    subst hsame
    exact ⟨e, ⟨hauthentic, hfamily, hauthor, hcommitment, hdecode⟩, hlive⟩
  · rintro ⟨e, h, hlive⟩
    exact ⟨(e, s.commitment), ⟨e, ⟨h.authentic, hlive⟩, (), h.family, (), h.author, s.commitment,
      ⟨⟨e, h.authentic.decoded, h.authentic.sound, hlive⟩, h.commitment⟩, rfl⟩, h.decoded⟩

theorem Rooted.unique {trust : Trust} {p : Primitives} {raw : Bytes} {e e' : Envelope}
    {s s' : Snapshot} (h : trust.Rooted p raw e s) (h' : trust.Rooted p raw e' s') :
    e = e' ∧ s = s' := by
  have he : e = e' := by
    have hdecode := h.authentic.decoded
    rw [h'.authentic.decoded] at hdecode
    exact (Except.ok.inj hdecode).symm
  have hc : s.commitment = s'.commitment := by
    have hcommitment := h.commitment
    rw [h'.commitment] at hcommitment
    exact (Except.ok.inj hcommitment).symm
  have hs := h.decoded
  rw [he, hc, h'.decoded] at hs
  exact ⟨he, (Except.ok.inj hs).symm⟩

theorem Rooted.not_expired {trust : Trust} {p : Primitives} {raw : Bytes} {e : Envelope}
    {s : Snapshot} (h : trust.Rooted p raw e s) {now : Time} (hlive : e.LiveAt now) :
    s.expired now = false := by
  obtain ⟨emitted, expires, -, hexpires, -, hfuture⟩ := hlive
  have hparsed := (decodeRegistry_ok h.decoded).2.1
  rw [hexpires] at hparsed
  have heq := Option.some.inj hparsed
  have hlate : ¬ s.expiresAt ≤ now := by
    rw [← heq]
    exact not_le.mpr hfuture
  simp [Snapshot.expired, hlate]

end Trust


/-! ### The time of a verification -/

/-- `f` succeeds from the emission of `e` until its expiry and at no other time, always with
`a`. -/
def Window {ε α : Type} (e : Envelope) (f : Time → Except ε α) (a : α) : Prop :=
  ∃ emitted expires, parseTimestamp e.emittedAt = some emitted ∧
    parseTimestamp e.expiresAt = some expires ∧ emitted < expires ∧
    ∀ now a', f now = .ok a' ↔ (emitted ≤ now ∧ now < expires) ∧ a' = a

-- the clock enters a verification in `LiveAt` and nowhere else
theorem window_of {ε α : Type} {f : Time → Except ε α} {Q : Envelope → α → Prop} {e : Envelope}
    {a : α} {now : Time} (hf : ∀ now a, f now = .ok a ↔ ∃ e, Q e a ∧ e.LiveAt now)
    (hunique : ∀ e' a', Q e' a' → e' = e ∧ a' = a) (h : Q e a) (hlive : e.LiveAt now) :
    Window e f a := by
  obtain ⟨emitted, expires, hemitted, hexpires, hpast, hfuture⟩ := hlive
  refine ⟨emitted, expires, hemitted, hexpires, lt_of_le_of_lt hpast hfuture, ?_⟩
  intro now' a'
  rw [hf]
  constructor
  · rintro ⟨e', hQ, emitted', expires', hemitted', hexpires', hwindow⟩
    obtain ⟨rfl, rfl⟩ := hunique e' a' hQ
    rw [hemitted] at hemitted'
    rw [hexpires] at hexpires'
    cases hemitted'
    cases hexpires'
    exact ⟨hwindow, rfl⟩
  · rintro ⟨hwindow, rfl⟩
    exact ⟨e, h, emitted, expires, hemitted, hexpires, hwindow⟩

section
variable {p : Primitives} {raw : Bytes} {keys : List (Bytes × VerifyingKey)} {e : Envelope}
  {now : Time}

theorem decoded_unique (h : decodeStrictEnvelope raw = .ok e) {e' : Envelope}
    (h' : decodeStrictEnvelope raw = .ok e') : e' = e := by
  rw [h] at h'
  exact (Except.ok.inj h').symm

theorem verify_window (h : p.Authentic raw keys e) (hlive : e.LiveAt now) :
    Window e (p.verify raw keys) e := by
  refine window_of (Q := fun e a => p.Authentic raw keys e ∧ a = e) ?_ ?_ ⟨h, rfl⟩ hlive
  · intro now a
    rw [Ssp.verify_eq_ok]
    constructor
    · rintro ⟨ha, hlive⟩
      exact ⟨a, ⟨ha, rfl⟩, hlive⟩
    · rintro ⟨_, ⟨ha, rfl⟩, hlive⟩
      exact ⟨ha, hlive⟩
  · rintro e' _ ⟨ha, rfl⟩
    have hsame := decoded_unique h.decoded ha.decoded
    exact ⟨hsame, hsame⟩

theorem commitment_window (h : p.Authentic raw keys e) (hlive : e.LiveAt now) :
    ∃ c, Window e (p.envelopeCommitment raw) c := by
  have hsigned := h.signed
  unfold Primitives.checkSignature at hsigned
  obtain ⟨_, -, hsigned⟩ := bind_eq_ok.mp hsigned
  obtain ⟨message, hmessage, -⟩ := bind_eq_ok.mp hsigned
  obtain ⟨c, hc⟩ : ∃ c, p.commitmentOf raw = .ok c := by
    unfold Primitives.commitmentOf
    rw [hmessage]
    exact ⟨_, rfl⟩
  refine ⟨c, window_of (Q := fun e a => (decodeStrictEnvelope raw = .ok e ∧ e.Sound) ∧
    p.commitmentOf raw = .ok a) ?_ ?_ ⟨⟨h.decoded, h.sound⟩, hc⟩ hlive⟩
  · intro now a
    rw [envelopeCommitment_eq_ok]
    constructor
    · rintro ⟨⟨e, hdecoded, hsound, hlive⟩, ha⟩
      exact ⟨e, ⟨⟨hdecoded, hsound⟩, ha⟩, hlive⟩
    · rintro ⟨e, ⟨⟨hdecoded, hsound⟩, ha⟩, hlive⟩
      exact ⟨⟨e, hdecoded, hsound, hlive⟩, ha⟩
  · rintro e' a' ⟨⟨hdecoded, -⟩, ha⟩
    rw [hc] at ha
    exact ⟨decoded_unique h.decoded hdecoded, (Except.ok.inj ha).symm⟩

/-- The times at which bytes verify are none, or those from the signed emission until the
signed expiry. Over them the envelope, its commitment and, under a pinned root, the snapshot
are the same. -/
theorem verification_window (p : Primitives) (raw : Bytes) (keys : List (Bytes × VerifyingKey)) :
    ((∀ now e, p.verify raw keys now ≠ .ok e) ∨
      ∃ e c, Window e (p.verify raw keys) e ∧ Window e (p.envelopeCommitment raw) c) ∧
    ∀ trust : Trust, (∀ now s, trust.verify p raw now ≠ .ok s) ∨
      ∃ e s, Window e (p.verify raw trust.keys) e ∧ Window e (trust.verify p raw) s := by
  constructor
  · by_cases hsome : ∃ now e, p.verify raw keys now = .ok e
    · obtain ⟨now, e, h⟩ := hsome
      obtain ⟨ha, hlive⟩ := (Ssp.verify_eq_ok _ _ _ _ _).mp h
      obtain ⟨c, hc⟩ := commitment_window ha hlive
      exact .inr ⟨e, c, verify_window ha hlive, hc⟩
    · exact .inl fun now e h => hsome ⟨now, e, h⟩
  · intro trust
    by_cases hsome : ∃ now s, trust.verify p raw now = .ok s
    · obtain ⟨now, s, h⟩ := hsome
      obtain ⟨e, hrooted, hlive⟩ := (Trust.verify_eq_ok _ _ _ _ _).mp h
      refine .inr ⟨e, s, verify_window hrooted.authentic hlive, ?_⟩
      exact window_of (Trust.verify_eq_ok trust p raw) (fun _ _ h => h.unique hrooted) hrooted hlive
    · exact .inl fun now s h => hsome ⟨now, s, h⟩

end

end Snagline.Registry
