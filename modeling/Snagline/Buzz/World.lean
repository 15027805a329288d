import Snagline.Buzz.Machine

/-!
# Passes in scripted surroundings

A world fixes every answer a pass gets, so that passes can be computed. The relay and the
clock go by the number of publications so far.
-/

namespace Snagline.Buzz
open Kit Ssp Json

structure World where
  facts : List CommittedFact
  verify : Bytes → Except Fault Envelope
  channel : Bytes
  clock : ℕ → Time
  sign : NostrEvent → Except Fault Bytes
  relay : ℕ → Except Fault Unit

namespace World

variable (w : World) (p : Projector)

def perform : (a : Act) → Site → Site × Except Fault a.Reply
  | .load, c => (c, .ok c.durable)
  | .readAfter after limit, c => (c, .ok ((w.facts.filter fun f => after < f.sequence).take limit))
  | .verifyCommitted raw, c => (c, w.verify raw)
  | .channelForDomain _, c => (c, .ok w.channel)
  | .clock, c => (c, .ok (w.clock c.log.length))
  | .signDigest event, c => (c, w.sign event)
  | .save st, c => (c.save st, .ok ())
  | .publish sequence wire, c =>
    (c.publish sequence wire (w.relay c.log.length), w.relay c.log.length)

def pass (limit : ℕ) (c : Site) : Site := ((p.project limit).drive w.perform c).1

def passes (limit : ℕ) : ℕ → Site → Site
  | 0, c => c
  | n + 1, c => passes limit n (w.pass p limit c)

structure Fits (rules : Rules) : Prop where
  feed : ∀ after limit, rules.Feed after ((w.facts.filter fun f => after < f.sequence).take limit)
  verifies : ∀ raw e, w.verify raw = .ok e → rules.verifies raw e
  signs : ∀ e sig, w.sign e = .ok sig → rules.signs e

variable {w} {rules : Rules}

theorem Fits.perform (h : w.Fits rules) (a : Act) (c : Site) :
    Performs rules a c (w.perform a c).2 (w.perform a c).1 := by
  cases a with
  | load => exact .loaded c
  | readAfter after limit => exact .read c after limit _ (h.feed after limit)
  | verifyCommitted raw =>
    show Performs rules (.verifyCommitted raw) c (w.verify raw) c
    cases hverify : w.verify raw with
    | error f => exact .unverified c raw f
    | ok e => exact .verified c raw e (h.verifies raw e hverify)
  | channelForDomain domain => exact .channel c domain w.channel
  | clock => exact .clock c _
  | signDigest event =>
    show Performs rules (.signDigest event) c (w.sign event) c
    cases hsign : w.sign event with
    | error f => exact .unsigned c event f
    | ok sig => exact .signed c event sig (h.signs event sig hsign)
  | save st => exact .saved c st
  | publish sequence wire => exact .published c sequence wire _

theorem Fits.passes (h : w.Fits rules) (limit n : ℕ) (c : Site) :
    Passes p rules c (w.passes p limit n c) := by
  induction n generalizing c with
  | zero => exact .refl
  | succ n ih =>
    obtain ⟨out, -, hcourse⟩ := Prog.course_drive (fun a c => h.perform a c) (p.project limit) c
    exact .head ⟨limit, out, hcourse⟩ (ih _)

end World

def Rules.free : Rules := ⟨fun _ _ => True, fun _ _ => True, fun _ => True⟩

theorem feed_free (after : ℕ) (facts : List CommittedFact) : Rules.free.Feed after facts := by
  induction facts generalizing after with
  | nil => trivial
  | cons f fs ih => exact ⟨trivial, ih f.sequence⟩

theorem fits_free (w : World) : w.Fits .free :=
  ⟨fun _ _ => feed_free _ _, fun _ _ _ => trivial, fun _ _ _ => trivial⟩

namespace Sample

def sha256 (bs : Bytes) : Bytes := (bs.drop 70 ++ List.replicate 32 0).take 32

theorem sha256_size (bs : Bytes) : (sha256 bs).length = 32 := by
  simp [sha256]

def hash : Bytes := text "sha256:" ++ List.replicate 64 48

def envelopeText (schema id body : Bytes) : Bytes :=
  objectText [(text "schema", quote schema), (text "id", quote id),
    (text "case_id", quote (text "c")), (text "emitted_at", quote (text "t")),
    (text "expires_at", quote (text "u")), (text "routing_epoch", text "1"),
    (text "registry_revision", text "1"), (text "registry_hash", quote hash),
    (text "author_key_id", quote (text "k")), (text "signature_alg", quote (text "ed25519")),
    (text "body", body), (text "signature", quote (text "s"))]

def caseRaw : Bytes := envelopeText Family.case.schema (text "i") <|
  objectText [(text "domain", quote (text "d")), (text "issuer_edge_id", quote (text "e")),
    (text "issuer_edge_generation", text "1"), (text "summary", quote (text "s")),
    (text "public_summary", quote (text "t")), (text "context_manifest", quote hash)]

def adviceRaw : Bytes := envelopeText Family.advice.schema (text "j") <|
  objectText [(text "case_commitment", quote hash), (text "text", quote (text "s")),
    (text "public_summary", quote (text "t"))]

def verify (raw : Bytes) : Except Refusal Envelope := do
  let e ← decodeStrictEnvelope raw
  e.checkHeader
  e.checkContent
  pure e

def facts : List CommittedFact :=
  [⟨1, text "i", text "h", caseRaw⟩, ⟨2, text "j", text "k", adviceRaw⟩]

theorem one_positive : 0 < 1 := Nat.one_pos
theorem two_positive : 0 < 2 := Nat.two_pos

-- two keys of the curve, the dispatcher's and the projector's own
def mention : Bytes := text "79be667ef9dcbbac55a06295ce870b07029bfcdb2dce28d959f2815b16f81798"
def own : Bytes := text "c6047f9441ed7d6d3045406e95c07cd85c778e4b8cef3ca7abac09b95c709ee5"

def projector (attempts : ℕ) (h : 0 < attempts) : Projector :=
  ⟨sha256, sha256_size, own, mention, attempts, h⟩

def channel : Bytes := text "00000000-0000-0000-0000-000000000000"

def world (relay : ℕ → Except Fault Unit) : World where
  facts := facts
  verify := fun raw => (verify raw).mapError fun _ => .error (text "v")
  channel := channel
  clock := fun n => n * 1000000000
  sign := fun _ => .ok (text "s")
  relay := relay

end Sample

end Snagline.Buzz
