import Snagline.Delivery.Outbox
import Snagline.Kit.Marshal
import Snagline.Kit.Url

/-!
# Message sizes (deliverystream/stream.go:60-81, 120-157)

The stream admits messages of `MaxMsgSize` bytes, and the broker counts the header
block and the payload together. A payload may have as many bytes on its own, so
whether a message fits depends on what its headers leave. How the client library
writes a header block is not part of this repository; what is documented of it is an
assumption, `HeaderFormat`.
-/

namespace Snagline.Delivery
open Kit Ssp Json

/-! ### The stream -/

inductive StreamMode where
  | production | singleNodeTest
  deriving DecidableEq

structure StreamConfig where
  name : Bytes
  subjects : List Bytes
  maxAge : ℤ
  maxBytes : ℕ
  maxMsgSize : ℕ
  replicas : ℕ
  duplicates : ℤ
  deriving DecidableEq

def defaultMaxAge : ℤ := 7 * 24 * 3600 * 1000000000
def defaultMaxBytes : ℕ := 2 ^ 30
def productionReplicas : ℕ := 3

def streamConfig (mode : StreamMode) : StreamConfig where
  name := streamName
  subjects := [subjectRoot ++ text ".>"]
  maxAge := defaultMaxAge
  maxBytes := defaultMaxBytes
  maxMsgSize := maxEnvelopeBytes
  replicas := match mode with
    | .production => productionReplicas
    | .singleNodeTest => 1
  duplicates := defaultMaxAge

/-! ### The header block -/

/-- The documented format: a version line, a line `name: value` for each header and an empty
line. `size` counts the bytes of a block and `value` those of a value; the client may trim
blanks and replace line breaks, and writes any other value as it is. -/
structure HeaderFormat (size : List (Bytes × Bytes) → ℕ) (value : Bytes → ℕ) : Prop where
  block : ∀ headers, size headers =
    (text "NATS/1.0\r\n").length + (headers.map fun h => h.1.length + value h.2 + 4).sum + 2
  plain : ∀ bytes : Bytes, (∀ b ∈ bytes, 32 < b) → value bytes = bytes.length

def Message.size (size : List (Bytes × Bytes) → ℕ) (m : Message) : ℕ := size m.headers + m.data.length

theorem decimalNat_plain {n : ℕ} : ∀ b ∈ decimalNat n, 32 < b := by
  intro b hb
  have hdigit : ∀ b : UInt8, isDigit b = true → 32 < b :=
    fun b => of_decide_eq_true <|
      Url.byte_all (P := fun b => isDigit b = true → 32 < b) (by decide +kernel) b
  exact hdigit b ((decimalNat_digits n).all b hb)

theorem hexEncode_plain {bs : Bytes} : ∀ b ∈ hexEncode bs, 32 < b := by
  have hdigit : ∀ n < 16, 32 < hexDigit n := by decide
  intro b hb
  obtain ⟨a, -, ha⟩ := List.mem_flatMap.mp hb
  have hhigh : a.toNat / 16 < 16 := by have := a.toNat_lt; omega
  rcases List.mem_cons.mp ha with rfl | ha
  · exact hdigit _ hhigh
  · rw [List.mem_singleton.mp ha]
    exact hdigit _ (Nat.mod_lt _ (by decide))

/-! ### What the headers take -/

section
variable {sha256 : Bytes → Bytes} {r : PublishRequest} {size : List (Bytes × Bytes) → ℕ}
  {value : Bytes → ℕ}

def headerRoom (value : Bytes → ℕ) (sha256 : Bytes → Bytes) (r : PublishRequest) : ℕ :=
  127 + value r.outboxID + (decimalNat r.factSequence).length +
    (routingToken sha256 r.outboxID).length +
    match r.destination with
    | .domain => 0
    | .edge => 58 + (decimalNat r.deliverySequence).length + (decimalNat r.edgeGeneration).length

theorem messageID_plain {sha256 : Bytes → Bytes}
    {id : Bytes} : ∀ b ∈ messageID sha256 id, 32 < b := by
  intro b hb
  rcases List.mem_append.mp hb with hb | hb
  · have hword : ∀ b ∈ text "outbox:", 32 < b := by decide +kernel
    exact hword b hb
  · exact hexEncode_plain b hb

theorem publish_size (hformat : HeaderFormat size value) {m : Message}
    (h : publish sha256 r = .ok m) :
    m.data = r.rawSSP ∧ size m.headers = headerRoom value sha256 r := by
  have hstream : value streamName = streamName.length := hformat.plain _ (by decide +kernel)
  have hid : value (messageID sha256 r.outboxID) = 7 + (routingToken sha256 r.outboxID).length :=
    (hformat.plain _ messageID_plain).trans List.length_append
  have hnumber : ∀ n, value (decimalNat n) = (decimalNat n).length :=
    fun n => hformat.plain _ decimalNat_plain
  have hnames : headerOutboxID.length = 18 ∧ headerFactSequence.length = 22 ∧
      headerDeliverySequence.length = 26 ∧ headerEdgeGeneration.length = 24 ∧
      (text "Nats-Msg-Id").length = 11 ∧ (text "Nats-Expected-Stream").length = 20 ∧
      streamName.length = 21 ∧ (text "NATS/1.0\r\n").length = 10 := by
    decide
  unfold publish at h
  obtain ⟨subject, -, h⟩ := bind_eq_ok.mp h
  cases h
  refine ⟨rfl, ?_⟩
  rw [hformat.block]
  unfold headerRoom
  cases hdestination : r.destination with
  | domain | edge =>
    simp only [List.map_cons, List.map_nil, List.cons_append, List.nil_append, List.sum_cons,
      List.sum_nil, hstream, hid, hnumber]
    omega

theorem validatePublishRequest_ok
    (h : validatePublishRequest sha256 r = .ok ()) :
    0 < r.rawSSP.length ∧ ∃ subject, r.subject sha256 = .ok subject := by
  have hrest : ((ensure (!r.rawSSP.isEmpty && r.rawSSP.length ≤ maxEnvelopeBytes) .rawSize : _) >>=
      fun _ => r.subject sha256 >>= fun _ => pure ()) = .ok () := by
    unfold validatePublishRequest at h
    obtain ⟨-, h⟩ := ensure_bind_eq_ok.mp h
    obtain ⟨-, h⟩ := ensure_bind_eq_ok.mp h
    cases hdestination : r.destination with
    | domain | edge =>
      rw [hdestination] at h
      exact (ensure_bind_eq_ok.mp h).2
  obtain ⟨hraw, hrest⟩ := ensure_bind_eq_ok.mp hrest
  obtain ⟨subject, hsubject, -⟩ := bind_eq_ok.mp hrest
  simp only [Bool.and_eq_true, Bool.not_eq_true'] at hraw
  exact ⟨List.length_pos_iff.mpr (by simpa using hraw.1), subject, hsubject⟩

theorem publish_of_valid
    (h : validatePublishRequest sha256 r = .ok ()) : ∃ m, publish sha256 r = .ok m := by
  obtain ⟨-, subject, hsubject⟩ := validatePublishRequest_ok h
  have hfor : subjectFor sha256 r = .ok subject := bind_eq_ok.mpr ⟨(), h, hsubject⟩
  unfold publish
  rw [hfor]
  exact ⟨_, rfl⟩

/-- An accepted request becomes a message that fits the stream exactly when its payload
leaves room for its headers, which take at least 127 bytes of the 64 KiB. -/
theorem message_fits_iff (size : List (Bytes × Bytes) → ℕ) (value : Bytes → ℕ)
    (hformat : HeaderFormat size value) (sha256 : Bytes → Bytes) (r : PublishRequest)
    (mode : StreamMode) (h : validatePublishRequest sha256 r = .ok ()) :
    ∃ m, publish sha256 r = .ok m ∧ m.data = r.rawSSP ∧
      m.size size = r.rawSSP.length + headerRoom value sha256 r ∧ 127 ≤ headerRoom value sha256 r ∧
      (m.size size ≤ (streamConfig mode).maxMsgSize ↔
        r.rawSSP.length ≤ maxEnvelopeBytes - headerRoom value sha256 r) := by
  obtain ⟨m, hm⟩ := publish_of_valid h
  obtain ⟨hdata, hheaders⟩ := publish_size hformat hm
  have hsize : m.size size = r.rawSSP.length + headerRoom value sha256 r := by
    unfold Message.size
    rw [hdata, hheaders, Nat.add_comm]
  have hroom : 127 ≤ headerRoom value sha256 r := by
    unfold headerRoom
    omega
  have hraw := (validatePublishRequest_ok h).1
  refine ⟨m, hm, hdata, hsize, hroom, ?_⟩
  have hlimit : (streamConfig mode).maxMsgSize = maxEnvelopeBytes := rfl
  rw [hlimit, hsize]
  omega

end

namespace Sample

def digest (_ : Bytes) : Bytes := List.replicate 32 0

def wake (size : ℕ) : PublishRequest where
  outboxID := text "o"
  destination := .domain
  tenantID := text "t"
  domainID := text "d"
  rawSSP := List.replicate size 123
  factSequence := 1

theorem wake_valid {size : ℕ} (hpositive : 0 < size) (hsize : size ≤ maxEnvelopeBytes) :
    validatePublishRequest digest (wake size) = .ok () := by
  have hraw : (!(wake size).rawSSP.isEmpty && (wake size).rawSSP.length ≤ maxEnvelopeBytes) = true := by
    have hne : size ≠ 0 := by omega
    simpa [wake, hne] using hsize
  refine ensure_bind_eq_ok.mpr ⟨rfl, ?_⟩
  refine ensure_bind_eq_ok.mpr ⟨rfl, ?_⟩
  refine ensure_bind_eq_ok.mpr ⟨rfl, ?_⟩
  exact ensure_bind_eq_ok.mpr ⟨hraw, rfl⟩

/-- The format with every value written as it is. -/
def block (headers : List (Bytes × Bytes)) : ℕ :=
  12 + (headers.map fun h => h.1.length + h.2.length + 4).sum

theorem block_format : HeaderFormat block List.length where
  block _ := Nat.add_right_comm 10 2 _
  plain _ _ := rfl

theorem headerRoom_wake {size : List (Bytes × Bytes) → ℕ} {value : Bytes → ℕ}
    (h : HeaderFormat size value) (n : ℕ) : headerRoom value digest (wake n) = 193 := by
  have hid : value (text "o") = 1 := h.plain _ (by decide +kernel)
  have hfact : (decimalNat 1).length = 1 := by decide
  have htoken : (routingToken digest (text "o")).length = 64 := by decide
  show 127 + value (text "o") + (decimalNat 1).length + (routingToken digest (text "o")).length + 0 = 193
  rw [hid, hfact, htoken]

end Sample

/-- 65343 bytes of payload fit with the headers of this wake. -/
theorem message_fits_iff_wake :
    validatePublishRequest Sample.digest (Sample.wake 65343) = .ok () ∧
      ∃ m, publish Sample.digest (Sample.wake 65343) = .ok m ∧
        m.size Sample.block ≤ (streamConfig .production).maxMsgSize := by
  have hvalid : validatePublishRequest Sample.digest (Sample.wake 65343) = .ok () :=
    Sample.wake_valid (by decide) (by decide)
  obtain ⟨m, hm, -, -, -, hfits⟩ := message_fits_iff Sample.block List.length Sample.block_format
    Sample.digest (Sample.wake 65343) .production hvalid
  refine ⟨hvalid, m, hm, hfits.mpr ?_⟩
  rw [Sample.headerRoom_wake Sample.block_format]
  exact List.length_replicate.le

/-- A payload of 64 KiB is accepted and becomes a message the stream refuses. -/
theorem full_payload_unpublishable :
    (Sample.wake maxEnvelopeBytes).rawSSP.length = maxEnvelopeBytes ∧
      validatePublishRequest Sample.digest (Sample.wake maxEnvelopeBytes) = .ok () ∧
      ∃ m, publish Sample.digest (Sample.wake maxEnvelopeBytes) = .ok m ∧
        ∀ size value, HeaderFormat size value →
          m.size size = maxEnvelopeBytes + 193 ∧ (streamConfig .production).maxMsgSize < m.size size := by
  have hvalid := Sample.wake_valid (by decide) (le_refl maxEnvelopeBytes)
  obtain ⟨m, hm⟩ := publish_of_valid hvalid
  refine ⟨List.length_replicate, hvalid, m, hm, ?_⟩
  intro size value hformat
  obtain ⟨hdata, hheaders⟩ := publish_size hformat hm
  have hsize : m.size size = maxEnvelopeBytes + 193 := by
    unfold Message.size
    rw [hdata, hheaders, Sample.headerRoom_wake hformat]
    have hlength : (Sample.wake maxEnvelopeBytes).rawSSP.length = maxEnvelopeBytes :=
      List.length_replicate
    omega
  have hlimit : (streamConfig .production).maxMsgSize = maxEnvelopeBytes := rfl
  refine ⟨hsize, ?_⟩
  omega

end Snagline.Delivery
