import Mathlib.Data.List.AList
import Snagline.Buzz.Event
import Snagline.Edge.Content

/-!
# The projector (collab/buzz/projector.go, collab/buzz/state.go)

A pass loads the durable state, reads facts after its checkpoint and projects them one by
one. The state is a value the pass carries along and saves at several points, on success
and on error; what counts after a crash is what was saved last. So a pass is a program
over what it asks of its surroundings, and the state in its hands is apart from the
durable one.
-/

namespace Snagline.Buzz
open Kit Ssp Json

/-! ### State -/

structure CommittedFact where
  sequence : ℕ := 0
  envelopeID : Bytes := []
  commitment : Bytes := []
  raw : Bytes := []
  deriving DecidableEq

/-- `unset` is the zero value. -/
inductive DeliveryStatus where
  | unset | prepared | published | retry | poison
  deriving DecidableEq

inductive Fault where
  | expiredAbsent
  | error (message : Bytes)
  deriving DecidableEq

inductive Cause where
  | fault (f : Fault)
  | metadataConflict
  | unsupportedFamily
  | undecodableBody
  | fieldsRequired
  | channelMissing
  | noCard
  | cardNotUtf8
  | channelNotCanonical
  | rootNotPrepared
  | caseDeliveryMissing
  | caseHasNoChannel
  deriving DecidableEq

structure SupersededProjection where
  eventID : Bytes
  rootEventID : Bytes
  wire : Bytes
  attempts : ℕ
  lastError : Option Cause
  supersededAt : Time
  reason : Bytes
  deriving DecidableEq

structure Delivery where
  record : CommittedFact := {}
  eventID : Bytes := []
  rootEventID : Bytes := []
  wire : Bytes := []
  status : DeliveryStatus := .unset
  attempts : ℕ := 0
  lastError : Option Cause := none
  superseded : List SupersededProjection := []
  deriving DecidableEq

structure LagState where
  checkpoint : ℕ := 0
  highWatermark : ℕ := 0
  pending : ℕ := 0
  poisoned : ℕ := 0
  deriving DecidableEq

structure State where
  checkpoint : ℕ := 0
  highWatermark : ℕ := 0
  caseRoots : AList (fun _ : Bytes => Bytes) := ∅
  records : AList (fun _ : ℕ => Delivery) := ∅
  lag : LagState := {}

namespace State

variable (s : State)

/-- `state.Records[sequence]`: the zero value where there is none. -/
def recordAt (sequence : ℕ) : Delivery := (s.records.lookup sequence).getD {}

def setRecord (sequence : ℕ) (d : Delivery) : State :=
  { s with records := s.records.insert sequence d }

def setRoot (caseID root : Bytes) : State :=
  { s with caseRoots := s.caseRoots.insert caseID root }

def countStatus (status : DeliveryStatus) : ℕ :=
  (s.records.entries.filter fun x => x.2.status = status).length

def recalculateLag : State :=
  { s with lag := ⟨s.checkpoint, s.highWatermark, s.countStatus .retry, s.countStatus .poison⟩ }

def recordFailure (sequence : ℕ) (cause : Cause) (maxAttempts : ℕ) : State :=
  let d := s.recordAt sequence
  s.setRecord sequence { d with
    attempts := d.attempts + 1
    lastError := some cause
    status := if maxAttempts ≤ d.attempts + 1 then .poison else .retry }

def caseDelivery (caseID : Bytes) : Option Delivery :=
  match s.caseRoots.lookup caseID with
  | none => none
  | some root => (s.records.entries.find? fun x => x.2.eventID = root).map Sigma.snd

end State

/-- `prepare`'s result. -/
structure PreparedEvent where
  id : Bytes
  wire : Bytes
  deriving DecidableEq

namespace State

variable (st : State) (f : CommittedFact)

def touch : State :=
  if (st.recordAt f.sequence).record.sequence == 0 then
    st.setRecord f.sequence { st.recordAt f.sequence with record := f }
  else st

def raise : State :=
  if st.highWatermark < f.sequence then { st with highWatermark := f.sequence } else st

def advance : State :=
  { st with checkpoint := f.sequence }.recalculateLag

def markPublished : State :=
  st.setRecord f.sequence { st.recordAt f.sequence with status := .published }

def markRepublished : State :=
  st.setRecord f.sequence { st.recordAt f.sequence with status := .published, lastError := none }

def prepared (root : Bytes) (e : PreparedEvent) : State :=
  st.setRecord f.sequence
    { record := f, wire := e.wire, eventID := e.id, rootEventID := root, status := .prepared }

def replaced (e : PreparedEvent) (now : Time) : State :=
  let current := st.recordAt f.sequence
  st.setRecord f.sequence
    { record := f, eventID := e.id, rootEventID := current.rootEventID, wire := e.wire,
      status := .prepared,
      superseded := current.superseded ++
        [⟨current.eventID, current.rootEventID, current.wire, current.attempts, current.lastError, now,
          text "expired_absent"⟩] }

end State

/-! ### The surroundings -/

inductive Act where
  | load
  | readAfter (after limit : ℕ)
  | verifyCommitted (raw : Bytes)
  | channelForDomain (domain : Bytes)
  | clock
  /-- The signer gets the digest of the event. -/
  | signDigest (event : NostrEvent)
  | save (state : State)
  /-- The relay gets the wire; the sequence tells for which fact. -/
  | publish (sequence : ℕ) (wire : Bytes)

@[reducible] def Act.Reply : Act → Type
  | .load => State
  | .readAfter _ _ => List CommittedFact
  | .verifyCommitted _ => Envelope
  | .channelForDomain _ => Bytes
  | .clock => Time
  | .signDigest _ => Bytes
  | .save _ | .publish _ _ => Unit

abbrev Pass := Prog Act Act.Reply Fault Empty

def ask (a : Act) : Pass (Except Fault a.Reply) := .call a .ret

/-! ### Preparing an event -/

/-- `Projector`, as NewProjector admits it. -/
structure Projector where
  sha256 : Bytes → Bytes
  digestSize : ∀ bs, (sha256 bs).length = 32
  publicKey : Bytes
  caseMentionPubKey : Bytes
  maxAttempts : ℕ
  attemptsPositive : 0 < maxAttempts

def Projector.draft (p : Projector) (channel root content : Bytes) (now : Time) : NostrEvent where
  pubKey := p.publicKey
  createdAt := now / 1000000000
  kind := stockBuzzMessageKind
  tags := [text "h", channel] ::
    if root = [] then [[text "p", p.caseMentionPubKey]] else [[text "e", root, [], text "reply"]]
  content := content

def Projector.signed (p : Projector) (draft : NostrEvent) (sig : Bytes) : NostrEvent :=
  { draft with id := eventID p.sha256 draft, sig := sig }

def Projector.prepare (p : Projector) (channel root content : Bytes) :
    Pass (Except Cause PreparedEvent) :=
  if !utf8Valid content || content == [] then pure (.error .cardNotUtf8)
  else if !canonicalUUID channel then pure (.error .channelNotCanonical)
  else do
    match ← ask .clock with
    | .error f => pure (.error (.fault f))
    | .ok now => do
      let draft := p.draft channel root content now
      match ← ask (.signDigest draft) with
      | .error f => pure (.error (.fault f))
      | .ok sig =>
        pure (.ok ⟨eventID p.sha256 draft, marshalNostrEvent (p.signed draft sig)⟩)

/-! ### One record -/

inductive RecordError where
  | publishPrepared (f : Fault)
  | verify (f : Fault)
  | metadataConflict
  | unsupportedFamily
  | invalidEvidence
  | channelTag (e : ChannelError)
  | invalidCard
  | adviceRootConflict
  | caseRootConflict
  | prepare (cause : Cause)
  | clock (f : Fault)
  | persist (f : Fault)
  | publish (f : Fault)
  | decodeBody (cause : Cause)
  | caseChannel (cause : Cause)
  | card
  | adviceRoot (cause : Cause)
  deriving DecidableEq

/-- What a record leaves: the state in hand, and whether something was published. -/
abbrev RecordResult := State × Except RecordError Bool

namespace Projector

variable (p : Projector) (st : State)

def refuse (sequence : ℕ) (cause : Cause) (e : RecordError) : Pass RecordResult :=
  pure (st.recordFailure sequence cause p.maxAttempts, .error e)

variable (record : CommittedFact)

/-- The last part of every path: save the state that holds the wire, then publish it. -/
def saveAndPublish (wire : Bytes) : Pass RecordResult := do
  match ← ask (.save st) with
  | .error f => pure (st, .error (.persist f))
  | .ok () =>
    match ← ask (.publish record.sequence wire) with
    | .error f => p.refuse st record.sequence (.fault f) (.publish f)
    | .ok () => pure (st.markPublished record, .ok true)

def readEvidence (current : Delivery) :
    Except RecordError (NostrEvent × Bytes × CollaborationCard) := do
  let old ← orFail (decodeNostrEvent current.wire) .invalidEvidence
  ensure (old.id == current.eventID && old.kind == stockBuzzMessageKind && old.content != [])
    .invalidEvidence
  let channel ← (stockEventChannel old).mapError .channelTag
  let card ← orFail (decodeCard old.content) .invalidCard
  ensure (card.caseID != [] && (card.family == Family.case.schema || card.family == Family.advice.schema))
    .invalidCard
  pure (old, channel, card)

def supersedeExpiredAbsent : Pass RecordResult :=
  let current := st.recordAt record.sequence
  match readEvidence current with
  | .error e => pure (st, .error e)
  | .ok (old, channel, card) =>
    if card.family == Family.advice.schema &&
        (st.caseRoots.lookup card.caseID).getD [] != current.rootEventID then
      pure (st, .error .adviceRootConflict)
    else do
      match ← p.prepare channel current.rootEventID old.content with
      | .error cause => p.refuse st record.sequence cause (.prepare cause)
      | .ok prepared =>
        match ← ask .clock with
        | .error f => pure (st, .error (.clock f))
        | .ok now =>
          let st' := st.replaced record prepared now
          if card.family == Family.case.schema then
            if (st.caseRoots.lookup card.caseID).getD [] != old.id then
              pure (st', .error .caseRootConflict)
            else p.saveAndPublish (st'.setRoot card.caseID prepared.id) record prepared.wire
          else p.saveAndPublish st' record prepared.wire

/-- One value without unknown members. `More` takes a closing bracket for the end. -/
def decodeExactBody (names : List Bytes) (raw : Bytes) : Option Members := do
  let (v, rest) ← parseValue (raw.length + 1) (skipSpace raw)
  let ms ← structMembers v
  if !knownFields names ms then none
  else match skipSpace rest with
    | [] => some ms
    | b :: _ => if b == 93 || b == 125 then some ms else none

def decodeCaseBody (raw : Bytes) : Option Edge.VerifiedCaseBody := do
  let ms ← decodeExactBody caseBodyMembers raw
  some ⟨← fieldString ms (text "domain"), ← fieldString ms (text "issuer_edge_id"),
    ← fieldInt64 ms (text "issuer_edge_generation"), ← fieldString ms (text "summary"),
    ← fieldString ms (text "public_summary"), ← fieldString ms (text "context_manifest")⟩

def decodeAdviceBody (raw : Bytes) : Option Edge.VerifiedAdviceBody := do
  let ms ← decodeExactBody adviceBodyMembers raw
  some ⟨← fieldString ms (text "case_commitment"), ← fieldString ms (text "text"),
    ← fieldString ms (text "public_summary")⟩

def prepareAndPublishCase (e : Envelope) : Pass RecordResult :=
  match decodeCaseBody e.body with
  | none => p.refuse st record.sequence .undecodableBody (.decodeBody .undecodableBody)
  | some body =>
    if body.domain == [] || body.issuerEdgeGeneration ≤ 0 || body.summary == [] ||
        body.publicSummary == [] then
      p.refuse st record.sequence .fieldsRequired (.decodeBody .fieldsRequired)
    else do
      match ← ask (.channelForDomain body.domain) with
      | .error f => p.refuse st record.sequence (.fault f) (.caseChannel (.fault f))
      | .ok channel =>
        if channel == [] then p.refuse st record.sequence .channelMissing (.caseChannel .channelMissing)
        else match renderCard e record.commitment body.publicSummary [] with
          | none => p.refuse st record.sequence .noCard .card
          | some content => do
            match ← p.prepare channel [] content with
            | .error cause => p.refuse st record.sequence cause (.prepare cause)
            | .ok prepared =>
              p.saveAndPublish ((st.prepared record [] prepared).setRoot e.caseID prepared.id) record
                prepared.wire

def prepareAndPublishAdvice (e : Envelope) : Pass RecordResult :=
  match decodeAdviceBody e.body with
  | none => p.refuse st record.sequence .undecodableBody (.decodeBody .undecodableBody)
  | some body =>
    if body.words == [] || body.publicSummary == [] then
      p.refuse st record.sequence .fieldsRequired (.decodeBody .fieldsRequired)
    else match st.caseRoots.lookup e.caseID with
      | none => p.refuse st record.sequence .rootNotPrepared (.adviceRoot .rootNotPrepared)
      | some root =>
        match st.caseDelivery e.caseID with
        | none => p.refuse st record.sequence .caseDeliveryMissing (.adviceRoot .caseDeliveryMissing)
        | some delivery =>
          if eventChannel delivery.wire == [] then
            p.refuse st record.sequence .caseHasNoChannel (.adviceRoot .caseHasNoChannel)
          else match renderCard e record.commitment [] body.publicSummary with
            | none => p.refuse st record.sequence .noCard .card
            | some content => do
              match ← p.prepare (eventChannel delivery.wire) root content with
              | .error cause => p.refuse st record.sequence cause (.prepare cause)
              | .ok prepared =>
                p.saveAndPublish (st.prepared record root prepared) record prepared.wire

def projectRecord : Pass RecordResult := do
  let st := st.touch record
  let entry := st.recordAt record.sequence
  if entry.status == .poison then pure (st, .ok false)
  else if entry.wire != [] then
    match ← ask (.publish record.sequence entry.wire) with
    | .error .expiredAbsent => p.supersedeExpiredAbsent st record
    | .error f => p.refuse st record.sequence (.fault f) (.publishPrepared f)
    | .ok () => pure (st.markRepublished record, .ok true)
  else do
    match ← ask (.verifyCommitted record.raw) with
    | .error f => p.refuse st record.sequence (.fault f) (.verify f)
    | .ok e =>
      if e.id != record.envelopeID then
        p.refuse st record.sequence .metadataConflict .metadataConflict
      else match e.schema with
        | .case => p.prepareAndPublishCase st record e
        | .advice => p.prepareAndPublishAdvice st record e
        | .registry => p.refuse st record.sequence .unsupportedFamily .unsupportedFamily

/-! ### A pass -/

structure ProjectResult where
  processed : ℕ := 0
  published : ℕ := 0
  lag : LagState := {}
  deriving DecidableEq

inductive ProjectError where
  | load (f : Fault)
  | read (f : Fault)
  | limit
  | invalidFact
  | record (e : RecordError)
  | save (f : Fault) (after : Option RecordError)
  deriving DecidableEq

def projectLoop : State → ℕ → ℕ → List CommittedFact → Pass (ProjectResult × Except ProjectError Unit)
  | st, processed, published, [] => pure (⟨processed, published, st.lag⟩, .ok ())
  | st, processed, published, record :: records =>
    if record.sequence ≤ st.checkpoint || record.raw == [] then
      pure (⟨processed, published, st.lag⟩, .error .invalidFact)
    else do
      let (st, result) ← p.projectRecord (st.raise record) record
      match result with
      | .error e =>
        let st := st.recalculateLag
        match ← ask (.save st) with
        | .error f => pure (⟨processed + 1, published, st.lag⟩, .error (.save f (some e)))
        | .ok () => pure (⟨processed + 1, published, st.lag⟩, .error (.record e))
      | .ok sent =>
        let published := if sent then published + 1 else published
        let st := st.advance record
        match ← ask (.save st) with
        | .error f => pure (⟨processed + 1, published, st.lag⟩, .error (.save f none))
        | .ok () => projectLoop st (processed + 1) published records

def project (limit : ℕ) : Pass (ProjectResult × Except ProjectError Unit) :=
  if limit = 0 then pure ({}, .error .limit)
  else do
    match ← ask .load with
    | .error f => pure ({}, .error (.load f))
    | .ok st =>
      let st := st.recalculateLag
      match ← ask (.readAfter st.checkpoint limit) with
      | .error f => pure (⟨0, 0, st.lag⟩, .error (.read f))
      | .ok records => p.projectLoop st 0 0 records

end Projector

/-! ### What the operations leave of the records -/

namespace State

section
variable (st : State)

theorem recordAt_setRecord (s s' : ℕ) (d : Delivery) :
    (st.setRecord s d).recordAt s' = if s' = s then d else st.recordAt s' := by
  unfold setRecord recordAt
  dsimp only
  by_cases h : s' = s
  · subst h
    rw [AList.lookup_insert, if_pos rfl]
    rfl
  · rw [AList.lookup_insert_ne h, if_neg h]

@[simp] theorem recordAt_setRecord_self (s : ℕ) (d : Delivery) :
    (st.setRecord s d).recordAt s = d := by
  rw [recordAt_setRecord, if_pos rfl]

@[simp] theorem recordAt_setRoot (caseID root : Bytes) (s : ℕ) :
    (st.setRoot caseID root).recordAt s = st.recordAt s := rfl

@[simp] theorem recordAt_recalculateLag (s : ℕ) :
    st.recalculateLag.recordAt s = st.recordAt s := rfl

variable (f : CommittedFact)

@[simp] theorem recordAt_raise (s : ℕ) : (st.raise f).recordAt s = st.recordAt s := by
  unfold raise
  split
  · rfl
  · rfl

@[simp] theorem checkpoint_raise : (st.raise f).checkpoint = st.checkpoint := by
  unfold raise
  split
  · rfl
  · rfl

@[simp] theorem checkpoint_touch : (st.touch f).checkpoint = st.checkpoint := by
  unfold touch
  split
  · rfl
  · rfl

@[simp] theorem recordAt_advance (s : ℕ) : (st.advance f).recordAt s = st.recordAt s := rfl

end

end State

end Snagline.Buzz
