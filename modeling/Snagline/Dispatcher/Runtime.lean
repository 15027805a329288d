import Snagline.Dispatcher.Turns
import Snagline.Spool.WrittenAhead

/-!
# One dispatcher turn (cmd/snagline-dispatcher/runtime.go:130-202)

A turn binds its event, lets the finalizer sign, spool and submit the advice or retry
what is spooled already, and completes the event with the text it then writes to stdout.
Whatever ends before the completion is written as a refusal.
-/

namespace Snagline.Dispatcher
open Kit Ssp Json Spool

def maxDispatcherCommandRequestBytes : ℕ := 65536
def dispatcherTurnRetention : ℤ := 7 * 24 * 3600 * 1000000000
def dispatcherTurnClaimTTL : ℤ := 120 * 1000000000
def dispatcherTurnCapacity : ℤ := 8192

/-! ### Requests and results -/

structure CommandRequest where
  eventID : Bytes
  caseID : Bytes
  caseCommitment : Bytes
  words : Bytes
  publicSummary : Bytes
  deriving DecidableEq

variable (r : CommandRequest)

/-- `ValidateCommandRequest`. -/
def validateCommandRequest : Bool :=
  isTurnID r.eventID && validText r.caseID 512 && sha256Hex r.caseCommitment &&
    validText r.words 8192 && validText r.publicSummary 1024

def submissionText : Bytes :=
  objectText [(text "case_id", quote r.caseID),
    (text "case_commitment", quote r.caseCommitment), (text "text", quote r.words),
    (text "public_summary", quote r.publicSummary)]

/-- `json.Marshal(CommandRequest)`. -/
def CommandRequest.text : Bytes :=
  objectText [(Kit.text "event_id", quote r.eventID),
    (Kit.text "submission", submissionText r)]

structure CommandResult where
  ok : Bool
  code : Bytes
  adviceID : Bytes := []
  authorityRevision : ℤ := 0
  deriving DecidableEq

def CommandResult.text (r : CommandResult) : Bytes :=
  objectText ([(Kit.text "ok", Kit.text (if r.ok then "true" else "false")),
      (Kit.text "code", quote r.code)] ++
    (if r.adviceID = [] then [] else [(Kit.text "advice_id", quote r.adviceID)]) ++
    (if r.authorityRevision = 0 then []
      else [(Kit.text "authority_revision", decimal r.authorityRevision)]))

def fieldBool (ms : Members) (name : Bytes) : Option Bool :=
  match field ms name with
  | none => some false
  | some (_, .null) => some false
  | some (_, .bool b) => some b
  | some _ => none

def commandResultNames : List Bytes :=
  [text "ok", text "code", text "advice_id", text "authority_revision"]

def decodeCommandResult (raw : Bytes) : Option CommandResult := do
  let ms ← structMembers (← unmarshal raw)
  if knownFields commandResultNames ms then
    let ok ← fieldBool ms (text "ok")
    let code ← fieldString ms (text "code")
    let adviceID ← fieldString ms (text "advice_id")
    let authorityRevision ← fieldInt64 ms (text "authority_revision")
    some ⟨ok, code, adviceID, authorityRevision⟩
  else none

def validStoredCommandResult (raw : Bytes) : Bool :=
  match decodeCommandResult raw with
  | none => false
  | some r => r.ok && r.code == text "accepted_remote" && r.adviceID != [] && 0 < r.authorityRevision

structure Output where
  exit : ℕ
  stdout : Bytes
  deriving DecidableEq

/-- `writeResult` of a failure. -/
def refusal (code : String) : Output := ⟨1, (CommandResult.text ⟨false, text code, [], 0⟩) ++ [10]⟩
def writeCanonicalResult (raw : Bytes) : Output := ⟨0, raw ++ [10]⟩

def acceptedResult (adviceID : Bytes) (revision : ℤ) : CommandResult :=
  ⟨true, text "accepted_remote", adviceID, revision⟩

/-! ### The turn -/

inductive Act where
  | turn (a : TurnAct)
  | edge (a : Spool.Act)

abbrev Act.Reply : Act → Type
  | .turn a => Except TurnError a.Reply
  | .edge a => a.Reply

abbrev Turn := Prog Act Act.Reply Failure Empty

def attempt (a : Act) : Turn (Except Failure a.Reply) := .call a .ret

def finalizer {α : Type} : Call α → Turn (Except Rejected α)
  | .ret a => .ret (.ok a)
  | .fail e => .ret (.error e)
  | .call s k => .call (.edge s) fun r => finalizer (k r)

def CommandRequest.advice : FinalizeAdviceRequest :=
  ⟨r.caseID, r.caseCommitment, r.words, r.publicSummary⟩

def adviseOnce (f : Finalizer) (r : CommandRequest) :
    Turn (Except Rejected Submission) := do
  let result ← finalizer (f.finalizeAdvice r.advice)
  match result with
  | .error ⟨_, .alreadyPending⟩ => finalizer (f.retryAdvice r.caseID)
  | result => pure result

def giveUp (a : TurnAct) (code : String) : Turn Output := do
  match ← attempt (.turn a) with
  | .ok (.ok _) => pure (refusal code)
  | .ok (.error _) | .error _ => pure (refusal "runtime_unavailable")

def rejectTurn (claim : Bytes) : ServiceError → Turn Output
  | .pendingAdviceConflict => giveUp (.abandon r.eventID r.text claim) "pending_advice_conflict"
  | .notFound | .notCommitted => giveUp (.abandon r.eventID r.text claim) "advice_not_accepted"
  | _ => giveUp (.release r.eventID r.text claim) "advice_not_accepted"

def completeTurn (claim : Bytes) (s : Submission) : Turn Output := do
  if !s.acceptedRemote || s.envelopeID == [] || s.receipt.revision ≤ 0 then
    pure (refusal "advice_not_accepted")
  else
    let result := (acceptedResult s.envelopeID s.receipt.revision).text
    match ← attempt (.edge .clock) with
    | .error _ => pure (refusal "runtime_unavailable")
    | .ok now =>
      match ← attempt (.turn (.complete r.eventID r.text result now claim)) with
      | .ok (.ok _) => pure (writeCanonicalResult result)
      | .ok (.error _) | .error _ => pure (refusal "runtime_unavailable")

def boundTurn (f : Finalizer) (r : CommandRequest) (binding : DispatcherTurnBinding) :
    Turn Output := do
  if binding.completed then
    if validStoredCommandResult binding.result then pure (writeCanonicalResult binding.result)
    else pure (refusal "runtime_unavailable")
  else if binding.inFlight then pure (refusal "turn_in_flight")
  else if binding.claimToken == [] then pure (refusal "runtime_unavailable")
  else
    match ← adviseOnce f r with
    | .error rejected => rejectTurn r binding.claimToken rejected.error
    | .ok submission => completeTurn r binding.claimToken submission

def CommandRequest.bind (now : Time) : BindRequest :=
  ⟨r.eventID, r.text, now, dispatcherTurnRetention, dispatcherTurnClaimTTL, dispatcherTurnCapacity⟩

def afterBind (f : Finalizer) (r : CommandRequest) :
    Except Failure (Except TurnError DispatcherTurnBinding) → Turn Output
  | .ok (.ok binding) => boundTurn f r binding
  | .ok (.error .mismatch) => pure (refusal "turn_request_mismatch")
  | .ok (.error .capacity) => pure (refusal "replay_guard_full")
  | .ok (.error _) | .error _ => pure (refusal "runtime_unavailable")

def runDispatcherTurn (f : Finalizer) (r : CommandRequest) (now : Time) : Turn Output :=
  if maxDispatcherCommandRequestBytes < r.text.length then pure (refusal "runtime_unavailable")
  else .call (.turn (.bind (r.bind now))) (afterBind f r)

/-! ### Texts -/

end Snagline.Dispatcher
