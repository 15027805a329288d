import Snagline.Authority.Store
import Snagline.Ssp.Envelope

/-!
# Dispatcher turns (sspedge/dispatcher_turn_store.go)

One row a Buzz event: the exact request, a claim while an execution works on it, and
the result once there is one. Claim and row expire apart: every bind first deletes the
rows whose retention is over, claimed or not. Both expiries are stored as 64-bit counts of
nanoseconds. Payloads are encrypted at rest, which is left out, and so are the two columns
that nothing reads.
-/

namespace Snagline.Dispatcher
open Kit Ssp

def maxDispatcherTurnRequestBytes : ℕ := 65536
def maxDispatcherTurnResultBytes : ℕ := 16384
def maxDispatcherTurnRetention : ℤ := 30 * 24 * 3600 * 1000000000
def maxDispatcherTurnCapacity : ℤ := 1048576
def maxDispatcherTurnClaimTTL : ℤ := 600 * 1000000000

/-- `dispatcherTurnIDPattern`. -/
def isTurnID (value : Bytes) : Bool := value.length == 64 && value.all isLowerHex

/-- What `claimToken` draws. -/
structure ClaimToken where
  value : Bytes
  drawn : isTurnID value = true

/-- `time.Time.UnixNano`, an int64: exact from 1677 to 2262. -/
def unixNano (t : Time) : ℤ := t.bmod (2 ^ 64)

theorem unixNano_eq {t : ℤ} (hlow : -2 ^ 63 ≤ t) (hhigh : t < 2 ^ 63) : unixNano t = t :=
  Int.bmod_eq_of_le (by omega) (by omega)

inductive TurnState where
  | pending | completed
  deriving DecidableEq

structure TurnRow where
  eventID : Bytes
  request : Bytes
  result : Option Bytes
  state : TurnState
  expires : ℤ
  claimToken : Option Bytes
  claimExpires : Option ℤ
  deriving DecidableEq

structure DispatcherTurnBinding where
  completed : Bool := false
  inFlight : Bool := false
  claimToken : Bytes := []
  result : Bytes := []
  deriving DecidableEq

inductive TurnError where
  | invalidBinding
  | mismatch
  | pendingResult
  | invalidClaim
  | completedState
  | storedResult
  | capacity
  | invalidCompletion
  | notFound
  | retainedClaim
  | resultConflict
  | invalidState
  | invalidClaimUpdate
  | notOwned
  deriving DecidableEq

/-! ### The four transactions -/

structure BindRequest where
  eventID : Bytes
  request : Bytes
  now : Time
  retention : ℤ
  claimTTL : ℤ
  capacity : ℤ
  deriving DecidableEq

def BindRequest.valid (r : BindRequest) : Bool :=
  isTurnID r.eventID && !r.request.isEmpty && r.request.length ≤ maxDispatcherTurnRequestBytes &&
    r.now != zeroTime && 0 < r.retention && r.retention ≤ maxDispatcherTurnRetention &&
    0 < r.claimTTL && r.claimTTL ≤ maxDispatcherTurnClaimTTL && 0 < r.capacity &&
    r.capacity ≤ maxDispatcherTurnCapacity

def BindRequest.clock (r : BindRequest) : ℤ := unixNano r.now
def BindRequest.rowEnds (r : BindRequest) : ℤ := unixNano (r.now + r.retention)
def BindRequest.claimEnds (r : BindRequest) : ℤ := unixNano (r.now + r.claimTTL)

def TurnRow.claim (token : Bytes) (expires : ℤ) (row : TurnRow) : TurnRow :=
  { row with claimToken := some token, claimExpires := some expires }

def TurnRow.release (row : TurnRow) : TurnRow :=
  { row with claimToken := none, claimExpires := none }

def TurnRow.complete (result : Bytes) (row : TurnRow) : TurnRow :=
  { row with result := some result, state := .completed, claimToken := none, claimExpires := none }

def prune (now : ℤ) (rows : List TurnRow) : List TurnRow := rows.filter fun row => now < row.expires

def findTurn (eventID : Bytes) (rows : List TurnRow) : Option TurnRow :=
  Table.find TurnRow.eventID eventID rows

def bindExisting (r : BindRequest) (token : ClaimToken) (row : TurnRow) (rows : List TurnRow) :
    Except TurnError (DispatcherTurnBinding × List TurnRow) := do
  ensure (row.request == r.request) .mismatch
  let storedClaim := row.claimToken.getD []
  let claimExpires := row.claimExpires.getD 0
  match row.state with
  | .pending => do
    ensure row.result.isNone .pendingResult
    ensure ((storedClaim == []) == (claimExpires == 0)) .invalidClaim
    if storedClaim != [] && r.clock < claimExpires then
      pure ({ inFlight := true }, rows)
    else
      pure ({ claimToken := token.value },
        Table.update TurnRow.eventID r.eventID (TurnRow.claim token.value r.claimEnds) rows)
  | .completed => do
    ensure (row.result.isSome && storedClaim == [] && claimExpires == 0) .completedState
    let result := row.result.getD []
    ensure (!result.isEmpty && result.length ≤ maxDispatcherTurnResultBytes) .storedResult
    pure ({ completed := true, result := result }, rows)

def bindDispatcherTurn (r : BindRequest) (token : ClaimToken) (stored : List TurnRow) :
    Except TurnError (DispatcherTurnBinding × List TurnRow) := do
  ensure r.valid .invalidBinding
  let rows := prune r.clock stored
  match findTurn r.eventID rows with
  | some row => bindExisting r token row rows
  | none => do
    ensure (rows.length < r.capacity) .capacity
    pure ({ claimToken := token.value },
      rows ++ [⟨r.eventID, r.request, none, .pending, r.rowEnds, some token.value,
        some r.claimEnds⟩])

def validRequest (request : Bytes) : Bool :=
  !request.isEmpty && request.length ≤ maxDispatcherTurnRequestBytes

def completeDispatcherTurn (eventID request result : Bytes) (completedAt : Time) (claim : Bytes)
    (rows : List TurnRow) : Except TurnError (List TurnRow) := do
  ensure (isTurnID eventID && isTurnID claim && validRequest request && !result.isEmpty &&
    result.length ≤ maxDispatcherTurnResultBytes && completedAt != zeroTime) .invalidCompletion
  let row ← orFail (findTurn eventID rows) .notFound
  ensure (row.request == request) .mismatch
  match row.state with
  | .completed => do
    ensure (row.claimToken.getD [] == []) .retainedClaim
    ensure (row.result == some result) .resultConflict
    pure rows
  | .pending => do
    ensure (row.result.isNone && row.claimToken.getD [] == claim) .invalidState
    pure (Table.update TurnRow.eventID eventID (TurnRow.complete result) rows)

variable (eventID request claim : Bytes)

def updatePendingDispatcherTurnClaim (abandon : Bool) (rows : List TurnRow) :
    Except TurnError (List TurnRow) := do
  ensure (isTurnID eventID && isTurnID claim && validRequest request) .invalidClaimUpdate
  let row ← orFail (findTurn eventID rows) .notFound
  ensure (row.request == request) .mismatch
  ensure (row.state == .pending && row.result.isNone && row.claimToken.getD [] == claim) .notOwned
  if abandon then pure (rows.filter fun r => r.eventID != eventID)
  else pure (Table.update TurnRow.eventID eventID TurnRow.release rows)

def releaseDispatcherTurnClaim : List TurnRow → Except TurnError (List TurnRow) :=
  updatePendingDispatcherTurnClaim eventID request claim false

def abandonDispatcherTurn : List TurnRow → Except TurnError (List TurnRow) :=
  updatePendingDispatcherTurnClaim eventID request claim true

/-! ### Calls -/

inductive TurnAct where
  | bind (r : BindRequest)
  | complete (eventID request result : Bytes) (completedAt : Time) (claim : Bytes)
  | release (eventID request claim : Bytes)
  | abandon (eventID request claim : Bytes)

abbrev TurnAct.Reply : TurnAct → Type
  | .bind _ => DispatcherTurnBinding
  | .complete _ _ _ _ _ | .release _ _ _ | .abandon _ _ _ => Unit

def TurnAct.work (token : ClaimToken) :
    (a : TurnAct) → List TurnRow → Except TurnError (a.Reply × List TurnRow)
  | .bind r, rows => bindDispatcherTurn r token rows
  | .complete eventID request result completedAt claim, rows => do
    let rows ← completeDispatcherTurn eventID request result completedAt claim rows
    pure ((), rows)
  | .release eventID request claim, rows => do
    let rows ← releaseDispatcherTurnClaim eventID request claim rows
    pure ((), rows)
  | .abandon eventID request claim, rows => do
    let rows ← abandonDispatcherTurn eventID request claim rows
    pure ((), rows)

inductive Outcome (a : TurnAct) where
  | done (r : a.Reply)
  | refused (e : TurnError)
  | failed
  | lost

inductive Performs : (a : TurnAct) → List TurnRow → Outcome a → List TurnRow → Prop where
  | done (a : TurnAct) (token : ClaimToken) (rows rows' : List TurnRow) (r : a.Reply)
      (work : a.work token rows = .ok (r, rows')) : Performs a rows (.done r) rows'
  | refused (a : TurnAct) (token : ClaimToken) (rows : List TurnRow) (e : TurnError)
      (work : a.work token rows = .error e) : Performs a rows (.refused e) rows
  | failed (a : TurnAct) (rows : List TurnRow) : Performs a rows .failed rows
  | lost (a : TurnAct) (token : ClaimToken) (rows rows' : List TurnRow) (r : a.Reply)
      (work : a.work token rows = .ok (r, rows')) : Performs a rows .lost rows'

/-! ### What a bind does -/

section
variable {rows rows' : List TurnRow} {b : DispatcherTurnBinding} {token : ClaimToken}
  {r : BindRequest}

inductive Bound (r : BindRequest) (token : ClaimToken) (rows : List TurnRow) :
    DispatcherTurnBinding → List TurnRow → Prop where
  | inFlight (row : TurnRow) (found : findTurn r.eventID rows = some row)
      (request : row.request = r.request) (pending : row.state = .pending) :
      Bound r token rows { inFlight := true } rows
  | completed (row : TurnRow) (result : Bytes) (found : findTurn r.eventID rows = some row)
      (request : row.request = r.request) (completed : row.state = .completed)
      (stored : row.result = some result) :
      Bound r token rows { completed := true, result := result } rows
  | reclaimed (row : TurnRow) (found : findTurn r.eventID rows = some row)
      (request : row.request = r.request) (pending : row.state = .pending)
      (empty : row.result = none)
      (free : row.claimToken.getD [] = [] ∨ row.claimExpires.getD 0 ≤ r.clock) :
      Bound r token rows { claimToken := token.value }
        (Table.update TurnRow.eventID r.eventID (TurnRow.claim token.value r.claimEnds) rows)
  | fresh (unbound : findTurn r.eventID rows = none) :
      Bound r token rows { claimToken := token.value }
        (rows ++ [⟨r.eventID, r.request, none, .pending, r.rowEnds, some token.value,
          some r.claimEnds⟩])

theorem bindExisting_ok {row : TurnRow}
    (hfound : findTurn r.eventID rows = some row)
    (h : bindExisting r token row rows = .ok (b, rows')) : Bound r token rows b rows' := by
  unfold bindExisting at h
  obtain ⟨hrequest, h⟩ := ensure_bind_eq_ok.mp h
  rw [beq_iff_eq] at hrequest
  cases hstate : row.state with
  | pending =>
    simp only [hstate] at h
    obtain ⟨hempty, h⟩ := ensure_bind_eq_ok.mp h
    obtain ⟨-, h⟩ := ensure_bind_eq_ok.mp h
    rw [Option.isNone_iff_eq_none] at hempty
    split at h
    · cases h
      exact .inFlight row hfound hrequest hstate
    · rename_i hfree
      cases h
      refine .reclaimed row hfound hrequest hstate hempty ?_
      simp only [Bool.and_eq_true, bne_iff_ne, decide_eq_true_eq] at hfree
      by_cases hclaim : row.claimToken.getD [] = []
      · exact .inl hclaim
      · exact .inr (not_lt.mp fun hlive => hfree ⟨hclaim, hlive⟩)
  | completed =>
    simp only [hstate] at h
    obtain ⟨hkept, h⟩ := ensure_bind_eq_ok.mp h
    obtain ⟨-, h⟩ := ensure_bind_eq_ok.mp h
    cases h
    simp only [Bool.and_eq_true, Option.isSome_iff_exists] at hkept
    obtain ⟨result, hresult⟩ := hkept.1.1
    rw [hresult]
    exact .completed row result hfound hrequest hstate hresult

theorem bindDispatcherTurn_ok (h : bindDispatcherTurn r token rows = .ok (b, rows')) :
    Bound r token (prune r.clock rows) b rows' := by
  unfold bindDispatcherTurn at h
  obtain ⟨-, h⟩ := ensure_bind_eq_ok.mp h
  cases hfound : findTurn r.eventID (prune r.clock rows) with
  | some =>
    simp only [hfound] at h
    exact bindExisting_ok hfound h
  | none =>
    simp only [hfound] at h
    obtain ⟨-, h⟩ := ensure_bind_eq_ok.mp h
    cases h
    exact .fresh hfound

end

/-! ### One row through a call -/

section
variable {rows rows' : List TurnRow} {eventID request result claim : Bytes} {completedAt : Time}

theorem findTurn_prune {now : ℤ} {eventID : Bytes} {rows : List TurnRow} {row : TurnRow}
    (h : findTurn eventID rows = some row) (hlive : now < row.expires) :
    findTurn eventID (prune now rows) = some row := by
  unfold findTurn Table.find at h ⊢
  induction rows with
  | nil => cases h
  | cons x rows ih =>
    rw [List.find?_cons] at h
    unfold prune
    split at h
    · rename_i hx
      cases h
      rw [List.filter_cons, if_pos (decide_eq_true hlive), List.find?_cons, hx]
    · rename_i hx
      by_cases hkept : now < x.expires
      · rw [List.filter_cons, if_pos (decide_eq_true hkept), List.find?_cons, hx]
        exact ih h
      · rw [List.filter_cons, if_neg (by simpa using hkept)]
        exact ih h

theorem findTurn_without {eventID other : Bytes} (hne : eventID ≠ other) (rows : List TurnRow) :
    findTurn eventID (rows.filter fun r => r.eventID != other) = findTurn eventID rows := by
  unfold findTurn Table.find
  rw [List.find?_filter]
  refine congrArg (fun p => List.find? p rows) (funext fun r => ?_)
  by_cases h : r.eventID = eventID
  · simp [h, hne]
  · simp [h]

theorem findTurn_update {eventID other : Bytes} (hne : eventID ≠ other) (f : TurnRow → TurnRow)
    (hf : ∀ r, (f r).eventID = r.eventID) (rows : List TurnRow) :
    findTurn eventID (Table.update TurnRow.eventID other f rows) = findTurn eventID rows := by
  unfold findTurn
  rw [Table.find_update TurnRow.eventID other eventID f hf, if_neg hne]

theorem completeDispatcherTurn_ok
    (h : completeDispatcherTurn eventID request result completedAt claim rows = .ok rows') :
    ∃ row, findTurn eventID rows = some row ∧ row.request = request ∧
      ((row.state = .completed ∧ row.result = some result ∧ rows' = rows) ∨
        (row.state = .pending ∧ row.claimToken.getD [] = claim ∧
          rows' = Table.update TurnRow.eventID eventID (TurnRow.complete result) rows)) := by
  unfold completeDispatcherTurn at h
  obtain ⟨-, h⟩ := ensure_bind_eq_ok.mp h
  obtain ⟨row, hrow, h⟩ := orFail_bind_eq_ok.mp h
  obtain ⟨hrequest, h⟩ := ensure_bind_eq_ok.mp h
  refine ⟨row, hrow, beq_iff_eq.mp hrequest, ?_⟩
  cases hstate : row.state with
  | completed =>
    simp only [hstate] at h
    obtain ⟨-, h⟩ := ensure_bind_eq_ok.mp h
    obtain ⟨hresult, h⟩ := ensure_bind_eq_ok.mp h
    cases h
    exact .inl ⟨rfl, beq_iff_eq.mp hresult, rfl⟩
  | pending =>
    simp only [hstate] at h
    obtain ⟨hclaim, h⟩ := ensure_bind_eq_ok.mp h
    cases h
    rw [Bool.and_eq_true, beq_iff_eq] at hclaim
    exact .inr ⟨rfl, hclaim.2, rfl⟩

theorem completeDispatcherTurn_fits
    (h : completeDispatcherTurn eventID request result completedAt claim rows = .ok rows') :
    result ≠ [] ∧ result.length ≤ maxDispatcherTurnResultBytes := by
  unfold completeDispatcherTurn at h
  obtain ⟨hvalid, -⟩ := ensure_bind_eq_ok.mp h
  simp only [Bool.and_eq_true, decide_eq_true_eq, Bool.not_eq_true', List.isEmpty_eq_false_iff] at hvalid
  exact ⟨hvalid.1.1.2, hvalid.1.2⟩

theorem updatePendingDispatcherTurnClaim_ok {eventID request claim : Bytes} {abandon : Bool}
    (h : updatePendingDispatcherTurnClaim eventID request claim abandon rows = .ok rows') :
    ∃ row, findTurn eventID rows = some row ∧ row.request = request ∧ row.state = .pending ∧
      row.claimToken.getD [] = claim ∧
      rows' = if abandon then rows.filter fun r => r.eventID != eventID
        else Table.update TurnRow.eventID eventID TurnRow.release rows := by
  unfold updatePendingDispatcherTurnClaim at h
  obtain ⟨-, h⟩ := ensure_bind_eq_ok.mp h
  obtain ⟨row, hrow, h⟩ := orFail_bind_eq_ok.mp h
  obtain ⟨hrequest, h⟩ := ensure_bind_eq_ok.mp h
  obtain ⟨howned, h⟩ := ensure_bind_eq_ok.mp h
  simp only [Bool.and_eq_true, beq_iff_eq] at howned
  refine ⟨row, hrow, beq_iff_eq.mp hrequest, howned.1.1, howned.2, ?_⟩
  cases abandon with
  | false | true =>
    cases h
    rfl

end

/-! ### The table through a call -/

/-- What a call that succeeds does to the table. -/
inductive Worked (token : ClaimToken) (rows : List TurnRow) : TurnAct → List TurnRow → Prop where
  | bound (r : BindRequest) (b : DispatcherTurnBinding) (rows' : List TurnRow)
      (bound : Bound r token (prune r.clock rows) b rows') : Worked token rows (.bind r) rows'
  | again (eventID request result : Bytes) (completedAt : Time) (claim : Bytes) (row : TurnRow)
      (found : findTurn eventID rows = some row) (done : row.state = .completed) :
      Worked token rows (.complete eventID request result completedAt claim) rows
  | completed (eventID request result : Bytes) (completedAt : Time) (claim : Bytes) (row : TurnRow)
      (found : findTurn eventID rows = some row) (same : row.request = request)
      (pending : row.state = .pending) (owned : row.claimToken.getD [] = claim)
      (fits : result ≠ [] ∧ result.length ≤ maxDispatcherTurnResultBytes) :
      Worked token rows (.complete eventID request result completedAt claim)
        (Table.update TurnRow.eventID eventID (TurnRow.complete result) rows)
  | released (eventID request claim : Bytes) (row : TurnRow)
      (found : findTurn eventID rows = some row) (pending : row.state = .pending)
      (owned : row.claimToken.getD [] = claim) : Worked token rows (.release eventID request claim)
        (Table.update TurnRow.eventID eventID TurnRow.release rows)
  | abandoned (eventID request claim : Bytes) (row : TurnRow)
      (found : findTurn eventID rows = some row) (pending : row.state = .pending)
      (owned : row.claimToken.getD [] = claim) : Worked token rows (.abandon eventID request claim)
        (rows.filter fun r => r.eventID != eventID)

section
variable {a : TurnAct} {token : ClaimToken} {rows rows' : List TurnRow}

theorem work_ok {reply : a.Reply} (h : a.work token rows = .ok (reply, rows')) :
    Worked token rows a rows' := by
  cases a with
  | bind r => exact .bound r reply rows' (bindDispatcherTurn_ok h)
  | complete =>
    obtain ⟨_, hok, hreply⟩ := bind_eq_ok.mp h
    cases hreply
    obtain ⟨row, hfound, hrequest, ⟨hstate, -, rfl⟩ | ⟨hstate, howned, rfl⟩⟩ :=
      completeDispatcherTurn_ok hok
    · exact .again _ _ _ _ _ row hfound hstate
    · exact .completed _ _ _ _ _ row hfound hrequest hstate howned (completeDispatcherTurn_fits hok)
  | release =>
    obtain ⟨_, hok, hreply⟩ := bind_eq_ok.mp h
    cases hreply
    obtain ⟨row, hfound, -, hstate, howned, rfl⟩ := updatePendingDispatcherTurnClaim_ok hok
    exact .released _ _ _ row hfound hstate howned
  | abandon =>
    obtain ⟨_, hok, hreply⟩ := bind_eq_ok.mp h
    cases hreply
    obtain ⟨row, hfound, -, hstate, howned, rfl⟩ := updatePendingDispatcherTurnClaim_ok hok
    exact .abandoned _ _ _ row hfound hstate howned

/-- One row an event, and `P` of every row. -/
structure Each (P : TurnRow → Prop) (rows : List TurnRow) : Prop where
  keyed : Table.Keyed TurnRow.eventID rows
  holds : ∀ row ∈ rows, P row

/-- The rows that a call writes have `P` if those it finds do. -/
structure Admits (P : TurnRow → Prop) (a : TurnAct) (token : ClaimToken) : Prop where
  bound : ∀ r, a = .bind r → P ⟨r.eventID, r.request, none, .pending, r.rowEnds,
    some token.value, some r.claimEnds⟩
  claimed : ∀ row expires, P row → row.state = .pending → P (row.claim token.value expires)
  released : ∀ row, P row → row.state = .pending → P row.release
  completed : ∀ event request result completedAt claim row,
    a = .complete event request result completedAt claim → P row → row.request = request →
    result ≠ [] → result.length ≤ maxDispatcherTurnResultBytes → P (row.complete result)

section
variable {P : TurnRow → Prop}

theorem Each.filter (h : Each P rows) (p : TurnRow → Bool) : Each P (rows.filter p) :=
  ⟨h.keyed.sublist (List.filter_sublist.map _), fun row hrow =>
    h.holds row (List.mem_of_mem_filter hrow)⟩

theorem Each.found (h : Each P rows) {eventID : Bytes} {row : TurnRow}
    (hfound : findTurn eventID rows = some row) : P row :=
  h.holds row (Table.find_eq_some hfound).1

theorem Each.update (h : Each P rows) {eventID : Bytes} {row : TurnRow}
    (hfound : findTurn eventID rows = some row) {f : TurnRow → TurnRow}
    (hkey : ∀ r, (f r).eventID = r.eventID) (hf : P (f row)) :
    Each P (Table.update TurnRow.eventID eventID f rows) := by
  refine ⟨h.keyed.update eventID hkey, ?_⟩
  intro x hx
  obtain ⟨y, hy, ⟨-, rfl⟩ | ⟨hkeyed, rfl⟩⟩ := Table.mem_update hx
  · exact h.holds _ hy
  · obtain ⟨hmem, heq⟩ := Table.find_eq_some hfound
    rw [h.keyed.eq_of_key hy hmem (hkeyed.trans heq.symm)]
    exact hf

theorem Each.work (h : Each P rows) (hadmits : Admits P a token) (hwork : Worked token rows a rows') :
    Each P rows' := by
  cases hwork with
  | bound r b _ bound =>
    have hpruned : Each P (prune r.clock rows) := h.filter _
    cases bound with
    | inFlight | completed => exact hpruned
    | reclaimed row found _ pending _ _ =>
      exact hpruned.update (f := TurnRow.claim token.value r.claimEnds) found (fun _ => rfl)
        (hadmits.claimed row _ (hpruned.found found) pending)
    | fresh unbound =>
      refine ⟨hpruned.keyed.append ?_, ?_⟩
      · exact Table.clash_eq_false.mpr (Table.find_eq_none.mp unbound)
      · intro row hrow
        rcases List.mem_append.mp hrow with hold | hnew
        · exact hpruned.holds row hold
        · rw [List.mem_singleton.mp hnew]
          exact hadmits.bound r rfl
  | again => exact h
  | completed _ _ result _ _ row found same _ _ fits =>
    exact h.update (f := TurnRow.complete result) found (fun _ => rfl)
      (hadmits.completed _ _ _ _ _ row rfl (h.found found) same fits.1 fits.2)
  | released _ _ _ row found pending _ =>
    exact h.update (f := TurnRow.release) found (fun _ => rfl)
      (hadmits.released row (h.found found) pending)
  | abandoned => exact h.filter _

end

theorem completed_work (h : Worked token rows a rows') {eventID : Bytes} {row : TurnRow}
    (hfound : findTurn eventID rows = some row) (hstate : row.state = .completed)
    (hlasts : ∀ r, a = .bind r → r.clock < row.expires) : findTurn eventID rows' = some row := by
  have hother : ∀ {event : Bytes} {other : TurnRow} {rows : List TurnRow},
      findTurn eventID rows = some row → findTurn event rows = some other →
      other.state = .pending → eventID ≠ event := by
    rintro event other rows hrow hfound' hpending rfl
    cases hrow.symm.trans hfound'
    rw [hstate] at hpending
    cases hpending
  cases h with
  | bound r b _ bound =>
    have hkept := findTurn_prune hfound (hlasts r rfl)
    cases bound with
    | inFlight | completed => exact hkept
    | reclaimed other found _ pending _ _ =>
      exact (findTurn_update (hother hkept found pending)
        (TurnRow.claim token.value r.claimEnds) (fun _ => rfl) _).trans hkept
    | fresh unbound =>
      unfold findTurn at hkept ⊢
      rw [Table.find_append, hkept]
      rfl
  | again => exact hfound
  | completed _ _ result _ _ other found _ pending _ _ =>
    exact (findTurn_update (hother hfound found pending) (TurnRow.complete result) (fun _ => rfl)
      rows).trans hfound
  | released _ _ _ other found pending _ =>
    exact (findTurn_update (hother hfound found pending) TurnRow.release (fun _ => rfl) rows).trans
      hfound
  | abandoned _ _ _ other found pending =>
    exact (findTurn_without (hother hfound found pending) rows).trans hfound

theorem bind_completed {r : BindRequest} {row : TurnRow} {result : Bytes} (hvalid : r.valid = true)
    (hfound : findTurn r.eventID rows = some row) (hlive : r.clock < row.expires)
    (hstate : row.state = .completed) (htoken : row.claimToken = none)
    (hexpires : row.claimExpires = none) (hresult : row.result = some result)
    (hnonempty : result ≠ []) (hshort : result.length ≤ maxDispatcherTurnResultBytes) :
    bindDispatcherTurn r token rows =
      if row.request = r.request then .ok ({ completed := true, result := result }, prune r.clock rows)
      else .error .mismatch := by
  unfold bindDispatcherTurn
  simp only [hvalid, findTurn_prune hfound hlive, ensure_true, ok_bind, bindExisting, hstate, htoken,
    hexpires, hresult]
  by_cases hrequest : row.request = r.request
  · have hfull : result.isEmpty = false := by simpa using hnonempty
    rw [beq_iff_eq.mpr hrequest, if_pos hrequest]
    simp only [ensure_true, ok_bind, Option.isSome_some, Option.getD_some, Option.getD_none, hfull, hshort,
      Bool.not_false, decide_true, Bool.and_self, beq_self_eq_true]
    rfl
  · rw [beq_eq_false_iff_ne.mpr hrequest, if_neg hrequest]
    rfl

end

/-! ### Claims -/

/-- The event is claimed by `token` until `claimExpires`, on a row kept until `expires`. -/
def Held (eventID token : Bytes) (claimExpires expires : ℤ) (rows : List TurnRow) : Prop :=
  ∃ row, findTurn eventID rows = some row ∧ row.state = .pending ∧ row.claimToken = some token ∧
    row.claimExpires = some claimExpires ∧ row.expires = expires

theorem Held.congr {eventID token : Bytes} {claimExpires expires : ℤ} {rows rows' : List TurnRow}
    (h : Held eventID token claimExpires expires rows)
    (hsame : findTurn eventID rows' = findTurn eventID rows) :
    Held eventID token claimExpires expires rows' := by
  unfold Held
  rw [hsame]
  exact h

def TurnAct.ends (eventID token : Bytes) : TurnAct → Prop
  | .bind _ => False
  | .complete event _ _ _ claim | .release event _ claim | .abandon event _ claim =>
    event = eventID ∧ claim = token

def TurnAct.grants (eventID : Bytes) : (a : TurnAct) → a.Reply → Prop
  | .bind r, b => r.eventID = eventID ∧ (b : DispatcherTurnBinding).claimToken ≠ []
  | .complete _ _ _ _ _, _ | .release _ _ _, _ | .abandon _ _ _, _ => False

def TurnAct.now : TurnAct → Option Time
  | .bind r => some r.now
  | .complete _ _ _ completedAt _ => some completedAt
  | .release _ _ _ | .abandon _ _ _ => none

section
variable {eventID token : Bytes} {claimExpires expires : ℤ} {rows rows' : List TurnRow}

theorem Held.bind (h : Held eventID token claimExpires expires rows) (htoken : token ≠ [])
    {r : BindRequest} {drawn : ClaimToken} {b : DispatcherTurnBinding} (hclaim : r.clock < claimExpires)
    (hrow : r.clock < expires) (hbind : bindDispatcherTurn r drawn rows = .ok (b, rows')) :
    Held eventID token claimExpires expires rows' ∧ (r.eventID = eventID → b.claimToken = []) := by
  obtain ⟨row, hfound, hpending, htok, hexp, rfl⟩ := h
  have hkept : findTurn eventID (prune r.clock rows) = some row := findTurn_prune hfound hrow
  have hheld : Held eventID token claimExpires row.expires (prune r.clock rows) :=
    ⟨row, hkept, hpending, htok, hexp, rfl⟩
  cases bindDispatcherTurn_ok hbind with
  | inFlight | completed => exact ⟨hheld, fun _ => rfl⟩
  | reclaimed other found request pending empty free =>
    have hne : eventID ≠ r.eventID := by
      rintro rfl
      cases hkept.symm.trans found
      rw [htok, hexp] at free
      rcases free with hnone | hover
      · exact htoken hnone
      · exact absurd hclaim (not_lt.mpr hover)
    exact ⟨hheld.congr (findTurn_update hne (TurnRow.claim drawn.value r.claimEnds)
      (fun _ => rfl) _), fun heq => absurd heq.symm hne⟩
  | fresh unbound =>
    have hne : eventID ≠ r.eventID := by
      rintro rfl
      rw [hkept] at unbound
      cases unbound
    refine ⟨⟨row, ?_, hpending, htok, hexp, rfl⟩, fun heq => absurd heq.symm hne⟩
    unfold findTurn at hkept ⊢
    rw [Table.find_append, hkept]
    rfl

theorem Held.work (h : Held eventID token claimExpires expires rows) (htoken : token ≠ [])
    {a : TurnAct} {drawn : ClaimToken} {reply : a.Reply}
    (hnow : ∀ r, a = .bind r → r.clock < claimExpires ∧ r.clock < expires) (hends : ¬ a.ends eventID token)
    (hwork : a.work drawn rows = .ok (reply, rows')) :
    Held eventID token claimExpires expires rows' ∧ ¬ a.grants eventID reply := by
  -- a call that presents another token works on the row of another event
  have hother : ∀ event claim row, ¬ (event = eventID ∧ claim = token) →
      findTurn event rows = some row → row.claimToken.getD [] = claim → eventID ≠ event := by
    rintro event claim row hnot hfound howned rfl
    obtain ⟨row', hfound', -, htok, -⟩ := h
    cases hfound'.symm.trans hfound
    rw [htok] at howned
    exact hnot ⟨rfl, howned.symm⟩
  cases work_ok hwork with
  | bound r =>
    obtain ⟨hclaim, hrow⟩ := hnow r rfl
    obtain ⟨hheld, hnone⟩ := h.bind htoken hclaim hrow hwork
    exact ⟨hheld, fun hgrant => hgrant.2 (hnone hgrant.1)⟩
  | again => exact ⟨h, id⟩
  | completed event _ result _ claim row found _ _ owned _ =>
    exact ⟨h.congr (findTurn_update (hother event claim row hends found owned)
      (TurnRow.complete result) (fun _ => rfl) rows), id⟩
  | released event _ claim row found _ owned =>
    exact ⟨h.congr (findTurn_update (hother event claim row hends found owned) TurnRow.release
      (fun _ => rfl) rows), id⟩
  | abandoned event _ claim row found _ owned =>
    exact ⟨h.congr (findTurn_without (hother event claim row hends found owned) rows), id⟩

end

theorem bind_held {r : BindRequest} {drawn : ClaimToken} {rows rows' : List TurnRow}
    {b : DispatcherTurnBinding} {row : TurnRow}
    (hbind : bindDispatcherTurn r drawn rows = .ok (b, rows')) (hgrant : b.claimToken ≠ [])
    (hrow : findTurn r.eventID rows' = some row) :
    Held r.eventID b.claimToken r.claimEnds row.expires rows' := by
  refine ⟨row, hrow, ?_⟩
  unfold findTurn at hrow
  cases bindDispatcherTurn_ok hbind with
  | inFlight | completed => exact absurd rfl hgrant
  | reclaimed old found request pending =>
    unfold findTurn at found
    rw [Table.find_update TurnRow.eventID r.eventID r.eventID
      (TurnRow.claim drawn.value r.claimEnds) (fun _ => rfl), if_pos rfl, found] at hrow
    cases hrow
    exact ⟨pending, rfl, rfl, rfl⟩
  | fresh unbound =>
    unfold findTurn at unbound
    rw [Table.find_append, unbound, if_pos rfl] at hrow
    cases hrow
    exact ⟨rfl, rfl, rfl, rfl⟩

/-! ### Runs -/

section
variable {claimExpires expires : ℤ} {rows rows' : List TurnRow} {eventID token : Bytes}
  {a : TurnAct}

structure Entry where
  act : TurnAct
  outcome : Outcome act

inductive Runs : List TurnRow → List Entry → List TurnRow → Prop where
  | nil (rows : List TurnRow) : Runs rows [] rows
  | cons (x : Entry) (later : List Entry) (rows mid rows' : List TurnRow)
      (first : Performs x.act rows x.outcome mid) (rest : Runs mid later rows') :
      Runs rows (x :: later) rows'

def Outcome.committed {a : TurnAct} : Outcome a → Bool
  | .done _ | .lost => true
  | .refused _ | .failed => false

def Entry.Ends (eventID token : Bytes) (x : Entry) : Prop :=
  x.act.ends eventID token ∧ x.outcome.committed = true

theorem Held.performs
    (h : Held eventID token claimExpires expires rows) (htoken : token ≠ [])
    {o : Outcome a} (hnow : ∀ r, a = .bind r → r.clock < claimExpires ∧ r.clock < expires)
    (hends : ¬ (a.ends eventID token ∧ o.committed = true)) (hstep : Performs a rows o rows') :
    Held eventID token claimExpires expires rows' ∧ ∀ reply, o = .done reply →
      ¬ a.grants eventID reply := by
  cases hstep with
  | done drawn rows rows' reply work =>
    obtain ⟨hheld, hnone⟩ := h.work htoken hnow (fun he => hends ⟨he, rfl⟩) work
    refine ⟨hheld, ?_⟩
    rintro _ ⟨⟩
    exact hnone
  | refused | failed => exact ⟨h, by simp⟩
  | lost drawn rows rows' reply work =>
    exact ⟨(h.work htoken hnow (fun he => hends ⟨he, rfl⟩) work).1, by simp⟩

theorem Held.runs
    (h : Held eventID token claimExpires expires rows) (htoken : token ≠ []) {later : List Entry}
    (hnow : ∀ x ∈ later, ∀ r, x.act = .bind r → r.clock < claimExpires ∧ r.clock < expires)
    (hends : ∀ x ∈ later, ¬ x.Ends eventID token) (hruns : Runs rows later rows') :
    Held eventID token claimExpires expires rows' := by
  induction hruns with
  | nil => exact h
  | cons x later rows mid rows' first rest ih =>
    have hmid := (h.performs htoken (hnow x List.mem_cons_self) (hends x List.mem_cons_self) first).1
    exact ih hmid (fun y hy => hnow y (List.mem_cons_of_mem x hy))
      fun y hy => hends y (List.mem_cons_of_mem x hy)

def Ordered (acts : List TurnAct) : Prop := (acts.filterMap TurnAct.now).Pairwise (· ≤ ·)

theorem Ordered.before {acts : List TurnAct} {now : Time} (h : Ordered (acts ++ [a]))
    (hnow : a.now = some now) {x : TurnAct} (hx : x ∈ acts) {earlier : Time}
    (hearlier : x.now = some earlier) : earlier ≤ now := by
  unfold Ordered at h
  rw [List.filterMap_append, List.pairwise_append] at h
  refine h.2.2 earlier (List.mem_filterMap.mpr ⟨x, hx, hearlier⟩) now ?_
  exact List.mem_filterMap.mpr ⟨a, List.mem_singleton_self a, hnow⟩

theorem Ordered.after {acts : List TurnAct} {now : Time} (h : Ordered (a :: acts))
    (hnow : a.now = some now) {x : TurnAct} (hx : x ∈ acts) {later : Time}
    (hlater : x.now = some later) : now ≤ later := by
  unfold Ordered at h
  rw [List.filterMap_cons_some hnow, List.pairwise_cons] at h
  exact h.1 later (List.mem_filterMap.mpr ⟨x, hx, hlater⟩)

/-- From the grant of a token until it expires or is completed, released or abandoned,
another bind of the event is granted one only when the retention of the row is over.
So a claim is exclusive as long as it expires no later than its row, and at a time that
64 bits hold. -/
theorem claim_exclusive {r r' : BindRequest} {b b' : DispatcherTurnBinding} {row : TurnRow}
    {later : List Entry} {rows₀ rows₁ rows₂ rows₃ : List TurnRow}
    (hgrant : Performs (.bind r) rows₀ (.done b) rows₁) (htoken : b.claimToken ≠ [])
    (hrow : findTurn r.eventID rows₁ = some row) (hlater : Runs rows₁ later rows₂)
    (hagain : Performs (.bind r') rows₂ (.done b') rows₃) (hevent : r'.eventID = r.eventID)
    (hordered : Ordered (.bind r :: later.map Entry.act ++ [.bind r']))
    (hends : ∀ x ∈ later, ¬ x.Ends r.eventID b.claimToken)
    (hrange : (-2 ^ 63 : ℤ) ≤ r.now ∧ r.now + r.claimTTL < (2 ^ 63 : ℤ))
    (hclaim : r'.now < r.now + r.claimTTL) : b'.claimToken = [] ∨ row.expires ≤ r'.now := by
  by_contra hnot
  obtain ⟨hother, hbound⟩ := not_or.mp hnot
  rw [not_le] at hbound
  have hafter : r.now ≤ r'.now := hordered.after rfl (x := .bind r')
    (List.mem_append_right _ List.mem_cons_self) rfl
  have hheld : Held r.eventID b.claimToken (r.now + r.claimTTL) row.expires rows₁ := by
    have hends : r.claimEnds = r.now + r.claimTTL :=
      unixNano_eq (hrange.1.trans (hafter.trans hclaim.le)) hrange.2
    cases hgrant with
    | done drawn rows rows' reply work => exact hends ▸ bind_held work htoken hrow
  -- a bind between the two reads a clock between theirs, which does not wrap
  have hbetween : ∀ q : BindRequest, r.now ≤ q.now → q.now ≤ r'.now →
      q.clock < r.now + r.claimTTL ∧ q.clock < row.expires := by
    intro q hge hle
    have hlt : q.now < r.now + r.claimTTL := lt_of_le_of_lt hle hclaim
    have hclock : q.clock = q.now := unixNano_eq (hrange.1.trans hge) (hlt.trans hrange.2)
    rw [hclock]
    exact ⟨hlt, lt_of_le_of_lt hle hbound⟩
  have hnow : ∀ x ∈ later, ∀ q, x.act = .bind q →
      q.clock < r.now + r.claimTTL ∧ q.clock < row.expires := by
    intro x hx q hq
    have hmem : x.act ∈ later.map Entry.act := List.mem_map_of_mem hx
    have htime : x.act.now = some q.now := congrArg TurnAct.now hq
    exact hbetween q (hordered.after rfl (List.mem_append_left _ hmem) htime)
      (hordered.before (a := .bind r') rfl (List.mem_cons_of_mem _ hmem) htime)
  have hthen := hheld.runs htoken hnow hends hlater
  have hlast := (hthen.performs htoken (a := .bind r') (fun q hq => by
    cases hq
    exact hbetween r' hafter le_rfl) (fun he => he.1) hagain).2 b' rfl
  exact hlast ⟨hevent, hother⟩

end

namespace Sample

def second : ℤ := 1000000000
def event : Bytes := List.replicate 64 97

theorem token_drawn {b : UInt8} (h : isLowerHex b = true) : isTurnID
    (List.replicate 64 b) = true := by
  simp [isTurnID, h]

def token (b : UInt8) (h : isLowerHex b = true) : ClaimToken := ⟨List.replicate 64 b, token_drawn h⟩

theorem first_hex : isLowerHex 49 = true := by decide
theorem second_hex : isLowerHex 50 = true := by decide
theorem third_hex : isLowerHex 51 = true := by decide

def bind (now : Time) : BindRequest := ⟨event, [113], now, 604800 * second, 120 * second, 8192⟩

def bound : TurnRow :=
  ⟨event, [113], none, .pending, 604801 * second, some (token 49 first_hex).value, some (121 * second)⟩

def reclaimed : TurnRow := bound.claim (token 50 second_hex).value (604861 * second)

theorem bound_first : bindDispatcherTurn (bind second) (token 49 first_hex) [] =
    .ok ({ claimToken := (token 49 first_hex).value }, [bound]) := by
  decide +kernel

end Sample

/-- One minute into the claim, the event is in flight. -/
theorem claim_exclusive_sample :
    ∃ b, Performs (.bind (Sample.bind (61 * Sample.second))) [Sample.bound] (.done b) [Sample.bound] ∧
      (b.claimToken = [] ∨ Sample.bound.expires ≤ 61 * Sample.second) := by
  have hagain : Performs (.bind (Sample.bind (61 * Sample.second))) [Sample.bound]
      (.done { inFlight := true }) [Sample.bound] :=
    .done _ (Sample.token 50 Sample.second_hex) _ _ _ (by decide +kernel)
  have hgrant : Performs (.bind (Sample.bind Sample.second)) []
      (.done { claimToken := (Sample.token 49 Sample.first_hex).value }) [Sample.bound] :=
    .done _ _ _ _ _ Sample.bound_first
  have hfound : findTurn (Sample.bind Sample.second).eventID [Sample.bound] = some Sample.bound := by
    decide +kernel
  exact ⟨_, hagain, claim_exclusive hgrant (by decide) hfound (.nil _) hagain rfl
    (by unfold Ordered; decide) (by simp) (by decide) (by decide)⟩

/-- A claim granted a minute before the week is over runs a minute into the next. The
row goes first, and a second token is granted while the claim lasts. -/
theorem claim_outlives_row : ∃ rows₀ rows₁ rows₂ b b',
    Runs [] [⟨.bind (Sample.bind Sample.second), .done { claimToken := (Sample.token 49 Sample.first_hex).value }⟩]
      rows₀ ∧
    Performs (.bind (Sample.bind (604741 * Sample.second))) rows₀ (.done b) rows₁ ∧
    Performs (.bind (Sample.bind (604801 * Sample.second))) rows₁ (.done b') rows₂ ∧
    b.claimToken ≠ [] ∧ b'.claimToken ≠ [] ∧ b'.claimToken ≠ b.claimToken ∧
    604801 * Sample.second < 604741 * Sample.second + (Sample.bind (604741 * Sample.second)).claimTTL := by
  have hsecond : bindDispatcherTurn (Sample.bind (604741 * Sample.second))
      (Sample.token 50 Sample.second_hex) [Sample.bound] =
      .ok ({ claimToken := (Sample.token 50 Sample.second_hex).value }, [Sample.reclaimed]) := by
    decide +kernel
  have hthird : bindDispatcherTurn (Sample.bind (604801 * Sample.second))
      (Sample.token 51 Sample.third_hex) [Sample.reclaimed] =
      .ok ({ claimToken := (Sample.token 51 Sample.third_hex).value },
        [⟨Sample.event, [113], none, .pending, 1209601 * Sample.second,
          some (Sample.token 51 Sample.third_hex).value, some (604921 * Sample.second)⟩]) := by
    decide +kernel
  exact ⟨_, _, _, _, _, .cons _ _ _ _ _ (.done _ _ _ _ _ Sample.bound_first) (.nil _), .done _ _ _ _ _ hsecond,
    .done _ _ _ _ _ hthird, by decide, by decide, by decide, by decide⟩

end Snagline.Dispatcher
