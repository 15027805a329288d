import Snagline.Dispatcher.Turns

/-!
# Stale claims and completed turns (sspedge/dispatcher_turn_store.go)

Any sequence of calls on the turn table, each with the token it would draw. A call that is
lost before its commit is no call, one that is lost after it has done its work. A token is
spent once the row of its event has another token or none, and only a bind writes one.
-/

namespace Snagline.Dispatcher
open Kit Ssp

/-! ### Sequences of calls -/

def after (rows : List TurnRow) (call : TurnAct × ClaimToken) : List TurnRow :=
  match call.1.work call.2 rows with
  | .ok (_, rows') => rows'
  | .error _ => rows

def turnRun (rows : List TurnRow) (calls : List (TurnAct × ClaimToken)) : List TurnRow :=
  calls.foldl after rows

def TurnAct.eventID : TurnAct → Bytes
  | .bind r => r.eventID
  | .complete eventID _ _ _ _ | .release eventID _ _ | .abandon eventID _ _ => eventID

def TurnAct.request : TurnAct → Bytes
  | .bind r => r.request
  | .complete _ request _ _ _ | .release _ request _ | .abandon _ request _ => request

/-- The checks made before the table is read. -/
def TurnAct.valid : TurnAct → Bool
  | .bind r => r.valid
  | .complete eventID request result completedAt claim =>
    isTurnID eventID && isTurnID claim && validRequest request && !result.isEmpty &&
      result.length ≤ maxDispatcherTurnResultBytes && completedAt != zeroTime
  | .release eventID request claim | .abandon eventID request claim =>
    isTurnID eventID && isTurnID claim && validRequest request

section
variable {P : TurnRow → Prop} {rows : List TurnRow} {a : TurnAct} {token τ : ClaimToken}
  {eventID : Bytes}

theorem after_cases (rows : List TurnRow) (call : TurnAct × ClaimToken) :
    after rows call = rows ∨ Worked call.2 rows call.1 (after rows call) := by
  unfold after
  split
  · rename_i hwork
    exact .inr (work_ok hwork)
  · exact .inl rfl

theorem Each.after (h : Each P rows) (call : TurnAct × ClaimToken)
    (hadmits : Admits P call.1 call.2) : Each P (after rows call) := by
  rcases after_cases rows call with hsame | hwork
  · rw [hsame]
    exact h
  · exact h.work hadmits hwork

theorem Each.run (h : Each P rows) {calls : List (TurnAct × ClaimToken)}
    (hadmits : ∀ c ∈ calls, Admits P c.1 c.2) : Each P (turnRun rows calls) := by
  induction calls generalizing rows with
  | nil => exact h
  | cons c calls ih =>
    exact ih (h.after c (hadmits c List.mem_cons_self)) fun d hd =>
      hadmits d (List.mem_cons_of_mem c hd)

/-! ### Completed rows -/

/-- A completed row has a result within bounds and no claim. -/
def Settled (row : TurnRow) : Prop :=
  row.state = .completed → row.claimToken = none ∧ row.claimExpires = none ∧
    ∃ result, row.result = some result ∧ result ≠ [] ∧ result.length ≤ maxDispatcherTurnResultBytes

theorem admits_settled : Admits Settled a token where
  bound := fun _ _ hstate => by cases hstate
  claimed := fun _ _ _ hpending hstate => by cases hpending.symm.trans hstate
  released := fun _ _ hpending hstate => by cases hpending.symm.trans hstate
  completed := fun _ _ result _ _ _ _ _ _ hsome hshort _ => ⟨rfl, rfl, result, rfl, hsome, hshort⟩

theorem settled_run (calls : List (TurnAct × ClaimToken)) : Each Settled (turnRun [] calls) :=
  Each.run ⟨Table.keyed_nil _, by intro row hrow; cases hrow⟩ fun _ _ => admits_settled

theorem completed_run {row : TurnRow} {later : List (TurnAct × ClaimToken)}
    (hfound : findTurn eventID rows = some row) (hstate : row.state = .completed)
    (hlasts : ∀ c ∈ later, ∀ r, c.1 = .bind r → r.clock < row.expires) :
    findTurn eventID (turnRun rows later) = some row := by
  induction later generalizing rows with
  | nil => exact hfound
  | cons c later ih =>
    refine ih ?_ fun d hd => hlasts d (List.mem_cons_of_mem c hd)
    rcases after_cases rows c with hsame | hwork
    · rw [hsame]
      exact hfound
    · exact completed_work hwork hfound hstate (hlasts c List.mem_cons_self)

/-! ### Expiries -/

/-- The retention ends at a time that 64 bits hold. -/
def BindRequest.Dated (r : BindRequest) : Prop :=
  (-2 ^ 63 : ℤ) ≤ r.now + r.retention ∧ r.now + r.retention < (2 ^ 63 : ℤ)

/-- The bind is made before `t`, at a time that 64 bits hold if `t` is one. -/
def BindRequest.Before (r : BindRequest) (t : ℤ) : Prop := (-2 ^ 63 : ℤ) ≤ r.now ∧ r.now < t

theorem BindRequest.Before.clock_lt {r : BindRequest} {t : ℤ} (h : r.Before t) (ht : t < 2 ^ 63) :
    r.clock < t := by
  have hclock : r.clock = r.now := unixNano_eq h.1 (h.2.trans ht)
  rw [hclock]
  exact h.2

/-- The row expires when a bind of its event said. -/
def Stamped (calls : List (TurnAct × ClaimToken)) (row : TurnRow) : Prop :=
  ∃ c ∈ calls, ∃ r, c.1 = .bind r ∧ r.eventID = row.eventID ∧ row.expires = r.rowEnds

theorem stamped_run (calls : List (TurnAct × ClaimToken)) :
    Each (Stamped calls) (turnRun [] calls) := by
  refine Each.run ⟨Table.keyed_nil _, by intro row hrow; cases hrow⟩ fun c hc => ?_
  exact
    { bound := fun r hbind => ⟨c, hc, r, hbind, rfl, rfl⟩
      claimed := fun _ _ h _ => h
      released := fun _ h _ => h
      completed := fun _ _ _ _ _ _ _ h _ _ _ => h }

theorem expires_eq {calls : List (TurnAct × ClaimToken)} {row : TurnRow}
    (hfound : findTurn eventID (turnRun [] calls) = some row)
    (hdated : ∀ c ∈ calls, ∀ r, c.1 = .bind r → r.eventID = eventID → r.Dated) :
    row.expires < 2 ^ 63 ∧
      ∃ c ∈ calls, ∃ r, c.1 = .bind r ∧ r.eventID = eventID ∧ row.expires = r.now + r.retention := by
  obtain ⟨c, hc, r, hbind, hevent, hexpires⟩ := (stamped_run calls).found hfound
  rw [(Table.find_eq_some hfound).2] at hevent
  obtain ⟨hlow, hhigh⟩ := hdated c hc r hbind hevent
  have hends : row.expires = r.now + r.retention := hexpires.trans (unixNano_eq hlow hhigh)
  exact ⟨hends ▸ hhigh, c, hc, r, hbind, hevent, hends⟩

/-! ### Other requests -/

theorem refused_first {α β : Type} {valid : Bool} {e e' : TurnError} {k : α → Except TurnError β} :
    ∃ x, ((ensure valid e >>= fun _ => .error e') >>= k) = .error x ∧ (valid = true → x = e') := by
  cases valid with
  | true => exact ⟨e', rfl, fun _ => rfl⟩
  | false => exact ⟨e, rfl, fun h => absurd h Bool.false_ne_true⟩

variable (token) in
theorem other_request_refused {row : TurnRow} (hfound : findTurn a.eventID rows = some row)
    (hother : a.request ≠ row.request) (hlive : ∀ r, a = .bind r → r.clock < row.expires) :
    ∃ e, a.work token rows = .error e ∧ (a.valid = true → e = .mismatch) := by
  have hrequest : (row.request == a.request) = false := beq_eq_false_iff_ne.mpr (Ne.symm hother)
  cases a with
  | bind r =>
    have hkept : findTurn r.eventID (prune r.clock rows) = some row :=
      findTurn_prune hfound (hlive r rfl)
    have hrequest : (row.request == r.request) = false := hrequest
    simp only [TurnAct.work, TurnAct.valid, bindDispatcherTurn, bindExisting, hkept, hrequest]
    cases r.valid with
    | true => exact ⟨_, rfl, fun _ => rfl⟩
    | false => exact ⟨_, rfl, fun h => absurd h Bool.false_ne_true⟩
  | complete event request =>
    simp only [TurnAct.eventID, TurnAct.request] at hfound hrequest
    simp only [TurnAct.work, completeDispatcherTurn, hfound, orFail, ok_bind, hrequest, ensure_false,
      error_bind]
    exact refused_first
  | release event request =>
    simp only [TurnAct.eventID, TurnAct.request] at hfound hrequest
    simp only [TurnAct.work, releaseDispatcherTurnClaim, updatePendingDispatcherTurnClaim, hfound,
      orFail, ok_bind, hrequest, ensure_false, error_bind]
    exact refused_first
  | abandon event request =>
    simp only [TurnAct.eventID, TurnAct.request] at hfound hrequest
    simp only [TurnAct.work, abandonDispatcherTurn, updatePendingDispatcherTurnClaim, hfound,
      orFail, ok_bind, hrequest, ensure_false, error_bind]
    exact refused_first

/-! ### Spent tokens -/

/-- The token is not the claim of the event's row. -/
def Spent (eventID : Bytes) (τ : ClaimToken) (row : TurnRow) : Prop :=
  row.eventID = eventID → row.claimToken ≠ some τ.value

theorem admits_spent (h : token.value ≠ τ.value) : Admits (Spent eventID τ) a token where
  bound := fun _ _ _ hsame => h (Option.some.inj hsame)
  claimed := fun _ _ _ _ _ hsame => h (Option.some.inj hsame)
  released := fun _ _ _ _ hsame => by cases hsame
  completed := fun _ _ _ _ _ _ _ _ _ _ _ _ hsame => by cases hsame

theorem token_ne_nil (τ : ClaimToken) : τ.value ≠ [] := by
  intro hnil
  have hdrawn := τ.drawn
  rw [hnil] at hdrawn
  cases hdrawn

theorem spent_powerless {rows' : List TurnRow} (h : Each (Spent eventID τ) rows)
    (hends : a.ends eventID τ.value) (hwork : Worked token rows a rows') : rows' = rows := by
  have howned : ∀ {event claim : Bytes} {row : TurnRow}, findTurn event rows = some row →
      row.claimToken.getD [] = claim → ¬ (event = eventID ∧ claim = τ.value) := by
    rintro event claim row hfound howned ⟨rfl, rfl⟩
    have hspent := h.found hfound (Table.find_eq_some hfound).2
    cases hclaim : row.claimToken with
    | none => exact token_ne_nil τ (by rw [← howned, hclaim]; rfl)
    | some => exact hspent (by rw [← howned, hclaim]; rfl)
  cases hwork with
  | bound => exact hends.elim
  | again => rfl
  | completed _ _ _ _ _ _ found _ _ owned => exact absurd hends (howned found owned)
  | released _ _ _ _ found _ owned => exact absurd hends (howned found owned)
  | abandoned _ _ _ _ found _ owned => exact absurd hends (howned found owned)

/-- The call used the token up: it completed, released or abandoned the event with it, or
bound the event to another one. -/
def Retires (eventID : Bytes) (τ : ClaimToken) (rows : List TurnRow)
    (call : TurnAct × ClaimToken) : Prop :=
  ∃ reply rows', call.1.work call.2 rows = .ok (reply, rows') ∧
    (call.1.ends eventID τ.value ∨ call.1.grants eventID reply ∧ call.2.value ≠ τ.value)

theorem spent_update (h : Each P rows) {f : TurnRow → TurnRow}
    (hkey : ∀ r, (f r).eventID = r.eventID) (hf : ∀ r, (f r).claimToken ≠ some τ.value) :
    Each (Spent eventID τ) (Table.update TurnRow.eventID eventID f rows) := by
  refine ⟨h.keyed.update eventID hkey, ?_⟩
  intro x hx hevent
  obtain ⟨y, -, ⟨hne, rfl⟩ | ⟨-, rfl⟩⟩ := Table.mem_update hx
  · exact absurd hevent hne
  · exact hf y

theorem retires_spent {call : TurnAct × ClaimToken} (h : Each Settled rows)
    (hretires : Retires eventID τ rows call) : Each (Spent eventID τ) (after rows call) := by
  obtain ⟨a, token⟩ := call
  obtain ⟨reply, rows', hwork, hused⟩ := hretires
  have hafter : after rows (a, token) = rows' := by
    unfold after
    rw [hwork]
  rw [hafter]
  cases work_ok hwork with
  | bound r =>
    obtain ⟨⟨⟩⟩ | ⟨⟨rfl, hgranted⟩, hne⟩ := hused
    have hother : some token.value ≠ some τ.value := fun hsame => hne (Option.some.inj hsame)
    have hpruned : Each Settled (prune r.clock rows) := h.filter _
    cases bindDispatcherTurn_ok hwork with
    | inFlight | completed => exact absurd rfl hgranted
    | reclaimed =>
      exact spent_update (f := TurnRow.claim token.value r.claimEnds) hpruned
        (fun _ => rfl) fun _ => hother
    | fresh unbound =>
      refine ⟨hpruned.keyed.append (Table.clash_eq_false.mpr
        (Table.find_eq_none.mp unbound)), fun row hrow hevent => ?_⟩
      rcases List.mem_append.mp hrow with hold | hnew
      · exact absurd hevent (Table.find_eq_none.mp unbound row hold)
      · rw [List.mem_singleton.mp hnew]
        exact hother
  | again event _ _ _ _ row found done =>
    obtain ⟨rfl, -⟩ | ⟨⟨⟩, -⟩ := hused
    obtain ⟨hmem, hkey⟩ := Table.find_eq_some found
    refine ⟨h.keyed, fun x hx hevent => ?_⟩
    rw [h.keyed.eq_of_key hx hmem (hevent.trans hkey.symm), (h.found found done).1]
    exact nofun
  | completed event _ result _ _ _ _ _ _ _ _ =>
    obtain ⟨rfl, -⟩ | ⟨⟨⟩, -⟩ := hused
    exact spent_update (f := TurnRow.complete result) h (fun _ => rfl) fun _ => nofun
  | released event _ _ _ _ _ _ =>
    obtain ⟨rfl, -⟩ | ⟨⟨⟩, -⟩ := hused
    exact spent_update (f := TurnRow.release) h (fun _ => rfl) fun _ => nofun
  | abandoned event _ _ _ _ _ _ =>
    obtain ⟨rfl, -⟩ | ⟨⟨⟩, -⟩ := hused
    refine ⟨(h.filter _).keyed, fun x hx hevent => ?_⟩
    exact absurd hevent (bne_iff_ne.mp (List.mem_filter.mp hx).2)

end

/-- After any sequence of calls on an empty table. A token that a call has used up or
replaced changes nothing ever after, as long as it is not drawn again. Where the retentions
of an event end at times that 64 bits hold, its row expires when the retention of one of its
binds ends. Until then, as long as every bind is made before it, a completed row stays as it
is, and every well-formed bind of its request returns its result; and a call that presents
another request changes nothing, and is answered with the mismatch if it is well-formed. A
bind at or after the row's expiry finds no row. -/
theorem turns_fixed_and_fenced (calls : List (TurnAct × ClaimToken)) :
    let rows := turnRun [] calls
    (∀ (eventID : Bytes) (τ : ClaimToken) call later, Retires eventID τ rows call →
      (∀ c ∈ later, c.2.value ≠ τ.value) → ∀ stale, stale.1.ends eventID τ.value →
        after (turnRun (after rows call) later) stale = turnRun (after rows call) later) ∧
    ∀ eventID row, findTurn eventID rows = some row →
      (∀ c ∈ calls, ∀ r, c.1 = .bind r → r.eventID = eventID → r.Dated) →
      (∃ c ∈ calls, ∃ r, c.1 = .bind r ∧ r.eventID = eventID ∧ row.expires = r.now + r.retention) ∧
      (row.state = .completed → ∀ later,
        (∀ c ∈ later, ∀ r, c.1 = .bind r → r.Before row.expires) →
        findTurn eventID (turnRun rows later) = some row ∧
        ∃ result, row.result = some result ∧ ∀ (r : BindRequest) token, r.valid = true →
          r.eventID = eventID → r.request = row.request → r.Before row.expires →
          bindDispatcherTurn r token (turnRun rows later) =
            .ok ({ completed := true, result := result }, prune r.clock (turnRun rows later))) ∧
      ∀ a token, a.eventID = eventID → a.request ≠ row.request →
        (∀ r, a = .bind r → r.Before row.expires) →
        after rows (a, token) = rows ∧ (a.valid = true → a.work token rows = .error .mismatch) := by
  intro rows
  have hsettled := settled_run calls
  refine ⟨?_, fun eventID row hfound hdated => ?_⟩
  · intro eventID τ call later hretires hfresh stale hends
    have hspent : Each (Spent eventID τ) (turnRun (after rows call) later) :=
      (retires_spent hsettled hretires).run fun c hc => admits_spent (hfresh c hc)
    rcases after_cases (turnRun (after rows call) later) stale with hsame | hwork
    · exact hsame
    · exact spent_powerless hspent hends hwork
  obtain ⟨hrange, hexpiry⟩ := expires_eq hfound hdated
  refine ⟨hexpiry, fun hstate later hlasts => ?_, ?_⟩
  · obtain ⟨hclaim, hexpires, result, hresult, hsome, hshort⟩ := hsettled.found hfound hstate
    have hkept := completed_run hfound hstate fun c hc r hr => (hlasts c hc r hr).clock_lt hrange
    refine ⟨hkept, result, hresult, ?_⟩
    rintro r token hvalid rfl hrequest hlive
    rw [bind_completed hvalid hkept (hlive.clock_lt hrange) hstate hclaim hexpires hresult hsome
      hshort, if_pos hrequest.symm]
  · rintro a token rfl hother hlive
    obtain ⟨e, hwork, hmismatch⟩ := other_request_refused token hfound hother fun r hr =>
      (hlive r hr).clock_lt hrange
    refine ⟨?_, fun hvalid => hmismatch hvalid ▸ hwork⟩
    unfold after
    rw [hwork]

namespace Sample

def answered : List TurnRow := turnRun []
  [(.bind (bind second), token 49 first_hex),
    (.complete event [113] [79] second (token 49 first_hex).value, token 50 second_hex)]

end Sample

/-- Calls on a completed event that are refused before the table is read: a bind of its
request with no capacity, and a completion of another request under a malformed claim. -/
theorem malformed_calls_refused :
    (findTurn Sample.event Sample.answered).map (fun row => (row.state, row.request)) =
      some (.completed, [113]) ∧
    bindDispatcherTurn { Sample.bind (2 * Sample.second) with capacity := 0 }
      (Sample.token 51 Sample.third_hex) Sample.answered = .error .invalidBinding ∧
    completeDispatcherTurn Sample.event [120] [79] Sample.second [49] Sample.answered =
      .error .invalidCompletion := by
  decide +kernel

/-! ### The size of the table -/

theorem work_length {a : TurnAct} {token : ClaimToken} {rows rows' : List TurnRow} {reply : a.Reply}
    (h : a.work token rows = .ok (reply, rows')) : rows'.length ≤ rows.length ∨
      ∃ r, a = .bind r ∧ r.valid = true ∧ rows'.length ≤ r.capacity := by
  cases work_ok h with
  | bound r b _ bound =>
    have hpruned : (prune r.clock rows).length ≤ rows.length := List.length_filter_le _ _
    cases bound with
    | inFlight | completed => exact .inl hpruned
    | reclaimed => exact .inl (by simpa [Table.update] using hpruned)
    | fresh unbound =>
      change bindDispatcherTurn r token rows = _ at h
      unfold bindDispatcherTurn at h
      obtain ⟨hvalid, h⟩ := ensure_bind_eq_ok.mp h
      simp only [unbound] at h
      obtain ⟨hroom, -⟩ := ensure_bind_eq_ok.mp h
      have hroom := of_decide_eq_true hroom
      exact .inr ⟨r, rfl, hvalid, by simp; omega⟩
  | again => exact .inl le_rfl
  | completed | released => exact .inl (by simp [Table.update])
  | abandoned => exact .inl (List.length_filter_le _ _)

theorem turnRun_length {capacity : ℤ} {calls : List (TurnAct × ClaimToken)} {rows : List TurnRow}
    (hrows : rows.length ≤ capacity) (h : ∀ c ∈ calls, ∀ r, c.1 = .bind r → r.valid = true →
      r.capacity ≤ capacity) : (turnRun rows calls).length ≤ capacity := by
  induction calls generalizing rows with
  | nil => exact hrows
  | cons c calls ih =>
    refine ih ?_ fun d hd => h d (List.mem_cons_of_mem c hd)
    unfold after
    split
    · rename_i hwork
      rcases work_length hwork with hle | ⟨r, hbind, hvalid, hle⟩
      · omega
      · exact hle.trans (h c List.mem_cons_self r hbind hvalid)
    · exact hrows

/-- The table has one row an event, and never more rows than the largest capacity of a bind. -/
theorem turn_table_bounded (calls : List (TurnAct × ClaimToken)) :
    Table.Keyed TurnRow.eventID (turnRun [] calls) ∧
    (turnRun [] calls).length ≤ maxDispatcherTurnCapacity ∧
    ∀ capacity : ℕ, (∀ c ∈ calls, ∀ r, c.1 = .bind r → r.capacity ≤ capacity) →
      (turnRun [] calls).length ≤ capacity := by
  refine ⟨(settled_run calls).keyed, turnRun_length (by decide) ?_, ?_⟩
  · intro c _ r _ hvalid
    simp only [BindRequest.valid, Bool.and_eq_true, decide_eq_true_eq] at hvalid
    exact hvalid.2
  · intro capacity h
    exact Int.ofNat_le.mp (turnRun_length (by simp) fun c hc r hr _ => h c hc r hr)

end Snagline.Dispatcher
