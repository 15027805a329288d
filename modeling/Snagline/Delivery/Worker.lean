import Snagline.Authority.Outbox
import Snagline.Kit.Lease

/-!
# Outbox workers (delivery/outbox/worker.go:92-175)

Any number of workers run RunOnce against one outbox table while commits insert
rows. The steps are the calls a worker makes, in any order between workers; a
statement may fail or lose its answer, and a worker may die between any two of
them. The readings of the database clock on one row never go back. The log
records what took effect; each row then behaves as a leased slot.
-/

namespace Snagline.Delivery
open Kit Ssp Authority

/-- Where a worker stands in RunOnce: before its next item, after the publish of
one, or before the release of one. -/
inductive Phase where
  | idle
  | working (items : List Item)
  | closing (item : Item) (rest : List Item)
  | releasing (item : Item) (reason : ReleaseReason) (rest : List Item)
  deriving DecidableEq

inductive Entry where
  | claimed (worker : ℕ) (id token : Bytes) (ends : Time)
  | acknowledged (worker : ℕ) (token : Bytes) (request : PublishRequest)
  | marked (worker : ℕ) (id token : Bytes) (checked now : Time)
  | released (worker : ℕ) (id token : Bytes) (checked now : Time)
  deriving DecidableEq

structure Queue where
  rows : List QueueRow := []
  clock : Bytes → Time
  workers : ℕ → Phase := fun _ => .idle
  log : List Entry := []

/-- A closing statement has been answered: the worker goes on, and `entry` is
logged if the row was changed. -/
def Queue.answered (q : Queue) (w : ℕ) (item : Item) (rest : List Item) (entry : Entry)
    (now : Time) (answer : List QueueRow × Except OutboxError Unit) : Queue :=
  match answer.2 with
  | .ok _ => ⟨answer.1, Function.update q.clock item.id now,
      Function.update q.workers w (.working rest), q.log ++ [entry]⟩
  | .error _ => { q with rows := answer.1, workers := Function.update q.workers w (.working rest) }

inductive Step (sha256 : Bytes → Bytes) (q : Queue) : Queue → Prop
  | insert (row : OutboxRow) (createdAt nextAttemptAt : Time)
      (unused : ∀ r ∈ q.rows, r.id ≠ row.outboxID) :
      Step sha256 q { q with rows := q.rows ++ [QueueRow.inserted row createdAt nextAttemptAt] }
  /-- The claim is committed; the worker gets the items, or dies before. -/
  | claim (w : ℕ) (idle : q.workers w = .idle) (workerID : Bytes) (limit lease : ℤ)
      (env : ClaimEnv) (rows : List QueueRow) (items : List Item)
      (done : claim workerID limit lease env q.rows = .ok (rows, items))
      (timely : ∀ item ∈ items, q.clock item.id ≤ env.free item.id ∧
        env.free item.id ≤ env.leasedAt item.id)
      (drawn : ∀ item ∈ items, ∀ w' e, .claimed w' item.id (env.token item.id) e ∉ q.log)
      (phase : Phase) (received : phase = .idle ∨ phase = .working items) :
      Step sha256 q ⟨rows, fun id => if id ∈ items.map Item.id then env.leasedAt id else q.clock id,
        Function.update q.workers w phase,
        q.log ++ items.map fun item =>
          .claimed w item.id (env.token item.id) (leaseEnds (env.leasedAt item.id) lease)⟩
  | malformed (w : ℕ) (item : Item) (rest : List Item) (now : q.workers w = .working (item :: rest))
      (e : ItemError) (bad : publishRequest sha256 item = .error e) :
      Step sha256 q { q with
        workers := Function.update q.workers w (.releasing item .malformedItem rest) }
  | acknowledge (w : ℕ) (item : Item) (rest : List Item)
      (now : q.workers w = .working (item :: rest)) (request : PublishRequest)
      (good : publishRequest sha256 item = .ok request) :
      Step sha256 q { q with
        workers := Function.update q.workers w (.closing item rest)
        log := q.log ++ [.acknowledged w item.leaseToken request] }
  | publishFails (w : ℕ) (item : Item) (rest : List Item)
      (now : q.workers w = .working (item :: rest)) (request : PublishRequest)
      (good : publishRequest sha256 item = .ok request) :
      Step sha256 q { q with
        workers := Function.update q.workers w (.releasing item .publishFailed rest) }
  | mark (w : ℕ) (item : Item) (rest : List Item) (now : q.workers w = .closing item rest)
      (checked set : Time) (timely : q.clock item.id ≤ checked ∧ checked ≤ set) :
      Step sha256 q (q.answered w item rest (.marked w item.id item.leaseToken checked set) set
        (markPublished item.id item.leaseToken checked set q.rows))
  | release (w : ℕ) (item : Item) (reason : ReleaseReason) (rest : List Item)
      (now : q.workers w = .releasing item reason rest) (retryAt checked set : Time)
      (timely : q.clock item.id ≤ checked ∧ checked ≤ set) :
      Step sha256 q (q.answered w item rest (.released w item.id item.leaseToken checked set) set
        (release item.id item.leaseToken retryAt reason checked set q.rows))
  /-- The closing statement never reached the server. -/
  | unanswered (w : ℕ) (item : Item) (rest : List Item)
      (now : q.workers w = .closing item rest ∨ ∃ reason, q.workers w = .releasing item reason rest) :
      Step sha256 q { q with workers := Function.update q.workers w (.working rest) }
  /-- RunOnce returns, is cancelled, or the process dies. -/
  | stop (w : ℕ) : Step sha256 q { q with workers := Function.update q.workers w .idle }

abbrev Steps (sha256 : Bytes → Bytes) : Queue → Queue → Prop :=
  Relation.ReflTransGen (Step sha256)

/-! ### What a step does to a row -/

def Entry.about (id : Bytes) : Entry → Bool
  | .claimed _ id' _ _ | .marked _ id' _ _ _ | .released _ id' _ _ _ => id' == id
  | .acknowledged .. => false

def Queue.history (q : Queue) (id : Bytes) : List Entry := q.log.filter (Entry.about id)
def Queue.row (q : Queue) (id : Bytes) : Option QueueRow := Table.find QueueRow.id id q.rows

inductive RowStep (q q' : Queue) (id : Bytes) : Prop
  | same (row : q'.row id = q.row id) (clock : q'.clock id = q.clock id)
      (history : q'.history id = q.history id)
  | inserted (absent : q.row id = none) (row : OutboxRow) (createdAt nextAttemptAt : Time)
      (present : q'.row id = some (QueueRow.inserted row createdAt nextAttemptAt))
      (clock : q'.clock id = q.clock id) (history : q'.history id = q.history id)
  | leased (r : QueueRow) (found : q.row id = some r) (w : ℕ) (owner token : Bytes)
      (ends due free : Time) (claimable : r.claimable due free = true) (read : q.clock id ≤ free)
      (later : free ≤ q'.clock id) (drawn : ∀ w' e, Entry.claimed w' id token e ∉ q.log)
      (row : q'.row id = some (r.leased owner token ends))
      (history : q'.history id = q.history id ++ [.claimed w id token ends])
  | published (r : QueueRow) (found : q.row id = some r) (w : ℕ) (token : Bytes) (checked : Time)
      (held : r.held token checked = true) (read : q.clock id ≤ checked)
      (later : checked ≤ q'.clock id) (row : q'.row id = some (r.published (q'.clock id)))
      (log : q'.log = q.log ++ [.marked w id token checked (q'.clock id)])
  | released (r : QueueRow) (found : q.row id = some r) (w : ℕ) (token : Bytes) (checked : Time)
      (retryAt : Time) (reason : ReleaseReason) (held : r.held token checked = true)
      (read : q.clock id ≤ checked) (later : checked ≤ q'.clock id)
      (row : q'.row id = some (r.released retryAt reason (q'.clock id)))
      (log : q'.log = q.log ++ [.released w id token checked (q'.clock id)])

section Claims

variable {w : ℕ} {token : Bytes → Bytes} {ends : Bytes → Time} {items : List Item} {id : Bytes}

theorem filter_claimed_none (hnot : id ∉ items.map Item.id) :
    (items.map fun item => Entry.claimed w item.id (token item.id) (ends item.id)).filter
      (Entry.about id) = [] := by
  refine List.filter_eq_nil_iff.mpr fun e he => ?_
  obtain ⟨x, hx, rfl⟩ := List.mem_map.mp he
  have hne : x.id ≠ id := by
    intro h
    exact hnot (List.mem_map.mpr ⟨x, hx, h⟩)
  simp [Entry.about, hne]

theorem filter_claimed (hdistinct : (items.map Item.id).Nodup) (hmem : id ∈ items.map Item.id) :
    (items.map fun item => Entry.claimed w item.id (token item.id) (ends item.id)).filter
      (Entry.about id) = [.claimed w id (token id) (ends id)] := by
  induction items with
  | nil => cases hmem
  | cons item rest ih =>
    rw [List.map_cons, List.nodup_cons] at hdistinct
    rw [List.map_cons, List.filter_cons]
    by_cases hid : item.id = id
    · rw [filter_claimed_none (hid ▸ hdistinct.1)]
      simp [Entry.about, hid]
    · rw [List.map_cons] at hmem
      have hrest : id ∈ rest.map Item.id := by
        rcases List.mem_cons.mp hmem with h | h
        · exact absurd h.symm hid
        · exact h
      rw [ih hdistinct.2 hrest]
      simp [Entry.about, hid]

end Claims

theorem row_claimed {workerID : Bytes} {lease : ℤ} {env : ClaimEnv} {q : Queue}
    {rows : List QueueRow} {items : List Item}
    (h : Claimed workerID lease env q.rows rows items) (id : Bytes) :
    Table.find QueueRow.id id rows = (q.row id).map fun r =>
      if id ∈ items.map Item.id then env.lease workerID lease r else r := by
  have hkept : ∀ r : QueueRow,
      (if r.id ∈ items.map Item.id then env.lease workerID lease r else r).id = r.id := by
    intro r
    split
    · rfl
    · rfl
  rw [h.leased, Table.find_map QueueRow.id id _ hkept]
  unfold Queue.row
  cases hfound : Table.find QueueRow.id id q.rows with
  | none => rfl
  | some =>
    have hid := (Table.find_eq_some hfound).2
    simp only [Option.map_some, hid]

theorem answered_row {q : Queue} {w : ℕ} {item : Item} {rest : List Item} {entry : Entry}
    {checked now : Time} {close : QueueRow → QueueRow}
    (hkeyed : Table.Keyed QueueRow.id q.rows) {answer : List QueueRow × Except OutboxError Unit}
    (hanswer : (answer.1 = q.rows ∧ ∃ e, answer.2 = .error e) ∨
      answer = closeLease item.id item.leaseToken checked close q.rows) :
    (∃ r, q.row item.id = some r ∧ r.held item.leaseToken checked = true ∧
      q.answered w item rest entry now answer =
        ⟨Table.update QueueRow.id item.id close q.rows, Function.update q.clock item.id now,
          Function.update q.workers w (.working rest), q.log ++ [entry]⟩) ∨
      q.answered w item rest entry now answer =
        { q with workers := Function.update q.workers w (.working rest) } := by
  rcases hanswer with ⟨hrows, e, herror⟩ | rfl
  · right
    unfold Queue.answered
    rw [herror]
    simp [hrows]
  · rcases closeLease_cases hkeyed with ⟨hrows, herror⟩ | ⟨r, hr, hid, hheld, hrows, hok⟩
    · right
      unfold Queue.answered
      rw [herror]
      simp [hrows]
    · left
      refine ⟨r, ?_, hheld, ?_⟩
      · rw [← hid]
        exact hkeyed.find_mem hr
      · unfold Queue.answered
        rw [hok]
        simp [hrows]

theorem markPublished_answer (id token : Bytes) (checked now : Time) (rows : List QueueRow) :
    ((markPublished id token checked now rows).1 = rows ∧
        ∃ e, (markPublished id token checked now rows).2 = .error e) ∨
      markPublished id token checked now rows =
        closeLease id token checked (QueueRow.published now) rows := by
  unfold markPublished
  split
  · exact Or.inl ⟨rfl, _, rfl⟩
  · exact Or.inr rfl

theorem release_answer (id token : Bytes) (retryAt : Time) (reason : ReleaseReason)
    (checked now : Time) (rows : List QueueRow) :
    ((release id token retryAt reason checked now rows).1 = rows ∧
        ∃ e, (release id token retryAt reason checked now rows).2 = .error e) ∨
      release id token retryAt reason checked now rows =
        closeLease id token checked (QueueRow.released retryAt reason now) rows := by
  unfold release
  split
  · exact Or.inl ⟨rfl, _, rfl⟩
  · exact Or.inr rfl

variable {sha256 : Bytes → Bytes} {q q' : Queue}

theorem rowStep_other {item : Item} {w : ℕ} {rest : List Item} {entry : Entry} {now : Time}
    {close : QueueRow → QueueRow} (hclose : ∀ r, (close r).id = r.id) {id : Bytes}
    (hne : id ≠ item.id) (habout : Entry.about id entry = false) :
    RowStep q ⟨Table.update QueueRow.id item.id close q.rows, Function.update q.clock item.id now,
      Function.update q.workers w (.working rest), q.log ++ [entry]⟩ id := by
  refine .same ?_ ?_ ?_
  · unfold Queue.row
    rw [Table.find_update QueueRow.id _ _ close hclose, if_neg hne]
  · exact Function.update_of_ne hne _ _
  · unfold Queue.history
    rw [List.filter_append]
    simp [habout]

theorem row_updated {item : Item} {r : QueueRow} (hfound : q.row item.id = some r)
    {close : QueueRow → QueueRow} (hclose : ∀ r, (close r).id = r.id) :
    Table.find QueueRow.id item.id (Table.update QueueRow.id item.id close q.rows) =
      some (close r) := by
  unfold Queue.row at hfound
  rw [Table.find_update QueueRow.id _ _ close hclose, if_pos rfl, hfound]
  rfl

theorem rowStep_workers {workers : ℕ → Phase} (id : Bytes) :
    RowStep q { q with workers := workers } id :=
  .same rfl rfl rfl

theorem step_row (hkeyed : Table.Keyed QueueRow.id q.rows) (h : Step sha256 q q') (id : Bytes) :
    RowStep q q' id := by
  cases h with
  | insert row createdAt nextAttemptAt unused =>
    have hfind : Table.find QueueRow.id id
        (q.rows ++ [QueueRow.inserted row createdAt nextAttemptAt]) = _ :=
      Table.find_append QueueRow.id id q.rows _
    by_cases hid : (QueueRow.inserted row createdAt nextAttemptAt).id = id
    · have habsent : q.row id = none := by
        refine Table.find_eq_none.mpr fun r hr => ?_
        rw [← hid]
        exact unused r hr
      refine .inserted habsent row createdAt nextAttemptAt ?_ rfl rfl
      refine hfind.trans ?_
      unfold Queue.row at habsent
      rw [habsent, if_pos hid]
      rfl
    · refine .same ?_ rfl rfl
      refine hfind.trans ?_
      rw [if_neg hid, Option.or_none]
      rfl
  | claim w idle workerID limit lease env rows items done timely drawn =>
    have hclaimed := claim_ok hkeyed done
    have hrow := row_claimed hclaimed id
    by_cases hmem : id ∈ items.map Item.id
    · obtain ⟨item, hitem, hid⟩ := List.mem_map.mp hmem
      obtain ⟨r, hr, hsame, -⟩ := hclaimed.returned item hitem
      have hrid : r.id = id := hsame.trans hid
      have hfound : q.row id = some r := by
        rw [← hrid]
        exact hkeyed.find_mem hr
      have hfree := hclaimed.free r hr (hrid ▸ hmem)
      obtain ⟨hread, hlater⟩ := timely item hitem
      rw [hid] at hread hlater
      refine .leased r hfound w workerID (env.token id) (leaseEnds (env.leasedAt id) lease)
        (env.due id) (env.free id) (hrid ▸ hfree) hread ?_ ?_ ?_ ?_
      · simpa [hmem] using hlater
      · intro w' e
        rw [← hid]
        exact drawn item hitem w' e
      · rw [hfound] at hrow
        simpa [Queue.row, hmem, ClaimEnv.lease, hrid] using hrow
      · unfold Queue.history
        rw [List.filter_append, @filter_claimed w env.token
          (fun id => leaseEnds (env.leasedAt id) lease) items id hclaimed.distinct hmem]
    · refine .same ?_ ?_ ?_
      · simpa [Queue.row, hmem] using hrow
      · simp [hmem]
      · unfold Queue.history
        rw [List.filter_append, @filter_claimed_none w env.token
          (fun id => leaseEnds (env.leasedAt id) lease) items id hmem, List.append_nil]
  | malformed | publishFails | unanswered | stop => exact rowStep_workers id
  | acknowledge =>
    refine .same rfl rfl ?_
    unfold Queue.history
    rw [List.filter_append]
    simp [Entry.about]
  | mark w item rest now checked set timely =>
    obtain ⟨hread, hlater⟩ := timely
    rcases answered_row hkeyed (markPublished_answer item.id item.leaseToken checked
      set q.rows) with ⟨r, hfound, hheld, hq⟩ | hq
    · rw [hq]
      by_cases hid : id = item.id
      · subst hid
        have hclock := Function.update_self item.id set q.clock
        refine .published r hfound w item.leaseToken checked hheld hread ?_ ?_ ?_
        · dsimp only
          rwa [hclock]
        · dsimp only
          rw [hclock]
          exact row_updated hfound fun _ => rfl
        · dsimp only
          rw [hclock]
      · refine rowStep_other ?_ hid ?_
        · intro r
          rfl
        · exact beq_false_of_ne (Ne.symm hid)
    · rw [hq]
      exact rowStep_workers id
  | release w item reason rest now retryAt checked set timely =>
    obtain ⟨hread, hlater⟩ := timely
    rcases answered_row hkeyed (release_answer item.id item.leaseToken retryAt reason
      checked set q.rows) with ⟨r, hfound, hheld, hq⟩ | hq
    · rw [hq]
      by_cases hid : id = item.id
      · subst hid
        have hclock := Function.update_self item.id set q.clock
        refine .released r hfound w item.leaseToken checked retryAt reason hheld hread ?_ ?_ ?_
        · dsimp only
          rwa [hclock]
        · dsimp only
          rw [hclock]
          exact row_updated hfound fun _ => rfl
        · dsimp only
          rw [hclock]
      · refine rowStep_other ?_ hid ?_
        · intro r
          rfl
        · exact beq_false_of_ne (Ne.symm hid)
    · rw [hq]
      exact rowStep_workers id

/-! ### Every row is a leased slot -/

theorem step_keyed (hkeyed : Table.Keyed QueueRow.id q.rows) (h : Step sha256 q q') :
    Table.Keyed QueueRow.id q'.rows := by
  cases h with
  | insert row createdAt nextAttemptAt unused =>
    exact hkeyed.append (Table.clash_eq_false.mpr unused)
  | claim w idle workerID limit lease env rows items done =>
    rw [(claim_ok hkeyed done).leased]
    refine hkeyed.map fun r => ?_
    split
    · rfl
    · rfl
  | malformed | acknowledge | publishFails | unanswered | stop => exact hkeyed
  | mark w item rest now checked set =>
    rcases answered_row hkeyed (markPublished_answer item.id item.leaseToken checked
      set q.rows) with ⟨-, -, -, hq⟩ | hq
    · rw [hq]
      exact hkeyed.update _ fun _ => rfl
    · rw [hq]
      exact hkeyed
  | release w item reason rest now retryAt checked set =>
    rcases answered_row hkeyed (release_answer item.id item.leaseToken retryAt reason
      checked set q.rows) with ⟨-, -, -, hq⟩ | hq
    · rw [hq]
      exact hkeyed.update _ fun _ => rfl
    · rw [hq]
      exact hkeyed

def Entry.act : Entry → Option (LeaseAct Bytes)
  | .claimed _ _ token ends => some (.grant token ends)
  | .marked _ _ token _ _ | .released _ _ token _ _ => some (.close token)
  | .acknowledged .. => none

def Queue.slot (q : Queue) (id : Bytes) : Slot Bytes where
  holder := ((q.row id).bind QueueRow.lease).map fun l => (l.leaseToken, l.leaseUntil)
  clock := q.clock id
  acts := (q.history id).filterMap Entry.act

theorem grant_mem {id token : Bytes} {ends : Time}
    (h : LeaseAct.grant token ends ∈ (q.slot id).acts) :
    ∃ w, Entry.claimed w id token ends ∈ q.log := by
  obtain ⟨e, he, hact⟩ := List.mem_filterMap.mp h
  obtain ⟨hlog, habout⟩ := List.mem_filter.mp he
  cases e with
  | claimed w id' =>
    cases hact
    have hid : id' = id := beq_iff_eq.mp habout
    exact ⟨w, hid ▸ hlog⟩
  | acknowledged | marked | released => cases hact

theorem held_lease {r : QueueRow} {token : Bytes} {checked : Time}
    (h : r.held token checked = true) :
    ∃ l, r.lease = some l ∧ l.leaseToken = token ∧ checked < l.leaseUntil ∧ r.pending = true := by
  unfold QueueRow.held at h
  rw [Bool.and_eq_true] at h
  obtain ⟨hlease, hpending⟩ := h
  cases hl : r.lease with
  | none =>
    rw [hl] at hlease
    cases hlease
  | some l =>
    rw [hl] at hlease
    simp only [Bool.and_eq_true, beq_iff_eq, decide_eq_true_eq] at hlease
    exact ⟨l, rfl, hlease.1, hlease.2, hpending⟩

theorem history_append {e : Entry} {id : Bytes} (hlog : q'.log = q.log ++ [e])
    (habout : Entry.about id e = true) : q'.history id = q.history id ++ [e] := by
  unfold Queue.history
  rw [hlog, List.filter_append]
  simp [habout]

theorem slot_closed {r r' : QueueRow} {id token : Bytes} {checked : Time}
    (hfound : q.row id = some r) (hheld : r.held token checked = true)
    (hread : q.clock id ≤ checked) (hlater : checked ≤ q'.clock id) (hrow : q'.row id = some r')
    (hlease : r'.lease = none) {e : Entry} (hhistory : q'.history id = q.history id ++ [e])
    (hact : e.act = some (.close token)) : Slot.Step (q.slot id) (q'.slot id) := by
  obtain ⟨l, hl, rfl, hlive, -⟩ := held_lease hheld
  have hslot : q'.slot id = ⟨none, q'.clock id, (q.slot id).acts ++ [.close l.leaseToken]⟩ := by
    simp [Queue.slot, hrow, hlease, hhistory, hact]
  rw [hslot]
  refine .close (q.slot id) l.leaseToken l.leaseUntil checked _ ?_ hlive hread hlater
  simp [Queue.slot, hfound, hl]

theorem RowStep.slot {id : Bytes} (h : RowStep q q' id) :
    q'.slot id = q.slot id ∨ Slot.Step (q.slot id) (q'.slot id) := by
  cases h with
  | same row clock history =>
    left
    unfold Queue.slot
    rw [row, clock, history]
  | inserted absent row createdAt nextAttemptAt present clock history =>
    left
    unfold Queue.slot
    rw [absent, present, clock, history]
    rfl
  | leased r found w owner token ends due free claimable read later drawn row history =>
    right
    have hslot : q'.slot id = ⟨some (token, ends), q'.clock id,
        (q.slot id).acts ++ [.grant token ends]⟩ := by
      simp [Queue.slot, row, history, QueueRow.leased, Entry.act]
    rw [hslot]
    refine .grant (q.slot id) token ends free _ ?_ ?_ read later
    · intro e hgrant
      obtain ⟨w', hclaimed⟩ := grant_mem hgrant
      exact drawn w' e hclaimed
    · intro holder hholder
      unfold QueueRow.claimable at claimable
      cases hl : r.lease with
      | none => simp [Queue.slot, found, hl] at hholder
      | some l =>
        simp only [hl, Bool.and_eq_true, decide_eq_true_eq] at claimable
        simp only [Queue.slot, found, hl, Option.bind_some, Option.map_some] at hholder
        cases hholder
        exact claimable.2
  | published r found w token checked held read later row log =>
    exact Or.inr (slot_closed found held read later row rfl
      (history_append log (beq_self_eq_true id)) rfl)
  | released r found w token checked retryAt reason held read later row log =>
    exact Or.inr (slot_closed found held read later row rfl
      (history_append log (beq_self_eq_true id)) rfl)

/-! ### Attempts and final stamps -/

def Entry.isRelease : Entry → Bool
  | .released .. => true
  | _ => false

structure Settled (history : List Entry) (log : List Entry) (r : QueueRow) : Prop where
  attempts : r.attempts = history.countP Entry.isRelease
  poisoned : r.poisonedAt.isSome = true ↔ r.attempts = maxOutboxAttempts
  bounded : r.attempts ≤ maxOutboxAttempts
  exclusive : r.publishedAt = none ∨ r.poisonedAt = none
  published : ∀ now, r.publishedAt = some now →
    ∃ w token checked, Entry.marked w r.id token checked now ∈ log

theorem pending_iff (r : QueueRow) :
    r.pending = true ↔ r.publishedAt = none ∧ r.poisonedAt = none := by
  simp [QueueRow.pending]

theorem Settled.released {history log : List Entry} {r : QueueRow} (h : Settled history log r)
    (hpending : r.pending = true) (w : ℕ) (id token : Bytes) (checked now retryAt : Time)
    (reason : ReleaseReason) (log' : List Entry) :
    Settled (history ++ [.released w id token checked now]) log' (r.released retryAt reason now) := by
  obtain ⟨hpublished, hpoisoned⟩ := (pending_iff r).mp hpending
  have hfew : r.attempts ≠ maxOutboxAttempts := by
    intro hall
    have hsome := h.poisoned.mpr hall
    rw [hpoisoned] at hsome
    cases hsome
  have hbounded := h.bounded
  constructor
  · show r.attempts + 1 = _
    rw [List.countP_append, h.attempts]
    rfl
  · show (if maxOutboxAttempts ≤ r.attempts + 1 then some now else none).isSome = true ↔
      r.attempts + 1 = maxOutboxAttempts
    split
    · simp
      omega
    · simp
      omega
  · show r.attempts + 1 ≤ maxOutboxAttempts
    omega
  · exact Or.inl hpublished
  · intro at_ hat
    have hnone : r.publishedAt = some at_ := hat
    rw [hpublished] at hnone
    cases hnone

structure Recorded (q : Queue) : Prop where
  keyed : Table.Keyed QueueRow.id q.rows
  slots : ∀ id, (q.slot id).Sound
  unknown : ∀ id, q.row id = none → q.history id = []
  settled : ∀ id r, q.row id = some r → Settled (q.history id) q.log r

theorem recorded_initial (clock : Bytes → Time) : Recorded { clock := clock } where
  keyed := Table.keyed_nil _
  slots := fun id => Slot.sound_initial (clock id)
  unknown := fun _ _ => rfl
  settled := by
    intro id r h
    cases h

theorem step_log (h : Step sha256 q q') : q.log <+: q'.log := by
  cases h with
  | insert | malformed | publishFails | unanswered | stop => exact List.prefix_refl _
  | claim =>
    exact List.prefix_append _ _
  | acknowledge => exact List.prefix_append _ _
  | mark | release =>
    unfold Queue.answered
    split
    · exact List.prefix_append _ _
    · exact List.prefix_refl _

theorem RowStep.settled {id : Bytes} (h : RowStep q q' id) (hlog : q.log <+: q'.log)
    (hunknown : q.row id = none → q.history id = [])
    (hsettled : ∀ r, q.row id = some r → Settled (q.history id) q.log r) (r' : QueueRow)
    (hrow : q'.row id = some r') : Settled (q'.history id) q'.log r' := by
  have hgrow : ∀ {e : Entry}, e ∈ q.log → e ∈ q'.log := fun he => hlog.subset he
  cases h with
  | same row clock history =>
    rw [row] at hrow
    obtain ⟨hattempts, hpoisoned, hbounded, hexclusive, hpublished⟩ := hsettled r' hrow
    rw [history]
    refine ⟨hattempts, hpoisoned, hbounded, hexclusive, ?_⟩
    intro now hnow
    obtain ⟨w, token, checked, hmarked⟩ := hpublished now hnow
    exact ⟨w, token, checked, hgrow hmarked⟩
  | inserted absent row createdAt nextAttemptAt present clock history =>
    rw [present] at hrow
    cases hrow
    rw [history, hunknown absent]
    refine ⟨rfl, ?_, Nat.zero_le _, Or.inl rfl, ?_⟩
    · simp [QueueRow.inserted, maxOutboxAttempts]
    · intro now hnow
      cases hnow
  | leased r found w owner token ends due free claimable read later drawn row history =>
    rw [row] at hrow
    cases hrow
    obtain ⟨hattempts, hpoisoned, hbounded, hexclusive, hpublished⟩ := hsettled r found
    rw [history]
    refine ⟨?_, hpoisoned, hbounded, hexclusive, ?_⟩
    · rw [List.countP_append]
      exact hattempts
    · intro now hnow
      obtain ⟨w, token, checked, hmarked⟩ := hpublished now hnow
      exact ⟨w, token, checked, hgrow hmarked⟩
  | published r found w token checked held read later row log =>
    rw [row] at hrow
    cases hrow
    obtain ⟨hattempts, hpoisoned, hbounded, -, -⟩ := hsettled r found
    obtain ⟨-, -, -, -, hpending⟩ := held_lease held
    have hid := (Table.find_eq_some found).2
    rw [history_append log (beq_self_eq_true id)]
    refine ⟨?_, hpoisoned, hbounded, Or.inr ((pending_iff r).mp hpending).2, ?_⟩
    · rw [List.countP_append]
      exact hattempts
    · intro now hnow
      cases hnow
      refine ⟨w, token, checked, ?_⟩
      show Entry.marked w r.id token checked _ ∈ q'.log
      rw [hid, log]
      simp
  | released r found w token checked retryAt reason held read later row log =>
    rw [row] at hrow
    cases hrow
    obtain ⟨-, -, -, -, hpending⟩ := held_lease held
    rw [history_append log (beq_self_eq_true id)]
    exact (hsettled r found).released hpending w id token checked _ retryAt reason _

theorem RowStep.unknown {id : Bytes} (h : RowStep q q' id)
    (hunknown : q.row id = none → q.history id = []) (hrow : q'.row id = none) :
    q'.history id = [] := by
  cases h with
  | same row clock history =>
    rw [history]
    exact hunknown (row ▸ hrow)
  | inserted absent row createdAt nextAttemptAt present =>
    rw [present] at hrow
    cases hrow
  | leased r found w owner token ends due free claimable read later drawn row =>
    rw [row] at hrow
    cases hrow
  | published r found w token checked held read later row =>
    rw [row] at hrow
    cases hrow
  | released r found w token checked retryAt reason held read later row =>
    rw [row] at hrow
    cases hrow

theorem Recorded.step (h : Recorded q) (hstep : Step sha256 q q') : Recorded q' where
  keyed := step_keyed h.keyed hstep
  slots := by
    intro id
    rcases (step_row h.keyed hstep id).slot with hsame | hslot
    · rw [hsame]
      exact h.slots id
    · exact (h.slots id).step hslot
  unknown := fun id => (step_row h.keyed hstep id).unknown (h.unknown id)
  settled := fun id => (step_row h.keyed hstep id).settled (step_log hstep) (h.unknown id)
    (h.settled id)

end Snagline.Delivery
