import Snagline.Delivery.Worker

/-!
# Who may close an outbox row

A worker only ever closes rows it has claimed, and marks a row as published only
after the broker acknowledged the bytes of that row to it. Together with the
lease discipline of the table this gives the life of a row: leased to one holder
at a time, released at most twenty times, and published or poisoned for good.
-/

namespace Snagline.Delivery
open Kit Ssp Authority

variable {sha256 : Bytes → Bytes} {q q' : Queue}

theorem prefix_of_not_mem {α : Type} {l log xs : List α} {m : α} (hnot : m ∉ xs)
    (h : l ++ [m] <+: log ++ xs) : l ++ [m] <+: log := by
  induction xs using List.reverseRecOn with
  | nil => simpa using h
  | append_singleton ys a ih =>
    rw [← List.append_assoc, List.prefix_concat_iff] at h
    rcases h with hwhole | hshort
    · have hlast := congrArg List.getLast? hwhole
      simp only [List.getLast?_append, List.getLast?_singleton] at hlast
      cases hlast
      exact absurd (List.mem_append_right _ (List.mem_singleton.mpr rfl)) hnot
    · exact ih (fun hin => hnot (List.mem_append_left _ hin)) hshort

/-! ### Rows -/

theorem RowStep.kept {id : Bytes} (h : RowStep q q' id) {r : QueueRow} (hrow : q.row id = some r) :
    ∃ r', q'.row id = some r' ∧ r'.row = r.row ∧ (r.pending = false → r' = r) := by
  have hheld : ∀ {token : Bytes} {checked : Time} {x : QueueRow}, q.row id = some x →
      x.held token checked = true → r.pending ≠ false := by
    intro token checked x hx hheld hover
    rw [hrow] at hx
    cases hx
    obtain ⟨-, -, -, -, hpending⟩ := held_lease hheld
    rw [hpending] at hover
    cases hover
  cases h with
  | same row => exact ⟨r, row.trans hrow, rfl, fun _ => rfl⟩
  | inserted absent =>
    rw [absent] at hrow
    cases hrow
  | leased x found w owner token ends due free claimable read later drawn row =>
    rw [found] at hrow
    cases hrow
    refine ⟨_, row, rfl, ?_⟩
    intro hover
    unfold QueueRow.claimable at claimable
    rw [hover] at claimable
    simp at claimable
  | published x found w token checked held read later row =>
    refine ⟨_, row, ?_, fun hover => absurd hover (hheld found held)⟩
    rw [found] at hrow
    cases hrow
    rfl
  | released x found w token checked retryAt reason held read later row =>
    refine ⟨_, row, ?_, fun hover => absurd hover (hheld found held)⟩
    rw [found] at hrow
    cases hrow
    rfl

theorem spent_is_stale (hkeyed : Table.Keyed QueueRow.id q.rows) {id token : Bytes}
    (hspent : (q.slot id).Spent token) {checked : Time} (hread : q.clock id ≤ checked)
    (close : QueueRow → QueueRow) : (closeLease id token checked close q.rows).1 = q.rows := by
  rcases closeLease_cases hkeyed with ⟨hrows, -⟩ | ⟨r, hr, hid, hheld, -, -⟩
  · exact hrows
  · obtain ⟨l, hl, htoken, hlive, -⟩ := held_lease hheld
    have hrow : q.row id = some r := by
      rw [← hid]
      exact hkeyed.find_mem hr
    have hholder : (q.slot id).holder = some (token, l.leaseUntil) := by
      simp [Queue.slot, hrow, hl, htoken]
    have hover : l.leaseUntil ≤ q.clock id := hspent.2 _ hholder
    exact absurd (hover.trans hread) (not_le.mpr hlive)

theorem spent_statements (hkeyed : Table.Keyed QueueRow.id q.rows) {id token : Bytes}
    (hspent : (q.slot id).Spent token) {checked : Time} (hread : q.clock id ≤ checked)
    (now retryAt : Time) (reason : ReleaseReason) :
    (markPublished id token checked now q.rows).1 = q.rows ∧
      (release id token retryAt reason checked now q.rows).1 = q.rows := by
  constructor
  · rcases markPublished_answer id token checked now q.rows with ⟨hsame, -⟩ | hclose
    · exact hsame
    · rw [hclose]
      exact spent_is_stale hkeyed hspent hread _
  · rcases release_answer id token retryAt reason checked now q.rows with ⟨hsame, -⟩ | hclose
    · exact hsame
    · rw [hclose]
      exact spent_is_stale hkeyed hspent hread _

/-! ### Workers -/

def Phase.items : Phase → List Item
  | .idle => []
  | .working items => items
  | .closing item rest | .releasing item _ rest => item :: rest

structure Carries (q : Queue) (w : ℕ) (item : Item) : Prop where
  claimed : ∃ ends, Entry.claimed w item.id item.leaseToken ends ∈ q.log
  bytes : ∃ r, q.row item.id = some r ∧ r.row.raw = item.raw

def Acknowledged (log : List Entry) (w : ℕ) (item : Item) : Prop :=
  ∃ request, Entry.acknowledged w item.leaseToken request ∈ log ∧ request.outboxID = item.id ∧
    request.rawSSP = item.raw

def Preceded (q : Queue) (past : List Entry) (w : ℕ) (id token : Bytes) (checked : Time) : Prop :=
  ∃ ends request, Entry.claimed w id token ends ∈ past ∧ checked < ends ∧
    Entry.acknowledged w token request ∈ past ∧ request.outboxID = id ∧
    ∃ r, q.row id = some r ∧ request.rawSSP = r.row.raw

structure Manned (q : Queue) : Prop where
  carried : ∀ w, ∀ item ∈ (q.workers w).items, Carries q w item
  acknowledged : ∀ w item rest, q.workers w = .closing item rest → Acknowledged q.log w item
  once : ∀ w w' id token ends ends', Entry.claimed w id token ends ∈ q.log →
    Entry.claimed w' id token ends' ∈ q.log → w = w' ∧ ends = ends'
  marks : ∀ past w id token checked now,
    past ++ [Entry.marked w id token checked now] <+: q.log → Preceded q past w id token checked

theorem manned_initial (clock : Bytes → Time) : Manned { clock := clock } where
  carried := by
    intro w item hitem
    cases hitem
  acknowledged := by
    intro w item rest h
    cases h
  once := by
    intro w w' id token ends ends' h
    cases h
  marks := by
    intro past w id token checked now h
    have hlength := h.length_le
    simp at hlength

theorem Carries.later {w : ℕ} {item : Item} (h : Carries q w item) (hlog : q.log <+: q'.log)
    (hrows : ∀ id r, q.row id = some r → ∃ r', q'.row id = some r' ∧ r'.row = r.row) :
    Carries q' w item := by
  obtain ⟨ends, hclaimed⟩ := h.claimed
  obtain ⟨r, hrow, hraw⟩ := h.bytes
  obtain ⟨r', hrow', hsame⟩ := hrows _ r hrow
  exact ⟨⟨ends, hlog.subset hclaimed⟩, r', hrow', by rw [hsame, hraw]⟩

theorem Preceded.later {past : List Entry} {w : ℕ} {id token : Bytes} {checked : Time}
    (h : Preceded q past w id token checked)
    (hrows : ∀ id r, q.row id = some r → ∃ r', q'.row id = some r' ∧ r'.row = r.row) :
    Preceded q' past w id token checked := by
  obtain ⟨ends, request, hclaimed, hlive, hacknowledged, hid, r, hrow, hraw⟩ := h
  obtain ⟨r', hrow', hsame⟩ := hrows _ r hrow
  exact ⟨ends, request, hclaimed, hlive, hacknowledged, hid, r', hrow', by rw [hsame, hraw]⟩

theorem marks_keep (h : Manned q)
    (hrows : ∀ id r, q.row id = some r → ∃ r', q'.row id = some r' ∧ r'.row = r.row)
    {news : List Entry} (hlog : q'.log = q.log ++ news)
    (hnews : ∀ w id token checked now, Entry.marked w id token checked now ∉ news) :
    ∀ past w id token checked now,
      past ++ [Entry.marked w id token checked now] <+: q'.log →
        Preceded q' past w id token checked := by
  intro past w id token checked now hpast
  rw [hlog] at hpast
  exact (h.marks past w id token checked now
    (prefix_of_not_mem (hnews w id token checked now) hpast)).later hrows

theorem once_keep (h : Manned q) {news : List Entry} (hlog : q'.log = q.log ++ news)
    (hnews : ∀ w id token ends, Entry.claimed w id token ends ∉ news) :
    ∀ w w' id token ends ends', Entry.claimed w id token ends ∈ q'.log →
      Entry.claimed w' id token ends' ∈ q'.log → w = w' ∧ ends = ends' := by
  intro w w' id token ends ends' hone hother
  rw [hlog] at hone hother
  have hold : ∀ {x : ℕ} {e : Time}, Entry.claimed x id token e ∈ q.log ++ news →
      Entry.claimed x id token e ∈ q.log := by
    intro x e hmem
    rcases List.mem_append.mp hmem with hin | hin
    · exact hin
    · exact absurd hin (hnews x id token e)
  exact h.once w w' id token ends ends' (hold hone) (hold hother)

theorem carried_update (h : Manned q) (hlog : q.log <+: q'.log)
    (hrows : ∀ id r, q.row id = some r → ∃ r', q'.row id = some r' ∧ r'.row = r.row) {w : ℕ}
    {phase : Phase} (hworkers : q'.workers = Function.update q.workers w phase)
    (hphase : ∀ item ∈ phase.items, item ∈ (q.workers w).items) :
    ∀ w', ∀ item ∈ (q'.workers w').items, Carries q' w' item := by
  intro w' item hitem
  rw [hworkers] at hitem
  by_cases hw : w' = w
  · subst hw
    rw [Function.update_self] at hitem
    exact (h.carried w' item (hphase item hitem)).later hlog hrows
  · rw [Function.update_of_ne hw] at hitem
    exact (h.carried w' item hitem).later hlog hrows

theorem acknowledged_update (h : Manned q) (hlog : q.log <+: q'.log) {w : ℕ} {phase : Phase}
    (hworkers : q'.workers = Function.update q.workers w phase)
    (hphase : ∀ item rest, phase = .closing item rest → Acknowledged q'.log w item) :
    ∀ w' item rest, q'.workers w' = .closing item rest → Acknowledged q'.log w' item := by
  intro w' item rest hclosing
  rw [hworkers] at hclosing
  by_cases hw : w' = w
  · subst hw
    rw [Function.update_self] at hclosing
    exact hphase item rest hclosing
  · rw [Function.update_of_ne hw] at hclosing
    obtain ⟨request, hmem, hid, hraw⟩ := h.acknowledged w' item rest hclosing
    exact ⟨request, hlog.subset hmem, hid, hraw⟩

theorem Manned.move (h : Manned q) (hlog : q.log <+: q'.log)
    (hrows : ∀ id r, q.row id = some r → ∃ r', q'.row id = some r' ∧ r'.row = r.row) {w : ℕ}
    {phase : Phase} (hworkers : q'.workers = Function.update q.workers w phase)
    (hphase : ∀ item ∈ phase.items, item ∈ (q.workers w).items)
    (hclosing : ∀ item rest, phase = .closing item rest → Acknowledged q'.log w item)
    {news : List Entry} (hnews : q'.log = q.log ++ news)
    (hclaims : ∀ w id token ends, Entry.claimed w id token ends ∉ news)
    (hmarks : ∀ w id token checked now, Entry.marked w id token checked now ∉ news) : Manned q' where
  carried := carried_update h hlog hrows hworkers hphase
  acknowledged := acknowledged_update h hlog hworkers hclosing
  once := once_keep h hnews hclaims
  marks := marks_keep h hrows hnews hmarks

theorem nothing_claimed {news : List Entry} (h : news = []) (w : ℕ) (id token : Bytes)
    (ends : Time) : Entry.claimed w id token ends ∉ news := by
  simp [h]

theorem nothing_marked {news : List Entry} (h : news = []) (w : ℕ) (id token : Bytes)
    (checked now : Time) : Entry.marked w id token checked now ∉ news := by
  simp [h]

theorem Manned.phase (h : Manned q) {w : ℕ} {phase : Phase}
    (hphase : ∀ item ∈ phase.items, item ∈ (q.workers w).items)
    (hopen : ∀ item rest, phase ≠ .closing item rest) :
    Manned { q with workers := Function.update q.workers w phase } := by
  refine h.move (List.prefix_refl _) (fun id r hrow => ⟨r, hrow, rfl⟩) rfl hphase ?_
    (List.append_nil _).symm (nothing_claimed rfl) (nothing_marked rfl)
  intro item rest hclosing
  exact absurd hclosing (hopen item rest)

theorem Manned.claim (hrec : Recorded q) (h : Manned q) {w : ℕ} (idle : q.workers w = .idle)
    {workerID : Bytes} {lease : ℤ} {env : ClaimEnv} {rows : List QueueRow} {items : List Item}
    (hclaimed : Claimed workerID lease env q.rows rows items)
    (drawn : ∀ item ∈ items, ∀ w' e, .claimed w' item.id (env.token item.id) e ∉ q.log)
    {phase : Phase} (received : phase = .idle ∨ phase = .working items) (clock : Bytes → Time)
    (hrows : ∀ id r, q.row id = some r → ∃ r', Table.find QueueRow.id id rows = some r' ∧
      r'.row = r.row) :
    Manned ⟨rows, clock, Function.update q.workers w phase, q.log ++ items.map fun item =>
      .claimed w item.id (env.token item.id) (leaseEnds (env.leasedAt item.id) lease)⟩ := by
  have hlog := List.prefix_append q.log (items.map fun item =>
    Entry.claimed w item.id (env.token item.id) (leaseEnds (env.leasedAt item.id) lease))
  refine ⟨?_, ?_, ?_, ?_⟩
  · intro w' item hitem
    dsimp only at hitem
    by_cases hw : w' = w
    · subst hw
      rw [Function.update_self] at hitem
      rcases received with rfl | rfl
      · cases hitem
      · obtain ⟨r, hr, hid, heq⟩ := hclaimed.returned item hitem
        obtain ⟨r', hrow', hsame⟩ := hrows r.id r (hrec.keyed.find_mem hr)
        have htoken : item.leaseToken = env.token item.id := by
          rw [heq]
          rfl
        refine ⟨⟨leaseEnds (env.leasedAt item.id) lease, ?_⟩, r', ?_, ?_⟩
        · rw [htoken]
          exact List.mem_append_right _ (List.mem_map.mpr ⟨item, hitem, rfl⟩)
        · rw [← hid]
          exact hrow'
        · rw [hsame, heq]
          rfl
    · rw [Function.update_of_ne hw] at hitem
      exact (h.carried w' item hitem).later hlog hrows
  · refine acknowledged_update h hlog rfl ?_
    intro item rest hclosing
    rcases received with rfl | rfl
    · cases hclosing
    · cases hclosing
  · intro w₁ w₂ id token ends₁ ends₂ hone hother
    have hnew : ∀ {x : ℕ} {e : Time}, Entry.claimed x id token e ∈ items.map (fun item =>
        Entry.claimed w item.id (env.token item.id) (leaseEnds (env.leasedAt item.id) lease)) →
        x = w ∧ e = leaseEnds (env.leasedAt id) lease ∧
          ∀ y e', Entry.claimed y id token e' ∉ q.log := by
      intro x e hmem
      obtain ⟨item, hitem, heq⟩ := List.mem_map.mp hmem
      cases heq
      exact ⟨rfl, rfl, drawn item hitem⟩
    rcases List.mem_append.mp hone with hold | hnew₁
    · rcases List.mem_append.mp hother with hold' | hnew₂
      · exact h.once w₁ w₂ id token ends₁ ends₂ hold hold'
      · exact absurd hold ((hnew hnew₂).2.2 w₁ ends₁)
    · obtain ⟨hw₁, he₁, hfresh⟩ := hnew hnew₁
      rcases List.mem_append.mp hother with hold' | hnew₂
      · exact absurd hold' (hfresh w₂ ends₂)
      · obtain ⟨hw₂, he₂, -⟩ := hnew hnew₂
        exact ⟨hw₁.trans hw₂.symm, he₁.trans he₂.symm⟩
  · refine marks_keep h hrows rfl ?_
    intro w' id token checked now hmem
    obtain ⟨item, -, heq⟩ := List.mem_map.mp hmem
    cases heq

theorem Manned.holder (hrec : Recorded q) (h : Manned q) {w : ℕ} {item : Item}
    (hcarries : Carries q w item) {r : QueueRow} (hrow : q.row item.id = some r) {checked : Time}
    (hheld : r.held item.leaseToken checked = true) :
    ∃ ends, Entry.claimed w item.id item.leaseToken ends ∈ q.log ∧ checked < ends := by
  obtain ⟨l, hl, htoken, hlive, -⟩ := held_lease hheld
  have hholder : (q.slot item.id).holder = some (item.leaseToken, l.leaseUntil) := by
    simp [Queue.slot, hrow, hl, htoken]
  obtain ⟨w', hgranted⟩ := grant_mem ((hrec.slots item.id).granted _ _ hholder)
  obtain ⟨ends, hclaimed⟩ := hcarries.claimed
  obtain ⟨-, hends⟩ := h.once w w' _ _ _ _ hclaimed hgranted
  exact ⟨ends, hclaimed, hends ▸ hlive⟩

theorem Manned.marked (hrec : Recorded q) (h : Manned q) {w : ℕ} {item : Item} {rest : List Item}
    (hclosing : q.workers w = .closing item rest) {r : QueueRow} (hrow : q.row item.id = some r)
    {checked now : Time} (hheld : r.held item.leaseToken checked = true)
    (hrows : ∀ id x, q.row id = some x → ∃ x', q'.row id = some x' ∧ x'.row = x.row)
    (hworkers : q'.workers = Function.update q.workers w (.working rest))
    (hlog : q'.log = q.log ++ [.marked w item.id item.leaseToken checked now]) : Manned q' := by
  have hgrow : q.log <+: q'.log := hlog ▸ List.prefix_append _ _
  have hmine : item ∈ (q.workers w).items := by
    rw [hclosing]
    exact List.mem_cons_self
  have hcarries := h.carried w item hmine
  refine ⟨carried_update h hgrow hrows hworkers ?_, acknowledged_update h hgrow hworkers ?_,
    once_keep h hlog (by simp), ?_⟩
  · intro x hx
    rw [hclosing]
    exact List.mem_cons_of_mem _ hx
  · intro x rest' hx
    cases hx
  · intro past w' id token checked' now' hpast
    rw [hlog, List.prefix_concat_iff] at hpast
    rcases hpast with hwhole | hshort
    · obtain ⟨hpast, hentry⟩ := List.append_inj' hwhole rfl
      cases hentry
      obtain ⟨ends, hclaimed, hlive⟩ := h.holder hrec hcarries hrow hheld
      obtain ⟨request, hacknowledged, hid, hraw⟩ := h.acknowledged w item rest hclosing
      obtain ⟨x, hx, hbytes⟩ := hcarries.bytes
      obtain ⟨x', hx', hsame⟩ := hrows _ x hx
      rw [hpast]
      exact ⟨ends, request, hclaimed, hlive, hacknowledged, hid, x', hx', by rw [hsame, hbytes, hraw]⟩
    · exact (h.marks past w' id token checked' now' hshort).later hrows

theorem step_rows (hkeyed : Table.Keyed QueueRow.id q.rows) (h : Step sha256 q q') (id : Bytes)
    (r : QueueRow) (hrow : q.row id = some r) : ∃ r', q'.row id = some r' ∧ r'.row = r.row := by
  obtain ⟨r', hrow', hsame, -⟩ := (step_row hkeyed h id).kept hrow
  exact ⟨r', hrow', hsame⟩

theorem Manned.step (hrec : Recorded q) (h : Manned q) (hstep : Step sha256 q q') : Manned q' := by
  have hrows := step_rows hrec.keyed hstep
  cases hstep with
  | insert =>
    exact h.move (List.prefix_refl _) hrows (Function.update_eq_self 0 q.workers).symm
      (fun _ hitem => hitem) (h.acknowledged 0) (List.append_nil _).symm (nothing_claimed rfl)
      (nothing_marked rfl)
  | claim w idle workerID limit lease env rows items done timely drawn phase received =>
    exact h.claim hrec idle (claim_ok hrec.keyed done) drawn received _ hrows
  | malformed w item rest now =>
    refine h.phase ?_ (fun _ _ hclosing => by cases hclosing)
    rw [now]
    exact fun _ hitem => hitem
  | acknowledge w item rest now request good =>
    obtain ⟨hid, hraw⟩ := publishRequest_raw good
    refine h.move (List.prefix_append _ _) hrows rfl ?_ ?_ rfl (by simp) (by simp)
    · rw [now]
      exact fun _ hitem => hitem
    · intro x rest' hclosing
      cases hclosing
      exact ⟨request, List.mem_append_right _ (List.mem_singleton.mpr rfl), hid, hraw⟩
  | publishFails w item rest now =>
    refine h.phase ?_ (fun _ _ hclosing => by cases hclosing)
    rw [now]
    exact fun _ hitem => hitem
  | mark w item rest now checked set =>
    rcases answered_row hrec.keyed (markPublished_answer item.id item.leaseToken checked
      set q.rows) with ⟨r, hfound, hheld, hq⟩ | hq
    · rw [hq] at hrows ⊢
      exact h.marked hrec now hfound hheld hrows rfl rfl
    · rw [hq]
      refine h.phase ?_ (fun _ _ hclosing => by cases hclosing)
      rw [now]
      exact fun _ hitem => List.mem_cons_of_mem _ hitem
  | release w item reason rest now retryAt checked set =>
    have hrest : ∀ x ∈ (Phase.working rest).items, x ∈ (q.workers w).items := by
      rw [now]
      exact fun _ hitem => List.mem_cons_of_mem _ hitem
    rcases answered_row hrec.keyed (release_answer item.id item.leaseToken retryAt reason
      checked set q.rows) with ⟨r, hfound, hheld, hq⟩ | hq
    · rw [hq] at hrows ⊢
      exact h.move (List.prefix_append _ _) hrows rfl hrest (fun _ _ hclosing => by cases hclosing)
        rfl (by simp) (by simp)
    · rw [hq]
      exact h.phase hrest (fun _ _ hclosing => by cases hclosing)
  | unanswered w item rest now =>
    refine h.phase ?_ (fun _ _ hclosing => by cases hclosing)
    rcases now with now | ⟨reason, now⟩
    · rw [now]
      exact fun _ hitem => List.mem_cons_of_mem _ hitem
    · rw [now]
      exact fun _ hitem => List.mem_cons_of_mem _ hitem
  | stop =>
    refine h.phase ?_ (fun _ _ hclosing => by cases hclosing)
    intro x hx
    cases hx

/-! ### Every run -/

theorem run_recorded {clock : Bytes → Time} (h : Steps sha256 { clock := clock } q) :
    Recorded q ∧ Manned q := by
  induction h with
  | refl => exact ⟨recorded_initial clock, manned_initial clock⟩
  | tail _ hstep ih => exact ⟨ih.1.step hstep, ih.2.step ih.1 hstep⟩

structure Onward (q q' : Queue) : Prop where
  recorded : Recorded q'
  rows : ∀ id r, q.row id = some r →
    ∃ r', q'.row id = some r' ∧ r'.row = r.row ∧ (r.pending = false → r' = r)
  spent : ∀ id token, (q.slot id).Spent token → (q'.slot id).Spent token

theorem steps_onward (hrec : Recorded q) (h : Steps sha256 q q') : Onward q q' := by
  induction h with
  | refl => exact ⟨hrec, fun _ r hrow => ⟨r, hrow, rfl, fun _ => rfl⟩, fun _ _ h => h⟩
  | tail _ hstep ih =>
    refine ⟨ih.recorded.step hstep, ?_, ?_⟩
    · intro id r hrow
      obtain ⟨r₁, hrow₁, hsame₁, hfinal₁⟩ := ih.rows id r hrow
      obtain ⟨r₂, hrow₂, hsame₂, hfinal₂⟩ := (step_row ih.recorded.keyed hstep id).kept hrow₁
      refine ⟨r₂, hrow₂, hsame₂.trans hsame₁, ?_⟩
      intro hover
      have hfirst := hfinal₁ hover
      rw [hfirst] at hfinal₂
      exact hfinal₂ hover
    · intro id token hspent
      rcases (step_row ih.recorded.keyed hstep id).slot with hsame | hslot
      · rw [hsame]
        exact ih.spent id token hspent
      · exact (ih.spent id token hspent).step hslot

theorem Manned.spent (hrec : Recorded q) (h : Manned q) {id token : Bytes} {ends : ℤ}
    (hgranted : .grant token ends ∈ (q.slot id).acts)
    (hover : .close token ∈ (q.slot id).acts ∨ ends ≤ q.clock id ∨
      ∃ other ends', (q.slot id).holder = some (other, ends') ∧ other ≠ token) :
    (q.slot id).Spent token := by
  rcases hover with hclosed | hexpired | ⟨other, ends', hholder, hne⟩
  · exact (hrec.slots id).spent_of_closed hclosed
  · refine ⟨⟨ends, hgranted⟩, ?_⟩
    intro e hholder
    obtain ⟨w, hclaimed⟩ := grant_mem hgranted
    obtain ⟨w', hclaimed'⟩ := grant_mem ((hrec.slots id).granted token e hholder)
    have hsame := (h.once w w' id token ends e hclaimed hclaimed').2
    exact hsame ▸ hexpired
  · refine ⟨⟨ends, hgranted⟩, ?_⟩
    intro e hholds
    rw [hholder] at hholds
    cases hholds
    exact absurd rfl hne

/-- The life of an outbox row, under any number of workers. -/
theorem outbox_lease_machine (sha256 : Bytes → Bytes) (clock : Bytes → Time) (q : Queue)
    (h : Steps sha256 { clock := clock } q) :
    -- at most one unexpired token
    (∀ id now a b, q.clock id ≤ now → (q.slot id).Live a now → (q.slot id).Live b now → a = b) ∧
    -- published by the unexpired holder, after the acknowledgement of these bytes
    (∀ id r now, q.row id = some r → r.publishedAt = some now → ∃ past w token checked,
      past ++ [.marked w id token checked now] <+: q.log ∧ Preceded q past w id token checked) ∧
    -- published and poisoned exclude each other, and are final
    (∀ id r, q.row id = some r → r.publishedAt = none ∨ r.poisonedAt = none) ∧
    (∀ q', Steps sha256 q q' → ∀ id r, q.row id = some r →
      r.publishedAt ≠ none ∨ r.poisonedAt ≠ none → q'.row id = some r) ∧
    -- a token that was closed, has expired or was replaced is spent, and changes nothing any more
    (∀ id token ends, .grant token ends ∈ (q.slot id).acts →
      .close token ∈ (q.slot id).acts ∨ ends ≤ q.clock id ∨
        (∃ other ends', (q.slot id).holder = some (other, ends') ∧ other ≠ token) →
      (q.slot id).Spent token) ∧
    (∀ id token, (q.slot id).Spent token → ∀ q', Steps sha256 q q' →
      ∀ checked now retryAt reason, q'.clock id ≤ checked →
        (markPublished id token checked now q'.rows).1 = q'.rows ∧
          (release id token retryAt reason checked now q'.rows).1 = q'.rows) ∧
    -- the attempts are the releases, and the twentieth poisons
    ∀ id r, q.row id = some r → r.attempts = (q.history id).countP Entry.isRelease ∧
      (r.poisonedAt.isSome = true ↔ r.attempts = maxOutboxAttempts) ∧
      r.attempts ≤ maxOutboxAttempts := by
  obtain ⟨hrec, hmanned⟩ := run_recorded h
  refine ⟨?_, ?_, ?_, ?_, ?_, ?_, ?_⟩
  · intro id now a b hnow ha hb
    exact (hrec.slots id).live_unique hnow ha hb
  · intro id r now hrow hpublished
    obtain ⟨w, token, checked, hmarked⟩ := (hrec.settled id r hrow).published now hpublished
    have hid := (Table.find_eq_some hrow).2
    rw [hid] at hmarked
    obtain ⟨past, later, hlog⟩ := List.append_of_mem hmarked
    have hprefix : past ++ [.marked w id token checked now] <+: q.log :=
      ⟨later, by rw [hlog, List.append_assoc]; rfl⟩
    exact ⟨past, w, token, checked, hprefix, hmanned.marks _ _ _ _ _ _ hprefix⟩
  · exact fun id r hrow => (hrec.settled id r hrow).exclusive
  · intro q' hlater id r hrow hfinal
    obtain ⟨r', hrow', -, hsame⟩ := (steps_onward hrec hlater).rows id r hrow
    have hover : r.pending = false := by
      rw [Bool.eq_false_iff]
      intro hpending
      obtain ⟨hpublished, hpoisoned⟩ := (pending_iff r).mp hpending
      rcases hfinal with hne | hne
      · exact hne hpublished
      · exact hne hpoisoned
    rw [hsame hover] at hrow'
    exact hrow'
  · intro id token ends hgranted hover
    exact hmanned.spent hrec hgranted hover
  · intro id token hspent q' hlater checked now retryAt reason hread
    have honward := steps_onward hrec hlater
    exact spent_statements honward.recorded.keyed (honward.spent id token hspent) hread now retryAt
      reason
  · intro id r hrow
    have hsettled := hrec.settled id r hrow
    exact ⟨hsettled.attempts, hsettled.poisoned, hsettled.bounded⟩

namespace Sample

def announced : OutboxRow := ⟨[111], [116], .case, [99], .domainDispatch, [100], [7], 1⟩
def routed : CaseRow := ⟨[116], [99], [118], [], [7], [100], [101], 1, 0, 1, [], 0, 1⟩

def claimEnv : ClaimEnv where
  locked := fun _ => false
  due := fun _ => 0
  free := fun _ => 0
  leasedAt := fun _ => 0
  token := fun _ => [120]
  db := { cases := [routed] }

def item : Item := claimedItem claimEnv.db announced [120]

def request : PublishRequest where
  outboxID := [111]
  destination := .domain
  tenantID := [116]
  domainID := [100]
  rawSSP := [7]
  factSequence := 1

def leasedRow : QueueRow := (QueueRow.inserted announced 0 0).leased [119] [120] 1000

def inserted : Queue where
  rows := [QueueRow.inserted announced 0 0]
  clock := fun _ => 0

def claimed : Queue where
  rows := [leasedRow]
  clock := fun id => if id ∈ [item].map Item.id then claimEnv.leasedAt id else inserted.clock id
  workers := Function.update inserted.workers 0 (.working [item])
  log := [.claimed 0 [111] [120] 1000]

def acknowledged : Queue := { claimed with
  workers := Function.update claimed.workers 0 (.closing item [])
  log := claimed.log ++ [.acknowledged 0 item.leaseToken request] }

def marked : Queue :=
  acknowledged.answered 0 item [] (.marked 0 item.id item.leaseToken 1 2) 2
    (markPublished item.id item.leaseToken 1 2 acknowledged.rows)

theorem marked_reached : Steps (fun _ => []) { clock := fun _ => 0 } marked := by
  have hinserted : Step (fun _ => []) { clock := fun _ => 0 } inserted :=
    .insert announced 0 0 (fun _ h => by cases h)
  have hclaimed : Step (fun _ => []) inserted claimed := by
    refine .claim 0 rfl [119] 1 1000 claimEnv [leasedRow] [item] (by decide +kernel) ?_ ?_
      (.working [item]) (.inr rfl)
    · simp [inserted, claimEnv]
    · simp [inserted]
  have hacknowledged : Step (fun _ => []) claimed acknowledged :=
    .acknowledge 0 item [] (by decide +kernel) request (by decide +kernel)
  have hmarked : Step (fun _ => []) acknowledged marked :=
    .mark 0 item [] (by decide +kernel) 1 2 (by decide +kernel)
  exact (((Relation.ReflTransGen.single hinserted).tail hclaimed).tail hacknowledged).tail hmarked

end Sample

theorem outbox_lease_machine_sample :
    Sample.marked.row [111] = some (Sample.leasedRow.published 2) ∧
      ∃ past w token checked,
        past ++ [.marked w [111] token checked 2] <+: Sample.marked.log ∧
          Preceded Sample.marked past w [111] token checked := by
  have hrow : Sample.marked.row [111] = some (Sample.leasedRow.published 2) := by decide +kernel
  exact ⟨hrow, (outbox_lease_machine _ _ _ Sample.marked_reached).2.1 _ _ _ hrow rfl⟩

end Snagline.Delivery
