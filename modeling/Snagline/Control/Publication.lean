import Snagline.Authority.Chain
import Snagline.Control.Resubmission

/-!
# Publishing a chain of registries (controlapi/service.go:70-112, store.go:203-289)

The publisher's side of equivocation detection. A stored registry is compared
with a resubmission byte by byte, and a difference halts the head. A chain whose
elements are always sent in the same bytes is therefore never halted, in
whatever order its elements arrive, and the head is answered with its receipt
again; the same statement in other bytes halts the tenant.
-/

namespace Snagline.Control
open Kit Ssp Registry Authority

/-! ### Honest publishers -/

/-- Root-signed registries with consecutive revisions, each naming the
commitment of the one before. -/
structure HashChain (s : Service) (chain : List (Bytes × Snapshot)) : Prop where
  checked : ∀ x ∈ chain, ∃ root, RegistryChecked s x.1 root x.2
  first : ∀ x ∈ chain.head?, x.2.previousCommitment = []
  linked : chain.IsChain fun x y =>
    y.2.revision = x.2.revision + 1 ∧ y.2.previousCommitment = x.2.commitment

def Elements (chain : List (Bytes × Snapshot)) (events : List Event) : Prop :=
  ∀ workload raw clock, .submitRegistry workload raw clock ∈ events → raw ∈ chain.map Prod.fst

structure Honest (d : Deployment) (chain : List (Bytes × Snapshot)) (events : List Event) :
    Prop where
  submitted : Elements chain events
  inOrder : ∀ past call env later, events = past ++ .attempt call env :: later → ∀ r head,
    (d.run {} past).calls[call]? = some (.registry r) →
    (d.run {} past).db.headOf d.service.tenant = some head → head.latestRevision ≤ r.revision

theorem Honest.before {d : Deployment} {chain : List (Bytes × Snapshot)} {events : List Event}
    {e : Event} (h : Honest d chain (events ++ [e])) : Honest d chain events where
  submitted workload raw clock hmem :=
    h.submitted workload raw clock (List.mem_append_left _ hmem)
  inOrder past call env later hevents :=
    h.inOrder past call env (later ++ [e]) (by rw [hevents, List.append_assoc]; rfl)

section Chain

variable {s : Service} {chain : List (Bytes × Snapshot)}

theorem revision_at {x : Bytes × Snapshot} {rest : List (Bytes × Snapshot)}
    (linked : (x :: rest).IsChain fun x y =>
      y.2.revision = x.2.revision + 1 ∧ y.2.previousCommitment = x.2.commitment)
    (i : ℕ) (y : Bytes × Snapshot) (h : (x :: rest)[i]? = some y) :
    y.2.revision = x.2.revision + i := by
  induction rest generalizing x i with
  | nil =>
    cases i with
    | zero =>
      cases h
      simp
    | succ i => cases h
  | cons z rest ih =>
    cases i with
    | zero =>
      cases h
      simp
    | succ i =>
      have hnext := ih (List.isChain_cons_cons.mp linked).2 i h
      have hfirst := (List.isChain_cons_cons.mp linked).1.1
      push_cast
      omega

theorem HashChain.position (h : HashChain s chain) {i j : ℕ} {x y : Bytes × Snapshot}
    (hi : chain[i]? = some x) (hj : chain[j]? = some y) :
    y.2.revision - x.2.revision = (j : ℤ) - i := by
  cases hchain : chain with
  | nil =>
    rw [hchain] at hi
    cases hi
  | cons =>
    have hlinked := h.linked
    rw [hchain] at hi hj hlinked
    have hx := revision_at hlinked i x hi
    have hy := revision_at hlinked j y hj
    omega

theorem HashChain.eq_of_revision (h : HashChain s chain) {x y : Bytes × Snapshot}
    (hx : x ∈ chain) (hy : y ∈ chain) (hrevision : y.2.revision = x.2.revision) : y = x := by
  obtain ⟨i, hi⟩ := List.mem_iff_getElem?.mp hx
  obtain ⟨j, hj⟩ := List.mem_iff_getElem?.mp hy
  have hposition := h.position hi hj
  have hsame : j = i := by omega
  rw [hsame, hi] at hj
  exact (Option.some.inj hj).symm

theorem HashChain.predecessor (h : HashChain s chain) {x y : Bytes × Snapshot}
    (hx : x ∈ chain) (hy : y ∈ chain) (hrevision : y.2.revision = x.2.revision + 1) :
    y.2.previousCommitment = x.2.commitment := by
  obtain ⟨i, hi⟩ := List.mem_iff_getElem?.mp hx
  obtain ⟨j, hj⟩ := List.mem_iff_getElem?.mp hy
  have hposition := h.position hi hj
  have hnext : j = i + 1 := by omega
  subst hnext
  obtain ⟨hlt, hget⟩ := List.getElem?_eq_some_iff.mp hj
  obtain ⟨hlt', hget'⟩ := List.getElem?_eq_some_iff.mp hi
  have hlink := List.isChain_iff_getElem.mp h.linked i hlt
  rw [hget, hget'] at hlink
  exact hlink.2

theorem HashChain.reading (h : HashChain s chain) {raw : Bytes} (hmem : raw ∈ chain.map Prod.fst)
    {root : Envelope} {snapshot : Snapshot} (hchecked : RegistryChecked s raw root snapshot) :
    (raw, snapshot) ∈ chain := by
  obtain ⟨x, hx, rfl⟩ := List.mem_map.mp hmem
  obtain ⟨root', hchecked'⟩ := h.checked x hx
  have hsame := (hchecked'.rooted.unique hchecked.rooted).2
  rw [← hsame]
  exact hx

end Chain

/-! ### Runs of honest publishers -/

section Run

variable {d : Deployment} {chain : List (Bytes × Snapshot)} {events : List Event}

section
variable {snapshot snapshot' : Snapshot} {r : CommitRegistryRequest} {root root' : Envelope}
  {raw : Bytes} {i : ℕ}

theorem Elements.row (h : Elements chain events) (hchain : HashChain d.service chain)
    {row : RegistryRow} (hrow : row ∈ (d.run {} events).db.registries) :
    ∃ workload root snapshot, (row.raw, snapshot) ∈ chain ∧
      row = (d.service.registryRequest workload row.raw root snapshot).row row.commitRevision ∧
      RegistryChecked d.service row.raw root snapshot := by
  cases (run_accounted d events).registries row hrow with
  | intro workload clock made root snapshot checked committed =>
    exact ⟨workload, root, snapshot, hchain.reading (h _ _ _ made) checked, committed,
      checked⟩

structure HeadElement (d : Deployment) (chain : List (Bytes × Snapshot)) (db : Database)
    (head : HeadRow) (workload : WorkloadIdentity) (raw : Bytes) (root : Envelope)
    (snapshot : Snapshot) : Prop where
  element : (raw, snapshot) ∈ chain
  checked : RegistryChecked d.service raw root snapshot
  installed : Installed (d.service.registryRequest workload raw root snapshot) head db

theorem Elements.head (h : Elements chain events) (hchain : HashChain d.service chain)
    {head : HeadRow} (hhead : (d.run {} events).db.headOf d.service.tenant = some head) :
    ∃ workload raw root snapshot,
      HeadElement d chain (d.run {} events).db head workload raw root snapshot := by
  have hmem := (Table.find_eq_some hhead).1
  obtain ⟨workload, raw, root, snapshot, hchecked, hinstalled⟩ :=
    (run_accounted d events).heads head hmem
  obtain ⟨revision, hrow⟩ := hinstalled.row
  cases (run_accounted d events).registries _ hrow with
  | intro _ _ made _ _ _ _ =>
    exact ⟨workload, raw, root, snapshot, hchain.reading (h _ _ _ made) hchecked,
      hchecked, hinstalled⟩

theorem Elements.call (h : Elements chain events) (hchain : HashChain d.service chain)
    (hcall : (d.run {} events).calls[i]? = some (.registry r)) :
    ∃ workload raw root snapshot, (raw, snapshot) ∈ chain ∧
      RegistryChecked d.service raw root snapshot ∧
      r = d.service.registryRequest workload raw root snapshot := by
  have hjustified := (run_accounted d events).calls _ (List.mem_of_getElem? hcall)
  generalize hc : Call.registry r = c at hjustified
  cases hjustified with
  | case | advice => cases hc
  | registry workload raw clock made root snapshot checked =>
    exact ⟨workload, raw, root, snapshot, hchain.reading (h _ _ _ made) checked, checked,
      Call.registry.inj hc⟩

theorem registryRequest_matches {s : Service} (hchecked : RegistryChecked s raw root snapshot)
    (hchecked' : RegistryChecked s raw root' snapshot') (workload workload' : WorkloadIdentity)
    (revision : ℤ) :
    (s.registryRequest workload raw root snapshot).matches
      ((s.registryRequest workload' raw root' snapshot').row revision) = true := by
  obtain ⟨hroot, hsnapshot⟩ := hchecked.rooted.unique hchecked'.rooted
  rw [hroot, hsnapshot]
  have hprevious : (nullableText snapshot'.previousCommitment).getD [] =
      snapshot'.previousCommitment := by
    unfold nullableText
    split
    · rename_i hempty
      exact (List.isEmpty_iff.mp hempty).symm
    · rfl
  simp [CommitRegistryRequest.matches, CommitRegistryRequest.row, Service.registryRequest,
    hprevious]

-- rollback is out of order, and the other two contradictions need a second element of a revision
-- or a link the chain does not have
theorem Honest.no_halt (h : Honest d chain events) (hchain : HashChain d.service chain)
    (hcall : (d.run {} events).calls[i]? = some (.registry r))
    {head : HeadRow} (hhead : (d.run {} events).db.headOf d.service.tenant = some head)
    (horder : head.latestRevision ≤ r.revision) {reason : Bytes} {e : StoreError} :
    ¬ r.Halts head (d.run {} events).db reason e := by
  intro hhalts
  obtain ⟨workload, raw, root, snapshot, helement, hchecked, rfl⟩ := h.submitted.call hchain hcall
  cases hhalts with
  | rollback => omega
  | conflict same old found different =>
    obtain ⟨hmem, hkey⟩ := Table.find_eq_some found
    obtain ⟨workload', root', snapshot', helement', hrow, hchecked'⟩ := h.submitted.row hchain hmem
    have hrevision : snapshot'.revision = snapshot.revision := by
      have hstored := congrArg RegistryRow.registryRevision hrow
      exact hstored.symm.trans (congrArg Prod.snd hkey)
    have hsame := hchain.eq_of_revision helement helement' hrevision
    have hraw : old.raw = raw := congrArg Prod.fst hsame
    rw [hraw] at hrow hchecked'
    rw [hrow, registryRequest_matches hchecked hchecked'] at different
    cases different
  | predecessor next wrong =>
    obtain ⟨workload', raw', root', snapshot', hat⟩ := h.submitted.head hchain hhead
    have hrevision : snapshot.revision = snapshot'.revision + 1 := by
      have hstands : head.latestRevision = snapshot'.revision := hat.installed.revision
      rw [← hstands]
      exact next
    have hprevious := hchain.predecessor hat.element helement hrevision
    exact wrong (hprevious.trans hat.installed.commitment.symm)

theorem Honest.not_stopped (hchain : HashChain d.service chain) (h : Honest d chain events) :
    ¬ (d.run {} events).db.stopped d.service.tenant := by
  induction events using List.reverseRecOn with
  | nil =>
    rintro ⟨head, hfound, -⟩
    cases hfound
  | append_singleton past e ih =>
    have hpast := ih h.before
    rw [Deployment.run_concat]
    cases e with
    | submitRegistry workload raw clock =>
      unfold Deployment.step
      rwa [State.accept_db]
    | submit workload raw clock =>
      unfold Deployment.step
      rwa [State.accept_db]
    | attempt call env =>
      cases hcall : (d.run {} past).calls[call]? with
      | none => simpa only [Deployment.step, hcall] using hpast
      | some c =>
        simp only [Deployment.step, hcall]
        intro hstopped
        obtain ⟨r, head, reason, e, rfl, -, hlive, hhalts⟩ :=
          (step_change d.store _ ⟨c, env⟩).stops hpast hstopped
        have horder := h.inOrder past call env [] rfl r head hcall hlive.found
        exact h.before.no_halt hchain hcall hlive.found horder hhalts

theorem Elements.honest {x : Bytes × Snapshot} (hchain : HashChain d.service [x])
    (h : Elements [x] events) : Honest d [x] events where
  submitted := h
  inOrder := by
    intro past call env later hevents r head hcall hhead
    have hpast : Elements [x] past := by
      intro workload raw clock hmem
      exact h workload raw clock (hevents ▸ List.mem_append_left _ hmem)
    obtain ⟨_, _, _, snapshot, helement, -, rfl⟩ := hpast.call hchain hcall
    obtain ⟨_, _, _, snapshot', hat⟩ := hpast.head hchain hhead
    have hsame : (_, snapshot) = x := List.mem_singleton.mp helement
    have hsame' : (_, snapshot') = x := List.mem_singleton.mp hat.element
    have hstands : head.latestRevision = snapshot'.revision := hat.installed.revision
    rw [hstands, show snapshot' = x.2 from congrArg Prod.snd hsame',
      ← show snapshot = x.2 from congrArg Prod.snd hsame]
    exact le_refl _

/-- In these tables every attempt of the call reads back `receipt`. -/
structure Repeats (store : Store) (c : Call) (receipt : CommitReceipt) (db : Database) : Prop where
  settles : ∀ env, Settles
    (fun result => result = .ok receipt ∨ ∃ e, result = .error e ∧ e.Infrastructure)
    (attempt c.label (store.body c) env db) db
  clean : ∀ rounds, (rounds firstRound).others = [] → (rounds firstRound).env.Clean →
    store.commit c rounds db = (db, .ok receipt)

theorem HeadElement.repeats {db : Database} {head : HeadRow}
    {workload workload' : WorkloadIdentity} (hdb : Backed db)
    (h : HeadElement d chain db head workload raw root snapshot)
    (hlive : LiveHead db d.service.tenant head)
    (hchecked : RegistryChecked d.service raw root' snapshot') :
    ∃ row ∈ db.registries, row.key = (d.service.tenant, head.latestRevision) ∧
      Repeats d.store (.registry (d.service.registryRequest workload' raw root' snapshot'))
        (d.store.receiptOfRegistry row) db := by
  obtain ⟨revision, hrow⟩ := h.installed.row
  have hrevision : head.latestRevision = snapshot.revision := h.installed.revision
  obtain ⟨hroot, hsnapshot⟩ := h.checked.rooted.unique hchecked.rooted
  have hfound := Table.Keyed.find_mem hdb.oneRegistry hrow
  have hreads := commitRegistry_reads d.store
    (d.service.registryRequest workload' raw root' snapshot') head _ db hlive
    (by rw [← hsnapshot]; exact hrevision.symm) (by rw [← hsnapshot]; exact hfound)
    (registryRequest_matches hchecked h.checked workload' workload revision)
    (hdb.registryRevision _ hrow)
  have hvalid : (d.service.registryRequest workload' raw root' snapshot').validate = .ok () := by
    rw [← hroot, ← hsnapshot]
    exact h.installed.valid
  refine ⟨_, hrow, ?_, fun env => attempt_reads _ env hreads, ?_⟩
  · rw [hrevision]
    rfl
  · intro rounds hothers hclean
    have hcommit := commit_clean d.store (.registry (d.service.registryRequest workload' raw root'
      snapshot')) _ db hvalid rounds (by rw [hothers]; exact hreads) hclean
    rw [hcommit, hothers]
    rfl

end

end Run

/-- Whatever the order of the calls, a chain that is always sent in the same
bytes never halts its tenant, and its head gets its receipt again. -/
theorem honest_chain_not_halted (d : Deployment) (chain : List (Bytes × Snapshot))
    (hchain : HashChain d.service chain) (events : List Event) (h : Honest d chain events) :
    let db := (d.run {} events).db
    ¬ db.stopped d.service.tenant ∧
      ∀ head raw snapshot workload clock call, db.headOf d.service.tenant = some head →
        (raw, snapshot) ∈ chain → snapshot.revision = head.latestRevision →
        d.service.submitRegistry workload raw clock = .ok call →
        ∃ row ∈ db.registries, row.key = (d.service.tenant, head.latestRevision) ∧
          Repeats d.store call (d.store.receiptOfRegistry row) db := by
  intro db
  have hrunning := h.not_stopped hchain
  refine ⟨hrunning, ?_⟩
  intro head raw snapshot workload clock call hhead helement hrevision hcall
  obtain ⟨root', snapshot', hchecked, rfl⟩ := Service.submitRegistry_ok hcall
  obtain ⟨made, raw', root, snapshot'', hat⟩ := h.submitted.head hchain hhead
  have hstands : head.latestRevision = snapshot''.revision := hat.installed.revision
  have hsame := hchain.eq_of_revision hat.element helement (hrevision.trans hstands)
  have hraw : raw = raw' := congrArg Prod.fst hsame
  subst hraw
  have hlive : LiveHead db d.service.tenant head := by
    refine ⟨hhead, ?_⟩
    cases hhalted : head.halted with
    | false => rfl
    | true => exact absurd ⟨head, hhead, hhalted⟩ hrunning
  exact hat.repeats (run_accounted d events).backed hlive hchecked

theorem Service.hashChain_of_one {s : Service} {workload : WorkloadIdentity} {raw : Bytes}
    {clock : Clock} {r : CommitRegistryRequest}
    (h : s.submitRegistry workload raw clock = .ok (.registry r)) (hfirst : r.previousCommitment = []) :
    ∃ snapshot, HashChain s [(raw, snapshot)] ∧ snapshot.revision = r.revision := by
  obtain ⟨root, snapshot, hchecked, hcall⟩ := Service.submitRegistry_ok h
  cases hcall
  refine ⟨snapshot, ⟨?_, ?_, .singleton _⟩, rfl⟩
  · intro x hx
    cases List.mem_singleton.mp hx
    exact ⟨root, hchecked⟩
  · intro x hx
    cases hx
    exact hfirst

namespace Sample

def publications (raw : Bytes) : List Event :=
  [.submitRegistry publisher registry (second 20), .attempt 0 { nextval := 0 },
    .submitRegistry publisher raw (second 20), .attempt 1 { nextval := 1 }]

theorem edges_ordered :
    [(([101] : Bytes), (⟨[112], 1⟩ : RegistryEdge))].Pairwise fun a b => a.1 < b.1 := by
  simp

def registration : CommitRegistryRequest :=
  ⟨[116], 1, [114], commitment "72", registry, 1, [], some ⟨[([101], ⟨[112], 1⟩)], edges_ordered⟩, [112],
    [], text "verified_registry_admission"⟩

def reordered : Bytes :=
  let signature := string "signature" ++ 58 :: signatureText
  123 :: signature ++ 44 :: (registry.tail.take (registry.length - signature.length - 3)) ++ [125]

end Sample

theorem honest_chain_not_halted_sample :
    let d := Sample.deployment
    let db := (d.run {} (Sample.publications Sample.registry)).db
    ¬ db.stopped d.service.tenant ∧
      d.service.submitRegistry Sample.publisher Sample.registry (Sample.second 20) =
        .ok (.registry Sample.registration) ∧
      ∃ row ∈ db.registries, d.store.commit (.registry Sample.registration) Sample.quiet db =
        (db, .ok (d.store.receiptOfRegistry row)) := by
  intro d db
  have hadmitted : d.service.submitRegistry Sample.publisher Sample.registry (Sample.second 20) =
      .ok (.registry Sample.registration) := by
    decide +kernel
  obtain ⟨head, hhead, hstands⟩ : ∃ head, db.headOf d.service.tenant = some head ∧
      head.latestRevision = 1 := by
    have hmap : (db.headOf d.service.tenant).map HeadRow.latestRevision = some 1 := by
      decide +kernel
    exact Option.map_eq_some_iff.mp hmap
  obtain ⟨snapshot, hchain, hrevision⟩ := Service.hashChain_of_one hadmitted rfl
  have helements : Elements [(Sample.registry, snapshot)]
      (Sample.publications Sample.registry) := by
    intro workload raw clock hmem
    simp only [Sample.publications, List.mem_cons, Event.submitRegistry.injEq, reduceCtorEq,
      List.not_mem_nil, or_false, false_or] at hmem
    rcases hmem with ⟨-, hraw, -⟩ | ⟨-, hraw, -⟩
    all_goals
      rw [hraw]
      exact List.mem_singleton.mpr rfl
  obtain ⟨hrunning, hrepeats⟩ := honest_chain_not_halted d _ hchain _ (helements.honest hchain)
  obtain ⟨row, hrow, -, hrepeat⟩ := hrepeats head Sample.registry snapshot Sample.publisher
    (Sample.second 20) _ hhead (List.mem_singleton.mpr rfl) (hrevision.trans hstands.symm) hadmitted
  exact ⟨hrunning, hadmitted, row, hrow, hrepeat.clean Sample.quiet rfl ⟨rfl, by simp [Sample.quiet],
    rfl⟩⟩

-- where the signature stands is not part of what is signed
theorem reordered_signingBytes (p : Primitives) :
    p.signingBytes Sample.reordered = p.signingBytes Sample.registry := by
  have hstrip : stripUnsignedTopLevel Sample.reordered = stripUnsignedTopLevel Sample.registry := by
    decide +kernel
  unfold Primitives.signingBytes
  rw [hstrip]

/-- The same statement in other bytes halts the tenant. -/
theorem reencoded_head_halts :
    let d := Sample.deployment
    let st := d.run {} (Sample.publications Sample.reordered)
    (∀ p : Primitives, p.signingBytes Sample.reordered = p.signingBytes Sample.registry) ∧
      d.service.primitives.commitmentOf Sample.reordered = .ok (Sample.commitment "72") ∧
      st.calls.length = 2 ∧
      (st.db.headOf d.service.tenant).map (fun head => (head.latestRevision, head.halted)) =
        some (1, true) := by
  refine ⟨reordered_signingBytes, ?_⟩
  decide +kernel

end Snagline.Control
