import Snagline.Kit.Fence
import Snagline.Authority.Backing
import Snagline.Authority.Chain

/-!
# Edge generations along the registry chain

The high-water table keeps one row for an edge: its highest generation, the
principal and the last registry that listed it. Checked against that row alone,
the accepted registries of a tenant are fenced: an edge never goes back to an
earlier generation, and a generation is one interval of revisions with one
principal.
-/

namespace Snagline.Authority
open Kit Ssp

/-! ### The accepted registries -/

def Store.accepted (store : Store) (db : Database) (e : Event) : List CommitRegistryRequest :=
  match e.call with
  | .registry r => if (store.step db e).registries = db.registries then [] else [r]
  | _ => []

def Store.chain (store : Store) (db : Database) : List Event → List CommitRegistryRequest
  | [] => []
  | e :: es => store.accepted db e ++ store.chain (store.step db e) es

def chainOf (tenantID : Bytes) (chain : List CommitRegistryRequest) : List CommitRegistryRequest :=
  chain.filter fun r => r.tenantID = tenantID

def CommitRegistryRequest.edge? (r : CommitRegistryRequest) (edgeID : Bytes) :
    Option RegistryEdge :=
  (Table.find Prod.fst edgeID r.edgeList).map Prod.snd

def CommitRegistryRequest.position (r : CommitRegistryRequest) : Position :=
  ⟨r.revision, r.commitment, r.routingEpoch⟩

theorem step_accepted (store : Store) (db : Database) (e : Event) :
    (store.accepted db e = [] ∧ (store.step db e).registries = db.registries ∧
      (store.step db e).highWater = db.highWater) ∨
    ∃ r revision, store.accepted db e = [r] ∧ r.validate = .ok () ∧
      r.Follows (db.headOf r.tenantID) ∧
      RegistryWritten r (db.headOf r.tenantID) revision db (store.step db e) := by
  have hchange := step_change store db e
  unfold Store.accepted
  generalize store.step db e = db' at hchange
  generalize e.call = c at hchange
  cases hchange with
  | none =>
    refine Or.inl ⟨?_, rfl, rfl⟩
    cases c <;> simp
  | case _ _ written | advice _ _ _ written => exact Or.inl ⟨rfl, written.registries, written.highWater⟩
  | registry r revision written valid next =>
    have hnew : ¬ db'.registries = db.registries := by
      rw [written.registries]
      intro hsame
      simp at hsame
    dsimp only
    rw [if_neg hnew]
    exact Or.inr ⟨r, revision, rfl, valid, next, written⟩
  | halted => exact Or.inl ⟨if_pos rfl, rfl, rfl⟩

/-! ### One registry -/

section
variable {r : CommitRegistryRequest} {edge : RegistryEdge} {edgeID : Bytes}

theorem edge?_eq_none (h : r.edge? edgeID = none) :
    ∀ e ∈ r.edgeList, e.1 ≠ edgeID :=
  Table.find_eq_none.mp (Option.map_eq_none_iff.mp h)

theorem edge?_eq_some
    (h : r.edge? edgeID = some edge) : (edgeID, edge) ∈ r.edgeList := by
  obtain ⟨⟨id, found⟩, hfound, rfl⟩ := Option.map_eq_some_iff.mp h
  obtain ⟨hmem, rfl⟩ := Table.find_eq_some hfound
  exact hmem

theorem advanceAll_edge (r : CommitRegistryRequest) (tenantID edgeID : Bytes)
    (rows : List HighWaterRow) :
    Table.find HighWaterRow.key (tenantID, edgeID) (r.advanceAll r.edgeList rows) =
      if r.tenantID = tenantID then
        ((r.edge? edgeID).map fun edge => r.highWater (edgeID, edge)).or
          (Table.find HighWaterRow.key (tenantID, edgeID) rows)
      else Table.find HighWaterRow.key (tenantID, edgeID) rows := by
  by_cases htenant : r.tenantID = tenantID
  · rw [if_pos htenant, ← htenant]
    cases hedge : r.edge? edgeID with
    | none =>
      have hother : ∀ e ∈ r.edgeList, (r.tenantID, edgeID) ≠ (r.tenantID, e.1) :=
        fun e he hsame => edge?_eq_none hedge e he (Prod.mk.inj hsame).2.symm
      rw [advanceAll_other r r.edgeList _ hother]
      rfl
    | some edge =>
      rw [advanceAll_own r r.edgeList r.edgeList_ordered (edgeID, edge) (edge?_eq_some hedge)]
      rfl
  · have hother : ∀ e ∈ r.edgeList, (tenantID, edgeID) ≠ (r.tenantID, e.1) :=
      fun e he hsame => htenant (Prod.mk.inj hsame).1.symm
    rw [if_neg htenant, advanceAll_other r r.edgeList _ hother]

-- the rows its predecessors left are those of other edges
theorem AdmitsAll.each {head : Option HeadRow}
    {edges : List (Bytes × RegistryEdge)} (hdistinct : edges.Pairwise fun a b => a.1 < b.1)
    {rows : List HighWaterRow} (h : r.AdmitsAll head edges rows) {e : Bytes × RegistryEdge}
    (he : e ∈ edges) :
    admitsEdge head e.2 (Table.find HighWaterRow.key (r.tenantID, e.1) rows) = true := by
  induction edges generalizing rows with
  | nil => cases he
  | cons x rest ih =>
    obtain ⟨hx, hrest⟩ := List.pairwise_cons.mp hdistinct
    rcases List.mem_cons.mp he with rfl | he
    · exact h.1
    · have hadmits := ih hrest h.2 he
      have hne : (r.tenantID, e.1) ≠ (r.tenantID, x.1) := by
        intro hsame
        have hlt := hx e he
        rw [(Prod.mk.inj hsame).2] at hlt
        exact List.lt_irrefl _ hlt
      rw [advance_find, if_neg hne] at hadmits
      exact hadmits

theorem admitsEdge_known {head : Option HeadRow} {row : HighWaterRow}
    (h : admitsEdge head edge (some row) = true) :
    row.highestGeneration < edge.generation ∨
      (edge = ⟨row.principalID, row.highestGeneration⟩ ∧
        ∃ current, head = some current ∧ row.lastSeenRegistryRevision = current.latestRevision) := by
  unfold admitsEdge at h
  simp only [Bool.or_eq_true, Bool.and_eq_true, decide_eq_true_eq, beq_iff_eq,
    Option.any_eq_true] at h
  rcases h with hlater | ⟨⟨hsame, current, hhead, hseen⟩, hprincipal⟩
  · exact Or.inl hlater
  · obtain ⟨principalID, generation⟩ := edge
    subst hsame hprincipal
    exact Or.inr ⟨rfl, current, hhead, hseen⟩

end

/-! ### The chain and the table -/

section
variable {chain : List CommitRegistryRequest} {tenantID : Bytes} {db : Database}
  {r : CommitRegistryRequest} {revision : ℤ}

def mentions (chain : List CommitRegistryRequest) (edgeID : Bytes) :
    List (CommitRegistryRequest × RegistryEdge) :=
  chain.filterMap fun r => (r.edge? edgeID).map fun edge => (r, edge)

theorem mem_mentions {edgeID : Bytes}
    {m : CommitRegistryRequest × RegistryEdge} (h : m ∈ mentions chain edgeID) :
    m.1 ∈ chain ∧ m.1.edge? edgeID = some m.2 := by
  obtain ⟨r, hr, hm⟩ := List.mem_filterMap.mp h
  obtain ⟨edge, hedge, rfl⟩ := Option.map_eq_some_iff.mp hm
  exact ⟨hr, hedge⟩

theorem latest_eq_mentions (chain : List CommitRegistryRequest) (edgeID : Bytes) :
    latest (chain.map fun r => r.edge? edgeID) = (mentions chain edgeID).getLast?.map Prod.snd := by
  unfold latest mentions
  rw [List.filterMap_map, ← List.getLast?_map, List.map_filterMap]
  congr 2
  funext r
  cases hedge : r.edge? edgeID with
  | none | some => simp [hedge]

structure Recorded (tenantID : Bytes) (db : Database) (chain : List CommitRegistryRequest) :
    Prop where
  rows : chain.map CommitRegistryRequest.position =
    (db.registriesOf tenantID).map RegistryRow.position
  known : ∀ edgeID, Table.find HighWaterRow.key (tenantID, edgeID) db.highWater =
    (mentions chain edgeID).getLast?.map fun m => m.1.highWater (edgeID, m.2)
  fenced : ∀ edgeID, Fenced RegistryEdge.generation (chain.map fun r => r.edge? edgeID)

theorem recorded_empty (tenantID : Bytes) : Recorded tenantID {} [] :=
  ⟨rfl, fun _ => rfl, fun _ => .nil⟩

theorem Recorded.revisions
    (h : Recorded tenantID db chain) (hchained : Chained db) :
    chain.IsChain fun r next => next.revision = r.revision + 1 := by
  have hpositions : ((db.registriesOf tenantID).map RegistryRow.position).IsChain
      fun p next => next.revision = p.revision + 1 := by
    rw [List.isChain_map]
    exact (hchained.linked tenantID).chain.imp fun _ _ hnext => hnext.1
  rw [← h.rows, List.isChain_map] at hpositions
  exact hpositions

theorem Recorded.unique
    (h : Recorded tenantID db chain) (hchained : Chained db) {r r' : CommitRegistryRequest}
    (hr : r ∈ chain) (hr' : r' ∈ chain) (hsame : r.revision = r'.revision) : r = r' := by
  have hlt : (chain.map CommitRegistryRequest.revision).IsChain (· < ·) := by
    rw [List.isChain_map]
    refine (h.revisions hchained).imp fun a b hnext => ?_
    omega
  have hnodup : (chain.map CommitRegistryRequest.revision).Nodup :=
    (List.isChain_iff_pairwise.mp hlt).imp fun hab => ne_of_lt hab
  exact List.inj_on_of_nodup_map hnodup hr hr' hsame

theorem Recorded.last
    (h : Recorded tenantID db chain) (hchained : Chained db) {head : HeadRow}
    (hhead : db.headOf tenantID = some head) :
    ∃ r, chain.getLast? = some r ∧ r.revision = head.latestRevision := by
  have hlast : chain.getLast?.map CommitRegistryRequest.position = some head.position := by
    rw [← List.getLast?_map, h.rows, List.getLast?_map, ← hchained.head tenantID, hhead]
    rfl
  obtain ⟨r, hr, hposition⟩ := Option.map_eq_some_iff.mp hlast
  exact ⟨r, hr, congrArg Position.revision hposition⟩

theorem Recorded.fence {db db' : Database} (h : Recorded r.tenantID db chain)
    (hchained : Chained db)
    (written : RegistryWritten r (db.headOf r.tenantID) revision db db') (edgeID : Bytes) :
    Fenced RegistryEdge.generation ((chain ++ [r]).map fun x => x.edge? edgeID) := by
  rw [List.map_append, List.map_singleton]
  cases hedge : r.edge? edgeID with
  | none => exact .absent (h.fenced edgeID)
  | some edge =>
    refine .present (h.fenced edgeID) edge ?_
    intro old hlatest
    rw [latest_eq_mentions] at hlatest
    obtain ⟨⟨seen, _⟩, hseen, rfl⟩ := Option.map_eq_some_iff.mp hlatest
    obtain ⟨hmem, hlisted⟩ := mem_mentions (List.mem_of_getLast? hseen)
    have hknown := h.known edgeID
    have hadmits := AdmitsAll.each r.edgeList_ordered written.admits (edge?_eq_some hedge)
    rw [hseen] at hknown
    rw [hknown] at hadmits
    rcases admitsEdge_known hadmits with hlater | ⟨hsame, current, hhead, hcurrent⟩
    · exact Or.inl hlater
    · -- the last registry that listed the edge is the last of the chain
      obtain ⟨last, hlast, hrevision⟩ := h.last hchained hhead
      have hseenLast : seen = last :=
        h.unique hchained hmem (List.mem_of_getLast? hlast) (hcurrent.trans hrevision.symm)
      refine Or.inr ⟨hsame.symm, ?_⟩
      rw [List.getLast?_map, hlast, ← hseenLast, Option.map_some, hlisted]

theorem Recorded.accept {db db' : Database} (h : Recorded r.tenantID db chain)
    (hchained : Chained db)
    (written : RegistryWritten r (db.headOf r.tenantID) revision db db') :
    Recorded r.tenantID db' (chain ++ [r]) where
  rows := by
    have hown : (r.row revision).tenantID = r.tenantID := rfl
    rw [registriesOf_append written.registries, if_pos hown, List.map_append, List.map_append,
      h.rows]
    rfl
  known := by
    intro edgeID
    rw [written.highWater, advanceAll_edge, if_pos rfl, h.known edgeID]
    unfold mentions
    rw [List.filterMap_append, List.getLast?_append]
    cases hedge : r.edge? edgeID with
    | none | some => simp [hedge]
  fenced := h.fence hchained written

theorem Recorded.step
    (h : Recorded tenantID db chain) (hchained : Chained db) (store : Store) (e : Event) :
    Recorded tenantID (store.step db e) (chain ++ chainOf tenantID (store.accepted db e)) := by
  rcases step_accepted store db e with ⟨hnone, hregistries, hhighWater⟩ |
    ⟨r, revision, hsome, hvalid, hnext, written⟩
  · rw [hnone]
    have hrows : (store.step db e).registriesOf tenantID = db.registriesOf tenantID := by
      unfold Database.registriesOf
      rw [hregistries]
    have hchain : chain ++ chainOf tenantID [] = chain := List.append_nil chain
    rw [hchain]
    exact ⟨hrows ▸ h.rows, hhighWater ▸ h.known, h.fenced⟩
  · rw [hsome]
    by_cases htenant : r.tenantID = tenantID
    · subst htenant
      have hown : chainOf r.tenantID [r] = [r] := by simp [chainOf]
      rw [hown]
      exact h.accept hchained written
    · have hother : chainOf tenantID [r] = [] := by simp [chainOf, htenant]
      have hrow : ¬ (r.row revision).tenantID = tenantID := htenant
      rw [hother, List.append_nil]
      refine ⟨?_, fun edgeID => ?_, h.fenced⟩
      · rw [registriesOf_append written.registries, if_neg hrow, List.append_nil]
        exact h.rows
      · rw [written.highWater, advanceAll_edge, if_neg htenant]
        exact h.known edgeID

theorem Recorded.run
    (h : Recorded tenantID db chain) (hchained : Chained db) (store : Store) (es : List Event) :
    Recorded tenantID (store.run db es) (chain ++ chainOf tenantID (store.chain db es)) := by
  induction es generalizing db chain with
  | nil =>
    have hchain : chain ++ chainOf tenantID (store.chain db []) = chain := List.append_nil chain
    rw [hchain]
    exact h
  | cons e es ih =>
    have hrest := ih (h.step hchained store e) (hchained.change (step_change store db e))
    unfold Store.chain
    unfold chainOf at hrest ⊢
    rw [List.filter_append, ← List.append_assoc]
    exact hrest

/-- The edge as the `k`-th registry of a chain lists it. -/
def listing (chain : List CommitRegistryRequest) (edgeID : Bytes) (k : ℕ) : Option RegistryEdge :=
  chain[k]?.bind fun r => r.edge? edgeID

theorem getElem?_edges (chain : List CommitRegistryRequest) (edgeID : Bytes) (k : ℕ)
    (edge : RegistryEdge) :
    (chain.map fun r => r.edge? edgeID)[k]? = some (some edge) ↔
      listing chain edgeID k = some edge := by
  unfold listing
  rw [List.getElem?_map]
  cases chain[k]? with
  | none | some => simp

/-- Whatever registries a history offers, those it accepts for a tenant have
consecutive revisions and fence every edge: generations do not fall, and from one
listing of a generation to another every registry lists the same entry. A
registry that is not accepted leaves the high-water table as it was. -/
theorem edge_generation_fencing (store : Store) (es : List Event) (tenantID : Bytes) :
    let chain := chainOf tenantID (store.chain {} es)
    chain.map CommitRegistryRequest.position =
      ((store.run {} es).registriesOf tenantID).map RegistryRow.position ∧
    (chain.IsChain fun r next => next.revision = r.revision + 1) ∧
    (∀ edgeID i j a b, i ≤ j → listing chain edgeID i = some a → listing chain edgeID j = some b →
      a.generation ≤ b.generation ∧
      (a.generation = b.generation → ∀ k, i ≤ k → k ≤ j → listing chain edgeID k = some a)) ∧
    (∀ db e, store.accepted db e = [] → (store.step db e).highWater = db.highWater) := by
  intro chain
  have hrecorded := (recorded_empty tenantID).run chained_empty store es
  have hrevisions := hrecorded.revisions (reachable_chained store es)
  refine ⟨hrecorded.rows, hrevisions, ?_, ?_⟩
  · intro edgeID i j a b hij hi hj
    have hat := getElem?_edges chain edgeID
    have hspans := (hrecorded.fenced edgeID).spans hij ((hat i a).mpr hi) ((hat j b).mpr hj)
    exact ⟨hspans.1, fun heq k hik hkj => (hat k a).mp (hspans.2 heq k hik hkj)⟩
  · intro db e hrejected
    rcases step_accepted store db e with ⟨-, -, hsame⟩ | ⟨r, revision, haccepted, -, -, -⟩
    · exact hsame
    · rw [hrejected] at haccepted
      cases haccepted

end

end Snagline.Authority
