import Snagline.Authority.Replay
import Snagline.Control.Client
import Snagline.Edge.Consumer

/-!
# Reading a delivery log page by page

A reader asks for a page, continues where the page says it is complete, and so
on, while the authority may commit more. Every page is accepted by the client
and by the reconciler of the edge, the pages together are one piece of the log,
and after no more pages than there are entries left the reader is at the end.
-/

namespace Snagline.Edge
open Kit Ssp Control Authority

structure PageRead where
  growth : List Authority.Event
  limit : ℤ

structure PageTurn where
  history : List Authority.Event
  after : ℤ
  limit : ℤ
  page : EdgeDeliveryPage

def pageTurns (store : Store) (q : EdgeDeliveryQuery) :
    List Authority.Event → ℤ → List PageRead → Except DeliveryReadError (List PageTurn)
  | _, _, [] => .ok []
  | es, after, read :: rest => do
    let page ← Authority.listEdgeDeliveries { q with afterSequence := after, limit := read.limit }
      (store.run {} (es ++ read.growth))
    let turns ← pageTurns store q (es ++ read.growth) page.completeThrough rest
    pure (⟨es ++ read.growth, after, read.limit, page⟩ :: turns)

/-! ### One page -/

section
variable {page : EdgeDeliveryPage} {log : EdgeLog} {k next : ℕ} {limit : ℤ}

/-- The page an authority with this log serves a reader that has seen `k` entries. -/
structure PageOf (log : EdgeLog) (k : ℕ) (limit : ℤ) (page : EdgeDeliveryPage)
    (next : ℕ) : Prop where
  within : next ≤ log.entries.length
  forward : k ≤ next
  short : (next : ℤ) ≤ k + limit
  progress : k < next ∨ next = log.entries.length
  deliveries : page.deliveries = (log.entries.drop k).take (next - k)
  highWatermark : page.highWatermark = log.entries.length
  completeThrough : page.completeThrough = next

theorem pageOf (log : EdgeLog) (k : ℕ) (limit : ℤ) (hk : k ≤ log.entries.length)
    (hlimit : 0 < limit) :
    PageOf log k limit (deliveryPage log.entries k limit)
      (min (k + limit.toNat) log.entries.length) where
  within := by omega
  forward := by omega
  short := by omega
  progress := by omega
  deliveries := by
    have hrest : (log.entries.drop k).length = log.entries.length - k := List.length_drop
    rw [log.page_deliveries, List.take_eq_take_iff, hrest]
    omega
  highWatermark := log.page_highWatermark k limit
  completeThrough := by
    rw [log.page_completeThrough k limit hlimit]
    omega

theorem PageOf.numbered (h : PageOf log k limit page next) (i : ℕ)
    (e : EdgeDelivery) (he : page.deliveries[i]? = some e) : e.sequence = k + 1 + i := by
  rw [h.deliveries, List.getElem?_take] at he
  split at he
  · rw [List.getElem?_drop] at he
    have hseq := log.sequence_eq (k + i) e he
    omega
  · cases he

theorem PageOf.length (h : PageOf log k limit page next) :
    page.deliveries.length = next - k := by
  have hwithin := h.within
  rw [h.deliveries, List.length_take, List.length_drop]
  omega

end

/-! ### What the client and the reconciler make of it -/

section
variable {page : EdgeDeliveryPage} {log : EdgeLog} {k next : ℕ} {limit : ℤ}

theorem checkItems_ok (entries : List EdgeDelivery) (expected : ℤ)
    (hnumbered : ∀ i e, entries[i]? = some e → e.sequence = expected + (i : ℕ))
    (hcomplete : ∀ e ∈ entries, e.Complete) :
    checkItems expected (entries.map deliveryResponse) = .ok () := by
  induction entries generalizing expected with
  | nil => rfl
  | cons e rest ih =>
    have hsequence : e.sequence = expected := by
      have h := hnumbered 0 e rfl
      omega
    have hrest := ih (expected + 1) (fun i x hx => by
      have h := hnumbered (i + 1) x (by simpa using hx)
      omega) (fun x hx => hcomplete x (List.mem_cons_of_mem _ hx))
    have he := hcomplete e List.mem_cons_self
    have hkind : kindText e.kind ≠ [] := by
      cases e.kind
      all_goals decide
    have hitem : (deliveryResponse e).expectedAt expected = true := by
      simp only [DeliveryResponse.expectedAt, deliveryResponse, hsequence, beq_self_eq_true,
        Bool.and_eq_true, Bool.not_eq_true', List.isEmpty_eq_false_iff, decide_eq_true_eq]
      exact ⟨⟨⟨⟨⟨⟨trivial, hkind⟩, he.caseID⟩, he.envelopeID⟩, he.commitment⟩, he.raw⟩,
        he.authorityRevision⟩
    show checkItems expected (deliveryResponse e :: rest.map deliveryResponse) = .ok ()
    unfold checkItems
    rw [hitem]
    exact hrest

theorem PageOf.client (h : PageOf log k limit page next)
    (hcomplete : ∀ e ∈ page.deliveries, e.Complete) :
    checkPage k (edgePageResponse page) = .ok (edgePageResponse page) := by
  have hforward := h.forward
  have hwithin := h.within
  have hbounds : (edgePageResponse page).inBounds k = true := by
    simp only [EdgeDeliveriesResponse.inBounds, edgePageResponse, h.highWatermark,
      h.completeThrough, List.length_map, h.length, Bool.and_eq_true, decide_eq_true_eq,
      beq_iff_eq]
    omega
  have hitems := checkItems_ok page.deliveries (k + 1) h.numbered hcomplete
  unfold checkPage
  rw [hbounds]
  show (checkItems (k + 1) (page.deliveries.map deliveryResponse) >>= fun _ =>
    pure (edgePageResponse page)) = _
  rw [hitems]
  rfl

theorem convert_numbered (c : JournalConsumer) (entries : List EdgeDelivery)
    (expected : ℤ)
    (hnumbered : ∀ i e, entries[i]? = some e → e.sequence = expected + (i : ℕ))
    (hcomplete : ∀ e ∈ entries, e.Complete) :
    ((∀ e ∈ entries, e.raw.length ≤ maxEnvelopeBytes) ∧
      c.convert expected entries = .ok (entries.map c.reconciled)) ∨
    ∃ e ∈ entries, maxEnvelopeBytes < e.raw.length ∧
      c.convert expected entries = .error (.invalidAuthorityDelivery e.sequence) := by
  induction entries generalizing expected with
  | nil => exact Or.inl ⟨by simp, rfl⟩
  | cons e rest ih =>
    have hsequence : e.sequence = expected := by
      have h := hnumbered 0 e rfl
      omega
    have he := hcomplete e List.mem_cons_self
    have hkind : (e.kind == .case || e.kind == .advice) = true := by
      have hregistry := he.kind
      cases hk : e.kind with
      | case | advice => rfl
      | registry => exact absurd hk hregistry
    have hentry : acceptableEntry expected e = decide (e.raw.length ≤ maxEnvelopeBytes) := by
      simp only [acceptableEntry, hsequence, hkind, beq_self_eq_true, bne, he.authorityRevision,
        beq_eq_false_iff_ne.mpr he.caseID, beq_eq_false_iff_ne.mpr he.envelopeID,
        beq_eq_false_iff_ne.mpr he.commitment, List.isEmpty_eq_false_iff.mpr he.raw, Bool.not_false,
        Bool.true_and, decide_true]
    by_cases hsize : e.raw.length ≤ maxEnvelopeBytes
    · have haccepted : acceptableEntry expected e = true := hentry.trans (decide_eq_true hsize)
      have hrest := ih (expected + 1) (fun i x hx => by
        have h := hnumbered (i + 1) x (by simpa using hx)
        omega) (fun x hx => hcomplete x (List.mem_cons_of_mem _ hx))
      unfold JournalConsumer.convert
      rw [haccepted]
      rcases hrest with ⟨hsized, hok⟩ | ⟨x, hx, hover, herror⟩
      · refine Or.inl ⟨?_, ?_⟩
        · intro x hx
          rcases List.mem_cons.mp hx with rfl | hx
          · exact hsize
          · exact hsized x hx
        · rw [hok]
          rfl
      · refine Or.inr ⟨x, List.mem_cons_of_mem _ hx, hover, ?_⟩
        rw [herror]
        rfl
    · have hrefused : acceptableEntry expected e = false := hentry.trans (decide_eq_false hsize)
      refine Or.inr ⟨e, List.mem_cons_self, by omega, ?_⟩
      unfold JournalConsumer.convert
      rw [hrefused, hsequence]
      rfl

theorem PageOf.reconciler (h : PageOf log k limit page next)
    (hcomplete : ∀ e ∈ page.deliveries, e.Complete) (c : JournalConsumer) (hlimit : c.limit = limit)
    (source : DeliverySource) (hsource : source c.identity.key k c.limit = some page) :
    ((∀ e ∈ page.deliveries, e.raw.length ≤ maxEnvelopeBytes) ∧
      c.fetchAfter source k =
        .ok ⟨page.deliveries.map c.reconciled, page.highWatermark, page.completeThrough⟩) ∨
    ∃ e ∈ page.deliveries, maxEnvelopeBytes < e.raw.length ∧
      c.fetchAfter source k = .error (.invalidAuthorityDelivery e.sequence) := by
  have hforward := h.forward
  have hwithin := h.within
  have hshort := h.short
  have hcursor : decide (0 ≤ (k : ℤ)) = true := decide_eq_true (Int.natCast_nonneg k)
  have hbounds : (decide ((k : ℤ) ≤ page.highWatermark) && decide ((k : ℤ) ≤ page.completeThrough) &&
      decide (page.completeThrough ≤ page.highWatermark) &&
      decide ((page.deliveries.length : ℤ) ≤ c.limit) &&
      ((page.deliveries.length : ℤ) == page.completeThrough - k)) = true := by
    simp only [h.highWatermark, h.completeThrough, h.length, hlimit, Bool.and_eq_true,
      decide_eq_true_eq, beq_iff_eq]
    omega
  unfold JournalConsumer.fetchAfter
  rw [hcursor, hsource]
  simp only [orFail, ok_bind, ensure_true, hbounds]
  rcases convert_numbered c page.deliveries (k + 1) h.numbered hcomplete with
    ⟨hsized, hok⟩ | ⟨e, he, hover, herror⟩
  · exact Or.inl ⟨hsized, by rw [hok]; rfl⟩
  · exact Or.inr ⟨e, he, hover, by rw [herror]; rfl⟩

end

/-! ### Page after page -/

section
variable {q : EdgeDeliveryQuery} {store : Store} {es : List Authority.Event}
  {turns : List PageTurn} {limit : ℤ}

/-- The edge is active at every read, and every limit is one the authority allows. -/
def Readable (store : Store) (q : EdgeDeliveryQuery) :
    List Authority.Event → List PageRead → Prop
  | _, [] => True
  | es, read :: rest =>
    0 < read.limit ∧ read.limit ≤ 1000 ∧
      activeEdge q (store.run {} (es ++ read.growth)) = .ok () ∧
      Readable store q (es ++ read.growth) rest

def logAt (store : Store) (q : EdgeDeliveryQuery) (es : List Authority.Event) :
    List EdgeDelivery := (store.edgeLog es q.log).entries

theorem logAt_grows (store : Store) (q : EdgeDeliveryQuery)
    (es later : List Authority.Event) : logAt store q es <+: logAt store q (es ++ later) := by
  have hgrows := run_grows store (store.run {} es) later
  rw [← run_append] at hgrows
  exact edgeLog_prefix hgrows q.log

theorem listEdgeDeliveries_page
    (hq : q.validate = .ok ()) (hlimit : 0 < limit)
    (hmax : limit ≤ 1000) (hactive : activeEdge q (store.run {} es) = .ok ()) {k : ℕ}
    (hk : k ≤ (logAt store q es).length) :
    ∃ page next, Authority.listEdgeDeliveries { q with afterSequence := k, limit := limit }
        (store.run {} es) = .ok page ∧
      (∀ e ∈ page.deliveries, e.Complete) ∧
      PageOf (store.edgeLog es q.log) k limit page next := by
  have hvalid : EdgeDeliveryQuery.validate
      { q with afterSequence := k, limit := limit } = .ok () := by
    unfold EdgeDeliveryQuery.validate at hq ⊢
    simp only [ensure_eq_ok, Bool.and_eq_true, decide_eq_true_eq] at hq ⊢
    obtain ⟨⟨⟨hidentity, -⟩, -⟩, -⟩ := hq
    exact ⟨⟨⟨hidentity, Int.natCast_nonneg k⟩, hlimit⟩, hmax⟩
  have hactive' : activeEdge { q with afterSequence := k, limit := limit }
      (store.run {} es) = .ok () := hactive
  refine ⟨_, _, ?_, ?_, pageOf (store.edgeLog es q.log) k limit hk hlimit⟩
  · unfold Authority.listEdgeDeliveries
    rw [hvalid, hactive']
    rfl
  · intro e he
    obtain ⟨r, hr, rfl⟩ := List.mem_map.mp (mem_deliveryPage he)
    exact reachable_delivering store es r (List.mem_of_mem_filter hr)

/-- What holds of the `i`-th page of a reader that started after `start` entries,
when `es` had happened. -/
structure Turned (store : Store) (q : EdgeDeliveryQuery)
    (es : List Authority.Event) (start : ℕ) (turns : List PageTurn) (i : ℕ) (t : PageTurn) :
    Prop where
  later : ∃ more, t.history = es ++ more
  page : ∃ k next : ℕ, t.after = k ∧ start ≤ k ∧
    PageOf (store.edgeLog t.history q.log) k t.limit t.page next
  complete : ∀ e ∈ t.page.deliveries, e.Complete
  pieces : (turns.take (i + 1)).flatMap (fun t => t.page.deliveries) =
    ((logAt store q t.history).drop start).take (t.page.completeThrough - start).toNat

-- the first page ends where the rest of the pages begin
theorem Turned.after {k next : ℕ} (t₀ : PageTurn)
    (h₀ : PageOf (store.edgeLog es q.log) k limit t₀.page next) {i : ℕ}
    {t : PageTurn} (h : Turned store q es next turns i t) :
    Turned store q es k (t₀ :: turns) (i + 1) t := by
  obtain ⟨more, hmore⟩ := h.later
  obtain ⟨k', next', hafter, hstart, hpage⟩ := h.page
  have hforward := h₀.forward
  have hwithin := h₀.within
  have hforward' := hpage.forward
  refine ⟨h.later, ⟨k', next', hafter, by omega, hpage⟩, h.complete, ?_⟩
  obtain ⟨tail, htail⟩ := logAt_grows store q es more
  rw [← hmore] at htail
  have hfirst : t₀.page.deliveries = ((logAt store q t.history).drop k).take (next - k) := by
    have hshort : next - k ≤ ((logAt store q es).drop k).length := by
      rw [List.length_drop]
      unfold logAt
      omega
    have hk : k ≤ (logAt store q es).length := by
      unfold logAt
      omega
    rw [h₀.deliveries, ← htail, List.drop_append_of_le_length hk,
      List.take_append_of_le_length hshort]
    rfl
  have hcount : (t.page.completeThrough - k).toNat =
      (next - k) + (t.page.completeThrough - next).toNat := by
    rw [hpage.completeThrough]
    omega
  have hdrop : (((logAt store q t.history).drop k).drop (next - k)) =
      (logAt store q t.history).drop next := by
    rw [List.drop_drop]
    congr 1
    omega
  rw [List.take_succ_cons, List.flatMap_cons, h.pieces, hfirst, hcount, List.take_add, hdrop]

theorem pageTurns_turned
    (hq : q.validate = .ok ()) (reads : List PageRead) (es : List Authority.Event) (k : ℕ)
    (hk : k ≤ (logAt store q es).length) (hreads : Readable store q es reads) :
    ∃ turns, pageTurns store q es k reads = .ok turns ∧ turns.length = reads.length ∧
      ∀ i t, turns[i]? = some t → Turned store q es k turns i t := by
  induction reads generalizing es k with
  | nil => exact ⟨[], rfl, rfl, by simp⟩
  | cons read rest ih =>
    obtain ⟨hlimit, hmax, hactive, hrest⟩ := hreads
    have hgrown := (logAt_grows store q es read.growth).length_le
    obtain ⟨page, next, hread, hcomplete, hpage⟩ :=
      listEdgeDeliveries_page hq hlimit hmax hactive (le_trans hk hgrown)
    obtain ⟨turns, hturns, hlength, hturned⟩ := ih (es ++ read.growth) next hpage.within hrest
    rw [← hpage.completeThrough] at hturns
    refine ⟨⟨es ++ read.growth, k, read.limit, page⟩ :: turns, ?_, by simp [hlength], ?_⟩
    · unfold pageTurns
      rw [hread, ok_bind, hturns]
      rfl
    · intro i t ht
      cases i with
      | zero =>
        cases ht
        refine ⟨⟨read.growth, rfl⟩, ⟨k, next, rfl, le_refl k, hpage⟩, hcomplete, ?_⟩
        have hcount : (page.completeThrough - k).toNat = next - k := by
          rw [hpage.completeThrough]
          omega
        rw [hcount, List.take_succ_cons, List.take_zero, List.flatMap_cons, List.flatMap_nil,
          List.append_nil]
        exact hpage.deliveries
      | succ i =>
        have hlater := Turned.after ⟨es ++ read.growth, k, read.limit, page⟩ hpage (hturned i t ht)
        obtain ⟨more, hmore⟩ := hlater.later
        exact ⟨⟨read.growth ++ more, by rw [hmore, List.append_assoc]⟩, hlater.page,
          hlater.complete, hlater.pieces⟩

theorem pageTurns_reach
    (hq : q.validate = .ok ()) (reads : List PageRead) (es : List Authority.Event) (k : ℕ)
    (hk : k ≤ (logAt store q es).length) (hreads : Readable store q es reads) (hturns : pageTurns store q es k reads = .ok turns)
    (hsome : reads ≠ [])
    (henough : (logAt store q (es ++ reads.flatMap PageRead.growth)).length ≤ k + reads.length) :
    ∃ t ∈ turns, t.page.completeThrough = t.page.highWatermark := by
  induction reads generalizing es k turns with
  | nil => exact absurd rfl hsome
  | cons read rest ih =>
    obtain ⟨hlimit, hmax, hactive, hrest⟩ := hreads
    have hgrown := (logAt_grows store q es read.growth).length_le
    obtain ⟨page, next, hread, -, hpage⟩ :=
      listEdgeDeliveries_page hq hlimit hmax hactive (le_trans hk hgrown)
    unfold pageTurns at hturns
    rw [hread, ok_bind, hpage.completeThrough] at hturns
    obtain ⟨later, hlater, hturns⟩ := bind_eq_ok.mp hturns
    cases hturns
    rcases hpage.progress with hmoved | hend
    · rw [List.flatMap_cons, ← List.append_assoc] at henough
      rw [List.length_cons] at henough
      by_cases hlast : rest = []
      · refine ⟨_, List.mem_cons_self, ?_⟩
        have hwithin := hpage.within
        rw [hlast] at henough
        simp only [List.flatMap_nil, List.append_nil, List.length_nil] at henough
        have hend : (logAt store q (es ++ read.growth)).length =
          (store.edgeLog (es ++ read.growth) q.log).entries.length := rfl
        rw [hpage.completeThrough, hpage.highWatermark]
        omega
      · obtain ⟨t, ht, hreached⟩ := ih (es ++ read.growth) next hpage.within hrest hlater hlast
          (by omega)
        exact ⟨t, List.mem_cons_of_mem _ ht, hreached⟩
    · refine ⟨_, List.mem_cons_self, ?_⟩
      rw [hpage.completeThrough, hpage.highWatermark, hend]

/-- Reading from a cursor within the log, with whatever limits and whatever is
committed meanwhile: the pages are the log after the cursor, in order and once;
the client takes every page, and so does the reconciler unless an entry is too
large to be an envelope; and the end is reached. -/
theorem paging_complete (store : Store) (es : List Authority.Event)
    (q : EdgeDeliveryQuery) (reads : List PageRead) (hq : q.validate = .ok ())
    (hcursor : q.afterSequence ≤ (logAt store q es).length) (hreads : Readable store q es reads) :
    ∃ turns, pageTurns store q es q.afterSequence reads = .ok turns ∧
      turns.length = reads.length ∧
      (∀ (i : ℕ) (t : PageTurn), turns[i]? = some t →
        t.page.highWatermark = (logAt store q t.history).length ∧
        (turns.take (i + 1)).flatMap (fun t => t.page.deliveries) =
          ((logAt store q t.history).drop q.afterSequence.toNat).take
            (t.page.completeThrough - q.afterSequence).toNat ∧
        (t.page.completeThrough = t.page.highWatermark →
          (turns.take (i + 1)).flatMap (fun t => t.page.deliveries) =
            (logAt store q t.history).drop q.afterSequence.toNat) ∧
        (t.after < t.page.completeThrough ∨ t.page.completeThrough = t.page.highWatermark) ∧
        checkPage t.after (edgePageResponse t.page) = .ok (edgePageResponse t.page) ∧
        ∀ (c : JournalConsumer) (source : DeliverySource), c.limit = t.limit →
          source c.identity.key t.after c.limit = some t.page →
          ((∀ e ∈ t.page.deliveries, e.raw.length ≤ maxEnvelopeBytes) ∧
            c.fetchAfter source t.after = .ok ⟨t.page.deliveries.map c.reconciled,
              t.page.highWatermark, t.page.completeThrough⟩) ∨
          ∃ e ∈ t.page.deliveries, maxEnvelopeBytes < e.raw.length ∧
            c.fetchAfter source t.after = .error (.invalidAuthorityDelivery e.sequence)) ∧
      (reads ≠ [] →
        ((logAt store q (es ++ reads.flatMap PageRead.growth)).length : ℤ) ≤
          q.afterSequence + reads.length →
        ∃ t ∈ turns, t.page.completeThrough = t.page.highWatermark) := by
  have hpositive : 0 ≤ q.afterSequence := by
    unfold EdgeDeliveryQuery.validate at hq
    simp only [ensure_eq_ok, Bool.and_eq_true, decide_eq_true_eq] at hq
    exact hq.1.1.2
  obtain ⟨k, hk⟩ := Int.eq_ofNat_of_zero_le hpositive
  rw [hk] at hcursor ⊢
  obtain ⟨turns, hturns, hlength, hturned⟩ :=
    pageTurns_turned hq reads es k (by exact_mod_cast hcursor) hreads
  refine ⟨turns, hturns, hlength, ?_, ?_⟩
  · intro i t ht
    have h := hturned i t ht
    obtain ⟨k', next, hafter, hstart, hpage⟩ := h.page
    have hforward := hpage.forward
    refine ⟨hpage.highWatermark, h.pieces, ?_, ?_, ?_, ?_⟩
    · intro hend
      rw [h.pieces]
      refine List.take_of_length_le ?_
      rw [List.length_drop, hend, hpage.highWatermark]
      show (logAt store q t.history).length - k ≤ ((logAt store q t.history).length - (k : ℤ)).toNat
      omega
    · rw [hafter, hpage.completeThrough, hpage.highWatermark]
      have hprogress := hpage.progress
      omega
    · rw [hafter]
      exact hpage.client h.complete
    · intro c source hlimit hsource
      rw [hafter] at hsource ⊢
      exact hpage.reconciler h.complete c hlimit source hsource
  · intro hsome henough
    exact pageTurns_reach hq reads es k (by exact_mod_cast hcursor) hreads hturns hsome
      (by exact_mod_cast henough)

end

namespace Sample

def pageQuery : EdgeDeliveryQuery := ⟨[116], [101], [112], 1, 0, 1⟩
def pageReads : List PageRead := [⟨[Authority.Sample.admission 1000], 1⟩, ⟨[], 1000⟩]

theorem pageReads_readable :
    Readable Authority.Sample.store pageQuery [Authority.Sample.adoption] pageReads :=
  ⟨by decide, by decide, by decide +kernel, by decide, by decide, by decide +kernel, trivial⟩

end Sample

theorem paging_complete_sample :
    ∃ turns, pageTurns Authority.Sample.store Sample.pageQuery [Authority.Sample.adoption] 0
        Sample.pageReads = .ok turns ∧ turns.length = 2 ∧
      ∃ t ∈ turns, t.page.completeThrough = t.page.highWatermark := by
  obtain ⟨turns, hturns, hlength, -, hreach⟩ := paging_complete Authority.Sample.store
    [Authority.Sample.adoption] Sample.pageQuery Sample.pageReads (by decide +kernel)
    (by decide +kernel) Sample.pageReads_readable
  exact ⟨turns, hturns, hlength, hreach (by simp [Sample.pageReads]) (by decide +kernel)⟩

end Snagline.Edge
