import Snagline.Edge.Paging

/-!
# A delivery page on the wire

The server writes a page as one JSON value with the envelopes in base64; the client
reads at most a mebibyte of it. A page whose text fits comes back as it was sent. A
longer one is cut in the middle of the value, and the client gets no page at all.
-/

namespace Snagline.Edge
open Kit Ssp Control

/-! ### One delivery -/

variable (d : DeliveryResponse)

def deliveryMembers : Json.Members :=
  [(text "sequence", decimal d.sequence, .num (decimal d.sequence)),
    (text "kind", Json.quote d.kind, .str (Json.toValid d.kind)),
    (text "case_id", Json.quote d.caseID, .str (Json.toValid d.caseID)),
    (text "envelope_id", Json.quote d.envelopeID, .str (Json.toValid d.envelopeID)),
    (text "commitment", Json.quote d.commitment, .str (Json.toValid d.commitment)),
    (text "raw", Json.bytesText d.raw, .str (Base64.encodeStd d.raw)),
    (text "authority_revision", decimal d.authorityRevision, .num (decimal d.authorityRevision))]

theorem deliveryNames_plain : ∀ name ∈ deliveryNames, Json.isPlainName name = true := by
  decide

theorem delivery_spells : Json.Spells (deliveryText d) (.value (.obj (deliveryMembers d))) := by
  have hplain := deliveryNames_plain
  simp only [deliveryNames, List.forall_mem_cons] at hplain
  obtain ⟨h1, h2, h3, h4, h5, h6, h7, -⟩ := hplain
  refine Json.object_spells ?_
  exact .cons (Json.plainMember_spells h1 (.number Json.decimal_number)) <|
    .cons (Json.plainMember_spells h2 Json.quote_spells) <|
    .cons (Json.plainMember_spells h3 Json.quote_spells) <|
    .cons (Json.plainMember_spells h4 Json.quote_spells) <|
    .cons (Json.plainMember_spells h5 Json.quote_spells) <|
    .cons (Json.plainMember_spells h6 (Json.bytes_spells _)) <|
    .cons (Json.plainMember_spells h7 (.number Json.decimal_number)) .nil

def Int64 (n : ℤ) : Prop := -2 ^ 63 ≤ n ∧ n < 2 ^ 63

instance (n : ℤ) : Decidable (Int64 n) := inferInstanceAs (Decidable (_ ∧ _))

def received : DeliveryResponse :=
  ⟨d.sequence, Json.toValid d.kind, Json.toValid d.caseID, Json.toValid d.envelopeID,
    Json.toValid d.commitment, d.raw, d.authorityRevision⟩

theorem decodeDelivery_members : decodeDelivery (.obj (deliveryMembers d)) =
    (parseInt64 (decimal d.sequence)).bind fun sequence =>
      (Base64.decodeStd (Base64.encodeStd d.raw)).bind fun raw =>
      (parseInt64 (decimal d.authorityRevision)).bind fun authorityRevision =>
      some ⟨sequence, Json.toValid d.kind, Json.toValid d.caseID, Json.toValid d.envelopeID,
        Json.toValid d.commitment, raw, authorityRevision⟩ := by
  rfl

theorem parseInt64_iff (n m : ℤ) : parseInt64 (decimal n) = some m ↔ Int64 n ∧ m = n := by
  rw [Json.parseInt64_decimal]
  unfold Int64
  split
  · rename_i h
    rw [Option.some.injEq]
    exact ⟨fun heq => ⟨h, heq.symm⟩, fun heq => heq.2.symm⟩
  · rename_i h
    exact ⟨fun heq => (nomatch heq), fun heq => absurd heq.1 h⟩

theorem decodeDelivery_iff (d e : DeliveryResponse) :
    decodeDelivery (.obj (deliveryMembers d)) = some e ↔
      (Int64 d.sequence ∧ Int64 d.authorityRevision) ∧ e = received d := by
  rw [decodeDelivery_members, Base64.decodeStd_encodeStd]
  simp only [Option.bind_eq_some_iff, parseInt64_iff, Option.some.injEq]
  constructor
  · rintro ⟨_, ⟨hsequence, rfl⟩, _, rfl, _, ⟨hrevision, rfl⟩, rfl⟩
    exact ⟨⟨hsequence, hrevision⟩, rfl⟩
  · rintro ⟨⟨hsequence, hrevision⟩, rfl⟩
    exact ⟨_, ⟨hsequence, rfl⟩, _, rfl, _, ⟨hrevision, rfl⟩, rfl⟩

/-! ### The page -/

def deliveryItem : Bytes × Json :=
  (deliveryText d, .obj (deliveryMembers d))

variable (r : EdgeDeliveriesResponse)

def responseMembers : Json.Members :=
  [(text "deliveries", Json.arrayText (r.deliveries.map deliveryText),
      .arr (r.deliveries.map deliveryItem)),
    (text "high_watermark", decimal r.highWatermark, .num (decimal r.highWatermark)),
    (text "complete_through", decimal r.completeThrough, .num (decimal r.completeThrough))]

theorem deliveries_spells (ds : List DeliveryResponse) :
    Json.Spells (Json.arrayText (ds.map deliveryText)) (.value (.arr (ds.map deliveryItem))) := by
  have htexts : ds.map deliveryText = (ds.map deliveryItem).map Prod.fst := by
    rw [List.map_map]
    rfl
  rw [htexts]
  refine Json.array_spells fun x hx => ?_
  obtain ⟨d, -, rfl⟩ := List.mem_map.mp hx
  exact delivery_spells d

theorem responseNames_plain : ∀ name ∈ responseNames, Json.isPlainName name = true := by
  decide

theorem response_spells : Json.Spells (responseText r) (.value (.obj (responseMembers r))) := by
  have hplain := responseNames_plain
  simp only [responseNames, List.forall_mem_cons] at hplain
  obtain ⟨h1, h2, h3, -⟩ := hplain
  refine Json.object_spells ?_
  exact .cons (Json.plainMember_spells h1 (deliveries_spells r.deliveries)) <|
    .cons (Json.plainMember_spells h2 (.number Json.decimal_number)) <|
    .cons (Json.plainMember_spells h3 (.number Json.decimal_number)) .nil

def receivedPage : EdgeDeliveriesResponse :=
  ⟨r.deliveries.map received, r.highWatermark, r.completeThrough⟩

structure Numbers : Prop where
  deliveries : ∀ d ∈ r.deliveries, Int64 d.sequence ∧ Int64 d.authorityRevision
  highWatermark : Int64 r.highWatermark
  completeThrough : Int64 r.completeThrough

theorem decodeDeliveries_iff (ds es : List DeliveryResponse) :
    (ds.map deliveryItem).mapM (fun x => decodeDelivery x.2) = some es ↔
      (∀ d ∈ ds, Int64 d.sequence ∧ Int64 d.authorityRevision) ∧ es = ds.map received := by
  induction ds generalizing es with
  | nil =>
    rw [List.map_nil, List.mapM_nil]
    constructor
    · intro h
      cases h
      exact ⟨fun _ hd => (nomatch hd), rfl⟩
    · rintro ⟨-, rfl⟩
      rfl
  | cons d ds ih =>
    rw [List.map_cons, List.mapM_cons]
    simp only [Option.bind_eq_bind, Option.bind_eq_some_iff, ih, deliveryItem, decodeDelivery_iff,
      List.forall_mem_cons, List.map_cons]
    constructor
    · rintro ⟨_, ⟨hd, rfl⟩, _, ⟨hds, rfl⟩, h⟩
      cases h
      exact ⟨⟨hd, hds⟩, rfl⟩
    · rintro ⟨⟨hd, hds⟩, rfl⟩
      exact ⟨_, ⟨hd, rfl⟩, _, ⟨hds, rfl⟩, rfl⟩

theorem decodeResponse_iff (r r' : EdgeDeliveriesResponse) :
    decodeResponse (.obj (responseMembers r)) = some r' ↔ Numbers r ∧ r' = receivedPage r := by
  have hlookup : decodeResponse (.obj (responseMembers r)) =
      ((r.deliveries.map deliveryItem).mapM fun x => decodeDelivery x.2).bind fun deliveries =>
      (parseInt64 (decimal r.highWatermark)).bind fun highWatermark =>
      (parseInt64 (decimal r.completeThrough)).bind fun completeThrough =>
      some ⟨deliveries, highWatermark, completeThrough⟩ := rfl
  rw [hlookup]
  simp only [Option.bind_eq_some_iff, decodeDeliveries_iff, parseInt64_iff, Option.some.injEq]
  constructor
  · rintro ⟨_, ⟨hds, rfl⟩, _, ⟨hhigh, rfl⟩, _, ⟨hthrough, rfl⟩, rfl⟩
    exact ⟨⟨hds, hhigh, hthrough⟩, rfl⟩
  · rintro ⟨h, rfl⟩
    exact ⟨_, ⟨h.deliveries, rfl⟩, _, ⟨h.highWatermark, rfl⟩, _, ⟨h.completeThrough, rfl⟩, rfl⟩

/-! ### Through the limit -/

theorem readResponse_fits {r : EdgeDeliveriesResponse}
    (h : (responseText r).length ≤ responseLimit) :
    readResponse (writeJSON r) =
      match decodeResponse (.obj (responseMembers r)) with
      | none => .error .decodeResponse
      | some r' => .ok r' := by
  obtain ⟨rest, hrest, hseen⟩ : ∃ rest, Json.Space rest ∧
      (writeJSON r).take responseLimit = responseText r ++ rest := by
    refine ⟨[10].take (responseLimit - (responseText r).length), ?_, ?_⟩
    · intro b hb
      cases List.mem_singleton.mp (List.mem_of_mem_take hb)
      rfl
    · unfold writeJSON
      rw [List.take_append, List.take_of_length_le h]
  have hspells := response_spells r
  have hskip := hspells.skipSpace Json.space_nil rest
  have hfuel : (responseText r).length ≤ (responseText r ++ rest).length + 1 := by
    rw [List.length_append]
    omega
  have hread := hspells.read hfuel hrest.ends
  rw [List.nil_append] at hskip
  unfold readResponse
  dsimp only
  rw [hseen, hskip, hread]
  dsimp only
  rw [hrest.skip]
  rfl

theorem readResponse_cut {r : EdgeDeliveriesResponse}
    (h : responseLimit < (responseText r).length) :
    readResponse (writeJSON r) = .error .decodeResponse := by
  have hseen : (writeJSON r).take responseLimit = (responseText r).take responseLimit := by
    unfold writeJSON
    rw [List.take_append_of_le_length (by omega)]
  have hspells := response_spells r
  obtain ⟨t, ht⟩ : ∃ t, responseText r = 123 :: t := ⟨_, rfl⟩
  have hopen : (responseText r).take responseLimit = 123 :: t.take 1048575 := by
    rw [ht]
    rfl
  have hsplit : responseText r =
      (responseText r).take responseLimit ++ (responseText r).drop responseLimit :=
    (List.take_append_drop _ _).symm
  have hrest : (responseText r).drop responseLimit ≠ [] := by
    intro hnil
    have hlength := congrArg List.length hnil
    rw [List.length_drop, List.length_nil] at hlength
    omega
  have hskip : Json.skipSpace ((responseText r).take responseLimit) =
      (responseText r).take responseLimit := by
    rw [hopen]
    exact Json.skipSpace_cons (by decide) _
  have hnone : ∀ n, Json.parseValue n ((responseText r).take responseLimit) = none := by
    intro n
    rw [ht] at hspells hsplit hrest ⊢
    exact hspells.cut hsplit hrest n
  unfold readResponse
  dsimp only
  rw [hseen, hskip, hnone]

/-! ### A page served and received -/

section
variable (page : Authority.EdgeDeliveryPage) {workload : WorkloadIdentity} {r : EdgeRequest}
  {tenant : Bytes}

/-- The page fits into what the client reads, and its columns hold what such columns
of the database hold: text in UTF-8 and integers of 64 bits. -/
structure Portable (page : Authority.EdgeDeliveryPage) : Prop where
  size : (responseText (edgePageResponse page)).length ≤ responseLimit
  texts : ∀ d ∈ page.deliveries, Utf8 d.caseID ∧ Utf8 d.envelopeID ∧ Utf8 d.commitment
  numbers : Numbers (edgePageResponse page)

theorem toValid_kindText (kind : Authority.EntityKind) :
    Json.toValid (kindText kind) = kindText kind := by
  rw [Json.toValid_eq_self]
  cases kind
  all_goals exact utf8_ascii (by decide +kernel)

theorem received_iff (d : Authority.EdgeDelivery) :
    received (deliveryResponse d) = deliveryResponse d ↔
      Utf8 d.caseID ∧ Utf8 d.envelopeID ∧ Utf8 d.commitment := by
  simp only [received, deliveryResponse, DeliveryResponse.mk.injEq, toValid_kindText,
    Json.toValid_eq_self, true_and, and_true]

theorem receivedPage_iff :
    receivedPage (edgePageResponse page) = edgePageResponse page ↔
      ∀ d ∈ page.deliveries, Utf8 d.caseID ∧ Utf8 d.envelopeID ∧ Utf8 d.commitment := by
  simp only [receivedPage, edgePageResponse, EdgeDeliveriesResponse.mk.injEq, and_true,
    List.map_map, List.map_inj_left, Function.comp_apply, received_iff]

theorem readResponse_iff :
    readResponse (writeJSON (edgePageResponse page)) = .ok (edgePageResponse page) ↔
      Portable page := by
  constructor
  · intro h
    by_cases hsize : (responseText (edgePageResponse page)).length ≤ responseLimit
    · rw [readResponse_fits hsize] at h
      split at h
      · cases h
      · rename_i r' hdecode
        cases h
        obtain ⟨hnumbers, hsame⟩ := (decodeResponse_iff _ _).mp hdecode
        exact ⟨hsize, (receivedPage_iff page).mp hsame.symm, hnumbers⟩
    · rw [readResponse_cut (by omega)] at h
      cases h
  · intro h
    have hdecode := (decodeResponse_iff (edgePageResponse page) _).mpr ⟨h.numbers, rfl⟩
    rw [(receivedPage_iff page).mpr h.texts] at hdecode
    rw [readResponse_fits h.size, hdecode]

theorem reconcilePage_page {store : Authority.Store} {es : List Authority.Event}
    {page : Authority.EdgeDeliveryPage}
    (h : reconcilePage tenant workload r (store.run {} es) = .ok page)
    (hcursor : r.afterSequence ≤ page.highWatermark) :
    ∃ (k next : ℕ), r.afterSequence = k ∧ (∀ e ∈ page.deliveries, e.Complete) ∧
      PageOf (store.edgeLog es (tenant, r.edgeID, r.edgeGeneration)) k r.limit page next := by
  unfold reconcilePage at h
  obtain ⟨-, h⟩ := ensure_bind_eq_ok.mp h
  obtain ⟨hbounds, h⟩ := ensure_bind_eq_ok.mp h
  simp only [Bool.and_eq_true, decide_eq_true_eq] at hbounds
  obtain ⟨⟨hafter, hlimit⟩, hmax⟩ := hbounds
  obtain ⟨k, hk⟩ := Int.eq_ofNat_of_zero_le hafter
  generalize hq : Authority.EdgeDeliveryQuery.mk tenant r.edgeID workload.principalID
    r.edgeGeneration r.afterSequence r.limit = q at h
  cases hread : Authority.listEdgeDeliveries q (store.run {} es) with
  | error =>
    rw [hread] at h
    cases h
  | ok =>
    rw [hread] at h
    cases h
    have hlog : q.log = (tenant, r.edgeID, r.edgeGeneration) := by
      rw [← hq]
      rfl
    have hsame : { q with afterSequence := (k : ℤ), limit := r.limit } = q := by
      rw [← hq, hk]
    have hparts := hread
    unfold Authority.listEdgeDeliveries at hparts
    obtain ⟨⟨⟩, hvalid, hparts⟩ := bind_eq_ok.mp hparts
    obtain ⟨⟨⟩, hactive, hparts⟩ := bind_eq_ok.mp hparts
    have hhigh : page.highWatermark = (logAt store q es).length := by
      cases hparts
      exact (store.edgeLog es q.log).page_highWatermark q.afterSequence q.limit
    obtain ⟨page', next, hread', hcomplete, hpage⟩ := listEdgeDeliveries_page hvalid hlimit hmax
      hactive (k := k) (by omega)
    rw [hsame, hread] at hread'
    cases hread'
    rw [hlog] at hpage
    exact ⟨k, next, hk, hcomplete, hpage⟩

theorem listEdgeDeliveries_answered
    {q : Authority.EdgeDeliveryQuery} {db : Authority.Database}
    {page : Authority.EdgeDeliveryPage} (hsent : edgeRequest workload q = .ok r)
    (hserved : reconcilePage tenant workload r db = .ok page) :
    listEdgeDeliveries workload (fun r => reconcile tenant workload r db) q =
      readResponse (writeJSON (edgePageResponse page)) >>= checkPage q.afterSequence := by
  have hbody : reconcile tenant workload r db = .ok (writeJSON (edgePageResponse page)) := by
    unfold reconcile
    rw [hserved]
    rfl
  unfold listEdgeDeliveries
  rw [hsent, ok_bind]
  dsimp only
  rw [hbody]

/-- A query the server answers: the client gets the very page the server read, exactly
when that page fits. -/
theorem served_page_received (store : Authority.Store) (es : List Authority.Event) (tenant : Bytes)
    (workload : WorkloadIdentity) (q : Authority.EdgeDeliveryQuery) (r : EdgeRequest)
    (page : Authority.EdgeDeliveryPage) (hsent : edgeRequest workload q = .ok r)
    (hserved : reconcilePage tenant workload r (store.run {} es) = .ok page)
    (hcursor : q.afterSequence ≤ page.highWatermark) :
    listEdgeDeliveries workload (fun r => reconcile tenant workload r (store.run {} es)) q =
        .ok (edgePageResponse page) ↔ Portable page := by
  have hafter : r.afterSequence = q.afterSequence := by
    unfold edgeRequest at hsent
    obtain ⟨-, hsent⟩ := ensure_bind_eq_ok.mp hsent
    split at hsent
    · cases hsent
    · cases hsent
      rfl
  obtain ⟨k, next, hk, hcomplete, hpage⟩ := reconcilePage_page hserved (by omega)
  have hchecked := hpage.client hcomplete
  rw [listEdgeDeliveries_answered hsent hserved, ← readResponse_iff, ← hafter, hk]
  constructor
  · intro h
    obtain ⟨r', hread, hcheck⟩ := bind_eq_ok.mp h
    unfold checkPage at hcheck
    obtain ⟨-, hcheck⟩ := ensure_bind_eq_ok.mp hcheck
    obtain ⟨-, -, hcheck⟩ := bind_eq_ok.mp hcheck
    cases hcheck
    exact hread
  · intro h
    rw [h, ok_bind]
    exact hchecked

end

/-! ### A backlog that does not fit -/

theorem commas_length (ss : List Bytes) : (ss.map List.length).sum ≤ (Json.commas ss).length := by
  induction ss with
  | nil => simp [Json.commas]
  | cons s ss ih =>
    cases ss with
    | nil => simp [Json.commas]
    | cons t ss =>
      simp only [Json.commas, List.map_cons, List.sum_cons, List.length_append,
        List.length_cons] at ih ⊢
      omega

theorem deliveryText_length : (Base64.encodeStd d.raw).length ≤ (deliveryText d).length := by
  unfold deliveryText Json.objectText
  simp only [List.map_cons, List.map_nil, Json.commas, Json.memberText, Json.bytesText,
    List.length_cons, List.length_append]
  omega

theorem responseText_length : (r.deliveries.map fun d => 4 * ((d.raw.length + 2) / 3)).sum
    ≤ (responseText r).length := by
  have hitems : (r.deliveries.map fun d => 4 * ((d.raw.length + 2) / 3)).sum ≤
      ((r.deliveries.map deliveryText).map List.length).sum := by
    rw [List.map_map]
    refine List.sum_le_sum fun d _ => ?_
    have hlength := deliveryText_length d
    rw [Base64.encodeStd_length] at hlength
    exact hlength
  have hcommas := commas_length (r.deliveries.map deliveryText)
  unfold responseText Json.objectText Json.arrayText
  simp only [List.map_cons, List.map_nil, Json.commas, Json.memberText, List.length_cons,
    List.length_append]
  omega

theorem logAt_raw {store : Authority.Store} {q : Authority.EdgeDeliveryQuery}
    {es : List Authority.Event} {d : Authority.EdgeDelivery} (h : d ∈ logAt store q es) :
    ∃ e ∈ es, e.call.delivers = some d.raw := by
  obtain ⟨row, hrow, rfl⟩ := List.mem_map.mp h
  exact Authority.delivery_raw store es row (List.mem_of_mem_filter hrow)

namespace Sample

def backlogRequest (raw : Bytes) (digit : UInt8) : Authority.CommitCaseRequest where
  tenantID := [116]
  caseID := [99, digit]
  envelopeID := [100, digit]
  commitment := Authority.Sample.commitment digit
  raw := raw
  domain := [118]
  issuerEdgeID := [101]
  issuerEdgeGeneration := 1
  routingEpoch := 1
  registryRevision := 1
  registryHash := Authority.Sample.commitment 49
  expiresAt := 1000
  authenticatedPrincipalID := []
  authenticatedEdgeID := []
  decision := []

def backlog (digits : List UInt8) (raw : Bytes) : List Authority.Event :=
  Authority.Sample.adoption ::
    digits.mapIdx fun i digit => ⟨.case (backlogRequest raw digit), { nextval := i + 1 }⟩

def backlogQuery : Authority.EdgeDeliveryQuery := ⟨[116], [101], [112], 1, 0, 100⟩
def backlogRead : EdgeRequest := ⟨[101], 1, 0, 100⟩
def issuer : WorkloadIdentity := ⟨[112], [101], 1⟩

theorem backlog_page {es : List Authority.Event}
    (hactive : Authority.activeEdge backlogQuery (Authority.Sample.store.run {} es) = .ok ()) :
    ∃ page, reconcilePage [116] issuer backlogRead (Authority.Sample.store.run {} es) = .ok page ∧
      page.deliveries = (logAt Authority.Sample.store backlogQuery es).take 100 ∧
      page.highWatermark = (logAt Authority.Sample.store backlogQuery es).length ∧
      page.completeThrough = min 100 (logAt Authority.Sample.store backlogQuery es).length := by
  have hread : reconcilePage [116] issuer backlogRead (Authority.Sample.store.run {} es) =
      .ok (Authority.deliveryPage (logAt Authority.Sample.store backlogQuery es) 0 100) := by
    show (Authority.listEdgeDeliveries backlogQuery _).mapError ServerError.store = _
    unfold Authority.listEdgeDeliveries
    rw [hactive]
    rfl
  have hlog := (Authority.Sample.store.edgeLog es backlogQuery.log).page_deliveries 0 100
  have hthrough := (Authority.Sample.store.edgeLog es backlogQuery.log).page_completeThrough 0 100
    (by decide)
  refine ⟨_, hread, hlog, (Authority.Sample.store.edgeLog es backlogQuery.log).page_highWatermark 0 100, ?_⟩
  have hlength : (logAt Authority.Sample.store backlogQuery es).length =
    (Authority.Sample.store.edgeLog es backlogQuery.log).entries.length := rfl
  rw [hlength]
  refine Eq.trans hthrough ?_
  omega

def full : List Authority.Event :=
  backlog [50, 51, 52, 53, 54, 55, 56, 57, 97, 98, 99, 100] (List.replicate 65536 123)

theorem full_raw (d : Authority.EdgeDelivery)
    (h : d ∈ logAt Authority.Sample.store backlogQuery full) : d.raw.length = 65536 := by
  have hcase : d.raw = List.replicate 65536 123 := by
    obtain ⟨e, he, hraw⟩ := logAt_raw h
    rcases List.mem_cons.mp he with rfl | he
    · cases hraw
    · obtain ⟨i, hi, rfl⟩ := List.mem_mapIdx.mp he
      exact (Option.some.inj hraw).symm
  rw [hcase, List.length_replicate]

end Sample

/-- Twelve envelopes of the largest size: the server answers with a page, and the client,
whose query the server has answered, has nothing it can decode. -/
theorem backlog_page_lost :
    ∃ page, reconcilePage [116] Sample.issuer Sample.backlogRead
        (Authority.Sample.store.run {} Sample.full) = .ok page ∧
      page.highWatermark = 12 ∧ (∀ d ∈ page.deliveries, d.raw.length ≤ maxEnvelopeBytes) ∧
      listEdgeDeliveries Sample.issuer
          (fun r => reconcile [116] Sample.issuer r (Authority.Sample.store.run {} Sample.full))
          Sample.backlogQuery = .error .decodeResponse := by
  have hcount : (logAt Authority.Sample.store Sample.backlogQuery Sample.full).length = 12 := by
    decide +kernel
  obtain ⟨page, hserved, hdeliveries, hhigh, -⟩ :=
    @Sample.backlog_page Sample.full (by decide +kernel)
  rw [List.take_of_length_le (by omega)] at hdeliveries
  have hraw : ∀ d ∈ page.deliveries, d.raw.length = 65536 := by
    rw [hdeliveries]
    exact Sample.full_raw
  have hsizes : (page.deliveries.map fun d => 4 * ((d.raw.length + 2) / 3)) =
      List.replicate 12 87384 := by
    rw [List.eq_replicate_iff]
    refine ⟨by rw [List.length_map, hdeliveries, hcount], ?_⟩
    intro n hn
    obtain ⟨d, hd, rfl⟩ := List.mem_map.mp hn
    rw [hraw d hd]
  have hlong : responseLimit < (responseText (edgePageResponse page)).length := by
    have hroom := responseText_length (edgePageResponse page)
    have hsum : ((edgePageResponse page).deliveries.map fun d => 4 * ((d.raw.length + 2) / 3)) =
        List.replicate 12 87384 := by
      rw [← hsizes]
      exact List.map_map
    rw [hsum] at hroom
    exact lt_of_lt_of_le (by decide) hroom
  refine ⟨page, hserved, by rw [hhigh, hcount]; rfl, fun d hd => le_of_eq (hraw d hd), ?_⟩
  rw [listEdgeDeliveries_answered (r := Sample.backlogRead) (by decide) hserved,
    readResponse_cut hlong]
  rfl

/-- One small case: the client has the page the server read. -/
theorem served_page_received_sample :
    ∃ page, reconcilePage [116] Sample.issuer Sample.backlogRead
        (Authority.Sample.store.run {} (Sample.backlog [50] [123, 125])) = .ok page ∧
      page.deliveries.length = 1 ∧
      listEdgeDeliveries Sample.issuer (fun r => reconcile [116] Sample.issuer r
          (Authority.Sample.store.run {} (Sample.backlog [50] [123, 125]))) Sample.backlogQuery =
        .ok (edgePageResponse page) := by
  let es := Sample.backlog [50] [123, 125]
  have hlog : logAt Authority.Sample.store Sample.backlogQuery es =
      [⟨1, .case, [99, 50], [100, 50], Authority.Sample.commitment 50, [123, 125], 2⟩] := by
    decide
  obtain ⟨page, hserved, hdeliveries, hhigh, hthrough⟩ := @Sample.backlog_page es (by decide)
  rw [hlog] at hdeliveries hhigh hthrough
  obtain ⟨deliveries, highWatermark, completeThrough⟩ := page
  dsimp only at hdeliveries hhigh hthrough
  subst hdeliveries hhigh hthrough
  have hportable : Portable ⟨[⟨1, .case, [99, 50], [100, 50], Authority.Sample.commitment 50,
      [123, 125], 2⟩], 1, 1⟩ := by
    refine ⟨by decide +kernel, ?_, ?_, by decide, by decide⟩
    · intro d hd
      cases List.mem_singleton.mp hd
      simp only [← utf8Valid_iff]
      decide
    · intro d hd
      cases List.mem_singleton.mp hd
      decide
  refine ⟨_, hserved, rfl, ?_⟩
  exact (served_page_received Authority.Sample.store es [116] Sample.issuer Sample.backlogQuery
    Sample.backlogRead _ (by decide) hserved (by decide)).mpr hportable

end Snagline.Edge
