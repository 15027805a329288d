import Snagline.Control.Client
import Snagline.Control.Resubmission
import Snagline.Kit.Url

/-!
# The control URLs (controlclient/client.go:47-72, 113-193, controlhttp/server.go:83-212)

The URL a client builds for a case or for an edge's deliveries, the request line it
sends, and the operation the server takes it for. An identifier is escaped as one
path element; what becomes of it depends on the resolution of the reference and on
the server, which splits the decoded path.
-/

namespace Snagline.Control
open Kit Ssp Authority Json Url

/-! ### The client -/

/-- The endpoint `New` accepts. -/
def newEndpoint (config : Bytes) : Option Url := do
  let endpoint ← parse config
  guard (endpoint.scheme == text "https" && endpoint.rootless.isEmpty && !endpoint.host.isEmpty &&
    -- no user in front of the host
    !endpoint.host.contains 64 && (endpoint.path.value.isEmpty || endpoint.path.value == [47]) &&
    endpoint.path.raw.isEmpty && endpoint.rawQuery.isEmpty && !endpoint.forceQuery &&
    endpoint.fragment.value.isEmpty)
  some endpoint

/-- `Client.call` up to the target on the request line. -/
def call (endpoint : Url) (path : Bytes) : Option Bytes := do
  let relative ← parse path
  guard (relative.scheme.isEmpty && relative.host.isEmpty && relative.path.value.head? == some 47)
  let request ← parse (endpoint.resolveReference relative).string
  some request.requestURI

def casePath (caseID commitment : Bytes) : Bytes :=
  text "/v1/cases/" ++ escape .pathSegment caseID ++ text "?commitment=" ++
    escape .queryComponent commitment

def edgePath (r : EdgeRequest) : Bytes :=
  text "/v1/edges/" ++ escape .pathSegment r.edgeID ++ text "/generations/" ++
    decimal r.edgeGeneration ++ text "/deliveries?after_sequence=" ++ decimal r.afterSequence ++
    text "&limit=" ++ decimal r.limit

def validCommitment (value : Bytes) : Bool := sha256Hex value

/-- What `Client.ResolveCase` asks for. -/
def resolveCaseTarget (endpoint : Url) (caseID commitment : Bytes) : Option Bytes := do
  guard (!caseID.isEmpty && validCommitment commitment)
  call endpoint (casePath caseID commitment)

/-- What `Client.ListEdgeDeliveries` asks for. -/
def listEdgeDeliveriesTarget (endpoint : Url) (workload : WorkloadIdentity)
    (q : EdgeDeliveryQuery) : Option Bytes := do
  let request ← (edgeRequest workload q).toOption
  call endpoint (edgePath request)

/-! ### The server -/

inductive Method where
  | get | post | other
  deriving DecidableEq

structure ErrorAnswer where
  status : ℕ
  code : String
  deriving DecidableEq

inductive Operation where
  | submit (registry : Bool)
  | resolveCase (caseID commitment : Bytes)
  | resolveRegistry (revision : ℤ) (commitment : Bytes)
  | reconcile (r : EdgeRequest)
  deriving DecidableEq

namespace Server

def casesRoot : Bytes := text "/v1/cases/"
def registriesRoot : Bytes := text "/v1/registries/"
def edgesRoot : Bytes := text "/v1/edges/"

/-- `strings.TrimPrefix`. -/
def trimmed (root path : Bytes) : Bytes :=
  if root.isPrefixOf path then path.drop root.length else path

def resolveCase (u : Url) : Except ErrorAnswer Operation := do
  let caseID := trimmed casesRoot u.path.value
  ensure (!caseID.isEmpty && !caseID.contains 47) ⟨400, "invalid_case_query"⟩
  let commitment := Url.get u.query (text "commitment")
  ensure (!commitment.isEmpty) ⟨400, "invalid_case_query"⟩
  pure (.resolveCase caseID commitment)

def resolveRegistry (u : Url) : Except ErrorAnswer Operation := do
  let revisionText := trimmed registriesRoot u.path.value
  ensure (!revisionText.isEmpty && !revisionText.contains 47) ⟨400, "invalid_registry_query"⟩
  let revision ← orFail (parseInt64 revisionText) ⟨400, "invalid_registry_query"⟩
  let commitment := Url.get u.query (text "commitment")
  ensure (0 < revision && !commitment.isEmpty) ⟨400, "invalid_registry_query"⟩
  pure (.resolveRegistry revision commitment)

def queryNumber (u : Url) (name : String) (absent : ℤ) : Option ℤ :=
  let value := Url.get u.query (text name)
  if value.isEmpty then some absent else parseInt64 value

def edgePage (u : Url) : Option (ℤ × ℤ) := do
  let after ← queryNumber u "after_sequence" 0
  guard (0 ≤ after)
  let limit ← queryNumber u "limit" 100
  guard (1 ≤ limit && limit ≤ 1000)
  some (after, limit)

def edgeParts : List Bytes → Option (Bytes × Bytes)
  | [edgeID, generations, generation, deliveries] =>
    if !edgeID.isEmpty && generations == text "generations" && deliveries == text "deliveries" then
      some (edgeID, generation)
    else none
  | _ => none

variable (workload : WorkloadIdentity)

def reconcile (u : Url) : Except ErrorAnswer Operation := do
  let (edgeID, generationText) ← orFail (edgeParts ((trimmed edgesRoot u.path.value).splitOn 47))
    ⟨404, "not_found"⟩
  let generation ← orFail (parseInt64 generationText) ⟨403, "forbidden"⟩
  ensure (0 < generation && workload.edgeID == edgeID && workload.edgeGeneration == generation)
    ⟨403, "forbidden"⟩
  let (after, limit) ← orFail (edgePage u) ⟨400, "invalid_edge_query"⟩
  pure (.reconcile ⟨edgeID, generation, after, limit⟩)

/-- `Server.ServeHTTP` for an identified workload. -/
def serveHTTP (method : Method) (u : Url) : Except ErrorAnswer Operation :=
  let path := u.path.value
  if method = .post ∧ path = text "/v1/registries" then pure (.submit true)
  else if method = .post ∧ path = text "/v1/cases" then pure (.submit false)
  else if method = .post ∧ path = text "/v1/advice" then pure (.submit false)
  else if method = .get ∧ casesRoot.isPrefixOf path then resolveCase u
  else if method = .get ∧ registriesRoot.isPrefixOf path then resolveRegistry u
  else if method = .get ∧ edgesRoot.isPrefixOf path then reconcile workload u
  else .error ⟨404, "not_found"⟩

/-- A request line, which `net/http` reads before the handler sees it. -/
def serve (method : Method) (target : Bytes) : Except ErrorAnswer Operation := do
  let u ← orFail (parseRequestURI target) ⟨400, "bad_request"⟩
  serveHTTP workload method u

end Server

/-! ### What is on the request line -/

section Target
variable {config : Bytes} {endpoint : Url}

theorem newEndpoint_parts (h : newEndpoint config = some endpoint) :
    endpoint.scheme = text "https" ∧ endpoint.host ≠ [] ∧
      ∀ b ∈ endpoint.host, inside b = true ∧ b ≠ 47 := by
  unfold newEndpoint at h
  obtain ⟨u, hparse, h⟩ := Option.bind_eq_some_iff.mp h
  obtain ⟨_, hguard, h⟩ := Option.bind_eq_some_iff.mp h
  cases h
  simp only [Option.guard_eq_some', Bool.and_eq_true, beq_iff_eq, Bool.not_eq_true',
    List.isEmpty_eq_false_iff] at hguard
  exact ⟨hguard.1.1.1.1.1.1.1.1, hguard.1.1.1.1.1.1.2, parse_host hparse⟩

theorem call_request (hendpoint : newEndpoint config = some endpoint)
    {path value path' value' query : Bytes} (h : Spells path value) (h' : Spells path' value')
    (hresolved : resolvePath [] path = path') (hquery : Asks query) :
    call endpoint (path ++ 63 :: query) = some (path' ++ 63 :: query) := by
  obtain ⟨hscheme, hsome, hhost⟩ := newEndpoint_parts hendpoint
  obtain ⟨part, hpart, hvalue, hspelling⟩ := h.part
  obtain ⟨part', hpart', -, hspelling'⟩ := h'.part
  unfold call
  simp only [parse_request h hquery hpart, Option.bind_eq_bind, Option.bind_some, hvalue,
    h.value_rooted, List.isEmpty_nil, Bool.and_self, beq_self_eq_true, guard_true,
    resolveReference_request h hvalue hspelling hresolved hpart',
    string_request hscheme hsome h' hspelling' hquery,
    parse_absolute h' hquery hpart' hhost, requestURI_request h' hspelling' hquery]
  rfl

theorem serve_request (workload : WorkloadIdentity) (method : Method) {path value query : Bytes}
    (h : Spells path value) (hquery : Asks query) :
    ∃ u : Url, u.path.value = value ∧ u.rawQuery = query ∧
      Server.serve workload method (path ++ 63 :: query) = Server.serveHTTP workload method u := by
  obtain ⟨part, hpart, hvalue, -⟩ := h.part
  refine ⟨{ path := part, rawQuery := query }, hvalue, rfl, ?_⟩
  unfold Server.serve parseRequestURI
  rw [parseNoFragment_request true h hquery hpart]
  rfl

end Target

/-! ### Elements and values of the two requests -/

def Addressable (id : Bytes) : Prop := id ≠ dot ∧ id ≠ dotDot ∧ 47 ∉ id

instance (id : Bytes) : Decidable (Addressable id) := inferInstanceAs (Decidable (_ ∧ _ ∧ _))

def caseElems (caseID : Bytes) : List Bytes := [text "v1", text "cases", caseID]

def edgeElems (r : EdgeRequest) : List Bytes :=
  [text "v1", text "edges", r.edgeID, text "generations", decimal r.edgeGeneration,
    text "deliveries"]

def casePairs (commitment : Bytes) : List (Bytes × Bytes) := [(text "commitment", commitment)]

def edgePairs (r : EdgeRequest) : List (Bytes × Bytes) :=
  [(text "after_sequence", decimal r.afterSequence), (text "limit", decimal r.limit)]

theorem casePath_eq (caseID commitment : Bytes) :
    casePath caseID commitment =
      joined ((caseElems caseID).map (escape .pathSegment)) ++
        63 :: queryText (casePairs commitment) := by
  have hroot : text "/v1/cases/" = 47 :: escape .pathSegment (text "v1") ++
      47 :: escape .pathSegment (text "cases") ++ [47] := by decide
  have hname : text "?commitment=" = 63 :: escape .queryComponent (text "commitment") ++ [61] := by
    decide
  unfold casePath
  rw [hroot, hname]
  simp [joined, caseElems, queryText, casePairs, pairText, List.intercalate]

theorem escape_decimal (mode : Mode) {n : ℤ} (h : 0 ≤ n) :
    escape mode (decimal n) = decimal n := by
  apply escape_kept
  intro b hb
  rw [decimal, if_neg (by omega)] at hb
  have hdigit : isDigit b = true := (decimalNat_digits n.natAbs).all b hb
  simp [shouldEscape, hdigit]

theorem edgePath_eq {r : EdgeRequest} (hgeneration : 0 ≤ r.edgeGeneration)
    (hafter : 0 ≤ r.afterSequence) (hlimit : 0 ≤ r.limit) :
    edgePath r = joined ((edgeElems r).map (escape .pathSegment)) ++
      63 :: queryText (edgePairs r) := by
  have hroot : text "/v1/edges/" = 47 :: escape .pathSegment (text "v1") ++
      47 :: escape .pathSegment (text "edges") ++ [47] := by decide
  have hgenerations : text "/generations/" =
      47 :: escape .pathSegment (text "generations") ++ [47] := by decide
  have hdeliveries : text "/deliveries?after_sequence=" =
      47 :: escape .pathSegment (text "deliveries") ++
        63 :: escape .queryComponent (text "after_sequence") ++ [61] := by decide
  have hname : text "&limit=" = 38 :: escape .queryComponent (text "limit") ++ [61] := by
    decide
  unfold edgePath
  rw [hroot, hgenerations, hdeliveries, hname]
  simp [joined, edgeElems, queryText, edgePairs, pairText, List.intercalate,
    escape_decimal _ hgeneration, escape_decimal _ hafter, escape_decimal _ hlimit]

/-! ### What the server takes them for -/

section Served
variable {workload : WorkloadIdentity} {u : Url}

theorem trimmed_append (root rest : Bytes) : Server.trimmed root (root ++ rest) = rest := by
  simp [Server.trimmed]

theorem caseElems_value (caseID : Bytes) :
    joined (caseElems caseID) = Server.casesRoot ++ caseID := by
  have hroot : Server.casesRoot = 47 :: text "v1" ++ 47 :: text "cases" ++ [47] := by decide
  rw [hroot]
  simp [joined, caseElems]

theorem validCommitment_some {commitment : Bytes} (h : validCommitment commitment = true) :
    commitment.isEmpty = false := by
  cases commitment with
  | nil => cases h
  | cons => rfl

theorem serveHTTP_case {caseID commitment : Bytes} (hpath : u.path.value = joined (caseElems caseID))
    (hquery : u.rawQuery = queryText (casePairs commitment))
    (hcommitment : validCommitment commitment = true) :
    Server.serveHTTP workload .get u =
      if caseID = [] ∨ 47 ∈ caseID then .error ⟨400, "invalid_case_query"⟩
      else .ok (.resolveCase caseID commitment) := by
  rw [caseElems_value] at hpath
  have hvalue : Url.get u.query (text "commitment") = commitment := by
    rw [query_queryText (by simp [casePairs]) hquery]
    simp [Url.get, casePairs]
  have hserve : Server.serveHTTP workload .get u = Server.resolveCase u := by
    simp [Server.serveHTTP, hpath]
  rw [hserve]
  unfold Server.resolveCase
  rw [hpath, trimmed_append, hvalue]
  by_cases hid : caseID = [] ∨ 47 ∈ caseID
  · rw [if_pos hid]
    have hrefused : (!caseID.isEmpty && !caseID.contains 47) = false := by
      rcases hid with rfl | hid
      · rfl
      · simp [hid]
    simp only [hrefused]
    rfl
  · rw [if_neg hid]
    have hpassed : (!caseID.isEmpty && !caseID.contains 47) = true := by
      rw [not_or] at hid
      simp [hid.1, hid.2]
    simp only [hpassed, validCommitment_some hcommitment]
    rfl

variable (r : EdgeRequest)

theorem edgeElems_value :
    joined (edgeElems r) = Server.edgesRoot ++ (r.edgeID ++ 47 :: (text "generations" ++
      47 :: (decimal r.edgeGeneration ++ 47 :: text "deliveries"))) := by
  have hroot : Server.edgesRoot = 47 :: text "v1" ++ 47 :: text "edges" ++ [47] := by decide
  rw [hroot]
  simp [joined, edgeElems]

theorem decimal_no_slash {n : ℤ} (h : 0 ≤ n) : 47 ∉ decimal n := by
  intro hb
  rw [decimal, if_neg (by omega)] at hb
  have hdigit : isDigit 47 = true := (decimalNat_digits n.natAbs).all 47 hb
  cases hdigit

theorem splitOn_whole {bs : Bytes} (h : 47 ∉ bs) : bs.splitOn 47 = [bs] := by
  have hsplit : (List.intercalate [47] [bs]).splitOn 47 = [bs] :=
    splitOn_segments (by simpa using h) (by simp)
  simpa [List.intercalate] using hsplit

theorem splitOn_edge (hgeneration : 0 ≤ r.edgeGeneration) :
    (r.edgeID ++ 47 :: (text "generations" ++ 47 :: (decimal r.edgeGeneration ++
      47 :: text "deliveries"))).splitOn 47 =
      r.edgeID.splitOn 47 ++ [text "generations", decimal r.edgeGeneration, text "deliveries"] := by
  have hgenerations : (text "generations").splitOn 47 = [text "generations"] :=
    splitOn_whole (by decide)
  have hdeliveries : (text "deliveries").splitOn 47 = [text "deliveries"] :=
    splitOn_whole (by decide)
  rw [List.splitOn_append_cons_self, List.splitOn_append_cons_self, List.splitOn_append_cons_self,
    hgenerations, splitOn_whole (decimal_no_slash hgeneration), hdeliveries]
  rfl

theorem edgeParts_none {parts : List Bytes} (h : parts.length ≠ 4) :
    Server.edgeParts parts = none := by
  unfold Server.edgeParts
  split
  · exact absurd rfl h
  · rfl

theorem edgeParts_edge {r : EdgeRequest} (hsome : r.edgeID ≠ []) :
    Server.edgeParts (r.edgeID.splitOn 47 ++
      [text "generations", decimal r.edgeGeneration, text "deliveries"]) =
      if 47 ∈ r.edgeID then none else some (r.edgeID, decimal r.edgeGeneration) := by
  split
  · rename_i hslash
    obtain ⟨before, after, hid⟩ := List.append_of_mem hslash
    rw [hid, List.splitOn_append_cons_self]
    have hbefore := List.length_pos_of_ne_nil (List.splitOn_ne_nil 47 before)
    have hafter := List.length_pos_of_ne_nil (List.splitOn_ne_nil 47 after)
    apply edgeParts_none
    simp only [List.length_append, List.length_cons, List.length_nil]
    omega
  · rename_i hslash
    rw [splitOn_whole hslash]
    have hsome' : r.edgeID.isEmpty = false := List.isEmpty_eq_false_iff.mpr hsome
    simp [Server.edgeParts, hsome']

theorem edgePage_edge {r : EdgeRequest} (hquery : u.rawQuery = queryText (edgePairs r))
    (hafter : 0 ≤ r.afterSequence) (hafter' : r.afterSequence < 2 ^ 63) (hlimit : 1 ≤ r.limit)
    (hlimit' : r.limit ≤ 1000) : Server.edgePage u = some (r.afterSequence, r.limit) := by
  have hvalues := query_queryText (by simp [edgePairs]) hquery
  have hname : (text "after_sequence" == text "limit") = false := by decide
  have hsome : ∀ n : ℤ, 0 ≤ n → (decimal n).isEmpty = false := by
    intro n hn
    rw [decimal, if_neg (by omega)]
    simpa using (decimalNat_digits n.natAbs).nonempty
  have hafterRead : parseInt64 (decimal r.afterSequence) = some r.afterSequence := by
    rw [parseInt64_decimal, if_pos (by omega)]
  have hlimitRead : parseInt64 (decimal r.limit) = some r.limit := by
    rw [parseInt64_decimal, if_pos (by omega)]
  have hfirst : Server.queryNumber u "after_sequence" 0 = some r.afterSequence := by
    simp [Server.queryNumber, hvalues, Url.get, edgePairs, hsome _ hafter, hafterRead]
  have hsecond : Server.queryNumber u "limit" 100 = some r.limit := by
    simp [Server.queryNumber, hvalues, Url.get, edgePairs, List.find?, hname,
      hsome _ (show 0 ≤ r.limit by omega), hlimitRead]
  unfold Server.edgePage
  simp [hfirst, hsecond, hafter, hlimit, hlimit']

theorem serveHTTP_edges {rest : Bytes} (hpath : u.path.value = Server.edgesRoot ++ rest) :
    Server.serveHTTP workload .get u = Server.reconcile workload u := by
  have hcases : Server.casesRoot.isPrefixOf (Server.edgesRoot ++ rest) = false := rfl
  have hregistries : Server.registriesRoot.isPrefixOf (Server.edgesRoot ++ rest) = false := rfl
  simp [Server.serveHTTP, hpath, hcases, hregistries]

theorem serveHTTP_edge {r : EdgeRequest} (hpath : u.path.value = joined (edgeElems r))
    (hquery : u.rawQuery = queryText (edgePairs r)) (hsome : r.edgeID ≠ [])
    (hid : workload.edgeID = r.edgeID) (hgeneration : workload.edgeGeneration = r.edgeGeneration)
    (hpositive : 0 < r.edgeGeneration) (hgeneration' : r.edgeGeneration < 2 ^ 63)
    (hafter : 0 ≤ r.afterSequence) (hafter' : r.afterSequence < 2 ^ 63) (hlimit : 1 ≤ r.limit)
    (hlimit' : r.limit ≤ 1000) :
    Server.serveHTTP workload .get u =
      if 47 ∈ r.edgeID then .error ⟨404, "not_found"⟩ else .ok (.reconcile r) := by
  rw [edgeElems_value] at hpath
  have hread : parseInt64 (decimal r.edgeGeneration) = some r.edgeGeneration := by
    rw [parseInt64_decimal, if_pos (by omega)]
  rw [serveHTTP_edges hpath]
  unfold Server.reconcile
  rw [hpath, trimmed_append, splitOn_edge r (by omega), edgeParts_edge hsome]
  split
  · rfl
  · simp [orFail, ensure, hread, edgePage_edge hquery hafter hafter' hlimit hlimit', hid, hgeneration,
      hpositive, bind, Except.bind, pure, Except.pure]

/-! Where a dot leads. -/

theorem serveHTTP_short {rest : Bytes} (hpath : u.path.value = Server.edgesRoot ++ rest)
    (hparts : (rest.splitOn 47).length ≠ 4) :
    Server.serveHTTP workload .get u = .error ⟨404, "not_found"⟩ := by
  rw [serveHTTP_edges hpath]
  unfold Server.reconcile
  rw [hpath, trimmed_append, edgeParts_none hparts]
  rfl

theorem short_value :
    joined ([text "v1", text "edges"] ++ [text "generations", decimal r.edgeGeneration,
      text "deliveries"]) = Server.edgesRoot ++ (text "generations" ++
        47 :: (decimal r.edgeGeneration ++ 47 :: text "deliveries")) := by
  have hroot : Server.edgesRoot = 47 :: text "v1" ++ 47 :: text "edges" ++ [47] := by decide
  rw [hroot]
  simp [joined]

theorem short_parts (hgeneration : 0 ≤ r.edgeGeneration) :
    ((text "generations" ++ 47 :: (decimal r.edgeGeneration ++
      47 :: text "deliveries")).splitOn 47).length ≠ 4 := by
  have hgenerations : (text "generations").splitOn 47 = [text "generations"] :=
    splitOn_whole (by decide)
  have hdeliveries : (text "deliveries").splitOn 47 = [text "deliveries"] :=
    splitOn_whole (by decide)
  rw [List.splitOn_append_cons_self, List.splitOn_append_cons_self, hgenerations,
    splitOn_whole (decimal_no_slash hgeneration), hdeliveries]
  simp

def elsewhere : Bytes := text "/v1/generations/"

theorem serveHTTP_elsewhere {rest : Bytes} (hpath : u.path.value = elsewhere ++ rest) :
    Server.serveHTTP workload .get u = .error ⟨404, "not_found"⟩ := by
  have hcases : Server.casesRoot.isPrefixOf (elsewhere ++ rest) = false := rfl
  have hregistries : Server.registriesRoot.isPrefixOf (elsewhere ++ rest) = false := rfl
  have hedges : Server.edgesRoot.isPrefixOf (elsewhere ++ rest) = false := rfl
  simp [Server.serveHTTP, hpath, hcases, hregistries, hedges]

theorem elsewhere_value :
    joined ([text "v1"] ++ [text "generations", decimal r.edgeGeneration, text "deliveries"]) =
      elsewhere ++ (decimal r.edgeGeneration ++ 47 :: text "deliveries") := by
  have hroot : elsewhere = 47 :: text "v1" ++ 47 :: text "generations" ++ [47] := by decide
  rw [hroot]
  simp [joined]

end Served

/-! ### The way of an identifier -/

theorem v1_nonempty : text "v1" ≠ [] := by decide

section Case
variable {config : Bytes} {endpoint : Url} (hendpoint : newEndpoint config = some endpoint)
variable {workload : WorkloadIdentity} {caseID commitment : Bytes}
variable (hcommitment : validCommitment commitment = true)
include hendpoint hcommitment

theorem case_target {path' value' : Bytes} (hsome : caseID ≠ [])
    (h' : Spells path' value')
    (hresolved : resolvePath [] (joined ((caseElems caseID).map (escape .pathSegment))) =
      path') :
    ∃ target u, resolveCaseTarget endpoint caseID commitment = some target ∧
      u.path.value = value' ∧ u.rawQuery = queryText (casePairs commitment) ∧
      Server.serve workload .get target = Server.serveHTTP workload .get u := by
  have hquery : Asks (queryText (casePairs commitment)) :=
    asks_queryText (by simp [casePairs])
  have hspells : Spells (joined ((caseElems caseID).map (escape .pathSegment)))
      (joined (caseElems caseID)) :=
    spells_joined (by simp [caseElems]) (by simp [caseElems, v1_nonempty])
  obtain ⟨u, hvalue, hraw, hserve⟩ := serve_request workload .get h' hquery
  refine ⟨_, u, ?_, hvalue, hraw, hserve⟩
  have hsome' : caseID.isEmpty = false := List.isEmpty_eq_false_iff.mpr hsome
  unfold resolveCaseTarget
  rw [hsome', hcommitment, casePath_eq, call_request hendpoint hspells h' hresolved hquery]
  rfl

theorem case_addressed (hsome : caseID ≠ []) :
    ∃ target, resolveCaseTarget endpoint caseID commitment = some target ∧
      (Server.serve workload .get target = .ok (.resolveCase caseID commitment) ↔
        Addressable caseID) := by
  by_cases hdot : caseID = dot
  · -- the element is dropped, and the server sees an empty identifier
    subst hdot
    have hspells : Spells (text "/v1/cases/") (text "/v1/cases/") :=
      ⟨by decide, by decide, by decide +kernel, by decide⟩
    have hempty : text "/v1/cases/" = joined (caseElems []) := by decide
    obtain ⟨target, u, htarget, hvalue, hraw, hserve⟩ :=
      case_target hendpoint hcommitment hsome hspells (by decide)
    refine ⟨target, htarget, ?_⟩
    rw [hserve, serveHTTP_case (hvalue.trans hempty) hraw hcommitment]
    simp [Addressable]
  · by_cases hdots : caseID = dotDot
    · -- with the element its parent goes too
      subst hdots
      have hspells : Spells (text "/v1/") (text "/v1/") :=
        ⟨by decide, by decide, by decide +kernel, by decide⟩
      obtain ⟨target, u, htarget, hvalue, -, hserve⟩ :=
        case_target hendpoint hcommitment hsome hspells (by decide)
      have hunknown : Server.serveHTTP workload .get u = .error ⟨404, "not_found"⟩ := by
        have hcases : Server.casesRoot.isPrefixOf (text "/v1/") = false := by decide
        have hregistries : Server.registriesRoot.isPrefixOf (text "/v1/") = false := by decide
        have hedges : Server.edgesRoot.isPrefixOf (text "/v1/") = false := by decide
        simp [Server.serveHTTP, hvalue, hcases, hregistries, hedges]
      refine ⟨target, htarget, ?_⟩
      rw [hserve, hunknown]
      simp [Addressable]
    · have hplain : ∀ e ∈ caseElems caseID, e ≠ dot ∧ e ≠ dotDot := by
        have hwords : ∀ e ∈ [text "v1", text "cases"], e ≠ dot ∧ e ≠ dotDot := by
          decide
        intro e he
        rcases List.mem_append.mp (show e ∈ [text "v1", text "cases"] ++ [caseID] from he) with he | he
        · exact hwords e he
        · rw [List.mem_singleton.mp he]
          exact ⟨hdot, hdots⟩
      obtain ⟨target, u, htarget, hvalue, hraw, hserve⟩ := case_target hendpoint hcommitment hsome
        (spells_joined (by simp [caseElems]) (by simp [caseElems, v1_nonempty]))
        (resolvePath_plain (escaped_no_slash _) (escaped_plain hplain) (by simp [caseElems]))
      refine ⟨target, htarget, ?_⟩
      rw [hserve, serveHTTP_case hvalue hraw hcommitment]
      simp [Addressable, hdot, hdots, hsome]

end Case

section Edge
variable {config : Bytes} {endpoint : Url} (hendpoint : newEndpoint config = some endpoint)
variable {workload : WorkloadIdentity} {q : EdgeDeliveryQuery} {r : EdgeRequest}

theorem edgeRequest_parts (h : edgeRequest workload q = .ok r) :
    r = ⟨q.edgeID, q.edgeGeneration, q.afterSequence, q.limit⟩ ∧ q.edgeID ≠ [] ∧
      workload.edgeID = q.edgeID ∧ workload.edgeGeneration = q.edgeGeneration ∧
      0 < q.edgeGeneration ∧ 0 ≤ q.afterSequence ∧ 1 ≤ q.limit ∧ q.limit ≤ 1000 := by
  unfold edgeRequest at h
  obtain ⟨hbound, h⟩ := ensure_bind_eq_ok.mp h
  split at h
  · cases h
  · rename_i hvalid
    cases h
    simp only [Bool.and_eq_true, Bool.not_eq_true', List.isEmpty_eq_false_iff, beq_iff_eq] at hbound
    unfold EdgeDeliveryQuery.validate at hvalid
    have hquery := ensure_eq_ok.mp hvalid
    simp only [Bool.and_eq_true, decide_eq_true_eq] at hquery
    obtain ⟨⟨⟨hedge, hid⟩, hgeneration⟩, -⟩ := hbound
    obtain ⟨⟨⟨⟨-, hpositive⟩, hafter⟩, hlimit⟩, hlimit'⟩ := hquery
    exact ⟨rfl, hid ▸ hedge, hid.symm, hgeneration.symm, hpositive, hafter, hlimit, hlimit'⟩

theorem edge_words (r : EdgeRequest) (hgeneration : 0 ≤ r.edgeGeneration) :
    ∀ e ∈ [text "v1", text "edges"] ++ [text "generations", decimal r.edgeGeneration,
      text "deliveries"], e ≠ dot ∧ e ≠ dotDot := by
  have hwords : ∀ e ∈ [text "v1", text "edges", text "generations", text "deliveries"],
      e ≠ dot ∧ e ≠ dotDot := by decide
  have hdecimal : ∀ e : Bytes, 46 ∈ e → decimal r.edgeGeneration ≠ e := by
    rintro e he rfl
    rw [decimal, if_neg (by omega)] at he
    have hdigit : isDigit 46 = true := (decimalNat_digits _).all 46 he
    cases hdigit
  intro e he
  simp only [List.cons_append, List.nil_append, List.mem_cons, List.not_mem_nil, or_false] at he
  rcases he with rfl | rfl | rfl | rfl | rfl
  · exact hwords _ (by simp)
  · exact hwords _ (by simp)
  · exact hwords _ (by simp)
  · exact ⟨hdecimal _ (by decide), hdecimal _ (by decide)⟩
  · exact hwords _ (by simp)

include hendpoint

theorem edge_target {path' value' : Bytes} (h : edgeRequest workload q = .ok r)
    (h' : Spells path' value')
    (hresolved : resolvePath [] (joined ((edgeElems r).map (escape .pathSegment))) =
      path') :
    ∃ target u, listEdgeDeliveriesTarget endpoint workload q = some target ∧
      u.path.value = value' ∧ u.rawQuery = queryText (edgePairs r) ∧
      Server.serve workload .get target = Server.serveHTTP workload .get u := by
  obtain ⟨hr, -, -, -, hpositive, hafter, hlimit, -⟩ := edgeRequest_parts h
  have hquery : Asks (queryText (edgePairs r)) := asks_queryText (by simp [edgePairs])
  have hspells : Spells (joined ((edgeElems r).map (escape .pathSegment)))
      (joined (edgeElems r)) :=
    spells_joined (by simp [edgeElems]) (by simp [edgeElems, v1_nonempty])
  have hpath : edgePath r = joined ((edgeElems r).map (escape .pathSegment)) ++
      63 :: queryText (edgePairs r) := by
    subst hr
    exact edgePath_eq (le_of_lt hpositive) hafter (le_trans (by decide) hlimit)
  obtain ⟨u, hvalue, hraw, hserve⟩ := serve_request workload .get h' hquery
  refine ⟨_, u, ?_, hvalue, hraw, hserve⟩
  unfold listEdgeDeliveriesTarget
  rw [h, Except.toOption, Option.bind_eq_bind, Option.bind_some, hpath,
    call_request hendpoint hspells h' hresolved hquery]

theorem edge_addressed (h : edgeRequest workload q = .ok r) (hgeneration' : r.edgeGeneration < 2 ^ 63)
    (hafter' : r.afterSequence < 2 ^ 63) :
    ∃ target, listEdgeDeliveriesTarget endpoint workload q = some target ∧
      (Server.serve workload .get target = .ok (.reconcile r) ↔ Addressable q.edgeID) := by
  obtain ⟨hr, hsome, hid, hgeneration, hpositive, hafter, hlimit, hlimit'⟩ := edgeRequest_parts h
  have hfields : r.edgeID = q.edgeID ∧ r.edgeGeneration = q.edgeGeneration ∧
      r.afterSequence = q.afterSequence ∧ r.limit = q.limit := by
    subst hr
    exact ⟨rfl, rfl, rfl, rfl⟩
  obtain ⟨hedgeID, hedgeGeneration, hafterSequence, hlimitField⟩ := hfields
  have hwords := edge_words r (by omega)
  by_cases hdot : r.edgeID = dot
  · -- the element is dropped: one part is missing
    have hmap : (edgeElems r).map (escape .pathSegment) =
        [text "v1", text "edges"].map (escape .pathSegment) ++ dot ::
          [text "generations", decimal r.edgeGeneration, text "deliveries"].map
            (escape .pathSegment) := by
      rw [edgeElems, hdot]
      rfl
    have hresolved : resolvePath [] (joined ((edgeElems r).map (escape .pathSegment))) =
        joined (([text "v1", text "edges"] ++ [text "generations", decimal r.edgeGeneration,
          text "deliveries"]).map (escape .pathSegment)) := by
      rw [hmap, List.map_append]
      exact resolvePath_dot (List.map_append ▸ escaped_no_slash _)
        (List.map_append ▸ escaped_plain hwords) (by simp)
    obtain ⟨target, u, htarget, hvalue, -, hserve⟩ := edge_target hendpoint h
      (spells_joined (by simp) (by simp [v1_nonempty])) hresolved
    refine ⟨target, htarget, ?_⟩
    rw [hserve, serveHTTP_short (hvalue.trans (short_value r)) (short_parts r (by omega)), ← hedgeID,
      hdot]
    simp [Addressable]
  · by_cases hdots : r.edgeID = dotDot
    · -- with the element its parent goes too
      have hmap : (edgeElems r).map (escape .pathSegment) =
          [text "v1"].map (escape .pathSegment) ++ escape .pathSegment (text "edges") ::
            dotDot :: [text "generations", decimal r.edgeGeneration, text "deliveries"].map
              (escape .pathSegment) := by
        rw [edgeElems, hdots]
        rfl
      have hresolved : resolvePath [] (joined ((edgeElems r).map (escape .pathSegment))) =
          joined (([text "v1"] ++ [text "generations", decimal r.edgeGeneration,
            text "deliveries"]).map (escape .pathSegment)) := by
        rw [hmap, List.map_append]
        exact resolvePath_dotDot (escaped_no_slash ([text "v1"] ++ text "edges" ::
          [text "generations", decimal r.edgeGeneration, text "deliveries"]))
          (escaped_plain hwords) (by simp)
      obtain ⟨target, u, htarget, hvalue, -, hserve⟩ := edge_target hendpoint h
        (spells_joined (by simp) (by simp [v1_nonempty])) hresolved
      refine ⟨target, htarget, ?_⟩
      rw [hserve, serveHTTP_elsewhere (hvalue.trans (elsewhere_value r)), ← hedgeID, hdots]
      simp [Addressable]
    · have hplain : ∀ e ∈ edgeElems r, e ≠ dot ∧ e ≠ dotDot := by
        intro e he
        simp only [edgeElems, List.mem_cons, List.not_mem_nil, or_false] at he
        rcases he with rfl | rfl | rfl | rfl | rfl | rfl
        · exact hwords _ (by simp)
        · exact hwords _ (by simp)
        · exact ⟨hdot, hdots⟩
        · exact hwords _ (by simp)
        · exact hwords _ (by simp)
        · exact hwords _ (by simp)
      obtain ⟨target, u, htarget, hvalue, hraw, hserve⟩ := edge_target hendpoint h
        (spells_joined (by simp [edgeElems]) (by simp [edgeElems, v1_nonempty]))
        (resolvePath_plain (escaped_no_slash _) (escaped_plain hplain) (by simp [edgeElems]))
      refine ⟨target, htarget, ?_⟩
      rw [hserve, serveHTTP_edge hvalue hraw (hedgeID ▸ hsome) (hid.trans hedgeID.symm)
        (hgeneration.trans hedgeGeneration.symm) (by omega) hgeneration' (by omega) hafter' (by omega)
        (by omega), ← hedgeID]
      simp [Addressable, hdot, hdots]

end Edge

/-- For every endpoint a client accepts, the request for a case reaches the lookup of just
that case, and the request for an edge's deliveries its page, exactly if the identifier is
neither a dot nor two dots and holds no slash. -/
theorem control_url_round_trip (config : Bytes) (endpoint : Url)
    (hendpoint : newEndpoint config = some endpoint) :
    (∀ (workload : WorkloadIdentity) (caseID commitment : Bytes), caseID ≠ [] →
      validCommitment commitment = true →
      ∃ target, resolveCaseTarget endpoint caseID commitment = some target ∧
        (Server.serve workload .get target = .ok (.resolveCase caseID commitment) ↔
          Addressable caseID)) ∧
    (∀ (workload : WorkloadIdentity) (q : EdgeDeliveryQuery) (r : EdgeRequest),
      edgeRequest workload q = .ok r → r.edgeGeneration < 2 ^ 63 → r.afterSequence < 2 ^ 63 →
      ∃ target, listEdgeDeliveriesTarget endpoint workload q = some target ∧
        (Server.serve workload .get target = .ok (.reconcile r) ↔ Addressable q.edgeID)) := by
  constructor
  · intro workload caseID commitment hsome hcommitment
    exact case_addressed hendpoint hcommitment hsome
  · intro workload q r h hgeneration hafter
    exact edge_addressed hendpoint h hgeneration hafter

namespace Sample

def endpoint : Url :=
  { scheme := text "https", host := text "control.example:8443", path := ⟨[47], []⟩ }

def slashed : Bytes := registryOf "r" "1" "1" "e/1" (text "null")
def dotted : Bytes := caseOf "i" "." "e/1" "2026-01-01T00:00:06Z"
def slashedEdge : WorkloadIdentity := ⟨[112], text "e/1", 1⟩

def dottedEvents : List Event :=
  [.submitRegistry publisher slashed (second 20), .attempt 0 { nextval := 0 },
    .submit slashedEdge dotted (second 20), .attempt 1 { nextval := 1 }]

end Sample

theorem control_url_round_trip_sample :
    newEndpoint (text "https://control.example:8443/") = some Sample.endpoint ∧
      ∃ target, resolveCaseTarget Sample.endpoint (text "c 1") (Sample.commitment "63") = some target ∧
        Server.serve Sample.issuer .get target =
          .ok (.resolveCase (text "c 1") (Sample.commitment "63")) := by
  have hendpoint : newEndpoint (text "https://control.example:8443/") = some Sample.endpoint := by
    decide +kernel
  obtain ⟨target, htarget, hserved⟩ := (control_url_round_trip _ _ hendpoint).1 Sample.issuer
    (text "c 1") (Sample.commitment "63") (by decide +kernel) (by decide +kernel)
  exact ⟨hendpoint, target, htarget, hserved.mpr (by decide +kernel)⟩

/-- Both are committed, and neither the case nor the deliveries of the edge can be asked
for. -/
theorem control_url_loses_identifier :
    let db := (Sample.deployment.run {} Sample.dottedEvents).db
    db.cases.map (fun c => (c.caseID, c.issuerEdgeID)) = [(text ".", text "e/1")] ∧
    (resolveCaseTarget Sample.endpoint (text ".") (Sample.commitment "63")).map
        (Server.serve Sample.slashedEdge .get) = some (.error ⟨400, "invalid_case_query"⟩) ∧
    (listEdgeDeliveriesTarget Sample.endpoint Sample.slashedEdge
        ⟨[116], text "e/1", [112], 1, 0, 100⟩).map (Server.serve Sample.slashedEdge .get) =
      some (.error ⟨404, "not_found"⟩) := by
  decide +kernel

end Snagline.Control
