import Snagline.Registry.Snapshot

/-!
# The registry graph (registrygraph/validate.go)

`Validate` fills four maps and walks four lists, looking entries up as it goes.
What it accepts is a property of the entries alone: identifiers are unique, keys
and edges are claimed by the principals they name and by no other, and every
domain's references resolve to principals that may do what the domain asks of
them. One loop looks up the owner of an edge without asking whether there is one;
the loop over the edges makes up for it.
-/

namespace Snagline.Registry
open Kit Ssp

namespace RegistryBody

/-! ### The rules, without an order -/

variable (b : RegistryBody)

def OwnsKey (principalID usage : Bytes) : Prop :=
  ∃ k ∈ b.keys, k.principalID = principalID ∧ k.usage = usage

structure Routed (route : DomainEntry) : Prop where
  dispatcher : ∃ p ∈ b.principals, p.principalID = route.dispatcherPrincipalID ∧
    text "dispatcher" ∈ p.roles ∧ b.OwnsKey p.principalID (text "advice")
  specialists : ∀ id ∈ route.specialistPrincipalIDs, ∃ p ∈ b.principals, p.principalID = id ∧
    text "specialist" ∈ p.roles
  issuers : ∀ id ∈ route.issuerEdgeIDs, ∃ e ∈ b.edges, e.edgeID = id ∧
    ∃ p ∈ b.principals, p.principalID = e.principalID ∧ b.OwnsKey p.principalID (text "edge")

/-- Something a principal owns: it names its owner, which is there, and of all
principals exactly that one claims it. -/
def Claimed (claims : PrincipalEntry → List Bytes) (id owner : Bytes) : Prop :=
  (∃ p ∈ b.principals, p.principalID = owner) ∧
    ∀ p ∈ b.principals, id ∈ claims p ↔ p.principalID = owner

structure Consistent : Prop where
  domains : Table.Keyed DomainEntry.domain b.domains
  principals : Table.Keyed PrincipalEntry.principalID b.principals
  edges : Table.Keyed EdgeEntry.edgeID b.edges
  keys : Table.Keyed KeyEntry.keyID b.keys
  keyClaimed : ∀ k ∈ b.keys, b.Claimed PrincipalEntry.sspKeyIDs k.keyID k.principalID
  keyNamed : ∀ p ∈ b.principals, ∀ id ∈ p.sspKeyIDs,
    ∃ k ∈ b.keys, k.keyID = id ∧ k.principalID = p.principalID
  edgeClaimed : ∀ e ∈ b.edges, b.Claimed PrincipalEntry.edgeIDs e.edgeID e.principalID
  edgeNamed : ∀ p ∈ b.principals, ∀ id ∈ p.edgeIDs,
    ∃ e ∈ b.edges, e.edgeID = id ∧ e.principalID = p.principalID
  edgeRole : ∀ e ∈ b.edges, ∀ p ∈ b.principals, p.principalID = e.principalID → text "edge" ∈ p.roles
  registryRole : ∀ k ∈ b.keys, k.usage = text "registry" → ∀ p ∈ b.principals,
    p.principalID = k.principalID → text "registry-authority" ∈ p.roles
  routes : ∀ route ∈ b.domains, b.Routed route

end RegistryBody

/-! ### The maps -/

theorem checkDistinct_ok {ρ : Type} (key : ρ → Bytes) (e : Bytes → RegistryError)
    (seen : List Bytes)
    (rows : List ρ) (u : Unit) :
    checkDistinct key e seen rows = .ok u ↔
      Table.Keyed key rows ∧ ∀ r ∈ rows, key r ∉ seen := by
  induction rows generalizing seen with
  | nil => simp [checkDistinct, Table.Keyed]
  | cons r rows ih =>
    simp only [checkDistinct, ensure_bind_eq_ok, ih, Table.Keyed, List.map_cons, List.nodup_cons,
      List.mem_map, List.mem_cons, not_or]
    constructor
    · rintro ⟨hseen, hkeyed, hrest⟩
      refine ⟨⟨?_, hkeyed⟩, ?_⟩
      · rintro ⟨x, hx, hkey⟩
        exact (hrest x hx).1 hkey
      · rintro x (rfl | hx)
        · simpa using hseen
        · exact (hrest x hx).2
    · rintro ⟨⟨hfresh, hkeyed⟩, hseen⟩
      refine ⟨by simpa using hseen r (.inl rfl), hkeyed, ?_⟩
      intro x hx
      exact ⟨fun hkey => hfresh ⟨x, hx, hkey⟩, hseen x (.inr hx)⟩

theorem entry_iff {ρ : Type} {key : ρ → Bytes} {rows : List ρ} (h : Table.Keyed key rows)
    (id : Bytes)
    (r : ρ) : entry key id rows = some r ↔ r ∈ rows ∧ key r = id := by
  constructor
  · exact entry_eq_some
  · rintro ⟨hmem, rfl⟩
    have hreverse : Table.Keyed key rows.reverse := by
      unfold Table.Keyed
      rw [List.map_reverse]
      exact List.nodup_reverse.mpr h
    exact hreverse.find_mem (List.mem_reverse.mpr hmem)

namespace RegistryBody
variable {b : RegistryBody}

/-! ### The loops -/

section Loops
variable (hprincipals : Table.Keyed PrincipalEntry.principalID b.principals)
  (hedges : Table.Keyed EdgeEntry.edgeID b.edges) (hkeys : Table.Keyed KeyEntry.keyID b.keys)

include hprincipals in
theorem principal_iff (id : Bytes) (p : PrincipalEntry) :
    b.principal id = some p ↔ p ∈ b.principals ∧ p.principalID = id :=
  entry_iff hprincipals id p

include hedges in
theorem edge_iff (id : Bytes) (e : EdgeEntry) :
    b.edge id = some e ↔ e ∈ b.edges ∧ e.edgeID = id :=
  entry_iff hedges id e

include hkeys in
theorem key_iff (id : Bytes) (k : KeyEntry) : b.key id = some k ↔ k ∈ b.keys ∧ k.keyID = id :=
  entry_iff hkeys id k

include hkeys in
theorem principalHasUsage_iff (owner : PrincipalEntry) (usage : Bytes) :
    b.principalHasUsage owner usage = true ↔
      ∃ k ∈ b.keys, k.keyID ∈ owner.sspKeyIDs ∧ k.principalID = owner.principalID ∧
        k.usage = usage := by
  simp only [principalHasUsage, List.any_eq_true, Option.any_eq_true, Bool.and_eq_true, beq_iff_eq,
    key_iff hkeys]
  constructor
  · rintro ⟨id, hid, k, ⟨hk, rfl⟩, howner, husage⟩
    exact ⟨k, hk, hid, howner, husage⟩
  · rintro ⟨k, hk, hid, howner, husage⟩
    exact ⟨k.keyID, hid, k, ⟨hk, rfl⟩, howner, husage⟩

include hprincipals in
theorem checkKey_iff (k : KeyEntry) :
    b.checkKey k = .ok () ↔ ∃ p ∈ b.principals, p.principalID = k.principalID ∧
      k.keyID ∈ p.sspKeyIDs ∧ (k.usage = text "registry" → text "registry-authority" ∈ p.roles) := by
  simp only [checkKey, orFail_bind_eq_ok, ensure_bind_eq_ok, ensure_eq_ok, principal_iff hprincipals,
    List.contains_iff_mem, Bool.or_eq_true, bne_iff_ne, and_assoc]
  constructor
  · rintro ⟨p, hp, hid, hclaims, hrole⟩
    exact ⟨p, hp, hid, hclaims, fun husage => hrole.resolve_left (fun hne => hne husage)⟩
  · rintro ⟨p, hp, hid, hclaims, hrole⟩
    refine ⟨p, hp, hid, hclaims, ?_⟩
    by_cases husage : k.usage = text "registry"
    · exact .inr (hrole husage)
    · exact .inl husage

include hprincipals in
theorem checkEdge_iff (e : EdgeEntry) :
    b.checkEdge e = .ok () ↔ ∃ p ∈ b.principals, p.principalID = e.principalID ∧
      text "edge" ∈ p.roles ∧ e.edgeID ∈ p.edgeIDs := by
  simp only [checkEdge, orFail_bind_eq_ok, ensure_bind_eq_ok, ensure_eq_ok,
    principal_iff hprincipals, List.contains_iff_mem, and_assoc]

include hedges hkeys in
theorem checkPrincipal_iff (p : PrincipalEntry) :
    b.checkPrincipal p = .ok () ↔
      (∀ id ∈ p.sspKeyIDs, ∃ k ∈ b.keys, k.keyID = id ∧ k.principalID = p.principalID) ∧
      ∀ id ∈ p.edgeIDs, ∃ e ∈ b.edges, e.edgeID = id ∧ e.principalID = p.principalID := by
  simp only [checkPrincipal, bind_eq_ok, forM_eq_ok, orFail_eq_ok, ensure_eq_ok,
    key_iff hkeys, edge_iff hedges, beq_iff_eq, and_assoc, exists_const]

theorem ownerOf_iff (hprincipals : Table.Keyed PrincipalEntry.principalID b.principals)
    (principalID usage : Bytes) :
    b.principalHasUsage (b.ownerOf principalID) usage = true ↔
      ∃ p ∈ b.principals, p.principalID = principalID ∧ b.principalHasUsage p usage = true := by
  unfold ownerOf
  cases howner : b.principal principalID with
  | none =>
    constructor
    · intro h
      cases h
    · rintro ⟨p, hp, hid, -⟩
      rw [(principal_iff hprincipals principalID p).mpr ⟨hp, hid⟩] at howner
      cases howner
  | some owner =>
    obtain ⟨hmem, hid⟩ := (principal_iff hprincipals principalID owner).mp howner
    constructor
    · intro h
      exact ⟨owner, hmem, hid, h⟩
    · rintro ⟨p, hp, hpid, h⟩
      rwa [hprincipals.eq_of_key hp hmem (hpid.trans hid.symm)] at h

include hprincipals hedges in
theorem checkRoute_iff (route : DomainEntry) :
    b.checkRoute route = .ok () ↔
      (∃ p ∈ b.principals, p.principalID = route.dispatcherPrincipalID ∧
        text "dispatcher" ∈ p.roles ∧ b.principalHasUsage p (text "advice") = true) ∧
      (∀ id ∈ route.specialistPrincipalIDs, ∃ p ∈ b.principals, p.principalID = id ∧
        text "specialist" ∈ p.roles) ∧
      ∀ id ∈ route.issuerEdgeIDs, ∃ e ∈ b.edges, e.edgeID = id ∧
        ∃ p ∈ b.principals, p.principalID = e.principalID ∧
          b.principalHasUsage p (text "edge") = true := by
  simp only [checkRoute, bind_eq_ok, forM_eq_ok, orFail_eq_ok, ensure_eq_ok,
    principal_iff hprincipals, edge_iff hedges, List.contains_iff_mem, ownerOf_iff hprincipals,
    and_assoc, exists_const]
  constructor
  · rintro ⟨p, hp, hid, hrole, hkey, hspecialists, hissuers⟩
    exact ⟨⟨p, hp, hid, hrole, hkey⟩, hspecialists, hissuers⟩
  · rintro ⟨⟨p, hp, hid, hrole, hkey⟩, hspecialists, hissuers⟩
    exact ⟨p, hp, hid, hrole, hkey, hspecialists, hissuers⟩

end Loops

theorem principalHasUsage_owns (hkeys : Table.Keyed KeyEntry.keyID b.keys)
    (hclaimed : ∀ k ∈ b.keys, b.Claimed PrincipalEntry.sspKeyIDs k.keyID k.principalID)
    {p : PrincipalEntry} (hp : p ∈ b.principals) (usage : Bytes) :
    b.principalHasUsage p usage = true ↔ b.OwnsKey p.principalID usage := by
  rw [principalHasUsage_iff hkeys]
  constructor
  · rintro ⟨k, hk, -, howner, husage⟩
    exact ⟨k, hk, howner, husage⟩
  · rintro ⟨k, hk, howner, husage⟩
    exact ⟨k, hk, ((hclaimed k hk).2 p hp).mpr howner.symm, howner, husage⟩

structure Walked (b : RegistryBody) : Prop where
  routes : ∀ route ∈ b.domains, b.checkRoute route = .ok ()
  principals : ∀ p ∈ b.principals, b.checkPrincipal p = .ok ()
  edges : ∀ e ∈ b.edges, b.checkEdge e = .ok ()
  keys : ∀ k ∈ b.keys, b.checkKey k = .ok ()

theorem checkGraph_iff (b : RegistryBody) :
    b.checkGraph = .ok () ↔ Table.Keyed DomainEntry.domain b.domains ∧
      Table.Keyed PrincipalEntry.principalID b.principals ∧ Table.Keyed EdgeEntry.edgeID b.edges ∧
      Table.Keyed KeyEntry.keyID b.keys ∧ b.Walked := by
  simp only [checkGraph, bind_eq_ok, checkDistinct_ok, forM_eq_ok, List.not_mem_nil, not_false_eq_true,
    implies_true, and_true, exists_const]
  constructor
  · rintro ⟨hdomains, hprincipals, hedges, hkeys, hroutes, hclaims, howned, hnamed⟩
    exact ⟨hdomains, hprincipals, hedges, hkeys, hroutes, hclaims, howned, hnamed⟩
  · rintro ⟨hdomains, hprincipals, hedges, hkeys, hroutes, hclaims, howned, hnamed⟩
    exact ⟨hdomains, hprincipals, hedges, hkeys, hroutes, hclaims, howned, hnamed⟩

section Both
variable (hprincipals : Table.Keyed PrincipalEntry.principalID b.principals)
  (hedges : Table.Keyed EdgeEntry.edgeID b.edges) (hkeys : Table.Keyed KeyEntry.keyID b.keys)
include hprincipals hedges hkeys

theorem Walked.keyClaimed (h : b.Walked) : ∀ k ∈ b.keys,
    b.Claimed PrincipalEntry.sspKeyIDs k.keyID k.principalID := by
  intro k hk
  obtain ⟨owner, howner, hid, hclaims, -⟩ := (checkKey_iff hprincipals k).mp (h.keys k hk)
  refine ⟨⟨owner, howner, hid⟩, ?_⟩
  intro p hp
  constructor
  · intro hclaim
    obtain ⟨k', hk', hkey, hnames⟩ := ((checkPrincipal_iff hedges hkeys p).mp (h.principals p hp)).1 _ hclaim
    rw [← hkeys.eq_of_key hk' hk hkey]
    exact hnames.symm
  · intro hnames
    rwa [hprincipals.eq_of_key hp howner (hnames.trans hid.symm)]

theorem Walked.edgeClaimed (h : b.Walked) : ∀ e ∈ b.edges,
    b.Claimed PrincipalEntry.edgeIDs e.edgeID e.principalID := by
  intro e he
  obtain ⟨owner, howner, hid, -, hclaims⟩ := (checkEdge_iff hprincipals e).mp (h.edges e he)
  refine ⟨⟨owner, howner, hid⟩, ?_⟩
  intro p hp
  constructor
  · intro hclaim
    obtain ⟨e', he', hedge, hnames⟩ := ((checkPrincipal_iff hedges hkeys p).mp (h.principals p hp)).2 _ hclaim
    rw [← hedges.eq_of_key he' he hedge]
    exact hnames.symm
  · intro hnames
    rwa [hprincipals.eq_of_key hp howner (hnames.trans hid.symm)]

theorem Walked.routed (h : b.Walked) : ∀ route ∈ b.domains, b.Routed route := by
  intro route hroute
  have howns := fun {p : PrincipalEntry} (hp : p ∈ b.principals) (usage : Bytes) =>
    principalHasUsage_owns hkeys (h.keyClaimed hprincipals hedges hkeys) hp usage
  obtain ⟨⟨p, hp, hid, hrole, hkey⟩, hspecialists, hissuers⟩ :=
    (checkRoute_iff hprincipals hedges route).mp (h.routes route hroute)
  refine ⟨⟨p, hp, hid, hrole, (howns hp _).mp hkey⟩, hspecialists, ?_⟩
  intro id hissuer
  obtain ⟨e, he, hedge, owner, howner, hname, hused⟩ := hissuers id hissuer
  exact ⟨e, he, hedge, owner, howner, hname, (howns howner _).mp hused⟩

theorem Walked.consistent (h : b.Walked) (hdomains : Table.Keyed DomainEntry.domain b.domains) :
    b.Consistent where
  domains := hdomains
  principals := hprincipals
  edges := hedges
  keys := hkeys
  keyClaimed := h.keyClaimed hprincipals hedges hkeys
  keyNamed := fun p hp => ((checkPrincipal_iff hedges hkeys p).mp (h.principals p hp)).1
  edgeClaimed := h.edgeClaimed hprincipals hedges hkeys
  edgeNamed := fun p hp => ((checkPrincipal_iff hedges hkeys p).mp (h.principals p hp)).2
  edgeRole := by
    intro e he p hp hname
    obtain ⟨owner, howner, hid, hrole, -⟩ := (checkEdge_iff hprincipals e).mp (h.edges e he)
    rwa [hprincipals.eq_of_key hp howner (hname.trans hid.symm)]
  registryRole := by
    intro k hk husage p hp hname
    obtain ⟨owner, howner, hid, -, hrole⟩ := (checkKey_iff hprincipals k).mp (h.keys k hk)
    rw [hprincipals.eq_of_key hp howner (hname.trans hid.symm)]
    exact hrole husage
  routes := h.routed hprincipals hedges hkeys

end Both

theorem Consistent.walked (h : b.Consistent) : b.Walked where
  routes := by
    intro route hroute
    have hrouted := h.routes route hroute
    rw [checkRoute_iff h.principals h.edges]
    obtain ⟨p, hp, hid, hrole, hkey⟩ := hrouted.dispatcher
    refine ⟨⟨p, hp, hid, hrole, (principalHasUsage_owns h.keys h.keyClaimed hp _).mpr hkey⟩,
      hrouted.specialists, ?_⟩
    intro id hissuer
    obtain ⟨e, he, hedge, owner, howner, hname, hused⟩ := hrouted.issuers id hissuer
    exact ⟨e, he, hedge, owner, howner, hname,
      (principalHasUsage_owns h.keys h.keyClaimed howner _).mpr hused⟩
  principals := fun p hp =>
    (checkPrincipal_iff h.edges h.keys p).mpr ⟨h.keyNamed p hp, h.edgeNamed p hp⟩
  edges := by
    intro e he
    obtain ⟨⟨p, hp, hname⟩, hclaims⟩ := h.edgeClaimed e he
    exact (checkEdge_iff h.principals e).mpr
      ⟨p, hp, hname, h.edgeRole e he p hp hname, (hclaims p hp).mpr hname⟩
  keys := by
    intro k hk
    obtain ⟨⟨p, hp, hname⟩, hclaims⟩ := h.keyClaimed k hk
    exact (checkKey_iff h.principals k).mpr ⟨p, hp, hname, (hclaims p hp).mpr hname,
      fun husage => h.registryRole k hk husage p hp hname⟩

theorem checkGraph_consistent (b : RegistryBody) : b.checkGraph = .ok () ↔ b.Consistent := by
  rw [checkGraph_iff]
  constructor
  · rintro ⟨hdomains, hprincipals, hedges, hkeys, hwalked⟩
    exact hwalked.consistent hprincipals hedges hkeys hdomains
  · intro h
    exact ⟨h.domains, h.principals, h.edges, h.keys, h.walked⟩

/-! ### The order of the lists -/

structure SameDomain (d d' : DomainEntry) : Prop where
  domain : d.domain = d'.domain
  dispatcher : d.dispatcherPrincipalID = d'.dispatcherPrincipalID
  issuers : d.issuerEdgeIDs.Perm d'.issuerEdgeIDs
  specialists : d.specialistPrincipalIDs.Perm d'.specialistPrincipalIDs
  families : d.families.Perm d'.families
  epoch : d.routingEpoch = d'.routingEpoch

structure SamePrincipal (p p' : PrincipalEntry) : Prop where
  id : p.principalID = p'.principalID
  roles : p.roles.Perm p'.roles
  keys : p.sspKeyIDs.Perm p'.sspKeyIDs
  edges : p.edgeIDs.Perm p'.edgeIDs

theorem SameDomain.symm {d d' : DomainEntry} (h : SameDomain d d') : SameDomain d' d :=
  ⟨h.domain.symm, h.dispatcher.symm, h.issuers.symm, h.specialists.symm, h.families.symm, h.epoch.symm⟩

theorem SamePrincipal.symm {p p' : PrincipalEntry} (h : SamePrincipal p p') : SamePrincipal p' p :=
  ⟨h.id.symm, h.roles.symm, h.keys.symm, h.edges.symm⟩

def Shuffled {ρ : Type} (same : ρ → ρ → Prop) (rows rows' : List ρ) : Prop :=
  ∃ between, List.Forall₂ same rows between ∧ between.Perm rows'

structure Reordered (b b' : RegistryBody) : Prop where
  domains : Shuffled SameDomain b.domains b'.domains
  principals : Shuffled SamePrincipal b.principals b'.principals
  edges : b.edges.Perm b'.edges
  keys : b.keys.Perm b'.keys

section Shuffled
variable {ρ : Type} {same : ρ → ρ → Prop} {rows rows' : List ρ}

theorem Shuffled.mem (h : Shuffled same rows rows') {r : ρ} (hr : r ∈ rows) :
    ∃ r' ∈ rows', same r r' := by
  obtain ⟨between, hsame, hperm⟩ := h
  obtain ⟨i, hi, rfl⟩ := List.getElem_of_mem hr
  have hlength := hsame.length_eq
  exact ⟨between[i], hperm.mem_iff.mp (List.getElem_mem _), hsame.get hi (hlength ▸ hi)⟩

theorem Shuffled.mem_back (h : Shuffled same rows rows') {r' : ρ} (hr : r' ∈ rows') :
    ∃ r ∈ rows, same r r' := by
  obtain ⟨between, hsame, hperm⟩ := h
  obtain ⟨i, hi, rfl⟩ := List.getElem_of_mem (hperm.mem_iff.mpr hr)
  have hlength := hsame.length_eq
  exact ⟨rows[i], List.getElem_mem _, hsame.get (hlength ▸ hi) hi⟩

theorem Shuffled.keyed {key : ρ → Bytes} (h : Shuffled same rows rows')
    (hkey : ∀ r r', same r r' → key r = key r') :
    Table.Keyed key rows ↔ Table.Keyed key rows' := by
  obtain ⟨between, hsame, hperm⟩ := h
  have hkeys : rows.map key = between.map key := by
    clear hperm
    induction hsame with
    | nil => rfl
    | cons hhead htail ih => rw [List.map_cons, List.map_cons, hkey _ _ hhead, ih]
  unfold Table.Keyed
  rw [hkeys]
  exact (hperm.map key).nodup_iff

end Shuffled

section
variable {b b' : RegistryBody}

structure Mirrored (b b' : RegistryBody) : Prop where
  domains : ∀ d' ∈ b'.domains, ∃ d ∈ b.domains, SameDomain d d'
  principals : ∀ p ∈ b.principals, ∃ p' ∈ b'.principals, SamePrincipal p p'
  principals' : ∀ p' ∈ b'.principals, ∃ p ∈ b.principals, SamePrincipal p p'
  edges : ∀ e, e ∈ b.edges ↔ e ∈ b'.edges
  keys : ∀ k, k ∈ b.keys ↔ k ∈ b'.keys

theorem Mirrored.ownsKey (h : Mirrored b b') {principalID usage : Bytes}
    (howns : b.OwnsKey principalID usage) : b'.OwnsKey principalID usage := by
  obtain ⟨k, hk, howner, husage⟩ := howns
  exact ⟨k, (h.keys k).mp hk, howner, husage⟩

theorem Mirrored.claimed (h : Mirrored b b')
    {claims : PrincipalEntry → List Bytes} {id owner : Bytes}
    (hclaims : ∀ p p', SamePrincipal p p' → (claims p).Perm (claims p'))
    (hclaimed : b.Claimed claims id owner) : b'.Claimed claims id owner := by
  obtain ⟨⟨p, hp, hname⟩, hexact⟩ := hclaimed
  obtain ⟨p', hp', hsame⟩ := h.principals p hp
  refine ⟨⟨p', hp', hsame.id.symm.trans hname⟩, ?_⟩
  intro q' hq'
  obtain ⟨q, hq, hsame⟩ := h.principals' q' hq'
  rw [← (hclaims q q' hsame).mem_iff, hexact q hq, hsame.id]

theorem Mirrored.routed (h : Mirrored b b') {d d' : DomainEntry}
    (hsame : SameDomain d d') (hrouted : b.Routed d) : b'.Routed d' where
  dispatcher := by
    obtain ⟨p, hp, hid, hrole, hkey⟩ := hrouted.dispatcher
    obtain ⟨p', hp', hsame'⟩ := h.principals p hp
    refine ⟨p', hp', hsame'.id.symm.trans (hid.trans hsame.dispatcher), hsame'.roles.mem_iff.mp hrole, ?_⟩
    rw [← hsame'.id]
    exact h.ownsKey hkey
  specialists := by
    intro id hid
    obtain ⟨p, hp, hname, hrole⟩ := hrouted.specialists id (hsame.specialists.mem_iff.mpr hid)
    obtain ⟨p', hp', hsame'⟩ := h.principals p hp
    exact ⟨p', hp', hsame'.id.symm.trans hname, hsame'.roles.mem_iff.mp hrole⟩
  issuers := by
    intro id hid
    obtain ⟨e, he, hedge, p, hp, hname, hkey⟩ := hrouted.issuers id (hsame.issuers.mem_iff.mpr hid)
    obtain ⟨p', hp', hsame'⟩ := h.principals p hp
    refine ⟨e, (h.edges e).mp he, hedge, p', hp', hsame'.id.symm.trans hname, ?_⟩
    rw [← hsame'.id]
    exact h.ownsKey hkey

theorem Reordered.mirrored (h : Reordered b b') : Mirrored b b' where
  domains := fun _ hd => h.domains.mem_back hd
  principals := fun _ hp => h.principals.mem hp
  principals' := fun _ hp => h.principals.mem_back hp
  edges := fun _ => h.edges.mem_iff
  keys := fun _ => h.keys.mem_iff

theorem Reordered.mirrored_back (h : Reordered b b') : Mirrored b' b where
  domains := by
    intro d hd
    obtain ⟨d', hd', hsame⟩ := h.domains.mem hd
    exact ⟨d', hd', hsame.symm⟩
  principals := by
    intro p' hp'
    obtain ⟨p, hp, hsame⟩ := h.principals.mem_back hp'
    exact ⟨p, hp, hsame.symm⟩
  principals' := by
    intro p hp
    obtain ⟨p', hp', hsame⟩ := h.principals.mem hp
    exact ⟨p', hp', hsame.symm⟩
  edges := fun _ => h.edges.mem_iff.symm
  keys := fun _ => h.keys.mem_iff.symm

theorem Reordered.keyed (h : Reordered b b') :
    (Table.Keyed DomainEntry.domain b.domains ↔ Table.Keyed DomainEntry.domain b'.domains) ∧
    (Table.Keyed PrincipalEntry.principalID b.principals ↔
      Table.Keyed PrincipalEntry.principalID b'.principals) ∧
    (Table.Keyed EdgeEntry.edgeID b.edges ↔ Table.Keyed EdgeEntry.edgeID b'.edges) ∧
    (Table.Keyed KeyEntry.keyID b.keys ↔ Table.Keyed KeyEntry.keyID b'.keys) :=
  ⟨h.domains.keyed fun _ _ hsame => hsame.domain, h.principals.keyed fun _ _ hsame => hsame.id,
    (h.edges.map _).nodup_iff, (h.keys.map _).nodup_iff⟩

theorem Mirrored.consistent (h : Mirrored b b') (hb : b.Consistent)
    (hdomains : Table.Keyed DomainEntry.domain b'.domains)
    (hprincipals : Table.Keyed PrincipalEntry.principalID b'.principals)
    (hedges : Table.Keyed EdgeEntry.edgeID b'.edges) (hkeys : Table.Keyed KeyEntry.keyID b'.keys) :
    b'.Consistent where
  domains := hdomains
  principals := hprincipals
  edges := hedges
  keys := hkeys
  keyClaimed := fun k hk =>
    h.claimed (fun _ _ hsame => hsame.keys) (hb.keyClaimed k ((h.keys k).mpr hk))
  keyNamed := by
    intro p' hp' id hid
    obtain ⟨p, hp, hsame⟩ := h.principals' p' hp'
    obtain ⟨k, hk, hkey, howner⟩ := hb.keyNamed p hp id (hsame.keys.mem_iff.mpr hid)
    exact ⟨k, (h.keys k).mp hk, hkey, howner.trans hsame.id⟩
  edgeClaimed := fun e he =>
    h.claimed (fun _ _ hsame => hsame.edges) (hb.edgeClaimed e ((h.edges e).mpr he))
  edgeNamed := by
    intro p' hp' id hid
    obtain ⟨p, hp, hsame⟩ := h.principals' p' hp'
    obtain ⟨e, he, hedge, howner⟩ := hb.edgeNamed p hp id (hsame.edges.mem_iff.mpr hid)
    exact ⟨e, (h.edges e).mp he, hedge, howner.trans hsame.id⟩
  edgeRole := by
    intro e he p' hp' hname
    obtain ⟨p, hp, hsame⟩ := h.principals' p' hp'
    exact hsame.roles.mem_iff.mp (hb.edgeRole e ((h.edges e).mpr he) p hp (hsame.id.trans hname))
  registryRole := by
    intro k hk husage p' hp' hname
    obtain ⟨p, hp, hsame⟩ := h.principals' p' hp'
    exact hsame.roles.mem_iff.mp
      (hb.registryRole k ((h.keys k).mpr hk) husage p hp (hsame.id.trans hname))
  routes := by
    intro d' hd'
    obtain ⟨d, hd, hsame⟩ := h.domains d' hd'
    exact h.routed hsame (hb.routes d hd)

theorem Reordered.consistent (h : Reordered b b') :
    b.Consistent ↔ b'.Consistent := by
  obtain ⟨hdomains, hprincipals, hedges, hkeys⟩ := h.keyed
  constructor
  · intro hb
    exact h.mirrored.consistent hb (hdomains.mp hb.domains) (hprincipals.mp hb.principals)
      (hedges.mp hb.edges) (hkeys.mp hb.keys)
  · intro hb
    exact h.mirrored_back.consistent hb (hdomains.mpr hb.domains) (hprincipals.mpr hb.principals)
      (hedges.mpr hb.edges) (hkeys.mpr hb.keys)

end

end RegistryBody

/-- `Validate` accepts exactly the consistent bodies, whatever the order of their lists. -/
theorem registry_graph_exact (b : RegistryBody) :
    (b.checkGraph = .ok () ↔ b.Consistent) ∧
      ∀ b' : RegistryBody, b.Reordered b' → (b.checkGraph = .ok () ↔ b'.checkGraph = .ok ()) := by
  refine ⟨b.checkGraph_consistent, ?_⟩
  intro b' h
  rw [b.checkGraph_consistent, b'.checkGraph_consistent]
  exact h.consistent

end Snagline.Registry
