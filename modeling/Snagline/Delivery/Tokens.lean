import Snagline.Authority.Effects
import Snagline.Delivery.Outbox
import Snagline.Kit.Parts

/-!
# Tokens and identifiers (deliverystream/stream.go:157-204, authority/postgres/store.go:647-675)

What is hashed into a subject token or an outbox identifier is a list of parts, each with its
length in front: eight bytes for the tokens, a decimal numeral and a colon for the outbox.
Either way the list can be read back, so that only a collision of the hash merges two names.
-/

namespace Snagline.Delivery
open Kit Authority

/-! ### Preimages -/

def lengthPrefixed (values : List Bytes) : Bytes :=
  values.flatMap fun value => bigEndian64 value.length ++ value

def outboxPreimage (parts : List Bytes) : Bytes :=
  parts.flatMap fun value => decimalNat value.length ++ 58 :: value

/-- The length of a slice is an `int`. -/
def Sized (value : Bytes) : Prop := value.length < 2 ^ 63

theorem lengthPrefixed_injective {as bs : List Bytes} (has : ∀ v ∈ as, Sized v)
    (hbs : ∀ v ∈ bs, Sized v) (h : lengthPrefixed as = lengthPrefixed bs) : as = bs :=
  bigEndian64_delimits.parts_injective (fun a ha => (has a ha).trans (by decide))
    (fun b hb => (hbs b hb).trans (by decide)) h

theorem outboxPreimage_injective {as bs : List Bytes} (h : outboxPreimage as = outboxPreimage bs) :
    as = bs := by
  refine decimalColon_delimits.parts_injective (fun _ _ => trivial) (fun _ _ => trivial) ?_
  simpa [outboxPreimage] using h

-- the generation is what follows the last at sign
theorem edgeKey_injective {edgeID edgeID' : Bytes} {g g' : ℤ} (hg : 0 < g) (hg' : 0 < g')
    (h : edgeKey edgeID g = edgeKey edgeID' g') : edgeID = edgeID' ∧ g = g' := by
  have hmark : ∀ n : ℤ, 0 < n → 64 ∉ (decimal n).reverse := by
    intro n hn
    rw [decimal, if_neg (by omega), List.mem_reverse]
    exact decimalNat_no (by decide) _
  have hreversed := congrArg List.reverse h
  simp only [edgeKey, List.reverse_append, List.reverse_cons, List.append_assoc,
    List.singleton_append] at hreversed
  obtain ⟨hnumber, hedge⟩ := first_mark (hmark g hg) (hmark g' hg') hreversed
  exact ⟨List.reverse_injective hedge, decimal_injective (List.reverse_injective hnumber)⟩

/-! ### Tokens -/

/-- What a token of a subject stands for. -/
inductive Target where
  | identifier (id : Bytes)
  | edge (edgeID : Bytes) (generation : ℕ)
  deriving DecidableEq

def Target.parts : Target → List Bytes
  | .identifier id => [id]
  | .edge edgeID generation => [edgeID, bigEndian64 generation]

def Target.token (sha256 : Bytes → Bytes) : Target → Bytes
  | .identifier id => routingToken sha256 id
  | .edge edgeID generation => edgeToken sha256 edgeID generation

def Target.Fits : Target → Prop
  | .identifier id => Sized id
  | .edge edgeID generation => Sized edgeID ∧ generation < 2 ^ 64

def PublishRequest.target (r : PublishRequest) : Target :=
  match r.destination with
  | .domain => .identifier r.domainID
  | .edge => .edge r.edgeID r.edgeGeneration

def Target.preimage (t : Target) : Bytes := lengthPrefixed t.parts

/-- The hash does not merge the two preimages. -/
def CollisionFree (hash : Bytes → Bytes) (a b : Bytes) : Prop := hash a = hash b → a = b

theorem Target.sized {t : Target} (ht : t.Fits) : ∀ v ∈ t.parts, Sized v := by
  cases t with
  | identifier => simpa [Target.parts, Target.Fits] using ht
  | edge edgeID generation =>
    have hword : Sized (bigEndian64 generation) := by simp [Sized, bigEndian64]
    simpa [Target.parts] using ⟨ht.1, hword⟩

section
variable {sha256 : Bytes → Bytes} {t t' : Target} (ht : t.Fits) (ht' : t'.Fits)
include ht ht'

theorem Target.preimage_injective (h : t.preimage = t'.preimage) : t = t' := by
  have hparts := lengthPrefixed_injective (Target.sized ht) (Target.sized ht') h
  cases t with
  | identifier =>
    cases t' with
    | identifier id' => rw [List.singleton_injective hparts]
    | edge edgeID' g' => cases hparts
  | edge =>
    cases t' with
    | identifier id' => cases hparts
    | edge edgeID' g' =>
      obtain ⟨rfl, hword⟩ := List.cons.inj hparts
      rw [bigEndian64_injective ht.2 ht'.2 (List.cons.inj hword).1]

theorem Target.token_injective (hfree : CollisionFree sha256 t.preimage t'.preimage)
    (h : t.token sha256 = t'.token sha256) : t = t' := by
  have hhash : ∀ x : Target, x.token sha256 = hexEncode (sha256 x.preimage) := by
    intro x
    cases x <;> rfl
  rw [hhash, hhash] at h
  exact Target.preimage_injective ht ht' (hfree (hexEncode_injective h))

end

/-! ### Subjects and rows -/

def PublishRequest.Fits (r : PublishRequest) : Prop := Sized r.tenantID ∧ r.target.Fits

def PublishRequest.tenant (r : PublishRequest) : Target := .identifier r.tenantID

section
variable {sha256 : Bytes → Bytes} {r r' : PublishRequest} {s : Bytes} {store : Store}

theorem subject_eq (h : r.subject sha256 = .ok s) :
    s = subjectRoot ++ 46 :: (routingToken sha256 r.tenantID ++
      46 :: (r.destination.text ++ 46 :: r.target.token sha256)) := by
  unfold PublishRequest.subject destinationSubject at h
  obtain ⟨-, h⟩ := ensure_bind_eq_ok.mp h
  unfold PublishRequest.target
  cases hdestination : r.destination with
  | domain | edge =>
    simp only [hdestination] at h
    obtain ⟨-, h⟩ := ensure_bind_eq_ok.mp h
    cases h
    simp [List.intercalate, Target.token]

theorem subject_injective (htenants : CollisionFree sha256 r.tenant.preimage r'.tenant.preimage)
    (htargets : CollisionFree sha256 r.target.preimage r'.target.preimage) (hr : r.Fits)
    (hr' : r'.Fits) (h : r.subject sha256 = .ok s) (h' : r'.subject sha256 = .ok s) :
    r.tenantID = r'.tenantID ∧ r.target = r'.target := by
  have hdot : ∀ id, 46 ∉ routingToken sha256 id := fun id => hexEncode_no (by decide) _
  have hword : ∀ d : Destination, 46 ∉ d.text := by
    intro d
    cases d <;> decide
  have heq := (subject_eq h).symm.trans (subject_eq h')
  have hrest := (List.cons.inj (List.append_cancel_left heq)).2
  obtain ⟨htenant, hrest⟩ := first_mark (hdot _) (hdot _) hrest
  obtain ⟨-, htoken⟩ := first_mark (hword _) (hword _) hrest
  have hsame : r.tenant = r'.tenant := Target.token_injective hr.1 hr'.1 htenants htenant
  exact ⟨Target.identifier.inj hsame, Target.token_injective hr.2 hr'.2 htargets htoken⟩

def outboxParts (o : OutboxRow) : List Bytes :=
  [o.tenantID, o.eventKind.text, o.entityID, decimal o.authorityRevision, o.destinationKind.text,
    o.destinationKey]

/-- The identifier `insertOutbox` gives the row. -/
def outboxIDOf (store : Store) (o : OutboxRow) : Bytes := store.deterministicOutboxID (outboxParts o)

theorem insertOutbox_named {tenantID entityID raw : Bytes} {kind : EntityKind}
    {revision : ℤ} {destinations : List (DestinationKind × Bytes)} {w : World} {x : Unit × World}
    (h : Prog.run World.exec
      (store.insertOutbox tenantID kind entityID raw revision destinations) w = .ok x) :
    ∀ o ∈ x.2.db.outbox, o ∈ w.db.outbox ∨ o.outboxID = outboxIDOf store o := by
  intro o ho
  rw [(insertOutbox_run h).2] at ho
  rcases List.mem_append.mp ho with hold | hnew
  · exact .inl hold
  · obtain ⟨d, -, rfl⟩ := List.mem_map.mp hnew
    exact .inr rfl

theorem outboxID_determines {o o' : OutboxRow}
    (hfree : CollisionFree store.sha256 (outboxPreimage (outboxParts o))
      (outboxPreimage (outboxParts o'))) (ho : o.outboxID = outboxIDOf store o)
    (ho' : o'.outboxID = outboxIDOf store o') (h : o.outboxID = o'.outboxID) :
    { o with raw := o'.raw } = o' := by
  have hkind : ∀ k k' : EntityKind, k.text = k'.text → k = k' := by
    intro k k'
    cases k <;> cases k' <;> decide
  have hdestination : ∀ k k' : DestinationKind, k.text = k'.text → k = k' := by
    intro k k'
    cases k <;> cases k' <;> decide
  have hid := ho.symm.trans (h.trans ho')
  have hparts := outboxPreimage_injective
    (hfree (hexEncode_injective (List.append_cancel_left hid)))
  simp only [outboxParts, List.cons.injEq, and_true] at hparts
  obtain ⟨htenant, hevent, hentity, hrevision, hroute, hkey⟩ := hparts
  cases o
  cases o'
  rw [OutboxRow.mk.injEq]
  exact ⟨h, htenant, hkind _ _ hevent, hentity, hdestination _ _ hroute, hkey, rfl,
    decimal_injective hrevision⟩

end

/-- The hashed preimages determine what they are made from, and so do the subjects and the
identifiers of two outbox rows, if the hash does not merge the preimages of these two. -/
theorem preimages_determine (store : Store) (sha256 : Bytes → Bytes) :
    (∀ as bs, (∀ v ∈ as, Sized v) → (∀ v ∈ bs, Sized v) → lengthPrefixed as = lengthPrefixed bs →
      as = bs) ∧
    (∀ t t' : Target, t.Fits → t'.Fits → t.preimage = t'.preimage → t = t') ∧
    (∀ parts parts', outboxPreimage parts = outboxPreimage parts' → parts = parts') ∧
    (∀ edgeID edgeID' (g g' : ℤ), 0 < g → 0 < g' → edgeKey edgeID g = edgeKey edgeID' g' →
      edgeID = edgeID' ∧ g = g') ∧
    (∀ t t' : Target, t.Fits → t'.Fits → CollisionFree sha256 t.preimage t'.preimage →
      t.token sha256 = t'.token sha256 → t = t') ∧
    (∀ (r r' : PublishRequest) s, r.Fits → r'.Fits →
      CollisionFree sha256 r.tenant.preimage r'.tenant.preimage →
      CollisionFree sha256 r.target.preimage r'.target.preimage → r.subject sha256 = .ok s →
        r'.subject sha256 = .ok s → r.tenantID = r'.tenantID ∧ r.target = r'.target) ∧
    (∀ tenantID kind entityID raw revision destinations (w : World) x,
      Prog.run World.exec
        (store.insertOutbox tenantID kind entityID raw revision destinations) w = .ok x →
      ∀ o ∈ x.2.db.outbox, o ∈ w.db.outbox ∨ o.outboxID = outboxIDOf store o) ∧
    (∀ o o' : OutboxRow, CollisionFree store.sha256 (outboxPreimage (outboxParts o))
        (outboxPreimage (outboxParts o')) →
      o.outboxID = outboxIDOf store o → o'.outboxID = outboxIDOf store o' →
      o.outboxID = o'.outboxID → { o with raw := o'.raw } = o') := by
  refine ⟨fun _ _ => lengthPrefixed_injective, fun _ _ => Target.preimage_injective,
    fun _ _ => outboxPreimage_injective, fun _ _ _ _ => edgeKey_injective,
    fun _ _ => Target.token_injective, ?_, fun _ _ _ _ _ _ _ _ => insertOutbox_named,
    fun _ _ => outboxID_determines⟩
  intro r r' s hr hr' htenants htargets h h'
  exact subject_injective htenants htargets hr hr' h h'

end Snagline.Delivery
