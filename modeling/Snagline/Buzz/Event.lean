import Snagline.Kit.Marshal
import Snagline.Ssp.Envelope

/-!
# Collaboration cards and the events that carry them (collab/buzz/projector.go:425-561)

A committed case or advice becomes a card with its identifiers and its public summary,
and the card becomes the content of a signed event of the relay. The supersede path reads
both back from the stored wire, so the two encoders are followed by their decoders, and
by the round trips.
-/

namespace Snagline.Buzz
open Kit Ssp Json

/-! ### Events -/

structure NostrEvent where
  id : Bytes := []
  pubKey : Bytes
  createdAt : ℤ
  kind : ℤ
  tags : List (List Bytes)
  content : Bytes
  sig : Bytes := []
  deriving DecidableEq

def stockBuzzMessageKind : ℤ := 9

variable (tag : List Bytes)

def tagText : Bytes := arrayText (tag.map quotePlain)
def tagsText (tags : List (List Bytes)) : Bytes := arrayText (tags.map tagText)

def marshalNostrEvent (e : NostrEvent) : Bytes :=
  objectText [(text "id", quotePlain e.id), (text "pubkey", quotePlain e.pubKey),
    (text "created_at", decimal e.createdAt), (text "kind", decimal e.kind),
    (text "tags", tagsText e.tags), (text "content", quotePlain e.content),
    (text "sig", quotePlain e.sig)]

def unescapeAux : Bool → Bytes → Bytes
  | false, 92 :: 117 :: 50 :: 48 :: 50 :: 56 :: rest => 0xE2 :: 0x80 :: 0xA8 :: unescapeAux false rest
  | false, 92 :: 117 :: 50 :: 48 :: 50 :: 57 :: rest => 0xE2 :: 0x80 :: 0xA9 :: unescapeAux false rest
  | odd, b :: rest => b :: unescapeAux (b == 92 && !odd) rest
  | _, [] => []

def unescapeNostrLineSeparators (serialized : Bytes) : Bytes := unescapeAux false serialized

def nostrDigest (sha256 : Bytes → Bytes) (e : NostrEvent) : Bytes :=
  sha256 (unescapeNostrLineSeparators (arrayText [text "0", quotePlain e.pubKey,
    decimal e.createdAt, decimal e.kind, tagsText e.tags, quotePlain e.content]))

/-- The name of an event on the relay. It does not depend on `id` and `sig`. -/
def eventID (sha256 : Bytes → Bytes) (e : NostrEvent) : Bytes := hexEncode (nostrDigest sha256 e)

/-- A string of the form `uuid.UUID.String` gives. -/
def canonicalUUID (s : Bytes) : Bool :=
  s.length == 36 && s.zipIdx.all fun x =>
    if x.2 == 8 || x.2 == 13 || x.2 == 18 || x.2 == 23 then x.1 == 45 else isLowerHex x.1

inductive ChannelError where
  | notOne
  | notCanonical
  deriving DecidableEq

def channelScan : Bytes → List (List Bytes) → Except ChannelError Bytes
  | channel, [] => if channel = [] then .error .notOne else .ok channel
  | channel, [] :: tags => channelScan channel tags
  | channel, (name :: values) :: tags =>
    if name ≠ text "h" then channelScan channel tags
    else match values with
      | [value] =>
        if channel ≠ [] then .error .notOne
        else if canonicalUUID value then channelScan value tags
        else .error .notCanonical
      | _ => .error .notOne

def stockEventChannel (e : NostrEvent) : Except ChannelError Bytes := channelScan [] e.tags

def itemStrings : Bytes × Json → Option (List Bytes)
  | (_, .null) => some []
  | (_, .arr xs) => xs.mapM itemString
  | _ => none

/-- `json.Unmarshal` into an event. -/
def decodeNostrEvent (wire : Bytes) : Option NostrEvent := do
  let v ← unmarshal wire
  let ms ← structMembers v
  let id ← fieldString ms (text "id")
  let pubKey ← fieldString ms (text "pubkey")
  let createdAt ← fieldInt64 ms (text "created_at")
  let kind ← fieldInt64 ms (text "kind")
  let items ← fieldItems ms (text "tags")
  let tags ← items.mapM itemStrings
  let content ← fieldString ms (text "content")
  let sig ← fieldString ms (text "sig")
  some ⟨id, pubKey, createdAt, kind, tags, content, sig⟩

def eventChannel (wire : Bytes) : Bytes :=
  match decodeNostrEvent wire with
  | none => []
  | some e =>
    (e.tags.findSome? fun
      | [name, value] => if name = text "h" then some value else none
      | _ => none).getD []

/-! ### Cards -/

structure CollaborationCard where
  family : Bytes
  caseID : Bytes
  envelopeID : Bytes
  commitment : Bytes
  summary : Bytes := []
  advice : Bytes := []
  deriving DecidableEq

/-- The first runes of a string, with U+FFFD for every byte that belongs to no rune. -/
def takeRunes : ℕ → Bytes → Bytes
  | 0, _ => []
  | _ + 1, [] => []
  | n + 1, b :: bs =>
    match runeWidth (b :: bs) with
    | none => replacementRune ++ takeRunes n bs
    | some w => (b :: bs).take w ++ takeRunes n ((b :: bs).drop w)

def boundedCardText (value : Bytes) (limit : ℕ) : Bytes :=
  if runeCount value ≤ limit then value else takeRunes limit value

def omitEmpty (name value : Bytes) : List (Bytes × Bytes) :=
  if value = [] then [] else [(name, quote value)]

variable (c : CollaborationCard)

def cardText : Bytes :=
  objectText ([(text "family", quote c.family), (text "case_id", quote c.caseID),
    (text "envelope_id", quote c.envelopeID), (text "commitment", quote c.commitment)] ++
    omitEmpty (text "summary") c.summary ++ omitEmpty (text "advice") c.advice)

/-- `renderCard`; there is no card of a registry. -/
def renderCard (e : Envelope) (commitment summary advice : Bytes) : Option Bytes :=
  match e.schema with
  | .case => some (cardText ⟨Family.schema .case, e.caseID, e.id, commitment, boundedCardText summary 1024, []⟩)
  | .advice =>
    some (cardText ⟨Family.schema .advice, e.caseID, e.id, commitment, [], boundedCardText advice 1024⟩)
  | .registry => none

/-- `json.Unmarshal` into a card. -/
def decodeCard (content : Bytes) : Option CollaborationCard := do
  let v ← unmarshal content
  let ms ← structMembers v
  let family ← fieldString ms (text "family")
  let caseID ← fieldString ms (text "case_id")
  let envelopeID ← fieldString ms (text "envelope_id")
  let commitment ← fieldString ms (text "commitment")
  let summary ← fieldString ms (text "summary")
  let advice ← fieldString ms (text "advice")
  some ⟨family, caseID, envelopeID, commitment, summary, advice⟩

/-! ### Round trips -/

def tagItem : Bytes × Json :=
  (tagText tag, .arr (tag.map fun s => (quotePlain s, .str (toValid s))))

theorem tag_spells : Spells (tagItem tag).1 (.value (tagItem tag).2) := by
  have htexts : tag.map quotePlain =
      (tag.map fun s => (quotePlain s, str (toValid s))).map Prod.fst := by
    rw [List.map_map]
    rfl
  show Spells (arrayText (tag.map quotePlain)) _
  rw [htexts]
  refine array_spells fun x hx => ?_
  obtain ⟨s, -, rfl⟩ := List.mem_map.mp hx
  exact quotePlain_spells s

theorem tags_spells (tags : List (List Bytes)) :
    Spells (tagsText tags) (.value (.arr (tags.map tagItem))) := by
  have htexts : tags.map tagText = (tags.map tagItem).map Prod.fst := by
    rw [List.map_map]
    rfl
  unfold tagsText
  rw [htexts]
  refine array_spells fun x hx => ?_
  obtain ⟨tag, -, rfl⟩ := List.mem_map.mp hx
  exact tag_spells tag

theorem itemString_strings : (tag.map fun s => (quotePlain s, str (toValid s))).mapM itemString =
    some (tag.map toValid) := by
  induction tag with
  | nil => rfl
  | cons s tag ih =>
    rw [List.map_cons, List.mapM_cons, ih]
    rfl

theorem itemStrings_tags (tags : List (List Bytes)) :
    (tags.map tagItem).mapM itemStrings = some (tags.map fun tag => tag.map toValid) := by
  induction tags with
  | nil => rfl
  | cons tag tags ih =>
    have htag : itemStrings (tagItem tag) = some (tag.map toValid) := itemString_strings tag
    rw [List.map_cons, List.mapM_cons, ih, htag]
    rfl

def eventMembers (e : NostrEvent) : Members :=
  [(text "id", quotePlain e.id, .str (toValid e.id)),
    (text "pubkey", quotePlain e.pubKey, .str (toValid e.pubKey)),
    (text "created_at", decimal e.createdAt, .num (decimal e.createdAt)),
    (text "kind", decimal e.kind, .num (decimal e.kind)),
    (text "tags", tagsText e.tags, .arr (e.tags.map tagItem)),
    (text "content", quotePlain e.content, .str (toValid e.content)),
    (text "sig", quotePlain e.sig, .str (toValid e.sig))]

theorem eventNames_plain :
    ∀ name ∈ [text "id", text "pubkey", text "created_at", text "kind", text "tags", text "content",
      text "sig"], isPlainName name = true := by
  decide +kernel

theorem event_spells (e : NostrEvent) :
    Spells (marshalNostrEvent e) (.value (.obj (eventMembers e))) := by
  have hplain := eventNames_plain
  simp only [List.forall_mem_cons] at hplain
  obtain ⟨h1, h2, h3, h4, h5, h6, h7, -⟩ := hplain
  refine object_spells ?_
  exact .cons (plainMember_spells h1 (quotePlain_spells _)) <|
    .cons (plainMember_spells h2 (quotePlain_spells _)) <|
    .cons (plainMember_spells h3 (.number decimal_number)) <|
    .cons (plainMember_spells h4 (.number decimal_number)) <|
    .cons (plainMember_spells h5 (tags_spells _)) <|
    .cons (plainMember_spells h6 (quotePlain_spells _)) <|
    .cons (plainMember_spells h7 (quotePlain_spells _)) .nil

theorem decodeNostrEvent_marshal {e old : NostrEvent}
    (h : decodeNostrEvent (marshalNostrEvent e) = some old) :
    old.content = toValid e.content ∧ old.tags = e.tags.map fun tag => tag.map toValid := by
  have hmembers : decodeNostrEvent (marshalNostrEvent e) =
      (parseInt64 (decimal e.createdAt)).bind fun createdAt =>
      (parseInt64 (decimal e.kind)).bind fun kind =>
      ((e.tags.map tagItem).mapM itemStrings).bind fun tags =>
      some ⟨toValid e.id, toValid e.pubKey, createdAt, kind, tags, toValid e.content,
        toValid e.sig⟩ := by
    unfold decodeNostrEvent
    rw [(event_spells e).unmarshal]
    rfl
  rw [hmembers, itemStrings_tags] at h
  simp only [Option.bind_eq_some_iff, Option.some.injEq] at h
  obtain ⟨createdAt, -, kind, -, tags, rfl, rfl⟩ := h
  exact ⟨rfl, rfl⟩

def omitEmptyMember (name value : Bytes) : Members :=
  if value = [] then [] else [(name, quote value, .str (toValid value))]

def cardMembers : Members :=
  [(text "family", quote c.family, .str (toValid c.family)),
    (text "case_id", quote c.caseID, .str (toValid c.caseID)),
    (text "envelope_id", quote c.envelopeID, .str (toValid c.envelopeID)),
    (text "commitment", quote c.commitment, .str (toValid c.commitment))] ++
    omitEmptyMember (text "summary") c.summary ++ omitEmptyMember (text "advice") c.advice

theorem cardNames_plain :
    ∀ name ∈ [text "family", text "case_id", text "envelope_id", text "commitment", text "summary",
      text "advice"], isPlainName name = true := by
  decide +kernel

theorem omitEmpty_spells {name : Bytes} (hname : isPlainName name = true) (value : Bytes) :
    List.Forall₂ SpellsMember ((omitEmpty name value).map fun m => memberText m.1 m.2)
      (omitEmptyMember name value) := by
  unfold omitEmpty omitEmptyMember
  split
  · exact .nil
  · exact .cons (plainMember_spells hname quote_spells) .nil

theorem card_spells : Spells (cardText c) (.value (.obj (cardMembers c))) := by
  have hplain := cardNames_plain
  simp only [List.forall_mem_cons] at hplain
  obtain ⟨h1, h2, h3, h4, h5, h6, -⟩ := hplain
  refine object_spells ?_
  rw [List.map_append, List.map_append]
  refine List.rel_append (List.rel_append ?_ (omitEmpty_spells h5 c.summary)) (omitEmpty_spells h6 c.advice)
  exact .cons (plainMember_spells h1 quote_spells) <|
    .cons (plainMember_spells h2 quote_spells) <|
    .cons (plainMember_spells h3 quote_spells) <|
    .cons (plainMember_spells h4 quote_spells) .nil

theorem decodeCard_cardText :
    decodeCard (cardText c) = some ⟨toValid c.family, toValid c.caseID, toValid c.envelopeID,
      toValid c.commitment, toValid c.summary, toValid c.advice⟩ := by
  obtain ⟨family, caseID, envelopeID, commitment, summary, advice⟩ := c
  unfold decodeCard
  rw [(card_spells _).unmarshal]
  -- the last two members may be left out
  by_cases hsummary : summary = []
  · by_cases hadvice : advice = []
    · subst hsummary hadvice
      rfl
    · subst hsummary
      unfold cardMembers omitEmptyMember
      rw [if_pos rfl, if_neg hadvice]
      rfl
  · by_cases hadvice : advice = []
    · subst hadvice
      unfold cardMembers omitEmptyMember
      rw [if_neg hsummary, if_pos rfl]
      rfl
    · unfold cardMembers omitEmptyMember
      rw [if_neg hsummary, if_neg hadvice]
      rfl

theorem decodeCard_renderCard {e : Envelope} {commitment summary advice content : Bytes}
    (h : renderCard e commitment summary advice = some content) (hcase : Utf8 e.caseID) :
    ∃ card, decodeCard content = some card ∧ card.family = e.schema.schema ∧ card.caseID = e.caseID := by
  have hfamily : ∀ f : Family, toValid f.schema = f.schema := by
    intro f
    cases f <;> rfl
  have hid := (toValid_eq_self e.caseID).mpr hcase
  unfold renderCard at h
  cases hschema : e.schema with
  | case =>
    rw [hschema] at h
    cases h
    exact ⟨_, decodeCard_cardText _, hfamily .case, hid⟩
  | advice =>
    rw [hschema] at h
    cases h
    exact ⟨_, decodeCard_cardText _, hfamily .advice, hid⟩
  | registry =>
    rw [hschema] at h
    cases h

end Snagline.Buzz
