import Snagline.Buzz.Ahead

/-!
# Case roots and the records that name them

The state keeps for every case the name of the event that opened its thread, and for every
advice the name it replies to. A case's root changes when its event is superseded, and
nothing goes back to the advice that copied it. The two stay consistent because a fact is
only looked at while the checkpoint is just before it: an advice is prepared once the
checkpoint has passed its case, and from then on the case's record does not change.
-/

namespace Snagline.Buzz
open Kit Ssp Json

/-! ### Facts -/

def Verified (raw : Bytes) (e : Envelope) : Prop := decodeStrictEnvelope raw = .ok e ∧ e.Sound

theorem Verified.unique {raw : Bytes} {e e' : Envelope} (h : Verified raw e)
    (h' : Verified raw e') :
    e = e' := by
  have hsame := h.1.symm.trans h'.1
  cases hsame
  rfl

theorem Verified.caseID_utf8 {raw : Bytes} {e : Envelope} (h : Verified raw e)
    (hfamily : e.schema = .case ∨ e.schema = .advice) : Utf8 e.caseID := by
  have hheader := h.2.header
  unfold Envelope.checkHeader at hheader
  obtain ⟨-, hheader⟩ := ensure_bind_eq_ok.mp hheader
  have hid : validOpaqueID e.caseID = true := by
    rcases hfamily with hfamily | hfamily
    · rw [hfamily] at hheader
      exact ((Bool.and_eq_true _ _).mp (ensure_eq_ok.mp hheader)).1
    · rw [hfamily] at hheader
      exact ((Bool.and_eq_true _ _).mp (ensure_eq_ok.mp hheader)).1
  simp only [validOpaqueID, Bool.and_eq_true] at hid
  exact (utf8Valid_iff _).mp hid.1.1

structure Ordered (facts : Set CommittedFact) : Prop where
  distinct : ∀ f ∈ facts, ∀ g ∈ facts, f.sequence = g.sequence → f = g
  oneCase : ∀ f ∈ facts, ∀ g ∈ facts, ∀ e e', Verified f.raw e → Verified g.raw e' →
    e.schema = .case → e'.schema = .case → e.caseID = e'.caseID → f = g
  caseFirst : ∀ f ∈ facts, ∀ g ∈ facts, ∀ e e', Verified f.raw e → Verified g.raw e' →
    e.schema = .case → e'.schema = .advice → e.caseID = e'.caseID → f.sequence < g.sequence

def Follows (facts : Set CommittedFact) (checkpoint : ℕ) (f : CommittedFact) : Prop :=
  f ∈ facts ∧ ∀ g ∈ facts, g.sequence < f.sequence → g.sequence ≤ checkpoint

def Rules.committed (facts : Set CommittedFact) (events : Set NostrEvent) : Rules :=
  ⟨Follows facts, Verified, fun e => e ∈ events⟩

section
variable (p : Projector) (facts : Set CommittedFact) (events : Set NostrEvent)

/-- The record of the fact at `s`, which stands for `e`, holds an event about it. -/
structure Projection (s : ℕ) (d : Delivery) (e : Envelope) : Prop where
  fact : d.record ∈ facts
  sequence : d.record.sequence = s
  verified : Verified d.record.raw e
  event : ∃ channel content now sig card, p.draft channel d.rootEventID content now ∈ events ∧
    d.eventID = eventID p.sha256 (p.draft channel d.rootEventID content now) ∧
    d.wire = marshalNostrEvent (p.signed (p.draft channel d.rootEventID content now) sig) ∧
    Utf8 content ∧ decodeCard content = some card ∧ card.family = e.schema.schema ∧
    card.caseID = e.caseID

structure Rooted (st : State) : Prop where
  fresh : ∀ s, (st.recordAt s).wire = [] → (st.recordAt s).eventID = []
  projected : ∀ s, (st.recordAt s).wire ≠ [] → ∃ e, Projection p facts events s (st.recordAt s) e
  root : ∀ caseID root, st.caseRoots.lookup caseID = some root → ∃ s e,
    Projection p facts events s (st.recordAt s) e ∧ e.schema = .case ∧ e.caseID = caseID ∧
      (st.recordAt s).eventID = root
  case : ∀ s e, Projection p facts events s (st.recordAt s) e → e.schema = .case →
    st.caseRoots.lookup e.caseID = some (st.recordAt s).eventID
  advice : ∀ s e, Projection p facts events s (st.recordAt s) e → e.schema = .advice →
    st.caseRoots.lookup e.caseID = some (st.recordAt s).rootEventID
  passed : ∀ s e s' e', Projection p facts events s (st.recordAt s) e → e.schema = .advice →
    Projection p facts events s' (st.recordAt s') e' → e'.schema = .case → e'.caseID = e.caseID →
    s' ≤ st.checkpoint
  bounded : st.checkpoint ≤ st.highWatermark

end

section Records
variable {p : Projector} {facts : Set CommittedFact} {events : Set NostrEvent}

section
variable {d d' : Delivery} {e e' : Envelope} {s s' : ℕ}

theorem eventID_ne_nil (p : Projector) (e : NostrEvent) : eventID p.sha256 e ≠ [] := by
  have hsize := p.digestSize (unescapeNostrLineSeparators (arrayText [text "0",
    quotePlain e.pubKey, decimal e.createdAt, decimal e.kind, tagsText e.tags,
    quotePlain e.content]))
  unfold eventID nostrDigest
  cases hdigest : p.sha256 _ with
  | nil =>
    rw [hdigest] at hsize
    cases hsize
  | cons => exact List.cons_ne_nil _ _

theorem Projection.named {s : ℕ} {d : Delivery} {e : Envelope}
    (h : Projection p facts events s d e) :
    d.wire ≠ [] ∧ d.eventID ≠ [] := by
  obtain ⟨channel, content, now, sig, card, -, hid, hwire, -⟩ := h.event
  rw [hid, hwire]
  exact ⟨marshalNostrEvent_ne_nil _, eventID_ne_nil p _⟩

theorem Projection.stands (hfacts : Ordered facts)
    (h : Projection p facts events s d e) (h' : Projection p facts events s' d' e') (hs : s = s') :
    e = e' := by
  have hrecord : d.record = d'.record := by
    refine hfacts.distinct _ h.fact _ h'.fact ?_
    rw [h.sequence, h'.sequence, hs]
  have hverified := h.verified
  rw [hrecord] at hverified
  exact hverified.unique h'.verified

theorem Projection.one_case (hfacts : Ordered facts)
    (h : Projection p facts events s d e) (h' : Projection p facts events s' d' e')
    (hcase : e.schema = .case) (hcase' : e'.schema = .case) (hid : e.caseID = e'.caseID) : s = s' := by
  have hrecord := hfacts.oneCase _ h.fact _ h'.fact e e' h.verified h'.verified hcase hcase' hid
  rw [← h.sequence, ← h'.sequence, hrecord]

theorem schema_injective {f g : Family} (h : f.schema = g.schema) : f = g := by
  revert h
  cases f <;> cases g <;> decide

theorem Projection.same_event
    (hnames : Set.InjOn (eventID p.sha256) events) (h : Projection p facts events s d e)
    (h' : Projection p facts events s' d' e') (hid : d.eventID = d'.eventID) :
    e.schema = e'.schema ∧ e.caseID = e'.caseID := by
  obtain ⟨channel, content, now, sig, card, hsigned, hname, -, -, hcard, hfamily, hcase⟩ := h.event
  obtain ⟨channel', content', now', sig', card', hsigned', hname', -, -, hcard', hfamily', hcase'⟩ := h'.event
  rw [hname, hname'] at hid
  have hcontent : content = content' := congrArg NostrEvent.content (hnames hsigned hsigned' hid)
  rw [hcontent, hcard'] at hcard
  cases hcard
  exact ⟨schema_injective (hfamily.symm.trans hfamily'), hcase.symm.trans hcase'⟩

end

/-! ### Changes of the state -/

section
variable {st : State} {e : Envelope} {d : Delivery} {s : ℕ}

structure SameRecord (d d' : Delivery) : Prop where
  wire : d'.wire = d.wire
  eventID : d'.eventID = d.eventID
  record : d.wire ≠ [] → d'.record = d.record ∧ d'.rootEventID = d.rootEventID

theorem SameRecord.projection {d d' : Delivery} (h : SameRecord d d') :
    Projection p facts events s d' e ↔ Projection p facts events s d e := by
  constructor
  · intro hd
    have hne : d.wire ≠ [] := h.wire ▸ hd.named.1
    obtain ⟨hrecord, hroot⟩ := h.record hne
    obtain ⟨hfact, hsequence, hverified, hevent⟩ := hd
    rw [hrecord] at hfact hsequence hverified
    rw [hroot, h.eventID, h.wire] at hevent
    exact ⟨hfact, hsequence, hverified, hevent⟩
  · intro hd
    obtain ⟨hrecord, hroot⟩ := h.record hd.named.1
    obtain ⟨hfact, hsequence, hverified, hevent⟩ := hd
    rw [← hrecord] at hfact hsequence hverified
    rw [← hroot, ← h.eventID, ← h.wire] at hevent
    exact ⟨hfact, hsequence, hverified, hevent⟩

theorem Rooted.congr {st st' : State} (h : Rooted p facts events st)
    (hsame : ∀ s, SameRecord (st.recordAt s) (st'.recordAt s)) (hroots : st'.caseRoots = st.caseRoots)
    (hcheckpoint : st.checkpoint ≤ st'.checkpoint) (hbounded : st'.checkpoint ≤ st'.highWatermark) :
    Rooted p facts events st' := by
  constructor
  · intro s hwire
    rw [(hsame s).wire] at hwire
    rw [(hsame s).eventID]
    exact h.fresh s hwire
  · intro s hwire
    rw [(hsame s).wire] at hwire
    obtain ⟨e, he⟩ := h.projected s hwire
    exact ⟨e, (hsame s).projection.mpr he⟩
  · intro caseID root hroot
    rw [hroots] at hroot
    obtain ⟨s, e, he, hcase, hid, hevent⟩ := h.root caseID root hroot
    exact ⟨s, e, (hsame s).projection.mpr he, hcase, hid, (hsame s).eventID.trans hevent⟩
  · intro s e he hcase
    rw [hroots, (hsame s).eventID]
    exact h.case s e ((hsame s).projection.mp he) hcase
  · intro s e he hadvice
    have hold := (hsame s).projection.mp he
    rw [hroots, ((hsame s).record hold.named.1).2]
    exact h.advice s e hold hadvice
  · intro s e s' e' he hadvice he' hcase hid
    have hpassed := h.passed s e s' e' ((hsame s).projection.mp he) hadvice
      ((hsame s').projection.mp he') hcase hid
    exact hpassed.trans hcheckpoint
  · exact hbounded

theorem SameRecord.refl (d : Delivery) : SameRecord d d := ⟨rfl, rfl, fun _ => ⟨rfl, rfl⟩⟩

theorem Rooted.setRecord (h : Rooted p facts events st)
    (hd : SameRecord (st.recordAt s) d) : Rooted p facts events (st.setRecord s d) := by
  refine h.congr ?_ rfl (le_refl _) h.bounded
  intro s'
  rw [State.recordAt_setRecord]
  split
  · rename_i hs
    subst hs
    exact hd
  · exact SameRecord.refl _

theorem Rooted.recordFailure (h : Rooted p facts events st) (s : ℕ) (cause : Cause) (n : ℕ) :
    Rooted p facts events (st.recordFailure s cause n) :=
  h.setRecord ⟨rfl, rfl, fun _ => ⟨rfl, rfl⟩⟩

theorem Rooted.touch (h : Rooted p facts events st) {f : CommittedFact}
    (hpositive : 0 < f.sequence) : Rooted p facts events (st.touch f) := by
  unfold State.touch
  split
  · rename_i hzero
    rw [beq_iff_eq] at hzero
    refine h.setRecord ⟨rfl, rfl, fun hwire => ?_⟩
    -- a record with an event has its fact already
    obtain ⟨e, he⟩ := h.projected _ hwire
    have hsequence := he.sequence
    omega
  · exact h

theorem Rooted.setCase (hfacts : Ordered facts) (h : Rooted p facts events st)
    (hd : Projection p facts events s d e) (hcase : e.schema = .case)
    (hahead : st.checkpoint < s) :
    Rooted p facts events ((st.setRecord s d).setRoot e.caseID d.eventID) := by
  have hat : ∀ s', ((st.setRecord s d).setRoot e.caseID d.eventID).recordAt s' =
      if s' = s then d else st.recordAt s' := by
    intro s'
    rw [State.recordAt_setRoot, State.recordAt_setRecord]
  -- no advice of this case has been prepared
  have hnone : ∀ s' e', Projection p facts events s' (st.recordAt s') e' → e'.schema = .advice →
      e'.caseID ≠ e.caseID := by
    intro s' e' he' hadvice hid
    obtain ⟨k, g, hg, hgcase, hgid, -⟩ := h.root _ _ (h.advice s' e' he' hadvice)
    have hk := hg.one_case hfacts hd hgcase hcase (hgid.trans hid)
    have hpassed := h.passed s' e' k g he' hadvice hg hgcase hgid
    omega
  have hother : ∀ s' e', s' ≠ s → Projection p facts events s' (st.recordAt s') e' → e'.schema = .case →
      e'.caseID ≠ e.caseID :=
    fun s' e' hne he' hcase' hid => hne (he'.one_case hfacts hd hcase' hcase hid)
  constructor
  · intro s' hwire
    rw [hat] at hwire ⊢
    split at hwire
    · exact absurd hwire hd.named.1
    · rename_i hne
      rw [if_neg hne]
      exact h.fresh s' hwire
  · intro s' hwire
    rw [hat] at hwire ⊢
    split at hwire
    · rename_i hs
      rw [if_pos hs, hs]
      exact ⟨e, hd⟩
    · rename_i hne
      rw [if_neg hne]
      exact h.projected s' hwire
  · intro caseID root hroot
    by_cases hid : caseID = e.caseID
    · subst hid
      have hroot : (st.caseRoots.insert e.caseID d.eventID).lookup e.caseID = some root := hroot
      rw [AList.lookup_insert] at hroot
      refine ⟨s, e, ?_, hcase, rfl, ?_⟩
      · rw [hat, if_pos rfl]
        exact hd
      · rw [hat, if_pos rfl]
        exact Option.some.inj hroot
    · have hroot : (st.caseRoots.insert e.caseID d.eventID).lookup caseID = some root := hroot
      rw [AList.lookup_insert_ne hid] at hroot
      obtain ⟨k, g, hg, hgcase, hgid, hevent⟩ := h.root caseID root hroot
      have hk : k ≠ s := by
        intro hk
        have hsame := hg.stands hfacts hd hk
        exact hid (hgid.symm.trans (hsame ▸ rfl))
      refine ⟨k, g, ?_, hgcase, hgid, ?_⟩
      · rw [hat, if_neg hk]
        exact hg
      · rw [hat, if_neg hk]
        exact hevent
  · intro s' e' he' hcase'
    rw [hat] at he' ⊢
    show (st.caseRoots.insert e.caseID d.eventID).lookup e'.caseID = _
    split at he'
    · rename_i hs
      have hsame := he'.stands hfacts hd hs
      rw [hsame, AList.lookup_insert, if_pos hs]
    · rename_i hne
      rw [if_neg hne, AList.lookup_insert_ne (hother s' e' hne he' hcase')]
      exact h.case s' e' he' hcase'
  · intro s' e' he' hadvice
    rw [hat] at he' ⊢
    show (st.caseRoots.insert e.caseID d.eventID).lookup e'.caseID = _
    split at he'
    · rename_i hs
      have hsame := he'.stands hfacts hd hs
      rw [hsame, hcase] at hadvice
      cases hadvice
    · rename_i hne
      rw [if_neg hne, AList.lookup_insert_ne (hnone s' e' he' hadvice)]
      exact h.advice s' e' he' hadvice
  · intro a ea k ek ha hadvice hk hkcase hid
    show k ≤ st.checkpoint
    rw [hat] at ha hk
    split at ha
    · rename_i hs
      have hsame := ha.stands hfacts hd hs
      rw [hsame, hcase] at hadvice
      cases hadvice
    · split at hk
      · rename_i hs
        have hsame := hk.stands hfacts hd hs
        exact absurd (hid.symm.trans (hsame ▸ rfl)) (hnone a ea ha hadvice)
      · exact h.passed a ea k ek ha hadvice hk hkcase hid
  · exact h.bounded

theorem Rooted.setAdvice (hfacts : Ordered facts) (h : Rooted p facts events st)
    (hd : Projection p facts events s d e) (hadvice : e.schema = .advice)
    (hroot : st.caseRoots.lookup e.caseID = some d.rootEventID)
    (hpassed : ∀ g ∈ facts, g.sequence < s → g.sequence ≤ st.checkpoint) :
    Rooted p facts events (st.setRecord s d) := by
  have hnot : ∀ s' d' e', Projection p facts events s' d' e' → e'.schema = .case → s' ≠ s := by
    intro s' d' e' he' hcase hs
    have hsame := he'.stands hfacts hd hs
    rw [hsame, hadvice] at hcase
    cases hcase
  constructor
  · intro s' hwire
    rw [State.recordAt_setRecord] at hwire ⊢
    split at hwire
    · exact absurd hwire hd.named.1
    · rename_i hne
      rw [if_neg hne]
      exact h.fresh s' hwire
  · intro s' hwire
    rw [State.recordAt_setRecord] at hwire ⊢
    split at hwire
    · rename_i hs
      rw [if_pos hs, hs]
      exact ⟨e, hd⟩
    · rename_i hne
      rw [if_neg hne]
      exact h.projected s' hwire
  · intro caseID root hfound
    obtain ⟨k, g, hg, hgcase, hgid, hevent⟩ := h.root caseID root hfound
    have hk := hnot k _ g hg hgcase
    refine ⟨k, g, ?_, hgcase, hgid, ?_⟩
    · rw [State.recordAt_setRecord, if_neg hk]
      exact hg
    · rw [State.recordAt_setRecord, if_neg hk]
      exact hevent
  · intro s' e' he' hcase
    have hne := hnot s' _ e' he' hcase
    rw [State.recordAt_setRecord, if_neg hne] at he' ⊢
    exact h.case s' e' he' hcase
  · intro s' e' he' hadvice'
    rw [State.recordAt_setRecord] at he' ⊢
    split at he'
    · rename_i hs
      have hsame := he'.stands hfacts hd hs
      rw [hsame, if_pos hs]
      exact hroot
    · rename_i hne
      rw [if_neg hne]
      exact h.advice s' e' he' hadvice'
  · intro a ea k ek ha hadvice' hk hkcase hid
    show k ≤ st.checkpoint
    have hne := hnot k _ ek hk hkcase
    rw [State.recordAt_setRecord, if_neg hne] at hk
    rw [State.recordAt_setRecord] at ha
    split at ha
    · rename_i hs
      have hsame := ha.stands hfacts hd hs
      rw [hsame] at hid
      have hfirst := hfacts.caseFirst _ hk.fact _ hd.fact ek e hk.verified hd.verified hkcase hadvice hid
      rw [hk.sequence, hd.sequence] at hfirst
      have hle := hpassed _ hk.fact (by rw [hk.sequence]; exact hfirst)
      rw [hk.sequence] at hle
      exact hle
    · exact h.passed a ea k ek ha hadvice' hk hkcase hid
  · exact h.bounded

end

/-! ### Prepared events -/

theorem Drafted.projection {f : CommittedFact} {channel root content : Bytes}
    {prepared : PreparedEvent}
    {e : Envelope} {card : CollaborationCard} {d : Delivery}
    (h : Drafted p (.committed facts events) channel root content prepared) (hf : f ∈ facts)
    (hverified : Verified f.raw e) (hcard : decodeCard content = some card)
    (hfamily : card.family = e.schema.schema) (hid : card.caseID = e.caseID) (hrecord : d.record = f)
    (hroot : d.rootEventID = root) (hevent : d.eventID = prepared.id) (hwire : d.wire = prepared.wire) :
    Projection p facts events f.sequence d e := by
  obtain ⟨now, sig, hsigned, rfl⟩ := h.made
  refine ⟨hrecord ▸ hf, hrecord ▸ rfl, hrecord ▸ hverified, channel, content, now, sig, card, ?_⟩
  rw [hroot]
  exact ⟨hsigned, hevent, hwire, (utf8Valid_iff content).mp h.utf8, hcard, hfamily, hid⟩

theorem Projection.evidence {s : ℕ} {d : Delivery} {e : Envelope} {old : NostrEvent}
    {channel : Bytes}
    {card : CollaborationCard} (h : Projection p facts events s d e)
    (hread : Projector.readEvidence d = .ok (old, channel, card)) :
    card.family = e.schema.schema ∧ card.caseID = e.caseID ∧ decodeCard old.content = some card ∧
      old.id = d.eventID := by
  obtain ⟨hold, hid, -, hcard, -⟩ := readEvidence_ok hread
  obtain ⟨channel', content, now, sig, card', -, -, hwire, hutf8, hcard', hfamily, hcase⟩ := h.event
  rw [hwire] at hold
  obtain ⟨hcontent, -⟩ := decodeNostrEvent_marshal hold
  have hcontent : old.content = content := hcontent.trans ((toValid_eq_self content).mpr hutf8)
  have hsame := hcard
  rw [hcontent, hcard'] at hsame
  cases hsame
  exact ⟨hfamily, hcase, hcard, hid⟩

/-! ### Along the moves -/

/-- The fact in hand is the next one, and the state has not fallen behind the durable one. -/
structure InHand (facts : Set CommittedFact) (c : Site) (f : CommittedFact) (st : State) : Prop where
  follows : Follows facts st.checkpoint f
  ahead : st.checkpoint < f.sequence
  watermark : f.sequence ≤ st.highWatermark
  checkpointKept : c.durable.checkpoint ≤ st.checkpoint
  watermarkKept : c.durable.highWatermark ≤ st.highWatermark

def Fit (p : Projector) (facts : Set CommittedFact) (events : Set NostrEvent) (c : Site) : Config → Prop
  | .idle => True
  | .head st => Rooted p facts events st ∧ c.durable.checkpoint ≤ st.checkpoint ∧
      c.durable.highWatermark ≤ st.highWatermark
  | .clean f st => Rooted p facts events st ∧ InHand facts c f st
  | .expired f st => Rooted p facts events st ∧ InHand facts c f st ∧ (st.recordAt f.sequence).wire ≠ []
  | .prepared f st _ => Rooted p facts events st ∧ InHand facts c f st
  | .ready f st _ => Rooted p facts events st ∧ InHand facts c f st
  | .settled f st => Rooted p facts events st ∧ InHand facts c f st
  | .dirty f st => Rooted p facts events st ∧ InHand facts c f st
  | .conflict _ _ => False

theorem Rooted.recalculateLag {st : State} (h : Rooted p facts events st) :
    Rooted p facts events st.recalculateLag :=
  h.congr (fun _ => SameRecord.refl _) rfl (le_refl _) h.bounded

theorem InHand.saved {c : Site} {f : CommittedFact} {st : State} (h : InHand facts c f st) :
    InHand facts (c.save st) f st :=
  ⟨h.follows, h.ahead, h.watermark, le_refl _, le_refl _⟩

theorem InHand.changed {c c' : Site} {f : CommittedFact} {st st' : State} (h : InHand facts c f st)
    (hdurable : c'.durable = c.durable) (hcheckpoint : st'.checkpoint = st.checkpoint)
    (hwatermark : st'.highWatermark = st.highWatermark) : InHand facts c' f st' := by
  obtain ⟨hfollows, hahead, hreached, hkept, hkept'⟩ := h
  rw [← hcheckpoint] at hfollows hahead hkept
  rw [← hwatermark] at hreached hkept'
  rw [← hdurable] at hkept hkept'
  exact ⟨hfollows, hahead, hreached, hkept, hkept'⟩

theorem Rooted.inHand {st : State} {c : Site} {f : CommittedFact} (hfacts : Ordered facts)
    (h : Rooted p facts events st) (hf : InHand facts c f st) (hwire : (st.recordAt f.sequence).wire ≠ []) :
    ∃ e, Projection p facts events f.sequence (st.recordAt f.sequence) e ∧ Verified f.raw e := by
  obtain ⟨e, he⟩ := h.projected f.sequence hwire
  have hrecord := hfacts.distinct _ he.fact _ hf.follows.1 he.sequence
  refine ⟨e, he, ?_⟩
  have hverified := he.verified
  rw [hrecord] at hverified
  exact hverified

theorem fit_move {x x' : Config} {c c' : Site} (hfacts : Ordered facts)
    (hmove : Move p (.committed facts events) (x, c) (x', c'))
    (hdurable : Rooted p facts events c.durable) (hfit : Fit p facts events c x) :
    Rooted p facts events c'.durable ∧ Fit p facts events c' x' := by
  cases hmove with
  | crash => exact ⟨hdurable, trivial⟩
  | load => exact ⟨hdurable, hdurable.recalculateLag, le_refl _, le_refl _⟩
  | take st f _ next ahead =>
    obtain ⟨hrooted, hcheckpoint, hwatermark⟩ := hfit
    have hraised : st.highWatermark ≤ (st.raise f).highWatermark ∧
        f.sequence ≤ (st.raise f).highWatermark ∧ (st.raise f).caseRoots = st.caseRoots := by
      unfold State.raise
      split
      · rename_i hbelow
        exact ⟨hbelow.le, le_refl _, rfl⟩
      · rename_i habove
        exact ⟨le_refl _, not_lt.mp habove, rfl⟩
    obtain ⟨hkept, hreached, hroots⟩ := hraised
    have hsame : ((st.raise f).touch f).checkpoint = st.checkpoint := by
      rw [State.checkpoint_touch, State.checkpoint_raise]
    have htouched : ((st.raise f).touch f).highWatermark = (st.raise f).highWatermark := by
      unfold State.touch
      split
      · rfl
      · rfl
    have hraise : Rooted p facts events (st.raise f) := by
      refine hrooted.congr ?_ hroots (st.checkpoint_raise f).ge ?_
      · intro s
        rw [State.recordAt_raise]
        exact SameRecord.refl _
      · rw [State.checkpoint_raise]
        exact hrooted.bounded.trans hkept
    refine ⟨hdurable, hraise.touch (by omega), ?_⟩
    constructor
    · rw [hsame]
      exact next
    · rw [hsame]
      exact ahead
    · rw [htouched]
      exact hreached
    · rw [hsame]
      exact hcheckpoint
    · rw [htouched]
      exact hwatermark.trans hkept
  | park => exact ⟨hdurable, hfit⟩
  | republish f st _ =>
    exact ⟨hdurable, hfit.1.setRecord ⟨rfl, rfl, fun _ => ⟨rfl, rfl⟩⟩,
      hfit.2.changed rfl rfl rfl⟩
  | unpublished f st _ => exact ⟨hdurable, hfit.1.recordFailure _ _ _, hfit.2.changed rfl rfl rfl⟩
  | expire f st _ live wire => exact ⟨hdurable, hfit.1, hfit.2.changed rfl rfl rfl, wire⟩
  | unreadable => exact ⟨hdurable, hfit.1, hfit.2.1⟩
  | adviceConflict f st _ old channel card read family differs =>
    obtain ⟨hrooted, hhand, hwire⟩ := hfit
    obtain ⟨e, he, -⟩ := hrooted.inHand hfacts hhand hwire
    obtain ⟨hfamily, hcase, -⟩ := he.evidence read
    have hadvice : e.schema = .advice := schema_injective (hfamily.symm.trans family)
    rw [hcase, hrooted.advice _ e he hadvice] at differs
    exact absurd rfl differs
  | unsuperseded f st _ =>
    exact ⟨hdurable, hfit.1.recordFailure _ _ _, hfit.2.1.changed rfl rfl rfl⟩
  | supersedeCase f st _ old channel card prepared now read family root drafted =>
    obtain ⟨hrooted, hhand, hwire⟩ := hfit
    obtain ⟨e, he, hverified⟩ := hrooted.inHand hfacts hhand hwire
    obtain ⟨hfamily, hcase, hcard, -⟩ := he.evidence read
    refine ⟨hdurable, ?_, hhand.changed rfl rfl rfl⟩
    rw [hcase]
    exact hrooted.setCase hfacts
      (drafted.projection hhand.follows.1 hverified hcard hfamily hcase rfl rfl rfl rfl)
      (schema_injective (hfamily.symm.trans family)) hhand.ahead
  | caseConflict f st _ old channel card prepared now read family differs =>
    obtain ⟨hrooted, hhand, hwire⟩ := hfit
    obtain ⟨e, he, -⟩ := hrooted.inHand hfacts hhand hwire
    obtain ⟨hfamily, hcase, -, hid⟩ := he.evidence read
    have hschema : e.schema = .case := schema_injective (hfamily.symm.trans family)
    rw [hcase, hrooted.case _ e he hschema, hid] at differs
    exact absurd rfl differs
  | supersedeAdvice f st _ old channel card prepared now read family root drafted =>
    obtain ⟨hrooted, hhand, hwire⟩ := hfit
    obtain ⟨e, he, hverified⟩ := hrooted.inHand hfacts hhand hwire
    obtain ⟨hfamily, hcase, hcard, -⟩ := he.evidence read
    have hadvice : e.schema = .advice := schema_injective (hfamily.symm.trans family)
    refine ⟨hdurable, ?_, hhand.changed rfl rfl rfl⟩
    exact hrooted.setAdvice hfacts
      (drafted.projection hhand.follows.1 hverified hcard hfamily hcase rfl rfl rfl rfl) hadvice
      (hrooted.advice _ e he hadvice) hhand.follows.2
  | refuse f st _ => exact ⟨hdurable, hfit.1.recordFailure _ _ _, hfit.2.changed rfl rfl rfl⟩
  | prepareCase f st _ e body channel content prepared live wire verified id family decoded card drafted =>
    obtain ⟨hrooted, hhand⟩ := hfit
    obtain ⟨found, hcard, hfamily, hcase⟩ := decodeCard_renderCard card (verified.caseID_utf8 (.inl family))
    refine ⟨hdurable, ?_, hhand.changed rfl rfl rfl⟩
    exact hrooted.setCase hfacts
      (drafted.projection hhand.follows.1 verified hcard hfamily hcase rfl rfl rfl rfl) family hhand.ahead
  | prepareAdvice f st _ e body root delivery content prepared live wire verified id family decoded
      found case card drafted =>
    obtain ⟨hrooted, hhand⟩ := hfit
    obtain ⟨read, hcard, hfamily, hcase⟩ := decodeCard_renderCard card (verified.caseID_utf8 (.inr family))
    refine ⟨hdurable, ?_, hhand.changed rfl rfl rfl⟩
    exact hrooted.setAdvice hfacts
      (drafted.projection hhand.follows.1 verified hcard hfamily hcase rfl rfl rfl rfl) family found
      hhand.follows.2
  | save f st wire => exact ⟨hfit.1.recalculateLag, hfit.1, hfit.2.saved⟩
  | unsaved => exact ⟨hdurable, hfit⟩
  | lost f st wire => exact ⟨hfit.1.recalculateLag, hfit.1, hfit.2.saved⟩
  | publish f st wire =>
    exact ⟨hdurable, hfit.1.setRecord ⟨rfl, rfl, fun _ => ⟨rfl, rfl⟩⟩,
      hfit.2.changed rfl rfl rfl⟩
  | rejected f st wire _ fault => exact ⟨hdurable, hfit.1.recordFailure _ _ _, hfit.2.changed rfl rfl rfl⟩
  | keep f st => exact ⟨hfit.1.recalculateLag.recalculateLag, trivial⟩
  | keepConflict => exact absurd hfit id
  | advance f st =>
    obtain ⟨hrooted, hhand⟩ := hfit
    have hadvanced : Rooted p facts events (st.advance f) :=
      hrooted.congr (fun _ => SameRecord.refl _) rfl hhand.ahead.le hhand.watermark
    exact ⟨hadvanced.recalculateLag, hadvanced, le_refl _, le_refl _⟩

/-! ### Runs -/

section
variable {c c' : Site} {x x' : Config} {st : State}

theorem Rooted.initial : Rooted p facts events {} := by
  have hempty : ∀ s, (({} : State).recordAt s).wire = [] := fun s => rfl
  constructor
  · exact fun s _ => rfl
  · exact fun s hwire => absurd (hempty s) hwire
  · intro caseID root hroot
    cases hroot
  · exact fun s e he _ => absurd (hempty s) he.named.1
  · exact fun s e he _ => absurd (hempty s) he.named.1
  · exact fun s e s' e' he _ _ _ _ => absurd (hempty s) he.named.1
  · exact le_refl _

structure Grown (c c' : Site) : Prop where
  checkpoint : c.durable.checkpoint ≤ c'.durable.checkpoint
  highWatermark : c.durable.highWatermark ≤ c'.durable.highWatermark
  superseded : ∀ s, (c.durable.recordAt s).superseded <+: (c'.durable.recordAt s).superseded

theorem Grown.same (h : c'.durable = c.durable) : Grown c c' := by
  constructor
  · rw [h]
  · rw [h]
  · intro s
    rw [h]

theorem Grown.trans {c c' c'' : Site} (h : Grown c c') (h' : Grown c' c'') : Grown c c'' :=
  ⟨h.checkpoint.trans h'.checkpoint, h.highWatermark.trans h'.highWatermark,
    fun s => (h.superseded s).trans (h'.superseded s)⟩

theorem Grown.save {c : Site} (hheld : Held c) (hsavable : Savable c st)
    (hcheckpoint : c.durable.checkpoint ≤ st.checkpoint)
    (hwatermark : c.durable.highWatermark ≤ st.highWatermark) : Grown c (c.save st) :=
  ⟨hcheckpoint, hwatermark, fun s => (hsavable s).history_grows (hheld.kept s)⟩

structure Steady (p : Projector) (facts : Set CommittedFact) (events : Set NostrEvent) (x : Config)
    (c : Site) : Prop where
  held : Held c
  point : Point c x
  rooted : Rooted p facts events c.durable
  fit : Fit p facts events c x

theorem grown_move
    (hmove : Move p (.committed facts events) (x, c) (x', c')) (h : Steady p facts events x c) :
    Grown c c' := by
  obtain ⟨hheld, hpoint, -, hfit⟩ := h
  have hsave : ∀ (f : CommittedFact) (st : State), Savable c st → InHand facts c f st →
      Grown c (c.save st) :=
    fun f st hsavable hhand => .save hheld hsavable hhand.checkpointKept hhand.watermarkKept
  cases hmove with
  | save f st | lost f st => exact hsave f st hpoint.1 hfit.2
  | keep f st => exact hsave f st hpoint hfit.2
  | keepConflict => exact absurd hfit id
  | advance =>
    have hhand := hfit.2
    exact .save hheld (Synced.savable hpoint) (hhand.checkpointKept.trans hhand.ahead.le)
      hhand.watermarkKept
  | _ => exact Grown.same rfl

theorem steady_move (hfacts : Ordered facts)
    (hmove : Move p (.committed facts events) (x, c) (x', c')) (h : Steady p facts events x c) :
    Steady p facts events x' c' := by
  obtain ⟨hheld, hpoint⟩ := held_move hmove h.held h.point
  obtain ⟨hrooted, hfit⟩ := fit_move hfacts hmove h.rooted h.fit
  exact ⟨hheld, hpoint, hrooted, hfit⟩

theorem steady_moves (hfacts : Ordered facts)
    (hmoves : Moves p (.committed facts events) (x, c) (x', c')) (h : Steady p facts events x c) :
    Steady p facts events x' c' ∧ Grown c c' := by
  generalize hy : (x', c') = y at hmoves
  induction hmoves generalizing x' c' with
  | refl =>
    cases hy
    exact ⟨h, Grown.same rfl⟩
  | @tail mid y _ hmove ih =>
    subst hy
    obtain ⟨x₁, c₁⟩ := mid
    obtain ⟨hsteady, hgrown⟩ := ih rfl
    exact ⟨steady_move hfacts hmove hsteady, hgrown.trans (grown_move hmove hsteady)⟩

theorem Steady.initial : Steady p facts events .idle {} :=
  ⟨Held.initial, trivial, Rooted.initial, trivial⟩

theorem Rooted.root_unique (hfacts : Ordered facts)
    (hnames : Set.InjOn (eventID p.sha256) events) (h : Rooted p facts events st) {caseID root : Bytes}
    (hroot : st.caseRoots.lookup caseID = some root) :
    ∃ s e, ((st.recordAt s).record ∈ facts ∧ (st.recordAt s).record.sequence = s ∧
      Verified (st.recordAt s).record.raw e ∧ e.schema = .case ∧ e.caseID = caseID) ∧
      ∀ s', (st.recordAt s').eventID = root ↔ s' = s := by
  obtain ⟨s, e, he, hcase, hid, hevent⟩ := h.root caseID root hroot
  refine ⟨s, e, ⟨he.fact, he.sequence, he.verified, hcase, hid⟩, ?_⟩
  intro s'
  constructor
  · intro hs'
    have hsame : (st.recordAt s').eventID = (st.recordAt s).eventID := hs'.trans hevent.symm
    have hwire : (st.recordAt s').wire ≠ [] := by
      intro hfresh
      rw [h.fresh s' hfresh] at hsame
      exact he.named.2 hsame.symm
    obtain ⟨e', he'⟩ := h.projected s' hwire
    obtain ⟨hschema, hcaseID⟩ := he'.same_event hnames he hsame
    exact he'.one_case hfacts he (hschema.trans hcase) hcase hcaseID
  · intro hs'
    rw [hs']
    exact hevent

end

end Records

/-- Passes over facts in order, at most one case for each case ID and each advice after its
case, with distinct events under distinct names; whatever the relay and the other surroundings
answer, and cut off anywhere. -/
theorem projector_state_invariant (p : Projector) (facts : Set CommittedFact)
    (events : Set NostrEvent)
    (hfacts : Ordered facts) (hnames : Set.InjOn (eventID p.sha256) events) (c : Site)
    (hrun : Passes p (.committed facts events) {} c) :
    (∀ caseID root, c.durable.caseRoots.lookup caseID = some root → ∃ s e,
      ((c.durable.recordAt s).record ∈ facts ∧ (c.durable.recordAt s).record.sequence = s ∧
        Verified (c.durable.recordAt s).record.raw e ∧ e.schema = .case ∧ e.caseID = caseID) ∧
      ∀ s', (c.durable.recordAt s').eventID = root ↔ s' = s) ∧
    (∀ s e, (c.durable.recordAt s).wire ≠ [] → Verified (c.durable.recordAt s).record.raw e →
      e.schema = .advice →
      c.durable.caseRoots.lookup e.caseID = some (c.durable.recordAt s).rootEventID) ∧
    c.durable.checkpoint ≤ c.durable.highWatermark ∧
    (∀ c', Passes p (.committed facts events) c c' → Grown c c') ∧
    ∀ limit out last, Prog.Course (Performs (.committed facts events)) (p.project limit) c (some out) last →
      ∀ err cause, out.2 = .error err → ProjectError.cause err = some cause →
        cause ≠ .adviceRootConflict ∧ cause ≠ .caseRootConflict := by
  obtain ⟨hsteady, -⟩ := steady_moves hfacts (passes_reach hrun) Steady.initial
  have hrooted := hsteady.rooted
  refine ⟨fun caseID root => hrooted.root_unique hfacts hnames, ?_, hrooted.bounded, ?_, ?_⟩
  · intro s e hwire hverified hadvice
    obtain ⟨e', he'⟩ := hrooted.projected s hwire
    have hsame := hverified.unique he'.verified
    subst hsame
    exact hrooted.advice s e he' hadvice
  · intro c' hrun'
    exact (steady_moves hfacts (passes_reach hrun') hsteady).2
  · intro limit out last hcourse err cause herr hcause
    rw [← not_or]
    intro hconflict
    obtain ⟨f, st, c', hreach⟩ := passes_report hrun hcourse err cause herr hcause hconflict
    exact (steady_moves hfacts hreach Steady.initial).1.fit

namespace Sample

theorem verify_eq_ok (raw : Bytes) (e : Envelope) : verify raw = .ok e ↔ Verified raw e := by
  unfold verify
  simp only [bind_eq_ok]
  constructor
  · rintro ⟨e', hdecoded, ⟨⟩, hheader, ⟨⟩, hcontent, hpure⟩
    cases hpure
    exact ⟨hdecoded, hheader, hcontent⟩
  · rintro ⟨hdecoded, hheader, hcontent⟩
    exact ⟨e, hdecoded, (), hheader, (), hcontent, rfl⟩

theorem verified_family : (verify caseRaw).map Envelope.schema = .ok .case ∧
    (verify adviceRaw).map Envelope.schema = .ok .advice := by
  decide +kernel

theorem caseRaw_family {e : Envelope} (h : Verified caseRaw e) : e.schema = .case := by
  have hfamily := verified_family.1
  rw [(verify_eq_ok _ _).mpr h] at hfamily
  exact Except.ok.inj hfamily

theorem adviceRaw_family {e : Envelope} (h : Verified adviceRaw e) : e.schema = .advice := by
  have hfamily := verified_family.2
  rw [(verify_eq_ok _ _).mpr h] at hfamily
  exact Except.ok.inj hfamily

theorem facts_ordered : Ordered {f | f ∈ facts} := by
  have hmem : ∀ f, f ∈ facts ↔ f = ⟨1, text "i", text "h", caseRaw⟩ ∨ f = ⟨2, text "j", text "k", adviceRaw⟩ := by
    intro f
    simp [facts]
  constructor
  · intro f hf g hg hsequence
    rcases (hmem f).mp hf with rfl | rfl
    · rcases (hmem g).mp hg with rfl | rfl
      · rfl
      · exact absurd hsequence (by decide)
    · rcases (hmem g).mp hg with rfl | rfl
      · exact absurd hsequence (by decide)
      · rfl
  · intro f hf g hg e e' he he' hcase hcase' _
    rcases (hmem f).mp hf with rfl | rfl
    · rcases (hmem g).mp hg with rfl | rfl
      · rfl
      · rw [adviceRaw_family he'] at hcase'
        cases hcase'
    · rw [adviceRaw_family he] at hcase
      cases hcase
  · intro f hf g hg e e' he he' hcase hadvice _
    rcases (hmem f).mp hf with rfl | rfl
    · rcases (hmem g).mp hg with rfl | rfl
      · rw [caseRaw_family he'] at hadvice
        cases hadvice
      · decide
    · rw [adviceRaw_family he] at hcase
      cases hcase

/-- The events of the thread: the card of the case, then the card of the advice. -/
def opening : NostrEvent := (projector 1 one_positive).draft channel []
  (cardText ⟨Family.case.schema, text "c", text "i", text "h", text "t", []⟩) 0

def reply : NostrEvent := (projector 1 one_positive).draft channel (eventID sha256 opening)
  (cardText ⟨Family.advice.schema, text "c", text "j", text "k", [], text "t"⟩) 1000000000

def threadWorld : World := { world fun _ => .ok () with
  sign := fun e => if e = opening ∨ e = reply then .ok (text "s") else .error (.error (text "n")) }

def thread : Site := threadWorld.passes (projector 1 one_positive) 2 1 {}

theorem facts_follow (after : ℕ) : Follows {f | f ∈ facts} after ⟨1, text "i", text "h", caseRaw⟩ ∧
    (1 ≤ after → Follows {f | f ∈ facts} after ⟨2, text "j", text "k", adviceRaw⟩) := by
  have hsequences : ∀ g ∈ facts, g.sequence = 1 ∨ g.sequence = 2 := by
    simp [facts]
  refine ⟨⟨by simp [facts], ?_⟩, fun hafter => ⟨by simp [facts], ?_⟩⟩
  · intro g hg (hbelow : g.sequence < 1)
    have hsequence := hsequences g hg
    omega
  · intro g hg (hbelow : g.sequence < 2)
    have hsequence := hsequences g hg
    omega

theorem threadWorld_fits : threadWorld.Fits (.committed {f | f ∈ facts} {opening, reply}) := by
  constructor
  · intro after limit
    show Rules.Feed _ after ((facts.filter fun f => after < f.sequence).take limit)
    have hfirst := (facts_follow after).1
    match after, limit with
    | 0, 0 => trivial
    | 0, 1 => exact ⟨hfirst, trivial⟩
    | 0, n + 2 =>
      have hboth : (facts.filter fun f => 0 < f.sequence).take (n + 2) = facts := by
        simp [facts]
      rw [hboth]
      exact ⟨hfirst, (facts_follow 1).2 (le_refl _), trivial⟩
    | 1, 0 => trivial
    | 1, n + 1 =>
      have hsecond : (facts.filter fun f => 1 < f.sequence).take (n + 1) =
          [⟨2, text "j", text "k", adviceRaw⟩] := by
        simp [facts]
      rw [hsecond]
      exact ⟨(facts_follow 1).2 (le_refl _), trivial⟩
    | n + 2, limit =>
      have hnone : (facts.filter fun f => n + 2 < f.sequence) = [] := by
        simp [facts]
      rw [hnone, List.take_nil]
      trivial
  · intro raw e hverify
    exact (verify_eq_ok raw e).mp (mapError_eq_ok.mp hverify)
  · intro e sig hsign
    by_cases hknown : e = opening ∨ e = reply
    · exact hknown
    · have hrefused : threadWorld.sign e = .error (.error (text "n")) := if_neg hknown
      rw [hrefused] at hsign
      cases hsign

theorem thread_names : Set.InjOn (eventID sha256) {opening, reply} := by
  have hdiffers : eventID sha256 opening ≠ eventID sha256 reply := by
    decide +kernel
  intro e he e' he' hsame
  rcases he with rfl | rfl
  · rcases he' with rfl | rfl
    · rfl
    · exact absurd hsame hdiffers
  · rcases he' with rfl | rfl
    · exact absurd hsame.symm hdiffers
    · rfl

end Sample

theorem projector_state_invariant_sample :
    Passes (Sample.projector 1 Sample.one_positive)
      (.committed {f | f ∈ Sample.facts} {Sample.opening, Sample.reply}) {} Sample.thread ∧
    Sample.thread.log.map (fun e => (e.sequence, e.outcome)) = [(1, .ok ()), (2, .ok ())] ∧
    Sample.thread.durable.caseRoots.lookup (text "c") = some (eventID Sample.sha256 Sample.opening) ∧
    ∃ s e, ((Sample.thread.durable.recordAt s).record ∈ {f | f ∈ Sample.facts} ∧
        (Sample.thread.durable.recordAt s).record.sequence = s ∧
        Verified (Sample.thread.durable.recordAt s).record.raw e ∧ e.schema = .case ∧
        e.caseID = text "c") ∧
      ∀ s', (Sample.thread.durable.recordAt s').eventID = eventID Sample.sha256 Sample.opening ↔ s' = s := by
  have hrun : Passes (Sample.projector 1 Sample.one_positive)
      (.committed {f | f ∈ Sample.facts} {Sample.opening, Sample.reply}) {} Sample.thread :=
    Sample.threadWorld_fits.passes (Sample.projector 1 Sample.one_positive) 2 1 {}
  have hinvariant := projector_state_invariant (Sample.projector 1 Sample.one_positive)
    {f | f ∈ Sample.facts} {Sample.opening, Sample.reply} Sample.facts_ordered Sample.thread_names
    Sample.thread hrun
  have hroot : Sample.thread.durable.caseRoots.lookup (text "c") =
      some (eventID Sample.sha256 Sample.opening) := by
    decide +kernel
  exact ⟨hrun, by decide +kernel, hroot, hinvariant.1 _ _ hroot⟩

end Snagline.Buzz
