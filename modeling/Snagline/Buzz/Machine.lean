import Mathlib.Logic.Relation
import Snagline.Buzz.Projector
import Snagline.Kit.Course

/-!
# The projector as a machine

`Move` lists everything a pass can do, from one save or publication to the next: which
record is in hand, what of it is durable, and what has been handed to the relay. Every run
of passes, cut off anywhere, goes through moves of this machine (`passes_reach`), and the
properties of the projector are proved over the moves.
-/

namespace Snagline.Buzz
open Kit Ssp

/-! ### What is durable, and what went out -/

structure Publication where
  sequence : ℕ
  wire : Bytes
  outcome : Except Fault Unit
  stored : State

structure Site where
  durable : State := {}
  log : List Publication := []

def Site.publish (c : Site) (sequence : ℕ) (wire : Bytes) (outcome : Except Fault Unit) : Site :=
  { c with log := c.log ++ [⟨sequence, wire, outcome, c.durable⟩] }

def Site.save (c : Site) (st : State) : Site := { c with durable := st.recalculateLag }

structure Rules where
  /-- The fact may follow the checkpoint. -/
  next : ℕ → CommittedFact → Prop
  verifies : Bytes → Envelope → Prop
  signs : NostrEvent → Prop

def Rules.Feed (rules : Rules) : ℕ → List CommittedFact → Prop
  | _, [] => True
  | checkpoint, f :: fs => rules.next checkpoint f ∧ rules.Feed f.sequence fs

inductive Performs (rules : Rules) : (a : Act) → Site → Except Fault a.Reply → Site → Prop where
  | loaded (c : Site) : Performs rules .load c (.ok c.durable) c
  | unloaded (c : Site) (f : Fault) : Performs rules .load c (.error f) c
  | read (c : Site) (after limit : ℕ) (facts : List CommittedFact) (feed : rules.Feed after facts) :
      Performs rules (.readAfter after limit) c (.ok facts) c
  | unread (c : Site) (after limit : ℕ) (f : Fault) :
      Performs rules (.readAfter after limit) c (.error f) c
  | verified (c : Site) (raw : Bytes) (e : Envelope) (ok : rules.verifies raw e) :
      Performs rules (.verifyCommitted raw) c (.ok e) c
  | unverified (c : Site) (raw : Bytes) (f : Fault) :
      Performs rules (.verifyCommitted raw) c (.error f) c
  | channel (c : Site) (domain channel : Bytes) :
      Performs rules (.channelForDomain domain) c (.ok channel) c
  | unmapped (c : Site) (domain : Bytes) (f : Fault) :
      Performs rules (.channelForDomain domain) c (.error f) c
  | clock (c : Site) (now : Time) : Performs rules .clock c (.ok now) c
  | signed (c : Site) (event : NostrEvent) (sig : Bytes) (ok : rules.signs event) :
      Performs rules (.signDigest event) c (.ok sig) c
  | unsigned (c : Site) (event : NostrEvent) (f : Fault) :
      Performs rules (.signDigest event) c (.error f) c
  | saved (c : Site) (st : State) : Performs rules (.save st) c (.ok ()) (c.save st)
  | unsaved (c : Site) (st : State) (f : Fault) : Performs rules (.save st) c (.error f) c
  | lost (c : Site) (st : State) (f : Fault) : Performs rules (.save st) c (.error f) (c.save st)
  | published (c : Site) (sequence : ℕ) (wire : Bytes) (r : Except Fault Unit) :
      Performs rules (.publish sequence wire) c r (c.publish sequence wire r)

/-! ### Moves -/

/-- An event made by `prepare`. -/
structure Drafted (p : Projector) (rules : Rules) (channel root content : Bytes)
    (prepared : PreparedEvent) : Prop where
  utf8 : utf8Valid content = true
  nonempty : content ≠ []
  canonical : canonicalUUID channel = true
  made : ∃ now sig, rules.signs (p.draft channel root content now) ∧
    prepared = ⟨eventID p.sha256 (p.draft channel root content now),
      marshalNostrEvent (p.signed (p.draft channel root content now) sig)⟩

inductive Config where
  | idle
  | head (st : State)
  | clean (f : CommittedFact) (st : State)
  | expired (f : CommittedFact) (st : State)
  | prepared (f : CommittedFact) (st : State) (wire : Bytes)
  | ready (f : CommittedFact) (st : State) (wire : Bytes)
  | settled (f : CommittedFact) (st : State)
  | dirty (f : CommittedFact) (st : State)
  | conflict (f : CommittedFact) (st : State)

inductive Move (p : Projector) (rules : Rules) : Config × Site → Config × Site → Prop where
  | crash (x : Config) (c : Site) : Move p rules (x, c) (.idle, c)
  | load (c : Site) : Move p rules (.idle, c) (.head c.durable.recalculateLag, c)
  | take (st : State) (f : CommittedFact) (c : Site) (next : rules.next st.checkpoint f)
      (ahead : st.checkpoint < f.sequence) (present : f.raw ≠ []) :
      Move p rules (.head st, c) (.clean f ((st.raise f).touch f), c)
  | park (f : CommittedFact) (st : State) (c : Site) (parked : (st.recordAt f.sequence).status = .poison) :
      Move p rules (.clean f st, c) (.settled f st, c)
  | republish (f : CommittedFact) (st : State) (c : Site)
      (live : (st.recordAt f.sequence).status ≠ .poison) (wire : (st.recordAt f.sequence).wire ≠ []) :
      Move p rules (.clean f st, c) (.settled f (st.markRepublished f),
        c.publish f.sequence (st.recordAt f.sequence).wire (.ok ()))
  | unpublished (f : CommittedFact) (st : State) (c : Site) (fault : Fault) (other : fault ≠ .expiredAbsent)
      (live : (st.recordAt f.sequence).status ≠ .poison) (wire : (st.recordAt f.sequence).wire ≠ []) :
      Move p rules (.clean f st, c)
        (.dirty f (st.recordFailure f.sequence (.fault fault) p.maxAttempts),
          c.publish f.sequence (st.recordAt f.sequence).wire (.error fault))
  | expire (f : CommittedFact) (st : State) (c : Site)
      (live : (st.recordAt f.sequence).status ≠ .poison) (wire : (st.recordAt f.sequence).wire ≠ []) :
      Move p rules (.clean f st, c)
        (.expired f st, c.publish f.sequence (st.recordAt f.sequence).wire (.error .expiredAbsent))
  | unreadable (f : CommittedFact) (st : State) (c : Site) (e : RecordError)
      (bad : Projector.readEvidence (st.recordAt f.sequence) = .error e) :
      Move p rules (.expired f st, c) (.dirty f st, c)
  | adviceConflict (f : CommittedFact) (st : State) (c : Site) (old : NostrEvent) (channel : Bytes)
      (card : CollaborationCard)
      (read : Projector.readEvidence (st.recordAt f.sequence) = .ok (old, channel, card))
      (family : card.family = Family.advice.schema)
      (differs : (st.caseRoots.lookup card.caseID).getD [] ≠ (st.recordAt f.sequence).rootEventID) :
      Move p rules (.expired f st, c) (.conflict f st, c)
  | unsuperseded (f : CommittedFact) (st : State) (c : Site) (cause : Cause) :
      Move p rules (.expired f st, c) (.dirty f (st.recordFailure f.sequence cause p.maxAttempts), c)
  | supersedeCase (f : CommittedFact) (st : State) (c : Site) (old : NostrEvent) (channel : Bytes)
      (card : CollaborationCard) (prepared : PreparedEvent) (now : Time)
      (read : Projector.readEvidence (st.recordAt f.sequence) = .ok (old, channel, card))
      (family : card.family = Family.case.schema)
      (root : (st.caseRoots.lookup card.caseID).getD [] = old.id)
      (drafted : Drafted p rules channel (st.recordAt f.sequence).rootEventID old.content prepared) :
      Move p rules (.expired f st, c)
        (.prepared f ((st.replaced f prepared now).setRoot card.caseID prepared.id) prepared.wire, c)
  | caseConflict (f : CommittedFact) (st : State) (c : Site) (old : NostrEvent) (channel : Bytes)
      (card : CollaborationCard) (prepared : PreparedEvent) (now : Time)
      (read : Projector.readEvidence (st.recordAt f.sequence) = .ok (old, channel, card))
      (family : card.family = Family.case.schema)
      (differs : (st.caseRoots.lookup card.caseID).getD [] ≠ old.id)
      (drafted : Drafted p rules channel (st.recordAt f.sequence).rootEventID old.content prepared) :
      Move p rules (.expired f st, c) (.conflict f (st.replaced f prepared now), c)
  | supersedeAdvice (f : CommittedFact) (st : State) (c : Site) (old : NostrEvent) (channel : Bytes)
      (card : CollaborationCard) (prepared : PreparedEvent) (now : Time)
      (read : Projector.readEvidence (st.recordAt f.sequence) = .ok (old, channel, card))
      (family : card.family = Family.advice.schema)
      (root : (st.caseRoots.lookup card.caseID).getD [] = (st.recordAt f.sequence).rootEventID)
      (drafted : Drafted p rules channel (st.recordAt f.sequence).rootEventID old.content prepared) :
      Move p rules (.expired f st, c) (.prepared f (st.replaced f prepared now) prepared.wire, c)
  | refuse (f : CommittedFact) (st : State) (c : Site) (cause : Cause)
      (live : (st.recordAt f.sequence).status ≠ .poison) (wire : (st.recordAt f.sequence).wire = []) :
      Move p rules (.clean f st, c) (.dirty f (st.recordFailure f.sequence cause p.maxAttempts), c)
  | prepareCase (f : CommittedFact) (st : State) (c : Site) (e : Envelope)
      (body : Edge.VerifiedCaseBody) (channel content : Bytes) (prepared : PreparedEvent)
      (live : (st.recordAt f.sequence).status ≠ .poison) (wire : (st.recordAt f.sequence).wire = [])
      (verified : rules.verifies f.raw e) (id : e.id = f.envelopeID) (family : e.schema = .case)
      (decoded : Projector.decodeCaseBody e.body = some body)
      (card : renderCard e f.commitment body.publicSummary [] = some content)
      (drafted : Drafted p rules channel [] content prepared) :
      Move p rules (.clean f st, c)
        (.prepared f ((st.prepared f [] prepared).setRoot e.caseID prepared.id) prepared.wire, c)
  | prepareAdvice (f : CommittedFact) (st : State) (c : Site) (e : Envelope)
      (body : Edge.VerifiedAdviceBody) (root : Bytes) (delivery : Delivery) (content : Bytes)
      (prepared : PreparedEvent)
      (live : (st.recordAt f.sequence).status ≠ .poison) (wire : (st.recordAt f.sequence).wire = [])
      (verified : rules.verifies f.raw e) (id : e.id = f.envelopeID) (family : e.schema = .advice)
      (decoded : Projector.decodeAdviceBody e.body = some body)
      (found : st.caseRoots.lookup e.caseID = some root)
      (case : st.caseDelivery e.caseID = some delivery)
      (card : renderCard e f.commitment [] body.publicSummary = some content)
      (drafted : Drafted p rules (eventChannel delivery.wire) root content prepared) :
      Move p rules (.clean f st, c) (.prepared f (st.prepared f root prepared) prepared.wire, c)
  | save (f : CommittedFact) (st : State) (wire : Bytes) (c : Site) :
      Move p rules (.prepared f st wire, c) (.ready f st wire, c.save st)
  | unsaved (f : CommittedFact) (st : State) (wire : Bytes) (c : Site) :
      Move p rules (.prepared f st wire, c) (.dirty f st, c)
  | lost (f : CommittedFact) (st : State) (wire : Bytes) (c : Site) :
      Move p rules (.prepared f st wire, c) (.dirty f st, c.save st)
  | publish (f : CommittedFact) (st : State) (wire : Bytes) (c : Site) :
      Move p rules (.ready f st wire, c)
        (.settled f (st.markPublished f), c.publish f.sequence wire (.ok ()))
  | rejected (f : CommittedFact) (st : State) (wire : Bytes) (c : Site) (fault : Fault) :
      Move p rules (.ready f st wire, c)
        (.dirty f (st.recordFailure f.sequence (.fault fault) p.maxAttempts),
          c.publish f.sequence wire (.error fault))
  | keep (f : CommittedFact) (st : State) (c : Site) :
      Move p rules (.dirty f st, c) (.idle, c.save st.recalculateLag)
  | keepConflict (f : CommittedFact) (st : State) (c : Site) :
      Move p rules (.conflict f st, c) (.idle, c.save st.recalculateLag)
  | advance (f : CommittedFact) (st : State) (c : Site) :
      Move p rules (.settled f st, c) (.head (st.advance f), c.save (st.advance f))

abbrev Moves (p : Projector) (rules : Rules) : Config × Site → Config × Site → Prop :=
  Relation.ReflTransGen (Move p rules)

/-! ### Passes go through moves -/

def RecordResult.config (f : CommittedFact) : RecordResult → Config
  | (st, .ok _) => .settled f st
  | (st, .error .adviceRootConflict) => .conflict f st
  | (st, .error .caseRootConflict) => .conflict f st
  | (st, .error _) => .dirty f st

theorem readEvidence_fails {d : Delivery} {e : RecordError}
    (h : Projector.readEvidence d = .error e) :
    e = .invalidEvidence ∨ (∃ x, e = .channelTag x) ∨ e = .invalidCard := by
  have hfails : Fails (fun e => e = .invalidEvidence ∨ (∃ x, e = .channelTag x) ∨ e = .invalidCard)
      (Projector.readEvidence d) := by
    unfold Projector.readEvidence
    refine fails_bind (fails_orFail (.inl rfl) _) fun _ => ?_
    refine fails_bind (fails_ensure (.inl rfl) _) fun _ => ?_
    refine fails_bind (fails_mapError (fun x => .inr (.inl ⟨x, rfl⟩)) _) fun _ => ?_
    refine fails_bind (fails_orFail (.inr (.inr rfl)) _) fun _ => ?_
    refine fails_bind (fails_ensure (.inr (.inr rfl)) _) fun _ => ?_
    exact fails_pure
  exact hfails e h

theorem readEvidence_ok {d : Delivery} {old : NostrEvent} {channel : Bytes}
    {card : CollaborationCard}
    (h : Projector.readEvidence d = .ok (old, channel, card)) :
    decodeNostrEvent d.wire = some old ∧ old.id = d.eventID ∧ stockEventChannel old = .ok channel ∧
      decodeCard old.content = some card ∧
      (card.family = Family.case.schema ∨ card.family = Family.advice.schema) := by
  unfold Projector.readEvidence at h
  obtain ⟨old', hold, h⟩ := orFail_bind_eq_ok.mp h
  obtain ⟨hevent, h⟩ := ensure_bind_eq_ok.mp h
  obtain ⟨channel', hchannel, h⟩ := bind_eq_ok.mp h
  obtain ⟨card', hcard, h⟩ := orFail_bind_eq_ok.mp h
  obtain ⟨hfamily, h⟩ := ensure_bind_eq_ok.mp h
  cases h
  simp only [Bool.and_eq_true, Bool.or_eq_true, beq_iff_eq] at hevent hfamily
  exact ⟨hold, hevent.1.1, mapError_eq_ok.mp hchannel, hcard, hfamily.2⟩

section Walk
variable {p : Projector} {rules : Rules} {start : Config × Site}
variable {f : CommittedFact} {c : Site} {st : State}
  {out : Projector.ProjectResult × Except Projector.ProjectError Unit} {I : Site → Prop}
  {e : RecordError}

def Visited (p : Projector) (rules : Rules) (start : Config × Site) (c : Site) : Prop :=
  ∃ x, Moves p rules start (x, c)

theorem along_ask {α : Type} {Q : α → Site → Prop} {a : Act}
    {f : Except Fault a.Reply → Pass α}
    (h : ∀ r mid, Performs rules a c r mid → I mid ∧ Prog.Along (Performs rules) I Q (f r) mid) :
    Prog.Along (Performs rules) I Q (ask a >>= f) c := h

theorem prepare_along (hc : I c) (channel root content : Bytes) :
    Prog.Along (Performs rules) I
      (fun r c' => c' = c ∧ ∀ e, r = .ok e → Drafted p rules channel root content e)
      (p.prepare channel root content) c := by
  unfold Projector.prepare
  split
  · exact ⟨rfl, fun e he => by cases he⟩
  · rename_i hcontent
    simp only [Bool.or_eq_true, Bool.not_eq_true', beq_iff_eq, not_or, Bool.not_eq_false] at hcontent
    split
    · exact ⟨rfl, fun e he => by cases he⟩
    · rename_i hchannel
      simp only [Bool.not_eq_true', Bool.not_eq_false] at hchannel
      refine along_ask fun r mid hclock => ?_
      cases hclock with
      | clock _ now =>
        refine ⟨hc, along_ask fun r mid hsign => ?_⟩
        cases hsign with
        | unsigned => exact ⟨hc, rfl, fun e he => by cases he⟩
        | signed _ _ sig ok =>
          refine ⟨hc, rfl, ?_⟩
          intro e he
          cases he
          exact ⟨hcontent.1, hcontent.2, hchannel, now, sig, ok, rfl⟩

theorem saveAndPublish_along {wire : Bytes}
    (h : Moves p rules start (.prepared f st wire, c)) :
    Prog.Along (Performs rules) (Visited p rules start)
      (fun r c' => Moves p rules start (r.config f, c')) (p.saveAndPublish st f wire) c := by
  unfold Projector.saveAndPublish
  refine along_ask fun r mid hsave => ?_
  cases hsave with
  | unsaved =>
    have hdirty := h.tail (.unsaved f st wire c)
    exact ⟨⟨_, hdirty⟩, hdirty⟩
  | lost =>
    have hdirty := h.tail (.lost f st wire c)
    exact ⟨⟨_, hdirty⟩, hdirty⟩
  | saved =>
    have hready := h.tail (.save f st wire c)
    refine ⟨⟨_, hready⟩, along_ask fun r mid hpublish => ?_⟩
    cases hpublish with
    | published _ _ _ r =>
      cases r with
      | error fault =>
        have hdirty := hready.tail (.rejected f st wire _ fault)
        exact ⟨⟨_, hdirty⟩, hdirty⟩
      | ok u =>
        have hsettled := hready.tail (.publish f st wire _)
        exact ⟨⟨_, hsettled⟩, hsettled⟩

theorem supersede_along
    (h : Moves p rules start (.expired f st, c)) :
    Prog.Along (Performs rules) (Visited p rules start)
      (fun r c' => Moves p rules start (r.config f, c')) (p.supersedeExpiredAbsent st f) c := by
  unfold Projector.supersedeExpiredAbsent
  dsimp only
  split
  · rename_i e hread
    have hdirty := h.tail (.unreadable f st c e hread)
    obtain rfl | ⟨x, rfl⟩ | rfl := readEvidence_fails hread
    · exact hdirty
    · exact hdirty
    · exact hdirty
  · rename_i old channel card hread
    have hfamily := (readEvidence_ok hread).2.2.2.2
    split
    · rename_i hconflict
      simp only [Bool.and_eq_true, beq_iff_eq, bne_iff_ne] at hconflict
      exact h.tail (.adviceConflict f st c old channel card hread hconflict.1 hconflict.2)
    · rename_i hagrees
      simp only [Bool.and_eq_true, beq_iff_eq, bne_iff_ne, not_and, not_not] at hagrees
      refine (prepare_along ⟨_, h⟩ channel _ old.content).bind fun r c' hr => ?_
      obtain ⟨rfl, hdrafted⟩ := hr
      cases r with
      | error cause => exact h.tail (.unsuperseded f st c' cause)
      | ok prepared =>
        refine along_ask fun r mid hclock => ?_
        cases hclock with
        | clock _ now =>
          refine ⟨⟨_, h⟩, ?_⟩
          dsimp only
          split
          · rename_i hcase
            rw [beq_iff_eq] at hcase
            split
            · rename_i hdiffers
              rw [bne_iff_ne] at hdiffers
              exact h.tail (.caseConflict f st c' old channel card prepared now hread hcase hdiffers
                (hdrafted _ rfl))
            · rename_i hroot
              rw [bne_iff_ne, not_not] at hroot
              exact saveAndPublish_along (h.tail
                (.supersedeCase f st c' old channel card prepared now hread hcase hroot (hdrafted _ rfl)))
          · rename_i hcase
            rw [beq_iff_eq] at hcase
            have hadvice := hfamily.resolve_left hcase
            exact saveAndPublish_along (h.tail (.supersedeAdvice f st c' old channel card prepared now
              hread hadvice (hagrees hadvice) (hdrafted _ rfl)))

theorem prepareAndPublishCase_along {e : Envelope}
    (h : Moves p rules start (.clean f st, c)) (hlive : (st.recordAt f.sequence).status ≠ .poison)
    (hwire : (st.recordAt f.sequence).wire = []) (hverified : rules.verifies f.raw e)
    (hid : e.id = f.envelopeID) (hfamily : e.schema = .case) :
    Prog.Along (Performs rules) (Visited p rules start)
      (fun r c' => Moves p rules start (r.config f, c')) (p.prepareAndPublishCase st f e) c := by
  have hrefuse : ∀ cause, Moves p rules start
      (.dirty f (st.recordFailure f.sequence cause p.maxAttempts), c) :=
    fun cause => h.tail (.refuse f st c cause hlive hwire)
  unfold Projector.prepareAndPublishCase
  split
  · exact hrefuse _
  · rename_i body hbody
    split
    · exact hrefuse _
    · refine along_ask fun r mid hchannel => ?_
      cases hchannel with
      | unmapped _ _ => exact ⟨⟨_, h⟩, hrefuse _⟩
      | channel _ _ channel =>
        refine ⟨⟨_, h⟩, ?_⟩
        dsimp only
        split
        · exact hrefuse _
        · split
          · exact hrefuse _
          · rename_i content hcard
            refine (prepare_along ⟨_, h⟩ channel [] content).bind fun r c' hr => ?_
            obtain ⟨rfl, hdrafted⟩ := hr
            cases r with
            | error cause => exact hrefuse cause
            | ok prepared =>
              exact saveAndPublish_along (h.tail (.prepareCase f st c' e body channel content prepared
                hlive hwire hverified hid hfamily hbody hcard (hdrafted _ rfl)))

theorem prepareAndPublishAdvice_along {e : Envelope}
    (h : Moves p rules start (.clean f st, c)) (hlive : (st.recordAt f.sequence).status ≠ .poison)
    (hwire : (st.recordAt f.sequence).wire = []) (hverified : rules.verifies f.raw e)
    (hid : e.id = f.envelopeID) (hfamily : e.schema = .advice) :
    Prog.Along (Performs rules) (Visited p rules start)
      (fun r c' => Moves p rules start (r.config f, c')) (p.prepareAndPublishAdvice st f e) c := by
  have hrefuse : ∀ cause, Moves p rules start
      (.dirty f (st.recordFailure f.sequence cause p.maxAttempts), c) :=
    fun cause => h.tail (.refuse f st c cause hlive hwire)
  unfold Projector.prepareAndPublishAdvice
  split
  · exact hrefuse _
  · rename_i body hbody
    split
    · exact hrefuse _
    · split
      · exact hrefuse _
      · rename_i root hroot
        split
        · exact hrefuse _
        · rename_i delivery hdelivery
          split
          · exact hrefuse _
          · split
            · exact hrefuse _
            · rename_i content hcard
              refine (prepare_along ⟨_, h⟩ _ root content).bind fun r c' hr => ?_
              obtain ⟨rfl, hdrafted⟩ := hr
              cases r with
              | error cause => exact hrefuse cause
              | ok prepared =>
                exact saveAndPublish_along (h.tail (.prepareAdvice f st c' e body root delivery content
                  prepared hlive hwire hverified hid hfamily hbody hroot hdelivery hcard
                  (hdrafted _ rfl)))

theorem projectRecord_along
    (h : Moves p rules start (.clean f (st.touch f), c)) :
    Prog.Along (Performs rules) (Visited p rules start)
      (fun r c' => Moves p rules start (r.config f, c')) (p.projectRecord st f) c := by
  unfold Projector.projectRecord
  dsimp only
  generalize st.touch f = st at h ⊢
  split
  · rename_i hpoison
    rw [beq_iff_eq] at hpoison
    exact h.tail (.park f st c hpoison)
  · rename_i hlive
    rw [beq_iff_eq] at hlive
    split
    · rename_i hwire
      rw [bne_iff_ne] at hwire
      refine along_ask fun r mid hpublish => ?_
      cases hpublish with
      | published _ _ _ r =>
        cases r with
        | ok u =>
          have hsettled := h.tail (.republish f st c hlive hwire)
          exact ⟨⟨_, hsettled⟩, hsettled⟩
        | error fault =>
          cases fault with
          | expiredAbsent =>
            have hexpired := h.tail (.expire f st c hlive hwire)
            exact ⟨⟨_, hexpired⟩, supersede_along hexpired⟩
          | error message =>
            have hdirty := h.tail (.unpublished f st c (.error message) (by simp) hlive hwire)
            exact ⟨⟨_, hdirty⟩, hdirty⟩
    · rename_i hwire
      rw [bne_iff_ne, not_not] at hwire
      have hrefuse : ∀ cause, Moves p rules start
          (.dirty f (st.recordFailure f.sequence cause p.maxAttempts), c) :=
        fun cause => h.tail (.refuse f st c cause hlive hwire)
      refine along_ask fun r mid hverify => ?_
      cases hverify with
      | unverified => exact ⟨⟨_, h⟩, hrefuse _⟩
      | verified _ _ e hverified =>
        refine ⟨⟨_, h⟩, ?_⟩
        dsimp only
        split
        · exact hrefuse _
        · rename_i hid
          rw [bne_iff_ne, not_not] at hid
          split
          · exact prepareAndPublishCase_along h hlive hwire hverified hid ‹_›
          · exact prepareAndPublishAdvice_along h hlive hwire hverified hid ‹_›
          · exact hrefuse _

/-- The record's error that a pass ended with, also when the save that followed failed. -/
def ProjectError.cause : Projector.ProjectError → Option RecordError
  | .record e => some e
  | .save _ after => after
  | _ => none

def Reported (p : Projector) (rules : Rules) (start : Config × Site)
    (out : Projector.ProjectResult × Except Projector.ProjectError Unit) (_ : Site) : Prop :=
  ∀ e cause, out.2 = .error e → ProjectError.cause e = some cause →
    cause = .adviceRootConflict ∨ cause = .caseRootConflict →
    ∃ f st c, Moves p rules start (.conflict f st, c)

theorem reported_none
    (h : ∀ e, out.2 = .error e → ProjectError.cause e = none) : Reported p rules start out c := by
  intro e cause he hcause
  rw [h e he] at hcause
  cases hcause

theorem reported_error {c c' : Site} {err : Projector.ProjectError}
    (h : Moves p rules start (RecordResult.config f (st, .error e), c)) (hout : out.2 = .error err)
    (herr : ProjectError.cause err = some e) : Reported p rules start out c' := by
  intro err' cause herr' hcause hconflict
  rw [hout] at herr'
  cases herr'
  rw [herr] at hcause
  cases hcause
  obtain rfl | rfl := hconflict
  · exact ⟨f, st, c, h⟩
  · exact ⟨f, st, c, h⟩

theorem keep_move
    (h : Moves p rules start (RecordResult.config f (st, .error e), c)) :
    Moves p rules start (.idle, c.save st.recalculateLag) := by
  cases e with
  | adviceRootConflict | caseRootConflict => exact h.tail (.keepConflict f st c)
  | _ => exact h.tail (.keep f st c)

theorem projectLoop_along {i j : ℕ} {records : List CommittedFact}
    (h : Moves p rules start (.head st, c)) (hfeed : rules.Feed st.checkpoint records) :
    Prog.Along (Performs rules) (Visited p rules start) (Reported p rules start)
      (p.projectLoop st i j records) c := by
  induction records generalizing st i j c with
  | nil =>
    exact reported_none fun e he => by cases he
  | cons f fs ih =>
    obtain ⟨hnext, hfeed⟩ := hfeed
    unfold Projector.projectLoop
    split
    · refine reported_none fun e he => ?_
      cases he
      rfl
    · rename_i hadmitted
      simp only [Bool.or_eq_true, decide_eq_true_eq, beq_iff_eq, not_or, not_le] at hadmitted
      have hclean := h.tail (.take st f c hnext hadmitted.1 hadmitted.2)
      refine (projectRecord_along hclean).bind fun r c' hr => ?_
      obtain ⟨st', result⟩ := r
      cases result with
      | error e =>
        refine along_ask fun r mid hsave => ?_
        cases hsave with
        | saved => exact ⟨⟨_, keep_move hr⟩, reported_error hr rfl rfl⟩
        | unsaved => exact ⟨⟨_, hr⟩, reported_error hr rfl rfl⟩
        | lost => exact ⟨⟨_, keep_move hr⟩, reported_error hr rfl rfl⟩
      | ok sent =>
        have hnone : ∀ fault, Reported p rules start
            (⟨i + 1, if sent then j + 1 else j, (st'.advance f).lag⟩, .error (.save fault none)) c' := by
          intro fault
          refine reported_none fun e he => ?_
          cases he
          rfl
        have hadvanced := hr.tail (.advance f st' c')
        refine along_ask fun r mid hsave => ?_
        cases hsave with
        | saved => exact ⟨⟨_, hadvanced⟩, ih hadvanced hfeed⟩
        | unsaved _ _ fault => exact ⟨⟨_, hr⟩, hnone fault⟩
        | lost _ _ fault => exact ⟨⟨_, hadvanced⟩, hnone fault⟩

theorem project_along {limit : ℕ} (h : Moves p rules start (.idle, c)) :
    Prog.Along (Performs rules) (Visited p rules start) (Reported p rules start) (p.project limit) c := by
  have hnone : ∀ (lag : Projector.ProjectResult) (e : Projector.ProjectError), ProjectError.cause e = none →
      Reported p rules start (lag, .error e) c := by
    intro lag e he
    refine reported_none fun e' he' => ?_
    cases he'
    exact he
  unfold Projector.project
  split
  · exact hnone _ _ rfl
  · refine along_ask fun r mid hload => ?_
    cases hload with
    | unloaded => exact ⟨⟨_, h⟩, hnone _ _ rfl⟩
    | loaded =>
      have hhead := h.tail (.load c)
      refine ⟨⟨_, h⟩, along_ask fun r mid hread => ?_⟩
      cases hread with
      | unread => exact ⟨⟨_, h⟩, hnone _ _ rfl⟩
      | read _ _ _ facts hfeed => exact ⟨⟨_, h⟩, projectLoop_along hhead hfeed⟩

end Walk

/-! ### Runs of passes -/

def Passed (p : Projector) (rules : Rules) (c c' : Site) : Prop :=
  ∃ limit out, Prog.Course (Performs rules) (p.project limit) c out c'

abbrev Passes (p : Projector) (rules : Rules) : Site → Site → Prop :=
  Relation.ReflTransGen (Passed p rules)

theorem passes_reach {p : Projector} {rules : Rules} {c c' : Site} (h : Passes p rules c c') :
    Moves p rules (.idle, c) (.idle, c') := by
  induction h with
  | refl => exact .refl
  | tail _ hpass ih =>
    obtain ⟨limit, out, hcourse⟩ := hpass
    obtain ⟨⟨x, hx⟩, -⟩ := (project_along ih).course ⟨_, ih⟩ hcourse
    exact hx.tail (.crash x _)

theorem passes_report {p : Projector} {rules : Rules} {c c' last : Site} (h : Passes p rules c c')
    {limit : ℕ} {out : Projector.ProjectResult × Except Projector.ProjectError Unit}
    (hcourse : Prog.Course (Performs rules) (p.project limit) c' (some out) last) :
    Reported p rules (.idle, c) out last :=
  ((project_along (passes_reach h)).course ⟨_, passes_reach h⟩ hcourse).2 out rfl

end Snagline.Buzz
