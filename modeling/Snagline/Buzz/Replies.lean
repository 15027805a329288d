import Snagline.Buzz.Roots

/-!
# Replies and the roots they name

An advice replies to the root that the state holds for its case. The checkpoint has passed
that case, but it passes a case in two ways: after the relay took its event, or after the
case was parked, with an event that may never have reached the relay.
-/

namespace Snagline.Buzz
open Kit Ssp

section
variable {p : Projector} {facts : Set CommittedFact} {events : Set NostrEvent}

section
variable {log : List Publication} {st : State} {s : ℕ}

def Confirmed (log : List Publication) (s : ℕ) (wire : Bytes) : Prop :=
  ∃ x ∈ log, x.sequence = s ∧ x.wire = wire ∧ x.outcome = .ok ()

def Vouched (log : List Publication) (s : ℕ) (d : Delivery) : Prop :=
  d.status = .poison ∨ Confirmed log s d.wire

def PassedBy (log : List Publication) (st : State) : Prop :=
  ∀ s, s ≤ st.checkpoint → (st.recordAt s).wire ≠ [] → Vouched log s (st.recordAt s)

theorem Confirmed.later {wire : Bytes} (h : Confirmed log s wire)
    (x : Publication) : Confirmed (log ++ [x]) s wire := by
  obtain ⟨y, hy, hconfirmed⟩ := h
  exact ⟨y, List.mem_append_left _ hy, hconfirmed⟩

theorem Vouched.later {d : Delivery} (h : Vouched log s d)
    (x : Publication) : Vouched (log ++ [x]) s d :=
  h.imp id fun hconfirmed => hconfirmed.later x

theorem PassedBy.later (h : PassedBy log st) (x : Publication) :
    PassedBy (log ++ [x]) st :=
  fun s hs hwire => (h s hs hwire).later x

theorem PassedBy.setRecord (h : PassedBy log st)
    (hahead : st.checkpoint < s) (d : Delivery) : PassedBy log (st.setRecord s d) := by
  intro s' hs' hwire
  have hs' : s' ≤ st.checkpoint := hs'
  have hne : s' ≠ s := by omega
  rw [State.recordAt_setRecord, if_neg hne] at hwire ⊢
  exact h s' hs' hwire

theorem PassedBy.touch (h : PassedBy log st) {f : CommittedFact}
    (hahead : st.checkpoint < f.sequence) : PassedBy log (st.touch f) := by
  unfold State.touch
  split
  · exact h.setRecord hahead _
  · exact h

theorem PassedBy.raise (h : PassedBy log st) (f : CommittedFact) :
    PassedBy log (st.raise f) := by
  unfold State.raise
  split
  · exact h
  · exact h

end

/-! ### Along the moves -/

structure Ledgered (p : Projector) (facts : Set CommittedFact) (events : Set NostrEvent) (c : Site) :
    Prop where
  rooted : ∀ x ∈ c.log, Rooted p facts events x.stored
  durable : PassedBy c.log c.durable
  stored : ∀ before x after, c.log = before ++ x :: after → PassedBy before x.stored

def Passing (c : Site) : Config → Prop
  | .idle => True
  | .head st => PassedBy c.log st
  | .clean _ st => PassedBy c.log st
  | .expired _ st => PassedBy c.log st
  | .prepared _ st _ => PassedBy c.log st
  | .ready _ st _ => PassedBy c.log st
  | .settled f st => PassedBy c.log st ∧ Vouched c.log f.sequence (st.recordAt f.sequence)
  | .dirty _ st => PassedBy c.log st
  | .conflict _ st => PassedBy c.log st

theorem Ledgered.publish {c : Site} (h : Ledgered p facts events c)
    (hrooted : Rooted p facts events c.durable) (s : ℕ) (wire : Bytes) (r : Except Fault Unit) :
    Ledgered p facts events (c.publish s wire r) := by
  refine ⟨?_, h.durable.later _, ?_⟩
  · intro x hx
    rcases List.mem_append.mp hx with hold | hnew
    · exact h.rooted x hold
    · cases List.mem_singleton.mp hnew
      exact hrooted
  · intro before x after hlog
    have hlog : c.log ++ [⟨s, wire, r, c.durable⟩] = before ++ x :: after := hlog
    rcases List.eq_nil_or_concat after with rfl | ⟨after', last, rfl⟩
    · obtain ⟨rfl, hnew⟩ := List.append_inj' hlog rfl
      cases hnew
      exact h.durable
    · rw [List.concat_eq_append, ← List.cons_append, ← List.append_assoc] at hlog
      obtain ⟨hfront, -⟩ := List.append_inj' hlog rfl
      exact h.stored before x after' hfront

theorem Ledgered.save {c : Site} {st : State} (h : Ledgered p facts events c)
    (hst : PassedBy c.log st) : Ledgered p facts events (c.save st) := ⟨h.rooted, hst, h.stored⟩

theorem confirmed_publish (c : Site) (s : ℕ) (wire : Bytes) :
    Confirmed (c.publish s wire (.ok ())).log s wire :=
  ⟨_, List.mem_append_right _ (List.mem_singleton_self _), rfl, rfl, rfl⟩

theorem passing_move {x x' : Config} {c c' : Site}
    (hmove : Move p (.committed facts events) (x, c) (x', c')) (hsteady : Steady p facts events x c)
    (h : Ledgered p facts events c) (hx : Passing c x) : Ledgered p facts events c' ∧ Passing c' x' := by
  have hpublish := h.publish hsteady.rooted
  have hfit := hsteady.fit
  have hpoint := hsteady.point
  cases hmove with
  | crash => exact ⟨h, trivial⟩
  | load => exact ⟨h, h.durable⟩
  | take st f _ next ahead =>
    exact ⟨h, (PassedBy.raise hx f).touch ((st.checkpoint_raise f).symm ▸ ahead)⟩
  | park f st _ parked => exact ⟨h, hx, .inl parked⟩
  | republish f st _ =>
    refine ⟨hpublish _ _ _, (PassedBy.later hx _).setRecord hfit.2.ahead _, .inr ?_⟩
    rw [State.markRepublished, State.recordAt_setRecord_self]
    exact confirmed_publish c f.sequence _
  | unpublished f st _ =>
    exact ⟨hpublish _ _ _, (PassedBy.later hx _).setRecord hfit.2.ahead _⟩
  | expire f st _ => exact ⟨hpublish _ _ _, PassedBy.later hx _⟩
  | unreadable | adviceConflict => exact ⟨h, hx⟩
  | unsuperseded f st _ => exact ⟨h, PassedBy.setRecord hx hfit.2.1.ahead _⟩
  | supersedeCase f st _ =>
    exact ⟨h, PassedBy.setRecord hx hfit.2.1.ahead _⟩
  | caseConflict f st _ =>
    exact ⟨h, PassedBy.setRecord hx hfit.2.1.ahead _⟩
  | supersedeAdvice f st _ =>
    exact ⟨h, PassedBy.setRecord hx hfit.2.1.ahead _⟩
  | refuse f st _ => exact ⟨h, PassedBy.setRecord hx hfit.2.ahead _⟩
  | prepareCase f st _ =>
    exact ⟨h, PassedBy.setRecord hx hfit.2.ahead _⟩
  | prepareAdvice f st _ e body root delivery content prepared live wire verified id family decoded
      found case card drafted =>
    exact ⟨h, PassedBy.setRecord hx hfit.2.ahead _⟩
  | save f st wire => exact ⟨h.save hx, hx⟩
  | unsaved => exact ⟨h, hx⟩
  | lost f st wire => exact ⟨h.save hx, hx⟩
  | publish f st wire =>
    obtain ⟨-, rfl, -⟩ := hpoint
    refine ⟨hpublish _ _ _, (PassedBy.later hx _).setRecord hfit.2.ahead _, .inr ?_⟩
    rw [State.markPublished, State.recordAt_setRecord_self]
    exact confirmed_publish c f.sequence _
  | rejected f st wire _ fault => exact ⟨hpublish _ _ _, (PassedBy.later hx _).setRecord hfit.2.ahead _⟩
  | keep | keepConflict => exact ⟨h.save hx, trivial⟩
  | advance f st =>
    -- of the facts the checkpoint has passed now, only this one is new
    have hpassed : PassedBy c.log (st.advance f) := by
      intro s hs hwire
      have hs : s ≤ f.sequence := hs
      rw [State.recordAt_advance] at hwire ⊢
      by_cases hnew : s = f.sequence
      · rw [hnew]
        exact hx.2
      · refine hx.1 s ?_ hwire
        obtain ⟨e, he⟩ := hfit.1.projected s hwire
        have hbetween := hfit.2.follows.2 _ he.fact (by rw [he.sequence]; omega)
        rw [he.sequence] at hbetween
        exact hbetween
    exact ⟨h.save hpassed, hpassed⟩

theorem passing_moves {x : Config} {c : Site} (hfacts : Ordered facts)
    (hmoves : Moves p (.committed facts events) (.idle, {}) (x, c)) :
    Steady p facts events x c ∧ Ledgered p facts events c ∧ Passing c x := by
  generalize hy : (x, c) = y at hmoves
  induction hmoves generalizing x c with
  | refl =>
    cases hy
    refine ⟨Steady.initial, ⟨by simp, ?_, by simp⟩, trivial⟩
    intro s _ hwire
    exact absurd rfl hwire
  | @tail mid y _ hmove ih =>
    subst hy
    obtain ⟨x', c'⟩ := mid
    obtain ⟨hsteady, hledgered, hpassing⟩ := ih rfl
    exact ⟨steady_move hfacts hmove hsteady, passing_move hmove hsteady hledgered hpassing⟩

theorem reply_root {st : State} {log : List Publication} (h : Rooted p facts events st)
    (hlog : PassedBy log st) {s : ℕ} {e : Envelope} (he : Projection p facts events s (st.recordAt s) e)
    (hadvice : e.schema = .advice) :
    ∃ event k e', (st.recordAt s).wire = marshalNostrEvent event ∧
      [text "e", (st.recordAt k).eventID, [], text "reply"] ∈ event.tags ∧
      Verified (st.recordAt k).record.raw e' ∧ e'.schema = .case ∧ e'.caseID = e.caseID ∧
      Named (st.recordAt k).wire (st.recordAt k).eventID ∧ Vouched log k (st.recordAt k) := by
  obtain ⟨k, e', he', hcase, hid, hroot⟩ := h.root _ _ (h.advice s e he hadvice)
  have hpassed := h.passed s e k e' he hadvice he' hcase hid
  obtain ⟨channel, content, now, sig, card, -, -, hwire, -⟩ := he.event
  obtain ⟨channel', content', now', sig', card', -, hname', hwire', -⟩ := he'.event
  have hnonempty : (st.recordAt s).rootEventID ≠ [] := hroot ▸ he'.named.2
  refine ⟨_, k, e', hwire, ?_, he'.verified, hcase, hid, ⟨_, hwire', hname'⟩,
    hlog k hpassed he'.named.1⟩
  show _ ∈ (p.draft channel (st.recordAt s).rootEventID content now).tags
  unfold Projector.draft
  rw [if_neg hnonempty, hroot]
  simp

end

/-- Every event of an advice that goes to the relay names the event of its case as the root it
replies to. Where the case is not parked at that moment, the relay has confirmed that event. -/
theorem replies_follow_confirmed_roots (p : Projector) (facts : Set CommittedFact)
    (events : Set NostrEvent) (hfacts : Ordered facts) (c : Site)
    (hrun : Passes p (.committed facts events) {} c) (before after : List Publication) (x : Publication)
    (hx : c.log = before ++ x :: after) (e : Envelope)
    (he : Verified (x.stored.recordAt x.sequence).record.raw e) (hadvice : e.schema = .advice) :
    ∃ event k e', x.wire = marshalNostrEvent event ∧
      [text "e", (x.stored.recordAt k).eventID, [], text "reply"] ∈ event.tags ∧
      Verified (x.stored.recordAt k).record.raw e' ∧ e'.schema = .case ∧ e'.caseID = e.caseID ∧
      Named (x.stored.recordAt k).wire (x.stored.recordAt k).eventID ∧
      ((x.stored.recordAt k).status ≠ .poison → ∃ y ∈ before, y.sequence = k ∧
        y.wire = (x.stored.recordAt k).wire ∧ y.outcome = .ok ()) := by
  obtain ⟨hsteady, hledgered, -⟩ := passing_moves hfacts (passes_reach hrun)
  have hmem : x ∈ c.log := by
    rw [hx]
    simp
  have hrooted := hledgered.rooted x hmem
  have hwire := hsteady.held.stored x hmem
  have hne := hsteady.held.nonempty x hmem
  obtain ⟨e₁, he₁⟩ := hrooted.projected x.sequence (hwire ▸ hne)
  have hsame := he.unique he₁.verified
  subst hsame
  obtain ⟨event, k, e', hevent, htag, hverified, hcase, hid, hnamed, hvouched⟩ :=
    reply_root hrooted (hledgered.stored before x after hx) he₁ hadvice
  refine ⟨event, k, e', hwire.symm.trans hevent, htag, hverified, hcase, hid, hnamed, ?_⟩
  intro hlive
  exact hvouched.resolve_left hlive

theorem replies_follow_confirmed_roots_sample :
    ∃ before x e, Sample.thread.log = before ++ [x] ∧
      Verified (x.stored.recordAt x.sequence).record.raw e ∧ e.schema = .advice ∧
      ∃ event k, x.wire = marshalNostrEvent event ∧
        [text "e", (x.stored.recordAt k).eventID, [], text "reply"] ∈ event.tags ∧
        ((x.stored.recordAt k).status ≠ .poison → ∃ y ∈ before, y.sequence = k ∧
          y.wire = (x.stored.recordAt k).wire ∧ y.outcome = .ok ()) := by
  have hrun : Passes (Sample.projector 1 Sample.one_positive)
      (.committed {f | f ∈ Sample.facts} {Sample.opening, Sample.reply}) {} Sample.thread :=
    Sample.threadWorld_fits.passes (Sample.projector 1 Sample.one_positive) 2 1 {}
  have hlog : Sample.thread.log.map (fun x => (x.stored.recordAt x.sequence).record.raw) =
      [Sample.caseRaw, Sample.adviceRaw] := by
    decide +kernel
  obtain ⟨first, rest, hrest, -, hlog⟩ := List.map_eq_cons_iff.mp hlog
  obtain ⟨second, rest', hrest', hraw, hlog⟩ := List.map_eq_cons_iff.mp hlog
  cases List.map_eq_nil_iff.mp hlog
  have hlog : Sample.thread.log = [first] ++ [second] := by
    rw [hrest, hrest']
    rfl
  have hfamily := Sample.verified_family.2
  cases hverify : Sample.verify Sample.adviceRaw with
  | error =>
    rw [hverify] at hfamily
    cases hfamily
  | ok e =>
    have hverified := (Sample.verify_eq_ok _ _).mp hverify
    have hadvice := Sample.adviceRaw_family hverified
    rw [← hraw] at hverified
    obtain ⟨event, k, -, hevent, htag, -, -, -, -, hconfirmed⟩ :=
      replies_follow_confirmed_roots (Sample.projector 1 Sample.one_positive) {f | f ∈ Sample.facts}
        {Sample.opening, Sample.reply} Sample.facts_ordered Sample.thread hrun [first] [] second hlog e
        hverified hadvice
    exact ⟨[first], second, e, hlog, hverified, hadvice, event, k, hevent, htag, hconfirmed⟩

namespace Sample

def parkedWorld : World := { threadWorld with
  relay := fun n => if n = 0 then .error (.error (text "u")) else .ok () }

def parked : Site := parkedWorld.passes (projector 1 one_positive) 2 2 {}

end Sample

/-- With one attempt for each fact, the case is parked and its advice goes out, as a reply to an
event that the relay has never taken. -/
theorem reply_to_unconfirmed_root :
    Ordered {f | f ∈ Sample.facts} ∧
      Set.InjOn (eventID Sample.sha256) {Sample.opening, Sample.reply} ∧
      Passes (Sample.projector 1 Sample.one_positive)
        (.committed {f | f ∈ Sample.facts} {Sample.opening, Sample.reply}) {} Sample.parked ∧
      Sample.parked.log.map (fun x => (x.sequence, x.wire, x.outcome)) =
        [(1, marshalNostrEvent ((Sample.projector 1 Sample.one_positive).signed Sample.opening (text "s")),
            .error (.error (text "u"))),
          (2, marshalNostrEvent ((Sample.projector 1 Sample.one_positive).signed Sample.reply (text "s")),
            .ok ())] ∧
      [text "e", eventID Sample.sha256 Sample.opening, [], text "reply"] ∈ Sample.reply.tags := by
  have hfits : Sample.parkedWorld.Fits (.committed {f | f ∈ Sample.facts} {Sample.opening, Sample.reply}) :=
    ⟨Sample.threadWorld_fits.feed, Sample.threadWorld_fits.verifies, Sample.threadWorld_fits.signs⟩
  refine ⟨Sample.facts_ordered, Sample.thread_names, ?_, by decide +kernel, by decide +kernel⟩
  exact hfits.passes (Sample.projector 1 Sample.one_positive) 2 2 {}

end Snagline.Buzz
