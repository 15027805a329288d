import Snagline.Buzz.World

/-!
# Nothing is published that is not stored

A wire goes to the relay only while the durable state holds it as the wire of its fact. It
gives way to another one only after the relay has called it expired and absent, and then
it stays in the history of the fact.
-/

namespace Snagline.Buzz
open Kit Ssp

/-! ### Records from one save to the next -/

def Named (wire eventID : Bytes) : Prop :=
  ∃ e : NostrEvent, wire = marshalNostrEvent e ∧ eventID = e.id

structure WellKept (d : Delivery) : Prop where
  fresh : d.wire = [] → d.superseded = []
  named : d.wire ≠ [] → Named d.wire d.eventID
  history : ∀ h ∈ d.superseded, Named h.wire h.eventID

def SameEvent (d d' : Delivery) : Prop :=
  d'.wire = d.wire ∧ d'.eventID = d.eventID ∧ d'.superseded = d.superseded

def JustExpired (log : List Publication) (sequence : ℕ) (wire : Bytes) : Prop :=
  ∃ front e, log = front ++ [e] ∧ e.sequence = sequence ∧ e.wire = wire ∧
    e.outcome = .error .expiredAbsent

inductive Evolves (log : List Publication) (sequence : ℕ) (d d' : Delivery) : Prop where
  | same (h : SameEvent d d')
  | prepared (fresh : d.wire = []) (named : Named d'.wire d'.eventID) (new : d'.wire ≠ [])
      (history : d'.superseded = [])
  | superseded (expired : JustExpired log sequence d.wire) (named : Named d'.wire d'.eventID)
      (old : d.wire ≠ []) (new : d'.wire ≠ []) (h : SupersededProjection)
      (history : d'.superseded = d.superseded ++ [h]) (wire : h.wire = d.wire)
      (event : h.eventID = d.eventID)

theorem SameEvent.refl (d : Delivery) : SameEvent d d := ⟨rfl, rfl, rfl⟩

theorem SameEvent.trans {d d' d'' : Delivery} (h : SameEvent d d') (h' : SameEvent d' d'') :
    SameEvent d d'' :=
  ⟨h'.1.trans h.1, h'.2.1.trans h.2.1, h'.2.2.trans h.2.2⟩

theorem WellKept.evolves {log : List Publication} {s : ℕ} {d d' : Delivery} (hd : WellKept d)
    (h : Evolves log s d d') : WellKept d' := by
  cases h with
  | same h =>
    obtain ⟨hwire, hevent, hhistory⟩ := h
    constructor
    · intro hfresh
      rw [hhistory]
      exact hd.fresh (hwire ▸ hfresh)
    · intro hne
      rw [hwire, hevent]
      exact hd.named (hwire ▸ hne)
    · rw [hhistory]
      exact hd.history
  | prepared fresh named new history =>
    refine ⟨fun hnil => absurd hnil new, fun _ => named, ?_⟩
    rw [history]
    simp
  | superseded expired named old new h history wire event =>
    refine ⟨fun hnil => absurd hnil new, fun _ => named, ?_⟩
    intro x hx
    rw [history] at hx
    rcases List.mem_append.mp hx with hold | hnew
    · exact hd.history x hold
    · cases List.mem_singleton.mp hnew
      rw [wire, event]
      exact hd.named old

theorem Evolves.history_grows {log : List Publication} {s : ℕ} {d d' : Delivery} (hd : WellKept d)
    (h : Evolves log s d d') : d.superseded <+: d'.superseded := by
  cases h with
  | same h => rw [h.2.2]
  | prepared fresh =>
    rw [hd.fresh fresh]
    exact List.nil_prefix
  | superseded expired named old new h history =>
    rw [history]
    exact List.prefix_append _ _

/-! ### The log against the durable state -/

section
variable {e : Publication} {st : State} {b : List Publication} {c : Site} {wire : Bytes} {s : ℕ}

def Kept (st : State) (e : Publication) : Prop :=
  ∃ h ∈ (st.recordAt e.sequence).superseded, h.wire = e.wire ∧ Named h.wire h.eventID

/-- Among the publication and the ones that follow it, its wire was called expired and
absent, and the state keeps it. -/
def Gone (st : State) (e : Publication) (later : List Publication) : Prop :=
  (∃ x ∈ e :: later, x.sequence = e.sequence ∧ x.wire = e.wire ∧
    x.outcome = .error .expiredAbsent) ∧ Kept st e

structure Held (c : Site) : Prop where
  stored : ∀ e ∈ c.log, (e.stored.recordAt e.sequence).wire = e.wire
  nonempty : ∀ e ∈ c.log, e.wire ≠ []
  kept : ∀ s, WellKept (c.durable.recordAt s)
  retired : ∀ a e b, c.log = a ++ e :: b → (c.durable.recordAt e.sequence).wire ≠ e.wire →
    Gone c.durable e b
  ordered : ∀ a e b e' d, c.log = a ++ e :: (b ++ e' :: d) → e.sequence = e'.sequence →
    e.wire ≠ e'.wire → Gone c.durable e b

def Synced (c : Site) (st : State) : Prop :=
  ∀ s, SameEvent (c.durable.recordAt s) (st.recordAt s)

def Savable (c : Site) (st : State) : Prop :=
  ∀ s, Evolves c.log s (c.durable.recordAt s) (st.recordAt s)

theorem Synced.savable (h : Synced c st) : Savable c st :=
  fun s => .same (h s)

theorem synced_save (c : Site) (st : State) : Synced (c.save st) st :=
  fun s => SameEvent.refl (st.recordAt s)

theorem Gone.grows {st st' : State} (h : Gone st e b)
    (hkept : (st.recordAt e.sequence).superseded <+: (st'.recordAt e.sequence).superseded) :
    Gone st' e b := by
  obtain ⟨hexpired, x, hx, hwire, hnamed⟩ := h
  exact ⟨hexpired, x, hkept.subset hx, hwire, hnamed⟩

theorem Gone.later (h : Gone st e b)
    (n : Publication) : Gone st e (b ++ [n]) := by
  obtain ⟨⟨x, hx, hexpired⟩, hkept⟩ := h
  refine ⟨⟨x, ?_, hexpired⟩, hkept⟩
  rw [← List.cons_append]
  exact List.mem_append_left _ hx

theorem JustExpired.mem {log a b : List Publication}
    (h : JustExpired log s wire) (hlog : log = a ++ e :: b) :
    ∃ x ∈ e :: b, x.sequence = s ∧ x.wire = wire ∧ x.outcome = .error .expiredAbsent := by
  obtain ⟨front, x, hfront, hx⟩ := h
  refine ⟨x, ?_, hx⟩
  have hlast : (a ++ e :: b).getLast? = some x := by
    rw [← hlog, hfront, List.getLast?_append]
    rfl
  rw [List.getLast?_append_of_ne_nil _ (List.cons_ne_nil e b)] at hlast
  exact List.mem_of_getLast? hlast

theorem Held.initial : Held {} := by
  refine ⟨by simp, by simp, ?_, by simp, by simp⟩
  intro s
  refine ⟨fun _ => rfl, fun hne => absurd rfl hne, ?_⟩
  intro h hh
  cases hh

theorem Held.save (h : Held c) (hst : Savable c st) : Held (c.save st) := by
  have hkept : ∀ s, (c.durable.recordAt s).superseded <+: (st.recordAt s).superseded :=
    fun s => (hst s).history_grows (h.kept s)
  refine ⟨h.stored, h.nonempty, fun s => (h.kept s).evolves (hst s), ?_, ?_⟩
  · intro a e b hlog hdiffers
    by_cases hwire : (c.durable.recordAt e.sequence).wire = e.wire
    · cases hst e.sequence with
      | same hsame => exact absurd (hsame.1.trans hwire) hdiffers
      | prepared fresh =>
        have hne := h.nonempty e (hlog ▸ by simp)
        exact absurd (hwire.symm.trans fresh) hne
      | superseded expired named old new x history wire event =>
        have hnamed := (h.kept e.sequence).named old
        rw [hwire] at expired
        refine ⟨expired.mem hlog, x, ?_, wire.trans hwire, ?_⟩
        · show x ∈ (st.recordAt e.sequence).superseded
          rw [history]
          simp
        · rw [wire, event]
          exact hnamed
    · exact (h.retired a e b hlog hwire).grows (hkept e.sequence)
  · intro a e b e' d hlog hsequence hwire
    exact (h.ordered a e b e' d hlog hsequence hwire).grows (hkept e.sequence)

theorem Held.publish {r : Except Fault Unit} (h : Held c)
    (hwire : (c.durable.recordAt s).wire = wire) (hne : wire ≠ []) : Held (c.publish s wire r) := by
  refine ⟨?_, ?_, h.kept, ?_, ?_⟩
  · intro e he
    rcases List.mem_append.mp he with hold | hnew
    · exact h.stored e hold
    · cases List.mem_singleton.mp hnew
      exact hwire
  · intro e he
    rcases List.mem_append.mp he with hold | hnew
    · exact h.nonempty e hold
    · cases List.mem_singleton.mp hnew
      exact hne
  · intro a e b hlog hdiffers
    have hlog : c.log ++ [⟨s, wire, r, c.durable⟩] = a ++ e :: b := hlog
    -- the new publication is either this one or the last of those that follow
    rcases List.eq_nil_or_concat b with rfl | ⟨b', n, rfl⟩
    · obtain ⟨-, hnew⟩ := List.append_inj' hlog rfl
      cases hnew
      exact absurd hwire hdiffers
    · rw [List.concat_eq_append] at hlog ⊢
      rw [← List.cons_append, ← List.append_assoc] at hlog
      obtain ⟨hfront, -⟩ := List.append_inj' hlog rfl
      exact (h.retired a e b' hfront hdiffers).later n
  · intro a e b e' d hlog hsequence hdiffers
    have hlog : c.log ++ [⟨s, wire, r, c.durable⟩] = a ++ e :: (b ++ e' :: d) := hlog
    rcases List.eq_nil_or_concat d with rfl | ⟨d', n, rfl⟩
    · rw [← List.cons_append, ← List.append_assoc] at hlog
      obtain ⟨hfront, hnew⟩ := List.append_inj' hlog rfl
      cases hnew
      refine h.retired a e b hfront ?_
      intro hsame
      rw [hsequence] at hsame
      exact hdiffers (hsame.symm.trans hwire)
    · have hlog : c.log ++ [⟨s, wire, r, c.durable⟩] = (a ++ e :: (b ++ e' :: d')) ++ [n] := by
        rw [hlog]
        simp
      obtain ⟨hfront, -⟩ := List.append_inj' hlog rfl
      exact h.ordered a e b e' d' hfront hsequence hdiffers

end

/-! ### Along the moves -/

section
variable {c : Site} {st : State} {e : PreparedEvent} {p : Projector} {rules : Rules}
  {f : CommittedFact} {d : Delivery} {s : ℕ}

theorem marshalNostrEvent_ne_nil (e : NostrEvent) : marshalNostrEvent e ≠ [] := by
  unfold marshalNostrEvent Json.objectText
  exact List.cons_ne_nil _ _

theorem Drafted.named {channel root content : Bytes} (h : Drafted p rules channel root content e) :
    Named e.wire e.id ∧ e.wire ≠ [] := by
  obtain ⟨now, sig, -, rfl⟩ := h.made
  exact ⟨⟨p.signed _ sig, rfl, rfl⟩, marshalNostrEvent_ne_nil _⟩

def Point (c : Site) : Config → Prop
  | .idle => True
  | .head st => Synced c st
  | .clean _ st => Synced c st
  | .expired f st => Synced c st ∧ (st.recordAt f.sequence).wire ≠ [] ∧
      JustExpired c.log f.sequence (st.recordAt f.sequence).wire
  | .prepared f st wire => Savable c st ∧ (st.recordAt f.sequence).wire = wire ∧ wire ≠ []
  | .ready f st wire => Synced c st ∧ (st.recordAt f.sequence).wire = wire ∧ wire ≠ []
  | .settled _ st => Synced c st
  | .dirty _ st => Savable c st
  | .conflict _ st => Savable c st

theorem Synced.setRecord (h : Synced c st)
    (hd : SameEvent (st.recordAt s) d) : Synced c (st.setRecord s d) := by
  intro s'
  rw [State.recordAt_setRecord]
  split
  · rename_i hs
    subst hs
    exact (h s').trans hd
  · exact h s'

theorem Synced.touch (h : Synced c st) (f : CommittedFact) :
    Synced c (st.touch f) := by
  unfold State.touch
  split
  · exact h.setRecord ⟨rfl, rfl, rfl⟩
  · exact h

theorem Synced.recordFailure (h : Synced c st) (s : ℕ) (cause : Cause) (n : ℕ) :
    Synced c (st.recordFailure s cause n) := h.setRecord ⟨rfl, rfl, rfl⟩

theorem Synced.change (h : Synced c st)
    (hd : Evolves c.log s (c.durable.recordAt s) d) : Savable c (st.setRecord s d) := by
  intro s'
  rw [State.recordAt_setRecord]
  split
  · rename_i hs
    subst hs
    exact hd
  · exact .same (h s')

theorem Synced.replaced
    (h : Synced c st) (hwire : (st.recordAt f.sequence).wire ≠ [])
    (hexpired : JustExpired c.log f.sequence (st.recordAt f.sequence).wire)
    (hnamed : Named e.wire e.id ∧ e.wire ≠ []) (now : Time) : Savable c (st.replaced f e now) := by
  obtain ⟨hsame, hevent, hhistory⟩ := h f.sequence
  refine h.change (.superseded (hsame ▸ hexpired) hnamed.1 (hsame ▸ hwire) hnamed.2 _
    (congrArg (· ++ _) hhistory) hsame hevent)

theorem Synced.prepared (h : Synced c st)
    (hwire : (st.recordAt f.sequence).wire = []) (hnamed : Named e.wire e.id ∧ e.wire ≠ [])
    (root : Bytes) : Savable c (st.prepared f root e) :=
  h.change (.prepared ((h f.sequence).1.symm.trans hwire) hnamed.1 hnamed.2 rfl)

theorem held_move {x x' : Config} {c c' : Site}
    (hmove : Move p rules (x, c) (x', c')) (hheld : Held c) (hpoint : Point c x) :
    Held c' ∧ Point c' x' := by
  -- a publication of what the durable state holds
  have hpublish : ∀ (f : CommittedFact) (st : State) (r : Except Fault Unit), Synced c st →
      (st.recordAt f.sequence).wire ≠ [] →
      Held (c.publish f.sequence (st.recordAt f.sequence).wire r) := by
    intro f st r hsynced hwire
    exact hheld.publish (hsynced f.sequence).1.symm hwire
  cases hmove with
  | crash => exact ⟨hheld, trivial⟩
  | load => exact ⟨hheld, fun s => SameEvent.refl _⟩
  | take st f _ =>
    refine ⟨hheld, Synced.touch ?_ f⟩
    intro s
    rw [State.recordAt_raise]
    exact hpoint s
  | park => exact ⟨hheld, hpoint⟩
  | republish f st _ live wire =>
    exact ⟨hpublish f st _ hpoint wire, Synced.setRecord hpoint ⟨rfl, rfl, rfl⟩⟩
  | unpublished f st _ fault other live wire =>
    have hsynced : Synced (c.publish f.sequence (st.recordAt f.sequence).wire (.error fault)) st := hpoint
    exact ⟨hpublish f st _ hpoint wire, (hsynced.recordFailure _ _ _).savable⟩
  | expire f st _ live wire =>
    exact ⟨hpublish f st _ hpoint wire, hpoint, wire, c.log, _, rfl, rfl, rfl, rfl⟩
  | unreadable | adviceConflict => exact ⟨hheld, hpoint.1.savable⟩
  | unsuperseded => exact ⟨hheld, (hpoint.1.recordFailure _ _ _).savable⟩
  | supersedeCase f st _ old channel card prepared now read family root drafted =>
    obtain ⟨hsynced, hwire, hexpired⟩ := hpoint
    have hsavable := hsynced.replaced hwire hexpired drafted.named now
    refine ⟨hheld, hsavable, ?_, drafted.named.2⟩
    simp [State.replaced]
  | caseConflict f st _ old channel card prepared now read family differs drafted =>
    obtain ⟨hsynced, hwire, hexpired⟩ := hpoint
    exact ⟨hheld, hsynced.replaced hwire hexpired drafted.named now⟩
  | supersedeAdvice f st _ old channel card prepared now read family root drafted =>
    obtain ⟨hsynced, hwire, hexpired⟩ := hpoint
    have hsavable := hsynced.replaced hwire hexpired drafted.named now
    refine ⟨hheld, hsavable, ?_, drafted.named.2⟩
    simp [State.replaced]
  | refuse => exact ⟨hheld, (Synced.recordFailure hpoint _ _ _).savable⟩
  | prepareCase f st _ e body channel content prepared live wire verified id family decoded card drafted =>
    have hsavable := Synced.prepared hpoint wire drafted.named []
    refine ⟨hheld, hsavable, ?_, drafted.named.2⟩
    simp [State.prepared]
  | prepareAdvice f st _ e body root delivery content prepared live wire verified id family decoded
      found case card drafted =>
    have hsavable := Synced.prepared hpoint wire drafted.named root
    refine ⟨hheld, hsavable, ?_, drafted.named.2⟩
    simp [State.prepared]
  | save f st wire => exact ⟨hheld.save hpoint.1, synced_save c st, hpoint.2⟩
  | unsaved => exact ⟨hheld, hpoint.1⟩
  | lost f st wire => exact ⟨hheld.save hpoint.1, (synced_save c st).savable⟩
  | publish f st wire =>
    obtain ⟨hsynced, rfl, hne⟩ := hpoint
    exact ⟨hpublish f st _ hsynced hne, hsynced.setRecord ⟨rfl, rfl, rfl⟩⟩
  | rejected f st wire _ fault =>
    obtain ⟨hsynced, rfl, hne⟩ := hpoint
    have hlater : Synced (c.publish f.sequence (st.recordAt f.sequence).wire (.error fault)) st := hsynced
    exact ⟨hpublish f st _ hsynced hne, (hlater.recordFailure _ _ _).savable⟩
  | keep | keepConflict => exact ⟨hheld.save hpoint, trivial⟩
  | advance f st => exact ⟨hheld.save (Synced.savable hpoint), synced_save c (st.advance f)⟩

theorem held_moves {x : Config}
    (h : Moves p rules (.idle, {}) (x, c)) : Held c ∧ Point c x := by
  generalize hy : (x, c) = y at h
  induction h generalizing x c with
  | refl =>
    cases hy
    exact ⟨Held.initial, trivial⟩
  | @tail mid y _ hmove ih =>
    subst hy
    obtain ⟨x', c'⟩ := mid
    obtain ⟨hheld, hpoint⟩ := ih rfl
    exact held_move hmove hheld hpoint

/-- Passes from an empty store, with whatever the surroundings answer and cut off anywhere.
Each publication carries the wire that the durable state holds for its fact. Where two
publications for a fact carry different wires, the relay called the earlier wire expired and
absent before the later one was published, and the durable state keeps it, with the name of
its event, ever after. -/
theorem projector_writes_ahead (p : Projector) (rules : Rules) (c : Site)
    (hrun : Passes p rules {} c) :
    (∀ e ∈ c.log, (e.stored.recordAt e.sequence).wire = e.wire) ∧
      ∀ before e between e' after, c.log = before ++ e :: (between ++ e' :: after) →
        e.sequence = e'.sequence → e.wire ≠ e'.wire →
        (∃ x ∈ e :: between, x.sequence = e.sequence ∧ x.wire = e.wire ∧
          x.outcome = .error .expiredAbsent) ∧
        ∃ h ∈ (c.durable.recordAt e.sequence).superseded, h.wire = e.wire ∧
          Named h.wire h.eventID := by
  have hheld := (held_moves (passes_reach hrun)).1
  exact ⟨hheld.stored, hheld.ordered⟩

end

namespace Sample

/-- The relay is unreachable, then calls the first event expired and takes the next. -/
def outage : World := world fun n =>
  if n = 0 then .error (.error (text "u")) else if n = 1 then .error .expiredAbsent else .ok ()

def afterOutage : Site := outage.passes (projector 2 two_positive) 1 2 {}

end Sample

theorem projector_writes_ahead_sample :
    Passes (Sample.projector 2 Sample.two_positive) .free {} Sample.afterOutage ∧
      Sample.afterOutage.log.map (fun e => (e.sequence, e.outcome)) =
        [(1, .error (.error (text "u"))), (1, .error .expiredAbsent), (1, .ok ())] ∧
      ∀ e ∈ Sample.afterOutage.log, (e.stored.recordAt e.sequence).wire = e.wire := by
  have hrun : Passes (Sample.projector 2 Sample.two_positive) .free {} Sample.afterOutage :=
    (fits_free Sample.outage).passes _ 1 2 {}
  exact ⟨hrun, by decide +kernel, (projector_writes_ahead _ _ _ hrun).1⟩

end Snagline.Buzz
