import Snagline.Buzz.World
import Snagline.Kit.Lockstep

/-!
# What the projection shows of an envelope

Two runs in surroundings that do the like of each other, where the envelopes differ in
everything but their schema, identifiers, domain and public summary. The states of the two
runs then differ in the stored bytes of the facts and nowhere else, so what is signed,
stored as a wire, kept as superseded and published is the same in both.
-/

namespace Snagline.Buzz
open Kit Ssp Json

/-! ### Scripts -/

structure Choice where
  /-- The statement fails. -/
  fault : Option Fault := none
  /-- A save that fails has happened all the same. -/
  taken : Bool := false
  facts : List CommittedFact
  envelope : Envelope
  channel : Bytes → Bytes
  now : Time
  sign : NostrEvent → Bytes

namespace Choice

def answer {α : Type} (w : Choice) (a : α) : Except Fault α :=
  match w.fault with
  | none => .ok a
  | some f => .error f

def exec (w : Choice) : (a : Act) → Site → Site × Except Fault a.Reply
  | .load, c => (c, w.answer c.durable)
  | .readAfter _ _, c => (c, w.answer w.facts)
  | .verifyCommitted _, c => (c, w.answer w.envelope)
  | .channelForDomain domain, c => (c, w.answer (w.channel domain))
  | .clock, c => (c, .ok w.now)
  | .signDigest event, c => (c, w.answer (w.sign event))
  | .save st, c => (if w.fault.isNone || w.taken then c.save st else c, w.answer ())
  | .publish sequence wire, c => (c.publish sequence wire (w.answer ()), w.answer ())

end Choice

def Projector.scripted (p : Projector) (limit : ℕ) (script : List Choice) (c : Site) : Site :=
  ((p.project limit).play Choice.exec script c).1

def Projector.scriptedPasses (p : Projector) : List (ℕ × List Choice) → Site → Site
  | [], c => c
  | pass :: passes, c => p.scriptedPasses passes (p.scripted pass.1 pass.2 c)

/-! ### Envelopes and facts that look the same -/

def bodyString (e : Envelope) (name : Bytes) : Option Bytes :=
  match unmarshal e.body with
  | some (.obj ms) =>
    match lookup ms name with
    | some (_, .str s) => some s
    | _ => none
  | _ => none

/-- Verified envelopes with one schema, one ID and case ID, one domain and one public summary. -/
structure Agrees (e e' : Envelope) : Prop where
  sound : e.Sound
  sound' : e'.Sound
  schema : e'.schema = e.schema
  id : e'.id = e.id
  caseID : e'.caseID = e.caseID
  domain : e.schema = .case → bodyString e' (text "domain") = bodyString e (text "domain")
  publicSummary : bodyString e' (text "public_summary") = bodyString e (text "public_summary")

structure FactLike (f f' : CommittedFact) : Prop where
  sequence : f'.sequence = f.sequence
  envelopeID : f'.envelopeID = f.envelopeID
  commitment : f'.commitment = f.commitment
  present : f'.raw = [] ↔ f.raw = []

structure ChoiceLike (w w' : Choice) : Prop where
  fault : w'.fault = w.fault
  taken : w'.taken = w.taken
  facts : List.Forall₂ FactLike w.facts w'.facts
  envelope : Agrees w.envelope w'.envelope
  channel : w'.channel = w.channel
  now : w'.now = w.now
  sign : w'.sign = w.sign

/-! ### States that look the same -/

def Delivery.view (d : Delivery) : Delivery := { d with record := { d.record with raw := [] } }
def outline (x : (_ : ℕ) × Delivery) : ℕ × Delivery := (x.1, x.2.view)

structure StateLike (st st' : State) : Prop where
  checkpoint : st'.checkpoint = st.checkpoint
  highWatermark : st'.highWatermark = st.highWatermark
  caseRoots : st'.caseRoots = st.caseRoots
  lag : st'.lag = st.lag
  records : st'.records.entries.map outline = st.records.entries.map outline

theorem lookup_outline (s : ℕ) (l : List ((_ : ℕ) × Delivery)) :
    (l.dlookup s).map Delivery.view = (l.map outline).lookup s := by
  induction l with
  | nil => rfl
  | cons x l ih =>
    obtain ⟨k, d⟩ := x
    by_cases hk : s = k
    · subst hk
      rw [List.dlookup_cons_eq, List.map_cons]
      simp [outline]
    · rw [List.dlookup_cons_ne l ⟨k, d⟩ hk, ih, List.map_cons]
      have hne : (s == k) = false := beq_eq_false_iff_ne.mpr hk
      simp [outline, List.lookup_cons, hne]

theorem kerase_outline (s : ℕ) (l : List ((_ : ℕ) × Delivery)) :
    (l.kerase s).map outline = (l.map outline).eraseP fun x => s = x.1 := by
  rw [List.kerase, List.eraseP_map]
  rfl

section
variable {st st' : State}

theorem StateLike.recordAt (h : StateLike st st') (s : ℕ) :
    (st'.recordAt s).view = (st.recordAt s).view := by
  have hlookup : (st'.records.lookup s).map Delivery.view = (st.records.lookup s).map Delivery.view := by
    show (st'.records.entries.dlookup s).map Delivery.view = (st.records.entries.dlookup s).map Delivery.view
    rw [lookup_outline, lookup_outline, h.records]
  have hview : ∀ o : Option Delivery, (o.getD {}).view = (o.map Delivery.view).getD {} := by
    intro o
    cases o with
    | none | some => rfl
  unfold State.recordAt
  rw [hview, hview, hlookup]

theorem StateLike.setRecord (h : StateLike st st') (s : ℕ) {d d' : Delivery} (hd : d'.view = d.view) :
    StateLike (st.setRecord s d) (st'.setRecord s d') := by
  refine ⟨h.checkpoint, h.highWatermark, h.caseRoots, h.lag, ?_⟩
  show ((st'.records.entries.kerase s).cons ⟨s, d'⟩).map outline =
    ((st.records.entries.kerase s).cons ⟨s, d⟩).map outline
  rw [List.map_cons, List.map_cons, kerase_outline, kerase_outline, h.records]
  exact congrArg (· :: _) (congrArg (Prod.mk s) hd)

theorem StateLike.setRoot (h : StateLike st st') (caseID root : Bytes) :
    StateLike (st.setRoot caseID root) (st'.setRoot caseID root) := by
  refine ⟨h.checkpoint, h.highWatermark, ?_, h.lag, h.records⟩
  show st'.caseRoots.insert caseID root = st.caseRoots.insert caseID root
  rw [h.caseRoots]

theorem countStatus_outline (st : State) (status : DeliveryStatus) :
    st.countStatus status =
      ((st.records.entries.map outline).filter fun x => x.2.status = status).length := by
  rw [List.filter_map, List.length_map]
  rfl

theorem StateLike.recalculateLag (h : StateLike st st') :
    StateLike st.recalculateLag st'.recalculateLag := by
  refine ⟨h.checkpoint, h.highWatermark, h.caseRoots, ?_, h.records⟩
  unfold State.recalculateLag
  dsimp only
  rw [countStatus_outline, countStatus_outline, countStatus_outline, countStatus_outline, h.records,
    h.checkpoint, h.highWatermark]

theorem StateLike.update (h : StateLike st st') (s : ℕ) (f : Delivery → Delivery)
    (hf : ∀ d, (f d).view = f d.view) :
    StateLike (st.setRecord s (f (st.recordAt s))) (st'.setRecord s (f (st'.recordAt s))) := by
  refine h.setRecord s ?_
  rw [hf, hf, h.recordAt s]

theorem StateLike.recordFailure (h : StateLike st st') (s : ℕ) (cause : Cause) (n : ℕ) :
    StateLike (st.recordFailure s cause n) (st'.recordFailure s cause n) :=
  h.update s (fun d => { d with
    attempts := d.attempts + 1
    lastError := some cause
    status := if n ≤ d.attempts + 1 then .poison else .retry }) fun _ => rfl

theorem StateLike.caseDelivery (h : StateLike st st') (caseID : Bytes) :
    (st'.caseDelivery caseID).map Delivery.view = (st.caseDelivery caseID).map Delivery.view := by
  have hfind : ∀ (root : Bytes) (l : List ((_ : ℕ) × Delivery)),
      ((l.find? fun x => x.2.eventID = root).map Sigma.snd).map Delivery.view =
        ((l.map outline).find? fun x => x.2.eventID = root).map Prod.snd := by
    intro root l
    rw [List.find?_map, Option.map_map, Option.map_map]
    rfl
  unfold State.caseDelivery
  rw [h.caseRoots]
  cases st.caseRoots.lookup caseID with
  | none => rfl
  | some =>
    dsimp only
    rw [hfind, hfind, h.records]

variable {f f' : CommittedFact}

theorem StateLike.raise (h : StateLike st st') (hf : FactLike f f') :
    StateLike (st.raise f) (st'.raise f') := by
  unfold State.raise
  rw [h.highWatermark, hf.sequence]
  split
  · exact ⟨h.checkpoint, rfl, h.caseRoots, h.lag, h.records⟩
  · exact h

theorem FactLike.outline (hf : FactLike f f') : { f' with raw := [] } = { f with raw := [] } := by
  obtain ⟨sequence, envelopeID, commitment, raw⟩ := f
  obtain ⟨sequence', envelopeID', commitment', raw'⟩ := f'
  obtain ⟨h₁, h₂, h₃, -⟩ := hf
  cases h₁
  cases h₂
  cases h₃
  rfl

theorem StateLike.touch (h : StateLike st st') (hf : FactLike f f') :
    StateLike (st.touch f) (st'.touch f') := by
  have hview := h.recordAt f.sequence
  have hsequence := congrArg (fun d => d.record.sequence) hview
  unfold State.touch
  rw [hf.sequence]
  simp only [Delivery.view] at hsequence
  rw [hsequence]
  split
  · refine h.setRecord _ ?_
    show { (st'.recordAt f.sequence).view with record := { f' with raw := [] } } =
      { (st.recordAt f.sequence).view with record := { f with raw := [] } }
    rw [hview, hf.outline]
  · exact h

theorem StateLike.advance (h : StateLike st st') (hf : FactLike f f') :
    StateLike (st.advance f) (st'.advance f') := by
  have hmoved : StateLike { st with checkpoint := f.sequence } { st' with checkpoint := f'.sequence } :=
    ⟨hf.sequence, h.highWatermark, h.caseRoots, h.lag, h.records⟩
  exact hmoved.recalculateLag

theorem StateLike.prepared (h : StateLike st st') (hf : FactLike f f') (root : Bytes) (e : PreparedEvent) :
    StateLike (st.prepared f root e) (st'.prepared f' root e) := by
  unfold State.prepared
  rw [hf.sequence]
  refine h.setRecord _ ?_
  simp only [Delivery.view, hf.outline]

theorem StateLike.replaced (h : StateLike st st') (hf : FactLike f f') (e : PreparedEvent) (now : Time) :
    StateLike (st.replaced f e now) (st'.replaced f' e now) := by
  have hview := h.recordAt f.sequence
  unfold State.replaced
  rw [hf.sequence]
  refine h.setRecord _ ?_
  simp only [Delivery.view, hf.outline]
  have hbuilt := congrArg (fun current : Delivery => ({
    record := { f with raw := [] }, eventID := e.id, rootEventID := current.rootEventID, wire := e.wire,
    status := .prepared, superseded := current.superseded ++
      [⟨current.eventID, current.rootEventID, current.wire, current.attempts, current.lastError, now,
        text "expired_absent"⟩] } : Delivery)) hview
  exact hbuilt

end

/-! ### Programs in step -/

def Publication.sent (x : Publication) : ℕ × Bytes × Except Fault Unit := (x.sequence, x.wire, x.outcome)

structure SiteLike (c c' : Site) : Prop where
  durable : StateLike c.durable c'.durable
  log : c'.log.map Publication.sent = c.log.map Publication.sent

def InStep {α β : Type} (Q : α → β → Prop) (q : Pass α) (q' : Pass β) : Prop :=
  ∀ c c', SiteLike c c' → Prog.Coupled Choice.exec ChoiceLike SiteLike Q q q' c c'

section
variable {α β γ δ : Type} {Q : α → β → Prop} {Q' : γ → δ → Prop}

theorem inStep_pure {a : α} {b : β} (h : Q a b) : InStep Q (pure a) (pure b) :=
  fun _ _ hc => ⟨hc, h⟩

theorem InStep.bind {q : Pass α} {q' : Pass β} {f : α → Pass γ} {f' : β → Pass δ} (h : InStep Q q q')
    (hf : ∀ a b, Q a b → InStep Q' (f a) (f' b)) : InStep Q' (q >>= f) (q' >>= f') :=
  fun c c' hc => (h c c' hc).bind fun a b st st' hst hab => hf a b hab st st' hst

theorem answer_like {w w' : Choice} (hw : ChoiceLike w w') (a : γ) (b : δ) :
    (∃ fault, w.answer a = .error fault ∧ w'.answer b = .error fault) ∨
      (w.answer a = .ok a ∧ w'.answer b = .ok b) := by
  unfold Choice.answer
  rw [hw.fault]
  cases w.fault with
  | none => exact .inr ⟨rfl, rfl⟩
  | some fault => exact .inl ⟨fault, rfl, rfl⟩

theorem inStep_reply {a a' : Act} {f : Except Fault a.Reply → Pass α} {f' : Except Fault a'.Reply → Pass β}
    (x : Choice → Site → a.Reply) (x' : Choice → Site → a'.Reply) (rel : a.Reply → a'.Reply → Prop)
    (hexec : ∀ (w : Choice) c, w.exec a c = (c, w.answer (x w c)))
    (hexec' : ∀ (w : Choice) c, w.exec a' c = (c, w.answer (x' w c)))
    (hrel : ∀ w w' c c', ChoiceLike w w' → SiteLike c c' → rel (x w c) (x' w' c'))
    (hok : ∀ r r', rel r r' → InStep Q (f (.ok r)) (f' (.ok r')))
    (herror : ∀ fault, InStep Q (f (.error fault)) (f' (.error fault))) :
    InStep Q (ask a >>= f) (ask a' >>= f') := by
  intro c c' hc
  refine ⟨hc, fun w w' hw => ?_⟩
  show Prog.Coupled _ _ _ Q (f (w.exec a c).2) (f' (w'.exec a' c').2) (w.exec a c).1 (w'.exec a' c').1
  rw [hexec, hexec']
  rcases answer_like hw (x w c) (x' w' c') with ⟨fault, hfault, hfault'⟩ | ⟨hanswer, hanswer'⟩
  · rw [hfault, hfault']
    exact herror fault c c' hc
  · rw [hanswer, hanswer']
    exact hok _ _ (hrel w w' c c' hw hc) c c' hc

theorem inStep_clock {f : Except Fault Time → Pass α} {f' : Except Fault Time → Pass β}
    (h : ∀ now, InStep Q (f (.ok now)) (f' (.ok now))) :
    InStep Q (ask .clock >>= f) (ask .clock >>= f') := by
  intro c c' hc
  refine ⟨hc, fun w w' hw => ?_⟩
  show Prog.Coupled _ _ _ Q (f (.ok w.now)) (f' (.ok w'.now)) c c'
  rw [hw.now]
  exact h w.now c c' hc

theorem inStep_save {st st' : State} (hst : StateLike st st') {f : Except Fault Unit → Pass α}
    {f' : Except Fault Unit → Pass β} (h : ∀ r, InStep Q (f r) (f' r)) :
    InStep Q (ask (.save st) >>= f) (ask (.save st') >>= f') := by
  intro c c' hc
  refine ⟨hc, fun w w' hw => ?_⟩
  show Prog.Coupled _ _ _ Q (f (w.answer ())) (f' (w'.answer ()))
    (if w.fault.isNone || w.taken then c.save st else c)
    (if w'.fault.isNone || w'.taken then c'.save st' else c')
  have hanswer : w'.answer () = w.answer () := by
    unfold Choice.answer
    rw [hw.fault]
  rw [hanswer, hw.fault, hw.taken]
  split
  · exact h _ _ _ ⟨hst.recalculateLag, hc.log⟩
  · exact h _ _ _ hc

theorem inStep_publish (s : ℕ) (wire : Bytes) {f : Except Fault Unit → Pass α}
    {f' : Except Fault Unit → Pass β} (h : ∀ r, InStep Q (f r) (f' r)) :
    InStep Q (ask (.publish s wire) >>= f) (ask (.publish s wire) >>= f') := by
  intro c c' hc
  refine ⟨hc, fun w w' hw => ?_⟩
  show Prog.Coupled _ _ _ Q (f (w.answer ())) (f' (w'.answer ())) (c.publish s wire (w.answer ()))
    (c'.publish s wire (w'.answer ()))
  have hanswer : w'.answer () = w.answer () := by
    unfold Choice.answer
    rw [hw.fault]
  rw [hanswer]
  refine h _ _ _ ⟨hc.durable, ?_⟩
  show (c'.log ++ [_]).map Publication.sent = (c.log ++ [_]).map Publication.sent
  rw [List.map_append, List.map_append, hc.log]
  rfl

end

section
variable {p : Projector} {st st' : State} {f f' : CommittedFact}

def ResultLike (r r' : RecordResult) : Prop := StateLike r.1 r'.1 ∧ r'.2 = r.2

theorem prepare_inStep (channel root content : Bytes) :
    InStep Eq (p.prepare channel root content) (p.prepare channel root content) := by
  unfold Projector.prepare
  split
  · exact inStep_pure rfl
  · split
    · exact inStep_pure rfl
    · refine inStep_clock fun now => ?_
      refine inStep_reply (fun w _ => w.sign (p.draft channel root content now))
        (fun w _ => w.sign (p.draft channel root content now)) Eq (fun _ _ => rfl) (fun _ _ => rfl)
        ?_ ?_ ?_
      · intro w w' _ _ hw _
        rw [hw.sign]
      · rintro sig _ rfl
        exact inStep_pure rfl
      · intro fault
        exact inStep_pure rfl

theorem refuse_inStep (h : StateLike st st') (s : ℕ) (cause : Cause) (e : RecordError) :
    InStep ResultLike (p.refuse st s cause e) (p.refuse st' s cause e) :=
  inStep_pure ⟨h.recordFailure s cause p.maxAttempts, rfl⟩

theorem saveAndPublish_inStep (h : StateLike st st') (hf : FactLike f f') (wire : Bytes) :
    InStep ResultLike (p.saveAndPublish st f wire) (p.saveAndPublish st' f' wire) := by
  unfold Projector.saveAndPublish
  refine inStep_save h fun r => ?_
  cases r with
  | error => exact inStep_pure ⟨h, rfl⟩
  | ok u =>
    dsimp only
    rw [hf.sequence]
    refine inStep_publish f.sequence wire fun r => ?_
    cases r with
    | error fault => exact refuse_inStep h _ _ _
    | ok u =>
      refine inStep_pure ⟨?_, rfl⟩
      unfold State.markPublished
      rw [hf.sequence]
      exact h.update f.sequence (fun d => { d with status := .published }) fun _ => rfl

theorem StateLike.readEvidence (h : StateLike st st') (s : ℕ) :
    Projector.readEvidence (st'.recordAt s) = Projector.readEvidence (st.recordAt s) := by
  have hview : ∀ d : Delivery, Projector.readEvidence d = Projector.readEvidence d.view := fun _ => rfl
  rw [hview, h.recordAt s, ← hview]

theorem StateLike.rootEventID (h : StateLike st st') (s : ℕ) :
    (st'.recordAt s).rootEventID = (st.recordAt s).rootEventID := by
  have hview := congrArg Delivery.rootEventID (h.recordAt s)
  exact hview

theorem supersede_inStep (h : StateLike st st') (hf : FactLike f f') :
    InStep ResultLike (p.supersedeExpiredAbsent st f) (p.supersedeExpiredAbsent st' f') := by
  unfold Projector.supersedeExpiredAbsent
  dsimp only
  rw [hf.sequence, h.readEvidence, h.rootEventID, h.caseRoots]
  split
  · exact inStep_pure ⟨h, rfl⟩
  · rename_i old channel card hread
    split
    · exact inStep_pure ⟨h, rfl⟩
    · refine (prepare_inStep channel _ old.content).bind fun r r' hr => ?_
      cases hr
      cases r with
      | error => exact refuse_inStep h _ _ _
      | ok prepared =>
        refine inStep_clock fun now => ?_
        have hreplaced := h.replaced hf prepared now
        dsimp only
        split
        · split
          · exact inStep_pure ⟨hreplaced, rfl⟩
          · exact saveAndPublish_inStep (hreplaced.setRoot card.caseID prepared.id) hf prepared.wire
        · exact saveAndPublish_inStep hreplaced hf prepared.wire

end

/-! ### Bodies of verified envelopes -/

theorem decodeExactBody_eq {names : List Bytes} {raw : Bytes} {ms : Members}
    (h : unmarshal raw = some (.obj ms)) (hnames : ∀ m ∈ ms, m.1 ∈ names) :
    Projector.decodeExactBody names raw = some ms := by
  have hknown : knownFields names ms = true := by
    unfold knownFields
    rw [List.all_eq_true]
    intro m hm
    rw [List.any_eq_true]
    exact ⟨m.1, hnames m hm, beq_self_eq_true _⟩
  unfold unmarshal at h
  unfold Projector.decodeExactBody
  cases hparse : parseValue (raw.length + 1) (skipSpace raw) with
  | none =>
    rw [hparse] at h
    cases h
  | some x =>
    obtain ⟨v, rest⟩ := x
    rw [hparse] at h
    dsimp only at h
    by_cases hend : (skipSpace rest).isEmpty = true
    · rw [if_pos hend] at h
      cases h
      rw [List.isEmpty_iff] at hend
      simp [structMembers, hknown, hend]
    · rw [if_neg hend] at h
      cases h

theorem runeCount_ne_nil {s : Bytes} (h : (runeCount s != 0) = true) : s ≠ [] := by
  rintro rfl
  exact absurd h (by decide)

theorem bodyString_eq {e : Envelope} {ms : Members} {name label s : Bytes}
    (hms : unmarshal e.body = some (.obj ms)) (h : requiredString ms name label = .ok s) :
    bodyString e name = some s := by
  obtain ⟨raw, hraw⟩ := requiredString_lookup h
  unfold bodyString
  simp only [hms, hraw]

theorem projected_case {e : Envelope} (h : e.Sound) (hcase : e.schema = .case) :
    ∃ body, Projector.decodeCaseBody e.body = some body ∧
      bodyString e (text "domain") = some body.domain ∧
      bodyString e (text "public_summary") = some body.publicSummary ∧
      (body.domain == [] || body.issuerEdgeGeneration ≤ 0 || body.summary == [] ||
        body.publicSummary == []) = false := by
  obtain ⟨ms, hms, hvalid⟩ := h.caseBody hcase
  unfold validateCaseBody at hvalid
  simp only [bind_eq_ok] at hvalid
  obtain ⟨_, hexact, domain, hdomain, edge, hedge, generation, hgeneration, _, hnonzero, summary, hsummary,
    publicSummary, hpublic, manifest, hmanifest, hensure⟩ := hvalid
  have hmembers := requireExactMembers_ok hexact
  have hfield : ∀ name s, name ∈ caseBodyMembers →
      requiredString ms name (bodyLabel .case) = .ok s → fieldString ms name = some s :=
    fun name s hname h => requiredString_field hmembers caseBodyMembers_fold hname h
  obtain ⟨hinteger, hnonneg⟩ := requiredNonNegativeInteger_field hmembers caseBodyMembers_fold
    (by simp [caseBodyMembers]) (mapError_eq_ok.mp hgeneration)
  rw [ensure_eq_ok, bne_iff_ne] at hnonzero
  simp only [ensure_eq_ok, Bool.and_eq_true] at hensure
  obtain ⟨⟨⟨⟨⟨⟨hplain, -⟩, hs⟩, -⟩, hp⟩, -⟩, -⟩ := hensure
  have hdomainNe : domain ≠ [] := by
    rintro rfl
    exact absurd hplain (by decide)
  refine ⟨⟨domain, edge, generation, summary, publicSummary, manifest⟩, ?_, bodyString_eq hms hdomain,
    bodyString_eq hms hpublic, ?_⟩
  · unfold Projector.decodeCaseBody
    rw [decodeExactBody_eq hms hmembers]
    simp only [Option.bind_eq_bind, Option.bind_some, hinteger,
      hfield _ _ (by simp [caseBodyMembers]) hdomain, hfield _ _ (by simp [caseBodyMembers]) hedge,
      hfield _ _ (by simp [caseBodyMembers]) hsummary, hfield _ _ (by simp [caseBodyMembers]) hpublic,
      hfield _ _ (by simp [caseBodyMembers]) hmanifest]
  · have hpositive : ¬ generation ≤ 0 := by omega
    simp [hdomainNe, hpositive, runeCount_ne_nil hs, runeCount_ne_nil hp]

theorem projected_advice {e : Envelope} (h : e.Sound) (hadvice : e.schema = .advice) :
    ∃ body, Projector.decodeAdviceBody e.body = some body ∧
      bodyString e (text "public_summary") = some body.publicSummary ∧
      (body.words == [] || body.publicSummary == []) = false := by
  obtain ⟨ms, hms, hvalid⟩ := h.adviceBody hadvice
  unfold validateAdviceBody at hvalid
  simp only [bind_eq_ok] at hvalid
  obtain ⟨_, hexact, commitment, hcommitment, words, hwords, publicSummary, hpublic, hensure⟩ := hvalid
  have hmembers := requireExactMembers_ok hexact
  have hfield : ∀ name s, name ∈ adviceBodyMembers →
      requiredString ms name (bodyLabel .advice) = .ok s → fieldString ms name = some s :=
    fun name s hname h => requiredString_field hmembers adviceBodyMembers_fold hname h
  simp only [ensure_eq_ok, Bool.and_eq_true] at hensure
  obtain ⟨⟨⟨⟨-, hw⟩, -⟩, hp⟩, -⟩ := hensure
  refine ⟨⟨commitment, words, publicSummary⟩, ?_, bodyString_eq hms hpublic, ?_⟩
  · unfold Projector.decodeAdviceBody
    rw [decodeExactBody_eq hms hmembers]
    simp only [Option.bind_eq_bind, Option.bind_some,
      hfield _ _ (by simp [adviceBodyMembers]) hcommitment, hfield _ _ (by simp [adviceBodyMembers]) hwords,
      hfield _ _ (by simp [adviceBodyMembers]) hpublic]
  · simp [runeCount_ne_nil hw, runeCount_ne_nil hp]

theorem Agrees.renderCard {e e' : Envelope} (h : Agrees e e') (commitment summary advice : Bytes) :
    renderCard e' commitment summary advice = renderCard e commitment summary advice := by
  unfold Buzz.renderCard
  rw [h.schema, h.id, h.caseID]

/-! ### Passes in step -/

section
variable {p : Projector} {st st' : State} {f f' : CommittedFact} {e e' : Envelope}

theorem prepareAndPublishCase_inStep (h : StateLike st st') (hf : FactLike f f') (he : Agrees e e')
    (hcase : e.schema = .case) :
    InStep ResultLike (p.prepareAndPublishCase st f e) (p.prepareAndPublishCase st' f' e') := by
  obtain ⟨body, hbody, hdomain, hpublic, hcomplete⟩ := projected_case he.sound hcase
  obtain ⟨body', hbody', hdomain', hpublic', hcomplete'⟩ := projected_case he.sound' (he.schema.trans hcase)
  have hdomain : body'.domain = body.domain :=
    Option.some.inj (hdomain'.symm.trans ((he.domain hcase).trans hdomain))
  have hpublic : body'.publicSummary = body.publicSummary :=
    Option.some.inj (hpublic'.symm.trans (he.publicSummary.trans hpublic))
  unfold Projector.prepareAndPublishCase
  simp only [hbody, hbody', hcomplete, hcomplete', Bool.false_eq_true, if_false]
  rw [hdomain, hpublic, hf.sequence, hf.commitment, he.renderCard, he.caseID]
  refine inStep_reply (fun w _ => w.channel body.domain) (fun w _ => w.channel body.domain) Eq
    (fun _ _ => rfl) (fun _ _ => rfl) ?_ ?_ ?_
  · intro w w' _ _ hw _
    rw [hw.channel]
  · rintro channel _ rfl
    dsimp only
    split
    · exact refuse_inStep h _ _ _
    · split
      · exact refuse_inStep h _ _ _
      · rename_i content hcard
        refine (prepare_inStep channel [] content).bind fun r r' hr => ?_
        cases hr
        cases r with
        | error => exact refuse_inStep h _ _ _
        | ok prepared =>
          exact saveAndPublish_inStep ((h.prepared hf [] prepared).setRoot e.caseID prepared.id) hf
            prepared.wire
  · intro fault
    exact refuse_inStep h _ _ _

theorem prepareAndPublishAdvice_inStep (h : StateLike st st') (hf : FactLike f f') (he : Agrees e e')
    (hadvice : e.schema = .advice) :
    InStep ResultLike (p.prepareAndPublishAdvice st f e) (p.prepareAndPublishAdvice st' f' e') := by
  obtain ⟨body, hbody, hpublic, hcomplete⟩ := projected_advice he.sound hadvice
  obtain ⟨body', hbody', hpublic', hcomplete'⟩ := projected_advice he.sound' (he.schema.trans hadvice)
  have hpublic : body'.publicSummary = body.publicSummary :=
    Option.some.inj (hpublic'.symm.trans (he.publicSummary.trans hpublic))
  have hdelivery := h.caseDelivery e.caseID
  unfold Projector.prepareAndPublishAdvice
  simp only [hbody, hbody', hcomplete, hcomplete', Bool.false_eq_true, if_false]
  rw [hpublic, hf.sequence, hf.commitment, he.renderCard, he.caseID, h.caseRoots]
  split
  · exact refuse_inStep h _ _ _
  · rename_i root hroot
    -- the case's record is found in both runs, with one wire
    cases hfound : st.caseDelivery e.caseID with
    | none =>
      rw [hfound] at hdelivery
      rw [Option.map_eq_none_iff.mp hdelivery]
      exact refuse_inStep h _ _ _
    | some delivery =>
      rw [hfound] at hdelivery
      obtain ⟨delivery', hfound', hview⟩ := Option.map_eq_some_iff.mp hdelivery
      have hwire : delivery'.wire = delivery.wire := by
        have hwires := congrArg Delivery.wire hview
        exact hwires
      simp only [hfound', hwire]
      split
      · exact refuse_inStep h _ _ _
      · split
        · exact refuse_inStep h _ _ _
        · rename_i content hcard
          refine (prepare_inStep _ root content).bind fun r r' hr => ?_
          cases hr
          cases r with
          | error cause => exact refuse_inStep h _ _ _
          | ok prepared => exact saveAndPublish_inStep (h.prepared hf root prepared) hf prepared.wire

theorem projectRecord_inStep (h : StateLike st st') (hf : FactLike f f') :
    InStep ResultLike (p.projectRecord st f) (p.projectRecord st' f') := by
  have htouched := h.touch hf
  unfold Projector.projectRecord
  dsimp only
  generalize st.touch f = st at htouched ⊢
  generalize st'.touch f' = st' at htouched ⊢
  have hview := htouched.recordAt f.sequence
  have hstatus : (st'.recordAt f.sequence).status = (st.recordAt f.sequence).status := by
    have hsame := congrArg Delivery.status hview
    exact hsame
  have hwire : (st'.recordAt f.sequence).wire = (st.recordAt f.sequence).wire := by
    have hsame := congrArg Delivery.wire hview
    exact hsame
  rw [hf.sequence, hstatus, hwire, hf.envelopeID]
  split
  · exact inStep_pure ⟨htouched, rfl⟩
  · split
    · refine inStep_publish f.sequence _ fun r => ?_
      cases r with
      | ok =>
        refine inStep_pure ⟨?_, rfl⟩
        unfold State.markRepublished
        rw [hf.sequence]
        exact htouched.update f.sequence (fun d => { d with status := .published, lastError := none })
          fun _ => rfl
      | error fault =>
        cases fault with
        | expiredAbsent => exact supersede_inStep htouched hf
        | error message => exact refuse_inStep htouched _ _ _
    · refine inStep_reply (fun w _ => w.envelope) (fun w _ => w.envelope) Agrees (fun _ _ => rfl)
        (fun _ _ => rfl) (fun w w' _ _ hw _ => hw.envelope) ?_ ?_
      · intro e e' he
        dsimp only
        rw [he.id, he.schema]
        split
        · exact refuse_inStep htouched _ _ _
        · split
          · exact prepareAndPublishCase_inStep htouched hf he ‹_›
          · exact prepareAndPublishAdvice_inStep htouched hf he ‹_›
          · exact refuse_inStep htouched _ _ _
      · intro fault
        exact refuse_inStep htouched _ _ _

theorem projectLoop_inStep {i j : ℕ} {fs fs' : List CommittedFact} (h : StateLike st st')
    (hfs : List.Forall₂ FactLike fs fs') :
    InStep (fun _ _ => True) (p.projectLoop st i j fs) (p.projectLoop st' i j fs') := by
  induction hfs generalizing st st' i j with
  | nil => exact inStep_pure trivial
  | @cons g g' gs gs' hg hgs ih =>
    have hraw : (g'.raw == []) = (g.raw == []) := by
      rw [Bool.eq_iff_iff, beq_iff_eq, beq_iff_eq]
      exact hg.present
    unfold Projector.projectLoop
    rw [hg.sequence, h.checkpoint, hraw]
    split
    · exact inStep_pure trivial
    · refine (projectRecord_inStep (h.raise hg) hg).bind fun r r' hr => ?_
      obtain ⟨s, result⟩ := r
      obtain ⟨s', result'⟩ := r'
      obtain ⟨hs, hresult⟩ := hr
      cases hresult
      cases result with
      | error err =>
        refine inStep_save hs.recalculateLag fun r => ?_
        cases r with
        | error | ok => exact inStep_pure trivial
      | ok sent =>
        refine inStep_save (hs.advance hg) fun r => ?_
        cases r with
        | error fault => exact inStep_pure trivial
        | ok u => exact ih (hs.advance hg)

theorem project_inStep (p : Projector) (limit : ℕ) :
    InStep (fun _ _ => True) (p.project limit) (p.project limit) := by
  unfold Projector.project
  split
  · exact inStep_pure trivial
  · refine inStep_reply (fun _ c => c.durable) (fun _ c => c.durable) StateLike (fun _ _ => rfl)
      (fun _ _ => rfl) (fun _ _ _ _ _ hc => hc.durable) ?_ ?_
    · intro st st' hst
      refine inStep_reply (fun w _ => w.facts) (fun w _ => w.facts) (List.Forall₂ FactLike)
        (fun _ _ => rfl) (fun _ _ => rfl) (fun _ _ _ _ hw _ => hw.facts) ?_ ?_
      · intro fs fs' hfs
        exact projectLoop_inStep hst.recalculateLag hfs
      · intro fault
        exact inStep_pure trivial
    · intro fault
      exact inStep_pure trivial

end

theorem scriptedPasses_like {p : Projector} {passes passes' : List (ℕ × List Choice)} {c c' : Site}
    (hpasses : List.Forall₂ (fun a b => b.1 = a.1 ∧ List.Forall₂ ChoiceLike a.2 b.2) passes passes')
    (hc : SiteLike c c') : SiteLike (p.scriptedPasses passes c) (p.scriptedPasses passes' c') := by
  induction hpasses generalizing c c' with
  | nil => exact hc
  | @cons a b rest rest' hab _ ih =>
    obtain ⟨limit, script⟩ := a
    obtain ⟨limit', script'⟩ := b
    obtain ⟨hlimit, hscript⟩ := hab
    cases hlimit
    exact ih ((project_inStep p limit c c' hc).play hscript)

/-- Two runs of passes, each cut off anywhere, in which the surroundings do the same at every
statement, but for the stored bytes of the facts and the envelopes verified from them, which
agree on no more than `Agrees` says. The events stored for every fact, those superseded and
those published are the same bytes. -/
theorem projection_hides_confidential_text (p : Projector) (passes passes' : List (ℕ × List Choice))
    (hpasses : List.Forall₂ (fun a b => b.1 = a.1 ∧ List.Forall₂ ChoiceLike a.2 b.2) passes passes') :
    (p.scriptedPasses passes' {}).log.map Publication.sent =
        (p.scriptedPasses passes {}).log.map Publication.sent ∧
      ∀ s, ((p.scriptedPasses passes' {}).durable.recordAt s).wire =
          ((p.scriptedPasses passes {}).durable.recordAt s).wire ∧
        ((p.scriptedPasses passes' {}).durable.recordAt s).superseded =
          ((p.scriptedPasses passes {}).durable.recordAt s).superseded := by
  have hlike : SiteLike (p.scriptedPasses passes {}) (p.scriptedPasses passes' {}) :=
    scriptedPasses_like hpasses ⟨⟨rfl, rfl, rfl, rfl, rfl⟩, rfl⟩
  refine ⟨hlike.log, fun s => ?_⟩
  have hview := hlike.durable.recordAt s
  have hwire := congrArg Delivery.wire hview
  have hsuperseded := congrArg Delivery.superseded hview
  exact ⟨hwire, hsuperseded⟩

namespace Sample

def confiding (summary : Bytes) : Envelope where
  schema := .case
  id := text "i"
  caseID := text "c"
  emittedAt := text "t"
  expiresAt := text "u"
  routingEpoch := 1
  registryRevision := 1
  registryHash := hash
  authorKeyID := text "k"
  signatureAlg := text "ed25519"
  body := objectText [(text "domain", quote (text "d")), (text "issuer_edge_id", quote (text "e")),
    (text "issuer_edge_generation", text "1"), (text "summary", quote summary),
    (text "public_summary", quote (text "t")), (text "context_manifest", quote hash)]
  signature := text "s"

def choice (summary : Bytes) : Choice where
  facts := [⟨1, text "i", text "h", summary⟩]
  envelope := confiding summary
  channel := fun _ => channel
  now := 0
  sign := fun _ => text "s"

theorem confiding_agree : Agrees (confiding (text "leak")) (confiding (text "cure")) := by
  refine ⟨⟨?_, ?_⟩, ⟨?_, ?_⟩, rfl, rfl, rfl, fun _ => ?_, ?_⟩ <;> decide +kernel

theorem choice_like : ChoiceLike (choice (text "leak")) (choice (text "cure")) :=
  ⟨rfl, rfl, .cons ⟨rfl, rfl, rfl, by decide⟩ .nil, confiding_agree, rfl, rfl, rfl⟩

theorem choices_like (n : ℕ) :
    List.Forall₂ ChoiceLike (List.replicate n (choice (text "leak")))
      (List.replicate n (choice (text "cure"))) := by
  induction n with
  | zero => exact .nil
  | succ n ih => exact .cons choice_like ih

/-- A pass of nine statements: the case is read, verified, prepared, saved and published. -/
def confided (summary : Bytes) : Site :=
  (projector 1 one_positive).scriptedPasses [(1, List.replicate 9 (choice summary))] {}

end Sample

theorem projection_hides_confidential_text_sample :
    (Sample.confiding (text "leak")).body ≠ (Sample.confiding (text "cure")).body ∧
      (Sample.confided (text "leak")).log.map (fun x => (x.sequence, x.outcome)) = [(1, .ok ())] ∧
      (Sample.confided (text "cure")).log.map Publication.sent =
        (Sample.confided (text "leak")).log.map Publication.sent := by
  exact ⟨by decide +kernel, by decide +kernel, (projection_hides_confidential_text
    (Sample.projector 1 Sample.one_positive) [(1, List.replicate 9 (Sample.choice (text "leak")))]
    [(1, List.replicate 9 (Sample.choice (text "cure")))] (.cons ⟨rfl, Sample.choices_like 9⟩ .nil)).1⟩

end Snagline.Buzz
