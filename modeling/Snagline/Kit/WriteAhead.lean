import Mathlib.Logic.Function.Basic
import Mathlib.Logic.Relation
import Mathlib.Tactic
import Snagline.Kit.Prog

/-!
# Written ahead

Any number of programs share a store that keeps one value a key and never
changes a value it has. Each program works for one key and sends values out. It
is `Ahead` when it sends nothing but the value it has learnt to be stored under
its key, from the reply to a statement of its own. Then, however the programs
interleave and wherever they stop, everything ever sent for a key is one value,
stored before it was sent.
-/

namespace Snagline.Kit.WriteAhead

variable {S : Type} {R : S → Type} {φ E α K V σ : Type}

/-- A store and its surroundings. `performs s st r st'` holds when the statement
`s`, issued on `st`, may be answered by `r` and leave `st'`. -/
structure Medium (S : Type) (R : S → Type) (φ K V σ : Type) where
  stored : σ → K → Option V
  performs : (s : S) → σ → Except φ (R s) → σ → Prop
  /-- Replies there can be. -/
  admits : (s : S) → R s → Prop
  /-- What a reply tells to be stored. -/
  learns : (s : S) → R s → Option (K × V)
  sends : S → Option V
  keeps : ∀ s st r st', performs s st r st' → ∀ k v, stored st k = some v → stored st' k = some v
  admitted : ∀ s st r st', performs s st (.ok r) st' → admits s r
  learned : ∀ s st r st', performs s st (.ok r) st' → ∀ k v, learns s r = some (k, v) →
    stored st' k = some v

variable (m : Medium S R φ K V σ)

section Programs
variable [DecidableEq K]

/-- What is known of the value under `key` after a reply. -/
def Medium.after (key : K) (known : Option V) (s : S) (r : R s) : Option V :=
  match m.learns s r with
  | some (k, v) => if k = key then some v else known
  | none => known

/-- The program sends only what it knows to be stored under `key`, and where it
returns, what it knows is as `Q` says. -/
def Leads (key : K) (Q : α → Option V → Prop) : Option V → Prog S R φ E α → Prop
  | known, .ret a => Q a known
  | _, .fail _ => True
  | known, .call s k =>
    (∀ v, m.sends s = some v → known = some v) ∧
    (∀ r, m.admits s r → Leads key Q (m.after key known s r) (k (.ok r))) ∧
    ∀ e, Leads key Q known (k (.error e))

def Ahead (key : K) (known : Option V) (p : Prog S R φ E α) : Prop :=
  Leads m key (fun _ _ => True) known p

variable {m}

section
variable {known : Option V} {key : K} {p : Prog S R φ E α}

theorem Leads.bind {β : Type} {Q : α → Option V → Prop} {Q' : β → Option V → Prop}
    {f : α → Prog S R φ E β} (hp : Leads m key Q known p)
    (hf : ∀ a known', Q a known' → Leads m key Q' known' (f a)) :
    Leads m key Q' known (p >>= f) := by
  induction p generalizing known with
  | ret a => exact hf a known hp
  | fail => trivial
  | call s k ih =>
    obtain ⟨hsend, hok, herror⟩ := hp
    exact ⟨hsend, fun r hr => ih (.ok r) (hok r hr), fun e => ih (.error e) (herror e)⟩

theorem Leads.mono {Q Q' : α → Option V → Prop}
    (hp : Leads m key Q known p) (hQ : ∀ a known', Q a known' → Q' a known') :
    Leads m key Q' known p := by
  induction p generalizing known with
  | ret a => exact hQ a known hp
  | fail => trivial
  | call s k ih =>
    obtain ⟨hsend, hok, herror⟩ := hp
    exact ⟨hsend, fun r hr => ih (.ok r) (hok r hr), fun e => ih (.error e) (herror e)⟩

theorem leads_stmt {s : S} {wrap : φ → E}
    (hsend : ∀ v, m.sends s = some v → known = some v) :
    Leads m key (fun r known' => m.admits s r ∧ known' = m.after key known s r) known
      (Prog.stmt s wrap) := by
  refine ⟨hsend, ?_, ?_⟩
  · intro r hr
    exact ⟨hr, rfl⟩
  · intro e
    trivial

theorem leads_require {b : Bool} {e : E} :
    Leads m key (fun _ known' => b = true ∧ known' = known) known
      (Prog.require b e : Prog S R φ E Unit) := by
  cases b with
  | false => trivial
  | true => exact ⟨rfl, rfl⟩

end

end Programs

/-! ### The machine -/

structure Sent (K V σ : Type) where
  key : K
  value : V
  store : σ

structure System (S : Type) (R : S → Type) (φ E α K V σ : Type) where
  store : σ
  running : ℕ → Option (K × Prog S R φ E α) := fun _ => none
  log : List (Sent K V σ) := []

variable (allowed : K → Prog S R φ E α → Prop)

/-- One move. `stop` is a return, a cancellation or a crash. -/
inductive Step (c : System S R φ E α K V σ) : System S R φ E α K V σ → Prop where
  | start (id : ℕ) (key : K) (p : Prog S R φ E α) (free : c.running id = none)
      (ok : allowed key p) :
      Step c { c with running := Function.update c.running id (some (key, p)) }
  | perform (id : ℕ) (key : K) (s : S) (k : Except φ (R s) → Prog S R φ E α)
      (at_ : c.running id = some (key, .call s k)) (r : Except φ (R s)) (st : σ)
      (done : m.performs s c.store r st) :
      Step c ⟨st, Function.update c.running id (some (key, k r)),
        c.log ++ ((m.sends s).map fun v => ⟨key, v, c.store⟩).toList⟩
  | stop (id : ℕ) : Step c { c with running := Function.update c.running id none }

abbrev Steps : System S R φ E α K V σ → System S R φ E α K V σ → Prop :=
  Relation.ReflTransGen (Step m allowed)

variable {m allowed}

/-! ### Runs that compute -/

section Compute
variable {c : System S R φ E α K V σ}

def System.start (c : System S R φ E α K V σ) (id : ℕ) (key : K) (p : Prog S R φ E α) :
    System S R φ E α K V σ :=
  { c with running := Function.update c.running id (some (key, p)) }

/-- Program `id` issues its next statements, at most `n`, and `answer` answers them. -/
def System.advance (m : Medium S R φ K V σ) (answer : (s : S) → σ → Except φ (R s) × σ) (id : ℕ) :
    ℕ → System S R φ E α K V σ → System S R φ E α K V σ
  | 0, c => c
  | n + 1, c =>
    match c.running id with
    | some (key, .call s k) =>
      let (r, st) := answer s c.store
      advance m answer id n ⟨st, Function.update c.running id (some (key, k r)),
        c.log ++ ((m.sends s).map fun v => ⟨key, v, c.store⟩).toList⟩
    | _ => c

def System.outcome (c : System S R φ E α K V σ) (id : ℕ) : Option (Except E α) :=
  match c.running id with
  | some (_, .ret a) => some (.ok a)
  | some (_, .fail e) => some (.error e)
  | _ => none

theorem steps_start {id : ℕ} {key : K} {p : Prog S R φ E α} (free : (c.running id).isNone = true)
    (ok : allowed key p) : Steps m allowed c (c.start id key p) :=
  .single (.start id key p (Option.isNone_iff_eq_none.mp free) ok)

theorem steps_advance {answer : (s : S) → σ → Except φ (R s) × σ}
    (h : ∀ s st, m.performs s st (answer s st).1 (answer s st).2) (id n : ℕ) :
    Steps m allowed c (c.advance m answer id n) := by
  induction n generalizing c with
  | zero => exact .refl
  | succ n ih =>
    unfold System.advance
    split
    · rename_i key s k hrunning
      exact .head (.perform id key s k hrunning _ _ (h s c.store)) ih
    · exact .refl

end Compute

variable [DecidableEq K]

def Informed (m : Medium S R φ K V σ) (store : σ) (key : K) (p : Prog S R φ E α) : Prop :=
  ∃ known, Ahead m key known p ∧ ∀ v, known = some v → m.stored store key = some v

structure Inv (m : Medium S R φ K V σ) (c : System S R φ E α K V σ) : Prop where
  informed : ∀ id x, c.running id = some x → Informed m c.store x.1 x.2
  ahead : ∀ e ∈ c.log, m.stored e.store e.key = some e.value
  lasting : ∀ e ∈ c.log, m.stored c.store e.key = some e.value

theorem inv_initial (store : σ) : Inv m (⟨store, fun _ => none, []⟩ : System S R φ E α K V σ) where
  informed := by simp
  ahead := by simp
  lasting := by simp

theorem Informed.perform {store st : σ} {key : K} {s : S} {k : Except φ (R s) → Prog S R φ E α}
    (h : Informed m store key (.call s k)) {r : Except φ (R s)} (hdone : m.performs s store r st) :
    Informed m st key (k r) := by
  obtain ⟨known, ⟨-, hok, herror⟩, hknown⟩ := h
  have hkept : ∀ v, known = some v → m.stored st key = some v := by
    intro v hv
    exact m.keeps s store r st hdone key v (hknown v hv)
  cases r with
  | error e => exact ⟨known, herror e, hkept⟩
  | ok r =>
    refine ⟨_, hok r (m.admitted s store r st hdone), ?_⟩
    intro v hv
    unfold Medium.after at hv
    split at hv
    · rename_i k' v' hlearns
      split at hv
      · rename_i hkey
        cases hv
        exact m.learned s store r st hdone key _ (hkey ▸ hlearns)
      · exact hkept v hv
    · exact hkept v hv

theorem update_all {τ : Type} {P : τ → Prop} {running : ℕ → Option τ} {id : ℕ} {new : Option τ}
    (hold : ∀ id' x, running id' = some x → P x) (hnew : ∀ x, new = some x → P x) :
    ∀ id' x, Function.update running id new id' = some x → P x := by
  intro id' x hx
  by_cases hid : id' = id
  · subst hid
    rw [Function.update_self] at hx
    exact hnew x hx
  · rw [Function.update_of_ne hid] at hx
    exact hold id' x hx

theorem Inv.step (hallowed : ∀ key p, allowed key p → Ahead m key none p)
    {c c' : System S R φ E α K V σ} (h : Inv m c) (hstep : Step m allowed c c') : Inv m c' := by
  cases hstep with
  | start id key p free ok =>
    refine ⟨update_all h.informed ?_, h.ahead, h.lasting⟩
    intro x hx
    cases hx
    exact ⟨none, hallowed key p ok, fun v hv => by cases hv⟩
  | perform id key s k at_ r st done =>
    have hinformed := h.informed id _ at_
    -- what is sent is what the program knows, so it is there already
    have hsent : ∀ e ∈ ((m.sends s).map fun v => (⟨key, v, c.store⟩ : Sent K V σ)).toList,
        e.store = c.store ∧ m.stored c.store e.key = some e.value := by
      intro e he
      obtain ⟨known, ⟨hsend, -⟩, hknown⟩ := hinformed
      obtain ⟨v, hv, rfl⟩ := Option.map_eq_some_iff.mp (Option.mem_toList.mp he)
      exact ⟨rfl, hknown v (hsend v hv)⟩
    refine ⟨update_all ?_ ?_, ?_, ?_⟩
    · intro id' x hx
      obtain ⟨known, hahead, hknown⟩ := h.informed id' x hx
      exact ⟨known, hahead, fun v hv => m.keeps s c.store r st done x.1 v (hknown v hv)⟩
    · intro x hx
      cases hx
      exact hinformed.perform done
    · intro e he
      rcases List.mem_append.mp he with hold | hnew
      · exact h.ahead e hold
      · obtain ⟨hstore, hin⟩ := hsent e hnew
        rw [hstore]
        exact hin
    · intro e he
      refine m.keeps s c.store r st done e.key e.value ?_
      rcases List.mem_append.mp he with hold | hnew
      · exact h.lasting e hold
      · exact (hsent e hnew).2
  | stop =>
    refine ⟨update_all h.informed ?_, h.ahead, h.lasting⟩
    intro x hx
    cases hx

theorem Inv.steps (hallowed : ∀ key p, allowed key p → Ahead m key none p)
    {c c' : System S R φ E α K V σ} (h : Inv m c) (hsteps : Steps m allowed c c') : Inv m c' := by
  induction hsteps with
  | refl => exact h
  | tail _ hstep ih => exact ih.step hallowed hstep

theorem Inv.sent_unique {c : System S R φ E α K V σ} (h : Inv m c) {e e' : Sent K V σ}
    (he : e ∈ c.log) (he' : e' ∈ c.log) (hkey : e.key = e'.key) : e.value = e'.value := by
  have hfirst := h.lasting e he
  rw [hkey, h.lasting e' he'] at hfirst
  exact (Option.some.inj hfirst).symm

end Snagline.Kit.WriteAhead
