import Snagline.Kit.Prog
import Snagline.Kit.Table
import Mathlib.Logic.Relation
import Mathlib.Tactic

/-!
# Transactions on snapshots

Every session runs its program against a snapshot of what was committed when it
began, plus its own writes. At its end the writes are installed on what is
committed by then: rows it added are added, and a row it rewrote must still be
the one of its snapshot. Tickets come from one counter outside all
transactions. The machine takes no locks and never has to abort a session, so
the runs of a server with a stronger isolation are among its runs.
-/

namespace Snagline.Kit.Snapshot

variable {S : Type} {R : S → Type} {φ E α D : Type}

/-! ### Installing writes -/

/-- The rows a session added to its snapshot `s` are added to the committed `d`. -/
def Appends {ρ : Type} (s v d d' : List ρ) : Prop := ∃ new, v = s ++ new ∧ d' = d ++ new

def Replaces {ρ κ : Type} [DecidableEq κ] (key : ρ → κ) (s v d d' : List ρ) : Prop :=
  ∀ k, (Table.find key k v = Table.find key k s ∧ Table.find key k d' = Table.find key k d) ∨
    (Table.find key k d = Table.find key k s ∧ Table.find key k d' = Table.find key k v)

theorem appends_same {ρ : Type} (s d : List ρ) : Appends s s d d := ⟨[], by simp, by simp⟩

theorem Appends.grows {ρ : Type} {s v d d' : List ρ} (h : Appends s v d d') : d <+: d' := by
  obtain ⟨new, -, rfl⟩ := h
  exact List.prefix_append d new

theorem Appends.rows {ρ : Type} {s v d d' new : List ρ} (h : Appends s v d d')
    (hv : v = s ++ new) : d' = d ++ new := by
  obtain ⟨added, hadded, rfl⟩ := h
  rw [hadded] at hv
  rw [List.append_cancel_left hv]

theorem Appends.same {ρ : Type} {s v d d' : List ρ} (h : Appends s v d d') (hv : v = s) :
    d' = d := by
  have hnil : v = s ++ [] := by rw [hv, List.append_nil]
  rw [h.rows hnil, List.append_nil]

theorem replaces_alone {ρ κ : Type} [DecidableEq κ] {key : ρ → κ} {s v : List ρ} :
    Replaces key s v s v := fun _ => Or.inr ⟨rfl, rfl⟩

/-! ### The machine -/

/-- How statements work on a view, which of them draw a ticket, and what a
commit may make of the committed state. -/
structure Engine (S : Type) (R : S → Type) (φ D : Type) where
  exec : ℤ → (s : S) → D → Except φ (R s × D)
  draws : S → Bool
  steady : ∀ s, draws s = false → ∀ t t' d, exec t s d = exec t' s d
  installs : D → D → D → D → Prop

structure Session (S : Type) (R : S → Type) (φ E α D : Type) where
  program : Prog S R φ E α
  snapshot : D
  view : D
  drawn : Option ℤ

structure Server (S : Type) (R : S → Type) (φ E α D : Type) where
  committed : D
  /-- The last ticket handed out. -/
  counter : ℤ
  running : ℕ → Option (Session S R φ E α D)

def start (d : D) : Server S R φ E α D := ⟨d, 0, fun _ => none⟩

def Server.put (σ : Server S R φ E α D) (id : ℕ) (session : Option (Session S R φ E α D)) :
    Server S R φ E α D :=
  { σ with running := Function.update σ.running id session }

theorem put_self {σ : Server S R φ E α D} {id : ℕ} {session : Option (Session S R φ E α D)} :
    (σ.put id session).running id = session := Function.update_self _ _ _

theorem put_other (σ : Server S R φ E α D) {id other : ℕ} (h : other ≠ id)
    (session : Option (Session S R φ E α D)) :
    (σ.put id session).running other = σ.running other := Function.update_of_ne h _ _

variable (engine : Engine S R φ D) (allowed : Prog S R φ E α → Prop)

/-- One move of the server. `fault` covers every statement that fails, whatever
the cause; `skip` is a ticket drawn elsewhere. -/
inductive Step : Server S R φ E α D → Server S R φ E α D → Prop where
  | begin (σ : Server S R φ E α D) (id : ℕ) (p : Prog S R φ E α) (free : σ.running id = none)
      (ok : allowed p) : Step σ (σ.put id (some ⟨p, σ.committed, σ.committed, none⟩))
  | skip (σ : Server S R φ E α D) : Step σ { σ with counter := σ.counter + 1 }
  | fault (σ : Server S R φ E α D) (id : ℕ) (s : S) (k : Except φ (R s) → Prog S R φ E α)
      (snapshot view : D) (drawn : Option ℤ) (f : φ)
      (at_ : σ.running id = some ⟨.call s k, snapshot, view, drawn⟩) :
      Step σ (σ.put id (some ⟨k (.error f), snapshot, view, drawn⟩))
  | reply (σ : Server S R φ E α D) (id : ℕ) (s : S) (k : Except φ (R s) → Prog S R φ E α)
      (snapshot view view' : D) (drawn : Option ℤ) (r : R s)
      (at_ : σ.running id = some ⟨.call s k, snapshot, view, drawn⟩)
      (quiet : engine.draws s = false)
      (done : engine.exec (σ.counter + 1) s view = .ok (r, view')) :
      Step σ (σ.put id (some ⟨k (.ok r), snapshot, view', drawn⟩))
  | draw (σ : Server S R φ E α D) (id : ℕ) (s : S) (k : Except φ (R s) → Prog S R φ E α)
      (snapshot view view' : D) (drawn : Option ℤ) (r : R s)
      (at_ : σ.running id = some ⟨.call s k, snapshot, view, drawn⟩)
      (draws : engine.draws s = true)
      (done : engine.exec (σ.counter + 1) s view = .ok (r, view')) :
      Step σ { σ.put id (some ⟨k (.ok r), snapshot, view', some (σ.counter + 1)⟩) with
        counter := σ.counter + 1 }
  | commit (σ : Server S R φ E α D) (id : ℕ) (a : α) (snapshot view committed : D)
      (drawn : Option ℤ) (at_ : σ.running id = some ⟨.ret a, snapshot, view, drawn⟩)
      (installs : engine.installs snapshot view σ.committed committed) :
      Step σ { σ.put id none with committed }
  | abort (σ : Server S R φ E α D) (id : ℕ) : Step σ (σ.put id none)

abbrev Steps : Server S R φ E α D → Server S R φ E α D → Prop :=
  Relation.ReflTransGen (Step engine allowed)

/-! ### Programs that draw a bounded number of tickets -/

section
variable {draws : S → Bool} {p : Prog S R φ E α} {β : Type} {f : α → Prog S R φ E β} {n m : ℕ}

/-- A failed statement ends the program, and no run of it draws more than `n` tickets. -/
def AtMost (draws : S → Bool) : ℕ → Prog S R φ E α → Prop
  | _, .ret _ => True
  | _, .fail _ => True
  | n, .call s k => (∀ f, ∃ e, k (.error f) = .fail e) ∧
    if draws s then ∃ m, n = m + 1 ∧ ∀ r, AtMost draws m (k (.ok r))
    else ∀ r, AtMost draws n (k (.ok r))

theorem AtMost.mono (h : AtMost draws n p)
    (hle : n ≤ m) : AtMost draws m p := by
  induction p generalizing n m with
  | ret | fail => trivial
  | call s k ih =>
    unfold AtMost at h ⊢
    refine ⟨h.1, ?_⟩
    have hrest := h.2
    split at hrest
    · rename_i hdraws
      obtain ⟨n', rfl, hnext⟩ := hrest
      rw [if_pos hdraws]
      exact ⟨m - 1, by omega, fun r => ih _ (hnext r) (by omega)⟩
    · rename_i hquiet
      rw [if_neg hquiet]
      exact fun r => ih _ (hrest r) hle

theorem atMost_bind (hp : AtMost draws n p) (hf : ∀ a, AtMost draws m (f a)) :
    AtMost draws (n + m) (p >>= f) := by
  induction p generalizing n with
  | ret a => exact (hf a).mono (Nat.le_add_left m n)
  | fail => trivial
  | call s k ih =>
    show AtMost draws (n + m) (.call s fun r => (k r).bind f)
    unfold AtMost at hp ⊢
    obtain ⟨hfail, hrest⟩ := hp
    refine ⟨?_, ?_⟩
    · intro x
      obtain ⟨e, he⟩ := hfail x
      exact ⟨e, by simp only [he]; rfl⟩
    · split at hrest
      · rename_i hdraws
        obtain ⟨n', rfl, hnext⟩ := hrest
        rw [if_pos hdraws]
        exact ⟨n' + m, by omega, fun r => ih _ (hnext r)⟩
      · rename_i hquiet
        rw [if_neg hquiet]
        exact fun r => ih _ (hrest r)

theorem quiet_bind
    {n : ℕ} (hp : AtMost draws 0 p) (hf : ∀ a, AtMost draws n (f a)) : AtMost draws n (p >>= f) := by
  have h := atMost_bind hp hf
  rwa [Nat.zero_add] at h

theorem bind_quiet
    {n : ℕ} (hp : AtMost draws n p) (hf : ∀ a, AtMost draws 0 (f a)) : AtMost draws n (p >>= f) :=
  atMost_bind hp hf

theorem atMost_stmt (s : S) (wrap : φ → E) :
    AtMost draws (if draws s then 1 else 0) (Prog.stmt s wrap : Prog S R φ E (R s)) := by
  unfold Prog.stmt AtMost
  refine ⟨fun f => ⟨wrap f, rfl⟩, ?_⟩
  split
  · exact ⟨0, rfl, fun _ => trivial⟩
  · exact fun _ => trivial

theorem atMost_require {b : Bool} {e : E} :
    AtMost draws 0 (Prog.require b e : Prog S R φ E Unit) := by
  cases b <;> trivial

end

/-! ### A session is a run of its program -/

/-- With ticket `t`, the program `p` on the snapshot `d` has come to `q` on the view `v`. -/
inductive Unfolds (t : ℤ) (p : Prog S R φ E α) (d : D) : Prog S R φ E α → D → Prop where
  | refl : Unfolds t p d p d
  | reply {s : S} {k : Except φ (R s) → Prog S R φ E α} {v v' : D} {r : R s}
      (before : Unfolds t p d (.call s k) v) (done : engine.exec t s v = .ok (r, v')) :
      Unfolds t p d (k (.ok r)) v'

/-- Where a session that began at counter `n` stands at counter `m`. -/
inductive Progress (p : Prog S R φ E α) (d : D) (n m : ℤ) (v : D) :
    Prog S R φ E α → Option ℤ → Prop where
  | before (q : Prog S R φ E α) (once : AtMost engine.draws 1 q)
      (run : ∀ t, Unfolds engine t p d q v) : Progress p d n m v q none
  | after (q : Prog S R φ E α) (t : ℤ) (later : n < t) (drawn : t ≤ m)
      (none : AtMost engine.draws 0 q) (run : Unfolds engine t p d q v) :
      Progress p d n m v q (some t)
  | failed (e : E) (drawn : Option ℤ) : Progress p d n m v (.fail e) drawn

variable {engine allowed}

section
variable {drawn : Option ℤ} {p : Prog S R φ E α} {s : S} {k : Except φ (R s) → Prog S R φ E α}
  {n m : ℤ} {d v v' : D} {r : R s}

theorem Progress.later {p q : Prog S R φ E α} {d v : D} {n m m' : ℤ}
    (h : Progress engine p d n m v q drawn) (hle : m ≤ m') : Progress engine p d n m' v q drawn := by
  cases h with
  | before _ once run => exact .before _ once run
  | after _ t later drawn none run => exact .after _ t later (drawn.trans hle) none run
  | failed e drawn => exact .failed e drawn

theorem AtMost.fails {n : ℕ}
    (h : AtMost engine.draws n (.call s k)) (f : φ) : ∃ e, k (.error f) = .fail e := by
  unfold AtMost at h
  exact h.1 f

theorem AtMost.quiet {n : ℕ}
    (h : AtMost engine.draws n (.call s k)) (hs : engine.draws s = false) (r : R s) :
    AtMost engine.draws n (k (.ok r)) := by
  unfold AtMost at h
  rw [if_neg (Bool.eq_false_iff.mp hs)] at h
  exact h.2 r

theorem AtMost.draw {n : ℕ}
    (h : AtMost engine.draws n (.call s k)) (hs : engine.draws s = true) :
    ∃ m, n = m + 1 ∧ ∀ r, AtMost engine.draws m (k (.ok r)) := by
  unfold AtMost at h
  rw [if_pos hs] at h
  exact h.2

theorem Progress.fault {d v : D}
    (h : Progress engine p d n m v (.call s k) drawn) (f : φ) :
    Progress engine p d n m v (k (.error f)) drawn := by
  have hfail : ∃ e, k (.error f) = .fail e := by
    cases h with
    | before _ once => exact once.fails f
    | after _ t later drawn none => exact none.fails f
  obtain ⟨e, he⟩ := hfail
  rw [he]
  exact .failed e drawn

theorem Progress.reply {c : ℤ}
    (h : Progress engine p d n m v (.call s k) drawn) (hquiet : engine.draws s = false)
    (hdone : engine.exec c s v = .ok (r, v')) :
    Progress engine p d n m v' (k (.ok r)) drawn := by
  cases h with
  | before _ once run =>
    exact .before _ (once.quiet hquiet r) fun t =>
      (run t).reply (engine.steady s hquiet c t v ▸ hdone)
  | after _ t later drawn none run =>
    exact .after _ t later drawn (none.quiet hquiet r)
      (run.reply (engine.steady s hquiet c t v ▸ hdone))

theorem Progress.draw
    (h : Progress engine p d n m v (.call s k) drawn) (hn : n ≤ m)
    (hdraws : engine.draws s = true) (hdone : engine.exec (m + 1) s v = .ok (r, v')) :
    Progress engine p d n (m + 1) v' (k (.ok r)) (some (m + 1)) := by
  cases h with
  | before _ once run =>
    obtain ⟨n', hn', hrest⟩ := once.draw hdraws
    obtain rfl : n' = 0 := by omega
    exact .after _ (m + 1) (by omega) le_rfl (hrest r) ((run (m + 1)).reply hdone)
  | after _ t later drawn none =>
    obtain ⟨n', hn', -⟩ := none.draw hdraws
    omega

end

/-! ### Invariants of what is committed -/

section Invariant

variable (engine allowed) (I : D → ℤ → Prop) (le : D → D → Prop)

/-- What is known of a server all of whose commits keep `I`. -/
structure Sound (σ : Server S R φ E α D) : Prop where
  committed : I σ.committed σ.counter
  sessions : ∀ id session, σ.running id = some session → ∃ p n, allowed p ∧
    I session.snapshot n ∧ n ≤ σ.counter ∧ le session.snapshot σ.committed ∧
    Progress engine p session.snapshot n σ.counter session.view session.program session.drawn

/-- Every commit keeps `I`, given the program that committed, its snapshot and
view, and what is committed by then; `le` says how what is committed grows. -/
structure Kept : Prop where
  once : ∀ p, allowed p → AtMost engine.draws 1 p
  count : ∀ d n, I d n → I d (n + 1)
  refl : ∀ d, le d d
  trans : ∀ a b c, le a b → le b c → le a c
  commit : ∀ p a s v d d' n m drawn, allowed p → I s n → n ≤ m → le s d → I d m →
    Progress engine p s n m v (.ret a) drawn → engine.installs s v d d' → I d' m ∧ le d d'

variable {engine allowed I le}

theorem Sound.put {σ : Server S R φ E α D} {id : ℕ} {new : Option (Session S R φ E α D)}
    {committed : D} {counter : ℤ} (h : Sound engine allowed I le σ)
    (hI : I committed counter) (hcounter : σ.counter ≤ counter)
    (hle : ∀ s, le s σ.committed → le s committed)
    (hnew : ∀ session, new = some session → ∃ p n, allowed p ∧ I session.snapshot n ∧
      n ≤ counter ∧ le session.snapshot committed ∧
      Progress engine p session.snapshot n counter session.view session.program session.drawn) :
    Sound engine allowed I le
      ⟨committed, counter, Function.update σ.running id new⟩ := by
  refine ⟨hI, ?_⟩
  intro other session hsession
  by_cases hother : other = id
  · subst hother
    simp only [Function.update_self] at hsession
    exact hnew session hsession
  · simp only [Function.update_of_ne hother] at hsession
    obtain ⟨p, n, hp, hn, hle', hgrown, hprogress⟩ := h.sessions other session hsession
    exact ⟨p, n, hp, hn, hle'.trans hcounter, hle _ hgrown, hprogress.later hcounter⟩

theorem Sound.step (hkept : Kept engine allowed I le)
    {σ σ' : Server S R φ E α D} (h : Sound engine allowed I le σ)
    (hstep : Step engine allowed σ σ') : Sound engine allowed I le σ' := by
  cases hstep with
  | begin id p free ok =>
    refine h.put h.committed le_rfl (fun _ hs => hs) ?_
    rintro session ⟨⟩
    exact ⟨p, σ.counter, ok, h.committed, le_rfl, hkept.refl _, .before p (hkept.once p ok) fun _ => .refl⟩
  | skip =>
    refine ⟨hkept.count _ _ h.committed, ?_⟩
    intro id session hsession
    obtain ⟨p, n, hp, hn, hle, hgrown, hprogress⟩ := h.sessions id session hsession
    have hnext : σ.counter ≤ σ.counter + 1 := by omega
    exact ⟨p, n, hp, hn, hle.trans hnext, hgrown, hprogress.later hnext⟩
  | fault id s k snapshot view drawn f at_ =>
    obtain ⟨p, n, hp, hn, hle, hgrown, hprogress⟩ := h.sessions id _ at_
    refine h.put h.committed le_rfl (fun _ hs => hs) ?_
    rintro session ⟨⟩
    exact ⟨p, n, hp, hn, hle, hgrown, hprogress.fault f⟩
  | reply id s k snapshot view view' drawn r at_ quiet done =>
    obtain ⟨p, n, hp, hn, hle, hgrown, hprogress⟩ := h.sessions id _ at_
    refine h.put h.committed le_rfl (fun _ hs => hs) ?_
    rintro session ⟨⟩
    exact ⟨p, n, hp, hn, hle, hgrown, hprogress.reply quiet done⟩
  | draw id s k snapshot view view' drawn r at_ draws done =>
    obtain ⟨p, n, hp, hn, hle, hgrown, hprogress⟩ := h.sessions id _ at_
    have hnext : σ.counter ≤ σ.counter + 1 := by omega
    refine h.put (hkept.count _ _ h.committed) hnext (fun _ hs => hs) ?_
    rintro session ⟨⟩
    exact ⟨p, n, hp, hn, hle.trans hnext, hgrown, hprogress.draw hle draws done⟩
  | commit id a snapshot view committed drawn at_ installs =>
    obtain ⟨p, n, hp, hn, hle, hgrown, hprogress⟩ := h.sessions id _ at_
    obtain ⟨hnew, hgrows⟩ := hkept.commit p a snapshot view σ.committed committed n σ.counter drawn hp hn hle
      hgrown h.committed hprogress installs
    refine h.put hnew le_rfl (fun s hs => hkept.trans _ _ _ hs hgrows) ?_
    intro session hnone
    cases hnone
  | abort =>
    refine h.put h.committed le_rfl (fun _ hs => hs) ?_
    intro session hnone
    cases hnone

theorem Sound.steps (hkept : Kept engine allowed I le)
    {d : D} (hd : I d 0) {σ : Server S R φ E α D}
    (hsteps : Steps engine allowed (start d) σ) : Sound engine allowed I le σ := by
  induction hsteps with
  | refl => exact ⟨hd, fun id session hsession => nomatch hsession⟩
  | tail _ hstep ih => exact ih.step hkept hstep

end Invariant

end Snagline.Kit.Snapshot
