import Mathlib.Logic.Relation
import Mathlib.Logic.Function.Basic
import Mathlib.Tactic
import Snagline.Kit.Prog

/-!
# Interleaved transactions with row locks and a ticket counter

Any number of programs run at once, one statement at a time. A reply may be
whatever the server likes, except that a lock is granted only while nobody else
holds it and is kept until commit or abort, and that tickets come from a counter
that never goes back. What a program writes becomes visible when it commits.

A program is `Safe` when every item it writes carries a ticket drawn under the
lock of the item's key. Then the visible items of one key are always in the
order of their tickets, and what becomes visible later has a larger ticket.
-/

namespace Snagline.Kit.Interleave

variable {S : Type} {R : S → Type} {φ E α K F : Type}

structure Rules (S : Type) (R : S → Type) (K F : Type) where
  locks : (s : S) → R s → Option K
  draws : (s : S) → R s → Option ℤ
  writes : S → Option F
  key : F → K
  ticket : F → ℤ

structure Tx (S : Type) (R : S → Type) (φ E α F : Type) where
  program : Prog S R φ E α
  pending : List F

structure System (S : Type) (R : S → Type) (φ E α K F : Type) where
  committed : List F
  /-- The last ticket handed out. -/
  counter : ℤ
  holder : K → Option ℕ
  running : ℕ → Option (Tx S R φ E α F)

def initial : System S R φ E α K F := ⟨[], 0, fun _ => none, fun _ => none⟩

/-- The locks once transaction `id` is over. -/
def release (holder : K → Option ℕ) (id : ℕ) : K → Option ℕ :=
  fun key => if holder key = some id then none else holder key

def grant [DecidableEq K] (holder : K → Option ℕ) (id : ℕ) : Option K → K → Option ℕ
  | none => holder
  | some key => Function.update holder key (some id)

/-- The lock may be given to `id`: nobody else holds it. -/
def Free (holder : K → Option ℕ) (id : ℕ) (key : K) : Prop :=
  holder key = none ∨ holder key = some id

section Machine
variable [DecidableEq K] (rules : Rules S R K F) (allowed : Prog S R φ E α → Prop)

/-- One move of the machine. A ticket may also be drawn and lost (`skip`). -/
inductive Step : System S R φ E α K F → System S R φ E α K F → Prop where
  | start (σ : System S R φ E α K F) (id : ℕ) (p : Prog S R φ E α) (free : σ.running id = none)
      (ok : allowed p) :
      Step σ { σ with running := Function.update σ.running id (some ⟨p, []⟩) }
  | skip (σ : System S R φ E α K F) : Step σ { σ with counter := σ.counter + 1 }
  | fault (σ : System S R φ E α K F) (id : ℕ) (s : S) (k : Except φ (R s) → Prog S R φ E α)
      (pending : List F) (f : φ) (at_ : σ.running id = some ⟨.call s k, pending⟩) :
      Step σ { σ with running := Function.update σ.running id (some ⟨k (.error f), pending⟩) }
  | reply (σ : System S R φ E α K F) (id : ℕ) (s : S) (k : Except φ (R s) → Prog S R φ E α)
      (pending : List F) (r : R s) (at_ : σ.running id = some ⟨.call s k, pending⟩)
      (lock : ∀ key, rules.locks s r = some key → Free σ.holder id key)
      (draw : ∀ t, rules.draws s r = some t → t = σ.counter + 1) :
      Step σ ⟨σ.committed, σ.counter + (if (rules.draws s r).isSome then 1 else 0),
        grant σ.holder id (rules.locks s r),
        Function.update σ.running id
          (some ⟨k (.ok r), pending ++ (rules.writes s).toList⟩)⟩
  | commit (σ : System S R φ E α K F) (id : ℕ) (a : α) (pending : List F)
      (at_ : σ.running id = some ⟨.ret a, pending⟩) :
      Step σ ⟨σ.committed ++ pending, σ.counter, release σ.holder id,
        Function.update σ.running id none⟩
  | abort (σ : System S R φ E α K F) (id : ℕ) :
      Step σ { σ with holder := release σ.holder id, running := Function.update σ.running id none }

abbrev Steps : System S R φ E α K F → System S R φ E α K F → Prop :=
  Relation.ReflTransGen (Step rules allowed)

end Machine

/-! ### Safe programs -/

/-- What a program has got hold of: the lock taken last, and a ticket drawn
since and not used yet. -/
structure Phase (K : Type) where
  lock : Option K
  ticket : Option ℤ

def Phase.start : Phase K := ⟨none, none⟩

variable (rules : Rules S R K F)

def Phase.after (ph : Phase K) (s : S) (r : R s) : Phase K :=
  match rules.locks s r with
  | some key => ⟨some key, none⟩
  | none =>
    match rules.draws s r with
    | some t => ⟨ph.lock, some t⟩
    | none => if (rules.writes s).isSome then ⟨ph.lock, none⟩ else ph

/-- Every item is written under the lock of its key, with a ticket drawn under
that lock for it alone. `Q` holds of the phase in which the program returns. -/
def Safe (rules : Rules S R K F) (Q : α → Phase K → Prop) (ph : Phase K) :
    Prog S R φ E α → Prop
  | .ret a => Q a ph
  | .fail _ => True
  | .call s k =>
    (∀ f, rules.writes s = some f →
      ph.lock = some (rules.key f) ∧ ph.ticket = some (rules.ticket f)) ∧
    (∀ r, Safe rules Q (ph.after rules s r) (k (.ok r))) ∧
    ∀ e, Safe rules Q ph (k (.error e))

def SafeProgram (p : Prog S R φ E α) : Prop :=
  Safe rules (fun _ _ => True) Phase.start p

theorem safe_bind {β : Type} {rules : Rules S R K F} {Q : α → Phase K → Prop}
    {Q' : β → Phase K → Prop} {p : Prog S R φ E α} {f : α → Prog S R φ E β} {ph : Phase K}
    (hp : Safe rules Q ph p) (hf : ∀ a ph', Q a ph' → Safe rules Q' ph' (f a)) :
    Safe rules Q' ph (p >>= f) := by
  induction p generalizing ph with
  | ret a => exact hf a ph hp
  | fail => trivial
  | call s k ih =>
    obtain ⟨hwrite, hok, herror⟩ := hp
    exact ⟨hwrite, fun r => ih (.ok r) (hok r), fun e => ih (.error e) (herror e)⟩

theorem safe_mono {rules : Rules S R K F} {Q Q' : α → Phase K → Prop} {p : Prog S R φ E α}
    {ph : Phase K} (h : Safe rules Q ph p) (hQ : ∀ a ph', Q a ph' → Q' a ph') :
    Safe rules Q' ph p := by
  induction p generalizing ph with
  | ret a => exact hQ a ph h
  | fail => trivial
  | call s k ih =>
    obtain ⟨hwrite, hok, herror⟩ := h
    exact ⟨hwrite, fun r => ih (.ok r) (hok r), fun e => ih (.error e) (herror e)⟩

theorem safe_stmt {rules : Rules S R K F} {s : S} (wrap : φ → E) {ph : Phase K}
    (hwrite : ∀ f, rules.writes s = some f →
      ph.lock = some (rules.key f) ∧ ph.ticket = some (rules.ticket f)) :
    Safe rules (fun r ph' => ph' = ph.after rules s r) ph
      (Prog.stmt s wrap : Prog S R φ E (R s)) :=
  ⟨hwrite, fun _ => rfl, fun _ => trivial⟩

theorem safe_require {rules : Rules S R K F} {b : Bool} {e : E} (ph : Phase K) :
    Safe rules (fun _ ph' => ph' = ph) ph (Prog.require b e : Prog S R φ E Unit) := by
  cases b with
  | true => rfl
  | false => trivial

/-! ### The invariant -/

def Before (f g : F) : Prop :=
  rules.key f = rules.key g → rules.ticket f < rules.ticket g

/-- A running transaction among the visible items: what it wrote, and the ticket
it may use next, come after everything visible under the same key. -/
structure TxInv (committed : List F) (counter : ℤ) (holder : K → Option ℕ) (id : ℕ)
    (tx : Tx S R φ E α F) (ph : Phase K) : Prop where
  safe : Safe rules (fun _ _ => True) ph tx.program
  lock : ∀ key, ph.lock = some key → holder key = some id
  ticket : ∀ key t, ph.lock = some key → ph.ticket = some t → 0 < t ∧ t ≤ counter ∧
    ∀ f ∈ committed ++ tx.pending, rules.key f = key → rules.ticket f < t
  held : ∀ f ∈ tx.pending, holder (rules.key f) = some id
  range : ∀ f ∈ tx.pending, 0 < rules.ticket f ∧ rules.ticket f ≤ counter
  order : (committed ++ tx.pending).Pairwise (Before rules)

structure Inv (σ : System S R φ E α K F) : Prop where
  counter : 0 ≤ σ.counter
  range : ∀ f ∈ σ.committed, 0 < rules.ticket f ∧ rules.ticket f ≤ σ.counter
  order : σ.committed.Pairwise (Before rules)
  txs : ∀ id tx, σ.running id = some tx →
    ∃ ph, TxInv rules σ.committed σ.counter σ.holder id tx ph

theorem inv_initial : Inv rules (initial : System S R φ E α K F) where
  counter := le_refl 0
  range := by simp [initial]
  order := List.Pairwise.nil
  txs := by simp [initial]

/- What the others do leaves a transaction alone: they can neither take its locks
nor make visible an item whose key it has locked. -/
theorem TxInv.frame {rules : Rules S R K F} {committed extra : List F} {counter counter' : ℤ}
    {holder holder' : K → Option ℕ} {id : ℕ} {tx : Tx S R φ E α F} {ph : Phase K}
    (h : TxInv rules committed counter holder id tx ph) (hcounter : counter ≤ counter')
    (hholder : ∀ key, holder key = some id → holder' key = some id)
    (hextra : ∀ f ∈ extra, holder (rules.key f) ≠ some id)
    (horder : (committed ++ extra).Pairwise (Before rules)) :
    TxInv rules (committed ++ extra) counter' holder' id tx ph where
  safe := h.safe
  lock := fun key hkey => hholder key (h.lock key hkey)
  ticket := by
    intro key t hlock ht
    obtain ⟨hpos, hle, hlt⟩ := h.ticket key t hlock ht
    refine ⟨hpos, hle.trans hcounter, ?_⟩
    intro f hf hkey
    rcases List.mem_append.mp hf with hf | hf
    · rcases List.mem_append.mp hf with hf | hf
      · exact hlt f (List.mem_append_left _ hf) hkey
      · exact absurd (hkey ▸ h.lock key hlock) (hextra f hf)
    · exact hlt f (List.mem_append_right _ hf) hkey
  held := fun f hf => hholder _ (h.held f hf)
  range := fun f hf => ⟨(h.range f hf).1, (h.range f hf).2.trans hcounter⟩
  order := by
    obtain ⟨-, hpending, hcross⟩ := List.pairwise_append.mp h.order
    refine List.pairwise_append.mpr ⟨horder, hpending, ?_⟩
    intro f hf g hg
    rcases List.mem_append.mp hf with hf | hf
    · exact hcross f hf g hg
    · intro hkey
      exact absurd (hkey ▸ h.held g hg) (hextra f hf)

theorem TxInv.keep {rules : Rules S R K F} {committed : List F} {counter counter' : ℤ}
    {holder holder' : K → Option ℕ} {id : ℕ} {tx : Tx S R φ E α F} {ph : Phase K}
    (h : TxInv rules committed counter holder id tx ph) (hcounter : counter ≤ counter')
    (hholder : ∀ key, holder key = some id → holder' key = some id) :
    TxInv rules committed counter' holder' id tx ph := by
  have horder : (committed ++ []).Pairwise (Before rules) := by
    rw [List.append_nil]
    exact (List.pairwise_append.mp h.order).1
  have hframe : TxInv rules (committed ++ []) counter' holder' id tx ph :=
    h.frame hcounter hholder (by simp) horder
  rwa [List.append_nil] at hframe

theorem release_other {holder : K → Option ℕ} {id other : ℕ} (hne : other ≠ id) {key : K}
    (h : holder key = some other) : release holder id key = some other := by
  unfold release
  rw [h, if_neg]
  simpa using hne

theorem grant_other [DecidableEq K] {holder : K → Option ℕ} {id other : ℕ} {lock : Option K}
    (hlock : ∀ key, lock = some key → Free holder id key) (hne : other ≠ id) {key : K}
    (h : holder key = some other) : grant holder id lock key = some other := by
  cases lock with
  | none => exact h
  | some k =>
    by_cases hk : key = k
    · subst hk
      rcases hlock key rfl with hfree | hown
      · rw [h] at hfree
        cases hfree
      · rw [h] at hown
        exact absurd (Option.some.inj hown) hne
    · show Function.update holder k (some id) key = some other
      rw [Function.update_of_ne hk]
      exact h

theorem grant_own [DecidableEq K] {holder : K → Option ℕ} {id : ℕ} {lock : Option K} {key : K}
    (h : holder key = some id ∨ lock = some key) : grant holder id lock key = some id := by
  cases lock with
  | none =>
    rcases h with h | h
    · exact h
    · cases h
  | some k =>
    by_cases hk : key = k
    · subst hk
      exact Function.update_self _ _ _
    · show Function.update holder k (some id) key = some id
      rw [Function.update_of_ne hk]
      rcases h with h | h
      · exact h
      · exact absurd (Option.some.inj h).symm hk

/- The reply moves the transaction to its next phase: a lock forgets the ticket, a
ticket is larger than everything so far, and an item uses the ticket up. -/
theorem TxInv.reply [DecidableEq K] {rules : Rules S R K F} {committed : List F} {counter : ℤ}
    {holder : K → Option ℕ} {id : ℕ} {s : S} {k : Except φ (R s) → Prog S R φ E α}
    {pending : List F} {ph : Phase K}
    (h : TxInv rules committed counter holder id ⟨.call s k, pending⟩ ph) (r : R s)
    (hcounter : 0 ≤ counter)
    (hrange : ∀ f ∈ committed, 0 < rules.ticket f ∧ rules.ticket f ≤ counter)
    (hdraw : ∀ t, rules.draws s r = some t → t = counter + 1) :
    TxInv rules committed (counter + (if (rules.draws s r).isSome then 1 else 0))
      (grant holder id (rules.locks s r)) id
      ⟨k (.ok r), pending ++ (rules.writes s).toList⟩ (ph.after rules s r) := by
  obtain ⟨hwrite, hnext, -⟩ := h.safe
  have hle : counter ≤ counter + (if (rules.draws s r).isSome then 1 else 0) := by
    split <;> omega
  have hall : ∀ f ∈ committed ++ pending, rules.ticket f ≤ counter := by
    intro f hf
    rcases List.mem_append.mp hf with hf | hf
    · exact (hrange f hf).2
    · exact (h.range f hf).2
  -- an item written now has the phase's lock and ticket
  have hnew : ∀ f, rules.writes s = some f → holder (rules.key f) = some id ∧
      0 < rules.ticket f ∧ rules.ticket f ≤ counter ∧
      ∀ g ∈ committed ++ pending, rules.key g = rules.key f → rules.ticket g < rules.ticket f := by
    intro f hf
    obtain ⟨hlock, hticket⟩ := hwrite f hf
    exact ⟨h.lock _ hlock, h.ticket _ _ hlock hticket⟩
  refine ⟨hnext r, ?_, ?_, ?_, ?_, ?_⟩
  · intro key hkey
    unfold Phase.after at hkey
    cases hl : rules.locks s r with
    | some =>
      simp only [hl] at hkey
      exact grant_own (Or.inr hkey)
    | none =>
      apply grant_own
      left
      apply h.lock
      simp only [hl] at hkey
      cases hd : rules.draws s r with
      | some t => simpa [hd] using hkey
      | none =>
        simp only [hd] at hkey
        split at hkey <;> exact hkey
  · intro key t hkey ht
    unfold Phase.after at hkey ht
    cases hl : rules.locks s r with
    | some => simp [hl] at ht
    | none =>
      simp only [hl] at hkey ht
      cases hd : rules.draws s r with
      | some t' =>
        simp only [hd, Option.some.injEq] at ht hkey
        have ht' := hdraw t' hd
        subst ht
        simp only [Option.isSome_some, if_true]
        refine ⟨by omega, by omega, ?_⟩
        intro f hf _
        have hf' : f ∈ (committed ++ pending) ++ (rules.writes s).toList := by
          rwa [List.append_assoc]
        rcases List.mem_append.mp hf' with hold | hnow
        · have := hall f hold
          omega
        · have := (hnew f (by simpa using hnow)).2.2.1
          omega
      | none =>
        simp only [hd] at hkey ht
        cases hw : rules.writes s with
        | some f => simp [hw] at ht
        | none =>
          simp only [hw, Option.isSome_none, Bool.false_eq_true, if_false] at hkey ht
          simpa [hd] using h.ticket key t hkey ht
  · intro f hf
    apply grant_own
    left
    rcases List.mem_append.mp hf with hf | hf
    · exact h.held f hf
    · exact (hnew f (by simpa using hf)).1
  · intro f hf
    rcases List.mem_append.mp hf with hf | hf
    · exact ⟨(h.range f hf).1, (h.range f hf).2.trans hle⟩
    · obtain ⟨-, hpos, htop, -⟩ := hnew f (by simpa using hf)
      exact ⟨hpos, htop.trans hle⟩
  · rw [← List.append_assoc]
    refine List.pairwise_append.mpr ⟨h.order, ?_, ?_⟩
    · cases rules.writes s with
      | none => exact List.Pairwise.nil
      | some => exact List.pairwise_singleton _ _
    · intro g hg f hf hkey
      exact (hnew f (by simpa using hf)).2.2.2 g hg hkey

/-! ### Steps and runs -/

/- Transactions other than `id` keep their invariant, and `id` gets the one given. -/
theorem Inv.update {rules : Rules S R K F} {σ : System S R φ E α K F} {committed : List F} {counter : ℤ}
    {holder : K → Option ℕ} {id : ℕ} {tx : Option (Tx S R φ E α F)}
    (hown : ∀ t, tx = some t → ∃ ph, TxInv rules committed counter holder id t ph)
    (hothers : ∀ other t, other ≠ id → σ.running other = some t →
      ∃ ph, TxInv rules committed counter holder other t ph)
    (other : ℕ) (t : Tx S R φ E α F) (ht : Function.update σ.running id tx other = some t) :
    ∃ ph, TxInv rules committed counter holder other t ph := by
  by_cases h : other = id
  · subst h
    rw [Function.update_self] at ht
    exact hown t ht
  · rw [Function.update_of_ne h] at ht
    exact hothers other t h ht

section Runs
variable [DecidableEq K] {rules : Rules S R K F} {allowed : Prog S R φ E α → Prop}

theorem Inv.step (hallowed : ∀ p, allowed p → SafeProgram rules p)
    {σ σ' : System S R φ E α K F} (h : Inv rules σ) (hstep : Step rules allowed σ σ') :
    Inv rules σ' := by
  cases hstep with
  | start id p free ok =>
    refine ⟨h.counter, h.range, h.order, Inv.update ?_ fun other t _ ht => h.txs other t ht⟩
    intro t ht
    cases ht
    exact ⟨Phase.start, hallowed p ok, by simp [Phase.start], by simp [Phase.start], by simp,
      by simp, by simpa using h.order⟩
  | skip =>
    refine ⟨by have := h.counter; simp only; omega, ?_, h.order, ?_⟩
    · intro f hf
      obtain ⟨hpos, hle⟩ := h.range f hf
      exact ⟨hpos, by simp only; omega⟩
    · intro id tx htx
      obtain ⟨ph, hph⟩ := h.txs id tx htx
      exact ⟨ph, hph.keep (by simp only; omega) fun _ hkey => hkey⟩
  | fault id s k pending f at_ =>
    refine ⟨h.counter, h.range, h.order, Inv.update ?_ fun other t _ ht => h.txs other t ht⟩
    intro t ht
    cases ht
    obtain ⟨ph, hph⟩ := h.txs id _ at_
    exact ⟨ph, hph.safe.2.2 f, hph.lock, hph.ticket, hph.held, hph.range, hph.order⟩
  | reply id s k pending r at_ lock draw =>
    have hle : σ.counter ≤ σ.counter + (if (rules.draws s r).isSome then 1 else 0) := by
      split <;> omega
    refine ⟨h.counter.trans hle, ?_, h.order, Inv.update ?_ ?_⟩
    · intro f hf
      exact ⟨(h.range f hf).1, (h.range f hf).2.trans hle⟩
    · intro t ht
      cases ht
      obtain ⟨ph, hph⟩ := h.txs id _ at_
      exact ⟨_, hph.reply r h.counter h.range draw⟩
    · intro other t hne ht
      obtain ⟨ph, hph⟩ := h.txs other t ht
      exact ⟨ph, hph.keep hle fun key hkey => grant_other lock hne hkey⟩
  | commit id a pending at_ =>
    obtain ⟨ph, hph⟩ := h.txs id _ at_
    refine ⟨h.counter, ?_, hph.order, Inv.update (fun t ht => nomatch ht) ?_⟩
    · intro f hf
      rcases List.mem_append.mp hf with hf | hf
      · exact h.range f hf
      · exact hph.range f hf
    · intro other t hne ht
      obtain ⟨ph', hph'⟩ := h.txs other t ht
      -- the committed items are under locks that `id` holds, so not under `other`'s
      refine ⟨ph', hph'.frame (le_refl _) (fun key hkey => release_other hne hkey) ?_ hph.order⟩
      intro f hf hkey
      rw [hph.held f hf] at hkey
      exact hne (Option.some.inj hkey).symm
  | abort =>
    refine ⟨h.counter, h.range, h.order, Inv.update (fun t ht => nomatch ht) ?_⟩
    intro other t hne ht
    obtain ⟨ph, hph⟩ := h.txs other t ht
    exact ⟨ph, hph.keep (le_refl _) fun key hkey => release_other hne hkey⟩

theorem Inv.steps (hallowed : ∀ p, allowed p → SafeProgram rules p)
    {σ σ' : System S R φ E α K F} (h : Inv rules σ) (hsteps : Steps rules allowed σ σ') :
    Inv rules σ' := by
  induction hsteps with
  | refl => exact h
  | tail _ hstep ih => exact ih.step hallowed hstep

theorem step_committed {σ σ' : System S R φ E α K F} (h : Step rules allowed σ σ') :
    σ.committed <+: σ'.committed := by
  cases h with
  | commit => exact List.prefix_append _ _
  | _ => exact List.prefix_rfl

theorem steps_committed {σ σ' : System S R φ E α K F} (h : Steps rules allowed σ σ') :
    σ.committed <+: σ'.committed := by
  induction h with
  | refl => exact List.prefix_rfl
  | tail _ hstep ih => exact ih.trans (step_committed hstep)

theorem later_larger (hallowed : ∀ p, allowed p → SafeProgram rules p)
    {σ σ' : System S R φ E α K F} (h : Inv rules σ) (hsteps : Steps rules allowed σ σ') :
    ∃ new, σ'.committed = σ.committed ++ new ∧
      ∀ f ∈ σ.committed, ∀ g ∈ new, rules.key f = rules.key g → rules.ticket f < rules.ticket g := by
  obtain ⟨new, hnew⟩ := steps_committed hsteps
  have horder := (h.steps hallowed hsteps).order
  rw [← hnew] at horder
  exact ⟨new, hnew.symm, (List.pairwise_append.mp horder).2.2⟩

end Runs

end Snagline.Kit.Interleave
