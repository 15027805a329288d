import Snagline.Kit.WriteAhead

/-!
# Programs among others

Programs interleave on one store. Each statement of a program keeps an invariant of the
store and a guarantee between the store before and after it, and a program may use what
it has learnt once the guarantee of the others cannot take it away. What then holds of
the store when a program returns holds in every interleaving.
-/

namespace Snagline.Kit.Rely

variable {S : Type} {R : S → Type} {φ E α β K V σ : Type}

structure Terms (σ : Type) where
  inv : σ → Prop
  guarantee : σ → σ → Prop
  refl : ∀ st, guarantee st st
  trans : ∀ a b c, guarantee a b → guarantee b c → guarantee a c

def Terms.Stable (t : Terms σ) (known : σ → Prop) : Prop :=
  ∀ a b, t.guarantee a b → known a → known b

section Programs
variable (t : Terms σ) (performs : (s : S) → σ → Except φ (R s) → σ → Prop)

/-- From a store where `known` holds, the program keeps the terms, and where it returns
`a` the store satisfies `Q a`. -/
def Sure (Q : α → σ → Prop) : Prog S R φ E α → (σ → Prop) → Prop
  | .ret a, known => ∀ st, t.inv st → known st → Q a st
  | .fail _, _ => True
  | .call s k, known => ∀ st r st', t.inv st → known st → performs s st r st' →
      t.inv st' ∧ t.guarantee st st' ∧
        ∃ known', t.Stable known' ∧ known' st' ∧ Sure Q (k r) known'

variable {t performs} {Q : α → σ → Prop} {known : σ → Prop}

theorem Sure.weaken {p : Prog S R φ E α} {stronger : σ → Prop} (h : Sure t performs Q p known)
    (hknown : ∀ st, t.inv st → stronger st → known st) : Sure t performs Q p stronger := by
  cases p with
  | ret => exact fun st hinv hst => h st hinv (hknown st hinv hst)
  | fail => trivial
  | call => exact fun st r st' hinv hst => h st r st' hinv (hknown st hinv hst)

theorem Sure.bind {Q' : β → σ → Prop} {p : Prog S R φ E α} {f : α → Prog S R φ E β}
    (hp : Sure t performs Q p known) (hf : ∀ a, Sure t performs Q' (f a) (Q a)) :
    Sure t performs Q' (p >>= f) known := by
  induction p generalizing known with
  | ret a => exact (hf a).weaken hp
  | fail => trivial
  | call s k ih =>
    intro st r st' hinv hst hstep
    obtain ⟨hinv', hkept, known', hstable, hknown, hrest⟩ := hp st r st' hinv hst hstep
    exact ⟨hinv', hkept, known', hstable, hknown, ih r hrest⟩

end Programs

/-! ### The machine -/

section Machine
open WriteAhead

variable {m : Medium S R φ K V σ} {allowed : K → Prog S R φ E α → Prop} {t : Terms σ}
  {Q : K → α → σ → Prop}

structure Kept (t : Terms σ) (m : Medium S R φ K V σ) (Q : K → α → σ → Prop)
    (c : System S R φ E α K V σ) : Prop where
  inv : t.inv c.store
  running : ∀ id x, c.running id = some x →
    ∃ known, t.Stable known ∧ known c.store ∧ Sure t m.performs (Q x.1) x.2 known

theorem kept_initial {store : σ} (hinv : t.inv store) :
    Kept t m Q (⟨store, fun _ => none, []⟩ : System S R φ E α K V σ) := ⟨hinv, by simp⟩

variable (hallowed : ∀ key p, allowed key p → Sure t m.performs (Q key) p fun _ => True)
include hallowed

theorem Kept.step {c c' : System S R φ E α K V σ} (h : Kept t m Q c) (hstep : Step m allowed c c') :
    Kept t m Q c' ∧ t.guarantee c.store c'.store := by
  cases hstep with
  | start id key p free ok =>
    refine ⟨⟨h.inv, update_all h.running ?_⟩, t.refl _⟩
    intro x hx
    cases hx
    exact ⟨fun _ => True, fun _ _ _ _ => trivial, trivial, hallowed key p ok⟩
  | perform id key s k at_ r st done =>
    obtain ⟨known, hstable, hknown, hsure⟩ := h.running id _ at_
    obtain ⟨hinv, hkept, known', hstable', hknown', hrest⟩ := hsure c.store r st h.inv hknown done
    refine ⟨⟨hinv, update_all ?_ ?_⟩, hkept⟩
    · intro id' x hx
      obtain ⟨others, hlasting, hnow, hprogram⟩ := h.running id' x hx
      exact ⟨others, hlasting, hlasting _ _ hkept hnow, hprogram⟩
    · intro x hx
      cases hx
      exact ⟨known', hstable', hknown', hrest⟩
  | stop =>
    refine ⟨⟨h.inv, update_all h.running ?_⟩, t.refl _⟩
    intro x hx
    cases hx

theorem Kept.steps {c c' : System S R φ E α K V σ} (h : Kept t m Q c)
    (hsteps : Steps m allowed c c') : Kept t m Q c' ∧ t.guarantee c.store c'.store := by
  induction hsteps with
  | refl => exact ⟨h, t.refl _⟩
  | tail _ hstep ih =>
    obtain ⟨hkept, hguarantee⟩ := ih
    obtain ⟨hkept', hguarantee'⟩ := hkept.step hallowed hstep
    exact ⟨hkept', t.trans _ _ _ hguarantee hguarantee'⟩

omit hallowed in
theorem Kept.returned {c : System S R φ E α K V σ} (h : Kept t m Q c) {id : ℕ} {key : K} {a : α}
    (hret : c.running id = some (key, .ret a)) : Q key a c.store := by
  obtain ⟨known, -, hknown, hsure⟩ := h.running id _ hret
  exact hsure c.store h.inv hknown

end Machine

end Snagline.Kit.Rely
