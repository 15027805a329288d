import Snagline.Kit.Prog

/-!
# The course of a program that may be cut off

A program runs against surroundings that answer as they like, within `perform`, and the
run may stop after any statement. `Along I Q` says that `I` holds after every statement
of every run, and `Q` where a run comes to its end.
-/

namespace Snagline.Kit.Prog

variable {S : Type} {R : S → Type} {φ E α β σ : Type}
variable (perform : (s : S) → σ → Except φ (R s) → σ → Prop)

inductive Course : Prog S R φ E α → σ → Option α → σ → Prop where
  | cut (p : Prog S R φ E α) (st : σ) : Course p st none st
  | ret (a : α) (st : σ) : Course (.ret a) st (some a) st
  | call (s : S) (k : Except φ (R s) → Prog S R φ E α) (st mid last : σ) (r : Except φ (R s))
      (out : Option α) (done : perform s st r mid) (rest : Course (k r) mid out last) :
      Course (.call s k) st out last

def Along (I : σ → Prop) (Q : α → σ → Prop) : Prog S R φ E α → σ → Prop
  | .ret a, st => Q a st
  | .fail _, _ => True
  | .call s k, st => ∀ r mid, perform s st r mid → I mid ∧ Along I Q (k r) mid

variable {perform} {I : σ → Prop} {Q : α → σ → Prop} {Q' : β → σ → Prop}

theorem Along.course {p : Prog S R φ E α} {st last : σ} {out : Option α}
    (h : Along perform I Q p st) (hst : I st) (hrun : Course perform p st out last) :
    I last ∧ ∀ a, out = some a → Q a last := by
  induction hrun with
  | cut => exact ⟨hst, fun a ha => by cases ha⟩
  | ret =>
    refine ⟨hst, ?_⟩
    intro a ha
    cases ha
    exact h
  | call s k st mid last r out done rest ih =>
    obtain ⟨hmid, hrest⟩ := h r mid done
    exact ih hrest hmid

theorem Along.mono {I' : σ → Prop} {Q₁ : α → σ → Prop} {p : Prog S R φ E α} {st : σ}
    (h : Along perform I Q p st) (hI : ∀ st', I st' → I' st') (hQ : ∀ a st', Q a st' → Q₁ a st') :
    Along perform I' Q₁ p st := by
  induction p generalizing st with
  | ret a => exact hQ a st h
  | fail => trivial
  | call s k ih =>
    intro r mid hdone
    obtain ⟨hmid, hrest⟩ := h r mid hdone
    exact ⟨hI mid hmid, ih r hrest⟩

theorem Along.bind {p : Prog S R φ E α} {f : α → Prog S R φ E β} {st : σ}
    (hp : Along perform I Q p st) (hf : ∀ a st', Q a st' → Along perform I Q' (f a) st') :
    Along perform I Q' (p >>= f) st := by
  induction p generalizing st with
  | ret a => exact hf a st hp
  | fail => trivial
  | call s k ih =>
    intro r mid hdone
    obtain ⟨hmid, hrest⟩ := hp r mid hdone
    exact ⟨hmid, ih r hrest⟩

theorem course_drive {exec : (s : S) → σ → σ × Except φ (R s)}
    (h : ∀ s st, perform s st (exec s st).2 (exec s st).1) (p : Prog S R φ Empty α) (st : σ) :
    ∃ a, (drive exec p st).2 = .ok a ∧ Course perform p st (some a) (drive exec p st).1 := by
  induction p generalizing st with
  | ret a => exact ⟨a, rfl, .ret a st⟩
  | fail e => exact e.elim
  | call s k ih =>
    obtain ⟨a, ha, hrest⟩ := ih (exec s st).2 (exec s st).1
    exact ⟨a, ha, .call s k st _ _ _ (some a) (h s st) hrest⟩

end Snagline.Kit.Prog
