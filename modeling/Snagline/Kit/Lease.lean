import Mathlib.Tactic

/-!
# Leases

A resource is leased under a token until an instant, and the holder closes the
lease before that instant. The guards read a clock that never goes back: a lease
is granted when the one before it has run out, and only an unexpired holder
closes. Tokens are drawn afresh. Then at most one token is live at any time, and
a token that has expired, was closed or was replaced is spent for good.
-/

namespace Snagline.Kit

variable {τ : Type}

inductive LeaseAct (τ : Type) where
  | grant (token : τ) (expires : ℤ)
  | close (token : τ)
  deriving DecidableEq

/-- The holder with the end of the lease, the latest reading of the clock, and
what has been done so far. -/
structure Slot (τ : Type) where
  holder : Option (τ × ℤ) := none
  clock : ℤ
  acts : List (LeaseAct τ) := []

inductive Slot.Step : Slot τ → Slot τ → Prop
  | grant (s : Slot τ) (token : τ) (expires checked now : ℤ)
      (fresh : ∀ e, LeaseAct.grant token e ∉ s.acts) (free : ∀ h, s.holder = some h → h.2 ≤ checked)
      (read : s.clock ≤ checked) (later : checked ≤ now) :
      Step s ⟨some (token, expires), now, s.acts ++ [.grant token expires]⟩
  | close (s : Slot τ) (token : τ) (expires checked now : ℤ)
      (held : s.holder = some (token, expires)) (live : checked < expires)
      (read : s.clock ≤ checked) (later : checked ≤ now) :
      Step s ⟨none, now, s.acts ++ [.close token]⟩

def Slot.Live (s : Slot τ) (token : τ) (now : ℤ) : Prop :=
  ∃ e, LeaseAct.grant token e ∈ s.acts ∧ now < e ∧ LeaseAct.close token ∉ s.acts

def Slot.Spent (s : Slot τ) (token : τ) : Prop :=
  (∃ e, LeaseAct.grant token e ∈ s.acts) ∧ ∀ e, s.holder = some (token, e) → e ≤ s.clock

structure Slot.Sound (s : Slot τ) : Prop where
  granted : ∀ token e, s.holder = some (token, e) → LeaseAct.grant token e ∈ s.acts
  unclosed : ∀ token e, s.holder = some (token, e) → LeaseAct.close token ∉ s.acts
  closed : ∀ token, LeaseAct.close token ∈ s.acts → ∃ e, LeaseAct.grant token e ∈ s.acts
  lapsed : ∀ token e, LeaseAct.grant token e ∈ s.acts →
    LeaseAct.close token ∈ s.acts ∨ s.holder = some (token, e) ∨ e ≤ s.clock

namespace Slot

theorem sound_initial (clock : ℤ) : Sound (⟨none, clock, []⟩ : Slot τ) := by
  constructor <;> simp

theorem Sound.step {s s' : Slot τ} (h : s.Sound) (hstep : Step s s') : s'.Sound := by
  cases hstep with
  | grant token expires checked now fresh free =>
    constructor
    · intro t e hholder
      cases hholder
      simp
    · intro t e hholder hclosed
      cases hholder
      obtain ⟨e', hgranted⟩ := h.closed token (by simpa using hclosed)
      exact fresh e' hgranted
    · intro t hclosed
      obtain ⟨e, hgranted⟩ := h.closed t (by simpa using hclosed)
      exact ⟨e, List.mem_append_left _ hgranted⟩
    · intro t e hgrant
      rcases List.mem_append.mp hgrant with hold | hnew
      · rcases h.lapsed t e hold with hclosed | hholder | hexpired
        · exact Or.inl (List.mem_append_left _ hclosed)
        · have hfree := free _ hholder
          exact Or.inr (Or.inr (by dsimp only at hfree ⊢; omega))
        · exact Or.inr (Or.inr (by dsimp only; omega))
      · cases List.mem_singleton.mp hnew
        exact Or.inr (Or.inl rfl)
  | close token expires checked now held =>
    constructor
    · intro t e hholder
      cases hholder
    · intro t e hholder
      cases hholder
    · intro t hclosed
      rcases List.mem_append.mp hclosed with hold | hnew
      · obtain ⟨e, hgranted⟩ := h.closed t hold
        exact ⟨e, List.mem_append_left _ hgranted⟩
      · cases List.mem_singleton.mp hnew
        exact ⟨expires, List.mem_append_left _ (h.granted token expires held)⟩
    · intro t e hgrant
      rcases List.mem_append.mp hgrant with hold | hnew
      · rcases h.lapsed t e hold with hclosed | hholder | hexpired
        · exact Or.inl (List.mem_append_left _ hclosed)
        · rw [held] at hholder
          cases hholder
          exact Or.inl (by simp)
        · exact Or.inr (Or.inr (by dsimp only; omega))
      · cases List.mem_singleton.mp hnew

theorem Sound.live {s : Slot τ} (h : s.Sound) {token : τ} {now : ℤ} (hnow : s.clock ≤ now)
    (hlive : s.Live token now) : ∃ e, s.holder = some (token, e) ∧ now < e := by
  obtain ⟨e, hgranted, hunexpired, hopen⟩ := hlive
  rcases h.lapsed token e hgranted with hclosed | hholder | hexpired
  · exact absurd hclosed hopen
  · exact ⟨e, hholder, hunexpired⟩
  · omega

theorem Sound.live_unique {s : Slot τ} (h : s.Sound) {a b : τ} {now : ℤ} (hnow : s.clock ≤ now)
    (ha : s.Live a now) (hb : s.Live b now) : a = b := by
  obtain ⟨e, hholder, -⟩ := h.live hnow ha
  obtain ⟨e', hholder', -⟩ := h.live hnow hb
  rw [hholder] at hholder'
  cases hholder'
  rfl

theorem Spent.step {s s' : Slot τ} {token : τ} (h : s.Spent token) (hstep : Step s s') :
    s'.Spent token := by
  obtain ⟨⟨e, hgranted⟩, hlapsed⟩ := h
  cases hstep with
  | grant other expires checked now fresh =>
    refine ⟨⟨e, List.mem_append_left _ hgranted⟩, ?_⟩
    intro e' hholder
    cases hholder
    exact absurd hgranted (fresh e)
  | close =>
    refine ⟨⟨e, List.mem_append_left _ hgranted⟩, ?_⟩
    intro e' hholder
    cases hholder

theorem Sound.spent_of_closed {s : Slot τ} (h : s.Sound) {token : τ}
    (hclosed : LeaseAct.close token ∈ s.acts) : s.Spent token := by
  refine ⟨h.closed token hclosed, ?_⟩
  intro e hholder
  exact absurd hclosed (h.unclosed token e hholder)

end Slot

end Snagline.Kit
