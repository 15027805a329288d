import Mathlib.Tactic

/-!
# Generation fences

One key along a history: at each position it is absent or present with an entry
that has a generation. A new entry is admitted against the latest one only: it
has a later generation, or it is that very entry and the key was present just
before. Then generations never fall, and the positions of one generation are an
interval on which the entry is the same.
-/

namespace Snagline.Kit

variable {α β : Type}

def latest (xs : List (Option α)) : Option α := (xs.filterMap id).getLast?

theorem getElem?_concat_some {xs : List α} {x y : α} {i : ℕ} (h : (xs ++ [x])[i]? = some y) :
    (i < xs.length ∧ xs[i]? = some y) ∨ (i = xs.length ∧ x = y) := by
  have hlt := (List.getElem?_eq_some_iff.mp h).1
  rw [List.length_append, List.length_singleton] at hlt
  rcases Nat.lt_or_ge i xs.length with hin | hout
  · rw [List.getElem?_append_left hin] at h
    exact Or.inl ⟨hin, h⟩
  · have hat : i = xs.length := by omega
    rw [hat, List.getElem?_concat_length] at h
    exact Or.inr ⟨hat, Option.some.inj h⟩

theorem latest_of_present {xs : List (Option α)} {i : ℕ} {a : α} (h : xs[i]? = some (some a)) :
    ∃ p b, i ≤ p ∧ xs[p]? = some (some b) ∧ latest xs = some b := by
  induction xs using List.reverseRecOn with
  | nil => cases h
  | append_singleton xs x ih =>
    cases x with
    | some b =>
      have hlt := (List.getElem?_eq_some_iff.mp h).1
      rw [List.length_append, List.length_singleton] at hlt
      exact ⟨xs.length, b, by omega, List.getElem?_concat_length, by simp [latest]⟩
    | none =>
      rcases getElem?_concat_some h with ⟨-, hold⟩ | ⟨-, hnew⟩
      · obtain ⟨p, b, hip, hp, hlatest⟩ := ih hold
        have hin := (List.getElem?_eq_some_iff.mp hp).1
        refine ⟨p, b, hip, ?_, ?_⟩
        · rw [List.getElem?_append_left hin]
          exact hp
        · unfold latest at hlatest ⊢
          rw [List.filterMap_append]
          simpa using hlatest
      · cases hnew

variable [LinearOrder β] (generation : α → β)

inductive Fenced : List (Option α) → Prop
  | nil : Fenced []
  | absent {xs : List (Option α)} (h : Fenced xs) : Fenced (xs ++ [none])
  | present {xs : List (Option α)} (h : Fenced xs) (a : α)
      (admitted : ∀ b, latest xs = some b →
        generation b < generation a ∨ (b = a ∧ xs.getLast? = some (some b))) :
      Fenced (xs ++ [some a])

/-- From `a` at `i` to `b` at `j` the generation has not fallen, and if it is
still the same the entry was there all the while. -/
def Spans (xs : List (Option α)) (i j : ℕ) (a b : α) : Prop :=
  generation a ≤ generation b ∧
    (generation a = generation b → ∀ k, i ≤ k → k ≤ j → xs[k]? = some (some a))

variable {generation}

theorem Spans.append {xs : List (Option α)} {i j : ℕ} {a b : α} (h : Spans generation xs i j a b)
    (hj : j < xs.length) (x : Option α) : Spans generation (xs ++ [x]) i j a b := by
  refine ⟨h.1, fun heq k hik hkj => ?_⟩
  rw [List.getElem?_append_left (by omega)]
  exact h.2 heq k hik hkj

theorem Fenced.spans {xs : List (Option α)} (h : Fenced generation xs) {i j : ℕ} (hij : i ≤ j)
    {a b : α} (hi : xs[i]? = some (some a)) (hj : xs[j]? = some (some b)) :
    Spans generation xs i j a b := by
  induction h generalizing i j a b with
  | nil => cases hi
  | @absent xs h ih =>
    rcases getElem?_concat_some hj with ⟨hin, hj⟩ | ⟨-, hnew⟩
    · rw [List.getElem?_append_left (by omega)] at hi
      exact (ih hij hi hj).append hin none
    · cases hnew
  | @present xs h new admitted ih =>
    rcases getElem?_concat_some hj with ⟨hin, hj⟩ | ⟨hat, hnew⟩
    · rw [List.getElem?_append_left (by omega)] at hi
      exact (ih hij hi hj).append hin _
    cases hnew
    rcases getElem?_concat_some hi with ⟨hin, hold⟩ | ⟨hiat, hsame⟩
    · obtain ⟨p, c, hip, hp, hlatest⟩ := latest_of_present hold
      rcases admitted c hlatest with hlater | ⟨rfl, hlast⟩
      · -- a later generation than the latest is later than every one before
        have hlt := lt_of_le_of_lt (ih hip hold hp).1 hlater
        exact ⟨le_of_lt hlt, fun heq => absurd heq (ne_of_lt hlt)⟩
      · rw [List.getLast?_eq_getElem?] at hlast
        obtain ⟨hle, hstay⟩ := ih (Nat.le_sub_one_of_lt hin) hold hlast
        refine ⟨hle, fun heq k hik hkj => ?_⟩
        have hac : some c = some a := by
          have hend := hstay heq (xs.length - 1) (Nat.le_sub_one_of_lt hin) (Nat.le_refl _)
          exact Option.some.inj (hlast.symm.trans hend)
        rcases Nat.lt_or_ge k xs.length with hk | hk
        · rw [List.getElem?_append_left hk]
          exact hstay heq k hik (Nat.le_sub_one_of_lt hk)
        · have hkat : k = xs.length := by omega
          rw [hkat, List.getElem?_concat_length, hac]
    · cases hsame
      refine ⟨le_of_eq rfl, fun _ k hik hkj => ?_⟩
      have hkat : k = xs.length := by omega
      rw [hkat, List.getElem?_concat_length]

end Snagline.Kit
