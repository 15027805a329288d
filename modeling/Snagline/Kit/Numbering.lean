import Mathlib.Data.List.Range
import Mathlib.Tactic.Basic

/-!
# Numbering the entries of interleaved logs

Entries of several logs arrive in one list; each entry is numbered within its
own log, from one. `ordinal` is the number the next entry of a log receives.
-/

namespace Snagline.Kit.Numbering

variable {α κ : Type} [DecidableEq κ] (log : α → κ) (xs : List α)

def ordinal (k : κ) : ℕ := 1 + xs.countP fun x => log x = k

def numberFrom (log : α → κ) (earlier : List α) : List α → List (α × ℕ)
  | [] => []
  | x :: xs => (x, ordinal log earlier (log x)) :: numberFrom log (earlier ++ [x]) xs

def number : List (α × ℕ) := numberFrom log [] xs

theorem numberFrom_append (earlier xs : List α) (x : α) : numberFrom log earlier (xs ++ [x]) =
    numberFrom log earlier xs ++ [(x, ordinal log (earlier ++ xs) (log x))] := by
  induction xs generalizing earlier with
  | nil => simp [numberFrom]
  | cons y xs ih =>
    simp only [List.cons_append, numberFrom]
    rw [ih (earlier ++ [y])]
    simp [List.append_assoc]

theorem number_append (x : α) :
    number log (xs ++ [x]) = number log xs ++ [(x, ordinal log xs (log x))] := by
  have h := numberFrom_append log [] xs x
  simpa [number] using h

theorem ordinal_append (x : α) (k : κ) :
    ordinal log (xs ++ [x]) k = if log x = k then ordinal log xs k + 1 else ordinal log xs k := by
  unfold ordinal
  rw [List.countP_append]
  by_cases h : log x = k
  · simp only [h, if_true, List.countP_singleton, decide_true]
    omega
  · simp [h]

@[simp] theorem number_map_fst : (number log xs).map Prod.fst = xs := by
  induction xs using List.reverseRecOn with
  | nil => rfl
  | append_singleton xs x ih => rw [number_append, List.map_append, ih]; rfl

theorem number_log (k : κ) : ((number log xs).filter fun p => log p.1 = k).map
    Prod.snd = List.range' 1 (ordinal log xs k - 1) := by
  induction xs using List.reverseRecOn with
  | nil => simp [number, numberFrom, ordinal]
  | append_singleton xs x ih =>
    rw [number_append, List.filter_append, List.map_append, ih, ordinal_append]
    have hpos : 1 ≤ ordinal log xs k := by unfold ordinal; omega
    by_cases h : log x = k
    · have hlast : ordinal log xs k + 1 - 1 = (ordinal log xs k - 1) + 1 := by omega
      rw [if_pos h, hlast, List.range'_1_concat]
      have hnum : 1 + (ordinal log xs k - 1) = ordinal log xs k := by omega
      simp [h, hnum]
    · simp [h]

end Snagline.Kit.Numbering
