import Mathlib.Data.List.TakeDrop
import Snagline.Kit.Check

/-!
# Replicas of a log

A replica applies the entries of a log in order, each by a step that may refuse.
Its state is a function of how far it has come, so two replicas that have come
equally far are equal, however they got there.
-/

namespace Snagline.Kit.Replica

variable {σ α ε : Type} {step : σ → α → Except ε σ} {init : σ} {log : List α}

def replay (step : σ → α → Except ε σ) (s : σ) (entries : List α) : Except ε σ :=
  entries.foldlM step s

/-- The replica holds the first `k` entries of the log. -/
structure At (step : σ → α → Except ε σ) (init : σ) (log : List α) (k : ℕ) (s : σ) : Prop where
  bound : k ≤ log.length
  state : replay step init (log.take k) = .ok s

theorem at_zero : At step init log 0 init := ⟨Nat.zero_le _, rfl⟩

theorem replay_succ {k : ℕ} {a : α} (h : log[k]? = some a) :
    replay step init (log.take (k + 1)) = replay step init (log.take k) >>= fun s => step s a := by
  unfold replay
  rw [List.take_add_one, h, Option.toList_some, List.foldlM_append]
  congr
  funext s
  simp

theorem At.next {k : ℕ} {s s' : σ} {a : α} (h : At step init log k s) (ha : log[k]? = some a)
    (hs : step s a = .ok s') : At step init log (k + 1) s' := by
  refine ⟨(List.getElem?_eq_some_iff.mp ha).1, ?_⟩
  rw [replay_succ ha, h.state]
  exact hs

theorem At.unique {k : ℕ} {s s' : σ} (h : At step init log k s) (h' : At step init log k s') :
    s = s' :=
  Except.ok.inj (h.state.symm.trans h'.state)

theorem At.invariant (Q : ℕ → σ → Prop) (h0 : Q 0 init)
    (hstep : ∀ k s s' a, log[k]? = some a → Q k s → step s a = .ok s' → Q (k + 1) s') {k : ℕ} {s : σ}
    (h : At step init log k s) : Q k s := by
  induction k generalizing s with
  | zero =>
    have hs := at_zero.unique h
    exact hs ▸ h0
  | succ k ih =>
    have hk : k < log.length := h.bound
    have ha : log[k]? = some log[k] := List.getElem?_eq_getElem hk
    have hstate := h.state
    rw [replay_succ ha] at hstate
    obtain ⟨s₀, hs₀, hlast⟩ := bind_eq_ok.mp hstate
    exact hstep k s₀ s log[k] ha (ih ⟨Nat.le_of_lt hk, hs₀⟩) hlast

end Snagline.Kit.Replica
