import Mathlib.Data.List.Nodup
import Mathlib.Tactic.Basic

/-!
# Keyed tables

A table is the list of its rows in insertion order. A key is a function of the
row; `Keyed` says that it is unique.
-/

namespace Snagline.Kit.Table

variable {ρ κ : Type} [DecidableEq κ]

section
variable (key : ρ → κ) {rows : List ρ} {f : ρ → ρ} {r : ρ} {k : κ}

/-- The row with key `k`. -/
def find (key : ρ → κ) (k : κ) (rows : List ρ) : Option ρ := rows.find? fun r => key r == k

/-- Some row already has the key of `r`. -/
def clash (key : ρ → κ) (r : ρ) (rows : List ρ) : Bool := rows.any fun x => key x == key r

/-- Rewrites the rows with key `k`. -/
def update (key : ρ → κ) (k : κ) (f : ρ → ρ) (rows : List ρ) : List ρ :=
  rows.map fun r => if key r == k then f r else r

/-- `INSERT ... ON CONFLICT (key) DO UPDATE`. -/
def upsert (key : ρ → κ) (r : ρ) (f : ρ → ρ) (rows : List ρ) : List ρ :=
  if clash key r rows then update key (key r) f rows else rows ++ [r]

def Keyed (key : ρ → κ) (rows : List ρ) : Prop := (rows.map key).Nodup

omit [DecidableEq κ] in
theorem keyed_nil : Keyed key [] := List.nodup_nil

variable {key} in
theorem find_eq_some (h : find key k rows = some r) :
    r ∈ rows ∧ key r = k := by
  refine ⟨List.mem_of_find?_eq_some h, ?_⟩
  have hk := List.find?_some h
  exact beq_iff_eq.mp hk

variable {key} in
theorem find_eq_none :
    find key k rows = none ↔ ∀ r ∈ rows, key r ≠ k := by
  simp [find]

variable {key} in
theorem clash_eq_false :
    clash key r rows = false ↔ ∀ x ∈ rows, key x ≠ key r := by
  simp [clash]

omit [DecidableEq κ] in
theorem Keyed.eq_of_key {key : ρ → κ} (h : Keyed key rows) {a b : ρ}
    (ha : a ∈ rows) (hb : b ∈ rows) (hk : key a = key b) : a = b :=
  List.inj_on_of_nodup_map h ha hb hk

theorem Keyed.find_mem {key : ρ → κ} (h : Keyed key rows)
    (hr : r ∈ rows) : find key (key r) rows = some r := by
  cases hf : find key (key r) rows with
  | none => exact absurd rfl (find_eq_none.mp hf r hr)
  | some =>
    obtain ⟨hx, hk⟩ := find_eq_some hf
    rw [h.eq_of_key hx hr hk]

theorem Keyed.append {key : ρ → κ} (h : Keyed key rows)
    (hr : clash key r rows = false) : Keyed key (rows ++ [r]) := by
  have hfresh := clash_eq_false.mp hr
  unfold Keyed
  rw [List.map_append, List.nodup_append]
  refine ⟨h, by simp, ?_⟩
  intro a ha b hb
  obtain ⟨x, hx, rfl⟩ := List.mem_map.mp ha
  simp only [List.map_cons, List.map_nil, List.mem_singleton] at hb
  subst hb
  exact hfresh x hx

omit [DecidableEq κ] in
theorem Keyed.map {key : ρ → κ} (h : Keyed key rows)
    (hf : ∀ r, key (f r) = key r) : Keyed key (rows.map f) := by
  have hkeys : (rows.map f).map key = rows.map key := by
    rw [List.map_map]
    exact List.map_congr_left fun r _ => hf r
  unfold Keyed
  rw [hkeys]
  exact h

theorem Keyed.update {key : ρ → κ} (h : Keyed key rows) (k : κ)
    (hf : ∀ r, key (f r) = key r) : Keyed key (Table.update key k f rows) := by
  refine h.map ?_
  intro r
  split
  · exact hf r
  · rfl

theorem Keyed.upsert {key : ρ → κ} (h : Keyed key rows) (r : ρ)
    (hf : ∀ r, key (f r) = key r) : Keyed key (Table.upsert key r f rows) := by
  unfold Table.upsert
  split
  · exact h.update (key r) hf
  · rename_i hfresh
    exact h.append (Bool.eq_false_iff.mpr hfresh)

omit [DecidableEq κ] in
theorem Keyed.filter_length {key : ρ → κ} (h : Keyed key rows)
    (hr : r ∈ rows) (hit : ρ → Bool) (hself : hit r = true)
    (hkey : ∀ x, hit x = true → key x = key r) : (rows.filter hit).length = 1 := by
  induction rows with
  | nil => cases hr
  | cons x rest ih =>
    have hnodup := List.nodup_cons.mp h
    rcases List.mem_cons.mp hr with rfl | hrest
    · have hnone : rest.filter hit = [] := by
        rw [List.filter_eq_nil_iff]
        intro y hy hhit
        exact hnodup.1 (hkey y hhit ▸ List.mem_map_of_mem hy)
      rw [List.filter_cons_of_pos hself, hnone]
      rfl
    · have hmiss : ¬ hit x = true := fun hhit =>
        hnodup.1 (hkey x hhit ▸ List.mem_map_of_mem hrest)
      rw [List.filter_cons_of_neg hmiss]
      exact ih hnodup.2 hrest

theorem find_append (k : κ) (rows : List ρ) (r : ρ) :
    find key k (rows ++ [r]) = (find key k rows).or (if key r = k then some r else none) := by
  unfold find
  rw [List.find?_append]
  by_cases h : key r = k
  · simp [h]
  · simp [h]

theorem find_map (k : κ) (f : ρ → ρ) (hf : ∀ r, key (f r) = key r) (rows : List ρ) :
    find key k (rows.map f) = (find key k rows).map f := by
  unfold find
  rw [List.find?_map]
  have hcomp : ((fun r => key r == k) ∘ f) = fun r => key r == k := by
    funext r
    simp [hf]
  rw [hcomp]

theorem find_update (k k' : κ) (f : ρ → ρ) (hf : ∀ r, key (f r) = key r)
    (rows : List ρ) :
    find key k' (update key k f rows) =
      if k' = k then (find key k' rows).map f else find key k' rows := by
  have hkeep : ∀ r, key (if key r == k then f r else r) = key r := by
    intro r
    split
    · exact hf r
    · rfl
  unfold update
  rw [find_map key k' _ hkeep]
  cases hfind : find key k' rows with
  | none => simp
  | some r =>
    have hk := (find_eq_some hfind).2
    by_cases h : k' = k
    · simp [h, hk.trans h]
    · have hne : ¬ key r = k := fun e => h (hk.symm.trans e)
      simp [h, hne]

theorem find_upsert (r : ρ) (f : ρ → ρ) (hf : ∀ r, key (f r) = key r)
    (rows : List ρ) :
    find key (key r) (upsert key r f rows) = some (((find key (key r) rows).map f).getD r) := by
  unfold upsert
  cases hfind : find key (key r) rows with
  | none =>
    have hfresh : clash key r rows = false :=
      clash_eq_false.mpr (find_eq_none.mp hfind)
    simp [hfresh, find_append, hfind]
  | some x =>
    obtain ⟨hx, hk⟩ := find_eq_some hfind
    have hclash : clash key r rows = true := by
      refine List.any_eq_true.mpr ⟨x, hx, ?_⟩
      exact beq_iff_eq.mpr hk
    simp [hclash, find_update key (key r) (key r) f hf, hfind]

theorem find_upsert_other (r : ρ) (f : ρ → ρ) (hf : ∀ r, key (f r) = key r)
    (rows : List ρ) (hk : k ≠ key r) :
    find key k (upsert key r f rows) = find key k rows := by
  unfold upsert
  split
  · rw [find_update key (key r) k f hf, if_neg hk]
  · rw [find_append, if_neg (Ne.symm hk), Option.or_none]

theorem find_replace (r : ρ) (k : κ) (rows : List ρ) :
    find key k (upsert key r (fun _ => r) rows) = if k = key r then some r else find key k rows := by
  unfold upsert
  cases hclash : clash key r rows with
  | false =>
    have hfresh := clash_eq_false.mp hclash
    have hnone := find_eq_none.mpr hfresh
    rw [if_neg Bool.false_ne_true, find_append]
    by_cases h : k = key r
    · simp [h, hnone]
    · have hne : ¬ key r = k := fun e => h e.symm
      simp [h, hne]
  | true =>
    have hkeep : ∀ x, key (if key x == key r then r else x) = key x := by
      intro x
      split
      · rename_i hx
        exact (beq_iff_eq.mp hx).symm
      · rfl
    unfold update
    rw [if_pos rfl, find_map key k _ hkeep]
    cases hfind : find key k rows with
    | none =>
      have hne : ¬ k = key r := by
        intro h
        obtain ⟨x, hx, hk⟩ := List.any_eq_true.mp hclash
        exact find_eq_none.mp hfind x hx ((beq_iff_eq.mp hk).trans h.symm)
      simp [hne]
    | some x =>
      have hx := (find_eq_some hfind).2
      by_cases h : k = key r
      · simp [h, hx.trans h]
      · have hne : ¬ key x = key r := fun e => h (hx.symm.trans e)
        simp [h, hne]

theorem mem_update {key : ρ → κ}
    (h : r ∈ update key k f rows) : ∃ x ∈ rows, (key x ≠ k ∧ r = x) ∨ (key x = k ∧ r = f x) := by
  obtain ⟨x, hx, rfl⟩ := List.mem_map.mp h
  refine ⟨x, hx, ?_⟩
  by_cases hk : key x = k
  · exact Or.inr ⟨hk, by simp [hk]⟩
  · exact Or.inl ⟨hk, by simp [hk]⟩

theorem Keyed.replace {key : ρ → κ} (h : Keyed key rows) (r : ρ) :
    Keyed key (Table.upsert key r (fun _ => r) rows) := by
  unfold Table.upsert
  split
  · refine h.map ?_
    intro x
    split
    · rename_i hx
      exact (beq_iff_eq.mp hx).symm
    · rfl
  · rename_i hfresh
    exact h.append (Bool.eq_false_iff.mpr hfresh)

end

end Snagline.Kit.Table
