import Mathlib.Data.List.Basic
import Mathlib.Tactic

/-!
# Reading a growing list behind a cursor

Items are numbered, and the visible ones are always in the order of their
numbers, new ones at the end. A reader asks, page by page, for what comes after
the largest number it has seen.
-/

namespace Snagline.Kit.Cursor

variable {F : Type} (number : F → ℤ)

structure Reader (F : Type) where
  cursor : ℤ
  returned : List F

def Reader.initial : Reader F := ⟨0, []⟩

/-- At most `limit` items with a number larger than `after`. -/
def page (after : ℤ) (limit : ℕ) (visible : List F) : List F :=
  (visible.filter fun f => after < number f).take limit

def Reader.take (r : Reader F) (items : List F) : Reader F :=
  ⟨(items.getLast?.map number).getD r.cursor, r.returned ++ items⟩

structure Numbered (visible : List F) : Prop where
  positive : ∀ f ∈ visible, 0 < number f
  order : visible.Pairwise fun f g => number f < number g

/-- The reader has seen a beginning of what is visible, and its cursor stands
between that and the rest. -/
structure Follows (visible : List F) (r : Reader F) : Prop where
  seen : r.returned <+: visible
  behind : ∀ f ∈ r.returned, number f ≤ r.cursor
  ahead : ∀ f ∈ visible, f ∉ r.returned → r.cursor < number f
  stands : r.cursor = 0 ∨ ∃ f ∈ r.returned, number f = r.cursor

variable {number}

theorem mergeSort_sorted (number : F → ℤ) (l : List F) :
    (l.mergeSort fun f g => decide (number f ≤ number g)).Pairwise
      fun f g => number f ≤ number g := by
  have htrans : ∀ f g h, decide (number f ≤ number g) = true →
      decide (number g ≤ number h) = true → decide (number f ≤ number h) = true := by
    simp only [decide_eq_true_eq]
    intro f g h
    exact le_trans
  have htotal : ∀ f g, (decide (number f ≤ number g) || decide (number g ≤ number f)) = true := by
    simp only [Bool.or_eq_true, decide_eq_true_eq]
    intro f g
    exact le_total _ _
  refine (List.pairwise_mergeSort htrans htotal l).imp ?_
  intro f g h
  exact of_decide_eq_true h

theorem mergeSort_eq {l items : List F} (hperm : l.Perm items)
    (horder : items.Pairwise fun f g => number f < number g) :
    l.mergeSort (fun f g => decide (number f ≤ number g)) = items := by
  have hsame := (List.mergeSort_perm l fun f g => decide (number f ≤ number g)).trans hperm
  have hnodup : (items.map number).Nodup := by
    rw [List.Nodup, List.pairwise_map]
    exact horder.imp ne_of_lt
  refine hsame.eq_of_pairwise ?_ (mergeSort_sorted number l) (horder.imp le_of_lt)
  intro f g hf hg hfg hgf
  exact List.inj_on_of_nodup_map hnodup (hsame.subset hf) hg (le_antisymm hfg hgf)

theorem earlier {items front : List F} {x y : F} {i : ℕ}
    (hsorted : items.Pairwise fun f g => number f ≤ number g) (hx : x ∈ items)
    (hfront : front <+: items) (hy : front[i]? = some y) (hlt : number x < number y) :
    ∃ j, j < i ∧ front[j]? = some x := by
  obtain ⟨j, hj, hat⟩ := List.mem_iff_getElem.mp hx
  obtain ⟨hi, hyat⟩ := List.getElem?_eq_some_iff.mp hy
  have hlength := hfront.length_le
  have hyitem : items[i] = y := (List.IsPrefix.getElem hfront hi).symm.trans hyat
  have hbefore : j < i := by
    by_contra hnot
    rcases Nat.lt_or_eq_of_le (Nat.le_of_not_lt hnot) with hij | rfl
    · have hle := List.pairwise_iff_getElem.mp hsorted i j (by omega) hj hij
      rw [hyitem, hat] at hle
      omega
    · rw [hat] at hyitem
      rw [hyitem] at hlt
      omega
  refine ⟨j, hbefore, ?_⟩
  have hjfront : j < front.length := by omega
  rw [List.getElem?_eq_getElem hjfront, List.IsPrefix.getElem hfront hjfront, hat]

theorem follows_initial {visible : List F} (h : Numbered number visible) :
    Follows number visible Reader.initial where
  seen := List.nil_prefix
  behind := by simp [Reader.initial]
  ahead := fun f hf _ => h.positive f hf
  stands := Or.inl rfl

theorem Follows.grow {visible visible' : List F} {r : Reader F} (h : Follows number visible r)
    (hgrows : visible <+: visible') (hnumbered : Numbered number visible') :
    Follows number visible' r := by
  obtain ⟨new, rfl⟩ := hgrows
  refine ⟨h.seen.trans (List.prefix_append _ _), h.behind, ?_, h.stands⟩
  intro f hf hunseen
  rcases List.mem_append.mp hf with hold | hnew
  · exact h.ahead f hold hunseen
  · rcases h.stands with hzero | ⟨g, hg, hcursor⟩
    · rw [hzero]
      exact hnumbered.positive f hf
    · rw [← hcursor]
      exact (List.pairwise_append.mp hnumbered.order).2.2 g (h.seen.subset hg) f hnew

theorem Follows.page_eq {visible rest : List F} {r : Reader F} (h : Follows number visible r)
    (hnumbered : Numbered number visible) (hrest : r.returned ++ rest = visible) (limit : ℕ) :
    page number r.cursor limit visible = rest.take limit := by
  have hfilter : visible.filter (fun f => r.cursor < number f) = rest := by
    rw [← hrest, List.filter_append]
    have hseen : r.returned.filter (fun f => decide (r.cursor < number f)) = [] := by
      rw [List.filter_eq_nil_iff]
      intro f hf
      have := h.behind f hf
      simpa using this
    have hrest' : rest.filter (fun f => decide (r.cursor < number f)) = rest := by
      rw [List.filter_eq_self]
      intro f hf
      have hmem : f ∈ visible := hrest ▸ List.mem_append_right _ hf
      have hunseen : f ∉ r.returned := by
        intro hseen
        have horder := hnumbered.order
        rw [← hrest] at horder
        exact lt_irrefl _ ((List.pairwise_append.mp horder).2.2 f hseen f hf)
      simpa using h.ahead f hmem hunseen
    rw [hseen, hrest', List.nil_append]
  unfold page
  rw [hfilter]

/- Taking the next items of the rest, the cursor moves to the last of them. -/
theorem Follows.advance {visible items rest : List F} {r : Reader F} (h : Follows number visible r)
    (hnumbered : Numbered number visible) (hrest : r.returned ++ (items ++ rest) = visible) :
    Follows number visible (r.take number items) := by
  rcases List.eq_nil_or_concat items with rfl | ⟨front, last, rfl⟩
  · have hsame : r.take number [] = r := by simp [Reader.take]
    rw [hsame]
    exact h
  · have horder := hnumbered.order
    rw [← hrest, ← List.append_assoc, List.concat_eq_append] at horder
    obtain ⟨hseen, -, hcross⟩ := List.pairwise_append.mp horder
    rw [← List.append_assoc] at hseen
    have hlast := (List.pairwise_append.mp hseen).2.2
    have hcursor : (r.take number (front.concat last)).cursor = number last := by
      simp [Reader.take]
    have hreturned : (r.take number (front.concat last)).returned = r.returned ++ front ++ [last] := by
      simp [Reader.take]
    refine ⟨?_, ?_, ?_, ?_⟩
    · rw [hreturned, ← hrest]
      exact ⟨rest, by simp⟩
    · rw [hcursor, hreturned]
      intro f hf
      rcases List.mem_append.mp hf with hf | hf
      · exact le_of_lt (hlast f hf last (List.mem_singleton_self _))
      · rw [List.mem_singleton.mp hf]
    · rw [hcursor, hreturned, ← hrest]
      intro f hf hunseen
      have hmem : f ∈ rest := by
        have hf' : f ∈ (r.returned ++ front ++ [last]) ++ rest := by simpa using hf
        exact (List.mem_append.mp hf').resolve_left hunseen
      exact hcross last (by simp) f hmem
    · rw [hcursor, hreturned]
      exact Or.inr ⟨last, by simp, rfl⟩

theorem Follows.read {visible : List F} {r : Reader F} (h : Follows number visible r)
    (hnumbered : Numbered number visible) (limit : ℕ) :
    Follows number visible (r.take number (page number r.cursor limit visible)) ∧
      (r.take number (page number r.cursor limit visible)).returned.length =
        min visible.length (r.returned.length + limit) := by
  obtain ⟨rest, hrest⟩ := h.seen
  rw [h.page_eq hnumbered hrest limit]
  constructor
  · apply h.advance hnumbered
    rw [List.take_append_drop]
    exact hrest
  · rw [← hrest]
    simp only [Reader.take, List.length_append, List.length_take]
    omega

end Snagline.Kit.Cursor
