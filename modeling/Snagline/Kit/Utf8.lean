import Snagline.Kit.Bytes

/-!
# Well-formed UTF-8

A text is a sequence of runes. What the width function says about the head of a
byte string depends on the bytes of that rune alone, so a text may be cut at any
byte that continues no rune.
-/

namespace Snagline.Kit

section
variable {bs : Bytes} {w : ℕ} {a b : UInt8}

def IsRune (r : Bytes) : Prop := runeWidth r = some r.length

inductive Utf8 : Bytes → Prop where
  | nil : Utf8 []
  | rune {r rest : Bytes} (first : IsRune r) (more : Utf8 rest) : Utf8 (r ++ rest)

theorem secondOfThree_tail (h : secondOfThree a b = true) : isTail b = true := by
  unfold secondOfThree at h
  unfold isTail at h ⊢
  simp only [Bool.and_eq_true, decide_eq_true_eq, UInt8.le_iff_toNat_le] at h ⊢
  split at h
  · simp only [Bool.and_eq_true, decide_eq_true_eq, UInt8.reduceToNat] at h ⊢
    omega
  · split at h
    · simp only [Bool.and_eq_true, decide_eq_true_eq, UInt8.reduceToNat] at h ⊢
      omega
    · simpa using h

theorem secondOfFour_tail (h : secondOfFour a b = true) : isTail b = true := by
  unfold secondOfFour at h
  unfold isTail at h ⊢
  simp only [Bool.and_eq_true, decide_eq_true_eq, UInt8.le_iff_toNat_le] at h ⊢
  split at h
  · simp only [Bool.and_eq_true, decide_eq_true_eq, UInt8.reduceToNat] at h ⊢
    omega
  · split at h
    · simp only [Bool.and_eq_true, decide_eq_true_eq, UInt8.reduceToNat] at h ⊢
      omega
    · simpa using h

inductive RuneHead : Bytes → ℕ → Prop where
  | one {a : UInt8} {rest : Bytes} (ha : a < 0x80) : RuneHead (a :: rest) 1
  | two {a b : UInt8} {rest : Bytes} (ha : ¬ a < 0x80) (hlow : ¬ a < 0xC2) (hhigh : a < 0xE0)
      (hb : isTail b = true) : RuneHead (a :: b :: rest) 2
  | three {a b c : UInt8} {rest : Bytes} (ha : ¬ a < 0x80) (hlow : ¬ a < 0xC2) (hmid : ¬ a < 0xE0)
      (hhigh : a < 0xF0) (hb : secondOfThree a b = true) (hc : isTail c = true) :
      RuneHead (a :: b :: c :: rest) 3
  | four {a b c d : UInt8} {rest : Bytes} (ha : ¬ a < 0x80) (hlow : ¬ a < 0xC2) (hmid : ¬ a < 0xE0)
      (hhigh : ¬ a < 0xF0) (htop : a < 0xF5) (hb : secondOfFour a b = true) (hc : isTail c = true)
      (hd : isTail d = true) : RuneHead (a :: b :: c :: d :: rest) 4

theorem runeWidth_eq_some {bs : Bytes} {w : ℕ} : runeWidth bs = some w ↔ RuneHead bs w := by
  constructor
  · intro h
    unfold runeWidth at h
    split at h
    · cases h
    · split at h
      · cases h
        exact .one ‹_›
      · split at h
        · cases h
        · split at h
          · split at h
            · split at h
              · cases h
                exact .two ‹_› ‹_› ‹_› ‹_›
              · cases h
            · cases h
          · split at h
            · split at h
              · split at h
                · rename_i htail
                  cases h
                  rw [Bool.and_eq_true] at htail
                  exact .three ‹_› ‹_› ‹_› ‹_› htail.1 htail.2
                · cases h
              · cases h
            · split at h
              · split at h
                · split at h
                  · rename_i htail
                    cases h
                    rw [Bool.and_eq_true, Bool.and_eq_true] at htail
                    exact .four ‹_› ‹_› ‹_› ‹_› ‹_› htail.1.1 htail.1.2 htail.2
                  · cases h
                · cases h
              · cases h
  · intro h
    cases h with
    | one ha => simp [runeWidth, ha]
    | two ha hlow hhigh hb => simp [runeWidth, ha, hlow, hhigh, hb]
    | three ha hlow hmid hhigh hb hc => simp [runeWidth, ha, hlow, hmid, hhigh, hb, hc]
    | four ha hlow hmid hhigh htop hb hc hd =>
      simp [runeWidth, ha, hlow, hmid, hhigh, htop, hb, hc, hd]

theorem RuneHead.positive (h : RuneHead bs w) : 0 < w := by
  cases h with
  | one | two | three | four => omega

theorem RuneHead.take (h : RuneHead bs w) :
    w ≤ bs.length ∧ IsRune (bs.take w) := by
  unfold IsRune
  rw [runeWidth_eq_some]
  cases h with
  | one ha => exact ⟨by simp, .one ha⟩
  | two ha hlow hhigh hb => exact ⟨by simp, .two ha hlow hhigh hb⟩
  | three ha hlow hmid hhigh hb hc => exact ⟨by simp, .three ha hlow hmid hhigh hb hc⟩
  | four ha hlow hmid hhigh htop hb hc hd =>
    exact ⟨by simp, .four ha hlow hmid hhigh htop hb hc hd⟩

theorem RuneHead.append (h : RuneHead bs w) (more : Bytes) :
    RuneHead (bs ++ more) w := by
  cases h with
  | one ha => exact .one ha
  | two ha hlow hhigh hb => exact .two ha hlow hhigh hb
  | three ha hlow hmid hhigh hb hc => exact .three ha hlow hmid hhigh hb hc
  | four ha hlow hmid hhigh htop hb hc hd => exact .four ha hlow hmid hhigh htop hb hc hd

theorem IsRune.append {r : Bytes} (h : IsRune r) (more : Bytes) :
    runeWidth (r ++ more) = some r.length :=
  runeWidth_eq_some.mpr ((runeWidth_eq_some.mp h).append more)

theorem RuneHead.tails (h : RuneHead bs w) {i : ℕ} (hi : 0 < i) (hw : i < w)
    {b : UInt8} (hb : bs[i]? = some b) : isTail b = true := by
  cases h with
  | one => omega
  | two _ _ _ hsecond =>
    obtain rfl : i = 1 := by omega
    cases hb
    exact hsecond
  | three _ _ _ _ hsecond hthird =>
    have hcases : i = 1 ∨ i = 2 := by omega
    rcases hcases with rfl | rfl
    · cases hb
      exact secondOfThree_tail hsecond
    · cases hb
      exact hthird
  | four _ _ _ _ _ hsecond hthird hfourth =>
    have hcases : i = 1 ∨ i = 2 ∨ i = 3 := by omega
    rcases hcases with rfl | rfl | rfl
    · cases hb
      exact secondOfFour_tail hsecond
    · cases hb
      exact hthird
    · cases hb
      exact hfourth

theorem Utf8.head {s : Bytes} (h : Utf8 s) (hne : s ≠ []) :
    ∃ w, runeWidth s = some w ∧ Utf8 (s.drop w) := by
  cases h with
  | nil => exact absurd rfl hne
  | @rune r rest first more =>
    refine ⟨r.length, first.append rest, ?_⟩
    rw [List.drop_left]
    exact more

theorem utf8ValidAux_eq (n : ℕ) (bs : Bytes) (hn : bs.length ≤ n) :
    utf8ValidAux n bs = true ↔ Utf8 bs := by
  induction n generalizing bs with
  | zero =>
    have hnil : bs = [] := List.length_eq_zero_iff.mp (by omega)
    subst hnil
    exact ⟨fun _ => .nil, fun _ => rfl⟩
  | succ n ih =>
    cases bs with
    | nil => exact ⟨fun _ => .nil, fun _ => rfl⟩
    | cons b bs =>
      unfold utf8ValidAux
      cases hwidth : runeWidth (b :: bs) with
      | none =>
        constructor
        · intro h
          cases h
        · intro h
          obtain ⟨w, hw, -⟩ := h.head (List.cons_ne_nil b bs)
          rw [hwidth] at hw
          cases hw
      | some w =>
        have hhead := runeWidth_eq_some.mp hwidth
        have hpositive := hhead.positive
        have hrest : ((b :: bs).drop w).length ≤ n := by
          rw [List.length_drop]
          simp only [List.length_cons] at hn ⊢
          omega
        show utf8ValidAux n ((b :: bs).drop w) = true ↔ _
        rw [ih _ hrest]
        constructor
        · intro h
          rw [← List.take_append_drop w (b :: bs)]
          exact .rune hhead.take.2 h
        · intro h
          obtain ⟨w', hw', hmore⟩ := h.head (List.cons_ne_nil b bs)
          rw [hwidth] at hw'
          cases hw'
          exact hmore

theorem utf8Valid_iff (bs : Bytes) : utf8Valid bs = true ↔ Utf8 bs :=
  utf8ValidAux_eq bs.length bs (le_refl _)

theorem Utf8.append {a b : Bytes} (ha : Utf8 a) (hb : Utf8 b) : Utf8 (a ++ b) := by
  induction ha with
  | nil => exact hb
  | rune first more ih =>
    rw [List.append_assoc]
    exact .rune first ih

theorem utf8_ascii (h : ∀ b ∈ bs, b < 0x80) : Utf8 bs := by
  induction bs with
  | nil => exact .nil
  | cons b bs ih =>
    have hb : IsRune [b] := runeWidth_eq_some.mpr (.one (h b List.mem_cons_self))
    exact .rune hb (ih fun x hx => h x (List.mem_cons_of_mem _ hx))

end

end Snagline.Kit
