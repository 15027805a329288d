import Snagline.Kit.Json
import Snagline.Kit.Utf8

/-!
# The grammar the JSON reader accepts

Which byte strings spell which values, as an inductive relation, and that the
reader of `Kit.Json` is sound and complete for it. Later modules follow a text
through other routines by induction on how it is spelled.
-/

namespace Snagline.Kit.Json

/-! ### White space -/

def Space (ws : Bytes) : Prop := ∀ b ∈ ws, isSpace b = true

theorem space_nil : Space [] := fun _ h => nomatch h

theorem skipSpace_append {ws : Bytes} (h : Space ws) (bs : Bytes) :
    skipSpace (ws ++ bs) = skipSpace bs := by
  induction ws with
  | nil => rfl
  | cons b ws ih =>
    have hb : isSpace b = true := h b List.mem_cons_self
    have hrest := ih fun x hx => h x (List.mem_cons_of_mem _ hx)
    rw [List.cons_append, skipSpace, if_pos hb, hrest]

theorem skipSpace_cons {b : UInt8} (h : isSpace b = false) (bs : Bytes) :
    skipSpace (b :: bs) = b :: bs := by
  unfold skipSpace
  rw [h]
  rfl

theorem skipSpace_split (bs : Bytes) : ∃ ws, Space ws ∧ bs = ws ++ skipSpace bs := by
  induction bs with
  | nil => exact ⟨[], space_nil, rfl⟩
  | cons b bs ih =>
    unfold skipSpace
    split
    · rename_i hb
      obtain ⟨ws, hws, hbs⟩ := ih
      refine ⟨b :: ws, ?_, congrArg (b :: ·) hbs⟩
      intro x hx
      rcases List.mem_cons.mp hx with rfl | hx
      · exact hb
      · exact hws x hx
    · exact ⟨[], space_nil, rfl⟩

theorem skipSpace_eq_cons {bs : Bytes} {b : UInt8} {rest : Bytes} (h : skipSpace bs = b :: rest) :
    ∃ ws, Space ws ∧ bs = ws ++ b :: rest := by
  obtain ⟨ws, hws, hbs⟩ := skipSpace_split bs
  rw [h] at hbs
  exact ⟨ws, hws, hbs⟩

/-! ### Escapes -/

variable {bs rest : Bytes}

theorem hex4_split {u : ℕ} (h : hex4 bs = some (u, rest)) :
    ∃ ds, ds.length = 4 ∧ bs = ds ++ rest ∧ hex4 ds = some (u, []) := by
  unfold hex4 at h
  split at h
  · rename_i a b c d tail
    refine ⟨[a, b, c, d], rfl, ?_, ?_⟩
    · simp only [Option.bind_eq_bind, Option.bind_eq_some_iff] at h
      obtain ⟨_, -, _, -, _, -, _, -, h⟩ := h
      cases h
      rfl
    · unfold hex4
      simp only [Option.bind_eq_bind, Option.bind_eq_some_iff] at h ⊢
      obtain ⟨x, hx, y, hy, z, hz, w, hw, h⟩ := h
      cases h
      exact ⟨x, hx, y, hy, z, hz, w, hw, rfl⟩
  · cases h

theorem hex4_append {ds : Bytes} {u : ℕ} (h : hex4 ds = some (u, [])) (more : Bytes) :
    hex4 (ds ++ more) = some (u, more) := by
  obtain ⟨ds', hlength, hds, -⟩ := hex4_split h
  rw [List.append_nil] at hds
  subst hds
  match ds, hlength with
  | [a, b, c, d], _ =>
    unfold hex4 at h
    show hex4 (a :: b :: c :: d :: more) = _
    unfold hex4
    simp only [Option.bind_eq_bind, Option.bind_eq_some_iff] at h ⊢
    obtain ⟨x, hx, y, hy, z, hz, w, hw, h⟩ := h
    cases h
    exact ⟨x, hx, y, hy, z, hz, w, hw, rfl⟩

/-- The scalar of a `\u` escape that is half of no pair. -/
def loneRune (u : ℕ) : Bytes :=
  if isHighSurrogate u || isLowSurrogate u then replacementRune else encodeRune u

def pairRune (high low : ℕ) : Bytes :=
  encodeRune (0x10000 + (high - 0xD800) * 0x400 + (low - 0xDC00))

def isPlain (b : UInt8) : Bool := b != 34 && b != 92 && !(b < 32)

/-! ### Strings -/

/-- The text of a string after its opening quote, up to and with the closing one,
and what it decodes to. -/
inductive StringText : Bytes → Bytes → Prop where
  | close : StringText [34] []
  | short {e c : UInt8} {s v : Bytes} (escape : shortEscape e = some c) (more : StringText s v) :
      StringText (92 :: e :: s) (c :: v)
  | lone {ds : Bytes} {u : ℕ} {s v : Bytes} (digits : hex4 ds = some (u, []))
      (alone : isHighSurrogate u = true → lowEscape s = none) (more : StringText s v) :
      StringText (92 :: 117 :: (ds ++ s)) (loneRune u ++ v)
  | pair {ds ds' : Bytes} {high low : ℕ} {s v : Bytes} (first : hex4 ds = some (high, []))
      (isHigh : isHighSurrogate high = true) (second : hex4 ds' = some (low, []))
      (isLow : isLowSurrogate low = true) (more : StringText s v) :
      StringText (92 :: 117 :: (ds ++ 92 :: 117 :: (ds' ++ s))) (pairRune high low ++ v)
  | rune {b : UInt8} {r s v : Bytes} (plain : isPlain b = true) (first : IsRune (b :: r))
      (more : StringText s v) : StringText (b :: (r ++ s)) (b :: (r ++ v))
  | broken {b : UInt8} {s v : Bytes} (plain : isPlain b = true) (bad : runeWidth (b :: s) = none)
      (more : StringText s v) : StringText (b :: s) (replacementRune ++ v)

theorem StringText.quote_mem {s v : Bytes} (h : StringText s v) : 34 ∈ s := by
  induction h with
  | close => simp
  | short _ _ ih | lone _ _ _ ih | pair _ _ _ _ _ ih | rune _ _ _ ih | broken _ _ _ ih => simp [ih]

theorem runeWidth_quote {s : Bytes} (h : 34 ∈ s) {b : UInt8} {x : Bytes} (y : Bytes) :
    runeWidth (b :: (s ++ x)) = none → runeWidth (b :: (s ++ y)) = none := by
  intro hnone
  have hquote : isTail 34 = false := by decide
  by_contra hsome
  obtain ⟨w, hw⟩ := Option.ne_none_iff_exists'.mp hsome
  have hhead := runeWidth_eq_some.mp hw
  obtain ⟨i, hi⟩ := List.mem_iff_getElem?.mp h
  have his : i < s.length := (List.getElem?_eq_some_iff.mp hi).1
  -- the rune ends before the quote, so it is there whatever follows
  have hshort : w ≤ i + 1 := by
    by_contra hlong
    have hget : (b :: (s ++ y))[i + 1]? = some 34 := by
      rw [List.getElem?_cons_succ, List.getElem?_append_left his]
      exact hi
    have htail := hhead.tails (by omega) (by omega) hget
    rw [hquote] at htail
    cases htail
  have htake : (b :: (s ++ y)).take w = (b :: (s ++ x)).take w := by
    cases w with
    | zero => rfl
    | succ =>
      simp only [List.take_succ_cons]
      rw [List.take_append_of_le_length (by omega), List.take_append_of_le_length (by omega)]
  have hrune := hhead.take.2
  rw [htake] at hrune
  have hwidth := hrune.append ((b :: (s ++ x)).drop w)
  rw [List.take_append_drop, hnone] at hwidth
  cases hwidth

theorem lowEscape_cons {b : UInt8} (h : b ≠ 92) (bs : Bytes) : lowEscape (b :: bs) = none := by
  cases bs with
  | nil => rfl
  | cons => simp [lowEscape, h]

theorem isPlain_ne {b : UInt8} (h : isPlain b = true) : b ≠ 34 ∧ b ≠ 92 ∧ ¬ b < 32 := by
  simpa [isPlain, and_assoc] using h

theorem lowEscape_append {s v : Bytes} (h : StringText s v) {x : Bytes} (y : Bytes) :
    lowEscape (s ++ x) = none → lowEscape (s ++ y) = none := by
  cases h with
  | close => exact fun _ => lowEscape_cons (by decide) y
  | @short e c s v escape =>
    intro _
    have hne : (e == 117) = false := by
      rw [beq_eq_false_iff_ne]
      rintro rfl
      cases escape
    show lowEscape (92 :: e :: (s ++ y)) = none
    simp [lowEscape, hne]
  | @lone ds u s v digits =>
    simp only [List.cons_append, List.append_assoc, lowEscape, beq_self_eq_true, Bool.and_self,
      if_true, hex4_append digits]
    intro hnone
    split at hnone
    · cases hnone
    · rename_i hlow
      rw [if_neg hlow]
  | @pair ds ds' high low s v first =>
    simp only [List.cons_append, List.append_assoc, lowEscape, beq_self_eq_true, Bool.and_self,
      if_true, hex4_append first]
    intro hnone
    split at hnone
    · cases hnone
    · rename_i hlow
      rw [if_neg hlow]
  | rune plain | broken plain => exact fun _ => lowEscape_cons (isPlain_ne plain).2.1 _

theorem StringText.complete {s v : Bytes} (h : StringText s v) (n : ℕ) (hn : s.length ≤ n)
    (more : Bytes) : stringBody n (s ++ more) = some (v, more) := by
  induction h generalizing n with
  | close =>
    match n, hn with
    | n + 1, _ => simp [stringBody]
  | @short e c s v escape _ ih =>
    match n, hn with
    | n + 1, hn =>
      have hrest := ih n (by simp only [List.length_cons] at hn; omega)
      have hne : (e == 117) = false := by
        rw [beq_eq_false_iff_ne]
        rintro rfl
        cases escape
      simp [stringBody, hne, escape, hrest]
  | @lone ds u s v digits alone rest ih =>
    match n, hn with
    | n + 1, hn =>
      have hrest := ih n (by
        simp only [List.length_cons, List.length_append] at hn
        omega)
      have hrune : escapedRune u (s ++ more) = (loneRune u, s ++ more) := by
        unfold escapedRune loneRune
        cases hhigh : isHighSurrogate u with
        | true =>
          have hnone : lowEscape (s ++ []) = none := by
            rw [List.append_nil]
            exact alone hhigh
          simp [lowEscape_append rest more hnone]
        | false =>
          cases hlow : isLowSurrogate u with
          | true | false => simp
      simp [stringBody, hex4_append digits, hrune, hrest]
  | @pair ds ds' high low s v first isHigh second isLow _ ih =>
    match n, hn with
    | n + 1, hn =>
      have hrest := ih n (by
        simp only [List.length_cons, List.length_append] at hn
        omega)
      have hlow : lowEscape (92 :: 117 :: (ds' ++ (s ++ more))) = some (low, s ++ more) := by
        simp [lowEscape, hex4_append second, isLow]
      have hrune : escapedRune high (92 :: 117 :: (ds' ++ (s ++ more))) =
          (pairRune high low, s ++ more) := by
        unfold escapedRune
        simp [isHigh, hlow, pairRune]
      simp [stringBody, hex4_append first, hrune, hrest]
  | @rune b r s v plain first _ ih =>
    match n, hn with
    | n + 1, hn =>
      have hrest := ih n (by
        simp only [List.length_cons, List.length_append] at hn
        omega)
      obtain ⟨hquote, hslash, hcontrol⟩ := isPlain_ne plain
      have hwidth : runeWidth (b :: (r ++ (s ++ more))) = some (r.length + 1) :=
        first.append (s ++ more)
      rw [List.cons_append, List.append_assoc]
      unfold stringBody
      simp only [beq_iff_eq, hquote, hslash, hcontrol, if_false, hwidth]
      rw [List.drop_succ_cons, List.take_succ_cons, List.drop_left, List.take_left, hrest]
      simp
  | @broken b s v plain bad rest ih =>
    match n, hn with
    | n + 1, hn =>
      have hrest := ih n (by simp only [List.length_cons] at hn; omega)
      obtain ⟨hquote, hslash, hcontrol⟩ := isPlain_ne plain
      have hwidth : runeWidth (b :: (s ++ more)) = none := by
        have hbad : runeWidth (b :: (s ++ [])) = none := by
          rw [List.append_nil]
          exact bad
        exact runeWidth_quote rest.quote_mem more hbad
      rw [List.cons_append]
      unfold stringBody
      simp only [beq_iff_eq, hquote, hslash, hcontrol, if_false, hwidth, hrest]
      rfl

theorem lowEscape_split {low : ℕ} (h : lowEscape bs = some (low, rest)) :
    ∃ ds, bs = 92 :: 117 :: (ds ++ rest) ∧ hex4 ds = some (low, []) ∧ isLowSurrogate low = true := by
  unfold lowEscape at h
  split at h
  · split at h
    · rename_i hescape
      split at h
      · rename_i hdigits
        split at h
        · rename_i hlow
          cases h
          obtain ⟨ds, -, hbs, hds⟩ := hex4_split hdigits
          simp only [Bool.and_eq_true, beq_iff_eq] at hescape
          obtain ⟨rfl, rfl⟩ := hescape
          exact ⟨ds, by rw [hbs], hds, hlow⟩
        · cases h
      · cases h
    · cases h
  · cases h

theorem escapedRune_cases (u : ℕ) (after : Bytes) :
    (∃ ds low rest, isHighSurrogate u = true ∧ after = 92 :: 117 :: (ds ++ rest) ∧
      hex4 ds = some (low, []) ∧ isLowSurrogate low = true ∧
      escapedRune u after = (pairRune u low, rest)) ∨
    (isHighSurrogate u = true → lowEscape after = none) ∧
      escapedRune u after = (loneRune u, after) := by
  unfold escapedRune loneRune
  cases hhigh : isHighSurrogate u with
  | true =>
    cases hescape : lowEscape after with
    | none => exact .inr ⟨fun _ => rfl, by simp⟩
    | some r =>
      obtain ⟨low, rest⟩ := r
      obtain ⟨ds, hbs, hds, hlow⟩ := lowEscape_split hescape
      exact .inl ⟨ds, low, rest, rfl, hbs, hds, hlow, by simp [pairRune]⟩
  | false =>
    cases hlow : isLowSurrogate u with
    | true | false => exact .inr ⟨fun h => (nomatch h), by simp⟩

theorem stringBody_sound {n : ℕ} {bs v rest : Bytes} (h : stringBody n bs = some (v, rest)) :
    ∃ s, bs = s ++ rest ∧ StringText s v := by
  induction n generalizing bs v rest with
  | zero => cases h
  | succ n ih =>
    cases bs with
    | nil => cases h
    | cons b bs =>
      unfold stringBody at h
      split at h
      · rename_i hquote
        cases h
        rw [beq_iff_eq] at hquote
        exact ⟨[34], by rw [hquote]; rfl, .close⟩
      · rename_i hquote
        split at h
        · rename_i hslash
          rw [beq_iff_eq] at hslash
          subst hslash
          cases bs with
          | nil => cases h
          | cons e bs =>
            dsimp only at h
            split at h
            · rename_i hu
              rw [beq_iff_eq] at hu
              subst hu
              split at h
              · cases h
              · rename_i u after hdigits
                obtain ⟨ds, -, hbs, hds⟩ := hex4_split hdigits
                obtain ⟨⟨v', rest'⟩, hbody, heq⟩ := Option.map_eq_some_iff.mp h
                cases heq
                rcases escapedRune_cases u after with
                  ⟨ds', low, tail, hhigh, hafter, hds', hlow, hrune⟩ | ⟨halone, hrune⟩
                · rw [hrune] at hbody ⊢
                  dsimp only at hbody ⊢
                  obtain ⟨s, hs, htext⟩ := ih hbody
                  refine ⟨92 :: 117 :: (ds ++ 92 :: 117 :: (ds' ++ s)), ?_,
                    .pair hds hhigh hds' hlow htext⟩
                  rw [hbs, hafter, hs]
                  simp
                · rw [hrune] at hbody ⊢
                  dsimp only at hbody ⊢
                  obtain ⟨s, hs, htext⟩ := ih hbody
                  refine ⟨92 :: 117 :: (ds ++ s), ?_, .lone hds ?_ htext⟩
                  · rw [hbs, hs]
                    simp
                  · intro hhigh
                    have hnone := halone hhigh
                    rw [hs] at hnone
                    have hself := lowEscape_append htext [] hnone
                    rwa [List.append_nil] at hself
            · split at h
              · cases h
              · rename_i c hc
                obtain ⟨⟨v', rest'⟩, hbody, heq⟩ := Option.map_eq_some_iff.mp h
                cases heq
                obtain ⟨s, hs, htext⟩ := ih hbody
                exact ⟨92 :: e :: s, by rw [hs]; rfl, .short hc htext⟩
        · rename_i hslash
          split at h
          · cases h
          · rename_i hcontrol
            have hplain : isPlain b = true := by
              simp only [beq_iff_eq] at hquote hslash
              simp [isPlain, hquote, hslash, hcontrol]
            split at h
            · rename_i hwidth
              obtain ⟨⟨v', rest'⟩, hbody, heq⟩ := Option.map_eq_some_iff.mp h
              cases heq
              obtain ⟨s, hs, htext⟩ := ih hbody
              subst hs
              refine ⟨b :: s, rfl, .broken hplain ?_ htext⟩
              have hbad := runeWidth_quote htext.quote_mem [] hwidth
              rwa [List.append_nil] at hbad
            · rename_i w hwidth
              obtain ⟨⟨v', rest'⟩, hbody, heq⟩ := Option.map_eq_some_iff.mp h
              cases heq
              obtain ⟨s, hs, htext⟩ := ih hbody
              have hhead := runeWidth_eq_some.mp hwidth
              have hrune := hhead.take.2
              have hpositive := hhead.positive
              obtain ⟨w, rfl⟩ : ∃ k, w = k + 1 := ⟨w - 1, by omega⟩
              rw [List.take_succ_cons] at hrune
              refine ⟨b :: (bs.take w ++ s), ?_, ?_⟩
              · rw [List.cons_append, List.append_assoc, ← hs, List.drop_succ_cons,
                  List.take_append_drop]
              · rw [List.take_succ_cons]
                exact .rune hplain hrune htext

theorem replacementRune_rune : IsRune replacementRune := by
  unfold IsRune
  decide

/-! ### Numbers -/

def isNumberByte (b : UInt8) : Bool := isDigit b || b == 46 || b == 101 || b == 69
def Ends (more : Bytes) : Prop := ∀ b, more.head? = some b → isNumberByte b = false

structure Digits (ds : Bytes) : Prop where
  nonempty : ds ≠ []
  all : ∀ b ∈ ds, isDigit b = true

def IntegerText (i : Bytes) : Prop := i = [48] ∨ Digits i ∧ i.head? ≠ some 48
def FractionText (f : Bytes) : Prop := f = [] ∨ ∃ ds, f = 46 :: ds ∧ Digits ds

def ExponentText (x : Bytes) : Prop :=
  x = [] ∨ ∃ e sign ds, x = e :: (sign ++ ds) ∧ (e = 101 ∨ e = 69) ∧
    (sign = [] ∨ sign = [43] ∨ sign = [45]) ∧ Digits ds

structure NumberText (l : Bytes) : Prop where
  parts : ∃ sign i f x, l = sign ++ (i ++ (f ++ x)) ∧ (sign = [] ∨ sign = [45]) ∧ IntegerText i ∧
    FractionText f ∧ ExponentText x

theorem someDigits_split {bs ds rest : Bytes} (h : someDigits bs = some (ds, rest)) :
    bs = ds ++ rest ∧ Digits ds := by
  unfold someDigits at h
  dsimp only at h
  split at h
  · cases h
  · rename_i hsome
    cases h
    refine ⟨?_, by simpa using hsome, ?_⟩
    · have hsplit := List.takeWhile_append_dropWhile (p := isDigit) (l := bs)
      have hdrop : bs.drop (bs.takeWhile isDigit).length = bs.dropWhile isDigit := by
        have hleft := congrArg (List.drop (bs.takeWhile isDigit).length) hsplit
        rw [List.drop_left] at hleft
        exact hleft.symm
      rw [hdrop]
      exact hsplit.symm
    · intro b hb
      exact List.all_eq_true.mp List.all_takeWhile b hb

theorem Digits.read {ds : Bytes} (h : Digits ds) {more : Bytes}
    (hmore : ∀ b, more.head? = some b → isDigit b = false) :
    someDigits (ds ++ more) = some (ds, more) := by
  have htake : (ds ++ more).takeWhile isDigit = ds := by
    rw [List.takeWhile_append_of_pos h.all]
    cases more with
    | nil => simp
    | cons b =>
      have hb := hmore b rfl
      rw [List.takeWhile_cons_of_neg (by simp [hb]), List.append_nil]
  unfold someDigits
  rw [htake]
  simp [h.nonempty]

theorem tail_not_digit {f x more : Bytes} (hf : FractionText f) (hx : ExponentText x)
    (hmore : Ends more) : ∀ b, (f ++ (x ++ more)).head? = some b → isDigit b = false := by
  intro b hb
  rcases hf with rfl | ⟨ds, rfl, -⟩
  · rcases hx with rfl | ⟨e, sign, ds, rfl, he, -, -⟩
    · have hend := hmore b hb
      simp only [isNumberByte, Bool.or_eq_false_iff] at hend
      exact hend.1.1.1
    · cases hb
      rcases he with rfl | rfl
      · decide
      · decide
  · cases hb
    decide

theorem afterInteger_read {i more : Bytes} (hi : IntegerText i)
    (hmore : ∀ b, more.head? = some b → isDigit b = false) :
    afterInteger (i ++ more) = some more := by
  unfold afterInteger
  rcases hi with rfl | ⟨hdigits, hzero⟩
  · simp
  · cases i with
    | nil => exact absurd rfl hdigits.nonempty
    | cons b =>
      have hb : (some b == some (48 : UInt8)) = false := by
        rw [beq_eq_false_iff_ne]
        exact hzero
      rw [List.cons_append, List.head?_cons, hb, ← List.cons_append, hdigits.read hmore]
      rfl

theorem afterFraction_read {f more : Bytes} (hf : FractionText f)
    (hmore : ∀ b, more.head? = some b → isDigit b = false ∧ b ≠ 46) :
    afterFraction (f ++ more) = some more := by
  unfold afterFraction
  rcases hf with rfl | ⟨ds, rfl, hds⟩
  · have hdot : (more.head? == some 46) = false := by
      rw [beq_eq_false_iff_ne]
      intro heq
      exact (hmore 46 heq).2 rfl
    rw [List.nil_append, hdot]
    rfl
  · rw [List.cons_append, List.head?_cons, beq_self_eq_true, if_pos rfl, List.drop_succ_cons,
      List.drop_zero, hds.read fun b hb => (hmore b hb).1]
    rfl

theorem afterExponent_read {x more : Bytes} (hx : ExponentText x) (hmore : Ends more) :
    afterExponent (x ++ more) = some more := by
  have hdigit : ∀ b, more.head? = some b → isDigit b = false := by
    intro b hb
    have hend := hmore b hb
    simp only [isNumberByte, Bool.or_eq_false_iff] at hend
    exact hend.1.1.1
  unfold afterExponent
  rcases hx with rfl | ⟨e, sign, ds, rfl, he, hsign, hds⟩
  · have hmark : (more.head? == some 101 || more.head? == some 69) = false := by
      rw [Bool.or_eq_false_iff, beq_eq_false_iff_ne, beq_eq_false_iff_ne]
      constructor
      · intro heq
        exact absurd (hmore 101 heq) (by decide)
      · intro heq
        exact absurd (hmore 69 heq) (by decide)
    rw [List.nil_append, hmark]
    rfl
  · have hmark : (some e == some (101 : UInt8) || some e == some 69) = true := by
      rcases he with rfl | rfl
      · rfl
      · rfl
    rw [List.cons_append, List.head?_cons, hmark, if_pos rfl, List.drop_succ_cons, List.drop_zero]
    dsimp only
    rcases hsign with rfl | rfl | rfl
    · -- digits carry no sign
      cases ds with
      | nil => exact absurd rfl hds.nonempty
      | cons d =>
        have hd := hds.all d List.mem_cons_self
        have hnosign : (some d == some (43 : UInt8) || some d == some 45) = false := by
          rw [Bool.or_eq_false_iff, beq_eq_false_iff_ne, beq_eq_false_iff_ne]
          constructor
          · rintro ⟨⟩
            cases hd
          · rintro ⟨⟩
            cases hd
        rw [List.nil_append, List.cons_append, List.head?_cons, hnosign, ← List.cons_append]
        simp only [Bool.false_eq_true, if_false, hds.read hdigit]
        rfl
    · simp [hds.read hdigit]
    · simp [hds.read hdigit]

theorem NumberText.complete {l : Bytes} (h : NumberText l) {more : Bytes} (hmore : Ends more) :
    number (l ++ more) = some (l, more) := by
  obtain ⟨sign, i, f, x, hl, hsign, hi, hf, hx⟩ := h.parts
  have hdigit := tail_not_digit hf hx hmore
  have hdot : ∀ b, (x ++ more).head? = some b → isDigit b = false ∧ b ≠ 46 := by
    intro b hb
    refine ⟨tail_not_digit (.inl rfl) hx hmore b hb, ?_⟩
    rcases hx with rfl | ⟨e, _, _, rfl, he, -, -⟩
    · have hend := hmore b hb
      rintro rfl
      exact absurd hend (by decide)
    · cases hb
      rcases he with rfl | rfl
      · decide
      · decide
  have hunsigned : (if (l ++ more).head? == some 45 then (l ++ more).drop 1 else l ++ more) =
      i ++ (f ++ (x ++ more)) := by
    have hall : l ++ more = sign ++ (i ++ (f ++ (x ++ more))) := by
      rw [hl]
      simp only [List.append_assoc]
    rw [hall]
    rcases hsign with rfl | rfl
    · have hminus : ((i ++ (f ++ (x ++ more))).head? == some 45) = false := by
        rw [beq_eq_false_iff_ne]
        rcases hi with rfl | ⟨hdigits, -⟩
        · simp
        · cases i with
          | nil => exact absurd rfl hdigits.nonempty
          | cons d =>
            have hd := hdigits.all d List.mem_cons_self
            rintro ⟨⟩
            cases hd
      rw [List.nil_append, hminus]
      rfl
    · simp
  unfold number
  simp only [hunsigned, afterInteger_read hi hdigit, afterFraction_read hf hdot,
    afterExponent_read hx hmore, Option.bind_eq_bind, Option.bind_some]
  unfold consumed
  rw [List.length_append, Nat.add_sub_cancel, List.take_left]

theorem consumed_append (s rest : Bytes) : consumed (s ++ rest) rest = s := by
  unfold consumed
  rw [List.length_append, Nat.add_sub_cancel, List.take_left]

theorem head_eq_some {bs : Bytes} {b : UInt8} (h : (bs.head? == some b) = true) :
    bs = b :: bs.drop 1 := by
  cases bs with
  | nil => cases h
  | cons =>
    rw [beq_iff_eq] at h
    cases h
    rfl

theorem afterInteger_sound (h : afterInteger bs = some rest) :
    ∃ i, bs = i ++ rest ∧ IntegerText i := by
  unfold afterInteger at h
  split at h
  · rename_i hzero
    cases h
    exact ⟨[48], head_eq_some hzero, .inl rfl⟩
  · rename_i hzero
    obtain ⟨⟨ds, rest'⟩, hread, heq⟩ := Option.map_eq_some_iff.mp h
    cases heq
    obtain ⟨hbs, hds⟩ := someDigits_split hread
    refine ⟨ds, hbs, .inr ⟨hds, ?_⟩⟩
    cases ds with
    | nil => exact absurd rfl hds.nonempty
    | cons =>
      rw [hbs] at hzero
      simpa using hzero

theorem afterFraction_sound (h : afterFraction bs = some rest) :
    ∃ f, bs = f ++ rest ∧ FractionText f := by
  unfold afterFraction at h
  split at h
  · rename_i hdot
    obtain ⟨⟨ds, rest'⟩, hread, heq⟩ := Option.map_eq_some_iff.mp h
    cases heq
    obtain ⟨hbs, hds⟩ := someDigits_split hread
    refine ⟨46 :: ds, ?_, .inr ⟨ds, rfl, hds⟩⟩
    rw [head_eq_some hdot, hbs]
    rfl
  · cases h
    exact ⟨[], rfl, .inl rfl⟩

theorem afterExponent_sound (h : afterExponent bs = some rest) :
    ∃ x, bs = x ++ rest ∧ ExponentText x := by
  unfold afterExponent at h
  split at h
  · rename_i hmark
    obtain ⟨⟨ds, rest'⟩, hread, heq⟩ := Option.map_eq_some_iff.mp h
    cases heq
    obtain ⟨hbs, hds⟩ := someDigits_split hread
    obtain ⟨e, he, hmarked⟩ : ∃ e, bs = e :: bs.drop 1 ∧ (e = 101 ∨ e = 69) := by
      rw [Bool.or_eq_true] at hmark
      rcases hmark with hmark | hmark
      · exact ⟨101, head_eq_some hmark, .inl rfl⟩
      · exact ⟨69, head_eq_some hmark, .inr rfl⟩
    split at hbs
    · rename_i hsigned
      obtain ⟨sign, hsign, hkind⟩ : ∃ g, bs.drop 1 = g :: (bs.drop 1).drop 1 ∧ (g = 43 ∨ g = 45) := by
        rw [Bool.or_eq_true] at hsigned
        rcases hsigned with hsigned | hsigned
        · exact ⟨43, head_eq_some hsigned, .inl rfl⟩
        · exact ⟨45, head_eq_some hsigned, .inr rfl⟩
      refine ⟨e :: ([sign] ++ ds), ?_, .inr ⟨e, [sign], ds, rfl, hmarked, ?_, hds⟩⟩
      · rw [he, hsign, hbs]
        rfl
      · rcases hkind with rfl | rfl
        · exact .inr (.inl rfl)
        · exact .inr (.inr rfl)
    · refine ⟨e :: ([] ++ ds), ?_, .inr ⟨e, [], ds, rfl, hmarked, .inl rfl, hds⟩⟩
      rw [he, hbs]
      rfl
  · cases h
    exact ⟨[], rfl, .inl rfl⟩

theorem number_sound {bs l rest : Bytes} (h : number bs = some (l, rest)) :
    bs = l ++ rest ∧ NumberText l := by
  unfold number at h
  simp only [Option.bind_eq_bind, Option.bind_eq_some_iff] at h
  obtain ⟨r, hinteger, r', hfraction, r'', hexponent, h⟩ := h
  cases h
  obtain ⟨i, hi, hitext⟩ := afterInteger_sound hinteger
  obtain ⟨f, hf, hftext⟩ := afterFraction_sound hfraction
  obtain ⟨x, hx, hxtext⟩ := afterExponent_sound hexponent
  obtain ⟨sign, hsign, hkind⟩ : ∃ sign, bs = sign ++ (i ++ r) ∧ (sign = [] ∨ sign = [45]) := by
    split at hi
    · rename_i hminus
      exact ⟨[45], by rw [← hi]; exact head_eq_some hminus, .inr rfl⟩
    · exact ⟨[], hi, .inl rfl⟩
  have hbs : bs = (sign ++ (i ++ (f ++ x))) ++ rest := by
    rw [hsign, hf, hx]
    simp only [List.append_assoc]
  have hl : consumed bs rest = sign ++ (i ++ (f ++ x)) := by
    rw [hbs, consumed_append]
  rw [hl]
  exact ⟨hbs, ⟨sign, i, f, x, rfl, hkind, hitext, hftext, hxtext⟩⟩

end Snagline.Kit.Json
