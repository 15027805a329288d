import Snagline.Kit.Base64
import Snagline.Kit.Spelling

/-!
# Writing JSON

The encoder with HTML escaping: strings, decimal integers, base64 byte strings, and
arrays and objects without white space. What it writes spells the value it was given;
a string that is no UTF-8 comes back with U+FFFD in place of the stray bytes.
-/

namespace Snagline.Kit.Json

/-! ### Strings -/

def isSafe (b : UInt8) : Bool :=
  32 ≤ b && b != 34 && b != 92 && b != 60 && b != 62 && b != 38

def escapeByte (b : UInt8) : Bytes :=
  if isSafe b then [b]
  else if b == 34 || b == 92 then [92, b]
  else if b == 8 then [92, 98]
  else if b == 12 then [92, 102]
  else if b == 10 then [92, 110]
  else if b == 13 then [92, 114]
  else if b == 9 then [92, 116]
  else [92, 117, 48, 48, hexDigit (b.toNat / 16), hexDigit (b.toNat % 16)]

def escapeRune : Bytes → Bytes
  | [b] => escapeByte b
  | r =>
    if r == [0xE2, 0x80, 0xA8] then [92, 117, 50, 48, 50, 56]
    else if r == [0xE2, 0x80, 0xA9] then [92, 117, 50, 48, 50, 57]
    else r

def escapeAux (escape : Bytes → Bytes) : ℕ → Bytes → Bytes
  | 0, _ => []
  | _ + 1, [] => []
  | n + 1, b :: bs =>
    match runeWidth (b :: bs) with
    | none => [92, 117, 102, 102, 102, 100] ++ escapeAux escape n bs
    | some w => escape ((b :: bs).take w) ++ escapeAux escape n ((b :: bs).drop w)

def toValidAux : ℕ → Bytes → Bytes
  | 0, _ => []
  | _ + 1, [] => []
  | n + 1, b :: bs =>
    match runeWidth (b :: bs) with
    | none => replacementRune ++ toValidAux n bs
    | some w => (b :: bs).take w ++ toValidAux n ((b :: bs).drop w)

def toValid (s : Bytes) : Bytes := toValidAux s.length s

/-- `appendString` with `escapeHTML`. -/
def quote (s : Bytes) : Bytes := 34 :: (escapeAux escapeRune s.length s ++ [34])

theorem escapeByte_control {b : UInt8} (h : b < 0x80) :
    hex4 [48, 48, hexDigit (b.toNat / 16), hexDigit (b.toNat % 16)] = some (b.toNat, []) ∧
      isHighSurrogate b.toNat = false ∧ loneRune b.toNat = [b] := by
  have hall : ∀ i : Fin 128, hex4 [48, 48, hexDigit (i.val / 16), hexDigit (i.val % 16)]
        = some (i.val, []) ∧ isHighSurrogate i.val = false ∧ loneRune i.val = [UInt8.ofNat i.val] := by
    decide
  have hlt : b.toNat < 128 := by
    rw [UInt8.lt_iff_toNat_lt] at h
    simpa using h
  have hb := hall ⟨b.toNat, hlt⟩
  simpa using hb

theorem isRune_ascii {b : UInt8} (h : b < 0x80) : IsRune [b] := by
  unfold IsRune
  rw [runeWidth_eq_some]
  exact .one h

theorem escapeByte_text {b : UInt8} (h : b < 0x80) {s v : Bytes} (hs : StringText s v) :
    StringText (escapeByte b ++ s) (b :: v) := by
  unfold escapeByte
  split
  · rename_i hsafe
    have hplain : isPlain b = true := by
      unfold isSafe at hsafe
      unfold isPlain
      simp only [Bool.and_eq_true, bne_iff_ne, decide_eq_true_eq, Bool.not_eq_true',
        decide_eq_false_iff_not, UInt8.le_iff_toNat_le, UInt8.lt_iff_toNat_lt] at hsafe ⊢
      exact ⟨⟨hsafe.1.1.1.1.2, hsafe.1.1.1.2⟩, by omega⟩
    exact StringText.rune (r := []) hplain (isRune_ascii h) hs
  · split
    · rename_i hquote
      rw [Bool.or_eq_true, beq_iff_eq, beq_iff_eq] at hquote
      rcases hquote with rfl | rfl
      · exact .short rfl hs
      · exact .short rfl hs
    · split
      · rename_i hb
        cases beq_iff_eq.mp hb
        exact .short rfl hs
      · split
        · rename_i hb
          cases beq_iff_eq.mp hb
          exact .short rfl hs
        · split
          · rename_i hb
            cases beq_iff_eq.mp hb
            exact .short rfl hs
          · split
            · rename_i hb
              cases beq_iff_eq.mp hb
              exact .short rfl hs
            · split
              · rename_i hb
                cases beq_iff_eq.mp hb
                exact .short rfl hs
              · obtain ⟨hhex, hhigh, hrune⟩ := escapeByte_control h
                have htext := StringText.lone hhex (fun hh => by rw [hhigh] at hh; cases hh) hs
                rw [hrune] at htext
                exact htext

theorem escapeRune_text {r : Bytes} (h : IsRune r) {s v : Bytes} (hs : StringText s v) :
    StringText (escapeRune r ++ s) (r ++ v) := by
  have hhead := runeWidth_eq_some.mp h
  match r, hhead with
  | [b], hhead =>
    have hb : b < 0x80 := by
      generalize hw : [b].length = w at hhead
      cases hhead with
      | one ha => exact ha
    exact escapeByte_text hb hs
  | b :: c :: r, hhead =>
    unfold escapeRune
    split
    case h_1 hone => cases hone
    split
    · rename_i hseparator
      rw [beq_iff_eq] at hseparator
      rw [hseparator]
      exact @StringText.lone [50, 48, 50, 56] 0x2028 _ _ rfl (fun hh => by cases hh) hs
    · split
      · rename_i hseparator
        rw [beq_iff_eq] at hseparator
        rw [hseparator]
        exact @StringText.lone [50, 48, 50, 57] 0x2029 _ _ rfl (fun hh => by cases hh) hs
      · have hplain : isPlain b = true := by
          have hb : ¬ b < 0x80 := by
            generalize hw : (b :: c :: r).length = w at hhead
            cases hhead with
            | one => simp at hw
            | two ha | three ha | four ha => exact ha
          unfold isPlain
          rw [UInt8.lt_iff_toNat_lt] at hb
          simp only [UInt8.reduceToNat] at hb
          simp only [Bool.and_eq_true, bne_iff_ne, Bool.not_eq_true', decide_eq_false_iff_not,
            UInt8.lt_iff_toNat_lt, UInt8.reduceToNat]
          refine ⟨⟨?_, ?_⟩, by omega⟩
          · rintro rfl
            simp at hb
          · rintro rfl
            simp at hb
        exact .rune hplain h hs

variable (n : ℕ)

theorem escapeAux_text {escape : Bytes → Bytes}
    (hescape : ∀ {r : Bytes}, IsRune r → ∀ {s v : Bytes}, StringText s v →
      StringText (escape r ++ s) (r ++ v)) (s : Bytes) :
    StringText (escapeAux escape n s ++ [34]) (toValidAux n s) := by
  induction n generalizing s with
  | zero => exact .close
  | succ n ih =>
    cases s with
    | nil => exact .close
    | cons b bs =>
      unfold escapeAux toValidAux
      split
      · have hrest := ih bs
        rw [List.append_assoc]
        exact @StringText.lone [102, 102, 102, 100] 0xFFFD _ _ rfl (fun hh => by cases hh) hrest
      · rename_i w hwidth
        have hhead := runeWidth_eq_some.mp hwidth
        rw [List.append_assoc]
        exact hescape hhead.take.2 (ih ((b :: bs).drop w))

theorem toValidAux_utf8 (s : Bytes) : Utf8 (toValidAux n s) := by
  induction n generalizing s with
  | zero => exact .nil
  | succ n ih =>
    cases s with
    | nil => exact .nil
    | cons b bs =>
      unfold toValidAux
      split
      · exact .rune replacementRune_rune (ih bs)
      · rename_i w hwidth
        have hhead := runeWidth_eq_some.mp hwidth
        exact .rune hhead.take.2 (ih _)

theorem toValidAux_eq {n : ℕ} {s : Bytes} (hn : s.length ≤ n) (h : Utf8 s) : toValidAux n s = s := by
  induction n generalizing s with
  | zero =>
    rw [List.length_eq_zero_iff.mp (Nat.le_zero.mp hn)]
    rfl
  | succ n ih =>
    cases s with
    | nil => rfl
    | cons b bs =>
      obtain ⟨w, hw, hrest⟩ := h.head (List.cons_ne_nil b bs)
      have hpositive := (runeWidth_eq_some.mp hw).positive
      have hshort : ((b :: bs).drop w).length ≤ n := by
        rw [List.length_drop]
        omega
      unfold toValidAux
      rw [hw]
      dsimp only
      rw [ih hshort hrest, List.take_append_drop]

theorem toValid_eq_self (s : Bytes) : toValid s = s ↔ Utf8 s :=
  ⟨fun h => h ▸ toValidAux_utf8 s.length s, toValidAux_eq (le_refl _)⟩

theorem quote_spells {s : Bytes} : Spells (quote s) (.value (.str (toValid s))) :=
  .string (escapeAux_text s.length escapeRune_text s)

/-! ### Strings without HTML escaping -/

/-- One rune for an encoder with `SetEscapeHTML(false)`. -/
def escapeRunePlain (r : Bytes) : Bytes :=
  if r == [60] || r == [62] || r == [38] then r else escapeRune r

def quotePlain (s : Bytes) : Bytes := 34 :: (escapeAux escapeRunePlain s.length s ++ [34])

theorem escapeRunePlain_text {r : Bytes} (h : IsRune r) {s v : Bytes} (hs : StringText s v) :
    StringText (escapeRunePlain r ++ s) (r ++ v) := by
  unfold escapeRunePlain
  split
  · rename_i hhtml
    simp only [Bool.or_eq_true, beq_iff_eq] at hhtml
    obtain (rfl | rfl) | rfl := hhtml
    · exact @StringText.rune 60 [] s v (by decide) h hs
    · exact @StringText.rune 62 [] s v (by decide) h hs
    · exact @StringText.rune 38 [] s v (by decide) h hs
  · exact escapeRune_text h hs

theorem quotePlain_spells (s : Bytes) : Spells (quotePlain s) (.value (.str (toValid s))) :=
  .string (escapeAux_text s.length escapeRunePlain_text s)

/-! ### Integers -/

theorem decimalNat_eq : decimalNat n =
    if n < 10 then [UInt8.ofNat (48 + n)] else decimalNat (n / 10) ++ [UInt8.ofNat (48 + n % 10)] := by
  have hchar : ∀ i : Fin 10, UInt8.ofNat (Nat.digitChar i.val).toNat = UInt8.ofNat (48 + i.val) := by
    decide
  unfold decimalNat
  rw [Nat.toDigits_eq_if (by decide)]
  split
  · rename_i hlt
    exact congrArg (fun x => [x]) (hchar ⟨n, hlt⟩)
  · rw [List.map_append]
    exact congrArg (fun x => _ ++ [x]) (hchar ⟨n % 10, Nat.mod_lt _ (by decide)⟩)

theorem digit_toNat {d : ℕ} (h : d < 10) : (UInt8.ofNat (48 + d)).toNat = 48 + d :=
  UInt8.toNat_ofNat_of_lt' (by
    show 48 + d < 256
    omega)

theorem isDigit_ofNat {d : ℕ} (h : d < 10) : isDigit (UInt8.ofNat (48 + d)) = true := by
  unfold isDigit
  simp only [Bool.and_eq_true, decide_eq_true_eq, UInt8.le_iff_toNat_le, digit_toNat h,
    UInt8.reduceToNat]
  omega

theorem digitsValue_append (a : Bytes) (d : UInt8) :
    digitsValue (a ++ [d]) = 10 * digitsValue a + (d.toNat - 48) := by
  unfold digitsValue
  rw [List.foldl_append]
  rfl

theorem decimalNat_digits : Digits (decimalNat n) := by
  induction n using Nat.strong_induction_on with
  | _ n ih =>
    rw [decimalNat_eq]
    split
    · rename_i hlt
      refine ⟨List.cons_ne_nil _ _, ?_⟩
      intro b hb
      rw [List.mem_singleton.mp hb]
      exact isDigit_ofNat hlt
    · have hrest := ih (n / 10) (by omega)
      refine ⟨by simp, ?_⟩
      intro b hb
      rcases List.mem_append.mp hb with hb | hb
      · exact hrest.all b hb
      · rw [List.mem_singleton.mp hb]
        exact isDigit_ofNat (Nat.mod_lt _ (by decide))

theorem digitsValue_decimalNat : digitsValue (decimalNat n) = n := by
  induction n using Nat.strong_induction_on with
  | _ n ih =>
    rw [decimalNat_eq]
    split
    · rename_i hlt
      have hvalue : digitsValue [UInt8.ofNat (48 + n)] = (UInt8.ofNat (48 + n)).toNat - 48 := by
        simp [digitsValue]
      rw [hvalue, digit_toNat hlt]
      omega
    · rw [digitsValue_append, ih (n / 10) (by omega), digit_toNat (Nat.mod_lt _ (by decide))]
      omega

theorem decimalNat_head {n : ℕ} (h : n ≠ 0) : (decimalNat n).head? ≠ some 48 := by
  induction n using Nat.strong_induction_on with
  | _ n ih =>
    rw [decimalNat_eq]
    split
    · rename_i hlt
      intro hhead
      have hzero := congrArg UInt8.toNat (Option.some.inj hhead)
      rw [digit_toNat hlt] at hzero
      simp only [UInt8.reduceToNat] at hzero
      omega
    · have hrest := ih (n / 10) (by omega) (by omega)
      rwa [List.head?_append_of_ne_nil _ (decimalNat_digits (n / 10)).nonempty]

theorem decimalNat_integer : IntegerText (decimalNat n) := by
  by_cases h : n = 0
  · left
    rw [h]
    rfl
  · exact .inr ⟨decimalNat_digits n, decimalNat_head h⟩

theorem decimal_number {n : ℤ} : NumberText (decimal n) := by
  have hinteger := decimalNat_integer n.natAbs
  unfold decimal
  split
  · exact ⟨[45], _, [], [], by simp, .inr rfl, hinteger, .inl rfl, .inl rfl⟩
  · exact ⟨[], _, [], [], by simp, .inl rfl, hinteger, .inl rfl, .inl rfl⟩

theorem digits_head {ds : Bytes} (h : Digits ds) (b : UInt8) (hb : isDigit b = false) :
    (ds.head? == some b) = false := by
  cases ds with
  | nil => rfl
  | cons d =>
    have hd := h.all d List.mem_cons_self
    rw [beq_eq_false_iff_ne]
    rintro heq
    cases heq
    rw [hd] at hb
    cases hb

theorem parseInt64_decimal (n : ℤ) :
    parseInt64 (decimal n) = if -2 ^ 63 ≤ n ∧ n < 2 ^ 63 then some n else none := by
  have hdigits := decimalNat_digits n.natAbs
  have hall : (decimalNat n.natAbs).all isDigit = true := List.all_eq_true.mpr hdigits.all
  have hsome : (decimalNat n.natAbs).isEmpty = false := by simpa using hdigits.nonempty
  unfold decimal
  split
  · rename_i hnegative
    have hvalue : -(digitsValue (decimalNat n.natAbs) : ℤ) = n := by
      rw [digitsValue_decimalNat]
      omega
    unfold parseInt64
    simp only [List.head?_cons, List.tail_cons, beq_self_eq_true, Bool.true_or, if_true, hsome, hall,
      Bool.not_true, Bool.or_false, hvalue]
    rfl
  · rename_i hpositive
    have hvalue : (digitsValue (decimalNat n.natAbs) : ℤ) = n := by
      rw [digitsValue_decimalNat]
      omega
    unfold parseInt64
    simp only [digits_head hdigits 45 (by decide), digits_head hdigits 43 (by decide), Bool.or_false,
      Bool.false_eq_true, if_false, hsome, hall, Bool.not_true, hvalue]

theorem parseUint64_decimalNat :
    parseUint64 (decimalNat n) = if n < 2 ^ 64 then some n else none := by
  have hdigits := decimalNat_digits n
  have hall : (decimalNat n).all isDigit = true := List.all_eq_true.mpr hdigits.all
  have hsome : (decimalNat n).isEmpty = false := by simpa using hdigits.nonempty
  unfold parseUint64
  simp only [hsome, hall, Bool.not_true, Bool.or_false, Bool.false_eq_true, if_false,
    digitsValue_decimalNat]

/-! ### Arrays and objects -/

def commas : List Bytes → Bytes
  | [] => []
  | [s] => s
  | s :: t :: rest => s ++ 44 :: commas (t :: rest)

def arrayText (items : List Bytes) : Bytes := 91 :: (commas items ++ [93])
def memberText (name value : Bytes) : Bytes := 34 :: (name ++ 34 :: 58 :: value)

def objectText (members : List (Bytes × Bytes)) : Bytes :=
  123 :: (commas (members.map fun m => memberText m.1 m.2) ++ [125])

def isPlainName (name : Bytes) : Bool := name.all fun b => isPlain b && b < 0x80

theorem plain_text {name : Bytes} (h : isPlainName name = true) :
    StringText (name ++ [34]) name := by
  induction name with
  | nil => exact .close
  | cons b name ih =>
    unfold isPlainName at h
    simp only [List.all_cons, Bool.and_eq_true, decide_eq_true_eq] at h
    obtain ⟨⟨hplain, hascii⟩, hrest⟩ := h
    exact StringText.rune (r := []) hplain (isRune_ascii hascii) (ih hrest)

theorem items_spells (xs : List (Bytes × Json)) (hne : xs ≠ [])
    (h : ∀ x ∈ xs, Spells x.1 (.value x.2)) :
    Spells (commas (xs.map Prod.fst) ++ [93]) (.items xs) := by
  induction xs with
  | nil => exact absurd rfl hne
  | cons x xs ih =>
    have hx := h x List.mem_cons_self
    cases xs with
    | nil => exact .lastItem hx space_nil
    | cons y ys =>
      have hrest := ih (List.cons_ne_nil y ys) fun z hz => h z (List.mem_cons_of_mem _ hz)
      have htext := Spells.item hx space_nil space_nil hrest
      simpa [commas] using htext

theorem array_spells {xs : List (Bytes × Json)} (h : ∀ x ∈ xs, Spells x.1 (.value x.2)) :
    Spells (arrayText (xs.map Prod.fst)) (.value (.arr xs)) := by
  cases xs with
  | nil => exact .emptyArray space_nil
  | cons x xs =>
    have hitems := items_spells _ (List.cons_ne_nil x xs) h
    exact @Spells.array [] _ _ space_nil hitems

/-- `t` is the text of the member `m`, from the quote of its name to the end of its
value. -/
structure SpellsMember (t : Bytes) (m : Bytes × Bytes × Json) : Prop where
  text : ∃ k a b, t = 34 :: (k ++ (a ++ 58 :: (b ++ m.2.1))) ∧ StringText k m.1 ∧ Space a ∧ Space b
  value : Spells m.2.1 (.value m.2.2)

theorem members_spells {ts : List Bytes} {ms : Members} (h : List.Forall₂ SpellsMember ts ms)
    (hne : ts ≠ []) : Spells (commas ts ++ [125]) (.members ms) := by
  induction h with
  | nil => exact absurd rfl hne
  | @cons t m ts ms hm hrest ih =>
    obtain ⟨key, s, v⟩ := m
    obtain ⟨⟨k, a, b, rfl, hk, ha, hb⟩, hv⟩ := hm
    cases hrest with
    | nil =>
      have htext := Spells.lastMember hk ha hb hv space_nil
      simpa [commas] using htext
    | cons hm' hrest' =>
      have htext := Spells.member hk ha hb hv space_nil space_nil (ih (List.cons_ne_nil _ _))
      simpa [commas] using htext

theorem object_spells {ts : List Bytes} {ms : Members} (h : List.Forall₂ SpellsMember ts ms) :
    Spells (123 :: (commas ts ++ [125])) (.value (.obj ms)) := by
  cases h with
  | nil => exact .emptyObject space_nil
  | cons hm hrest =>
    have hmembers := members_spells (.cons hm hrest) (List.cons_ne_nil _ _)
    exact @Spells.object [] _ _ space_nil hmembers

theorem plainMember_spells {name s : Bytes} {v : Json} (hname : isPlainName name = true)
    (hs : Spells s (.value v)) : SpellsMember (memberText name s) (name, s, v) := by
  refine ⟨⟨name ++ [34], [], [], ?_, plain_text hname, space_nil, space_nil⟩, hs⟩
  simp [memberText]

/-! ### Reading a struct back -/

/-- `DisallowUnknownFields`. -/
def knownFields (names : List Bytes) (ms : Members) : Bool :=
  ms.all fun m => names.any fun name => foldName m.1 == foldName name

def itemByte : Bytes × Json → Option UInt8
  | (_, .null) => some 0
  | (_, .num t) =>
    match parseUint64 t with
    | some n => if n < 256 then some (UInt8.ofNat n) else none
    | none => none
  | _ => none

def fieldBytes (ms : Members) (name : Bytes) : Option Bytes :=
  match field ms name with
  | none => some []
  | some (_, .null) => some []
  | some (_, .str s) => Base64.decodeStd s
  | some (_, .arr xs) => xs.mapM itemByte
  | some _ => none

theorem letter_plain {b : UInt8} (h : Base64.isLetter b = true) : isPlain b = true ∧ b < 0x80 := by
  have hrange : 43 ≤ b.toNat ∧ b.toNat ≤ 122 ∧ b.toNat ≠ 92 := by
    unfold Base64.isLetter isDigit at h
    simp only [Bool.or_eq_true, Bool.and_eq_true, decide_eq_true_eq, beq_iff_eq,
      UInt8.le_iff_toNat_le, ← UInt8.toNat_inj, UInt8.reduceToNat] at h
    omega
  unfold isPlain
  simp only [Bool.and_eq_true, bne_iff_ne, Bool.not_eq_true', decide_eq_false_iff_not,
    UInt8.lt_iff_toNat_lt, ne_eq, ← UInt8.toNat_inj, UInt8.reduceToNat]
  omega

def bytesText (bs : Bytes) : Bytes := 34 :: (Base64.encodeStd bs ++ [34])

theorem letters_plain {s : Bytes} (h : ∀ b ∈ s, Base64.isLetter b = true) :
    isPlainName s = true := by
  unfold isPlainName
  rw [List.all_eq_true]
  intro b hb
  rw [Bool.and_eq_true, decide_eq_true_eq]
  exact letter_plain (h b hb)

theorem bytes_spells (bs : Bytes) :
    Spells (bytesText bs) (.value (.str (Base64.encodeStd bs))) :=
  .string (plain_text (letters_plain (Base64.encodeStd_letters bs)))

end Snagline.Kit.Json
