import Snagline.Kit.Bytes

/-!
# Unpadded base64url

The encoder, and the strict decoder: carriage returns and line feeds are
skipped, and the unused low bits of the last character must be zero.
-/

namespace Snagline.Kit.Base64

def char (n : ℕ) : UInt8 :=
  if n < 26 then UInt8.ofNat (65 + n)
  else if n < 52 then UInt8.ofNat (71 + n)
  else if n < 62 then UInt8.ofNat (n - 4)
  else if n == 62 then 45
  else 95

def value (b : UInt8) : Option ℕ :=
  if 65 ≤ b && b ≤ 90 then some (b.toNat - 65)
  else if 97 ≤ b && b ≤ 122 then some (b.toNat - 71)
  else if isDigit b then some (b.toNat + 4)
  else if b == 45 then some 62
  else if b == 95 then some 63
  else none

/-- `base64.RawURLEncoding.EncodeToString`. -/
def encode : Bytes → Bytes
  | [] => []
  | [a] => [char (a.toNat / 4), char (a.toNat % 4 * 16)]
  | [a, b] =>
    [char (a.toNat / 4), char (a.toNat % 4 * 16 + b.toNat / 16), char (b.toNat % 16 * 4)]
  | a :: b :: c :: rest =>
    char (a.toNat / 4) :: char (a.toNat % 4 * 16 + b.toNat / 16) ::
      char (b.toNat % 16 * 4 + c.toNat / 64) :: char (c.toNat % 64) :: encode rest

def joinGroups : List ℕ → Option Bytes
  | [] => some []
  | [_] => none
  | [a, b] => if b % 16 == 0 then some [UInt8.ofNat (a * 4 + b / 16)] else none
  | [a, b, c] =>
    if c % 4 == 0 then
      some [UInt8.ofNat (a * 4 + b / 16), UInt8.ofNat (b % 16 * 16 + c / 4)]
    else none
  | a :: b :: c :: d :: rest =>
    (joinGroups rest).map fun bs =>
      UInt8.ofNat (a * 4 + b / 16) :: UInt8.ofNat (b % 16 * 16 + c / 4) ::
        UInt8.ofNat (c % 4 * 64 + d) :: bs

/-- `base64.RawURLEncoding.Strict().DecodeString`. -/
def decodeStrict (s : Bytes) : Option Bytes :=
  match (s.filter fun b => b != 13 && b != 10).mapM value with
  | none => none
  | some groups => joinGroups groups

/-! ### The padded standard alphabet -/

def stdChar (n : ℕ) : UInt8 := if n == 62 then 43 else if n == 63 then 47 else char n

def stdValue (b : UInt8) : Option ℕ :=
  if b == 43 then some 62
  else if b == 47 then some 63
  else if b == 45 || b == 95 then none
  else value b

/-- `base64.StdEncoding.EncodeToString`. -/
def encodeStd : Bytes → Bytes
  | [] => []
  | [a] => [stdChar (a.toNat / 4), stdChar (a.toNat % 4 * 16), 61, 61]
  | [a, b] =>
    [stdChar (a.toNat / 4), stdChar (a.toNat % 4 * 16 + b.toNat / 16), stdChar (b.toNat % 16 * 4), 61]
  | a :: b :: c :: rest =>
    stdChar (a.toNat / 4) :: stdChar (a.toNat % 4 * 16 + b.toNat / 16) ::
      stdChar (b.toNat % 16 * 4 + c.toNat / 64) :: stdChar (c.toNat % 64) :: encodeStd rest

/-- Whole quanta of four characters; padding only ends the last one, and the bits it
leaves over are not looked at. -/
def joinQuanta : Bytes → Option Bytes
  | [] => some []
  | a :: b :: c :: d :: rest =>
    if rest.isEmpty && d == 61 then
      if c == 61 then do
        let a ← stdValue a
        let b ← stdValue b
        some [UInt8.ofNat (a * 4 + b / 16)]
      else do
        let a ← stdValue a
        let b ← stdValue b
        let c ← stdValue c
        some [UInt8.ofNat (a * 4 + b / 16), UInt8.ofNat (b % 16 * 16 + c / 4)]
    else do
      let a ← stdValue a
      let b ← stdValue b
      let c ← stdValue c
      let d ← stdValue d
      let bs ← joinQuanta rest
      some (UInt8.ofNat (a * 4 + b / 16) :: UInt8.ofNat (b % 16 * 16 + c / 4) ::
        UInt8.ofNat (c % 4 * 64 + d) :: bs)
  | _ => none

/-- `base64.StdEncoding.DecodeString`. -/
def decodeStd (s : Bytes) : Option Bytes := joinQuanta (s.filter fun b => b != 13 && b != 10)

/-! ### Round trips -/

section
variable (bs : Bytes) {n : ℕ} (a b c : UInt8)

theorem stdValue_stdChar (h : n < 64) : stdValue (stdChar n) = some n := by
  have hall : ∀ i : Fin 64, stdValue (stdChar i) = some i.val := by decide
  exact hall ⟨n, h⟩

theorem stdChar_ne_pad (h : n < 64) : stdChar n ≠ 61 := by
  have hall : ∀ i : Fin 64, stdChar i ≠ 61 := by decide
  exact hall ⟨n, h⟩

/-- A character of either alphabet or the padding: printable ASCII that no string has
to escape. -/
def isLetter (b : UInt8) : Bool :=
  (65 ≤ b && b ≤ 90) || (97 ≤ b && b ≤ 122) || isDigit b || b == 45 || b == 95 || b == 43 ||
    b == 47 || b == 61

theorem isLetter_char (h : n < 64) :
    isLetter (char n) = true ∧ isLetter (stdChar n) = true := by
  have hall : ∀ i : Fin 64, isLetter (char i) = true ∧ isLetter (stdChar i) = true := by decide
  exact hall ⟨n, h⟩

theorem groups_lt :
    a.toNat / 4 < 64 ∧ a.toNat % 4 * 16 < 64 ∧ a.toNat % 4 * 16 + b.toNat / 16 < 64 ∧
      b.toNat % 16 * 4 < 64 ∧ b.toNat % 16 * 4 + c.toNat / 64 < 64 ∧ c.toNat % 64 < 64 := by
  have ha := a.toNat_lt
  have hb := b.toNat_lt
  have hc := c.toNat_lt
  omega

theorem ofNat_eq {b : UInt8} (h : n = b.toNat) : UInt8.ofNat n = b := by
  rw [h]
  exact UInt8.ofNat_toNat

theorem joinFirst (a b : UInt8) :
    UInt8.ofNat (a.toNat / 4 * 4 + (a.toNat % 4 * 16 + b.toNat / 16) / 16) = a := by
  have hb := b.toNat_lt
  exact ofNat_eq (by omega)

theorem joinFirstAlone (a : UInt8) :
    UInt8.ofNat (a.toNat / 4 * 4 + a.toNat % 4 * 16 / 16) = a :=
  ofNat_eq (by omega)

theorem joinSecond :
    UInt8.ofNat ((a.toNat % 4 * 16 + b.toNat / 16) % 16 * 16 +
      (b.toNat % 16 * 4 + c.toNat / 64) / 4) = b := by
  have hb := b.toNat_lt
  have hc := c.toNat_lt
  exact ofNat_eq (by omega)

theorem joinSecondAlone (a b : UInt8) :
    UInt8.ofNat ((a.toNat % 4 * 16 + b.toNat / 16) % 16 * 16 + b.toNat % 16 * 4 / 4) = b := by
  have hb := b.toNat_lt
  exact ofNat_eq (by omega)

theorem joinThird (b c : UInt8) :
    UInt8.ofNat ((b.toNat % 16 * 4 + c.toNat / 64) % 4 * 64 + c.toNat % 64) = c := by
  have hc := c.toNat_lt
  exact ofNat_eq (by omega)

theorem encodeStd_letters : ∀ b ∈ encodeStd bs, isLetter b = true := by
  induction bs using encodeStd.induct with
  | case1 => simp [encodeStd]
  | case2 a =>
    obtain ⟨h1, h2, -⟩ := groups_lt a 0 0
    simp [encodeStd, isLetter_char h1, isLetter_char h2]
    decide
  | case3 a b =>
    obtain ⟨h1, -, h3, h4, -⟩ := groups_lt a b 0
    simp [encodeStd, isLetter_char h1, isLetter_char h3, isLetter_char h4]
    decide
  | case4 a b c rest ih =>
    obtain ⟨h1, -, h3, -, h5, h6⟩ := groups_lt a b c
    simp only [encodeStd, List.mem_cons, forall_eq_or_imp]
    exact ⟨(isLetter_char h1).2, (isLetter_char h3).2, (isLetter_char h5).2, (isLetter_char h6).2, ih⟩

theorem letters_unbroken {s : Bytes} (h : ∀ b ∈ s, isLetter b = true) :
    (s.filter fun b => b != 13 && b != 10) = s := by
  rw [List.filter_eq_self]
  intro b hb
  have hletter := h b hb
  rw [Bool.and_eq_true, bne_iff_ne, bne_iff_ne]
  constructor
  · rintro rfl
    exact absurd hletter (by decide)
  · rintro rfl
    exact absurd hletter (by decide)

theorem joinQuanta_encodeStd : joinQuanta (encodeStd bs) = some bs := by
  induction bs using encodeStd.induct with
  | case1 => rfl
  | case2 a =>
    obtain ⟨h1, h2, -⟩ := groups_lt a 0 0
    unfold encodeStd joinQuanta
    rw [if_pos (by decide), if_pos (by decide), stdValue_stdChar h1, stdValue_stdChar h2]
    exact congrArg (fun x => some [x]) (joinFirstAlone a)
  | case3 a b =>
    obtain ⟨h1, -, h3, h4, -⟩ := groups_lt a b 0
    have hpad : ¬ (stdChar (b.toNat % 16 * 4) == 61) = true := by simpa using stdChar_ne_pad h4
    unfold encodeStd joinQuanta
    rw [if_pos (by decide), if_neg hpad, stdValue_stdChar h1, stdValue_stdChar h3,
      stdValue_stdChar h4]
    exact congrArg₂ (fun x y => some [x, y]) (joinFirst a b) (joinSecondAlone a b)
  | case4 a b c rest ih =>
    obtain ⟨h1, -, h3, -, h5, h6⟩ := groups_lt a b c
    have hpad : ¬ ((encodeStd rest).isEmpty && stdChar (c.toNat % 64) == 61) = true := by
      rw [Bool.and_eq_true, beq_iff_eq]
      exact fun h => stdChar_ne_pad h6 h.2
    unfold encodeStd joinQuanta
    rw [if_neg hpad, stdValue_stdChar h1, stdValue_stdChar h3, stdValue_stdChar h5,
      stdValue_stdChar h6, ih]
    simp only [Option.bind_eq_bind, Option.bind_some, joinFirst, joinSecond, joinThird]

theorem decodeStd_encodeStd : decodeStd (encodeStd bs) = some bs := by
  unfold decodeStd
  rw [letters_unbroken (encodeStd_letters bs), joinQuanta_encodeStd]

theorem encodeStd_length : (encodeStd bs).length = 4 * ((bs.length + 2) / 3) := by
  induction bs using encodeStd.induct with
  | case1 => rfl
  | case2 | case3 => simp [encodeStd]
  | case4 a b c rest ih =>
    simp only [encodeStd, List.length_cons, ih]
    omega

theorem value_char (h : n < 64) : value (char n) = some n := by
  have hall : ∀ i : Fin 64, value (char i) = some i.val := by decide
  exact hall ⟨n, h⟩

theorem encode_letters : ∀ b ∈ encode bs, isLetter b = true := by
  induction bs using encode.induct with
  | case1 => simp [encode]
  | case2 a =>
    obtain ⟨h1, h2, -⟩ := groups_lt a 0 0
    simp [encode, isLetter_char h1, isLetter_char h2]
  | case3 a b =>
    obtain ⟨h1, -, h3, h4, -⟩ := groups_lt a b 0
    simp [encode, isLetter_char h1, isLetter_char h3, isLetter_char h4]
  | case4 a b c rest ih =>
    obtain ⟨h1, -, h3, -, h5, h6⟩ := groups_lt a b c
    simp only [encode, List.mem_cons, forall_eq_or_imp]
    exact ⟨(isLetter_char h1).1, (isLetter_char h3).1, (isLetter_char h5).1, (isLetter_char h6).1, ih⟩

theorem joinGroups_encode :
    ∃ groups, (encode bs).mapM value = some groups ∧ joinGroups groups = some bs := by
  induction bs using encode.induct with
  | case1 => exact ⟨[], rfl, rfl⟩
  | case2 a =>
    obtain ⟨h1, h2, -⟩ := groups_lt a 0 0
    refine ⟨[a.toNat / 4, a.toNat % 4 * 16], by simp [encode, value_char h1, value_char h2], ?_⟩
    have hzero : (a.toNat % 4 * 16 % 16 == 0) = true := by simp
    simp only [joinGroups, hzero, if_true, joinFirstAlone]
  | case3 a b =>
    obtain ⟨h1, -, h3, h4, -⟩ := groups_lt a b 0
    refine ⟨[a.toNat / 4, a.toNat % 4 * 16 + b.toNat / 16, b.toNat % 16 * 4],
      by simp [encode, value_char h1, value_char h3, value_char h4], ?_⟩
    have hzero : (b.toNat % 16 * 4 % 4 == 0) = true := by simp
    simp only [joinGroups, hzero, if_true, joinFirst, joinSecondAlone]
  | case4 a b c rest ih =>
    obtain ⟨groups, hvalues, hjoin⟩ := ih
    obtain ⟨h1, -, h3, -, h5, h6⟩ := groups_lt a b c
    refine ⟨a.toNat / 4 :: (a.toNat % 4 * 16 + b.toNat / 16) ::
      (b.toNat % 16 * 4 + c.toNat / 64) :: c.toNat % 64 :: groups,
      by simp [encode, value_char h1, value_char h3, value_char h5, value_char h6, hvalues], ?_⟩
    simp only [joinGroups, hjoin, Option.map_some, joinFirst, joinSecond, joinThird]

theorem decodeStrict_encode : decodeStrict (encode bs) = some bs := by
  obtain ⟨groups, hvalues, hjoin⟩ := joinGroups_encode bs
  unfold decodeStrict
  rw [letters_unbroken (encode_letters bs), hvalues]
  exact hjoin

end

end Snagline.Kit.Base64
