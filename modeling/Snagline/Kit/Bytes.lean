import Mathlib.Tactic

/-!
# Byte strings

Text is carried as its bytes throughout. This module has the byte-level
routines a wire format needs: UTF-8 as a strict decoder accepts it, lowercase
hexadecimal, decimal numerals and big-endian words.
-/

namespace Snagline.Kit

abbrev Bytes := List UInt8

def text (s : String) : Bytes := s.toByteArray.data.toList
def isDigit (b : UInt8) : Bool := 48 ≤ b && b ≤ 57
def isLowerHex (b : UInt8) : Bool := isDigit b || (97 ≤ b && b ≤ 102)

/-! ### UTF-8 -/

def isTail (b : UInt8) : Bool := 0x80 ≤ b && b ≤ 0xBF

def secondOfThree (a b : UInt8) : Bool :=
  if a == 0xE0 then 0xA0 ≤ b && b ≤ 0xBF
  else if a == 0xED then 0x80 ≤ b && b ≤ 0x9F
  else isTail b

/-- Second byte of a four-byte sequence: no overlong form, nothing past U+10FFFF. -/
def secondOfFour (a b : UInt8) : Bool :=
  if a == 0xF0 then 0x90 ≤ b && b ≤ 0xBF
  else if a == 0xF4 then 0x80 ≤ b && b ≤ 0x8F
  else isTail b

/-- Width of the well-formed sequence at the head of the bytes, if there is one. -/
def runeWidth : Bytes → Option ℕ
  | [] => none
  | a :: rest =>
    if a < 0x80 then some 1
    else if a < 0xC2 then none
    else if a < 0xE0 then
      match rest with
      | b :: _ => if isTail b then some 2 else none
      | _ => none
    else if a < 0xF0 then
      match rest with
      | b :: c :: _ => if secondOfThree a b && isTail c then some 3 else none
      | _ => none
    else if a < 0xF5 then
      match rest with
      | b :: c :: d :: _ => if secondOfFour a b && isTail c && isTail d then some 4 else none
      | _ => none
    else none

def utf8ValidAux : ℕ → Bytes → Bool
  | _, [] => true
  | 0, _ :: _ => false
  | n + 1, b :: bs =>
    match runeWidth (b :: bs) with
    | none => false
    | some w => utf8ValidAux n ((b :: bs).drop w)

variable (bs : Bytes)

/-- `utf8.Valid`. -/
def utf8Valid : Bool := utf8ValidAux bs.length bs

def runeCountAux : ℕ → Bytes → ℕ
  | _, [] => 0
  | 0, _ :: _ => 0
  | n + 1, b :: bs =>
    match runeWidth (b :: bs) with
    | none => 1 + runeCountAux n bs
    | some w => 1 + runeCountAux n ((b :: bs).drop w)

/-- `utf8.RuneCountInString`: a byte that starts no sequence counts as one. -/
def runeCount : ℕ := runeCountAux bs.length bs

def encodeRune (u : ℕ) : Bytes :=
  if u < 0x80 then [UInt8.ofNat u]
  else if u < 0x800 then [UInt8.ofNat (0xC0 + u / 64), UInt8.ofNat (0x80 + u % 64)]
  else if u < 0x10000 then
    [UInt8.ofNat (0xE0 + u / 4096), UInt8.ofNat (0x80 + u / 64 % 64), UInt8.ofNat (0x80 + u % 64)]
  else
    [UInt8.ofNat (0xF0 + u / 262144), UInt8.ofNat (0x80 + u / 4096 % 64),
      UInt8.ofNat (0x80 + u / 64 % 64), UInt8.ofNat (0x80 + u % 64)]

def replacementRune : Bytes := [0xEF, 0xBF, 0xBD]

def spaceWidth : Bytes → Option ℕ
  | [] => none
  | a :: rest =>
    if (9 ≤ a && a ≤ 13) || a == 32 then some 1
    else match rest with
      | b :: more =>
        if a == 0xC2 && (b == 0x85 || b == 0xA0) then some 2
        else match more with
          | c :: _ =>
            if (a == 0xE1 && b == 0x9A && c == 0x80) ||
                (a == 0xE2 && b == 0x80 &&
                  ((0x80 ≤ c && c ≤ 0x8A) || c == 0xA8 || c == 0xA9 || c == 0xAF)) ||
                (a == 0xE2 && b == 0x81 && c == 0x9F) ||
                (a == 0xE3 && b == 0x80 && c == 0x80) then some 3
            else none
          | [] => none
      | [] => none

def blankAux : ℕ → Bytes → Bool
  | _, [] => true
  | 0, _ :: _ => false
  | n + 1, b :: bs =>
    match spaceWidth (b :: bs) with
    | none => false
    | some w => blankAux n ((b :: bs).drop w)

/-- `strings.TrimSpace(s) == ""`. -/
def blank : Bool := blankAux bs.length bs

/-! ### Numerals -/

def hexDigit (n : ℕ) : UInt8 := if n < 10 then UInt8.ofNat (48 + n) else UInt8.ofNat (87 + n)

/-- `hex.EncodeToString`. -/
def hexEncode : Bytes :=
  bs.flatMap fun b => [hexDigit (b.toNat / 16), hexDigit (b.toNat % 16)]

def hexValue (b : UInt8) : Option ℕ :=
  if isDigit b then some (b.toNat - 48)
  else if 97 ≤ b && b ≤ 102 then some (b.toNat - 87)
  else if 65 ≤ b && b ≤ 70 then some (b.toNat - 55)
  else none

def digitsValue : ℕ := bs.foldl (fun n b => 10 * n + (b.toNat - 48)) 0
def decimalNat (n : ℕ) : Bytes := (Nat.toDigits 10 n).map fun c => UInt8.ofNat c.toNat

/-- Decimal numeral of an integer, as `fmt.Sprint` prints it. -/
def decimal (n : ℤ) : Bytes := if n < 0 then 45 :: decimalNat n.natAbs else decimalNat n.natAbs

/-- `strconv.ParseInt(s, 10, 64)`. -/
def parseInt64 : Option ℤ :=
  let negative := bs.head? == some 45
  let digits := if negative || bs.head? == some 43 then bs.tail else bs
  if digits.isEmpty || !digits.all isDigit then none
  else
    let n : ℤ := if negative then -(digitsValue digits : ℤ) else digitsValue digits
    if -2 ^ 63 ≤ n ∧ n < 2 ^ 63 then some n else none

/-- `strconv.ParseUint(s, 10, 64)`. -/
def parseUint64 : Option ℕ :=
  if bs.isEmpty || !bs.all isDigit then none
  else if digitsValue bs < 2 ^ 64 then some (digitsValue bs) else none

def bigEndian64 (n : ℕ) : Bytes :=
  [56, 48, 40, 32, 24, 16, 8, 0].map fun k => UInt8.ofNat (n / 2 ^ k % 256)

end Snagline.Kit
