import Snagline.Kit.Bytes

/-!
# JSON over bytes

A recursive-descent reader of the JSON grammar. A container keeps, beside each
element, the exact bytes the element was read from, so that a caller can hand
an element on undecoded. Strings come out decoded: a well-formed surrogate
pair becomes one scalar, any other surrogate escape becomes U+FFFD.

`fuel` bounds the recursion; the length of the input is always enough, because
every call consumes a byte.
-/

namespace Snagline.Kit

inductive Json where
  | null
  | bool (b : Bool)
  | num (literal : Bytes)
  | str (value : Bytes)
  | arr (items : List (Bytes × Json))
  | obj (members : List (Bytes × Bytes × Json))

namespace Json

def isSpace (b : UInt8) : Bool := b == 32 || b == 9 || b == 13 || b == 10

def skipSpace : Bytes → Bytes
  | [] => []
  | b :: bs => if isSpace b then skipSpace bs else b :: bs

/-- The bytes read between `bs` and its suffix `rest`. -/
def consumed (bs rest : Bytes) : Bytes := bs.take (bs.length - rest.length)

/-! ### Strings -/

def isHighSurrogate (u : ℕ) : Bool := 0xD800 ≤ u && u ≤ 0xDBFF
def isLowSurrogate (u : ℕ) : Bool := 0xDC00 ≤ u && u ≤ 0xDFFF

def hex4 : Bytes → Option (ℕ × Bytes)
  | a :: b :: c :: d :: rest => do
    let a ← hexValue a
    let b ← hexValue b
    let c ← hexValue c
    let d ← hexValue d
    some (((a * 16 + b) * 16 + c) * 16 + d, rest)
  | _ => none

def lowEscape : Bytes → Option (ℕ × Bytes)
  | b :: u :: rest =>
    if b == 92 && u == 117 then
      match hex4 rest with
      | some (low, after) => if isLowSurrogate low then some (low, after) else none
      | none => none
    else none
  | _ => none

/-- The scalar of one `\u` escape, after its four digits have been read. -/
def escapedRune (u : ℕ) (rest : Bytes) : Bytes × Bytes :=
  if isHighSurrogate u then
    match lowEscape rest with
    | some (low, after) => (encodeRune (0x10000 + (u - 0xD800) * 0x400 + (low - 0xDC00)), after)
    | none => (replacementRune, rest)
  else if isLowSurrogate u then (replacementRune, rest)
  else (encodeRune u, rest)

def shortEscape (b : UInt8) : Option UInt8 :=
  if b == 34 || b == 92 || b == 47 then some b
  else if b == 98 then some 8
  else if b == 102 then some 12
  else if b == 110 then some 10
  else if b == 114 then some 13
  else if b == 116 then some 9
  else none

/-- String contents after the opening quote: the decoded bytes, and what
follows the closing quote. -/
def stringBody : ℕ → Bytes → Option (Bytes × Bytes)
  | 0, _ => none
  | _ + 1, [] => none
  | n + 1, b :: bs =>
    if b == 34 then some ([], bs)
    else if b == 92 then
      match bs with
      | [] => none
      | e :: bs =>
        if e == 117 then
          match hex4 bs with
          | none => none
          | some (u, rest) =>
            let r := escapedRune u rest
            (stringBody n r.2).map fun s => (r.1 ++ s.1, s.2)
        else
          match shortEscape e with
          | none => none
          | some c => (stringBody n bs).map fun s => (c :: s.1, s.2)
    else if b < 32 then none
    else
      match runeWidth (b :: bs) with
      | none => (stringBody n bs).map fun s => (replacementRune ++ s.1, s.2)
      | some w => (stringBody n ((b :: bs).drop w)).map fun s => ((b :: bs).take w ++ s.1, s.2)

/-! ### Numbers -/

variable (bs : Bytes)

/-- Digits required after a `.` or an exponent mark. -/
def someDigits : Option (Bytes × Bytes) :=
  let ds := bs.takeWhile isDigit
  if ds.isEmpty then none else some (ds, bs.drop ds.length)

def afterInteger : Option Bytes :=
  if bs.head? == some 48 then some (bs.drop 1)
  else (someDigits bs).map fun r => r.2

def afterFraction : Option Bytes :=
  if bs.head? == some 46 then (someDigits (bs.drop 1)).map fun r => r.2 else some bs

def afterExponent : Option Bytes :=
  if bs.head? == some 101 || bs.head? == some 69 then
    let signed := bs.drop 1
    let bare := if signed.head? == some 43 || signed.head? == some 45 then signed.drop 1 else signed
    (someDigits bare).map fun r => r.2
  else some bs

def number : Option (Bytes × Bytes) := do
  let unsigned := if bs.head? == some 45 then bs.drop 1 else bs
  let r ← afterInteger unsigned
  let r ← afterFraction r
  let r ← afterExponent r
  some (consumed bs r, r)

/-! ### Values -/

def keyword : Bytes → Bytes → Option Bytes
  | [], bs => some bs
  | _ :: _, [] => none
  | w :: ws, b :: bs => if w == b then keyword ws bs else none

mutual

def parseValue : ℕ → Bytes → Option (Json × Bytes)
  | 0, _ => none
  | _ + 1, [] => none
  | n + 1, b :: bs =>
    if b == 123 then
      match skipSpace bs with
      | [] => none
      | c :: cs =>
        if c == 125 then some (.obj [], cs)
        else (parseMembers n (c :: cs)).map fun r => (.obj r.1, r.2)
    else if b == 91 then
      match skipSpace bs with
      | [] => none
      | c :: cs =>
        if c == 93 then some (.arr [], cs)
        else (parseItems n (c :: cs)).map fun r => (.arr r.1, r.2)
    else if b == 34 then (stringBody n bs).map fun r => (.str r.1, r.2)
    else if b == 116 then (keyword [114, 117, 101] bs).map fun r => (.bool true, r)
    else if b == 102 then (keyword [97, 108, 115, 101] bs).map fun r => (.bool false, r)
    else if b == 110 then (keyword [117, 108, 108] bs).map fun r => (.null, r)
    else (number (b :: bs)).map fun r => (.num r.1, r.2)

def parseItems : ℕ → Bytes → Option (List (Bytes × Json) × Bytes)
  | 0, _ => none
  | n + 1, bs =>
    match parseValue n bs with
    | none => none
    | some (v, rest) =>
      match skipSpace rest with
      | [] => none
      | c :: cs =>
        if c == 93 then some ([(consumed bs rest, v)], cs)
        else if c == 44 then
          (parseItems n (skipSpace cs)).map fun r => ((consumed bs rest, v) :: r.1, r.2)
        else none

def parseMembers : ℕ → Bytes → Option (List (Bytes × Bytes × Json) × Bytes)
  | 0, _ => none
  | _ + 1, [] => none
  | n + 1, q :: bs =>
    if q == 34 then
      match stringBody n bs with
      | none => none
      | some (key, rest) =>
        match skipSpace rest with
        | [] => none
        | c :: cs =>
          if c == 58 then
            match parseValue n (skipSpace cs) with
            | none => none
            | some (v, rest) =>
              let raw := consumed (skipSpace cs) rest
              match skipSpace rest with
              | [] => none
              | c :: cs =>
                if c == 125 then some ([(key, raw, v)], cs)
                else if c == 44 then
                  (parseMembers n (skipSpace cs)).map fun r => ((key, raw, v) :: r.1, r.2)
                else none
          else none
    else none

end

def unmarshal : Option Json :=
  match parseValue (bs.length + 1) (skipSpace bs) with
  | some (v, rest) => if (skipSpace rest).isEmpty then some v else none
  | none => none

/-! ### Objects as maps -/

abbrev Members := List (Bytes × Bytes × Json)

variable (ms : Members)

def lookup (key : Bytes) : Option (Bytes × Json) :=
  (ms.reverse.find? fun m => m.1 == key).map fun m => m.2

/-- Case folding of a member name the way a struct decoder matches it: ASCII
letters, and the two scalars outside ASCII that fold onto one. -/
def foldName : Bytes → Bytes
  | [] => []
  | [a] => [if 97 ≤ a && a ≤ 122 then a - 32 else a]
  | [a, b] =>
    if a == 0xC5 && b == 0xBF then [83]
    else (if 97 ≤ a && a ≤ 122 then a - 32 else a) :: foldName [b]
  | a :: b :: c :: rest =>
    if a == 0xE2 && b == 0x84 && c == 0xAA then 75 :: foldName rest
    else if a == 0xC5 && b == 0xBF then 83 :: foldName (c :: rest)
    else (if 97 ≤ a && a ≤ 122 then a - 32 else a) :: foldName (b :: c :: rest)

variable (name : Bytes)

/-- The value a struct decoder stores in the field `name`. -/
def field : Option (Bytes × Json) :=
  (ms.reverse.find? fun m => foldName m.1 == foldName name).map fun m => m.2

/-- A string field: absent and `null` leave the zero value. -/
def fieldString : Option Bytes :=
  match field ms name with
  | none => some []
  | some (_, .null) => some []
  | some (_, .str s) => some s
  | some _ => none

def fieldStringPtr : Option (Option Bytes) :=
  match field ms name with
  | none => some none
  | some (_, .null) => some none
  | some (_, .str s) => some (some s)
  | some _ => none

def fieldInt64 : Option ℤ :=
  match field ms name with
  | none => some 0
  | some (_, .null) => some 0
  | some (_, .num t) => parseInt64 t
  | some _ => none

def fieldItems : Option (List (Bytes × Json)) :=
  match field ms name with
  | none => some []
  | some (_, .null) => some []
  | some (_, .arr xs) => some xs
  | some _ => none

def itemString : Bytes × Json → Option Bytes
  | (_, .null) => some []
  | (_, .str s) => some s
  | _ => none

def fieldStrings : Option (List Bytes) :=
  match fieldItems ms name with
  | none => none
  | some xs => xs.mapM itemString

/-- The members a struct decoder reads: `null` decodes to the zero struct. -/
def structMembers : Json → Option Members
  | .null => some []
  | .obj ms => some ms
  | _ => none

theorem field_eq_lookup {ms : Members} {names : List Bytes} (hexact : ∀ m ∈ ms, m.1 ∈ names)
    (hfold : ∀ a ∈ names, ∀ b ∈ names, foldName a = foldName b → a = b) {name : Bytes}
    (hname : name ∈ names) : field ms name = lookup ms name := by
  have hsame : ∀ m ∈ ms.reverse, (foldName m.1 == foldName name) = (m.1 == name) := by
    intro m hm
    have hm' := hexact m (List.mem_reverse.mp hm)
    rw [Bool.eq_iff_iff, beq_iff_eq, beq_iff_eq]
    exact ⟨hfold m.1 hm' name hname, congrArg foldName⟩
  unfold field lookup
  rw [List.find?_congr hsame]

end Json

end Snagline.Kit
