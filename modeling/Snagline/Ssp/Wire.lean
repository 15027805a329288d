import Snagline.Kit.Base64
import Snagline.Kit.Check
import Snagline.Kit.Json

/-!
# Raw envelope bytes (envelope.go:58-272, 491-549, 747-871)

The guards every envelope passes before anything is decoded, the readers of a
decoded object's members, and the byte-level removal of the signature.
`Refusal` enumerates the errors of the package below the signature check;
`malformed` stands for every message of the JSON token reader.
-/

namespace Snagline.Ssp
open Kit Kit.Json

def maxEnvelopeBytes : ℕ := 64 * 1024
def maxDepth : ℕ := 32
def maxSafeInteger : ℤ := 2 ^ 53 - 1

/-- `jsonType` (registry_family.go:355-365). -/
inductive JsonType where
  | invalid | null | bool | number | string | array | object
  deriving DecidableEq

inductive Refusal where
  -- raw guards
  | tooLarge
  | invalidUtf8
  | truncatedEscape
  | truncatedUnicodeEscape
  | invalidEscapeDigit (digit : UInt8)
  | loneLowSurrogate (unit : ℕ)
  | highNotFollowed (unit : ℕ)
  | highFollowedBy (unit next : ℕ)
  | rootNotObject
  | malformed
  | depthExceeded
  | duplicateKey (key : Bytes)
  -- exact members
  | notObject (label : Bytes)
  | invalidDocument (label : Bytes)
  | unknownField (label name : Bytes)
  | missingMember (label name : Bytes)
  | nullMember (label name : Bytes)
  | missingOrNull (label name : Bytes)
  | notString (label name : Bytes)
  | notInteger (label name : Bytes)
  | unsafeInteger (label name : Bytes)
  -- envelope fields
  | unknownFamily
  | forbiddenMember (name : Bytes)
  | missingRequiredField
  | invalidEmittedAt
  | invalidExpiresAt
  | emittedInFuture
  | expired
  | invalidTimeRange
  | invalidRevision
  | invalidRegistryHash
  | invalidBody
  | floatingPoint
  | integerRange
  | invalidUtf8Body
  | invalidFamilyBody (family : Bytes)
  -- registry body
  | isMissing (what name : Bytes)
  | memberType (what name : Bytes) (actual want : JsonType)
  | unknownMember (what name : Bytes)
  | invalidField (what field : Bytes)
  | previousCommitment
  | revisionMirror
  | routingEpochMirror
  | tooManyEntries (what : Bytes) (max : ℕ)
  | emptyArray (what field : Bytes)
  | invalidEntry (what field : Bytes)
  | duplicateEntry (what field : Bytes)
  | familyCount (what : Bytes)
  | unsupportedFamily (what family : Bytes)
  | duplicateFamily (what family : Bytes)
  | missingFamily (what family : Bytes)
  | invalidWindow (what : Bytes)
  deriving DecidableEq

/-! ### Surrogate escapes -/

/-- `readHex4`: exactly four hexadecimal digits. -/
def readHex4 (bs : Bytes) : Except Refusal ℕ :=
  if (bs.take 4).length < 4 then .error .truncatedUnicodeEscape
  else
    match (bs.take 4).find? fun b => (hexValue b).isNone with
    | some digit => .error (.invalidEscapeDigit digit)
    | none => orFail ((hex4 bs).map fun r => r.1) .truncatedUnicodeEscape

/-- `validateStringEscapes`: every surrogate escape is a high unit followed by
a low one. The flag is `inString`. -/
def validateStringEscapes : ℕ → Bool → Bytes → Except Refusal Unit
  | _, _, [] => .ok ()
  | 0, _, _ :: _ => .ok ()
  | n + 1, false, b :: bs => validateStringEscapes n (b == 34) bs
  | n + 1, true, b :: bs =>
    if b == 34 then validateStringEscapes n false bs
    else if b == 92 then
      match bs with
      | [] => .error .truncatedEscape
      | e :: bs =>
        -- any escape but \u is two bytes, the escaped backslash included
        if e != 117 then validateStringEscapes n true bs
        else do
          let first ← readHex4 bs
          let next := bs.drop 4
          if isLowSurrogate first then .error (.loneLowSurrogate first)
          else if isHighSurrogate first then
            if next.length < 6 || next.take 2 != [92, 117] then
              .error (.highNotFollowed first)
            else do
              let second ← readHex4 (next.drop 2)
              if isLowSurrogate second then validateStringEscapes n true (next.drop 6)
              else .error (.highFollowedBy first second)
          else validateStringEscapes n true next
    else validateStringEscapes n true bs

/-! ### Structure -/

def scientific (literal : Bytes) : ℕ × ℤ :=
  let unsigned := if literal.head? == some 45 then literal.drop 1 else literal
  let whole := unsigned.takeWhile isDigit
  let r := unsigned.drop whole.length
  let frac := if r.head? == some 46 then (r.drop 1).takeWhile isDigit else []
  let r := if r.head? == some 46 then r.drop (1 + frac.length) else r
  let negative := (r.drop 1).head? == some 45
  let digits := r.filter isDigit
  let e : ℤ := if negative then -(digitsValue digits : ℤ) else digitsValue digits
  (digitsValue (whole ++ frac), e - frac.length)

def doubleRange (literal : Bytes) : Bool :=
  let bound : ℕ := 2 ^ 1024 - 2 ^ 970
  match scientific literal with
  | (m, .ofNat e) => m * 10 ^ e < bound
  | (m, .negSucc e) => m < bound * 10 ^ (e + 1)

def scanScalar (n : ℕ) (bs : Bytes) : Except Refusal Bytes :=
  match parseValue n bs with
  | none => .error .malformed
  | some (.num t, rest) => if doubleRange t then .ok rest else .error .malformed
  | some (_, rest) => .ok rest

mutual

/-- `scanValue`: reads one value token by token and returns what follows it, so
the error is that of the first offending token. -/
def scanValue : ℕ → ℕ → Bytes → Except Refusal Bytes
  | 0, _, _ => .error .malformed
  | n + 1, depth, bs =>
    match skipSpace bs with
    | [] => .error .malformed
    | b :: bs =>
      if b == 123 then do
        ensure (depth < maxDepth) .depthExceeded
        match skipSpace bs with
        | [] => .error .malformed
        | c :: cs => if c == 125 then .ok cs else scanMembers n depth [] (c :: cs)
      else if b == 91 then do
        ensure (depth < maxDepth) .depthExceeded
        match skipSpace bs with
        | [] => .error .malformed
        | c :: cs => if c == 93 then .ok cs else scanItems n depth (c :: cs)
      else scanScalar (n + 1) (b :: bs)

def scanItems : ℕ → ℕ → Bytes → Except Refusal Bytes
  | 0, _, _ => .error .malformed
  | n + 1, depth, bs => do
    let rest ← scanValue n (depth + 1) bs
    match skipSpace rest with
    | [] => .error .malformed
    | c :: cs =>
      if c == 93 then .ok cs
      else if c == 44 then scanItems n depth cs
      else .error .malformed

/-- Members from a key on; `keys` are those already seen in this object. -/
def scanMembers : ℕ → ℕ → List Bytes → Bytes → Except Refusal Bytes
  | 0, _, _, _ => .error .malformed
  | _ + 1, _, _, [] => .error .malformed
  | n + 1, depth, keys, q :: bs =>
    if q == 34 then
      match stringBody n bs with
      | none => .error .malformed
      | some (key, rest) => do
        ensure (!keys.contains key) (.duplicateKey key)
        match skipSpace rest with
        | [] => .error .malformed
        | c :: cs =>
          if c == 58 then do
            let rest ← scanValue n (depth + 1) cs
            match skipSpace rest with
            | [] => .error .malformed
            | c :: cs =>
              if c == 125 then .ok cs
              else if c == 44 then scanMembers n depth (key :: keys) (skipSpace cs)
              else .error .malformed
          else .error .malformed
    else .error .malformed

end

/- An array nested in an array costs two calls and one byte, hence twice the
length as fuel: an unclosed run of brackets must still reach the depth check. -/
def rawGuard (raw : Bytes) : Except Refusal Unit := do
  ensure (raw.length ≤ maxEnvelopeBytes) .tooLarge
  ensure (utf8Valid raw) .invalidUtf8
  validateStringEscapes raw.length false raw
  ensure ((skipSpace raw).head? == some 123) .rootNotObject
  let rest ← scanValue (2 * raw.length + 2) 0 raw
  ensure (skipSpace rest).isEmpty .malformed

/-! ### Removing the signature -/

/-- Length of a string literal after its opening quote, the closing one included. -/
def stringTail : Bool → Bytes → Option ℕ
  | _, [] => none
  | true, _ :: bs => (stringTail false bs).map (· + 1)
  | false, b :: bs =>
    if b == 92 then (stringTail true bs).map (· + 1)
    else if b == 34 then some 1
    else (stringTail false bs).map (· + 1)

/-- `stringEnd`: length of the string literal at the head. -/
def stringEnd : Bytes → Option ℕ
  | [] => none
  | b :: bs => if b == 34 then (stringTail false bs).map (· + 1) else none

/-- Length of a container after its opening bracket. Only the number of open
brackets is tracked: the source pops its stack whatever the closing kind. -/
def containerTail : ℕ → Bool → Bool → Bytes → Option ℕ
  | _, _, _, [] => none
  | depth, true, true, _ :: bs => (containerTail depth true false bs).map (· + 1)
  | depth, true, false, b :: bs =>
    if b == 92 then (containerTail depth true true bs).map (· + 1)
    else (containerTail depth (b != 34) false bs).map (· + 1)
  | depth, false, _, b :: bs =>
    if b == 34 then (containerTail depth true false bs).map (· + 1)
    else if b == 123 || b == 91 then (containerTail (depth + 1) false false bs).map (· + 1)
    else if b == 125 || b == 93 then
      match depth with
      | 0 => some 1
      | depth + 1 => (containerTail depth false false bs).map (· + 1)
    else (containerTail depth false false bs).map (· + 1)

def endsScalar (b : UInt8) : Bool := b == 44 || b == 125 || b == 93 || isSpace b

/-- `valueEnd`: length of the value at the head. -/
def valueEnd : Bytes → Option ℕ
  | [] => none
  | b :: bs =>
    if b == 34 then stringEnd (b :: bs)
    else if b == 123 || b == 91 then (containerTail 0 false false bs).map (· + 1)
    else
      let scalar := (b :: bs).takeWhile fun c => !endsScalar c
      if scalar.isEmpty then none else some scalar.length

/-- The members kept by `stripUnsignedTopLevel`, each byte for byte. -/
def keptMembers : ℕ → Bytes → Option (List Bytes)
  | 0, _ => none
  | n + 1, bs =>
    let bs := skipSpace bs
    if bs.isEmpty then none
    else if bs.head? == some 125 then some []
    else do
      let k ← stringEnd bs
      let key ← match unmarshal (bs.take k) with
        | some (.str s) => some s
        | _ => none
      let colon := skipSpace (bs.drop k)
      if colon.head? != some 58 then none
      else do
        let value := skipSpace (colon.drop 1)
        let v ← valueEnd value
        let rest := value.drop v
        let kept := if key == text "signature" then [] else [consumed bs rest]
        let next := skipSpace rest
        if next.head? == some 44 then (keptMembers n (next.drop 1)).map (kept ++ ·)
        else if next.head? == some 125 then some kept
        else none

/-- `stripUnsignedTopLevel`. -/
def stripUnsignedTopLevel (raw : Bytes) : Option Bytes :=
  let bs := skipSpace raw
  if bs.head? == some 123 then
    (keptMembers raw.length (bs.drop 1)).map fun ms => 123 :: List.intercalate [44] ms ++ [125]
  else none

/-! ### Objects with exact members -/

/-- `exactObject`. Its callers pass a guarded envelope or a member's own bytes,
where trimming Unicode space and skipping JSON space leave the same first byte. -/
def exactObject (raw label : Bytes) : Except Refusal Members :=
  if (skipSpace raw).head? == some 123 then
    match unmarshal raw with
    | some (.obj ms) => .ok ms
    | _ => .error (.invalidDocument label)
  else .error (.notObject label)

def requireMember (ms : Members) (label name : Bytes) : Except Refusal Unit :=
  match lookup ms name with
  | none => .error (.missingMember label name)
  | some (_, .null) => .error (.nullMember label name)
  | some _ => .ok ()

/-- `requireExactMembers`. Of several unknown members the source names whichever
its map iteration meets first; here it is the first on the wire. -/
def requireExactMembers (ms : Members) (required : List Bytes) (label : Bytes) :
    Except Refusal Unit :=
  match ms.find? fun m => !required.contains m.1 with
  | some m => .error (.unknownField label m.1)
  | none => required.forM (requireMember ms label)

/-- `requiredString`. -/
def requiredString (ms : Members) (name label : Bytes) : Except Refusal Bytes :=
  match lookup ms name with
  | none => .error (.missingOrNull label name)
  | some (_, .null) => .error (.missingOrNull label name)
  | some (_, .str s) => .ok s
  | some _ => .error (.notString label name)

/-- The literal `-?0` or a digit run without leading zero. -/
def plainInteger (literal : Bytes) : Bool :=
  literal == [48] || literal == [45, 48] ||
    (!literal.isEmpty && literal.all isDigit && literal.head? != some 48)

/-- `requiredNonNegativeInteger`. -/
def requiredNonNegativeInteger (ms : Members) (name label : Bytes) : Except Refusal ℤ :=
  match lookup ms name with
  | none => .error (.missingOrNull label name)
  | some (_, .null) => .error (.missingOrNull label name)
  | some (_, .num t) =>
    if !plainInteger t then .error (.notInteger label name)
    else
      match parseInt64 t with
      | none => .error (.unsafeInteger label name)
      | some n => if n ≤ maxSafeInteger then .ok n else .error (.unsafeInteger label name)
  | some _ => .error (.notInteger label name)

/-! ### What a strict decoding leaves to a struct decoder -/

section
variable {ms : Members} {name label s : Bytes} {names : List Bytes} {n : ℤ}

theorem exactObject_ok {raw label : Bytes} (h : exactObject raw label = .ok ms) :
    unmarshal raw = some (.obj ms) := by
  unfold exactObject at h
  split at h
  · split at h
    · rename_i hms
      cases h
      exact hms
    · cases h
  · cases h

theorem requireExactMembers_ok {required : List Bytes} {label : Bytes} {u : Unit}
    (h : requireExactMembers ms required label = .ok u) : ∀ m ∈ ms, m.1 ∈ required := by
  unfold requireExactMembers at h
  split at h
  · cases h
  · rename_i hnone
    intro m hm
    have hin := List.find?_eq_none.mp hnone m hm
    simpa using hin

theorem requiredString_lookup
    (h : requiredString ms name label = .ok s) : ∃ raw, lookup ms name = some (raw, .str s) := by
  unfold requiredString at h
  split at h
  · cases h
  · cases h
  · rename_i heq
    cases h
    exact ⟨_, heq⟩
  · cases h

theorem requiredString_field (hexact : ∀ m ∈ ms, m.1 ∈ names)
    (hfold : ∀ a ∈ names, ∀ b ∈ names, foldName a = foldName b → a = b)
    (hname : name ∈ names) (h : requiredString ms name label = .ok s) :
    fieldString ms name = some s := by
  obtain ⟨raw, hfound⟩ := requiredString_lookup h
  unfold fieldString
  rw [field_eq_lookup hexact hfold hname, hfound]

theorem plainInteger_nonneg {t : Bytes} (hplain : plainInteger t = true)
    (hn : parseInt64 t = some n) : 0 ≤ n := by
  unfold plainInteger at hplain
  simp only [Bool.or_eq_true, beq_iff_eq, Bool.and_eq_true] at hplain
  rcases hplain with (rfl | rfl) | ⟨⟨hne, hdigits⟩, -⟩
  · cases hn
    decide
  · cases hn
    decide
  · cases t with
    | nil => cases hne
    | cons b bs =>
      -- a digit is no sign
      have hdigit : isDigit b = true := by
        simp only [List.all_cons, Bool.and_eq_true] at hdigits
        exact hdigits.1
      have hminus : (b == 45) = false := by
        cases hb : b == 45 with
        | false => rfl
        | true =>
          rw [beq_iff_eq] at hb
          rw [hb] at hdigit
          cases hdigit
      have hhead : ((b :: bs).head? == some 45) = false := hminus
      unfold parseInt64 at hn
      simp only [hhead, Bool.false_eq_true, if_false] at hn
      generalize (if (false || (b :: bs).head? == some 43) = true then (b :: bs).tail else b :: bs) =
        digits at hn
      by_cases hbad : (digits.isEmpty || !digits.all isDigit) = true
      · rw [if_pos hbad] at hn
        cases hn
      · rw [if_neg hbad] at hn
        by_cases hrange : -2 ^ 63 ≤ (digitsValue digits : ℤ) ∧ (digitsValue digits : ℤ) < 2 ^ 63
        · rw [if_pos hrange] at hn
          have hvalue := Option.some.inj hn
          omega
        · rw [if_neg hrange] at hn
          cases hn

theorem requiredNonNegativeInteger_field
    (hexact : ∀ m ∈ ms, m.1 ∈ names)
    (hfold : ∀ a ∈ names, ∀ b ∈ names, foldName a = foldName b → a = b) {name label : Bytes}
    (hname : name ∈ names) (h : requiredNonNegativeInteger ms name label = .ok n) :
    fieldInt64 ms name = some n ∧ 0 ≤ n := by
  unfold requiredNonNegativeInteger at h
  split at h
  · cases h
  · cases h
  · rename_i raw t heq
    split at h
    · cases h
    · rename_i hplain
      rw [Bool.not_eq_true', Bool.not_eq_false] at hplain
      split at h
      · cases h
      · rename_i m hm
        split at h
        · cases h
          refine ⟨?_, plainInteger_nonneg hplain hm⟩
          unfold fieldInt64
          rw [field_eq_lookup hexact hfold hname, heq]
          exact hm
        · cases h
  · cases h

end

/-! ### Canonical base64url -/

inductive Base64Error where
  | notBase64
  | decodedLength
  | notCanonical
  deriving DecidableEq

/-- `DecodeCanonicalBase64` (envelope.go:338-350). -/
def decodeCanonicalBase64 (encoded : Bytes) (wantLen : ℤ) : Except Base64Error Bytes := do
  let decoded ← orFail (Base64.decodeStrict encoded) .notBase64
  ensure (decoded.length == wantLen) .decodedLength
  ensure (Base64.encode decoded == encoded) .notCanonical
  pure decoded

theorem decodeCanonicalBase64_eq_ok {encoded decoded : Bytes} {wantLen : ℤ} :
    decodeCanonicalBase64 encoded wantLen = .ok decoded ↔
      decoded.length = wantLen ∧ encoded = Base64.encode decoded := by
  unfold decodeCanonicalBase64
  simp only [orFail_bind_eq_ok, ensure_bind_eq_ok, beq_iff_eq]
  constructor
  · rintro ⟨raw, -, hlength, hencode, h⟩
    cases h
    exact ⟨hlength, hencode.symm⟩
  · rintro ⟨hlength, rfl⟩
    exact ⟨decoded, Base64.decodeStrict_encode decoded, hlength, rfl, rfl⟩

end Snagline.Ssp
