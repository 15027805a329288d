import Mathlib.Data.List.TakeWhile
import Snagline.Kit.Bytes

/-!
# URLs

Percent-encoding, parsing, reference resolution and spelling of URLs as the
`net/url` package does them. A path is kept decoded next to the spelling it was
read from. The authority stays as it is spelled: of its user, host and port only
the whole is kept.
-/

namespace Snagline.Kit

/-! ### Percent-encoding -/

inductive Url.Mode where
  | path | pathSegment | queryComponent | fragment
  deriving DecidableEq

namespace Url

def isLetter (b : UInt8) : Bool := (97 ≤ b && b ≤ 122) || (65 ≤ b && b ≤ 90)

/-- `- _ . ~` -/
def marks : List UInt8 := [45, 95, 46, 126]

/-- `$ & + , / : ; = ? @` -/
def reserved : List UInt8 := [36, 38, 43, 44, 47, 58, 59, 61, 63, 64]

variable (mode : Mode)

/-- `shouldEscape`. -/
def shouldEscape (b : UInt8) : Bool :=
  if isLetter b || isDigit b || marks.contains b then false
  else if reserved.contains b then
    match mode with
    | .path => b == 63
    | .pathSegment => b == 47 || b == 59 || b == 44 || b == 63
    | .queryComponent => true
    | .fragment => false
  -- `! ( ) *` stay in a fragment
  else !(mode == .fragment && [33, 40, 41, 42].contains b)

def upperHex (n : ℕ) : UInt8 := if n < 10 then UInt8.ofNat (48 + n) else UInt8.ofNat (55 + n)

def escapeByte (b : UInt8) : Bytes :=
  if shouldEscape mode b then
    if b == 32 && mode == .queryComponent then [43]
    else [37, upperHex (b.toNat / 16), upperHex (b.toNat % 16)]
  else [b]

def escape (bs : Bytes) : Bytes := bs.flatMap (escapeByte mode)

def unescape (mode : Mode) : Bytes → Option Bytes
  | [] => some []
  | b :: rest =>
    if b == 37 then
      match rest with
      | high :: low :: rest => do
        let high ← hexValue high
        let low ← hexValue low
        let tail ← unescape mode rest
        some (UInt8.ofNat (16 * high + low) :: tail)
      | _ => none
    else do
      let tail ← unescape mode rest
      some ((if b == 43 && mode == .queryComponent then 32 else b) :: tail)

/-- `validEncoded`: the bytes a spelling may keep besides those no mode escapes are
`! $ & ' ( ) * + , ; = : @ [ ] %`. -/
def validEncoded (bs : Bytes) : Bool :=
  bs.all fun b =>
    [33, 36, 38, 39, 40, 41, 42, 43, 44, 59, 61, 58, 64, 91, 93, 37].contains b ||
      !shouldEscape mode b

/-! ### The parts of a URL -/

/-- A decoded part, with the spelling it was read from where that is not the default
one. -/
structure Part where
  value : Bytes := []
  raw : Bytes := []
  deriving DecidableEq

/-- `setPath` and `setFragment`. -/
def Part.read (spelled : Bytes) : Option Part := do
  let value ← unescape mode spelled
  some ⟨value, if spelled = escape mode value then [] else spelled⟩

/-- `EscapedPath` and `EscapedFragment`. -/
def Part.spelling (p : Part) : Bytes :=
  if !p.raw.isEmpty && validEncoded mode p.raw && unescape mode p.raw == some p.value then p.raw
  else if mode == .path && p.value == [42] then [42]
  else escape mode p.value

/-- `strings.Cut` at a byte: what precedes it, and what follows it. -/
def cut (sep : UInt8) (bs : Bytes) : Bytes × Bytes :=
  (bs.takeWhile (· != sep), (bs.dropWhile (· != sep)).tail)

end Url

structure Url where
  scheme : Bytes := []
  /-- The rest of a URL with a scheme and no leading slash. -/
  rootless : Bytes := []
  host : Bytes := []
  path : Url.Part := {}
  omitHost : Bool := false
  forceQuery : Bool := false
  rawQuery : Bytes := []
  fragment : Url.Part := {}
  deriving DecidableEq

namespace Url

def isControl (b : UInt8) : Bool := b < 32 || b == 127
def lower (b : UInt8) : UInt8 := if 65 ≤ b && b ≤ 90 then b + 32 else b

/-- `getScheme`, at a position other than the first or at it. -/
def getSchemeAux (whole : Bytes) : Bytes → Bytes → Option (Bytes × Bytes)
  | _, [] => some ([], whole)
  | read, b :: rest =>
    if isLetter b then getSchemeAux whole (read ++ [b]) rest
    else if isDigit b || [43, 45, 46].contains b then
      if read.isEmpty then some ([], whole) else getSchemeAux whole (read ++ [b]) rest
    else if b == 58 then if read.isEmpty then none else some (read, rest)
    else some ([], whole)

def getScheme (bs : Bytes) : Option (Bytes × Bytes) := getSchemeAux bs [] bs

/-- The query that `rest` ends in: its path, whether a bare `?` ends it, the query. -/
def splitQuery (rest : Bytes) : Bytes × Bool × Bytes :=
  if rest.getLast? = some 63 ∧ rest.count 63 = 1 then (rest.dropLast, true, [])
  else ((cut 63 rest).1, false, (cut 63 rest).2)

def splitAuthority (viaRequest : Bool) (scheme rest : Bytes) : Bytes × Bytes :=
  if (!scheme.isEmpty || (!viaRequest && !List.isPrefixOf [47, 47, 47] rest)) &&
      List.isPrefixOf [47, 47] rest then
    ((rest.drop 2).takeWhile (· != 47), (rest.drop 2).dropWhile (· != 47))
  else ([], rest)

/-- `parse`. -/
def parseNoFragment (viaRequest : Bool) (bs : Bytes) : Option Url := do
  guard (!bs.any isControl)
  guard !(bs.isEmpty && viaRequest)
  if bs = [42] then some { path := ⟨[42], []⟩ }
  else
    let (named, afterScheme) ← getScheme bs
    let scheme := named.map lower
    let (rest, forceQuery, rawQuery) := splitQuery afterScheme
    if rest.head? ≠ some 47 ∧ !scheme.isEmpty then
      some { scheme, forceQuery, rawQuery, rootless := rest }
    else
      guard (rest.head? == some 47 || (!viaRequest && !((cut 47 rest).1.contains 58)))
      let (host, spelled) := splitAuthority viaRequest scheme rest
      let path ← Part.read .path spelled
      some { scheme, host, path, forceQuery, rawQuery,
             omitHost := !scheme.isEmpty && !List.isPrefixOf [47, 47] rest }

/-- `Parse`. -/
def parse (bs : Bytes) : Option Url := do
  let url ← parseNoFragment false (cut 35 bs).1
  if (cut 35 bs).2.isEmpty then some url
  else
    let fragment ← Part.read .fragment (cut 35 bs).2
    some { url with fragment }

/-- `ParseRequestURI`. -/
def parseRequestURI (bs : Bytes) : Option Url := parseNoFragment true bs

/-! ### Resolving a reference -/

def beforeLast (sep : UInt8) (bs : Bytes) : Option Bytes :=
  if bs.contains sep then some (((bs.reverse.dropWhile (· != sep)).tail).reverse) else none

def dot : Bytes := [46]
def dotDot : Bytes := [46, 46]

/-- One element of `resolvePath`: what is written so far, and whether an element would
be the first. -/
def resolveStep (st : Bytes × Bool) (elem : Bytes) : Bytes × Bool :=
  if elem = dot then (st.1, false)
  else if elem = dotDot then
    match beforeLast 47 st.1.tail with
    | none => ([47], true)
    | some kept => (47 :: kept, st.2)
  else (st.1 ++ (if st.2 then [] else [47]) ++ elem, false)

/-- The end of `resolvePath`: a slash for a trailing dot element, and one leading slash. -/
def closePath (last : Option Bytes) (written : Bytes) : Bytes :=
  let r := written ++ if last = some dot ∨ last = some dotDot then [47] else []
  if r.tail.head? = some 47 then r.tail else r

/-- `resolvePath`. -/
def resolvePath (base ref : Bytes) : Bytes :=
  let full := if ref.isEmpty then base
    else if ref.head? ≠ some 47 then (match beforeLast 47 base with
      | none => ref
      | some kept => kept ++ 47 :: ref)
    else ref
  if full.isEmpty then []
  else
    let elems := full.splitOn 47
    closePath elems.getLast? (elems.foldl resolveStep ([47], true)).1

def withPath (u : Url) (spelled : Bytes) : Url :=
  match Part.read .path spelled with
  | some path => { u with path }
  | none => u

/-- `URL.ResolveReference`. -/
def resolveReference (u ref : Url) : Url :=
  let url := if ref.scheme.isEmpty then { ref with scheme := u.scheme } else ref
  if !ref.scheme.isEmpty || !ref.host.isEmpty then
    url.withPath (resolvePath (ref.path.spelling .path) [])
  else if !ref.rootless.isEmpty then { url with host := [], path := {} }
  else
    let bare := ref.path.value.isEmpty && !ref.forceQuery && ref.rawQuery.isEmpty
    let url := if bare then { url with rawQuery := u.rawQuery } else url
    let url := if bare && ref.fragment.value.isEmpty then { url with fragment := u.fragment } else url
    if ref.path.value.isEmpty && !u.rootless.isEmpty then
      { url with rootless := u.rootless, host := [], path := {} }
    else
      { url with host := u.host }.withPath
        (resolvePath (u.path.spelling .path) (ref.path.spelling .path))

/-! ### Spelling a URL -/

def querySpelling (u : Url) : Bytes :=
  if u.forceQuery || !u.rawQuery.isEmpty then 63 :: u.rawQuery else []

/-- `URL.String`. -/
def string (u : Url) : Bytes :=
  let scheme := if u.scheme.isEmpty then [] else u.scheme ++ [58]
  let start :=
    if !u.rootless.isEmpty then scheme ++ u.rootless
    else
      let path := u.path.spelling .path
      let authority :=
        if (u.scheme.isEmpty && u.host.isEmpty) || (u.omitHost && u.host.isEmpty) then []
        else (if !u.host.isEmpty || !u.path.value.isEmpty then [47, 47] else []) ++ u.host
      let before := scheme ++ authority ++
        if !path.isEmpty && path.head? ≠ some 47 && !u.host.isEmpty then [47] else []
      -- a first element with a colon would read as a scheme
      let guarded := if before.isEmpty && (cut 47 path).1.contains 58 then [46, 47] else before
      guarded ++ path
  start ++ u.querySpelling ++
    if u.fragment.value.isEmpty then [] else 35 :: u.fragment.spelling .fragment

/-- `URL.RequestURI`. -/
def requestURI (u : Url) : Bytes :=
  let target :=
    if u.rootless.isEmpty then
      let path := u.path.spelling .path
      if path.isEmpty then [47] else path
    else if List.isPrefixOf [47, 47] u.rootless then u.scheme ++ 58 :: u.rootless
    else u.rootless
  target ++ u.querySpelling

/-! ### Query values -/

/-- One `key=value` of `parseQuery`. -/
def queryPair (part : Bytes) : Option (Bytes × Bytes) := do
  guard (!part.contains 59 && !part.isEmpty)
  let key ← unescape .queryComponent (cut 61 part).1
  let value ← unescape .queryComponent (cut 61 part).2
  some (key, value)

/-- `URL.Query`: the pairs that read, in their order. -/
def query (u : Url) : List (Bytes × Bytes) := (u.rawQuery.splitOn 38).filterMap queryPair

/-- `Values.Get`. -/
def get (values : List (Bytes × Bytes)) (key : Bytes) : Bytes :=
  ((values.find? fun v => v.1 == key).map Prod.snd).getD []

/-! ### Escaping and reading back -/

theorem byte_all {P : UInt8 → Bool} (h : ((List.range 256).all fun n => P (UInt8.ofNat n)) = true)
    (b : UInt8) : P b = true := by
  have hb := List.all_eq_true.mp h b.toNat (List.mem_range.mpr b.toNat_lt)
  rwa [UInt8.ofNat_toNat] at hb

theorem hexValue_upperHex {n : ℕ} (h : n < 16) : hexValue (upperHex n) = some n := by
  interval_cases n <;> rfl

theorem unescape_percent (mode : Mode) (b : UInt8) (rest : Bytes) :
    unescape mode (37 :: upperHex (b.toNat / 16) :: upperHex (b.toNat % 16) :: rest) =
      (unescape mode rest).map (b :: ·) := by
  have hb := b.toNat_lt
  have hhigh : hexValue (upperHex (b.toNat / 16)) = some (b.toNat / 16) :=
    hexValue_upperHex (by omega)
  have hlow : hexValue (upperHex (b.toNat % 16)) = some (b.toNat % 16) :=
    hexValue_upperHex (by omega)
  have hvalue : 16 * (b.toNat / 16) + b.toNat % 16 = b.toNat := by omega
  rw [unescape]
  simp only [beq_self_eq_true, if_true, hhigh, hlow, Option.bind_eq_bind, Option.bind_some, hvalue,
    UInt8.ofNat_toNat]
  cases unescape mode rest <;> rfl

theorem unescape_kept {mode : Mode} {b : UInt8} (hpercent : b ≠ 37)
    (hplus : mode = .queryComponent → b ≠ 43) (rest : Bytes) :
    unescape mode (b :: rest) = (unescape mode rest).map (b :: ·) := by
  have hkept : (if b == 43 && mode == .queryComponent then 32 else b) = b := by
    by_cases hmode : mode = .queryComponent
    · rw [beq_eq_false_iff_ne.mpr (hplus hmode)]
      rfl
    · rw [beq_eq_false_iff_ne.mpr hmode, Bool.and_false]
      rfl
  rw [unescape.eq_def]
  simp only [beq_eq_false_iff_ne.mpr hpercent, Bool.false_eq_true, if_false, hkept]
  cases unescape mode rest <;> rfl

theorem shouldEscape_percent (mode : Mode) : shouldEscape mode 37 = true := by
  cases mode <;> rfl

theorem unescape_escapeByte {mode written : Mode}
    (hmode : mode = .queryComponent ↔ written = .queryComponent) (b : UInt8) (rest : Bytes) :
    unescape mode (escapeByte written b ++ rest) = (unescape mode rest).map (b :: ·) := by
  unfold escapeByte
  split
  · split
    · rename_i hspace
      obtain ⟨rfl, hwritten⟩ := by simpa using hspace
      rw [hmode.mpr hwritten]
      show unescape .queryComponent (43 :: rest) = _
      rw [unescape.eq_def]
      simp only [show ((43 : UInt8) == 37) = false from rfl, Bool.false_eq_true, if_false]
      cases unescape .queryComponent rest <;> rfl
    · exact unescape_percent mode b rest
  · rename_i hkept
    apply unescape_kept
    · rintro rfl
      exact hkept (shouldEscape_percent written)
    · rintro hquery rfl
      rw [hmode.mp hquery] at hkept
      exact hkept rfl

theorem unescape_escape_append {mode written : Mode}
    (hmode : mode = .queryComponent ↔ written = .queryComponent) (bs rest : Bytes) :
    unescape mode (escape written bs ++ rest) = (unescape mode rest).map (bs ++ ·) := by
  induction bs with
  | nil => simp [escape]
  | cons b bs ih =>
    have hcons : escape written (b :: bs) = escapeByte written b ++ escape written bs := rfl
    rw [hcons, List.append_assoc, unescape_escapeByte hmode, ih, Option.map_map]
    rfl

theorem unescape_escape {mode written : Mode}
    (hmode : mode = .queryComponent ↔ written = .queryComponent) (bs : Bytes) :
    unescape mode (escape written bs) = some bs := by
  simpa [unescape] using unescape_escape_append hmode bs []

theorem unescape_plain {bs : Bytes} (h : 37 ∉ bs) (rest : Bytes) :
    unescape .path (bs ++ rest) = (unescape .path rest).map (bs ++ ·) := by
  induction bs with
  | nil => simp
  | cons b bs ih =>
    rw [List.mem_cons, not_or] at h
    have hmode : Mode.path = .queryComponent → b ≠ 43 := by
      intro h
      cases h
    rw [List.cons_append, unescape_kept (Ne.symm h.1) hmode, ih h.2, Option.map_map]
    rfl

/-! ### The bytes of a spelling -/

def segmentByte (b : UInt8) : Bool :=
  isLetter b || isDigit b || marks.contains b || [36, 38, 43, 58, 61, 64, 37].contains b

def inside (b : UInt8) : Bool := !isControl b && b != 35 && b != 63

theorem segmentByte_escapeByte (b : UInt8) : (escapeByte .pathSegment b).all segmentByte = true :=
  byte_all (P := fun b => (escapeByte .pathSegment b).all segmentByte) (by decide +kernel) b

theorem segmentByte_escape {bs : Bytes} : ∀ b ∈ escape .pathSegment bs, segmentByte b = true := by
  intro b hb
  obtain ⟨a, -, ha⟩ := List.mem_flatMap.mp hb
  exact List.all_eq_true.mp (segmentByte_escapeByte a) b ha

theorem segmentByte_inside {b : UInt8} (h : segmentByte b = true) :
    inside b = true ∧ b ≠ 47 := by
  have hall := byte_all (P := fun b => !segmentByte b || (inside b && b != 47)) (by decide +kernel) b
  simpa [h] using hall

theorem segmentByte_valid {b : UInt8} (h : segmentByte b = true) : validEncoded .path [b] = true := by
  have hall := byte_all (P := fun b => !segmentByte b || validEncoded .path [b]) (by decide +kernel) b
  simpa [h] using hall

/-! ### Cutting -/

theorem cut_at {sep : UInt8} {bs : Bytes} (h : sep ∉ bs) (rest : Bytes) :
    cut sep (bs ++ sep :: rest) = (bs, rest) := by
  have hall : ∀ b ∈ bs, (b != sep) = true := fun b hb => bne_iff_ne.mpr fun heq => h (heq ▸ hb)
  unfold cut
  rw [List.takeWhile_append_of_pos hall, List.dropWhile_append_of_pos hall]
  simp

theorem cut_none {sep : UInt8} {bs : Bytes} (h : sep ∉ bs) : cut sep bs = (bs, []) := by
  have hall : ∀ b ∈ bs, (b != sep) = true := fun b hb => bne_iff_ne.mpr fun heq => h (heq ▸ hb)
  unfold cut
  rw [List.takeWhile_eq_self_iff.mpr hall, List.dropWhile_eq_nil_iff.mpr hall]
  rfl

theorem splitQuery_at {path query : Bytes} (hpath : 63 ∉ path) (hquery : 63 ∉ query)
    (hsome : query ≠ []) : splitQuery (path ++ 63 :: query) = (path, false, query) := by
  have hlast : ¬((path ++ 63 :: query).getLast? = some 63 ∧ (path ++ 63 :: query).count 63 = 1) := by
    rintro ⟨hlast, -⟩
    have hmem : query.getLast? = some 63 := by
      rwa [List.getLast?_append_cons, List.getLast?_cons_of_ne_nil hsome] at hlast
    exact hquery (List.mem_of_getLast? hmem)
  unfold splitQuery
  rw [if_neg hlast, cut_at hpath]

/-! ### Reading paths -/

structure Spells (path value : Bytes) : Prop where
  rooted : path.head? = some 47
  single : List.isPrefixOf [47, 47] path = false
  bytes : ∀ b ∈ path, segmentByte b = true ∨ b = 47
  reads : unescape .path path = some value

structure Asks (query : Bytes) : Prop where
  nonempty : query ≠ []
  bytes : ∀ b ∈ query, inside b = true

theorem inside_ne {b : UInt8} (h : inside b = true) : isControl b = false ∧ b ≠ 35 ∧ b ≠ 63 := by
  simp only [inside, Bool.and_eq_true, Bool.not_eq_true', bne_iff_ne] at h
  exact ⟨h.1.1, h.1.2, h.2⟩

namespace Spells
variable {path value : Bytes} (h : Spells path value)
include h

theorem inside_bytes : ∀ b ∈ path, inside b = true := by
  intro b hb
  rcases h.bytes b hb with hsegment | rfl
  · exact (segmentByte_inside hsegment).1
  · rfl

theorem not_mem {b : UInt8} (hb : inside b = false) : b ∉ path := by
  intro hmem
  rw [h.inside_bytes b hmem] at hb
  cases hb

theorem valid : validEncoded .path path = true := by
  rw [validEncoded, List.all_eq_true]
  intro b hb
  rcases h.bytes b hb with hsegment | rfl
  · simpa [validEncoded] using segmentByte_valid hsegment
  · rfl

theorem nonempty : path ≠ [] := by
  rintro rfl
  cases h.rooted

theorem value_rooted : value.head? = some 47 := by
  obtain ⟨rest, rfl⟩ : ∃ rest, path = 47 :: rest := by
    cases hpath : path with
    | nil => exact absurd hpath h.nonempty
    | cons b rest =>
      have hroot := h.rooted
      rw [hpath] at hroot
      cases hroot
      exact ⟨rest, rfl⟩
  have hreads := h.reads
  rw [unescape_kept (by decide) (by decide)] at hreads
  obtain ⟨tail, -, rfl⟩ := Option.map_eq_some_iff.mp hreads
  rfl

theorem part : ∃ part : Part, Part.read .path path = some part ∧ part.value = value ∧
    part.spelling .path = path := by
  have hstar : (value == [42]) = false := by
    rw [beq_eq_false_iff_ne]
    rintro rfl
    cases h.value_rooted
  refine ⟨_, by rw [Part.read, h.reads]; rfl, rfl, ?_⟩
  unfold Part.spelling
  by_cases hdefault : path = escape .path value
  · simp only [if_pos hdefault, List.isEmpty_nil, Bool.not_true, Bool.false_and, Bool.false_eq_true,
      if_false, hstar, Bool.and_false]
    exact hdefault.symm
  · have hraw : path.isEmpty = false := List.isEmpty_eq_false_iff.mpr h.nonempty
    simp only [if_neg hdefault, hraw, h.valid, h.reads, Bool.not_false, Bool.true_and,
      beq_self_eq_true, if_true]

end Spells

/-! ### Reading requests -/

section Read
variable {path value query : Bytes}

theorem any_isControl {bs : Bytes} (h : ∀ b ∈ bs, inside b = true) : bs.any isControl = false := by
  rw [List.any_eq_false]
  intro b hb
  rw [(inside_ne (h b hb)).1]
  decide

theorem parseNoFragment_request (viaRequest : Bool) (h : Spells path value) (hquery : Asks query)
    {part : Part} (hpart : Part.read .path path = some part) :
    parseNoFragment viaRequest (path ++ 63 :: query) =
      some { path := part, rawQuery := query } := by
  have hcontrol : (path ++ 63 :: query).any isControl = false := by
    rw [List.any_append, List.any_cons, any_isControl h.inside_bytes, any_isControl hquery.bytes]
    rfl
  have hscheme : getScheme (path ++ 63 :: query) = some ([], path ++ 63 :: query) := by
    obtain ⟨rest, hrest⟩ := List.head?_eq_some_iff.mp h.rooted
    rw [hrest]
    rfl
  have hsplit : splitQuery (path ++ 63 :: query) = (path, false, query) :=
    splitQuery_at (h.not_mem rfl) (fun hb => absurd rfl (inside_ne (hquery.bytes 63 hb)).2.2)
      hquery.nonempty
  have hstar : path ++ 63 :: query ≠ [42] := by
    obtain ⟨rest, hrest⟩ := List.head?_eq_some_iff.mp h.rooted
    rw [hrest]
    simp
  have hauthority : splitAuthority viaRequest [] path = ([], path) := by
    unfold splitAuthority
    rw [h.single, Bool.and_false]
    rfl
  unfold parseNoFragment
  simp only [hcontrol, hscheme, hsplit, List.map_nil, hauthority, hpart, h.rooted, List.isEmpty_nil,
    if_neg hstar, Option.bind_eq_bind, Option.bind_some]
  simp

theorem parse_request (h : Spells path value) (hquery : Asks query) {part : Part}
    (hpart : Part.read .path path = some part) :
    parse (path ++ 63 :: query) = some { path := part, rawQuery := query } := by
  have hcut : cut 35 (path ++ 63 :: query) = (path ++ 63 :: query, []) := by
    apply cut_none
    rw [List.mem_append, List.mem_cons]
    rintro (hb | hb | hb)
    · exact h.not_mem rfl hb
    · cases hb
    · exact (inside_ne (hquery.bytes 35 hb)).2.1 rfl
  unfold parse
  rw [hcut, parseNoFragment_request false h hquery hpart]
  rfl

theorem parse_absolute (h : Spells path value) (hquery : Asks query) {part : Part} {host : Bytes}
    (hpart : Part.read .path path = some part)
    (hhost : ∀ b ∈ host, inside b = true ∧ b ≠ 47) :
    parse (text "https://" ++ host ++ path ++ 63 :: query) =
      some { scheme := text "https", host, path := part, rawQuery := query } := by
  have hall : ∀ b ∈ text "https://" ++ host ++ path, inside b = true := by
    intro b hb
    rw [List.mem_append, List.mem_append] at hb
    rcases hb with (hb | hb) | hb
    · exact List.all_eq_true.mp (show (text "https://").all inside = true by decide) b hb
    · exact (hhost b hb).1
    · exact h.inside_bytes b hb
  have hmem : ∀ b, inside b = false → b ∉ text "https://" ++ host ++ path := by
    intro b hb hmem
    rw [hall b hmem] at hb
    cases hb
  have hcut : cut 35 (text "https://" ++ host ++ path ++ 63 :: query) =
      (text "https://" ++ host ++ path ++ 63 :: query, []) := by
    apply cut_none
    rw [List.mem_append, List.mem_cons]
    rintro (hb | hb | hb)
    · exact hmem 35 rfl hb
    · cases hb
    · exact (inside_ne (hquery.bytes 35 hb)).2.1 rfl
  have hcontrol : (text "https://" ++ host ++ path ++ 63 :: query).any isControl = false := by
    rw [List.any_append, List.any_cons, any_isControl hall, any_isControl hquery.bytes]
    rfl
  have hscheme : getScheme (text "https://" ++ host ++ path ++ 63 :: query) =
      some (text "https", 47 :: 47 :: (host ++ path) ++ 63 :: query) := by
    have htext : text "https://" = [104, 116, 116, 112, 115, 58, 47, 47] := by decide
    rw [htext, show text "https" = [104, 116, 116, 112, 115] by decide]
    rfl
  have hsplit : splitQuery (47 :: 47 :: (host ++ path) ++ 63 :: query) =
      (47 :: 47 :: (host ++ path), false, query) := by
    refine splitQuery_at ?_ (fun hb => absurd rfl (inside_ne (hquery.bytes 63 hb)).2.2)
      hquery.nonempty
    intro hb
    rw [List.mem_cons, List.mem_cons, List.mem_append] at hb
    rcases hb with hb | hb | hb | hb
    · cases hb
    · cases hb
    · exact (inside_ne (hhost 63 hb).1).2.2 rfl
    · exact h.not_mem rfl hb
  have hauthority : splitAuthority false (text "https") (47 :: 47 :: (host ++ path)) =
      (host, path) := by
    obtain ⟨rest, hrest⟩ := List.head?_eq_some_iff.mp h.rooted
    have hne : ∀ b ∈ host, (b != 47) = true := fun b hb => bne_iff_ne.mpr (hhost b hb).2
    have hsome : (text "https").isEmpty = false := by decide
    unfold splitAuthority
    simp only [hsome, Bool.not_false, Bool.true_or, List.isPrefixOf, beq_self_eq_true,
      Bool.and_self, if_true, List.drop_succ_cons, List.drop_zero]
    rw [List.takeWhile_append_of_pos hne, List.dropWhile_append_of_pos hne, hrest]
    simp
  have hlower : (text "https").map lower = text "https" := by decide
  have hstar : text "https://" ++ host ++ path ++ 63 :: query ≠ [42] := by
    intro heq
    have hlength := congrArg List.length heq
    have htext : (text "https://").length = 8 := by decide
    simp only [List.length_append, List.length_cons, List.length_nil, htext] at hlength
    omega
  have hne : (text "https://" ++ host ++ path ++ 63 :: query).isEmpty = false := by
    simp
  unfold parse
  rw [hcut]
  unfold parseNoFragment
  simp only [hcontrol, hscheme, hsplit, hlower, hauthority, hpart, if_neg hstar, hne,
    Option.bind_eq_bind, Option.bind_some]
  simp

end Read

/-! ### Elements of a path -/

variable {elems : List Bytes}

theorem splitOn_segments (h : ∀ e ∈ elems, 47 ∉ e) (hsome : elems ≠ []) :
    (List.intercalate [47] elems).splitOn 47 = elems :=
  List.splitOn_intercalate 47 h hsome

def joined (elems : List Bytes) : Bytes := elems.flatMap (47 :: ·)

theorem resolve_plain (h : ∀ e ∈ elems, e ≠ dot ∧ e ≠ dotDot) (written : Bytes) :
    (elems.foldl resolveStep (written, false)) =
      (written ++ joined elems, false) := by
  induction elems generalizing written with
  | nil => simp [joined]
  | cons e elems ih =>
    obtain ⟨hdot, hdots⟩ := h e List.mem_cons_self
    have hstep : resolveStep (written, false) e = (written ++ 47 :: e, false) := by
      unfold resolveStep
      rw [if_neg hdot, if_neg hdots]
      simp
    rw [List.foldl_cons, hstep, ih fun e he => h e (List.mem_cons_of_mem _ he)]
    simp [joined]

theorem intercalate_rooted (elems : List Bytes) (hsome : elems ≠ []) :
    List.intercalate [47] ([] :: elems) = joined elems := by
  induction elems with
  | nil => exact absurd rfl hsome
  | cons e elems ih =>
    cases elems with
    | nil => simp [List.intercalate, joined]
    | cons e' elems =>
      have htail := ih (by simp)
      simp only [joined, List.intercalate, List.intersperse, List.flatten, List.flatMap_cons] at htail ⊢
      simp_all

theorem resolvePath_rooted {base path : Bytes} (h : path.head? = some 47) :
    resolvePath base path =
      closePath (path.splitOn 47).getLast? ((path.splitOn 47).foldl resolveStep ([47], true)).1 := by
  have hsome : path.isEmpty = false := by
    obtain ⟨rest, rfl⟩ := List.head?_eq_some_iff.mp h
    rfl
  unfold resolvePath
  simp only [hsome, Bool.false_eq_true, if_false, h, ne_eq, not_true_eq_false]

/-! ### From a reference to the request line -/

section Request
variable {u : Url} {path value path' value' query : Bytes} {part part' : Part}

theorem resolveReference_request (h : Spells path value) (hpart : part.value = value)
    (hspelling : part.spelling .path = path) (hresolved : resolvePath [] path = path')
    (hpart' : Part.read .path path' = some part') :
    u.resolveReference { path := part, rawQuery := query } =
      { scheme := u.scheme, host := u.host, path := part', rawQuery := query } := by
  have hsome : value.isEmpty = false := by
    obtain ⟨rest, hrest⟩ := List.head?_eq_some_iff.mp h.value_rooted
    rw [hrest]
    rfl
  have hbase : resolvePath (u.path.spelling .path) path = path' := by
    rw [← hresolved, resolvePath_rooted h.rooted, resolvePath_rooted h.rooted]
  unfold resolveReference
  simp only [List.isEmpty_nil, if_true, Bool.not_true, Bool.or_self, Bool.false_eq_true, if_false,
    hpart, hsome, Bool.false_and, hspelling, hbase]
  unfold withPath
  rw [hpart']

theorem string_request (hscheme : u.scheme = text "https") (hhost : u.host ≠ [])
    (h : Spells path value) (hspelling : part.spelling .path = path) (hquery : Asks query) :
    ({ scheme := u.scheme, host := u.host, path := part, rawQuery := query } : Url).string =
      text "https://" ++ u.host ++ path ++ 63 :: query := by
  have hscheme' : u.scheme.isEmpty = false := by
    rw [hscheme]
    decide
  have hhost' : u.host.isEmpty = false := List.isEmpty_eq_false_iff.mpr hhost
  have hquery' : query.isEmpty = false := List.isEmpty_eq_false_iff.mpr hquery.nonempty
  have htext : text "https://" = u.scheme ++ [58] ++ [47, 47] := by
    rw [hscheme]
    decide
  unfold string querySpelling
  rw [htext]
  simp only [List.isEmpty_nil, Bool.not_true, Bool.false_eq_true, if_false, hscheme', hhost', hquery',
    hspelling, h.rooted, Bool.and_false, Bool.not_false, Bool.true_or, if_true]
  simp

theorem requestURI_request (h : Spells path value) (hspelling : part.spelling .path = path)
    (hquery : Asks query) {scheme host : Bytes} :
    ({ scheme, host, path := part, rawQuery := query } : Url).requestURI = path ++ 63 :: query := by
  have hpath : path.isEmpty = false := List.isEmpty_eq_false_iff.mpr h.nonempty
  have hquery' : query.isEmpty = false := List.isEmpty_eq_false_iff.mpr hquery.nonempty
  unfold requestURI querySpelling
  simp only [List.isEmpty_nil, if_true, hspelling, hpath, hquery', Bool.false_eq_true, if_false,
    Bool.not_false, Bool.or_true]

end Request

/-! ### The authority of a URL that was read -/

theorem getSchemeAux_mem {whole read bs scheme rest : Bytes} (hbs : ∀ b ∈ bs, b ∈ whole)
    (h : getSchemeAux whole read bs = some (scheme, rest)) : ∀ b ∈ rest, b ∈ whole := by
  induction bs generalizing read with
  | nil =>
    cases h
    exact fun _ hb => hb
  | cons b bs ih =>
    have htail : ∀ b ∈ bs, b ∈ whole := fun b hb => hbs b (List.mem_cons_of_mem _ hb)
    unfold getSchemeAux at h
    split at h
    · exact ih htail h
    · split at h
      · split at h
        · cases h
          exact fun _ hb => hb
        · exact ih htail h
      · split at h
        · split at h
          · cases h
          · cases h
            exact htail
        · cases h
          exact fun _ hb => hb

theorem splitQuery_mem {rest : Bytes} : ∀ b ∈ (splitQuery rest).1, b ∈ rest ∧ b ≠ 63 := by
  intro b hb
  unfold splitQuery at hb
  split at hb
  · rename_i hend
    obtain ⟨kept, rfl⟩ := List.getLast?_eq_some_iff.mp hend.1
    rw [List.dropLast_concat] at hb
    refine ⟨List.mem_append_left _ hb, ?_⟩
    rintro rfl
    have hcount := hend.2
    have hpos : 0 < kept.count 63 := List.count_pos_iff.mpr hb
    rw [List.count_append, List.count_singleton_self] at hcount
    omega
  · have hne := List.mem_takeWhile_imp hb
    exact ⟨List.takeWhile_sublist _ |>.mem hb, bne_iff_ne.mp hne⟩

theorem splitAuthority_mem {viaRequest : Bool} {scheme rest : Bytes} :
    ∀ b ∈ (splitAuthority viaRequest scheme rest).1, b ∈ rest ∧ b ≠ 47 := by
  intro b hb
  unfold splitAuthority at hb
  split at hb
  · have hne := List.mem_takeWhile_imp hb
    exact ⟨List.mem_of_mem_drop (List.takeWhile_sublist _ |>.mem hb), bne_iff_ne.mp hne⟩
  · cases hb

theorem parseNoFragment_host {viaRequest : Bool} {bs : Bytes} {u : Url}
    (h : parseNoFragment viaRequest bs = some u) :
    ∀ b ∈ u.host, b ∈ bs ∧ isControl b = false ∧ b ≠ 63 ∧ b ≠ 47 := by
  unfold parseNoFragment at h
  obtain ⟨_, hcontrol, h⟩ := Option.bind_eq_some_iff.mp h
  obtain ⟨-, -, h⟩ := Option.bind_eq_some_iff.mp h
  split at h
  · cases h
    intro b hb
    cases hb
  · obtain ⟨⟨named, afterScheme⟩, hscheme, h⟩ := Option.bind_eq_some_iff.mp h
    simp only at h
    split at h
    · cases h
      intro b hb
      cases hb
    · obtain ⟨-, -, h⟩ := Option.bind_eq_some_iff.mp h
      obtain ⟨part, -, h⟩ := Option.bind_eq_some_iff.mp h
      cases h
      intro b hb
      obtain ⟨hrest, hslash⟩ := splitAuthority_mem b hb
      obtain ⟨hafter, hquestion⟩ := splitQuery_mem b hrest
      have hmem := getSchemeAux_mem (fun _ hb => hb) hscheme b hafter
      have hany : bs.any isControl = false := by
        by_contra hsome
        simp [hsome] at hcontrol
      exact ⟨hmem, by simpa using List.any_eq_false.mp hany b hmem, hquestion, hslash⟩

theorem parse_host {bs : Bytes} {u : Url} (h : parse bs = some u) :
    ∀ b ∈ u.host, inside b = true ∧ b ≠ 47 := by
  unfold parse at h
  obtain ⟨url, hurl, h⟩ := Option.bind_eq_some_iff.mp h
  have hhost : u.host = url.host := by
    split at h
    · cases h
      rfl
    · obtain ⟨fragment, -, h⟩ := Option.bind_eq_some_iff.mp h
      cases h
      rfl
  intro b hb
  obtain ⟨hmem, hcontrol, hquestion, hslash⟩ := parseNoFragment_host hurl b (hhost ▸ hb)
  have hcut : (b != 35) = true := List.mem_takeWhile_imp (p := (· != 35)) hmem
  have hhash : b ≠ 35 := bne_iff_ne.mp hcut
  simp [inside, hcontrol, hquestion, hslash, hhash]

/-! ### Query values -/

theorem escape_kept {mode : Mode} {bs : Bytes} (h : ∀ b ∈ bs, shouldEscape mode b = false) :
    escape mode bs = bs := by
  induction bs with
  | nil => rfl
  | cons b bs ih =>
    have hb : escapeByte mode b = [b] := by
      unfold escapeByte
      rw [h b List.mem_cons_self]
      rfl
    have hcons : escape mode (b :: bs) = escapeByte mode b ++ escape mode bs := rfl
    rw [hcons, hb, ih fun b hb => h b (List.mem_cons_of_mem _ hb)]
    rfl

def pairText (pair : Bytes × Bytes) : Bytes :=
  escape .queryComponent pair.1 ++ 61 :: escape .queryComponent pair.2

def queryText (pairs : List (Bytes × Bytes)) : Bytes := List.intercalate [38] (pairs.map pairText)

theorem escape_query_bytes {bs : Bytes} :
    ∀ b ∈ escape .queryComponent bs, inside b = true ∧ b ≠ 38 ∧ b ≠ 59 ∧ b ≠ 61 := by
  intro b hb
  obtain ⟨a, -, ha⟩ := List.mem_flatMap.mp hb
  have hall := byte_all
    (P := fun a => (escapeByte .queryComponent a).all fun b => inside b && b != 38 && b != 59 && b != 61)
    (by decide +kernel) a
  simpa [and_assoc] using List.all_eq_true.mp hall b ha

theorem pairText_bytes {pair : Bytes × Bytes} :
    ∀ b ∈ pairText pair, inside b = true ∧ b ≠ 38 ∧ b ≠ 59 := by
  intro b hb
  rw [pairText, List.mem_append, List.mem_cons] at hb
  rcases hb with hb | rfl | hb
  · obtain ⟨hinside, hamp, hsemi, -⟩ := escape_query_bytes b hb
    exact ⟨hinside, hamp, hsemi⟩
  · exact ⟨rfl, by decide, by decide⟩
  · obtain ⟨hinside, hamp, hsemi, -⟩ := escape_query_bytes b hb
    exact ⟨hinside, hamp, hsemi⟩

theorem queryPair_pairText (pair : Bytes × Bytes) : queryPair (pairText pair) = some pair := by
  have hsemi : (pairText pair).contains 59 = false := by
    rw [← Bool.not_eq_true, List.contains_iff_mem]
    exact fun hb => (pairText_bytes 59 hb).2.2 rfl
  have hsome : (pairText pair).isEmpty = false := by simp [pairText]
  have hcut : cut 61 (pairText pair) =
      (escape .queryComponent pair.1, escape .queryComponent pair.2) :=
    cut_at (fun hb => (escape_query_bytes 61 hb).2.2.2 rfl) _
  unfold queryPair
  rw [hsemi, hsome, hcut]
  simp [unescape_escape]

theorem query_queryText {pairs : List (Bytes × Bytes)} (hsome : pairs ≠ []) {u : Url}
    (hquery : u.rawQuery = queryText pairs) : u.query = pairs := by
  have hsplit : (queryText pairs).splitOn 38 = pairs.map pairText := by
    apply List.splitOn_intercalate
    · intro e he
      obtain ⟨pair, -, rfl⟩ := List.mem_map.mp he
      exact fun hb => (pairText_bytes 38 hb).2.1 rfl
    · simpa using hsome
  have hpair : queryPair ∘ pairText = some := funext queryPair_pairText
  rw [query, hquery, hsplit, List.filterMap_map, hpair, List.filterMap_some]

theorem asks_queryText {pairs : List (Bytes × Bytes)} (hsome : pairs ≠ []) :
    Asks (queryText pairs) := by
  have hbytes : ∀ pairs : List (Bytes × Bytes), ∀ b ∈ queryText pairs, inside b = true := by
    intro pairs
    induction pairs with
    | nil =>
      intro b hb
      cases hb
    | cons pair pairs ih =>
      cases pairs with
      | nil =>
        intro b hb
        have hb' : b ∈ pairText pair := by simpa [queryText, List.intercalate] using hb
        exact (pairText_bytes b hb').1
      | cons pair' pairs =>
        intro b hb
        have hcons : queryText (pair :: pair' :: pairs) =
            pairText pair ++ 38 :: queryText (pair' :: pairs) := by
          simp [queryText, List.intercalate]
        rw [hcons, List.mem_append, List.mem_cons] at hb
        rcases hb with hb | rfl | hb
        · exact (pairText_bytes b hb).1
        · rfl
        · exact ih b hb
  refine ⟨?_, hbytes pairs⟩
  cases pairs with
  | nil => exact absurd rfl hsome
  | cons pair pairs =>
    cases pairs with
    | nil | cons => simp [queryText, List.intercalate, pairText]

/-! ### Paths made of elements -/

theorem escape_injective {a b : Bytes} (h : escape .pathSegment a = escape .pathSegment b) :
    a = b := by
  have ha : unescape .path (escape .pathSegment a) = some a := unescape_escape (by decide) a
  rw [h, unescape_escape (by decide) b] at ha
  exact (Option.some.inj ha).symm

theorem escape_ne_dots {e : Bytes} (hdot : e ≠ dot) (hdots : e ≠ dotDot) :
    escape .pathSegment e ≠ dot ∧ escape .pathSegment e ≠ dotDot :=
  ⟨fun h => hdot (escape_injective h), fun h => hdots (escape_injective h)⟩

theorem escape_no_slash (e : Bytes) : 47 ∉ escape .pathSegment e :=
  fun hb => (segmentByte_inside (segmentByte_escape 47 hb)).2 rfl

theorem escaped_plain (h : ∀ e ∈ elems, e ≠ dot ∧ e ≠ dotDot) :
    ∀ e ∈ elems.map (escape .pathSegment), e ≠ dot ∧ e ≠ dotDot := by
  intro e he
  obtain ⟨a, ha, rfl⟩ := List.mem_map.mp he
  exact escape_ne_dots (h a ha).1 (h a ha).2

theorem escaped_no_slash (elems : List Bytes) : ∀ e ∈ elems.map (escape .pathSegment), 47 ∉ e := by
  intro e he
  obtain ⟨a, -, rfl⟩ := List.mem_map.mp he
  exact escape_no_slash a

theorem unescape_joined (elems : List Bytes) :
    unescape .path (joined (elems.map (escape .pathSegment))) = some (joined elems) := by
  induction elems with
  | nil => rfl
  | cons e elems ih =>
    have hcons : joined ((e :: elems).map (escape .pathSegment)) =
        [47] ++ (escape .pathSegment e ++ joined (elems.map (escape .pathSegment))) := rfl
    rw [hcons, unescape_plain (by decide), unescape_escape_append (by decide), ih]
    rfl

theorem spells_joined (hsome : elems ≠ []) (hfirst : elems.head? ≠ some []) :
    Spells (joined (elems.map (escape .pathSegment))) (joined elems) where
  rooted := by
    cases elems with
    | nil => exact absurd rfl hsome
    | cons => rfl
  single := by
    cases elems with
    | nil => exact absurd rfl hsome
    | cons e =>
      cases e with
      | nil => exact absurd rfl hfirst
      | cons b e =>
        have hbyte : ∀ c ∈ (escapeByte .pathSegment b).head?, c ≠ 47 := by
          intro c hc
          have hmem : c ∈ escape .pathSegment [b] := by
            simpa [escape] using List.mem_of_mem_head? hc
          exact (segmentByte_inside (segmentByte_escape c hmem)).2
        have hhead : ∃ c rest, escapeByte .pathSegment b = c :: rest := by
          unfold escapeByte
          split
          · split
            · exact ⟨_, _, rfl⟩
            · exact ⟨_, _, rfl⟩
          · exact ⟨_, _, rfl⟩
        obtain ⟨c, rest, hc⟩ := hhead
        rw [hc] at hbyte
        have hne : c ≠ 47 := hbyte c rfl
        simp [joined, escape, hc, List.isPrefixOf, Ne.symm hne]
  bytes := by
    intro b hb
    obtain ⟨e, he, hb⟩ := List.mem_flatMap.mp hb
    obtain ⟨e, -, rfl⟩ := List.mem_map.mp he
    rcases List.mem_cons.mp hb with rfl | hb
    · exact .inr rfl
    · exact .inl (segmentByte_escape b hb)
  reads := unescape_joined elems

theorem splitOn_joined (hslash : ∀ e ∈ elems, 47 ∉ e) (hsome : elems ≠ []) : (joined elems).splitOn
    47 = [] :: elems := by
  rw [← intercalate_rooted elems hsome]
  apply splitOn_segments
  · rintro e (_ | ⟨_, he⟩)
    · simp
    · exact hslash e he
  · simp

theorem joined_rooted (hsome : elems ≠ []) : (joined elems).head? = some 47 := by
  cases elems with
  | nil => exact absurd rfl hsome
  | cons => rfl

theorem resolvePath_joined {base : Bytes} {elems kept : List Bytes} (hsome : kept ≠ [])
    (hslash : ∀ e ∈ elems, 47 ∉ e) (hne : elems ≠ [])
    (hlast : elems.getLast? ≠ some dot ∧ elems.getLast? ≠ some dotDot)
    (hfold : elems.foldl resolveStep ([47], false) = (47 :: joined kept, false)) :
    resolvePath base (joined elems) = joined kept := by
  have hfirst : resolveStep ([47], true) [] = ([47], false) := rfl
  rw [resolvePath_rooted (joined_rooted hne), splitOn_joined hslash hne, List.foldl_cons, hfirst,
    hfold]
  unfold closePath
  rw [List.getLast?_cons_of_ne_nil hne, if_neg (not_or.mpr hlast), List.append_nil]
  simp only [List.tail_cons, joined_rooted hsome, if_true]

theorem beforeLast_at {sep : UInt8} {e : Bytes} (h : sep ∉ e) (written : Bytes) :
    beforeLast sep (written ++ sep :: e) = some written := by
  have hall : ∀ b ∈ e.reverse, (b != sep) = true :=
    fun b hb => bne_iff_ne.mpr fun heq => h (heq ▸ List.mem_reverse.mp hb)
  have hmem : (written ++ sep :: e).contains sep = true := by simp
  unfold beforeLast
  rw [if_pos hmem, List.reverse_append, List.reverse_cons, List.append_assoc,
    List.dropWhile_append_of_pos hall]
  simp

section Dots
variable {base : Bytes} {before after : List Bytes}

theorem getLast?_plain {elems : List Bytes} (h : ∀ e ∈ elems, e ≠ dot ∧ e ≠ dotDot) :
    elems.getLast? ≠ some dot ∧ elems.getLast? ≠ some dotDot :=
  ⟨fun hlast => (h _ (List.mem_of_getLast? hlast)).1 rfl,
    fun hlast => (h _ (List.mem_of_getLast? hlast)).2 rfl⟩

theorem resolvePath_plain {elems : List Bytes} (hslash : ∀ e ∈ elems, 47 ∉ e)
    (hdots : ∀ e ∈ elems, e ≠ dot ∧ e ≠ dotDot) (hsome : elems ≠ []) :
    resolvePath base (joined elems) = joined elems := by
  refine resolvePath_joined hsome hslash hsome (getLast?_plain hdots) ?_
  rw [resolve_plain hdots]
  rfl

theorem resolvePath_dot (hslash : ∀ e ∈ before ++ after, 47 ∉ e)
    (hdots : ∀ e ∈ before ++ after, e ≠ dot ∧ e ≠ dotDot) (hafter : after ≠ []) :
    resolvePath base (joined (before ++ dot :: after)) = joined (before ++ after) := by
  refine resolvePath_joined (by simp [hafter]) ?_ (by simp) ?_ ?_
  · intro e he
    rcases List.mem_append.mp he with he | he
    · exact hslash e (List.mem_append_left _ he)
    · rcases List.mem_cons.mp he with rfl | he
      · decide
      · exact hslash e (List.mem_append_right _ he)
  · rw [List.getLast?_append_cons, List.getLast?_cons_of_ne_nil hafter]
    exact getLast?_plain fun e he => hdots e (List.mem_append_right _ he)
  · have hstep : resolveStep ([47] ++ joined before, false) dot =
        ([47] ++ joined before, false) := rfl
    rw [List.foldl_append, resolve_plain fun e he => hdots e (List.mem_append_left _ he),
      List.foldl_cons, hstep, resolve_plain fun e he => hdots e (List.mem_append_right _ he)]
    simp [joined]

theorem resolvePath_dotDot {parent : Bytes} (hslash : ∀ e ∈ before ++ parent :: after, 47 ∉ e)
    (hdots : ∀ e ∈ before ++ parent :: after, e ≠ dot ∧ e ≠ dotDot) (hafter : after ≠ []) :
    resolvePath base (joined (before ++ parent :: dotDot :: after)) = joined (before ++ after) := by
  have hmem : ∀ e ∈ after, e ∈ before ++ parent :: after := fun e he => by simp [he]
  refine resolvePath_joined (by simp [hafter]) ?_ (by simp) ?_ ?_
  · intro e he
    rcases List.mem_append.mp he with he | he
    · exact hslash e (List.mem_append_left _ he)
    · rcases List.mem_cons.mp he with rfl | he
      · exact hslash e (by simp)
      · rcases List.mem_cons.mp he with rfl | he
        · decide
        · exact hslash e (hmem e he)
  · rw [List.getLast?_append_cons, List.getLast?_cons_of_ne_nil (by simp),
      List.getLast?_cons_of_ne_nil hafter]
    exact getLast?_plain fun e he => hdots e (hmem e he)
  · have hparent : resolveStep ([47] ++ joined before, false) parent =
        (47 :: (joined before ++ 47 :: parent), false) := by
      obtain ⟨hdot, hdotDot⟩ := hdots parent (by simp)
      unfold resolveStep
      rw [if_neg hdot, if_neg hdotDot]
      simp
    have hstep : resolveStep (47 :: (joined before ++ 47 :: parent), false) dotDot =
        (47 :: joined before, false) := by
      unfold resolveStep
      rw [if_neg (by decide), if_pos rfl, List.tail_cons, beforeLast_at (hslash parent (by simp))]
    rw [List.foldl_append, resolve_plain fun e he => hdots e (List.mem_append_left _ he),
      List.foldl_cons, hparent, List.foldl_cons, hstep,
      resolve_plain fun e he => hdots e (hmem e he)]
    simp [joined]

end Dots

end Url

end Snagline.Kit
