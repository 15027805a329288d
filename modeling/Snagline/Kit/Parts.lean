import Snagline.Kit.Marshal
import Snagline.Kit.Url

/-!
# Lists of parts

A list of byte strings is written as one: each part with its length in front. The list can be
read back as soon as a length is told from what follows it.
-/

namespace Snagline.Kit

section
variable {α : Type} {head : ℕ → List α} {P : ℕ → Prop}

/-- Among the lengths in `P`, the length in front determines itself. -/
structure SelfDelimiting (head : ℕ → List α) (P : ℕ → Prop) : Prop where
  nonempty : ∀ n, head n ≠ []
  read : ∀ m n x y, P m → P n → head m ++ x = head n ++ y → m = n

theorem SelfDelimiting.parts_injective (h : SelfDelimiting head P) {as bs : List (List α)}
    (has : ∀ a ∈ as, P a.length) (hbs : ∀ b ∈ bs, P b.length)
    (heq : as.flatMap (fun a => head a.length ++ a) = bs.flatMap fun b => head b.length ++ b) :
    as = bs := by
  induction as generalizing bs with
  | nil =>
    cases bs with
    | nil => rfl
    | cons b bs => simp [h.nonempty] at heq
  | cons a as ih =>
    cases bs with
    | nil => simp [h.nonempty] at heq
    | cons b bs =>
      simp only [List.flatMap_cons, List.append_assoc] at heq
      simp only [List.forall_mem_cons] at has hbs
      have hlength := h.read _ _ _ _ has.1 hbs.1 heq
      rw [hlength] at heq
      obtain ⟨rfl, hrest⟩ := List.append_inj (List.append_cancel_left heq) hlength
      rw [ih has.2 hbs.2 hrest]

end

theorem first_mark {b : UInt8} {x y s t : Bytes} (hx : b ∉ x) (hy : b ∉ y)
    (h : x ++ b :: s = y ++ b :: t) : x = y ∧ s = t := by
  have hcut := congrArg (Url.cut b) h
  rw [Url.cut_at hx, Url.cut_at hy] at hcut
  exact Prod.mk.inj hcut

/-! ### Words and numerals -/

theorem bigEndian64_injective {m n : ℕ} (hm : m < 2 ^ 64) (hn : n < 2 ^ 64)
    (h : bigEndian64 m = bigEndian64 n) : m = n := by
  have hbyte : ∀ a b : ℕ, UInt8.ofNat (a % 256) = UInt8.ofNat (b % 256) → a % 256 = b % 256 := by
    intro a b hab
    have hnat := congrArg UInt8.toNat hab
    rwa [UInt8.toNat_ofNat_of_lt' (Nat.mod_lt a (by decide)),
      UInt8.toNat_ofNat_of_lt' (Nat.mod_lt b (by decide))] at hnat
  unfold bigEndian64 at h
  simp only [List.map_cons, List.map_nil, List.cons.injEq, and_true] at h
  obtain ⟨h7, h6, h5, h4, h3, h2, h1, h0⟩ := h
  have d7 := hbyte _ _ h7
  have d6 := hbyte _ _ h6
  have d5 := hbyte _ _ h5
  have d4 := hbyte _ _ h4
  have d3 := hbyte _ _ h3
  have d2 := hbyte _ _ h2
  have d1 := hbyte _ _ h1
  have d0 := hbyte _ _ h0
  omega

theorem bigEndian64_delimits : SelfDelimiting bigEndian64 (· < 2 ^ 64) where
  nonempty _ := List.cons_ne_nil _ _
  read _ _ _ _ hm hn h := bigEndian64_injective hm hn (List.append_inj h rfl).1

theorem decimalNat_injective {m n : ℕ} (h : decimalNat m = decimalNat n) : m = n := by
  rw [← Json.digitsValue_decimalNat m, h, Json.digitsValue_decimalNat]

theorem decimalNat_no {b : UInt8} (hb : isDigit b = false) (n : ℕ) : b ∉ decimalNat n := by
  intro hmem
  rw [(Json.decimalNat_digits n).all b hmem] at hb
  cases hb

theorem decimalColon_delimits : SelfDelimiting (fun n => decimalNat n ++ [58]) fun _ => True where
  nonempty n := by simp
  read m n x y _ _ h := by
    simp only [List.append_assoc, List.singleton_append] at h
    have hcolon := decimalNat_no (b := 58) (by decide)
    exact decimalNat_injective (first_mark (hcolon m) (hcolon n) h).1

theorem decimal_injective {m n : ℤ} (h : decimal m = decimal n) : m = n := by
  have hminus : ∀ (k : ℕ) s, decimalNat k ≠ 45 :: s := by
    intro k s hk
    exact decimalNat_no (b := 45) (by decide) k (hk ▸ List.mem_cons_self)
  unfold decimal at h
  split at h <;> split at h
  · have habs := decimalNat_injective (List.cons.inj h).2
    omega
  · exact absurd h.symm (hminus _ _)
  · exact absurd h (hminus _ _)
  · have habs := decimalNat_injective h
    omega

/-! ### Hexadecimal -/

theorem hexDigit_injective : ∀ m < 16, ∀ n < 16, hexDigit m = hexDigit n → m = n := by decide

theorem hexEncode_injective {as bs : Bytes} (h : hexEncode as = hexEncode bs) : as = bs := by
  induction as generalizing bs with
  | nil =>
    cases bs with
    | nil => rfl
    | cons b bs => cases h
  | cons a as ih =>
    cases bs with
    | nil => cases h
    | cons b bs =>
      obtain ⟨hhigh, hlow, hrest⟩ : hexDigit (a.toNat / 16) = hexDigit (b.toNat / 16) ∧
          hexDigit (a.toNat % 16) = hexDigit (b.toNat % 16) ∧ hexEncode as = hexEncode bs := by
        simpa [hexEncode] using h
      have ha := a.toNat_lt
      have hb := b.toNat_lt
      have hhigh := hexDigit_injective _ (by omega) _ (by omega) hhigh
      have hlow := hexDigit_injective _ (by omega) _ (by omega) hlow
      rw [ih hrest, UInt8.toNat_inj.mp (by omega : a.toNat = b.toNat)]

theorem hexEncode_no {b : UInt8} (hb : ∀ n < 16, hexDigit n ≠ b) (bs : Bytes) :
    b ∉ hexEncode bs := by
  intro hmem
  obtain ⟨a, -, ha⟩ := List.mem_flatMap.mp hmem
  have hhigh : a.toNat / 16 < 16 := by have := a.toNat_lt; omega
  rcases List.mem_cons.mp ha with rfl | ha
  · exact hb _ hhigh rfl
  · exact hb _ (Nat.mod_lt _ (by decide)) (List.mem_singleton.mp ha).symm

end Snagline.Kit
