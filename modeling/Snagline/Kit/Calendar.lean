import Snagline.Kit.Bytes

/-!
# Civil dates and RFC 3339 texts

Days are counted from 1 March of the year 0 of the proleptic Gregorian calendar, and months
with them, so that a leap day is the last of its year. The texts of two instants compare byte
by byte as the instants do down to the second; below it the trailing zeros of the fraction are
left out, and a text compares by where it ends.
-/

namespace Snagline.Kit.Calendar

/-! ### Days, months, years -/

def yearStart (y : ℤ) : ℤ := 365 * y + y / 4 - y / 100 + y / 400
def monthStart (k : ℤ) : ℤ := yearStart (k / 12) + (153 * (k % 12) + 2) / 5

variable (n : ℤ)

/-- The year of a day: its era of 400 years, the century, the group of four. The last century
and the last year of a group have the leap day more. -/
def yearOf : ℤ :=
  let century := min (n % 146097 / 36524) 3
  let r := n % 146097 - 36524 * century
  400 * (n / 146097) + 100 * century + 4 * (r / 1461) + min (r % 1461 / 365) 3

def monthOf : ℤ := 12 * yearOf n + (5 * (n - yearStart (yearOf n)) + 2) / 153

theorem yearStart_split {era century q y : ℤ} (hc : 0 ≤ century ∧ century ≤ 3)
    (hq : 0 ≤ q ∧ q ≤ 24) (hy : 0 ≤ y ∧ y ≤ 3) :
    yearStart (400 * era + 100 * century + 4 * q + y) =
      146097 * era + 36524 * century + 1461 * q + 365 * y := by
  unfold yearStart
  omega

theorem yearStart_yearOf : yearStart (yearOf n) ≤ n ∧ n < yearStart (yearOf n + 1) := by
  obtain ⟨era, hera⟩ : ∃ era, n / 146097 = era := ⟨_, rfl⟩
  obtain ⟨century, hcentury⟩ : ∃ century, min (n % 146097 / 36524) 3 = century := ⟨_, rfl⟩
  obtain ⟨q, hq⟩ : ∃ q, (n % 146097 - 36524 * century) / 1461 = q := ⟨_, rfl⟩
  obtain ⟨y, hy⟩ : ∃ y, min ((n % 146097 - 36524 * century) % 1461 / 365) 3 = y := ⟨_, rfl⟩
  have hyear : yearOf n = 400 * era + 100 * century + 4 * q + y := by
    simp only [yearOf, hera, hcentury, hq, hy]
  have hc : 0 ≤ century ∧ century ≤ 3 := by omega
  have hq' : 0 ≤ q ∧ q ≤ 24 := by omega
  have hy' : 0 ≤ y ∧ y ≤ 3 := by omega
  rw [hyear, yearStart_split hc hq' hy']
  refine ⟨by omega, ?_⟩
  -- the next year is in the same group, the next group, the next century or the next era
  by_cases hlast : y < 3
  · rw [show 400 * era + 100 * century + 4 * q + y + 1 =
      400 * era + 100 * century + 4 * q + (y + 1) by ring, yearStart_split hc hq' (by omega)]
    omega
  by_cases hgroup : q < 24
  · rw [show 400 * era + 100 * century + 4 * q + y + 1 =
      400 * era + 100 * century + 4 * (q + 1) + 0 by omega, yearStart_split hc (by omega) (by omega)]
    omega
  by_cases hhundred : century < 3
  · rw [show 400 * era + 100 * century + 4 * q + y + 1 =
      400 * era + 100 * (century + 1) + 4 * 0 + 0 by omega,
      yearStart_split (by omega) (by omega) (by omega)]
    omega
  · rw [show 400 * era + 100 * century + 4 * q + y + 1 =
      400 * (era + 1) + 100 * 0 + 4 * 0 + 0 by omega,
      yearStart_split (by omega) (by omega) (by omega)]
    omega

theorem monthStart_monthOf : monthStart (monthOf n) ≤ n ∧ n < monthStart (monthOf n + 1) := by
  obtain ⟨hle, hlt⟩ := yearStart_yearOf n
  unfold monthOf monthStart
  generalize yearOf n = y at *
  obtain ⟨m, hm⟩ : ∃ m, (5 * (n - yearStart y) + 2) / 153 = m := ⟨_, rfl⟩
  have hlong : yearStart (y + 1) ≤ yearStart y + 366 := by
    unfold yearStart
    omega
  rw [hm, show (12 * y + m) / 12 = y by omega, show (12 * y + m) % 12 = m by omega]
  refine ⟨by omega, ?_⟩
  by_cases hlast : m = 11
  · rw [show (12 * y + m + 1) / 12 = y + 1 by omega]
    omega
  · rw [show (12 * y + m + 1) / 12 = y by omega, show (12 * y + m + 1) % 12 = m + 1 by omega]
    omega

theorem monthStart_strictMono : StrictMono monthStart := by
  refine strictMono_int_of_lt_succ fun k => ?_
  unfold monthStart yearStart
  omega

theorem monthOf_mono {n m : ℤ} (h : n ≤ m) : monthOf n ≤ monthOf m := by
  obtain ⟨hle, -⟩ := monthStart_monthOf n
  obtain ⟨-, hlt⟩ := monthStart_monthOf m
  have hk : monthOf n < monthOf m + 1 := monthStart_strictMono.lt_iff_lt.mp (by omega)
  omega

def year : ℤ := (monthOf n + 2) / 12
def month : ℤ := (monthOf n + 2) % 12 + 1
def day : ℤ := n - monthStart (monthOf n) + 1

theorem month_bounds : 1 ≤ month n ∧ month n ≤ 12 := by
  unfold month
  omega

theorem monthStart_succ_le (k : ℤ) : monthStart (k + 1) ≤ monthStart k + 31 := by
  unfold monthStart
  by_cases hlast : k % 12 = 11
  · have hlong : yearStart (k / 12 + 1) ≤ yearStart (k / 12) + 366 := by
      unfold yearStart
      omega
    rw [show (k + 1) / 12 = k / 12 + 1 by omega]
    omega
  · rw [show (k + 1) / 12 = k / 12 by omega, show (k + 1) % 12 = k % 12 + 1 by omega]
    omega

theorem day_bounds : 1 ≤ day n ∧ day n ≤ 31 := by
  obtain ⟨hle, hlt⟩ := monthStart_monthOf n
  have hlong := monthStart_succ_le (monthOf n)
  unfold day
  omega

theorem date_lt {n m : ℤ} (h : n < m) :
    year n < year m ∨ year n = year m ∧
      (month n < month m ∨ month n = month m ∧ day n < day m) := by
  have hmono := monthOf_mono h.le
  unfold year month day
  by_cases hsame : monthOf n = monthOf m
  · rw [hsame]
    omega
  · omega

/-! ### Order of texts -/

theorem append_lt_append {a b x y : Bytes} (hlen : a.length = b.length)
    (h : a < b ∨ a = b ∧ x < y) : a ++ x < b ++ y := by
  induction a generalizing b with
  | nil =>
    have hb : b = [] := List.length_eq_zero_iff.mp hlen.symm
    subst hb
    rcases h with h | ⟨-, h⟩
    · exact absurd h (List.not_lt_nil _)
    · exact h
  | cons p a ih =>
    cases b with
    | nil => cases hlen
    | cons q b =>
      have hlen' : a.length = b.length := Nat.succ.inj hlen
      rw [List.cons_append, List.cons_append, List.cons_lt_cons_iff]
      rcases h with h | ⟨h, hxy⟩
      · rcases List.cons_lt_cons_iff.mp h with hpq | ⟨hpq, hab⟩
        · exact .inl hpq
        · exact .inr ⟨hpq, ih hlen' (.inl hab)⟩
      · injection h with hpq hab
        exact .inr ⟨hpq, ih hlen' (.inr ⟨hab, hxy⟩)⟩

theorem separated_lt {sep : UInt8} {x y : Bytes} (h : x < y) : sep :: x < sep :: y :=
  List.cons_lt_cons_iff.mpr (.inr ⟨rfl, h⟩)

/-- The decimal digits of `n`, the last `w` of them. -/
def padded : ℕ → ℕ → Bytes
  | 0, _ => []
  | w + 1, n => padded w (n / 10) ++ [UInt8.ofNat (48 + n % 10)]

theorem padded_length (w n : ℕ) : (padded w n).length = w := by
  induction w generalizing n with
  | zero => rfl
  | succ w ih => simp [padded, ih]

theorem digit_lt {n m : ℕ} (hn : n < 10) (hm : m < 10) (h : n < m) :
    UInt8.ofNat (48 + n) < UInt8.ofNat (48 + m) := by
  rw [UInt8.lt_iff_toNat_lt, UInt8.toNat_ofNat', UInt8.toNat_ofNat']
  omega

theorem padded_digits (w n : ℕ) : ∀ b ∈ padded w n, 48 ≤ b ∧ b < 90 := by
  induction w generalizing n with
  | zero => simp [padded]
  | succ w ih =>
    intro b hb
    rcases List.mem_append.mp hb with hb | hb
    · exact ih _ b hb
    · rw [List.mem_singleton.mp hb, UInt8.le_iff_toNat_le, UInt8.lt_iff_toNat_lt,
        UInt8.toNat_ofNat']
      have hten : n % 10 < 10 := Nat.mod_lt _ (by decide)
      have hsmall : (48 + n % 10) % 2 ^ 8 = 48 + n % 10 := Nat.mod_eq_of_lt (by omega)
      rw [hsmall]
      exact ⟨Nat.le_add_right 48 _, show 48 + n % 10 < 90 by omega⟩

theorem padded_lt {w n m : ℕ} (hm : m < 10 ^ w) (h : n < m) : padded w n < padded w m := by
  induction w generalizing n m with
  | zero => omega
  | succ w ih =>
    have hten : ∀ k : ℕ, k % 10 < 10 := fun k => Nat.mod_lt k (by decide)
    refine append_lt_append (by rw [padded_length, padded_length]) ?_
    rw [pow_succ] at hm
    by_cases hhead : n / 10 < m / 10
    · exact .inl (ih (by omega) hhead)
    · have hsame : n / 10 = m / 10 := by omega
      refine .inr ⟨by rw [hsame], ?_⟩
      exact List.cons_lt_cons_iff.mpr (.inl (digit_lt (hten n) (hten m) (by omega)))

theorem padded_append_lt {w n m : ℕ} {x y : Bytes} (hm : m < 10 ^ w)
    (h : n < m ∨ n = m ∧ x < y) : padded w n ++ x < padded w m ++ y := by
  refine append_lt_append (by rw [padded_length, padded_length]) ?_
  rcases h with h | ⟨rfl, h⟩
  · exact .inl (padded_lt hm h)
  · exact .inr ⟨rfl, h⟩

/-! ### Fractions -/

def trimZeros : Bytes → Bytes
  | [] => []
  | b :: bs =>
    match trimZeros bs with
    | [] => if b = 48 then [] else [b]
    | d :: ds => b :: d :: ds

theorem trimZeros_cons (b : UInt8) (bs : Bytes) :
    trimZeros (b :: bs) = if trimZeros bs = [] ∧ b = 48 then [] else b :: trimZeros bs := by
  cases h : trimZeros bs with
  | nil | cons => simp [trimZeros, h]

theorem trimZeros_subset (bs : Bytes) : ∀ b ∈ trimZeros bs, b ∈ bs := by
  induction bs with
  | nil => simp [trimZeros]
  | cons x bs ih =>
    intro b hb
    rw [trimZeros_cons] at hb
    split at hb
    · cases hb
    · rcases List.mem_cons.mp hb with rfl | hb
      · exact List.mem_cons_self
      · exact List.mem_cons_of_mem _ (ih b hb)

theorem trimZeros_lt {p q : Bytes} (hlen : p.length = q.length) (hp : ∀ b ∈ p, 48 ≤ b)
    (h : p < q) : trimZeros p < trimZeros q := by
  induction p generalizing q with
  | nil =>
    cases q with
    | nil => exact absurd h (List.not_lt_nil _)
    | cons y q => cases hlen
  | cons x p ih =>
    cases q with
    | nil => cases hlen
    | cons y q =>
      rcases List.cons_lt_cons_iff.mp h with hxy | ⟨rfl, hpq⟩
      · have hy : y ≠ 48 :=
          (UInt8.ne_of_lt (UInt8.lt_of_le_of_lt (hp x List.mem_cons_self) hxy)).symm
        rw [trimZeros_cons y q, if_neg fun hzero => hy hzero.2, trimZeros_cons x p]
        split
        · exact List.nil_lt_cons _ _
        · exact List.cons_lt_cons_iff.mpr (.inl hxy)
      · have hrest := ih (Nat.succ.inj hlen) (fun b hb => hp b (List.mem_cons_of_mem _ hb)) hpq
        have hne : trimZeros q ≠ [] := fun hnil => List.not_lt_nil _ (hnil ▸ hrest)
        rw [trimZeros_cons x q, if_neg fun hzero => hne hzero.1, trimZeros_cons x p]
        split
        · exact List.nil_lt_cons _ _
        · exact separated_lt hrest

-- the end mark is larger than every digit, so the shorter of two texts comes last
theorem ended_lt_iff {a b : Bytes} {z : UInt8} (hb : ∀ x ∈ b, x < z) (h : a < b) :
    b ++ [z] < a ++ [z] ↔ a <+: b := by
  induction a generalizing b with
  | nil =>
    cases b with
    | nil => exact absurd h (List.not_lt_nil _)
    | cons y b =>
      have hy : y :: (b ++ [z]) < z :: [] :=
        List.cons_lt_cons_iff.mpr (.inl (hb y List.mem_cons_self))
      exact ⟨fun _ => List.nil_prefix, fun _ => hy⟩
  | cons x a ih =>
    cases b with
    | nil => exact absurd h (List.not_lt_nil _)
    | cons y b =>
      rw [List.cons_append, List.cons_append, List.cons_lt_cons_iff, List.cons_prefix_cons]
      rcases List.cons_lt_cons_iff.mp h with hxy | ⟨rfl, hab⟩
      · constructor
        · rintro (hyx | ⟨heq, -⟩)
          · exact absurd hyx (UInt8.lt_asymm hxy)
          · exact absurd heq (UInt8.ne_of_lt hxy).symm
        · rintro ⟨heq, -⟩
          exact absurd heq (UInt8.ne_of_lt hxy)
      · have hrest := ih (fun c hc => hb c (List.mem_cons_of_mem _ hc)) hab
        constructor
        · rintro (hyx | ⟨-, hlt⟩)
          · exact absurd hyx (UInt8.lt_irrefl x)
          · exact ⟨rfl, hrest.mp hlt⟩
        · rintro ⟨-, hpre⟩
          exact .inr ⟨rfl, hrest.mpr hpre⟩

/-! ### Texts of instants -/

def yearText (y : ℤ) : Bytes :=
  let digits := if y.natAbs < 10000 then padded 4 y.natAbs else decimalNat y.natAbs
  if y < 0 then 45 :: digits else digits

def dayOf (s : ℤ) : ℤ := s / 86400 + 719468

/-- `2006-01-02T15:04:05`. -/
def secondText (s : ℤ) : Bytes :=
  let n := dayOf s
  let c := (s % 86400).toNat
  yearText (year n) ++ 45 :: (padded 2 (month n).toNat ++ 45 :: (padded 2 (day n).toNat ++
    84 :: (padded 2 (c / 3600) ++ 58 :: (padded 2 (c / 60 % 60) ++ 58 :: padded 2 (c % 60)))))

def FourDigits (s : ℤ) : Prop := 0 ≤ year (dayOf s) ∧ year (dayOf s) ≤ 9999

instance (s : ℤ) : Decidable (FourDigits s) := inferInstanceAs (Decidable (_ ∧ _))

theorem yearText_eq {y : ℤ} (h : 0 ≤ y ∧ y ≤ 9999) : yearText y = padded 4 y.toNat := by
  unfold yearText
  rw [if_pos (show y.natAbs < 10000 by omega), if_neg (show ¬y < 0 by omega),
    show y.natAbs = y.toNat by omega]

theorem time_lt {s t : ℤ} (hday : s / 86400 = t / 86400) (h : s < t) :
    let c := (s % 86400).toNat
    let d := (t % 86400).toNat
    c / 3600 < d / 3600 ∨ c / 3600 = d / 3600 ∧
      (c / 60 % 60 < d / 60 % 60 ∨ c / 60 % 60 = d / 60 % 60 ∧ c % 60 < d % 60) := by
  intro c d
  have hcd : c < d := by omega
  have hd : d < 86400 := by omega
  omega

theorem secondText_lt {s t : ℤ} (hs : FourDigits s) (ht : FourDigits t) (h : s < t) :
    secondText s < secondText t := by
  unfold secondText
  simp only [yearText_eq hs, yearText_eq ht]
  obtain ⟨hm, hm'⟩ := month_bounds (dayOf s)
  obtain ⟨hn, hn'⟩ := month_bounds (dayOf t)
  obtain ⟨hd, hd'⟩ := day_bounds (dayOf s)
  obtain ⟨he, he'⟩ := day_bounds (dayOf t)
  have hyear : (year (dayOf t)).toNat < 10 ^ 4 := by
    have := ht.2
    omega
  have hmonth : (month (dayOf t)).toNat < 10 ^ 2 := by omega
  have hday : (day (dayOf t)).toNat < 10 ^ 2 := by omega
  by_cases hsame : s / 86400 = t / 86400
  · -- on one day the hours, the minutes and the seconds decide
    have hdays : dayOf s = dayOf t := by
      unfold dayOf
      rw [hsame]
    rw [hdays]
    refine padded_append_lt hyear (.inr ⟨rfl, separated_lt ?_⟩)
    refine padded_append_lt hmonth (.inr ⟨rfl, separated_lt ?_⟩)
    refine padded_append_lt hday (.inr ⟨rfl, separated_lt ?_⟩)
    have htime := time_lt hsame h
    simp only at htime
    have hhour : (t % 86400).toNat / 3600 < 10 ^ 2 := by omega
    have hminute : (t % 86400).toNat / 60 % 60 < 10 ^ 2 := by omega
    have hsecond : (t % 86400).toNat % 60 < 10 ^ 2 := by omega
    refine padded_append_lt hhour (htime.imp_right fun hmin => ⟨hmin.1, separated_lt ?_⟩)
    refine padded_append_lt hminute (hmin.2.imp_right fun hsec => ⟨hsec.1, separated_lt ?_⟩)
    exact padded_lt hsecond hsec.2
  · have hdays : dayOf s < dayOf t := by
      unfold dayOf
      omega
    have hdate := date_lt hdays
    have hsyear := hs.1
    refine padded_append_lt hyear ?_
    rcases hdate with hdate | ⟨heq, hdate⟩
    · exact .inl (by omega)
    refine .inr ⟨by rw [heq], separated_lt (padded_append_lt hmonth ?_)⟩
    rcases hdate with hdate | ⟨heq, hdate⟩
    · exact .inl (by omega)
    exact .inr ⟨by rw [heq], separated_lt (padded_append_lt hday (.inl (by omega)))⟩

theorem secondText_length {s : ℤ} (hs : FourDigits s) : (secondText s).length = 19 := by
  unfold secondText
  simp [yearText_eq hs, padded_length]

def second : ℤ := 1000000000
def fraction (t : ℤ) : Bytes := trimZeros (padded 9 (t % second).toNat)
def zulu (digits : Bytes) : Bytes := if digits = [] then [90] else 46 :: (digits ++ [90])

/-- `2006-01-02T15:04:05.999999999Z07:00` in UTC, of nanoseconds since the epoch. -/
def rfc3339Nano (t : ℤ) : Bytes := secondText (t / second) ++ zulu (fraction t)

theorem zulu_lt_iff {a b : Bytes} (hb : ∀ x ∈ b, x < 90) (h : a < b) :
    zulu b < zulu a ↔ a <+: b := by
  have hne : b ≠ [] := fun hnil => List.not_lt_nil _ (hnil ▸ h)
  unfold zulu
  rw [if_neg hne]
  split
  · rename_i ha
    subst ha
    exact ⟨fun _ => List.nil_prefix, fun _ => List.cons_lt_cons_iff.mpr (.inl (by decide))⟩
  · rw [← ended_lt_iff hb h, List.cons_lt_cons_iff]
    constructor
    · rintro (hlt | ⟨-, hlt⟩)
      · exact absurd hlt (UInt8.lt_irrefl 46)
      · exact hlt
    · exact fun hlt => .inr ⟨rfl, hlt⟩

theorem fraction_digits {t : ℤ} : ∀ x ∈ fraction t, x < 90 := fun x hx =>
  (padded_digits _ _ x (trimZeros_subset _ x hx)).2

theorem fraction_lt {s t : ℤ} (hsame : s / second = t / second) (h : s < t) :
    fraction s < fraction t := by
  unfold second at hsame
  have hnanos : (s % second).toNat < (t % second).toNat := by
    unfold second
    omega
  have hbound : (t % second).toNat < 10 ^ 9 := by
    unfold second
    omega
  exact trimZeros_lt (by rw [padded_length, padded_length])
    (fun b hb => (padded_digits _ _ b hb).1) (padded_lt hbound hnanos)

theorem append_lt_append_left_iff {a x y : Bytes} : a ++ x < a ++ y ↔ x < y := by
  induction a with
  | nil => rfl
  | cons p a ih =>
    rw [List.cons_append, List.cons_append, List.cons_lt_cons_iff, ih]
    constructor
    · rintro (hlt | ⟨-, hlt⟩)
      · exact absurd hlt (UInt8.lt_irrefl p)
      · exact hlt
    · exact fun hlt => .inr ⟨rfl, hlt⟩

theorem rfc3339Nano_lt_iff {s t : ℤ} (hs : FourDigits (s / second)) (ht : FourDigits (t / second))
    (h : s < t) :
    rfc3339Nano t < rfc3339Nano s ↔ s / second = t / second ∧ fraction s <+: fraction t := by
  unfold rfc3339Nano
  by_cases hsame : s / second = t / second
  · rw [← hsame, append_lt_append_left_iff,
      zulu_lt_iff fraction_digits (fraction_lt hsame h)]
    simp
  · have hseconds : s / second < t / second := by
      unfold second at hsame ⊢
      omega
    have hlt := append_lt_append (x := zulu (fraction s)) (y := zulu (fraction t))
      (by rw [secondText_length hs, secondText_length ht])
      (.inl (secondText_lt hs ht hseconds))
    constructor
    · intro hgt
      exact absurd hgt (List.lt_asymm hlt)
    · rintro ⟨heq, -⟩
      exact absurd heq hsame

end Snagline.Kit.Calendar
