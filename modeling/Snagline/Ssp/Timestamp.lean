import Snagline.Kit.Bytes

/-!
# SSP v1 timestamps (envelope.go:602-616)

Instants are nanoseconds since the Unix epoch, the resolution of the clock the
services read. An SSP timestamp has at most six fractional digits, so it only
ever names a whole microsecond.
-/

namespace Snagline.Ssp
open Kit

abbrev Time := ℤ

/-- Go's zero `time.Time`, 0001-01-01T00:00:00Z. -/
def zeroTime : Time := -62135596800 * 1000000000
def isLeap (y : ℕ) : Bool := y % 4 == 0 && (y % 100 != 0 || y % 400 == 0)

def daysIn (y m : ℕ) : ℕ :=
  if m == 2 then (if isLeap y then 29 else 28)
  else if m == 4 || m == 6 || m == 9 || m == 11 then 30
  else 31

/-- Days of the year before month `m`. -/
def daysBefore (y m : ℕ) : ℕ := ((List.range (m - 1)).map fun k => daysIn y (k + 1)).sum

def epochDay (y m d : ℕ) : ℤ :=
  let p := y - 1
  (365 * p + p / 4 - p / 100 + p / 400 + daysBefore y m + (d - 1) : ℕ) - 719162

/-- Nanoseconds of a fraction of `k` digits. -/
def fractionNanos (digits : Bytes) : ℕ := digitsValue digits * 10 ^ (9 - digits.length)

/-- The calendar fields `time.Parse` range-checks. -/
def inCalendar (y mo d h mi s : ℕ) : Bool :=
  1 ≤ mo && mo ≤ 12 && 1 ≤ d && d ≤ daysIn y mo && h < 24 && mi < 60 && s < 60

def instant (y mo d h mi s nanos : ℕ) : Time :=
  (epochDay y mo d * 86400 + (h * 3600 + mi * 60 + s : ℕ)) * 1000000000 + nanos

/-- The tail after the seconds: `Z`, or a point, one to six digits and `Z`. -/
def zuluFraction (bs : Bytes) : Option Bytes :=
  if bs == [90] then some []
  else if bs.head? == some 46 then
    let ds := (bs.drop 1).takeWhile isDigit
    if 1 ≤ ds.length && ds.length ≤ 6 && bs.drop (1 + ds.length) == [90] then some ds else none
  else none

/-- `n` digits at the head of the bytes, then the separator. -/
def digitsThen (n : ℕ) (sep : UInt8) (bs : Bytes) : Option (ℕ × Bytes) :=
  let ds := bs.take n
  if ds.length == n && ds.all isDigit && (bs.drop n).head? == some sep
  then some (digitsValue ds, bs.drop (n + 1)) else none

/-- `ParseTimestamp`: the one v1 grammar, years from 0001. -/
def parseTimestamp (bs : Bytes) : Option Time := do
  let (y, r) ← digitsThen 4 45 bs
  let (mo, r) ← digitsThen 2 45 r
  let (d, r) ← digitsThen 2 84 r
  let (h, r) ← digitsThen 2 58 r
  let (mi, r) ← digitsThen 2 58 r
  let sec := r.take 2
  let fraction ← zuluFraction (r.drop 2)
  if y == 0 || !(sec.length == 2 && sec.all isDigit) then none
  else if inCalendar y mo d h mi (digitsValue sec) then
    some (instant y mo d h mi (digitsValue sec) (fractionNanos fraction))
  else none

/-- A whole number of microseconds, the resolution PostgreSQL's TIMESTAMPTZ keeps. -/
def WholeMicros (t : Time) : Prop := 1000 ∣ t

instance (t : Time) : Decidable (WholeMicros t) := inferInstanceAs (Decidable (_ ∣ _))

theorem fractionNanos_micros {ds : Bytes} (h : ds.length ≤ 6) : 1000 ∣ fractionNanos ds := by
  have hp : 10 ^ (9 - ds.length) = 10 ^ 3 * 10 ^ (6 - ds.length) := by
    rw [← pow_add]
    congr 1
    omega
  have hk : (1000 : ℕ) ∣ 10 ^ (9 - ds.length) := ⟨10 ^ (6 - ds.length), by rw [hp]; norm_num⟩
  exact Dvd.dvd.mul_left hk _

theorem zuluFraction_length {bs ds : Bytes} (h : zuluFraction bs = some ds) : ds.length ≤ 6 := by
  unfold zuluFraction at h
  split at h
  · cases h
    simp
  · split at h
    · simp only at h
      split at h
      · next hc =>
        simp only [Bool.and_eq_true, decide_eq_true_eq] at hc
        cases h
        exact hc.1.2
      · cases h
    · cases h

theorem instant_micros {y mo d h mi s nanos : ℕ} (hn : 1000 ∣ nanos) :
    WholeMicros (instant y mo d h mi s nanos) := by
  have hz : (1000 : ℤ) ∣ (nanos : ℤ) := by exact_mod_cast hn
  have hk : (1000 : ℤ) ∣ 1000000000 := ⟨1000000, by norm_num⟩
  exact dvd_add (Dvd.dvd.mul_left hk _) hz

theorem parseTimestamp_micros {bs : Bytes} {t : Time} (h : parseTimestamp bs = some t) :
    WholeMicros t := by
  simp only [parseTimestamp, Option.bind_eq_bind, Option.bind_eq_some_iff] at h
  obtain ⟨y, -, mo, -, d, -, hr, -, mi, -, fraction, hf, h⟩ := h
  split at h
  · cases h
  · split at h
    · cases h
      exact instant_micros (fractionNanos_micros (zuluFraction_length hf))
    · cases h

end Snagline.Ssp
