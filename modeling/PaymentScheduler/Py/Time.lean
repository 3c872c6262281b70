import Mathlib

/-!
# Instants

An instant (`Time`) is a number of microseconds since 1970-01-01 00:00 UTC, the resolution of
`datetime` and of `timestamptz`. A delay is an exact rational number of seconds, which
`timedelta(seconds=…)` rounds to microseconds (half to even). `isoformat` is the one of a
`datetime` in UTC; the calendar is the one of CPython's `datetime` (`_ord2ymd`).
-/

namespace PaymentScheduler

/-- Microseconds since the Unix epoch. -/
abbrev Time := Int

/-- A number of seconds, in microseconds. -/
def seconds (n : Int) : Time := n * 1000000

/-- The nearest integer, and the even one of two nearest. -/
def roundHalfEven (q : ℚ) : Int :=
  let n := ⌊q⌋
  let r := q - n
  if r < 1 / 2 then n else if 1 / 2 < r then n + 1 else if n % 2 = 0 then n else n + 1

/-- `timedelta(seconds=s)`: more than 999999999 days is an `OverflowError`. -/
def timedelta (s : ℚ) : Option Time :=
  let us := roundHalfEven (s * 1000000)
  if us.natAbs < 1000000000 * 86400 * 1000000 then some us else none

/-- `datetime.min` and `datetime.max`, in UTC. -/
def datetimeMin : Time := seconds (-62135596800)
def datetimeMax : Time := seconds 253402300800 - 1

/-- `t + timedelta(seconds=s)`: `none` is an `OverflowError`. -/
def addSeconds (t : Time) (s : ℚ) : Option Time :=
  (timedelta s).bind fun d =>
    if datetimeMin ≤ t + d ∧ t + d ≤ datetimeMax then some (t + d) else none

/-- Rounding moves a number by at most one half. -/
theorem roundHalfEven_near (q : ℚ) : q - 1 / 2 ≤ roundHalfEven q ∧ roundHalfEven q ≤ q + 1 / 2 := by
  have hlo := Int.floor_le q
  have hhi := Int.lt_floor_add_one q
  unfold roundHalfEven
  dsimp only
  split
  · constructor <;> linarith
  · split
    · push_cast
      constructor <;> linarith
    · split
      · constructor <;> linarith
      · push_cast
        constructor <;> linarith

theorem roundHalfEven_mono : Monotone roundHalfEven := by
  intro a b hab
  by_contra hlt
  obtain ⟨-, ha⟩ := roundHalfEven_near a
  obtain ⟨hb, -⟩ := roundHalfEven_near b
  have hsucc : (roundHalfEven b : ℚ) + 1 ≤ roundHalfEven a := by
    exact_mod_cast Int.add_one_le_iff.mpr (not_le.mp hlt)
  have heq : a = b := by linarith
  rw [heq] at hlt
  exact hlt le_rfl

theorem addSeconds_eq {t t' : Time} {s : ℚ} (h : addSeconds t s = some t') :
    t' = t + roundHalfEven (s * 1000000) := by
  obtain ⟨d, hd, h⟩ := Option.bind_eq_some_iff.mp h
  unfold timedelta at hd
  dsimp only at hd
  split at hd
  · cases hd
    split at h
    · exact (Option.some.inj h).symm
    · cases h
  · cases hd

/-! ## The calendar -/

/-- `_is_leap`. -/
def isLeap (year : Int) : Bool := year % 4 = 0 && (year % 100 ≠ 0 || year % 400 = 0)

/-- `_DAYS_BEFORE_MONTH`, for the months 1 to 12. -/
def daysBeforeMonth (month : Nat) : Int :=
  [0, 31, 59, 90, 120, 151, 181, 212, 243, 273, 304, 334].getD (month - 1) 0

/-- `_days_before_month`. -/
def daysBeforeMonthOf (leap : Bool) (month : Nat) : Int :=
  daysBeforeMonth month + if 2 < month && leap then 1 else 0

/-- The month and the day of the day `n` (from 0) of a year: the end of `_ord2ymd`. -/
def monthDay (leap : Bool) (n : Int) : Nat × Int :=
  let month := ((n + 50) / 32).toNat
  let month := if n < daysBeforeMonthOf leap month then month - 1 else month
  (month, n - daysBeforeMonthOf leap month + 1)

/-- `_ord2ymd`: the year, the month and the day of the day `n` (1 is 0001-01-01). -/
def ord2ymd (n : Int) : Int × Nat × Int :=
  let n := n - 1
  let n400 := n / 146097
  let n := n % 146097
  let n100 := n / 36524
  let n := n % 36524
  let n4 := n / 1461
  let n := n % 1461
  let n1 := n / 365
  let n := n % 365
  let year := n400 * 400 + 1 + n100 * 100 + n4 * 4 + n1
  if n1 = 4 ∨ n100 = 4 then (year - 1, 12, 31)
  else
    let leap := n1 = 3 && (n4 ≠ 24 || n100 = 3)
    (year, monthDay leap n)

/-- `"%0wd" % n`. -/
def pad (w : Nat) (n : Int) : String :=
  if n < 0 then "-" ++ String.ofList (List.leftpad (w - 1) '0' (Nat.toDigits 10 n.natAbs))
  else String.ofList (List.leftpad w '0' (Nat.toDigits 10 n.natAbs))

/-- `t.isoformat()` of an instant in UTC: the fraction is left out where it is zero. -/
def isoformat (t : Time) : String :=
  let (year, month, day) := ord2ymd (t / 86400000000 + 719163)
  let us := t % 86400000000
  pad 4 year ++ "-" ++ pad 2 month ++ "-" ++ pad 2 day ++ "T" ++ pad 2 (us / 3600000000) ++ ":" ++
    pad 2 (us / 60000000 % 60) ++ ":" ++ pad 2 (us / 1000000 % 60) ++
    (if us % 1000000 = 0 then "" else "." ++ pad 6 (us % 1000000)) ++ "+00:00"

example : isoformat (seconds 1717225200) = "2024-06-01T07:00:00+00:00" := by decide +kernel

end PaymentScheduler
