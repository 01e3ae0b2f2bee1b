import Mathlib.Algebra.BigOperators.Intervals
import Mathlib.Algebra.Order.BigOperators.Group.Finset
import Mathlib.Tactic.IntervalCases
import Mathlib.Data.Int.Interval

/-! # The proleptic Gregorian calendar

    Dates are numbered by counting days from the first of January 1970, moments
    by counting seconds from its midnight.  A later moment has the greater
    number, so no two moments share one.
-/

namespace Lib

/-! ## Years and months -/

/-- Every fourth year, but of the centuries only every fourth. -/
def leap (y : Int) : Prop := (y % 4 = 0 ∧ y % 100 ≠ 0) ∨ y % 400 = 0

instance (y : Int) : Decidable (leap y) := inferInstanceAs (Decidable (_ ∨ _))

def month_days (y : Int) (m : Nat) : Nat :=
  if m = 2 then if leap y then 29 else 28
  else if m = 4 ∨ m = 6 ∨ m = 9 ∨ m = 11 then 30
  else 31

def year_days (y : Int) : Nat := if leap y then 366 else 365

/-- Days from 1970 to the start of a year. -/
def days_before_year (y : Int) : Int :=
  365 * (y - 1970) + ((y - 1) / 4 - 492) - ((y - 1) / 100 - 19) + ((y - 1) / 400 - 4)

/-- Days from the start of a year to the start of a month of it. -/
def days_before_month (y : Int) (m : Nat) : Nat := ∑ k ∈ Finset.Ico 1 m, month_days y k

theorem days_before_next_year (y : Int) :
    days_before_year (y + 1) = days_before_year y + year_days y := by
  by_cases h : leap y
  · rw [show year_days y = 366 from if_pos h]
    unfold leap at h
    unfold days_before_year
    omega
  · rw [show year_days y = 365 from if_neg h]
    unfold leap at h
    unfold days_before_year
    omega

theorem days_before_next_month (y : Int) {m : Nat} (h : 1 ≤ m) :
    days_before_month y (m + 1) = days_before_month y m + month_days y m :=
  Finset.sum_Ico_succ_top h _

/-- The months of a year make up the year. -/
theorem days_before_month_end (y : Int) : days_before_month y 13 = year_days y := by
  by_cases h : leap y <;>
    simp [days_before_month, year_days, month_days, h, Finset.sum_Ico_eq_sum_range,
      Finset.sum_range_succ]

/-- Counted from March, the months are 153 days for every five. -/
theorem days_before_month_eq (y : Int) {m : Nat} (h : 1 ≤ m ∧ m ≤ 12) :
    days_before_month y m = if m ≤ 2 then 31 * (m - 1)
      else 59 + (if leap y then 1 else 0) + (153 * (m - 3) + 2) / 5 := by
  obtain ⟨hfirst, hlast⟩ := h
  by_cases hleap : leap y <;> interval_cases m <;>
    simp [days_before_month, month_days, hleap, Finset.sum_Ico_eq_sum_range, Finset.sum_range_succ]

theorem days_before_month_mono (y : Int) {m m' : Nat} (h : m ≤ m') :
    days_before_month y m ≤ days_before_month y m' :=
  Finset.sum_le_sum_of_subset (Finset.Ico_subset_Ico_right h)

theorem days_before_year_mono {y y' : Int} (h : y ≤ y') :
    days_before_year y ≤ days_before_year y' := by
  induction y', h using Int.leInduction with
  | base => exact le_refl _
  | succ y' _ ih =>
    rw [days_before_next_year]
    omega

/-! ## Dates -/

/-- Is there such a day? -/
structure RealDate (y : Int) (m d : Nat) : Prop where
  month : 1 ≤ m ∧ m ≤ 12
  day : 1 ≤ d ∧ d ≤ month_days y m

def day_number (y : Int) (m d : Nat) : Int := days_before_year y + days_before_month y m + d - 1

/-- The days of a year lie between its start and the start of the next. -/
theorem day_number_within {y : Int} {m d : Nat} (h : RealDate y m d) :
    days_before_year y ≤ day_number y m d ∧ day_number y m d < days_before_year (y + 1) := by
  obtain ⟨⟨hfirst, hlast⟩, hday, hdays⟩ := h
  have hmonth := days_before_next_month y hfirst
  have hyear := days_before_month_mono y (show m + 1 ≤ 13 by omega)
  rw [days_before_month_end] at hyear
  rw [days_before_next_year]
  unfold day_number
  omega

/-- A later date has a greater number. -/
theorem day_number_lt {y y' : Int} {m m' d d' : Nat} (h : RealDate y m d) (h' : RealDate y' m' d')
    (hlt : y < y' ∨ (y = y' ∧ (m < m' ∨ (m = m' ∧ d < d')))) :
    day_number y m d < day_number y' m' d' := by
  rcases hlt with hyear | ⟨rfl, hmonth | ⟨rfl, hday⟩⟩
  · have hend := (day_number_within h).2
    have hstart := (day_number_within h').1
    have hbetween := days_before_year_mono (show y + 1 ≤ y' by omega)
    omega
  · have hend := days_before_next_month y h.month.1
    have hbetween := days_before_month_mono y (show m + 1 ≤ m' by omega)
    have hday := h.day.2
    have hday' := h'.day.1
    unfold day_number
    omega
  · unfold day_number
    omega

/-! ## Moments -/

structure Moment where
  year : Nat
  month : Nat
  day : Nat
  hour : Nat
  minute : Nat
  second : Nat
  deriving DecidableEq

namespace Moment

/-- Is there such a day, and such a time of day? -/
structure Real (a : Moment) : Prop where
  date : RealDate a.year a.month a.day
  hour : a.hour < 24
  minute : a.minute < 60
  second : a.second < 60

/-- Seconds since the midnight 1970 starts with. -/
def seconds (a : Moment) : Int :=
  day_number a.year a.month a.day * 86400 + a.hour * 3600 + a.minute * 60 + a.second

/-- The most significant field first. -/
def fields (a : Moment) : List Nat := [a.year, a.month, a.day, a.hour, a.minute, a.second]

theorem lt_iff {a b : Moment} : a.fields < b.fields ↔
    a.year < b.year ∨ (a.year = b.year ∧ (a.month < b.month ∨ (a.month = b.month ∧
      (a.day < b.day ∨ (a.day = b.day ∧ (a.hour < b.hour ∨ (a.hour = b.hour ∧
        (a.minute < b.minute ∨ (a.minute = b.minute ∧ a.second < b.second))))))))) := by
  simp [fields, List.cons_lt_cons_iff]

/-- A later moment has a greater number. -/
theorem seconds_lt {a b : Moment} (ha : a.Real) (hb : b.Real) (h : a.fields < b.fields) :
    a.seconds < b.seconds := by
  have ha_hour := ha.hour
  have ha_minute := ha.minute
  have ha_second := ha.second
  by_cases hdate : (a.year : Int) < b.year ∨ ((a.year : Int) = b.year ∧ (a.month < b.month ∨
      (a.month = b.month ∧ a.day < b.day)))
  · have hday := day_number_lt ha.date hb.date hdate
    unfold seconds
    omega
  · rw [lt_iff] at h
    have hyear : a.year = b.year := by omega
    have hmonth : a.month = b.month := by omega
    have hday : a.day = b.day := by omega
    unfold seconds
    rw [hyear, hmonth, hday]
    omega

theorem fields_injective {a b : Moment} (h : a.fields = b.fields) : a = b := by
  obtain ⟨_, _, _, _, _, _⟩ := a
  obtain ⟨_, _, _, _, _, _⟩ := b
  simpa [fields] using h

/-- The order of the fields is the order in time. -/
theorem seconds_le_iff {a b : Moment} (ha : a.Real) (hb : b.Real) :
    a.fields ≤ b.fields ↔ a.seconds ≤ b.seconds := by
  constructor
  · intro h
    rcases h.lt_or_eq with hlt | heq
    · exact (seconds_lt ha hb hlt).le
    · rw [fields_injective heq]
  · intro h
    rw [← not_lt]
    intro hlt
    have := seconds_lt hb ha hlt
    omega

end Moment

end Lib
