import MaintenanceFabric.Config.Lines
import MaintenanceFabric.Store.Codec

/-! # Instants and durations in text

    Three spellings of an instant (an offset from a reference, epoch seconds,
    RFC 3339 in UTC) and one of a duration.  What `format_time` writes,
    `parse_time` reads back, whatever the reference.
-/

namespace MaintenanceFabric

open Lib

/-! ## Units -/

def kNanosPerMicrosecond : Nanos := 1000
def kNanosPerMillisecond : Nanos := 1000000
def kNanosPerHour : Nanos := 60 * kNanosPerMinute

/-- The scale of a unit; `bare` is that of a number without one. -/
def unit_scale (bare : Nanos) (unit : Text) : Option Nanos :=
  if unit = text "s" then some kNanosPerSecond
  else if unit = text "m" then some kNanosPerMinute
  else if unit = text "h" then some kNanosPerHour
  else if unit = text "ms" then some kNanosPerMillisecond
  else if unit = text "us" then some kNanosPerMicrosecond
  else if unit = text "ns" then some 1
  else if unit.isEmpty then some bare
  else none

def i64_max : Int := 9223372036854775807
def i64_min : Int := -9223372036854775808

/-- `narrow<std::int64_t>`. -/
def narrow_i64 (value : Nat) : Option Int := if (value : Int) ≤ i64_max then some value else none

/-- The product, unless it overflows: the bounds are tested by division. -/
def checked_mul_signed (a b : Int) : Option Int :=
  if a = 0 ∨ b = 0 then some 0
  else if a > 0 then
    if b > 0 then if a > i64_max.tdiv b then none else some (a * b)
    else if b < i64_min.tdiv a then none else some (a * b)
  else
    if b > 0 then if a < i64_min.tdiv b then none else some (a * b)
    else if a < i64_max.tdiv b then none else some (a * b)

/-- The number before the unit. -/
def magnitude (t : Text) : Option Nat :=
  let digits := t.takeWhile is_digit
  if digits.isEmpty then none else parse_u64 digits

def parse_duration_text (t : Text) : Option Nanos := do
  let value ← magnitude t
  let scale ← unit_scale 1 (t.dropWhile is_digit)
  let narrowed ← narrow_i64 value
  checked_mul_signed narrowed scale

/-! ## Instants -/

/-- (year, month, day) to days since the epoch. -/
def days_from_civil (y m d : Int) : Int :=
  let y := y - if m ≤ 2 then 1 else 0
  let era := (if y ≥ 0 then y else y - 399).tdiv 400
  let yoe := y - era * 400
  let doy := (153 * (if m > 2 then m - 3 else m + 9) + 2) / 5 + d - 1
  let doe := yoe * 365 + yoe / 4 - yoe / 100 + doy
  era * 146097 + doe - 719468

/-- A field of digits only. -/
def fixed_uint (t : Text) : Option Nat := if t.all is_digit then parse_u32 t else none

/-- `+5m`, `-30s`, and so on, after the sign.  The product and the sum are those of the machine. -/
def parse_offset (negative : Bool) (body : Text) (reference : Nanos) : Option Nanos := do
  let value ← magnitude body
  let scale ← unit_scale kNanosPerSecond (body.dropWhile is_digit)
  let delta ← narrow_i64 value
  some (wrapped_i64 (if negative then reference - delta * scale else reference + delta * scale))

def parse_epoch (digits : Text) : Option Nanos := do
  let secs ← parse_u64 digits
  let as_i64 ← narrow_i64 secs
  some (wrapped_i64 (as_i64 * kNanosPerSecond))

def push_decimal_digit (value : Nat) (c : UInt8) : Nat := value * 10 + (c.toNat - 48)

/-- The fraction of a second in nanoseconds, and what follows it. -/
def parse_fraction : Text → Option (Nat × Text)
  | [] => some (0, [])
  | c :: rest =>
      if c = 46 then
        let digits := (rest.takeWhile is_digit).take 9
        if digits.isEmpty then none
        else some (digits.foldl push_decimal_digit 0 * 10 ^ (9 - digits.length),
          rest.drop digits.length)
      else some (0, c :: rest)

/-- `Z`, or an offset of zero; what follows it. -/
def parse_zone : Text → Option Text
  | [] => none
  | c :: rest =>
      if c = 90 ∨ c = 122 then some rest
      else if (c = 43 ∨ c = 45) ∧ rest.length ≥ 5 ∧ rest[2]? = some colon then
        if fixed_uint (rest.take 2) = some 0 ∧ fixed_uint ((rest.drop 3).take 2) = some 0 then
          some (rest.drop 5)
        else none
      else none

/-- `YYYY-MM-DDTHH:MM:SS[.fffffffff]Z`. -/
def parse_rfc3339 (t : Text) : Option Nanos :=
  if t.length < 20 then none
  else if t[4]? ≠ some 45 ∨ t[7]? ≠ some 45 ∨ (t[10]? ≠ some 84 ∧ t[10]? ≠ some 116) ∨
      t[13]? ≠ some colon ∨ t[16]? ≠ some colon then none
  else do
    let year ← fixed_uint (t.take 4)
    let month ← fixed_uint ((t.drop 5).take 2)
    let day ← fixed_uint ((t.drop 8).take 2)
    let hour ← fixed_uint ((t.drop 11).take 2)
    let minute ← fixed_uint ((t.drop 14).take 2)
    let second ← fixed_uint ((t.drop 17).take 2)
    if month < 1 ∨ month > 12 ∨ day < 1 ∨ day > 31 ∨ hour > 23 ∨ minute > 59 ∨ second > 60 then none
    else do
      let (fraction, rest) ← parse_fraction (t.drop 19)
      let rest ← parse_zone rest
      if rest.isEmpty then
        let days := days_from_civil year month day
        let seconds : Int := days * 86400 + hour * 3600 + minute * 60 + second
        some (wrapped_i64 (seconds * kNanosPerSecond + fraction))
      else none

def parse_time (t : Text) (reference : Nanos) : Option Nanos :=
  match t with
  | [] => none
  | c :: body =>
      if c = 43 ∨ c = 45 then parse_offset (c = 45) body reference
      else if t.take 6 = text "epoch:" then parse_epoch (t.drop 6)
      else parse_rfc3339 t

/-! ## The calendar -/

/-- Division that is steered to round down rounds down. -/
theorem tdiv_down {z n : Int} (hn : 0 < n) :
    (if z ≥ 0 then z else z - (n - 1)).tdiv n = z / n := by
  by_cases h : z ≥ 0
  · rw [if_pos h, Int.tdiv_eq_ediv_of_nonneg h]
  · rw [if_neg h]
    have hflip := Int.tdiv_eq_ediv_of_nonneg (b := n) (show 0 ≤ -(z - (n - 1)) by omega)
    rw [Int.neg_tdiv] at hflip
    have hdivide := Int.mul_ediv_add_emod (-(z - (n - 1))) n
    have hlow := Int.emod_nonneg (-(z - (n - 1))) hn.ne'
    have hhigh := Int.emod_lt_of_pos (-(z - (n - 1))) hn
    have hunique := (Int.ediv_emod_unique (a := z) (q := -(-(z - (n - 1)) / n))
      (r := n - 1 - -(z - (n - 1)) % n) hn).mpr
        ⟨by rw [Int.mul_neg]; omega, by omega, by omega⟩
    omega

/-- Days of an era before its year `y`. -/
def year_start (y : Int) : Int := 365 * y + y / 4 - y / 100

/-- The year of an era that a day of it falls into. -/
theorem year_of_era {d y : Int} (hlow : 0 ≤ d) (hhigh : d < 146097)
    (hy : y = (d - d / 1460 + d / 36524 - d / 146096) / 365) :
    0 ≤ y ∧ y < 400 ∧ year_start y ≤ d ∧ d ≤ year_start y + 365 := by
  unfold year_start
  by_cases hlast : d = 146096
  · subst hlast
    rw [hy]
    decide
  · have hnone : d / 146096 = 0 := by omega
    have hcentury : d / 36524 = 0 ∨ d / 36524 = 1 ∨ d / 36524 = 2 ∨ d / 36524 = 3 := by omega
    rw [hnone] at hy
    generalize hcycle : d / 1460 = c at hy
    -- Within its century the year is one of the four of its cycle, or the one before them.
    rcases hcentury with he | he | he | he <;>
    · rw [he] at hy
      have hyear : y = 4 * c - 1 ∨ y = 4 * c ∨ y = 4 * c + 1 ∨ y = 4 * c + 2 ∨ y = 4 * c + 3 := by
        omega
      rcases hyear with hyear | hyear | hyear | hyear | hyear <;> omega

/-- What a date is made of: the era, the year and the month, both counted from March. -/
structure CivilParts (days era yoe mp : Int) (date : Int × Int × Int) : Prop where
  year_range : 0 ≤ yoe ∧ yoe < 400
  month_range : 0 ≤ mp ∧ mp < 12
  year : date.1 = yoe + era * 400 + (if date.2.1 ≤ 2 then 1 else 0)
  month : date.2.1 = if mp < 10 then mp + 3 else mp - 9
  day : 1 ≤ date.2.2 ∧ date.2.2 ≤ 31
  sum : era * 146097 + (year_start yoe + (153 * mp + 2) / 5 + date.2.2 - 1) - 719468 = days
  era_of : era = (days + 719468) / 146097

theorem civil_parts (days : Int) :
    ∃ era yoe mp, CivilParts days era yoe mp (civil_from_days days) := by
  have hera := tdiv_down (z := days + 719468) (n := 146097) (by decide)
  generalize hz : days + 719468 = z at hera
  have hdoe : 0 ≤ z - z / 146097 * 146097 ∧ z - z / 146097 * 146097 < 146097 := by omega
  generalize hd : z - z / 146097 * 146097 = doe at hdoe
  obtain ⟨hyoe, hyoe', hstart, hend⟩ := year_of_era hdoe.1 hdoe.2 rfl
  generalize hy : (doe - doe / 1460 + doe / 36524 - doe / 146096) / 365 = yoe
    at hyoe hyoe' hstart hend
  refine ⟨z / 146097, yoe, (5 * (doe - year_start yoe) + 2) / 153, ?_⟩
  have hcivil : civil_from_days days =
      (yoe + z / 146097 * 400 +
          (if (if (5 * (doe - year_start yoe) + 2) / 153 < 10 then
              (5 * (doe - year_start yoe) + 2) / 153 + 3
            else (5 * (doe - year_start yoe) + 2) / 153 - 9) ≤ 2 then 1 else 0),
        (if (5 * (doe - year_start yoe) + 2) / 153 < 10 then
            (5 * (doe - year_start yoe) + 2) / 153 + 3
          else (5 * (doe - year_start yoe) + 2) / 153 - 9),
        doe - year_start yoe - (153 * ((5 * (doe - year_start yoe) + 2) / 153) + 2) / 5 + 1) := by
    unfold civil_from_days
    simp only [hz]
    rw [show (146096 : Int) = 146097 - 1 from rfl, hera, hd]
    simp only [show (146097 - 1 : Int) = 146096 from rfl, hy]
    rfl
  rw [hcivil]
  refine ⟨⟨hyoe, hyoe'⟩, ?_, rfl, rfl, ?_, ?_, by rw [← hz]⟩
  · omega
  · simp only
    omega
  · simp only
    omega

/-- The date of a day leads back to the day. -/
theorem days_from_civil_from_days (days : Int) :
    days_from_civil (civil_from_days days).1 (civil_from_days days).2.1 (civil_from_days days).2.2 =
      days := by
  obtain ⟨era, yoe, mp, h⟩ := civil_parts days
  generalize civil_from_days days = date at h
  obtain ⟨y, m, d⟩ := date
  have hyear := h.year
  have hmonth := h.month
  have hdays := h.sum
  have hmp := h.month_range
  have hyoe := h.year_range
  simp only at hyear hmonth hdays
  have hstart : y - (if m ≤ 2 then 1 else 0) = yoe + era * 400 := by omega
  have hera := tdiv_down (z := yoe + era * 400) (n := 400) (by decide)
  have hera' : (yoe + era * 400) / 400 = era := by omega
  have hback : (if m > 2 then m - 3 else m + 9) = mp := by
    by_cases hsmall : mp < 10
    · rw [if_pos hsmall] at hmonth
      rw [if_pos (by omega)]
      omega
    · rw [if_neg hsmall] at hmonth
      rw [if_neg (by omega)]
      omega
  unfold days_from_civil
  simp only [hstart, hback]
  rw [show (399 : Int) = 400 - 1 from rfl, hera, hera']
  unfold year_start at hdays
  rw [show yoe + era * 400 - era * 400 = yoe by omega]
  omega

/-! ## Written instants -/

theorem padded_length {width n : Nat} (hwidth : 0 < width) (h : n < 10 ^ width) :
    (padded width n).length = width := by
  have hdigits : (decimal n).length ≤ width := by
    rw [decimal, List.length_map]
    exact (Nat.length_toDigits_le_iff (by decide) hwidth).mpr h
  rw [padded, List.length_append, List.length_replicate]
  omega

theorem padded_digits (width n : Nat) : ∀ c ∈ padded width n, is_digit c = true := by
  intro c hc
  rcases List.mem_append.mp hc with hc | hc
  · rw [List.eq_of_mem_replicate hc]
    decide
  · exact decimal_digits n c hc

theorem push_padded {width n : Nat} (h : n < u64_limit) :
    (padded width n).foldlM push_digit 0 = some n := by
  have hzeros : ∀ k, (List.replicate k (48 : UInt8)).foldlM push_digit 0 = some 0 := by
    intro k
    induction k with
    | zero => rfl
    | succ k ih =>
      rw [List.replicate_succ, List.foldlM_cons]
      exact ih
  rw [padded, List.foldlM_append, hzeros]
  exact push_decimal h

theorem fixed_uint_padded {width n : Nat} (hwidth : 0 < width) (hshort : width ≤ 9)
    (h : n < 10 ^ width) : fixed_uint (padded width n) = some n := by
  have hbound : 10 ^ width ≤ 10 ^ 9 := Nat.pow_le_pow_right (by decide) hshort
  have hlength := padded_length hwidth h
  have hall : (padded width n).all is_digit = true := List.all_eq_true.mpr (padded_digits width n)
  have hsome : ((padded width n).isEmpty || decide ((padded width n).length > 20)) = false := by
    rw [Bool.or_eq_false_iff, List.isEmpty_eq_false_iff, decide_eq_false_iff_not, hlength]
    refine ⟨?_, by omega⟩
    intro hnil
    rw [hnil] at hlength
    simp only [List.length_nil] at hlength
    omega
  rw [fixed_uint, if_pos hall, parse_u32, parse_u64, hsome, if_neg (by simp),
    push_padded (by unfold u64_limit; omega)]
  simp [narrow_u32, show n ≤ 4294967295 by omega]

theorem push_decimal_digit_of_push {digits : Text} {v w : Nat}
    (h : digits.foldlM push_digit v = some w) : digits.foldl push_decimal_digit v = w := by
  induction digits generalizing v with
  | nil =>
    cases h
    rfl
  | cons c digits ih =>
    rw [List.foldlM_cons, Option.bind_eq_bind, Option.bind_eq_some_iff] at h
    obtain ⟨x, hx, hrest⟩ := h
    have hpush : push_decimal_digit v c = x := by
      unfold push_digit at hx
      split at hx
      · split at hx
        · cases hx
        · cases hx
          rfl
      · cases hx
    rw [List.foldl_cons, hpush]
    exact ih hrest

theorem takeWhile_digits {digits rest : Text} (h : ∀ c ∈ digits, is_digit c = true)
    (hrest : ∀ c ∈ rest.head?, is_digit c = false) :
    (digits ++ rest).takeWhile is_digit = digits ∧ (digits ++ rest).dropWhile is_digit = rest := by
  have hstop : rest.takeWhile is_digit = [] ∧ rest.dropWhile is_digit = rest := by
    cases rest with
    | nil => exact ⟨rfl, rfl⟩
    | cons c rest =>
      have hc : is_digit c = false := hrest c rfl
      simp [hc]
  rw [List.takeWhile_append_of_pos h, List.dropWhile_append_of_pos h, hstop.1, hstop.2]
  exact ⟨List.append_nil _, rfl⟩

theorem parse_fraction_padded {n : Nat} (h : n < 10 ^ 9) (rest : Text)
    (hrest : ∀ c ∈ rest.head?, is_digit c = false) :
    parse_fraction (46 :: (padded 9 n ++ rest)) = some (n, rest) := by
  have hlength : (padded 9 n).length = 9 := padded_length (by decide) h
  have htake := (takeWhile_digits (padded_digits 9 n) hrest).1
  have hpush : (padded 9 n).foldlM push_digit 0 = some n :=
    push_padded (by unfold u64_limit; omega)
  have hvalue := push_decimal_digit_of_push hpush
  have hsome : (padded 9 n).isEmpty = false := by
    rw [List.isEmpty_eq_false_iff]
    intro hnil
    rw [hnil] at hlength
    cases hlength
  have hwhole : (padded 9 n).take 9 = padded 9 n := List.take_of_length_le hlength.le
  have hdrop : (padded 9 n ++ rest).drop (padded 9 n).length = rest := List.drop_left
  rw [hlength] at hdrop
  unfold parse_fraction
  simp only [htake, hwhole, hsome, hvalue, hlength, hdrop, if_true, Bool.false_eq_true, if_false,
    Nat.sub_self, Nat.pow_zero, Nat.mul_one]

/-- The fields of an instant, as they are written. -/
def time_text (year month day hour minute second fraction : Nat) : Text :=
  padded 4 year ++ text "-" ++ padded 2 month ++ text "-" ++ padded 2 day ++ text "T" ++
    padded 2 hour ++ text ":" ++ padded 2 minute ++ text ":" ++ padded 2 second ++ text "." ++
    padded 9 fraction ++ text "Z"

theorem time_text_shape (year month day hour minute second fraction : Nat) :
    time_text year month day hour minute second fraction =
      padded 4 year ++ 45 :: (padded 2 month ++ 45 :: (padded 2 day ++ 84 :: (padded 2 hour ++
        colon :: (padded 2 minute ++ colon :: (padded 2 second ++
          (46 :: (padded 9 fraction ++ [90]))))))) := by
  rw [time_text, show text "-" = [45] from rfl, show text "T" = [84] from rfl,
    show text ":" = [colon] from rfl, show text "." = [46] from rfl, show text "Z" = [90] from rfl]
  simp only [List.append_assoc, List.cons_append, List.nil_append]

/-- The fields are found at their places. -/
theorem parse_rfc3339_fields {year month day hour minute second rest : Text} {mark : UInt8}
    (hyear : year.length = 4) (hmonth : month.length = 2) (hday : day.length = 2)
    (hmark : mark = 84 ∨ mark = 116) (hhour : hour.length = 2) (hminute : minute.length = 2)
    (hsecond : second.length = 2) (hrest : rest ≠ []) :
    parse_rfc3339 (year ++ 45 :: (month ++ 45 :: (day ++ mark :: (hour ++ colon :: (minute ++
        colon :: (second ++ rest)))))) = (do
      let year ← fixed_uint year
      let month ← fixed_uint month
      let day ← fixed_uint day
      let hour ← fixed_uint hour
      let minute ← fixed_uint minute
      let second ← fixed_uint second
      if month < 1 ∨ month > 12 ∨ day < 1 ∨ day > 31 ∨ hour > 23 ∨ minute > 59 ∨ second > 60 then
        none
      else do
        let (fraction, rest) ← parse_fraction rest
        let rest ← parse_zone rest
        if rest.isEmpty then
          let days := days_from_civil year month day
          let seconds : Int := days * 86400 + hour * 3600 + minute * 60 + second
          some (wrapped_i64 (seconds * kNanosPerSecond + fraction))
        else none) := by
  -- Character by character, so that the offsets of the parser are read off.
  obtain ⟨y1, y2, y3, y4, rfl⟩ := List.length_eq_four.mp hyear
  obtain ⟨m1, m2, rfl⟩ := List.length_eq_two.mp hmonth
  obtain ⟨d1, d2, rfl⟩ := List.length_eq_two.mp hday
  obtain ⟨h1, h2, rfl⟩ := List.length_eq_two.mp hhour
  obtain ⟨n1, n2, rfl⟩ := List.length_eq_two.mp hminute
  obtain ⟨s1, s2, rfl⟩ := List.length_eq_two.mp hsecond
  have hlong : 0 < rest.length := List.length_pos_iff.mpr hrest
  have hshape : [y1, y2, y3, y4] ++ 45 :: ([m1, m2] ++ 45 :: ([d1, d2] ++ mark :: ([h1, h2] ++
      colon :: ([n1, n2] ++ colon :: ([s1, s2] ++ rest))))) =
      y1 :: y2 :: y3 :: y4 :: 45 :: m1 :: m2 :: 45 :: d1 :: d2 :: mark :: h1 :: h2 :: colon :: n1 ::
        n2 :: colon :: s1 :: s2 :: rest := rfl
  rw [hshape, parse_rfc3339, if_neg (by simp only [List.length_cons]; omega)]
  rcases hmark with rfl | rfl <;>
  · rw [if_neg (by simp)]
    rfl

theorem parse_rfc3339_written {year month day hour minute second fraction : Nat}
    (hyear : year < 10000) (hmonth : 1 ≤ month ∧ month ≤ 12) (hday : 1 ≤ day ∧ day ≤ 31)
    (hhour : hour < 24) (hminute : minute < 60) (hsecond : second < 60)
    (hfraction : fraction < 10 ^ 9) :
    parse_rfc3339 (time_text year month day hour minute second fraction) =
      some (wrapped_i64 ((days_from_civil year month day * 86400 + hour * 3600 + minute * 60 +
        second : Int) * kNanosPerSecond + fraction)) := by
  have htwo : ∀ n, n < 100 → (padded 2 n).length = 2 ∧ fixed_uint (padded 2 n) = some n := by
    intro n hn
    exact ⟨padded_length (by decide) (by omega),
      fixed_uint_padded (by decide) (by decide) (by omega)⟩
  have hzone : parse_zone [90] = some [] := rfl
  rw [time_text_shape, parse_rfc3339_fields (padded_length (by decide) (by omega))
    (htwo month (by omega)).1 (htwo day (by omega)).1 (.inl rfl) (htwo hour (by omega)).1
    (htwo minute (by omega)).1 (htwo second (by omega)).1 (by simp),
    fixed_uint_padded (by decide) (by decide) (by omega),
    (htwo month (by omega)).2, (htwo day (by omega)).2, (htwo hour (by omega)).2,
    (htwo minute (by omega)).2, (htwo second (by omega)).2]
  simp only [Option.bind_eq_bind, Option.bind_some]
  rw [if_neg (by omega), parse_fraction_padded hfraction [90] (by simp [is_digit]),
    Option.bind_some,
    hzone, Option.bind_some]
  rfl

/-- A text that starts with a digit is neither an offset nor epoch seconds. -/
theorem parse_time_of_digit {c : UInt8} {rest : Text} (hc : is_digit c = true) (reference : Nanos) :
    parse_time (c :: rest) reference = parse_rfc3339 (c :: rest) := by
  have hne : ∀ d : UInt8, is_digit d = false → c ≠ d := by
    rintro d hd rfl
    rw [hc] at hd
    cases hd
  have hepoch : (c :: rest).take 6 ≠ text "epoch:" := by
    intro heq
    have hhead := congrArg List.head? heq
    rw [List.take_succ_cons, List.head?_cons] at hhead
    exact hne 101 (by decide) (Option.some.inj hhead)
  have hsign : ¬ (c = 43 ∨ c = 45) := by
    rintro (h | h)
    · exact hne 43 (by decide) h
    · exact hne 45 (by decide) h
  simp only [parse_time]
  rw [if_neg hsign, if_neg hepoch]

theorem padded_append {n : Nat} (h : n < 10000) (rest : Text) :
    ∃ c tail, padded 4 n ++ rest = c :: tail ∧ is_digit c = true := by
  obtain ⟨c, c2, c3, c4, hc⟩ := List.length_eq_four.mp
    (padded_length (by decide) (show n < 10 ^ 4 by omega))
  refine ⟨c, c2 :: c3 :: c4 :: rest, by rw [hc]; rfl, padded_digits 4 n c ?_⟩
  rw [hc]
  exact List.mem_cons_self

/-- An instant is the sum of its fields. -/
theorem instant_of_fields (v : Int) :
    (v / 1000000000 / 86400 * 86400 + (((v / 1000000000 % 86400).toNat / 3600 : Nat) : Int) * 3600 +
      (((v / 1000000000 % 86400).toNat % 3600 / 60 : Nat) : Int) * 60 +
      (((v / 1000000000 % 86400).toNat % 60 : Nat) : Int)) * 1000000000 +
      ((v % 1000000000).toNat : Int) = v := by
  have hsecond : ((v / 1000000000 % 86400).toNat : Int) = v / 1000000000 % 86400 := by omega
  generalize (v / 1000000000 % 86400).toNat = second at hsecond
  have hparts : ((second / 3600 : Nat) : Int) * 3600 + ((second % 3600 / 60 : Nat) : Int) * 60 +
      ((second % 60 : Nat) : Int) = second := by omega
  have hfraction : ((v % 1000000000).toNat : Int) = v % 1000000000 := by omega
  omega

/-- The fields of an instant that fits 64 bits fit their widths. -/
theorem format_time_fields {v : Int} (h : i64_range v) :
    ∃ year month day : Nat, year < 10000 ∧ (1 ≤ month ∧ month ≤ 12) ∧ (1 ≤ day ∧ day ≤ 31) ∧
      days_from_civil year month day = v / 1000000000 / 86400 ∧
      format_time v = time_text year month day ((v / 1000000000 % 86400).toNat / 3600)
        ((v / 1000000000 % 86400).toNat % 3600 / 60) ((v / 1000000000 % 86400).toNat % 60)
        (v % 1000000000).toNat := by
  unfold i64_range at h
  obtain ⟨era, yoe, mp, hparts⟩ := civil_parts (v / 1000000000 / 86400)
  have hback := days_from_civil_from_days (v / 1000000000 / 86400)
  have hformat : format_time v = (let date := civil_from_days (v / 1000000000 / 86400)
      (if date.1 < 0 then text "-" ++ padded 3 date.1.natAbs else padded 4 date.1.natAbs) ++
      text "-" ++ padded 2 date.2.1.toNat ++ text "-" ++ padded 2 date.2.2.toNat ++ text "T" ++
      padded 2 ((v / 1000000000 % 86400).toNat / 3600) ++ text ":" ++
      padded 2 ((v / 1000000000 % 86400).toNat % 3600 / 60) ++ text ":" ++
      padded 2 ((v / 1000000000 % 86400).toNat % 60) ++ text "." ++
      padded 9 (v % 1000000000).toNat ++ text "Z") := rfl
  generalize civil_from_days (v / 1000000000 / 86400) = date at hparts hback hformat
  obtain ⟨year, month, day⟩ := date
  have hyear := hparts.year
  have hmonth := hparts.month
  have hday := hparts.day
  have hyoe := hparts.year_range
  have hmp := hparts.month_range
  have hera := hparts.era_of
  simp only at hyear hmonth hday hback hformat
  -- The era of such an instant is the fifth or the sixth, so its year has four digits.
  have hyears : 0 ≤ year ∧ year < 10000 := by omega
  have hmonths : 1 ≤ month ∧ month ≤ 12 := by omega
  rw [if_neg (by omega)] at hformat
  refine ⟨year.natAbs, month.toNat, day.toNat, by omega, by omega, by omega, ?_, hformat⟩
  rw [show ((year.natAbs : Nat) : Int) = year by omega,
    show ((month.toNat : Nat) : Int) = month by omega,
    show ((day.toNat : Nat) : Int) = day by omega, hback]

/-- An instant that fits 64 bits is read back from what is written of it. -/
theorem parse_time_format_time {v : Nanos} (h : i64_range v) (reference : Nanos) :
    parse_time (format_time v) reference = some v := by
  obtain ⟨year, month, day, hyear, hmonth, hday, hdays, htext⟩ := format_time_fields h
  have hsum := instant_of_fields v
  have hseconds : (v / 1000000000 % 86400).toNat < 86400 := by omega
  have hfraction : (v % 1000000000).toNat < 10 ^ 9 := by omega
  rw [htext]
  generalize (v / 1000000000 % 86400).toNat = second at hseconds hsum
  generalize (v % 1000000000).toNat = fraction at hfraction hsum
  have hdigit : ∃ c rest, time_text year month day (second / 3600) (second % 3600 / 60)
      (second % 60) fraction = c :: rest ∧ is_digit c = true := by
    simp only [time_text, List.append_assoc]
    exact padded_append hyear _
  obtain ⟨c, rest, hcons, hc⟩ := hdigit
  rw [hcons, parse_time_of_digit hc, ← hcons,
    parse_rfc3339_written hyear hmonth hday (by omega) (by omega) (by omega) hfraction, hdays]
  rw [show kNanosPerSecond = 1000000000 from rfl, hsum, wrapped_i64_of_range h]

theorem plain_padded {width n : Nat} : Plain (padded width n) := by
  refine ⟨?_, fun c hc => (digit_plain (padded_digits width n c hc)).1⟩
  rw [padded]
  simp [decimal_ne_nil n]

theorem plain_format_time {v : Nanos} (h : i64_range v) : Plain (format_time v) := by
  obtain ⟨year, month, day, _, _, _, _, htext⟩ := format_time_fields h
  have hmark : Plain (text "-") ∧ Plain (text "T") ∧ Plain (text ":") ∧ Plain (text ".") ∧
      Plain (text "Z") := by decide
  obtain ⟨hdash, ht, hcolon, hdot, hz⟩ := hmark
  rw [htext, time_text]
  exact ((((((((((((plain_padded.append hdash).append plain_padded).append hdash).append
    plain_padded).append ht).append plain_padded).append hcolon).append plain_padded).append
    hcolon).append plain_padded).append hdot).append plain_padded).append hz

/-! ## Written durations -/

/-- A duration that the parser can produce. -/
def duration_range (v : Int) : Prop := 0 ≤ v ∧ v ≤ i64_max

/-- A count of nanoseconds, as it is written. -/
def nanos_text (v : Nanos) : Text := decimalInt v ++ text "ns"

theorem decimalInt_of_nonneg {v : Int} (h : 0 ≤ v) : decimalInt v = decimal v.toNat := by
  rw [decimalInt, if_neg (by omega)]
  congr 1
  omega

theorem parse_duration_nanos {v : Int} (h : duration_range v) :
    parse_duration_text (nanos_text v) = some v := by
  obtain ⟨hlow, hhigh⟩ := h
  unfold i64_max at hhigh
  have hletter : ∀ c ∈ (text "ns").head?, is_digit c = false := by
    intro c hc
    cases hc
    rfl
  have hsplit := takeWhile_digits (decimal_digits v.toNat) hletter
  have hmagnitude : magnitude (decimal v.toNat ++ text "ns") = some v.toNat := by
    have hsome : (decimal v.toNat).isEmpty = false := by
      simpa using decimal_ne_nil v.toNat
    simp only [magnitude, hsplit.1, hsome, Bool.false_eq_true, if_false]
    exact parse_u64_decimal (by unfold u64_limit; omega)
  have hscale : unit_scale 1 (text "ns") = some 1 := rfl
  have hnarrow : narrow_i64 v.toNat = some v := by
    rw [narrow_i64, if_pos (by unfold i64_max; omega)]
    congr 1
    omega
  have hproduct : checked_mul_signed v 1 = some v := by
    unfold checked_mul_signed
    by_cases hzero : v = 0
    · rw [if_pos (.inl hzero), hzero]
    · have hfit : ¬ v > i64_max.tdiv 1 := by
        rw [Int.tdiv_one]
        unfold i64_max
        omega
      rw [if_neg (by omega), if_pos (by omega), if_pos (by decide), if_neg hfit, Int.mul_one]
  rw [nanos_text, decimalInt_of_nonneg hlow, parse_duration_text, hmagnitude, hsplit.2, hscale]
  simp only [Option.bind_eq_bind, Option.bind_some, hnarrow, hproduct]

theorem plain_nanos {v : Nanos} (h : duration_range v) : Plain (nanos_text v) := by
  rw [nanos_text, decimalInt_of_nonneg h.1]
  exact (plain_decimal _).append (by decide)

theorem unit_scale_pos {bare scale : Nanos} {unit : Text} (hbare : 0 < bare)
    (h : unit_scale bare unit = some scale) : 0 < scale := by
  unfold unit_scale at h
  repeat' split at h
  all_goals cases h
  all_goals first | exact hbare | decide

/-- What is parsed as a duration is one. -/
theorem duration_of_parse {t : Text} {v : Nanos} (h : parse_duration_text t = some v) :
    duration_range v := by
  simp only [parse_duration_text, Option.bind_eq_bind, Option.bind_eq_some_iff] at h
  obtain ⟨value, _, scale, hscale, narrowed, hnarrowed, hproduct⟩ := h
  have hpos := unit_scale_pos (by decide) hscale
  have hnonneg : 0 ≤ narrowed := by
    unfold narrow_i64 at hnarrowed
    split at hnarrowed
    · cases hnarrowed
      omega
    · cases hnarrowed
  unfold checked_mul_signed at hproduct
  by_cases hzero : narrowed = 0 ∨ scale = 0
  · rw [if_pos hzero] at hproduct
    cases hproduct
    exact ⟨by decide, by decide⟩
  · rw [if_neg hzero, if_pos (by omega), if_pos hpos] at hproduct
    by_cases hover : narrowed > i64_max.tdiv scale
    · rw [if_pos hover] at hproduct
      cases hproduct
    · rw [if_neg hover] at hproduct
      cases hproduct
      refine ⟨Int.mul_nonneg hnonneg hpos.le, ?_⟩
      rw [Int.tdiv_eq_ediv_of_nonneg (by decide)] at hover
      exact (Int.le_ediv_iff_mul_le hpos).mp (not_lt.mp hover)

theorem i64_of_parse_time {t : Text} {reference v : Nanos} (h : parse_time t reference = some v) :
    i64_range v := by
  unfold parse_time at h
  split at h
  · cases h
  · split at h
    · simp only [parse_offset, Option.bind_eq_bind, Option.bind_eq_some_iff] at h
      obtain ⟨_, _, _, _, _, _, hv⟩ := h
      cases hv
      exact i64_range_wrapped _
    · split at h
      · simp only [parse_epoch, Option.bind_eq_bind, Option.bind_eq_some_iff] at h
        obtain ⟨_, _, _, _, hv⟩ := h
        cases hv
        exact i64_range_wrapped _
      · unfold parse_rfc3339 at h
        split at h
        · cases h
        · split at h
          · cases h
          · simp only [Option.bind_eq_bind, Option.bind_eq_some_iff] at h
            obtain ⟨_, _, _, _, _, _, _, _, _, _, _, _, h⟩ := h
            split at h
            · cases h
            · obtain ⟨_, _, h⟩ := Option.bind_eq_some_iff.mp h
              obtain ⟨_, _, h⟩ := Option.bind_eq_some_iff.mp h
              split at h
              · cases h
                exact i64_range_wrapped _
              · cases h

end MaintenanceFabric
