import MaintenanceFabric.Config.Identities
import MaintenanceFabric.Lib.Calendar

/-! # Spelled instants

    What a text says about an instant: an offset, epoch seconds, or a date and
    a time of day.  A text says one thing at most, and the parser reads it up
    to the width of the machine.
-/

namespace MaintenanceFabric

open Lib

/-! ## What a text says -/

/-- The forms of an instant. -/
inductive Spelling where
  /-- So many nanoseconds, times so many, before or after the reference. -/
  | offset (negative : Bool) (count unit : Nat)
  | epoch (seconds : Nat)
  /-- A moment, and nanoseconds behind it. -/
  | date (moment : Moment) (fraction : Nat)

namespace Spelling

/-- The instant it denotes. -/
def value (reference : Int) : Spelling → Int
  | .offset negative count unit =>
      if negative then reference - (count * unit : Nat) else reference + (count * unit : Nat)
  | .epoch seconds => seconds * 1000000000
  | .date moment fraction => moment.seconds * 1000000000 + fraction

/-- Is there such an instant? -/
def Exists : Spelling → Prop
  | .date moment _ => moment.Real
  | _ => True

end Spelling

/-- The units of an offset; a number alone counts seconds. -/
def offset_units : List (Text × Nat) :=
  [([], 1000000000), (text "ns", 1), (text "us", 1000), (text "ms", 1000000),
    (text "s", 1000000000), (text "m", 60000000000), (text "h", 3600000000000)]

/-- Exactly so many digits. -/
structure FixedDigits (width : Nat) (t : Text) : Prop where
  length : t.length = width
  digits : ∀ c ∈ t, is_digit c = true

/-- The fraction of a second, in nanoseconds: nothing, or a point and up to nine digits. -/
inductive SpellsFraction : Text → Nat → Prop
  | none : SpellsFraction [] 0
  | digits {digits : Text} (all : ∀ c ∈ digits, is_digit c = true) (some_digit : 1 ≤ digits.length)
      (few : digits.length ≤ 9) :
      SpellsFraction (46 :: digits) (digits_value digits * 10 ^ (9 - digits.length))

/-- The moment with these digits. -/
def spelled_moment (year month day hour minute second : Text) : Moment :=
  ⟨digits_value year, digits_value month, digits_value day, digits_value hour,
    digits_value minute, digits_value second⟩

/-- `Z`, or an offset of zero. -/
def zones : List Text := [text "Z", text "z", text "+00:00", text "-00:00"]

inductive Spells : Text → Spelling → Prop
  | offset (negative : Bool) {digits unit : Text} {scale : Nat} (count : Digits digits)
      (known : (unit, scale) ∈ offset_units) :
      Spells ((if negative then 45 else 43) :: (digits ++ unit))
        (.offset negative (digits_value digits) scale)
  | epoch {digits : Text} (seconds : Digits digits) :
      Spells (text "epoch:" ++ digits) (.epoch (digits_value digits))
  | date {year month day hour minute second fraction zone : Text} {mark : UInt8} {nanos : Nat}
      (hyear : FixedDigits 4 year) (hmonth : FixedDigits 2 month) (hday : FixedDigits 2 day)
      (hmark : mark = 84 ∨ mark = 116)
      (hhour : FixedDigits 2 hour) (hminute : FixedDigits 2 minute) (hsecond : FixedDigits 2 second)
      (hfraction : SpellsFraction fraction nanos) (hzone : zone ∈ zones) :
      Spells (year ++ 45 :: (month ++ 45 :: (day ++ mark :: (hour ++ colon :: (minute ++ colon ::
          (second ++ (fraction ++ zone)))))))
        (.date (spelled_moment year month day hour minute second) nanos)

/-! ## One reading -/

theorem digits_value_lt {t : Text} (h : ∀ c ∈ t, is_digit c = true) :
    digits_value t < 10 ^ t.length := by
  have hlt := Nat.ofDigits_lt_base_pow_length (b := 10)
    (l := t.reverse.map (fun c : UInt8 => c.toNat - 48)) (by decide) ?_
  · simpa [digits_value] using hlt
  · intro d hd
    obtain ⟨c, hc, rfl⟩ := List.mem_map.mp hd
    have hdigit := h c (List.mem_reverse.mp hc)
    simp only [is_digit, Bool.and_eq_true, decide_eq_true_eq] at hdigit
    have hbound : c.toNat ≤ 57 := hdigit.2
    omega

theorem FixedDigits.value_lt {width : Nat} {t : Text} (h : FixedDigits width t) :
    digits_value t < 10 ^ width := by
  have hlt := digits_value_lt h.digits
  rwa [h.length] at hlt

/-- A field of up to nine digits is read as its value. -/
theorem fixed_uint_iff {width : Nat} {t : Text} (hwidth : 1 ≤ width) (hshort : width ≤ 9)
    (hlength : t.length = width) {n : Nat} :
    fixed_uint t = some n ↔ FixedDigits width t ∧ n = digits_value t := by
  unfold fixed_uint
  by_cases hall : t.all is_digit = true
  · have hdigits : ∀ c ∈ t, is_digit c = true := List.all_eq_true.mp hall
    have hfixed : FixedDigits width t := ⟨hlength, hdigits⟩
    have hlt := hfixed.value_lt
    have hpow : 10 ^ width ≤ 10 ^ 9 := Nat.pow_le_pow_right (by decide) hshort
    have hvalue : parse_u64 t = some (digits_value t) :=
      parse_u64_iff.mpr ⟨⟨hdigits, by omega, by omega⟩, by unfold u64_limit; omega, rfl⟩
    have hnarrow : narrow_u32 (digits_value t) = some (digits_value t) := if_pos (by omega)
    rw [if_pos hall, parse_u32, hvalue, Option.bind_some, hnarrow, Option.some.injEq]
    constructor
    · rintro rfl
      exact ⟨hfixed, rfl⟩
    · rintro ⟨_, rfl⟩
      rfl
  · rw [if_neg hall]
    constructor
    · intro h
      cases h
    · rintro ⟨hfixed, _⟩
      exact absurd (List.all_eq_true.mpr hfixed.digits) hall

/-- No zone begins with a digit or a point. -/
theorem zone_head {zone : Text} (h : zone ∈ zones) :
    ∃ c rest, zone = c :: rest ∧ is_digit c = false ∧ c ≠ 46 := by
  simp only [zones, List.mem_cons, List.not_mem_nil, or_false] at h
  rcases h with rfl | rfl | rfl | rfl <;> exact ⟨_, _, rfl, by decide, by decide⟩

theorem foldl_push_decimal_digit (t : Text) (v : Nat) :
    t.foldl push_decimal_digit v = v * 10 ^ t.length + digits_value t := by
  induction t generalizing v with
  | nil => simp [digits_value]
  | cons c t ih =>
    rw [List.foldl_cons, ih, digits_value_cons, List.length_cons, pow_succ, push_decimal_digit]
    ring

theorem parse_fraction_spelled {fraction zone : Text} {nanos : Nat}
    (h : SpellsFraction fraction nanos) (hzone : zone ∈ zones) :
    parse_fraction (fraction ++ zone) = some (nanos, zone) := by
  obtain ⟨c, rest, rfl, hc, hpoint⟩ := zone_head hzone
  cases h with
  | none => simp [parse_fraction, hpoint]
  | @digits digits all some_digit few =>
    have hrest : ∀ d ∈ (c :: rest).head?, is_digit d = false := by
      intro d hd
      cases hd
      exact hc
    have htake := (takeWhile_digits all hrest).1
    have hwhole : digits.take 9 = digits := List.take_of_length_le few
    have hsome : digits.isEmpty = false := by
      rw [List.isEmpty_eq_false_iff]
      exact List.length_pos_iff.mp some_digit
    have hvalue : digits.foldl push_decimal_digit 0 = digits_value digits := by
      rw [foldl_push_decimal_digit, Nat.zero_mul, Nat.zero_add]
    rw [List.cons_append]
    unfold parse_fraction
    simp only [htake, hwhole, hsome, hvalue, List.drop_left, if_true, Bool.false_eq_true, if_false]

theorem spelled_of_parse_fraction {t rest : Text} {nanos : Nat}
    (h : parse_fraction t = some (nanos, rest)) :
    ∃ fraction, t = fraction ++ rest ∧ SpellsFraction fraction nanos := by
  cases t with
  | nil =>
    cases h
    exact ⟨[], rfl, .none⟩
  | cons c t =>
    rw [parse_fraction] at h
    by_cases hpoint : c = 46
    · rw [if_pos hpoint] at h
      simp only at h
      -- At most nine digits are read; a tenth is left over, and then refused.
      generalize hdigits : (t.takeWhile is_digit).take 9 = digits at h
      by_cases hempty : digits.isEmpty = true
      · rw [if_pos hempty] at h
        cases h
      · rw [if_neg hempty] at h
        cases h
        have hprefix : digits <+: t := by
          rw [← hdigits]
          exact (List.take_prefix _ _).trans (List.takeWhile_prefix _)
        have hall : ∀ d ∈ digits, is_digit d = true := by
          intro d hd
          rw [← hdigits] at hd
          exact List.all_eq_true.mp List.all_takeWhile d (List.mem_of_mem_take hd)
        have hfew : digits.length ≤ 9 := by
          rw [← hdigits]
          exact List.length_take_le _ _
        have hsome : 1 ≤ digits.length := by
          rw [List.isEmpty_iff] at hempty
          exact List.length_pos_iff.mpr hempty
        refine ⟨46 :: digits, ?_, ?_⟩
        · obtain ⟨rest, rfl⟩ := hprefix
          rw [hpoint, List.drop_left, List.cons_append]
        · rw [foldl_push_decimal_digit, Nat.zero_mul, Nat.zero_add]
          exact .digits hall hsome hfew
    · rw [if_neg hpoint] at h
      cases h
      exact ⟨[], rfl, .none⟩

theorem two_zeros {t : Text} (hlength : t.length = 2) : fixed_uint t = some 0 ↔ t = [48, 48] := by
  obtain ⟨a, b, rfl⟩ := List.length_eq_two.mp hlength
  rw [fixed_uint_iff (by decide) (by decide) hlength]
  constructor
  · rintro ⟨hfixed, hvalue⟩
    have ha := hfixed.digits a (by simp)
    have hb := hfixed.digits b (by simp)
    simp only [is_digit, Bool.and_eq_true, decide_eq_true_eq] at ha hb
    rw [digits_value_cons, digits_value_cons] at hvalue
    have ha' : 48 ≤ a.toNat := ha.1
    have hb' : 48 ≤ b.toNat := hb.1
    simp only [List.length_cons, List.length_nil] at hvalue
    have hzero : a = 48 ∧ b = 48 := by
      constructor <;> apply UInt8.toNat_inj.mp <;> simp <;> omega
    rw [hzero.1, hzero.2]
  · intro h
    cases h
    exact ⟨⟨rfl, by decide +kernel⟩, rfl⟩

theorem parse_zone_iff {t : Text} : parse_zone t = some [] ↔ t ∈ zones := by
  constructor
  · intro h
    cases t with
    | nil => cases h
    | cons c rest =>
      rw [parse_zone] at h
      by_cases hz : c = 90 ∨ c = 122
      -- `Z`, in either case, has to end the text.
      · rw [if_pos hz] at h
        cases h
        rcases hz with rfl | rfl <;> decide
      · rw [if_neg hz] at h
        by_cases hsign : (c = 43 ∨ c = 45) ∧ rest.length ≥ 5 ∧ rest[2]? = some colon
        · rw [if_pos hsign] at h
          obtain ⟨hc, hlong, hmark⟩ := hsign
          by_cases hzero : fixed_uint (rest.take 2) = some 0 ∧
              fixed_uint ((rest.drop 3).take 2) = some 0
          · rw [if_pos hzero] at h
            have hshort : rest.length ≤ 5 := List.drop_eq_nil_iff.mp (Option.some.inj h)
            obtain ⟨a, b, d, e, f, rfl⟩ : ∃ a b d e f, rest = [a, b, d, e, f] := by
              rcases rest with _ | ⟨a, _ | ⟨b, _ | ⟨d, _ | ⟨e, _ | ⟨f, _ | ⟨g, rest⟩⟩⟩⟩⟩⟩ <;>
                simp only [List.length_cons, List.length_nil] at hlong hshort <;> try omega
              exact ⟨a, b, d, e, f, rfl⟩
            obtain ⟨hhours, hminutes⟩ := hzero
            obtain ⟨rfl, rfl⟩ : a = 48 ∧ b = 48 := by simpa using (two_zeros rfl).mp hhours
            obtain ⟨rfl, rfl⟩ : e = 48 ∧ f = 48 := by simpa using (two_zeros rfl).mp hminutes
            obtain rfl : d = colon := Option.some.inj hmark
            rcases hc with rfl | rfl <;> decide
          · rw [if_neg hzero] at h
            cases h
        · rw [if_neg hsign] at h
          cases h
  · intro h
    simp only [zones, List.mem_cons, List.not_mem_nil, or_false] at h
    rcases h with rfl | rfl | rfl | rfl <;> decide

/-! ## What the parser takes -/

/-- The moment's fields are within the bounds the parser checks. -/
structure Plausible (a : Moment) : Prop where
  month : 1 ≤ a.month ∧ a.month ≤ 12
  day : 1 ≤ a.day ∧ a.day ≤ 31
  hour : a.hour ≤ 23
  minute : a.minute ≤ 59
  second : a.second ≤ 60

/-- Does the parser take the text? -/
def Spelling.Taken : Spelling → Prop
  | .offset _ count _ => (count : Int) ≤ i64_max
  | .epoch seconds => (seconds : Int) ≤ i64_max
  | .date moment _ => Plausible moment

theorem narrow_i64_iff {n : Nat} {v : Int} :
    narrow_i64 n = some v ↔ (n : Int) ≤ i64_max ∧ v = n := by
  unfold narrow_i64
  by_cases h : (n : Int) ≤ i64_max
  · rw [if_pos h, Option.some.injEq]
    constructor
    · rintro rfl
      exact ⟨h, rfl⟩
    · rintro ⟨_, rfl⟩
      rfl
  · rw [if_neg h]
    simp [h]

theorem offset_scale_iff {unit : Text} {scale : Nanos} :
    unit_scale kNanosPerSecond unit = some scale ↔
      ∃ n, (unit, n) ∈ offset_units ∧ scale = (n : Int) := by
  have hsame : unit ≠ [] → (unit_scale kNanosPerSecond unit = unit_scale 1 unit ∧
      ∀ n, (unit, n) ∈ offset_units ↔ (unit, n) ∈ duration_units) := by
    intro hne
    have hsome : unit.isEmpty = false := List.isEmpty_eq_false_iff.mpr hne
    constructor
    · simp only [unit_scale, hsome, Bool.false_eq_true, if_false]
    · intro n
      simp [offset_units, duration_units, hne]
  by_cases hempty : unit = []
  · rw [hempty]
    constructor
    · intro h
      cases h
      exact ⟨1000000000, by decide, rfl⟩
    · rintro ⟨n, hmem, rfl⟩
      have hn : n = 1000000000 := by
        have hall : ∀ p ∈ offset_units, p.1 = [] → p.2 = 1000000000 := by decide
        exact hall _ hmem rfl
      rw [hn]
      rfl
  · obtain ⟨hscale, hunits⟩ := hsame hempty
    rw [hscale, unit_scale_iff]
    simp only [hunits]

theorem offset_letter {unit : Text} {n : Nat} (h : (unit, n) ∈ offset_units) :
    ∀ c ∈ unit.head?, is_digit c = false := by
  have hall : ∀ p ∈ offset_units, ∀ c ∈ p.1.head?, is_digit c = false := by
    decide +kernel
  exact hall _ h

theorem parse_offset_iff {negative : Bool} {body : Text} {reference v : Nanos} :
    parse_offset negative body reference = some v ↔ ∃ digits unit scale, body = digits ++ unit ∧
      Digits digits ∧ (unit, scale) ∈ offset_units ∧
      (Spelling.offset negative (digits_value digits) scale).Taken ∧
      v = wrapped_i64 ((Spelling.offset negative (digits_value digits) scale).value reference) := by
  -- The two branches of the parser are one value with its sign.
  have hvalue : ∀ digits (scale : Nat), (if negative then
        reference - ((digits_value digits : Nat) : Int) * scale
      else reference + ((digits_value digits : Nat) : Int) * scale) =
      (Spelling.offset negative (digits_value digits) scale).value reference := by
    intro digits scale
    simp only [Spelling.value]
    push_cast
    rfl
  simp only [parse_offset, Option.bind_eq_bind, Option.bind_eq_some_iff, Option.some.injEq]
  constructor
  · rintro ⟨count, hcount, scale, hscale, delta, hdelta, rfl⟩
    obtain ⟨hdigits, hlt, rfl⟩ := parse_u64_iff.mp (magnitude_iff.mp hcount)
    obtain ⟨n, hunit, rfl⟩ := offset_scale_iff.mp hscale
    obtain ⟨htaken, rfl⟩ := narrow_i64_iff.mp hdelta
    exact ⟨_, _, n, List.takeWhile_append_dropWhile.symm, hdigits, hunit, htaken,
      congrArg wrapped_i64 (hvalue _ n)⟩
  · rintro ⟨digits, unit, n, rfl, hdigits, hunit, htaken, rfl⟩
    obtain ⟨htake, hdrop⟩ := takeWhile_digits hdigits.digits (offset_letter hunit)
    have hlt : digits_value digits < u64_limit := by
      have hcount : ((digits_value digits : Nat) : Int) ≤ i64_max := htaken
      unfold i64_max at hcount
      unfold u64_limit
      omega
    refine ⟨digits_value digits, ?_, n, ?_, digits_value digits,
      narrow_i64_iff.mpr ⟨htaken, rfl⟩, ?_⟩
    · rw [magnitude_iff, htake]
      exact parse_u64_iff.mpr ⟨hdigits, hlt, rfl⟩
    · rw [hdrop]
      exact offset_scale_iff.mpr ⟨n, hunit, rfl⟩
    · exact congrArg wrapped_i64 (hvalue digits n)

theorem parse_epoch_iff {digits : Text} {v : Nanos} (reference : Nanos) :
    parse_epoch digits = some v ↔ Digits digits ∧ (Spelling.epoch (digits_value digits)).Taken ∧
      v = wrapped_i64 ((Spelling.epoch (digits_value digits)).value reference) := by
  have hvalue : ∀ n : Nat, (Spelling.epoch n).value reference = (n : Int) * kNanosPerSecond :=
    fun _ => rfl
  simp only [parse_epoch, Option.bind_eq_bind, Option.bind_eq_some_iff, Option.some.injEq]
  constructor
  · rintro ⟨secs, hsecs, as_i64, has, rfl⟩
    obtain ⟨hdigits, hlt, rfl⟩ := parse_u64_iff.mp hsecs
    obtain ⟨htaken, rfl⟩ := narrow_i64_iff.mp has
    exact ⟨hdigits, htaken, congrArg wrapped_i64 (hvalue _).symm⟩
  · rintro ⟨hdigits, htaken, hv⟩
    have hlt : digits_value digits < u64_limit := by
      have hcount : ((digits_value digits : Nat) : Int) ≤ i64_max := htaken
      unfold i64_max at hcount
      unfold u64_limit
      omega
    exact ⟨_, parse_u64_iff.mpr ⟨hdigits, hlt, rfl⟩, _, narrow_i64_iff.mpr ⟨htaken, rfl⟩,
      hv.symm⟩

/-- The code's day number is the calendar's. -/
theorem days_from_civil_eq {y m d : Nat} (h : 1 ≤ m ∧ m ≤ 12) :
    days_from_civil y m d = day_number y m d := by
  obtain ⟨hfirst, hlast⟩ := h
  unfold days_from_civil
  simp only
  rw [show (399 : Int) = 400 - 1 from rfl, tdiv_down (by decide)]
  unfold day_number days_before_year
  rw [days_before_month_eq y ⟨hfirst, hlast⟩]
  by_cases hmonth : m ≤ 2
  · rw [if_pos (by omega : (m : Int) ≤ 2), if_neg (by omega : ¬ (m : Int) > 2), if_pos hmonth]
    have hfew : m = 1 ∨ m = 2 := by omega
    rcases hfew with rfl | rfl <;> push_cast <;> omega
  · rw [if_neg (by omega : ¬ (m : Int) ≤ 2), if_pos (by omega : (m : Int) > 2), if_neg hmonth]
    by_cases hleap : leap y
    · rw [if_pos hleap]
      unfold leap at hleap
      push_cast
      omega
    · rw [if_neg hleap]
      unfold leap at hleap
      push_cast
      omega

theorem cut {t : Text} {n : Nat} {c : UInt8} (h : t[n]? = some c) :
    t = t.take n ++ c :: t.drop (n + 1) := by
  obtain ⟨hlt, hc⟩ := List.getElem?_eq_some_iff.mp h
  rw [← hc, List.cons_getElem_drop_succ, List.take_append_drop]

/-- The marks a date is recognised by. -/
theorem laid_out {t : Text} (hlong : ¬ t.length < 20)
    (hmarks : ¬ (t[4]? ≠ some 45 ∨ t[7]? ≠ some 45 ∨ (t[10]? ≠ some 84 ∧ t[10]? ≠ some 116) ∨
      t[13]? ≠ some colon ∨ t[16]? ≠ some colon)) :
    ∃ (year month day hour minute second rest : Text) (mark : UInt8),
      year.length = 4 ∧ month.length = 2 ∧ day.length = 2 ∧ (mark = 84 ∨ mark = 116) ∧
      hour.length = 2 ∧ minute.length = 2 ∧ second.length = 2 ∧ rest ≠ [] ∧
      t = year ++ 45 :: (month ++ 45 :: (day ++ mark :: (hour ++ colon :: (minute ++ colon ::
        (second ++ rest))))) := by
  simp only [not_or, not_and_or, not_not] at hmarks
  obtain ⟨hyear, hmonth, hday, hhour, hminute⟩ := hmarks
  obtain ⟨mark, hmark, hday⟩ : ∃ mark : UInt8, (mark = 84 ∨ mark = 116) ∧ t[10]? = some mark := by
    rcases hday with hday | hday
    · exact ⟨84, .inl rfl, hday⟩
    · exact ⟨116, .inr rfl, hday⟩
  have hafter : ∀ n k (c : UInt8), t[n + k]? = some c → (t.drop n)[k]? = some c := by
    intro n k c h
    rw [List.getElem?_drop]
    exact h
  have hsplit := cut hyear
  rw [cut (hafter 5 2 45 hmonth), List.drop_drop, cut (hafter 8 2 mark hday), List.drop_drop,
    cut (hafter 11 2 colon hhour), List.drop_drop, cut (hafter 14 2 colon hminute), List.drop_drop,
    ← List.take_append_drop 2 (t.drop 17), List.drop_drop] at hsplit
  refine ⟨_, _, _, _, _, _, _, mark, ?_, ?_, ?_, hmark, ?_, ?_, ?_, ?_, hsplit⟩ <;>
    first
    | (simp only [List.length_take, List.length_drop]; omega)
    | (rw [ne_eq, List.drop_eq_nil_iff]; omega)

theorem parse_rest_iff {rest : Text} {nanos : Nat} :
    (∃ found, parse_fraction rest = some (nanos, found) ∧ parse_zone found = some []) ↔
      ∃ fraction zone, rest = fraction ++ zone ∧ SpellsFraction fraction nanos ∧ zone ∈ zones := by
  constructor
  · rintro ⟨found, hfraction, hzone⟩
    obtain ⟨fraction, hrest, hspelled⟩ := spelled_of_parse_fraction hfraction
    exact ⟨fraction, found, hrest, hspelled, parse_zone_iff.mp hzone⟩
  · rintro ⟨fraction, zone, rfl, hspelled, hzone⟩
    exact ⟨zone, parse_fraction_spelled hspelled hzone, parse_zone_iff.mpr hzone⟩

theorem bounds_iff {a : Moment} :
    ¬ (a.month < 1 ∨ a.month > 12 ∨ a.day < 1 ∨ a.day > 31 ∨ a.hour > 23 ∨ a.minute > 59 ∨
      a.second > 60) ↔ Plausible a := by
  constructor
  · intro h
    exact ⟨by omega, by omega, by omega, by omega, by omega⟩
  · intro h
    have hmonth := h.month
    have hday := h.day
    have hhour := h.hour
    have hminute := h.minute
    have hsecond := h.second
    omega

/-- The date that stands at the parser's places. -/
theorem parse_fields_iff {year month day hour minute second rest : Text} {mark : UInt8}
    (hyear : year.length = 4) (hmonth : month.length = 2) (hday : day.length = 2)
    (hmark : mark = 84 ∨ mark = 116) (hhour : hour.length = 2) (hminute : minute.length = 2)
    (hsecond : second.length = 2) (hrest : rest ≠ []) {v : Nanos} :
    parse_rfc3339 (year ++ 45 :: (month ++ 45 :: (day ++ mark :: (hour ++ colon :: (minute ++
        colon :: (second ++ rest)))))) = some v ↔
      FixedDigits 4 year ∧ FixedDigits 2 month ∧ FixedDigits 2 day ∧ FixedDigits 2 hour ∧
      FixedDigits 2 minute ∧ FixedDigits 2 second ∧
      Plausible (spelled_moment year month day hour minute second) ∧
      ∃ nanos, (∃ fraction zone, rest = fraction ++ zone ∧ SpellsFraction fraction nanos ∧
        zone ∈ zones) ∧ v = wrapped_i64
          ((spelled_moment year month day hour minute second).seconds *
          kNanosPerSecond + nanos) := by
  rw [parse_rfc3339_fields hyear hmonth hday hmark hhour hminute hsecond hrest]
  simp only [Option.bind_eq_bind, Option.bind_eq_some_iff,
    fixed_uint_iff (by decide) (by decide) hyear, fixed_uint_iff (by decide) (by decide) hmonth,
    fixed_uint_iff (by decide) (by decide) hday, fixed_uint_iff (by decide) (by decide) hhour,
    fixed_uint_iff (by decide) (by decide) hminute, fixed_uint_iff (by decide) (by decide) hsecond]
  constructor
  · rintro ⟨_, ⟨hy, rfl⟩, _, ⟨hm, rfl⟩, _, ⟨hd, rfl⟩, _, ⟨hh, rfl⟩, _, ⟨hn, rfl⟩, _, ⟨hs, rfl⟩, h⟩
    refine ⟨hy, hm, hd, hh, hn, hs, ?_⟩
    split at h
    · cases h
    · next hbounds =>
      have hlikely := (bounds_iff (a := spelled_moment year month day hour minute
        second)).mp hbounds
      obtain ⟨⟨nanos, found⟩, hfraction, h⟩ := Option.bind_eq_some_iff.mp h
      obtain ⟨left, hzone, h⟩ := Option.bind_eq_some_iff.mp h
      -- Nothing may stand behind the zone.
      by_cases hend : left.isEmpty = true
      · rw [if_pos hend, Option.some.injEq] at h
        rw [List.isEmpty_iff.mp hend] at hzone
        refine ⟨hlikely, nanos, parse_rest_iff.mp ⟨found, hfraction, hzone⟩, ?_⟩
        have hdays : days_from_civil (digits_value year) (digits_value month) (digits_value day) =
            day_number (digits_value year) (digits_value month) (digits_value day) :=
          days_from_civil_eq hlikely.month
        rw [← h, hdays]
        rfl
      · rw [if_neg hend] at h
        cases h
  · rintro ⟨hy, hm, hd, hh, hn, hs, hlikely, nanos, hspelled, rfl⟩
    obtain ⟨found, hfraction, hzone⟩ := parse_rest_iff.mpr hspelled
    refine ⟨_, ⟨hy, rfl⟩, _, ⟨hm, rfl⟩, _, ⟨hd, rfl⟩, _, ⟨hh, rfl⟩, _, ⟨hn, rfl⟩, _, ⟨hs, rfl⟩, ?_⟩
    have hbounds := bounds_iff.mpr hlikely
    have hdays : days_from_civil (digits_value year) (digits_value month) (digits_value day) =
        day_number (digits_value year) (digits_value month) (digits_value day) :=
      days_from_civil_eq hlikely.month
    simp only [spelled_moment] at hbounds
    rw [if_neg hbounds, hfraction, Option.bind_some, hzone, Option.bind_some,
      if_pos (by rfl), hdays]
    rfl

theorem parse_rfc3339_iff {t : Text} {v : Nanos} (reference : Nanos) :
    parse_rfc3339 t = some v ↔ ∃ moment nanos, Spells t (.date moment nanos) ∧
      (Spelling.date moment nanos).Taken ∧
      v = wrapped_i64 ((Spelling.date moment nanos).value reference) := by
  constructor
  · intro h
    have hlaid := h
    unfold parse_rfc3339 at hlaid
    split at hlaid
    · cases hlaid
    · next hlong =>
      split at hlaid
      · cases hlaid
      · next hmarks =>
        obtain ⟨year, month, day, hour, minute, second, rest, mark, hyear, hmonth, hday, hmark,
          hhour, hminute, hsecond, hrest, rfl⟩ := laid_out hlong hmarks
        obtain ⟨hy, hm, hd, hh, hn, hs, hlikely, nanos, ⟨fraction, zone, rfl, hfraction,
          hzone⟩, rfl⟩ :=
            (parse_fields_iff hyear hmonth hday hmark hhour hminute hsecond hrest).mp h
        exact ⟨_, nanos, .date hy hm hd hmark hh hn hs hfraction hzone, hlikely, rfl⟩
  · rintro ⟨moment, nanos, hspelled, hlikely, rfl⟩
    cases hspelled with
    | date hy hm hd hmark hh hn hs hfraction hzone =>
      refine (parse_fields_iff hy.length hm.length hd.length hmark hh.length hn.length hs.length
        ?_).mpr ⟨hy, hm, hd, hh, hn, hs, hlikely, nanos, ⟨_, _, rfl, hfraction, hzone⟩,
          rfl⟩
      obtain ⟨c, rest, rfl, _, _⟩ := zone_head hzone
      simp

theorem starts_with_digit {t : Text} {moment : Moment} {nanos : Nat}
    (h : Spells t (.date moment nanos)) : ∃ c rest, t = c :: rest ∧ is_digit c = true := by
  cases h with
  | date hy _ _ _ _ _ _ _ _ =>
    obtain ⟨a, b, c, d, rfl⟩ := List.length_eq_four.mp hy.length
    exact ⟨a, _, rfl, hy.digits a List.mem_cons_self⟩

/-- What the parser takes, it reads as what it says, up to the width of the machine. -/
theorem parse_time_iff {t : Text} {reference v : Nanos} :
    parse_time t reference = some v ↔
      ∃ s, Spells t s ∧ s.Taken ∧ v = wrapped_i64 (s.value reference) := by
  constructor
  · intro h
    cases t with
    | nil => cases h
    | cons c body =>
      rw [parse_time] at h
      -- The parser decides by the first characters, as the spellings differ in them.
      by_cases hsign : c = 43 ∨ c = 45
      · rw [if_pos hsign] at h
        obtain ⟨digits, unit, scale, rfl, hdigits, hunit, htaken, hv⟩ := parse_offset_iff.mp h
        refine ⟨_, ?_, htaken, hv⟩
        have hspells := Spells.offset (decide (c = 45)) hdigits hunit
        rcases hsign with rfl | rfl <;> exact hspells
      · rw [if_neg hsign] at h
        by_cases hepoch : (c :: body).take 6 = text "epoch:"
        · rw [if_pos hepoch] at h
          obtain ⟨hdigits, htaken, hv⟩ := (parse_epoch_iff reference).mp h
          refine ⟨_, ?_, htaken, hv⟩
          have hspells := Spells.epoch hdigits
          rwa [← hepoch, List.take_append_drop] at hspells
        · rw [if_neg hepoch] at h
          obtain ⟨moment, nanos, hspells, htaken, hv⟩ := (parse_rfc3339_iff reference).mp h
          exact ⟨_, hspells, htaken, hv⟩
  · rintro ⟨s, hspells, htaken, hv⟩
    cases s with
    | offset negative count unit =>
      cases hspells with
      | offset _ hdigits hunit =>
        have hoffset := parse_offset_iff.mpr ⟨_, _, _, rfl, hdigits, hunit, htaken, hv⟩
        cases negative <;> exact hoffset
    | epoch seconds =>
      cases hspells with
      | epoch hdigits => exact (parse_epoch_iff reference).mpr ⟨hdigits, htaken, hv⟩
    | date moment nanos =>
      obtain ⟨c, rest, rfl, hc⟩ := starts_with_digit hspells
      rw [parse_time_of_digit hc]
      exact (parse_rfc3339_iff reference).mpr ⟨moment, nanos, hspells, htaken, hv⟩

/-! ## One meaning -/

theorem fraction_unique {fraction fraction' zone zone' : Text} {nanos nanos' : Nat}
    (h : SpellsFraction fraction nanos) (h' : SpellsFraction fraction' nanos')
    (hzone : zone ∈ zones) (hzone' : zone' ∈ zones) (heq : fraction ++ zone = fraction' ++ zone') :
    nanos = nanos' := by
  have hparse := parse_fraction_spelled h hzone
  rw [heq, parse_fraction_spelled h' hzone', Option.some.injEq] at hparse
  exact (congrArg Prod.fst hparse).symm

theorem offset_unit_unique {unit : Text} {n m : Nat} (h : (unit, n) ∈ offset_units)
    (h' : (unit, m) ∈ offset_units) : n = m := by
  have hall : ∀ p ∈ offset_units, ∀ q ∈ offset_units, p.1 = q.1 → p.2 = q.2 := by decide
  exact hall _ h _ h' rfl

/-- The first character tells the forms apart. -/
def Spelling.mark : Spelling → UInt8 → Prop
  | .offset negative _ _ => (· = if negative then 45 else 43)
  | .epoch _ => (· = 101)
  | .date _ _ => (is_digit · = true)

theorem Spells.head {t : Text} {s : Spelling} (h : Spells t s) :
    ∃ c rest, t = c :: rest ∧ s.mark c := by
  cases s with
  | offset negative count unit =>
    cases h with
    | offset _ _ _ => exact ⟨_, _, rfl, rfl⟩
  | epoch seconds =>
    cases h with
    | epoch _ => exact ⟨101, _, rfl, rfl⟩
  | date moment nanos => exact starts_with_digit h

/-- A text says one thing at most. -/
theorem spells_unique {t : Text} {s s' : Spelling} (h : Spells t s)
    (h' : Spells t s') : s = s' := by
  obtain ⟨c, rest, hcons, hmark⟩ := h.head
  obtain ⟨c', rest', hcons', hmark'⟩ := h'.head
  obtain rfl : c = c' := by
    rw [hcons] at hcons'
    exact (List.cons.inj hcons').1
  -- The first character tells the three kinds apart; within one kind the parts are read off.
  clear hcons hcons'
  cases h with
  | @offset negative digits unit scale hdigits hunit =>
    generalize htext : (if negative then (45 : UInt8) else 43) :: (digits ++ unit) = t at h'
    cases h' with
    | @offset negative' digits' unit' scale' hdigits' hunit' =>
      obtain ⟨hsign, hbody⟩ := List.cons.inj htext
      have hnegative : negative = negative' := by
        cases negative <;> cases negative' <;> first | rfl | cases hsign
      have hsplit := takeWhile_digits hdigits.digits (offset_letter hunit)
      rw [hbody] at hsplit
      have hsplit' := takeWhile_digits hdigits'.digits (offset_letter hunit')
      obtain rfl : digits = digits' := hsplit.1.symm.trans hsplit'.1
      obtain rfl : unit = unit' := hsplit.2.symm.trans hsplit'.2
      rw [hnegative, offset_unit_unique hunit hunit']
    | epoch _ =>
      have hhead : (if negative then (45 : UInt8) else 43) = 101 := (List.cons.inj htext).1
      cases negative <;> cases hhead
    | date _ _ _ _ _ _ _ _ _ =>
      simp only [Spelling.mark] at hmark hmark'
      rw [hmark] at hmark'
      cases negative <;> cases hmark'
  | @epoch digits hdigits =>
    generalize htext : text "epoch:" ++ digits = t at h'
    cases h' with
    | @offset negative _ _ _ _ _ =>
      have hhead : (101 : UInt8) = if negative then 45 else 43 := (List.cons.inj htext).1
      cases negative <;> cases hhead
    | epoch _ => rw [List.append_cancel_left htext]
    | date _ _ _ _ _ _ _ _ _ =>
      simp only [Spelling.mark] at hmark hmark'
      rw [hmark] at hmark'
      cases hmark'
  | @date year month day hour minute second fraction zone mark nanos hy hm hd hmk hh hn hs hf hz =>
    generalize htext : year ++ 45 :: (month ++ 45 :: (day ++ mark :: (hour ++ colon :: (minute ++
      colon :: (second ++ (fraction ++ zone)))))) = t at h'
    cases h' with
    | @offset negative _ _ _ _ _ =>
      simp only [Spelling.mark] at hmark hmark'
      rw [hmark'] at hmark
      cases negative <;> cases hmark
    | epoch _ =>
      simp only [Spelling.mark] at hmark hmark'
      rw [hmark'] at hmark
      cases hmark
    | date hy' hm' hd' hmk' hh' hn' hs' hf' hz' =>
      -- The fields before the fraction have fixed widths, so equal texts split alike.
      obtain ⟨rfl, hmonths⟩ := List.append_inj htext (hy.length.trans hy'.length.symm)
      obtain ⟨rfl, hdays⟩ := List.append_inj (List.cons.inj hmonths).2
        (hm.length.trans hm'.length.symm)
      obtain ⟨rfl, hhours⟩ := List.append_inj (List.cons.inj hdays).2
        (hd.length.trans hd'.length.symm)
      obtain ⟨rfl, hminutes⟩ := List.append_inj (List.cons.inj hhours).2
        (hh.length.trans hh'.length.symm)
      obtain ⟨rfl, hseconds⟩ := List.append_inj (List.cons.inj hminutes).2
        (hn.length.trans hn'.length.symm)
      obtain ⟨rfl, hrest⟩ := List.append_inj (List.cons.inj hseconds).2
        (hs.length.trans hs'.length.symm)
      rw [fraction_unique hf hf' hz hz' hrest]

end MaintenanceFabric
