import MaintenanceFabric.Config.Spellings

/-! # Instants in text, read back

    Instants that are written are read back.  Of other texts the parser reads
    the value right as long as nothing overflows and the date is one of the
    calendar, neither of which it checks.
-/

namespace MaintenanceFabric

open Lib

/-! ## Exactness -/

/-- The numbers formed on the way to the value, and the value. -/
def Spelling.sums (reference : Int) (s : Spelling) : List Int :=
  match s with
  | .offset _ count unit => [count, (count * unit : Nat), s.value reference]
  | .epoch seconds => [seconds, s.value reference]
  | .date a _ =>
      let days := day_number a.year a.month a.day
      [days, days * 86400, days * 86400 + a.hour * 3600,
        days * 86400 + a.hour * 3600 + a.minute * 60, a.seconds, a.seconds * 1000000000,
        s.value reference]

/-- The text is refused, or its value is returned and no number on the way leaves 64 bits. -/
def ExactOrRefuses (t : Text) (reference : Nanos) : Prop :=
  ∀ v, parse_time t reference = some v → ∃ s, Spells t s ∧ s.Exists ∧ v = s.value reference ∧
    ∀ n ∈ s.sums reference, i64_range n

/-- The first and the last second that nanoseconds of 64 bits reach as a whole. -/
def earliest : Moment := ⟨1677, 9, 21, 0, 12, 44⟩
def latest : Moment := ⟨2262, 4, 11, 23, 47, 16⟩

/-- What the parser relies on and does not check. -/
def Spelling.Sound (reference : Int) : Spelling → Prop
  | .offset negative count unit =>
      ((count * unit : Nat) : Int) ≤ i64_max ∧
      ((count * unit : Nat) : Int) ≤ if negative then reference - i64_min else i64_max - reference
  | .epoch seconds => seconds ≤ 9223372036
  | .date a fraction =>
      a.day ≤ month_days a.year a.month ∧ a.second < 60 ∧ earliest.fields ≤ a.fields ∧
      a.fields ≤ latest.fields ∧ (a = latest → fraction ≤ 854775807)

theorem SpellsFraction.lt {fraction : Text} {nanos : Nat} (h : SpellsFraction fraction nanos) :
    nanos < 1000000000 := by
  cases h with
  | none => decide
  | @digits digits all _ few =>
    have hlt := digits_value_lt all
    have hpos : 0 < 10 ^ (9 - digits.length) := by positivity
    calc digits_value digits * 10 ^ (9 - digits.length)
        < 10 ^ digits.length * 10 ^ (9 - digits.length) := Nat.mul_lt_mul_of_pos_right hlt hpos
      _ = 10 ^ 9 := by rw [← pow_add, Nat.add_sub_cancel' few]

theorem earliest_real : earliest.Real := ⟨⟨by decide, by decide⟩, by decide, by decide, by decide⟩

theorem latest_real : latest.Real := ⟨⟨by decide, by decide⟩, by decide, by decide, by decide⟩

theorem Plausible.real {a : Moment} (h : Plausible a) (hday : a.day ≤ month_days a.year a.month)
    (hsecond : a.second < 60) : a.Real :=
  ⟨⟨h.month, h.day.1, hday⟩, Nat.lt_succ_of_le h.hour, Nat.lt_succ_of_le h.minute, hsecond⟩

/-- Of the numbers formed only the last two can leave 64 bits. -/
theorem date_sums_range {a : Moment} (hhour : a.hour < 24) (hminute : a.minute < 60)
    (hsecond : a.second < 60) (nanos : Nat) (reference : Int) :
    (∀ n ∈ (Spelling.date a nanos).sums reference, i64_range n) ↔
      i64_range (a.seconds * 1000000000) ∧ i64_range (a.seconds * 1000000000 + nanos) := by
  have hsum : a.seconds = day_number a.year a.month a.day * 86400 + a.hour * 3600 +
    a.minute * 60 + a.second := rfl
  simp only [Spelling.sums, Spelling.value, List.forall_mem_cons, List.not_mem_nil, false_implies,
    implies_true, and_true]
  generalize day_number a.year a.month a.day = days at hsum ⊢
  unfold i64_range
  omega

/-- An existing date is within 64 bits between the two bounds. -/
theorem date_sums_iff {a : Moment} {nanos : Nat} (ha : a.Real) (hnanos : nanos < 1000000000)
    (reference : Int) :
    (∀ n ∈ (Spelling.date a nanos).sums reference, i64_range n) ↔
      earliest.fields ≤ a.fields ∧ a.fields ≤ latest.fields ∧ (a = latest → nanos ≤ 854775807) := by
  have hfirst : earliest.seconds = -9223372036 := by decide
  have hlast : latest.seconds = 9223372036 := by decide
  rw [date_sums_range ha.hour ha.minute ha.second, Moment.seconds_le_iff earliest_real ha,
    Moment.seconds_le_iff ha latest_real, hfirst, hlast]
  unfold i64_range
  constructor
  · rintro ⟨hseconds, hvalue⟩
    refine ⟨by omega, by omega, ?_⟩
    rintro rfl
    omega
  · rintro ⟨hlow, hhigh, hend⟩
    have hedge : a.seconds = 9223372036 → nanos ≤ 854775807 := by
      intro hmax
      apply hend
      apply Moment.fields_injective
      apply le_antisymm
      · exact (Moment.seconds_le_iff ha latest_real).mpr (by omega)
      · exact (Moment.seconds_le_iff latest_real ha).mpr (by omega)
    omega

/-- Of a text that is taken, the value is exact just when what goes unchecked is so. -/
theorem exact_iff_sound {t : Text} {s : Spelling} {reference : Int} (h : Spells t s)
    (htaken : s.Taken) (href : i64_range reference) :
    (s.Exists ∧ ∀ n ∈ s.sums reference, i64_range n) ↔ s.Sound reference := by
  cases s with
  | offset negative count unit =>
    simp only [Spelling.Exists, Spelling.sums, Spelling.value, Spelling.Sound,
      List.forall_mem_cons, List.not_mem_nil, false_implies, implies_true, and_true, true_and]
    simp only [Spelling.Taken] at htaken
    generalize count * unit = delta
    unfold i64_range at href ⊢
    unfold i64_max at htaken ⊢
    unfold i64_min
    cases negative <;> simp only [Bool.false_eq_true, if_true, if_false] <;> omega
  | epoch seconds =>
    simp only [Spelling.Exists, Spelling.sums, Spelling.value, Spelling.Sound,
      List.forall_mem_cons, List.not_mem_nil, false_implies, implies_true, and_true, true_and]
    unfold i64_range
    omega
  | date a nanos =>
    have hnanos : nanos < 1000000000 := by
      cases h with
      | date _ _ _ _ _ _ _ hfraction _ => exact hfraction.lt
    constructor
    · rintro ⟨hreal, hsums⟩
      exact ⟨hreal.date.day.2, hreal.second, (date_sums_iff hreal hnanos reference).mp hsums⟩
    · rintro ⟨hday, hsecond, hbounds⟩
      have hreal := Plausible.real htaken hday hsecond
      exact ⟨hreal, (date_sums_iff hreal hnanos reference).mpr hbounds⟩

theorem Spelling.value_mem_sums (reference : Int) (s : Spelling) :
    s.value reference ∈ s.sums reference := by
  cases s <;> simp [Spelling.sums]

/-- Every text is refused or read exactly, unless it is taken and not sound. -/
theorem time_text_exact_iff (t : Text) (reference : Int64) :
    ExactOrRefuses t reference.toInt ↔
      ∀ s, Spells t s → s.Taken → s.Sound reference.toInt := by
  have href : i64_range reference.toInt := ⟨reference.le_toInt, reference.toInt_lt⟩
  constructor
  · intro h s hspells htaken
    obtain ⟨s', hspells', hexists, _, hsums⟩ := h _ (parse_time_iff.mpr ⟨s, hspells, htaken, rfl⟩)
    obtain rfl := spells_unique hspells hspells'
    exact (exact_iff_sound hspells htaken href).mp ⟨hexists, hsums⟩
  · intro h v hv
    obtain ⟨s, hspells, htaken, rfl⟩ := parse_time_iff.mp hv
    obtain ⟨hexists, hsums⟩ := (exact_iff_sound hspells htaken href).mpr (h s hspells htaken)
    exact ⟨s, hspells, hexists,
      wrapped_i64_of_range (hsums _ (s.value_mem_sums reference.toInt)), hsums⟩

/-- The thirtieth of February is read, as the second of March; and so is an offset that
    overflows. -/
theorem time_text_invents_days :
    parse_time (text "2026-02-30T00:00:00Z") 0 = parse_time (text "2026-03-02T00:00:00Z") 0 ∧
    ¬ ExactOrRefuses (text "2026-02-30T00:00:00Z") 0 ∧
    ¬ ExactOrRefuses (text "+9223372036854775807h") 0 := by
  have hday : Spells (text "2026-02-30T00:00:00Z") (.date ⟨2026, 2, 30, 0, 0, 0⟩ 0) :=
    @Spells.date (text "2026") (text "02") (text "30") (text "00") (text "00") (text "00") []
      (text "Z") 84 0 ⟨rfl, by decide +kernel⟩ ⟨rfl, by decide +kernel⟩ ⟨rfl, by decide +kernel⟩
      (.inl rfl) ⟨rfl, by decide +kernel⟩ ⟨rfl, by decide +kernel⟩ ⟨rfl, by decide +kernel⟩ .none
      (by decide)
  have hoffset : Spells (text "+9223372036854775807h")
      (.offset false 9223372036854775807 3600000000000) :=
    @Spells.offset false (text "9223372036854775807") (text "h") 3600000000000
      ⟨by decide +kernel, by decide, by decide⟩ (by decide)
  refine ⟨by decide, ?_, ?_⟩
  · intro h
    obtain ⟨s, hs, hexists, _⟩ := h _ (show parse_time _ _ = some 1772409600000000000 by decide)
    obtain rfl := spells_unique hday hs
    exact absurd hexists.date.day.2 (by decide)
  · intro h
    obtain ⟨s, hs, _, _, hsums⟩ := h _ (show parse_time _ _ = some (-3600000000000) by decide)
    obtain rfl := spells_unique hoffset hs
    exact absurd (hsums _ (Spelling.value_mem_sums 0 _)) (by decide)

/-! ## Round trip -/

theorem padded_fixed (width : Nat) {n : Nat} (hwidth : 1 ≤ width) (hshort : width ≤ 9)
    (h : n < 10 ^ width) : FixedDigits width (padded width n) ∧
      digits_value (padded width n) = n := by
  obtain ⟨hfixed, hvalue⟩ := (fixed_uint_iff hwidth hshort (padded_length hwidth h)).mp
    (fixed_uint_padded hwidth hshort h)
  exact ⟨hfixed, hvalue.symm⟩

/-- Written fields spell themselves. -/
theorem spells_time_text {year month day hour minute second fraction : Nat}
    (hyear : year < 10000) (hmonth : month < 100) (hday : day < 100) (hhour : hour < 100)
    (hminute : minute < 100) (hsecond : second < 100) (hfraction : fraction < 10 ^ 9) :
    Spells (time_text year month day hour minute second fraction)
      (.date ⟨year, month, day, hour, minute, second⟩ fraction) := by
  obtain ⟨hy, hyear⟩ := padded_fixed 4 (by decide) (by decide) hyear
  obtain ⟨hm, hmonth⟩ := padded_fixed 2 (by decide) (by decide) hmonth
  obtain ⟨hd, hday⟩ := padded_fixed 2 (by decide) (by decide) hday
  obtain ⟨hh, hhour⟩ := padded_fixed 2 (by decide) (by decide) hhour
  obtain ⟨hn, hminute⟩ := padded_fixed 2 (by decide) (by decide) hminute
  obtain ⟨hs, hsecond⟩ := padded_fixed 2 (by decide) (by decide) hsecond
  obtain ⟨hf, hfraction⟩ := padded_fixed 9 (by decide) (by decide) hfraction
  have hspelled : SpellsFraction (46 :: padded 9 fraction) fraction := by
    have hdigits := SpellsFraction.digits hf.digits (by rw [hf.length]; decide) hf.length.le
    rwa [hf.length, hfraction, Nat.sub_self, pow_zero, Nat.mul_one] at hdigits
  have hspells := Spells.date hy hm hd (.inl rfl) hh hn hs hspelled
    (show text "Z" ∈ zones by decide)
  rw [spelled_moment, hyear, hmonth, hday, hhour, hminute, hsecond] at hspells
  rw [time_text_shape]
  exact hspells

/-- What is written of an instant is read back, and nothing overflows on the way. -/
theorem time_text_round_trip (v : Int64) (h : -9223372036000000000 ≤ v.toInt) (reference : Int64) :
    parse_time (format_time v.toInt) reference.toInt = some v.toInt ∧
    ∃ s, Spells (format_time v.toInt) s ∧ s.value reference.toInt = v.toInt ∧
      ∀ n ∈ s.sums reference.toInt, i64_range n := by
  have hrange : i64_range v.toInt := ⟨v.le_toInt, v.toInt_lt⟩
  refine ⟨parse_time_format_time hrange _, ?_⟩
  generalize v.toInt = v at h hrange
  obtain ⟨year, month, day, hyear, hmonth, hday, hdays, htext⟩ := format_time_fields hrange
  have hsum := instant_of_fields v
  rw [← hdays, days_from_civil_eq hmonth] at hsum
  have hday_seconds : (v / 1000000000 % 86400).toNat < 86400 := by omega
  have hfraction : (v % 1000000000).toNat < 10 ^ 9 := by omega
  rw [htext]
  generalize (v / 1000000000 % 86400).toNat = second at hday_seconds hsum
  generalize (v % 1000000000).toNat = fraction at hfraction hsum
  refine ⟨_, spells_time_text hyear (by omega) (by omega) (by omega)
    (by omega) (by omega) hfraction,
    hsum, ?_⟩
  have hvalue : (Moment.mk year month day (second / 3600) (second % 3600 / 60)
      (second % 60)).seconds * 1000000000 + fraction = v := hsum
  rw [date_sums_range (by simp only; omega) (by simp only; omega) (by simp only; omega), hvalue]
  refine ⟨?_, hrange⟩
  unfold i64_range at hrange ⊢
  omega

theorem time_text_round_trip_before_1970 :
    parse_time (format_time (Int64.toInt (-1))) (Int64.toInt 0) = some (Int64.toInt (-1)) ∧
    ∃ s, Spells (format_time (Int64.toInt (-1))) s ∧ s.value (Int64.toInt 0) = Int64.toInt (-1) ∧
      ∀ n ∈ s.sums (Int64.toInt 0), i64_range n :=
  time_text_round_trip (-1) (by decide) 0

end MaintenanceFabric
