import MaintenanceFabric.Config.Time
import Mathlib.Data.Nat.Digits.Defs

/-! # Numbers and identities in text

    Which texts the number, duration and identity parsers take, and what they
    make of them.  A number is its digits; an identity is a prefix, a colon and
    a number; a fencing token is three of these between slashes.
-/

namespace MaintenanceFabric

open Lib

/-! ## Numbers -/

/-- What a text of digits denotes. -/
def digits_value (t : Text) : Nat := Nat.ofDigits 10 (t.reverse.map (fun c => c.toNat - 48))

theorem digits_value_cons (c : UInt8) (t : Text) :
    digits_value (c :: t) = (c.toNat - 48) * 10 ^ t.length + digits_value t := by
  rw [digits_value, List.reverse_cons, List.map_append, Nat.ofDigits_append, List.length_map,
    List.length_reverse, List.map_singleton, Nat.ofDigits_singleton, digits_value]
  ring

/-- Digits only, and not too many of them. -/
structure Digits (t : Text) : Prop where
  digits : ∀ c ∈ t, is_digit c = true
  some_digit : 1 ≤ t.length
  length : t.length ≤ 20

theorem push_digit_iff {value x : Nat} {c : UInt8} :
    push_digit value c = some x ↔
      is_digit c = true ∧ x = value * 10 + (c.toNat - 48) ∧ x < u64_limit := by
  unfold push_digit
  by_cases hc : is_digit c = true
  · have hdigit : c.toNat ≤ 57 := by
      simp only [is_digit, Bool.and_eq_true, decide_eq_true_eq] at hc
      exact hc.2
    rw [if_pos hc]
    by_cases hover : value > (u64_limit - 1 - (c.toNat - 48)) / 10
    · rw [if_pos hover]
      constructor
      · intro h
        cases h
      · rintro ⟨_, rfl, hx⟩
        unfold u64_limit at hover hx
        omega
    · rw [if_neg hover, Option.some.injEq]
      constructor
      · rintro rfl
        refine ⟨hc, rfl, ?_⟩
        unfold u64_limit at hover ⊢
        omega
      · rintro ⟨_, rfl, _⟩
        rfl
  · rw [if_neg hc]
    simp [hc]

/-- The digit loop from any value on. -/
theorem push_digits_iff {t : Text} {v w : Nat} (hv : v < u64_limit) :
    t.foldlM push_digit v = some w ↔
      (∀ c ∈ t, is_digit c = true) ∧ w = v * 10 ^ t.length + digits_value t ∧ w < u64_limit := by
  induction t generalizing v with
  | nil =>
    have hnone : digits_value [] = 0 := rfl
    rw [List.foldlM_nil, hnone]
    constructor
    · intro h
      cases h
      exact ⟨by simp, by simp, hv⟩
    · rintro ⟨_, rfl, _⟩
      simp
  | cons c t ih =>
    have hsum : ∀ x, x = v * 10 + (c.toNat - 48) →
        v * 10 ^ (c :: t).length + digits_value (c :: t) = x * 10 ^ t.length + digits_value t := by
      rintro x rfl
      rw [digits_value_cons, List.length_cons, pow_succ]
      ring
    rw [List.foldlM_cons, Option.bind_eq_bind, Option.bind_eq_some_iff]
    constructor
    · rintro ⟨x, hpush, hrest⟩
      obtain ⟨hc, hx, hlt⟩ := push_digit_iff.mp hpush
      obtain ⟨hdigits, hw, hwlt⟩ := (ih hlt).mp hrest
      refine ⟨?_, ?_, hwlt⟩
      · intro d hd
        rcases List.mem_cons.mp hd with rfl | hd
        · exact hc
        · exact hdigits d hd
      · rw [hsum x hx, hw]
    · rintro ⟨hdigits, hw, hwlt⟩
      -- A value that fits has fitted after every digit before.
      have hgrows : v * 10 + (c.toNat - 48) ≤ w := by
        rw [hw, hsum _ rfl]
        exact (Nat.le_mul_of_pos_right _ (by positivity)).trans (Nat.le_add_right _ _)
      have hlt := hgrows.trans_lt hwlt
      refine ⟨v * 10 + (c.toNat - 48), ?_, ?_⟩
      · exact push_digit_iff.mpr ⟨hdigits c List.mem_cons_self, rfl, hlt⟩
      · refine (ih hlt).mpr ⟨fun d hd => hdigits d (List.mem_cons_of_mem c hd), ?_, hwlt⟩
        rw [hw, hsum _ rfl]

/-- The number parser takes 1 to 20 digits whose value fits 64 bits. -/
theorem parse_u64_iff {t : Text} {v : Nat} :
    parse_u64 t = some v ↔ Digits t ∧ digits_value t < u64_limit ∧ v = digits_value t := by
  unfold parse_u64
  by_cases hlength : t.isEmpty || decide (t.length > 20)
  · rw [if_pos hlength]
    constructor
    · intro h
      cases h
    · rintro ⟨h, _⟩
      have hfirst := h.some_digit
      have hlast := h.length
      rw [Bool.or_eq_true, List.isEmpty_iff, decide_eq_true_eq] at hlength
      rcases hlength with rfl | hlong
      · cases hfirst
      · omega
  · rw [if_neg hlength, push_digits_iff (by decide), Nat.zero_mul, Nat.zero_add]
    rw [Bool.or_eq_true, List.isEmpty_iff, decide_eq_true_eq, not_or] at hlength
    have hsome := List.length_pos_iff.mpr hlength.1
    constructor
    · rintro ⟨hdigits, rfl, hlt⟩
      exact ⟨⟨hdigits, hsome, by omega⟩, hlt, rfl⟩
    · rintro ⟨h, hlt, rfl⟩
      exact ⟨h.digits, rfl, hlt⟩

theorem digits_decimal {n : Nat} (h : n < u64_limit) :
    Digits (decimal n) ∧ digits_value (decimal n) = n := by
  obtain ⟨hdigits, _, hvalue⟩ := parse_u64_iff.mp (parse_u64_decimal h)
  exact ⟨hdigits, hvalue.symm⟩

/-! ## Durations -/

/-- The units and their nanoseconds; a number alone counts nanoseconds. -/
def duration_units : List (Text × Nat) :=
  [([], 1), (text "ns", 1), (text "us", 1000), (text "ms", 1000000), (text "s", 1000000000),
    (text "m", 60000000000), (text "h", 3600000000000)]

theorem unit_scale_iff {unit : Text} {scale : Nanos} :
    unit_scale 1 unit = some scale ↔ ∃ n, (unit, n) ∈ duration_units ∧ scale = (n : Int) := by
  constructor
  · intro h
    unfold unit_scale at h
    split at h
    · next hunit => cases h; exact ⟨1000000000, by rw [hunit]; decide, rfl⟩
    · split at h
      · next hunit => cases h; exact ⟨60000000000, by rw [hunit]; decide, rfl⟩
      · split at h
        · next hunit => cases h; exact ⟨3600000000000, by rw [hunit]; decide, rfl⟩
        · split at h
          · next hunit => cases h; exact ⟨1000000, by rw [hunit]; decide, rfl⟩
          · split at h
            · next hunit => cases h; exact ⟨1000, by rw [hunit]; decide, rfl⟩
            · split at h
              · next hunit => cases h; exact ⟨1, by rw [hunit]; decide, rfl⟩
              · split at h
                · next hunit =>
                  cases h
                  exact ⟨1, by rw [List.isEmpty_iff.mp hunit]; decide, rfl⟩
                · cases h
  · rintro ⟨n, hmem, rfl⟩
    have hall : ∀ p ∈ duration_units, unit_scale 1 p.1 = some (p.2 : Int) := by decide
    exact hall _ hmem

/-- No unit begins with a digit. -/
theorem unit_letter {unit : Text} {n : Nat} (h : (unit, n) ∈ duration_units) :
    ∀ c ∈ unit.head?, is_digit c = false := by
  have hall : ∀ p ∈ duration_units, ∀ c ∈ p.1.head?, is_digit c = false := by
    decide +kernel
  exact hall _ h

theorem unit_pos {unit : Text} {n : Nat} (h : (unit, n) ∈ duration_units) : 0 < n := by
  have hall : ∀ p ∈ duration_units, 0 < p.2 := by decide
  exact hall _ h

theorem magnitude_iff {t : Text} {v : Nat} :
    magnitude t = some v ↔ parse_u64 (t.takeWhile is_digit) = some v := by
  unfold magnitude
  simp only
  by_cases hempty : (t.takeWhile is_digit).isEmpty = true
  · rw [if_pos hempty, List.isEmpty_iff.mp hempty]
    simp [parse_u64]
  · rw [if_neg hempty]

/-- The product of a count and a scale that are not negative. -/
theorem checked_mul_iff {a b v : Int} (ha : 0 ≤ a) (hb : 0 < b) :
    checked_mul_signed a b = some v ↔ a * b ≤ i64_max ∧ v = a * b := by
  unfold checked_mul_signed
  by_cases hzero : a = 0
  · rw [if_pos (.inl hzero), hzero, Int.zero_mul, Option.some.injEq]
    constructor
    · rintro rfl
      exact ⟨by decide, rfl⟩
    · rintro ⟨_, rfl⟩
      rfl
  · have hdivide : a > i64_max.tdiv b ↔ ¬ a * b ≤ i64_max := by
      rw [Int.tdiv_eq_ediv_of_nonneg (by decide), gt_iff_lt, ← not_le, Int.le_ediv_iff_mul_le hb]
    rw [if_neg (by omega), if_pos (by omega), if_pos hb]
    by_cases hover : a > i64_max.tdiv b
    · rw [if_pos hover]
      simp [hdivide.mp hover]
    · rw [if_neg hover, Option.some.injEq]
      have hfits := not_not.mp (fun hn => hover (hdivide.mpr hn))
      constructor
      · rintro rfl
        exact ⟨hfits, rfl⟩
      · rintro ⟨_, rfl⟩
        rfl

/-- A duration is 1 to 20 digits and a unit, and their product fits a signed 64-bit value. -/
theorem parse_duration_text_iff {t : Text} {d : Nanos} :
    parse_duration_text t = some d ↔ ∃ digits unit n, t = digits ++ unit ∧ Digits digits ∧
      (unit, n) ∈ duration_units ∧ ((digits_value digits * n : Nat) : Int) ≤ i64_max ∧
      d = ((digits_value digits * n : Nat) : Int) := by
  constructor
  · intro h
    simp only [parse_duration_text, Option.bind_eq_bind, Option.bind_eq_some_iff] at h
    obtain ⟨value, hvalue, scale, hscale, narrowed, hnarrowed, hproduct⟩ := h
    obtain ⟨hdigits, _, rfl⟩ := parse_u64_iff.mp (magnitude_iff.mp hvalue)
    obtain ⟨n, hunit, rfl⟩ := unit_scale_iff.mp hscale
    -- The product is checked before it is made, against the unit that is not zero.
    have hpos : (0 : Int) < n := by exact_mod_cast unit_pos hunit
    have hcount : narrowed = ((digits_value (t.takeWhile is_digit) : Nat) : Int) := by
      unfold narrow_i64 at hnarrowed
      split at hnarrowed
      · exact (Option.some.inj hnarrowed).symm
      · cases hnarrowed
    obtain ⟨hfits, rfl⟩ := (checked_mul_iff (by omega) hpos).mp hproduct
    rw [hcount] at hfits ⊢
    refine ⟨_, _, n, List.takeWhile_append_dropWhile.symm, hdigits, hunit, ?_, ?_⟩ <;> push_cast
    · exact hfits
    · rfl
  · rintro ⟨digits, unit, n, rfl, hdigits, hunit, hfits, rfl⟩
    obtain ⟨htake, hdrop⟩ := takeWhile_digits hdigits.digits (unit_letter hunit)
    have hpos := unit_pos hunit
    -- The product fits, so its first factor does as well.
    have hcount : ((digits_value digits : Nat) : Int) ≤ i64_max := by
      refine le_trans ?_ hfits
      exact_mod_cast Nat.le_mul_of_pos_right _ hpos
    have hnarrow : narrow_i64 (digits_value digits) = some ((digits_value digits : Nat) : Int) := by
      rw [narrow_i64, if_pos hcount]
    have hvalue : parse_u64 digits = some (digits_value digits) := by
      refine parse_u64_iff.mpr ⟨hdigits, ?_, rfl⟩
      unfold i64_max at hcount
      unfold u64_limit
      omega
    have hproduct := (checked_mul_iff (v := ((digits_value digits * n : Nat) : Int))
      (a := ((digits_value digits : Nat) : Int)) (b := (n : Int)) (by omega)
      (by exact_mod_cast hpos)).mpr ⟨by exact_mod_cast hfits, by push_cast; rfl⟩
    simp only [parse_duration_text, Option.bind_eq_bind]
    rw [magnitude_iff.mpr (by rw [htake]; exact hvalue), hdrop, unit_scale_iff.mpr ⟨n, hunit, rfl⟩]
    simp only [Option.bind_some, hnarrow, hproduct]

/-! ## Identities -/

def slash : UInt8 := 47

/-- `parse_id<Tag>`: the prefix of the tag, a colon and a number. -/
def parse_id (tag : IdTag) (t : Text) : Option (StrongId tag) :=
  let at_colon := t.idxOf colon
  if at_colon = t.length then none
  else if t.take at_colon ≠ tag.label then none
  else (parse_u64 (t.drop (at_colon + 1))).map StrongId.mk

/-- The loops of the composite parsers: `set` stores a piece at its place. -/
def parse_parts {α : Type} (set : α → Nat → Text → Option α) :
    α → Nat → List Text → Option (α × Nat)
  | out, part, [] => some (out, part)
  | out, part, piece :: rest => do
      let out ← set out part piece
      parse_parts set out (part + 1) rest

def attempt_part (id : AttemptId) (part : Nat) (piece : Text) : Option AttemptId :=
  match part with
  | 0 => (parse_id .job piece).map (fun job => { id with job })
  | 1 => (parse_id .generation piece).map (fun generation => { id with generation })
  | 2 => (parse_id .attempt piece).map (fun ordinal => { id with ordinal })
  | _ => none

def parse_attempt_id (t : Text) : Option AttemptId := do
  let (id, part) ← parse_parts attempt_part {} 0 (t.splitOn slash)
  if part ≠ 3 ∨ id.valid = false then none else some id

def incarnation_part (out : ControllerIncarnation) (part : Nat) (piece : Text) :
    Option ControllerIncarnation :=
  match part with
  | 0 => (parse_id .controller piece).map (fun controller => { out with controller })
  | 1 => (parse_id .boot_epoch piece).map (fun boot_epoch => { out with boot_epoch })
  | 2 => (parse_u64 piece).map (fun nonce => { out with nonce })
  | _ => none

def parse_controller_incarnation (t : Text) : Option ControllerIncarnation := do
  let (out, part) ← parse_parts incarnation_part {} 0 (t.splitOn slash)
  if part ≠ 3 ∨ out.valid = false then none else some out

/-! ## Pieces -/

/-- Exactly `n` parts between separators, and none of them empty. -/
def Parts (sep : UInt8) (n : Nat) (t : Text) : Prop :=
  (t.splitOn sep).length = n ∧ [] ∉ t.splitOn sep

theorem splitOn_cons {sep : UInt8} {a b : Text} (ha : sep ∉ a) :
    (a ++ sep :: b).splitOn sep = a :: b.splitOn sep := by
  have hpiece : ∀ c ∈ a, (c == sep) = false := by
    intro c hc
    rw [beq_eq_false_iff_ne]
    rintro rfl
    exact ha hc
  rw [List.splitOn, List.splitOnP_append_cons a b (by simp), List.splitOnP_eq_singleton hpiece]
  rfl

theorem splitOn_last {sep : UInt8} {a : Text} (ha : sep ∉ a) : a.splitOn sep = [a] := by
  refine List.splitOnP_eq_singleton ?_
  intro c hc
  rw [beq_eq_false_iff_ne]
  rintro rfl
  exact ha hc

theorem not_digit_mem {c : UInt8} {t : Text} (hc : is_digit c = false)
    (ht : ∀ d ∈ t, is_digit d = true) : c ∉ t := by
  intro hmem
  rw [ht c hmem] at hc
  cases hc

/-- A prefix and a number are two parts. -/
theorem parts_prefixed {w digits : Text} (hcolon : colon ∉ w) (hw : w ≠ []) (h : Digits digits) :
    Parts colon 2 (w ++ colon :: digits) := by
  have hdigits := not_digit_mem (by decide : is_digit colon = false) h.digits
  have hsome : digits ≠ [] := List.length_pos_iff.mp h.some_digit
  rw [Parts, splitOn_cons hcolon, splitOn_last hdigits]
  refine ⟨rfl, ?_⟩
  simp [hw.symm, hsome.symm]

theorem label_marks (tag : IdTag) : tag.label ≠ [] ∧ colon ∉ tag.label ∧ slash ∉ tag.label := by
  cases tag <;> decide

theorem idxOf_prefixed {w : Text} (hcolon : colon ∉ w) (rest : Text) :
    (w ++ colon :: rest).idxOf colon = w.length := by
  rw [List.idxOf_append_of_notMem hcolon, List.idxOf_cons_self]
  rfl

/-- A text with a colon is what stands before the first one and what stands behind it. -/
theorem split_first {t : Text} (h : t.idxOf colon ≠ t.length) :
    t = t.take (t.idxOf colon) ++ colon :: t.drop (t.idxOf colon + 1) ∧
      colon ∉ t.take (t.idxOf colon) := by
  induction t with
  | nil => exact absurd rfl h
  | cons c t ih =>
    by_cases hc : c = colon
    · rw [hc, List.idxOf_cons_self]
      simp
    · have hnext := List.idxOf_cons_ne t hc
      rw [hnext, List.length_cons] at h
      obtain ⟨hsplit, hfront⟩ := ih (fun heq => h (congrArg (· + 1) heq))
      rw [hnext, List.take_succ_cons, List.drop_succ_cons, List.cons_append, ← hsplit]
      refine ⟨rfl, ?_⟩
      rw [List.mem_cons, not_or]
      exact ⟨Ne.symm hc, hfront⟩

theorem parse_id_iff {tag : IdTag} {t : Text} {x : StrongId tag} :
    parse_id tag t = some x ↔ ∃ digits, t = tag.label ++ colon :: digits ∧ Digits digits ∧
      digits_value digits < u64_limit ∧ x.value = digits_value digits := by
  obtain ⟨_, hcolon, _⟩ := label_marks tag
  unfold parse_id
  simp only
  constructor
  · intro h
    by_cases hnone : t.idxOf colon = t.length
    · rw [if_pos hnone] at h
      cases h
    · rw [if_neg hnone] at h
      by_cases hlabel : t.take (t.idxOf colon) ≠ tag.label
      · rw [if_pos hlabel] at h
        cases h
      · rw [if_neg hlabel, Option.map_eq_some_iff] at h
        obtain ⟨v, hv, rfl⟩ := h
        obtain ⟨hdigits, hlt, rfl⟩ := parse_u64_iff.mp hv
        have hsplit := (split_first hnone).1
        rw [not_not.mp hlabel] at hsplit
        exact ⟨_, hsplit, hdigits, hlt, rfl⟩
  · rintro ⟨digits, rfl, hdigits, hlt, hvalue⟩
    have hfirst := idxOf_prefixed hcolon digits
    rw [hfirst, if_neg (by simp), List.take_left', if_neg (by simp)]
    · have hdrop : (tag.label ++ colon :: digits).drop (tag.label.length + 1) = digits := by simp
      rw [hdrop, parse_u64_iff.mpr ⟨hdigits, hlt, rfl⟩, Option.map_some]
      exact congrArg some (StrongId.ext hvalue.symm)
    · rfl

theorem parse_id_to_string {tag : IdTag} {x : StrongId tag} (h : x.value < u64_limit) :
    parse_id tag x.to_string = some x := by
  obtain ⟨hdigits, hvalue⟩ := digits_decimal h
  refine parse_id_iff.mpr ⟨decimal x.value, ?_, hdigits, by rw [hvalue]; exact h, hvalue.symm⟩
  rw [StrongId.to_string, show text ":" = [colon] by decide, List.append_assoc,
    List.singleton_append]

theorem parse_id_parts {tag : IdTag} {t : Text} {x : StrongId tag} (h : parse_id tag t = some x) :
    t ≠ [] ∧ Parts colon 2 t := by
  obtain ⟨hsome, hcolon, _⟩ := label_marks tag
  obtain ⟨digits, rfl, hdigits, _⟩ := parse_id_iff.mp h
  exact ⟨by simp, parts_prefixed hcolon hsome hdigits⟩

theorem slash_to_string {tag : IdTag} (x : StrongId tag) : slash ∉ x.to_string := by
  obtain ⟨_, _, hslash⟩ := label_marks tag
  have hdigits := not_digit_mem (by decide : is_digit slash = false) (decimal_digits x.value)
  rw [StrongId.to_string, List.mem_append, List.mem_append]
  rintro ((h | h) | h)
  · exact hslash h
  · exact absurd h (by decide)
  · exact hdigits h

/-- The loop goes over the pieces in order. -/
theorem parse_parts_three {α : Type} {set : α → Nat → Text → Option α}
    (hover : ∀ out piece, set out 3 piece = none) {start out : α} {pieces : List Text} :
    parse_parts set start 0 pieces = some (out, 3) ↔ ∃ a b c x y, pieces = [a, b, c] ∧
      set start 0 a = some x ∧ set x 1 b = some y ∧ set y 2 c = some out := by
  constructor
  · intro h
    rcases pieces with _ | ⟨a, _ | ⟨b, _ | ⟨c, _ | ⟨d, rest⟩⟩⟩⟩ <;>
      simp only [parse_parts, Option.bind_eq_bind, Option.bind_eq_some_iff, Option.some.injEq,
        Prod.mk.injEq] at h
    · omega
    · obtain ⟨_, _, _, hpart⟩ := h
      omega
    · obtain ⟨_, _, _, _, _, hpart⟩ := h
      omega
    · obtain ⟨x, hx, y, hy, z, hz, rfl, _⟩ := h
      exact ⟨a, b, c, x, y, rfl, hx, hy, hz⟩
    · obtain ⟨_, _, _, _, z, _, _, hfourth, _⟩ := h
      rw [hover z d] at hfourth
      cases hfourth
  · rintro ⟨a, b, c, x, y, rfl, hx, hy, hz⟩
    simp [parse_parts, hx, hy, hz]

theorem parse_attempt_id_iff {t : Text} {x : AttemptId} :
    parse_attempt_id t = some x ↔ ∃ a b c, t.splitOn slash = [a, b, c] ∧
      parse_id .job a = some x.job ∧ parse_id .generation b = some x.generation ∧
      parse_id .attempt c = some x.ordinal ∧ x.valid = true := by
  have hover : ∀ (out : AttemptId) (piece : Text), attempt_part out 3 piece = none :=
    fun _ _ => rfl
  simp only [parse_attempt_id, Option.bind_eq_bind, Option.bind_eq_some_iff]
  constructor
  · rintro ⟨⟨id, part⟩, hparts, hid⟩
    by_cases hbad : part ≠ 3 ∨ id.valid = false
    · rw [if_pos hbad] at hid
      cases hid
    · rw [if_neg hbad] at hid
      cases hid
      obtain ⟨rfl, hvalid⟩ : part = 3 ∧ id.valid = true := by
        rw [not_or, not_not, Bool.not_eq_false] at hbad
        exact hbad
      obtain ⟨a, b, c, y, z, hpieces, hy, hz, hx⟩ := (parse_parts_three hover).mp hparts
      simp only [attempt_part, Option.map_eq_some_iff] at hy hz hx
      obtain ⟨job, hjob, rfl⟩ := hy
      obtain ⟨generation, hgeneration, rfl⟩ := hz
      obtain ⟨ordinal, hordinal, rfl⟩ := hx
      exact ⟨a, b, c, hpieces, hjob, hgeneration, hordinal, hvalid⟩
  · rintro ⟨a, b, c, hpieces, hjob, hgeneration, hordinal, hvalid⟩
    refine ⟨(x, 3), (parse_parts_three hover).mpr ⟨a, b, c, { job := x.job },
      { job := x.job, generation := x.generation }, hpieces, ?_, ?_, ?_⟩, ?_⟩
    · simp [attempt_part, hjob]
    · simp [attempt_part, hgeneration]
    · simp [attempt_part, hordinal]
    · simp [hvalid]

theorem parse_controller_incarnation_iff {t : Text} {x : ControllerIncarnation} :
    parse_controller_incarnation t = some x ↔ ∃ a b c, t.splitOn slash = [a, b, c] ∧
      parse_id .controller a = some x.controller ∧ parse_id .boot_epoch b = some x.boot_epoch ∧
      parse_u64 c = some x.nonce ∧ x.valid = true := by
  have hover : ∀ (out : ControllerIncarnation) (piece : Text),
      incarnation_part out 3 piece = none := fun _ _ => rfl
  simp only [parse_controller_incarnation, Option.bind_eq_bind, Option.bind_eq_some_iff]
  constructor
  · rintro ⟨⟨out, part⟩, hparts, hout⟩
    by_cases hbad : part ≠ 3 ∨ out.valid = false
    · rw [if_pos hbad] at hout
      cases hout
    · rw [if_neg hbad] at hout
      cases hout
      obtain ⟨rfl, hvalid⟩ : part = 3 ∧ out.valid = true := by
        rw [not_or, not_not, Bool.not_eq_false] at hbad
        exact hbad
      obtain ⟨a, b, c, y, z, hpieces, hy, hz, hx⟩ := (parse_parts_three hover).mp hparts
      simp only [incarnation_part, Option.map_eq_some_iff] at hy hz hx
      obtain ⟨controller, hcontroller, rfl⟩ := hy
      obtain ⟨boot_epoch, hepoch, rfl⟩ := hz
      obtain ⟨nonce, hnonce, rfl⟩ := hx
      exact ⟨a, b, c, hpieces, hcontroller, hepoch, hnonce, hvalid⟩
  · rintro ⟨a, b, c, hpieces, hcontroller, hepoch, hnonce, hvalid⟩
    refine ⟨(x, 3), (parse_parts_three hover).mpr ⟨a, b, c, { controller := x.controller },
      { controller := x.controller, boot_epoch := x.boot_epoch }, hpieces, ?_, ?_, ?_⟩, ?_⟩
    · simp [incarnation_part, hcontroller]
    · simp [incarnation_part, hepoch]
    · simp [incarnation_part, hnonce]
    · simp [hvalid]

/-! ## Round trips -/

/-- Every number of the identity fits its 64 bits. -/
def AttemptId.Fits (x : AttemptId) : Prop :=
  x.job.value < u64_limit ∧ x.generation.value < u64_limit ∧ x.ordinal.value < u64_limit

def ControllerIncarnation.Fits (x : ControllerIncarnation) : Prop :=
  x.controller.value < u64_limit ∧ x.boot_epoch.value < u64_limit ∧ x.nonce < u64_limit

theorem splitOn_three {a b c : Text} (ha : slash ∉ a) (hb : slash ∉ b) (hc : slash ∉ c) :
    (a ++ text "/" ++ b ++ text "/" ++ c).splitOn slash = [a, b, c] := by
  have hshape : a ++ text "/" ++ b ++ text "/" ++ c = a ++ slash :: (b ++ slash :: c) := by
    rw [show text "/" = [slash] by decide]
    simp
  rw [hshape, splitOn_cons ha, splitOn_cons hb, splitOn_last hc]

theorem parse_attempt_id_to_string {x : AttemptId} (hvalid : x.valid = true) (h : x.Fits) :
    parse_attempt_id x.to_string = some x :=
  parse_attempt_id_iff.mpr ⟨_, _, _,
    splitOn_three (slash_to_string x.job) (slash_to_string x.generation)
      (slash_to_string x.ordinal),
    parse_id_to_string h.1, parse_id_to_string h.2.1, parse_id_to_string h.2.2, hvalid⟩

theorem parse_controller_incarnation_to_string {x : ControllerIncarnation} (hvalid : x.valid = true)
    (h : x.Fits) : parse_controller_incarnation x.to_string = some x := by
  have hnonce := not_digit_mem (by decide : is_digit slash = false) (decimal_digits x.nonce)
  exact parse_controller_incarnation_iff.mpr ⟨_, _, _,
    splitOn_three (slash_to_string x.controller) (slash_to_string x.boot_epoch) hnonce,
    parse_id_to_string h.1, parse_id_to_string h.2.1, parse_u64_decimal h.2.2, hvalid⟩

/-! ## Refusals -/

theorem split_prefixed_index_parts {t w : Text} {n : Nat}
    (h : split_prefixed_index t = some (w, n)) : Parts colon 2 t := by
  unfold split_prefixed_index at h
  simp only at h
  by_cases hbad : t.idxOf colon = t.length ∨ t.idxOf colon = 0 ∨ t.idxOf colon + 1 ≥ t.length
  · rw [if_pos hbad] at h
    cases h
  · rw [if_neg hbad, Option.map_eq_some_iff] at h
    obtain ⟨index, hindex, _⟩ := h
    rw [parse_u32, Option.bind_eq_some_iff] at hindex
    obtain ⟨value, hvalue, _⟩ := hindex
    obtain ⟨hdigits, _⟩ := parse_u64_iff.mp hvalue
    rw [not_or, not_or] at hbad
    obtain ⟨hsplit, hfront⟩ := split_first hbad.1
    rw [hsplit]
    refine parts_prefixed hfront ?_ hdigits
    intro hnil
    have hlength := congrArg List.length hnil
    rw [List.length_take, List.length_nil] at hlength
    omega

theorem parse_target_id_parts {t : Text} {x : TargetId} (h : parse_target_id t = some x) :
    Parts colon 2 t := by
  simp only [parse_target_id, Option.bind_eq_bind, Option.bind_eq_some_iff] at h
  obtain ⟨⟨w, n⟩, hsplit, _⟩ := h
  exact split_prefixed_index_parts hsplit

theorem parse_domain_id_parts {t : Text} {x : DomainId} (h : parse_domain_id t = some x) :
    Parts colon 2 t := by
  simp only [parse_domain_id, Option.bind_eq_bind, Option.bind_eq_some_iff] at h
  obtain ⟨⟨w, n⟩, hsplit, _⟩ := h
  exact split_prefixed_index_parts hsplit

theorem parse_attempt_id_parts {t : Text} {x : AttemptId} (h : parse_attempt_id t = some x) :
    Parts slash 3 t ∧ ∀ piece ∈ t.splitOn slash, Parts colon 2 piece := by
  obtain ⟨a, b, c, hpieces, hjob, hgeneration, hordinal, _⟩ := parse_attempt_id_iff.mp h
  obtain ⟨hasome, ha⟩ := parse_id_parts hjob
  obtain ⟨hbsome, hb⟩ := parse_id_parts hgeneration
  obtain ⟨hcsome, hc⟩ := parse_id_parts hordinal
  rw [Parts, hpieces]
  refine ⟨⟨rfl, by simp [hasome.symm, hbsome.symm, hcsome.symm]⟩, ?_⟩
  intro piece hpiece
  simp only [List.mem_cons, List.not_mem_nil, or_false] at hpiece
  rcases hpiece with rfl | rfl | rfl
  · exact ha
  · exact hb
  · exact hc

theorem parse_controller_incarnation_parts {t : Text} {x : ControllerIncarnation}
    (h : parse_controller_incarnation t = some x) :
    Parts slash 3 t ∧ (∀ piece ∈ (t.splitOn slash).take 2, Parts colon 2 piece) ∧
      ∀ piece ∈ (t.splitOn slash).drop 2, Digits piece := by
  obtain ⟨a, b, c, hpieces, hcontroller, hepoch, hnonce, _⟩ :=
    parse_controller_incarnation_iff.mp h
  obtain ⟨hasome, ha⟩ := parse_id_parts hcontroller
  obtain ⟨hbsome, hb⟩ := parse_id_parts hepoch
  obtain ⟨hdigits, _⟩ := parse_u64_iff.mp hnonce
  have hcsome : c ≠ [] := List.length_pos_iff.mp hdigits.some_digit
  rw [Parts, hpieces]
  refine ⟨⟨rfl, by simp [hasome.symm, hbsome.symm, hcsome.symm]⟩, ?_, ?_⟩
  · intro piece hpiece
    simp only [List.take_succ_cons, List.take_zero, List.mem_cons, List.not_mem_nil,
      or_false] at hpiece
    rcases hpiece with rfl | rfl
    · exact ha
    · exact hb
  · intro piece hpiece
    simp only [List.drop_succ_cons, List.drop_zero, List.mem_singleton] at hpiece
    rw [hpiece]
    exact hdigits

/-- A parser refuses what fails a condition that everything it takes meets. -/
theorem refuses {α : Type} {parsed : Option α} {P : Prop} (h : ∀ x, parsed = some x → P)
    (hP : ¬ P) : parsed = none := by
  cases parsed with
  | none => rfl
  | some x => exact absurd (h x rfl) hP

/-- The numbers and durations taken are exactly the well-formed ones that fit, and each is the
    value of its digits.  Identities read back as written, and a text with a part missing, empty
    or too many is refused. -/
theorem number_and_identity_text :
    (∀ t v, parse_u64 t = some v ↔ Digits t ∧ digits_value t < u64_limit ∧ v = digits_value t) ∧
    (∀ t d, parse_duration_text t = some d ↔ ∃ digits unit n, t = digits ++ unit ∧ Digits digits ∧
      (unit, n) ∈ duration_units ∧ ((digits_value digits * n : Nat) : Int) ≤ i64_max ∧
      d = ((digits_value digits * n : Nat) : Int)) ∧
    ((∀ x : AttemptId, x.valid = true → x.Fits → parse_attempt_id x.to_string = some x) ∧
      (∀ x : ControllerIncarnation, x.valid = true → x.Fits →
        parse_controller_incarnation x.to_string = some x) ∧
      (∀ x : TargetId, x.valid = true → x.index < 4294967296 →
        parse_target_id x.to_string = some x) ∧
      ∀ x : DomainId, x.valid = true → x.index < 4294967296 →
        parse_domain_id x.to_string = some x) ∧
    ∀ t, (¬ (Parts slash 3 t ∧ ∀ piece ∈ t.splitOn slash, Parts colon 2 piece) →
        parse_attempt_id t = none) ∧
      (¬ (Parts slash 3 t ∧ (∀ piece ∈ (t.splitOn slash).take 2, Parts colon 2 piece) ∧
          ∀ piece ∈ (t.splitOn slash).drop 2, Digits piece) →
        parse_controller_incarnation t = none) ∧
      (¬ Parts colon 2 t → parse_target_id t = none ∧ parse_domain_id t = none) := by
  refine ⟨fun t v => parse_u64_iff, fun t d => parse_duration_text_iff, ⟨?_, ?_, ?_, ?_⟩, ?_⟩
  · exact fun x hvalid h => parse_attempt_id_to_string hvalid h
  · exact fun x hvalid h => parse_controller_incarnation_to_string hvalid h
  · intro x hvalid h
    exact parse_target_id_to_string ⟨by simpa [TargetId.valid] using hvalid, h⟩
  · intro x hvalid h
    exact parse_domain_id_to_string ⟨by simpa [DomainId.valid] using hvalid, h⟩
  · intro t
    refine ⟨?_, ?_, ?_⟩
    · exact refuses (fun _ h => parse_attempt_id_parts h)
    · exact refuses (fun _ h => parse_controller_incarnation_parts h)
    · intro hparts
      exact ⟨refuses (fun _ h => parse_target_id_parts h) hparts,
        refuses (fun _ h => parse_domain_id_parts h) hparts⟩

end MaintenanceFabric
