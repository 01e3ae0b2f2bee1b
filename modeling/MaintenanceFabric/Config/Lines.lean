import MaintenanceFabric.Config.Text

/-! # Lines that read back

    What the renderer writes the tokenizer reads: numbers, identities and lists
    of them, and lines of `key=value` tokens whose values hold neither blanks
    nor a `#`.
-/

namespace MaintenanceFabric

open Lib

/-! ## Numbers -/

theorem decimal_step (n : Nat) (h : 10 ≤ n) :
    decimal n = decimal (n / 10) ++ decimal (n % 10) := by
  have hdigits := Nat.toDigits_of_base_le (b := 10) (by decide) h
  have hlast := Nat.toDigits_of_lt_base (b := 10) (Nat.mod_lt n (by decide))
  rw [decimal, decimal, decimal, hdigits, hlast, List.map_append]

theorem decimal_digit {n : Nat} (h : n < 10) : decimal n = [UInt8.ofNat (48 + n)] := by
  revert n
  decide

theorem digit_value {n : Nat} (h : n < 10) :
    is_digit (UInt8.ofNat (48 + n)) = true ∧ (UInt8.ofNat (48 + n)).toNat - 48 = n := by
  revert n
  decide

theorem decimal_ne_nil (n : Nat) : decimal n ≠ [] := by
  simp [decimal]

theorem decimal_digits (n : Nat) : ∀ c ∈ decimal n, is_digit c = true := by
  induction n using Nat.strong_induction_on with
  | _ n ih =>
    by_cases h : n < 10
    · rw [decimal_digit h]
      intro c hc
      rw [List.mem_singleton.mp hc]
      exact (digit_value h).1
    · have hlast : n % 10 < 10 := Nat.mod_lt n (by decide)
      rw [decimal_step n (by omega), decimal_digit hlast]
      intro c hc
      rcases List.mem_append.mp hc with hc | hc
      · exact ih (n / 10) (by omega) c hc
      · rw [List.mem_singleton.mp hc]
        exact (digit_value hlast).1

theorem push_digit_of_lt (value : Nat) {n : Nat} (hn : n < 10) (h : value * 10 + n < u64_limit) :
    push_digit value (UInt8.ofNat (48 + n)) = some (value * 10 + n) := by
  obtain ⟨hdigit, hvalue⟩ := digit_value hn
  unfold u64_limit at h
  have hroom : ¬ value > (u64_limit - 1 - n) / 10 := by unfold u64_limit; omega
  rw [push_digit, if_pos hdigit, hvalue, if_neg hroom]

/-- The digits of a number that fits into 64 bits add up to it. -/
theorem push_decimal {n : Nat} (h : n < u64_limit) :
    (decimal n).foldlM push_digit 0 = some n := by
  induction n using Nat.strong_induction_on with
  | _ n ih =>
    by_cases hsmall : n < 10
    · have hone := push_digit_of_lt 0 hsmall (by omega)
      rw [decimal_digit hsmall]
      simpa using hone
    · have hlast : n % 10 < 10 := Nat.mod_lt n (by decide)
      have hfront := ih (n / 10) (by omega) (by unfold u64_limit at h ⊢; omega)
      have hone := push_digit_of_lt (n / 10) hlast (by unfold u64_limit at h ⊢; omega)
      rw [decimal_step n (by omega), List.foldlM_append, hfront, decimal_digit hlast]
      have hn : n / 10 * 10 + n % 10 = n := by omega
      rw [hn] at hone
      simpa using hone

theorem parse_u64_decimal {n : Nat} (h : n < u64_limit) : parse_u64 (decimal n) = some n := by
  have hlength : (decimal n).length ≤ 20 := by
    rw [decimal, List.length_map]
    refine (Nat.length_toDigits_le_iff (by decide) (by decide)).mpr ?_
    unfold u64_limit at h
    omega
  have hshort : ((decimal n).isEmpty || decide ((decimal n).length > 20)) = false := by
    simp [decimal_ne_nil n, hlength]
  rw [parse_u64, hshort, if_neg (by simp), push_decimal h]

theorem parse_u32_decimal {n : Nat} (h : n < 4294967296) : parse_u32 (decimal n) = some n := by
  rw [parse_u32, parse_u64_decimal (by unfold u64_limit; omega)]
  simp [narrow_u32, show n ≤ 4294967295 by omega]

theorem lt_of_parse_u32 {t : Text} {n : Nat} (h : parse_u32 t = some n) : n < 4294967296 := by
  simp only [parse_u32, Option.bind_eq_some_iff, narrow_u32] at h
  obtain ⟨value, _, hnarrow⟩ := h
  split at hnarrow
  · cases hnarrow
    omega
  · cases hnarrow

/-! ## Words -/

/-- What a value cannot hold: it would end there. -/
def is_mark (c : UInt8) : Bool := is_space c || c == hash

/-- A value that a line keeps. -/
abbrev Plain (w : Text) : Prop := Solid is_mark w

theorem Plain.solid {w : Text} (h : Plain w) : Solid is_space w := by
  refine ⟨h.1, ?_⟩
  intro c hc
  have hmark := h.2 c hc
  simp only [is_mark, Bool.or_eq_false_iff] at hmark
  exact hmark.1

theorem digit_plain {c : UInt8} (h : is_digit c = true) :
    is_mark c = false ∧ c ≠ colon ∧ c ≠ comma ∧ c ≠ equals := by
  simp only [is_digit, Bool.and_eq_true, decide_eq_true_eq] at h
  obtain ⟨hlow, hhigh⟩ := h
  have hlow : 48 ≤ c.toNat := hlow
  have hhigh : c.toNat ≤ 57 := hhigh
  have hne : ∀ b : UInt8, b.toNat < 48 ∨ 57 < b.toNat → c ≠ b := by
    rintro b hb rfl
    omega
  refine ⟨?_, hne _ (by decide), hne _ (by decide), hne _ (by decide)⟩
  have hspace : c ≠ 32 := hne _ (by decide)
  have hhash : c ≠ hash := hne _ (by decide)
  have hcontrol : ¬ c ≤ 13 := by
    intro hle
    have hle : c.toNat ≤ 13 := hle
    omega
  simp [is_mark, is_space, hspace, hhash, hcontrol]

theorem plain_decimal (n : Nat) : Plain (decimal n) := by
  refine ⟨decimal_ne_nil n, ?_⟩
  intro c hc
  exact (digit_plain (decimal_digits n c hc)).1

/-! ## Identities -/

/-- What is written before the number of an identity. -/
structure Prefix (w : Text) : Prop where
  plain : Plain w
  colon : colon ∉ w
  comma : comma ∉ w

theorem prefix_target_kind (kind : TargetKind) : Prefix kind.to_string := by
  cases kind <;> exact ⟨by decide, by decide, by decide⟩

theorem prefix_domain_kind (kind : DomainKind) : Prefix kind.to_string := by
  cases kind <;> exact ⟨by decide, by decide, by decide⟩

namespace Prefix

variable {w : Text} (h : Prefix w) (n : Nat)

include h

theorem plain_indexed : Plain (w ++ text ":" ++ decimal n) :=
  (h.plain.append (by decide : Plain (text ":"))).append (plain_decimal n)

theorem comma_indexed : MaintenanceFabric.comma ∉ w ++ text ":" ++ decimal n := by
  intro hmem
  simp only [List.mem_append] at hmem
  rcases hmem with (hmem | hmem) | hmem
  · exact h.comma hmem
  · exact absurd hmem (by decide)
  · exact (digit_plain (decimal_digits n _ hmem)).2.2.1 rfl

theorem split_indexed (hn : n < 4294967296) :
    split_prefixed_index (w ++ text ":" ++ decimal n) = some (w, n) := by
  have hcolon : text ":" = [MaintenanceFabric.colon] := by decide
  have hwhole : w ++ text ":" ++ decimal n = w ++ MaintenanceFabric.colon :: decimal n := by
    rw [hcolon, List.append_assoc, List.singleton_append]
  have hindex : (w ++ MaintenanceFabric.colon :: decimal n).idxOf MaintenanceFabric.colon =
      w.length := by
    rw [List.idxOf_append_of_notMem h.colon, List.idxOf_cons_self]
    rfl
  have hfirst : w.length ≠ 0 := by
    simpa using h.plain.1
  have hsecond : (decimal n).length ≠ 0 := by
    simpa using decimal_ne_nil n
  rw [hwhole]
  unfold split_prefixed_index
  simp only [hindex, List.length_append, List.length_cons]
  rw [if_neg (by omega)]
  have hdrop : (w ++ MaintenanceFabric.colon :: decimal n).drop (w.length + 1) = decimal n := by
    simp
  rw [hdrop, parse_u32_decimal hn]
  simp

end Prefix

theorem parse_target_kind_to_string (kind : TargetKind) :
    parse_target_kind kind.to_string = some kind := by
  cases kind <;> decide

theorem parse_domain_kind_to_string (kind : DomainKind) :
    parse_domain_kind kind.to_string = some kind := by
  cases kind <;> decide

/-- An identity that the parser can produce. -/
def TargetId.written (id : TargetId) : Prop := id.kind ≠ .Unknown ∧ id.index < 4294967296

def DomainId.written (id : DomainId) : Prop := id.kind ≠ .Unknown ∧ id.index < 4294967296

theorem parse_target_id_to_string {id : TargetId} (h : id.written) :
    parse_target_id id.to_string = some id := by
  have hsplit := (prefix_target_kind id.kind).split_indexed id.index h.2
  rw [← TargetId.to_string] at hsplit
  simp [parse_target_id, hsplit, parse_target_kind_to_string, h.1]

theorem parse_domain_id_to_string {id : DomainId} (h : id.written) :
    parse_domain_id id.to_string = some id := by
  have hsplit := (prefix_domain_kind id.kind).split_indexed id.index h.2
  rw [← DomainId.to_string] at hsplit
  simp [parse_domain_id, hsplit, parse_domain_kind_to_string, h.1]

theorem index_lt_of_split {t kind_text : Text} {index : Nat}
    (h : split_prefixed_index t = some (kind_text, index)) : index < 4294967296 := by
  unfold split_prefixed_index at h
  simp only at h
  split at h
  · cases h
  · simp only [Option.map_eq_some_iff, Prod.mk.injEq] at h
    obtain ⟨_, hindex, _, rfl⟩ := h
    exact lt_of_parse_u32 hindex

theorem written_of_parse_target {t : Text} {id : TargetId} (h : parse_target_id t = some id) :
    id.written := by
  simp only [parse_target_id, Option.bind_eq_bind, Option.bind_eq_some_iff] at h
  obtain ⟨⟨kind_text, index⟩, hsplit, kind, _, hid⟩ := h
  by_cases hkind : kind = .Unknown
  · rw [if_pos hkind] at hid
    cases hid
  · rw [if_neg hkind] at hid
    cases hid
    exact ⟨hkind, index_lt_of_split hsplit⟩

theorem written_of_parse_domain {t : Text} {id : DomainId} (h : parse_domain_id t = some id) :
    id.written := by
  simp only [parse_domain_id, Option.bind_eq_bind, Option.bind_eq_some_iff] at h
  obtain ⟨⟨kind_text, index⟩, hsplit, kind, _, hid⟩ := h
  by_cases hkind : kind = .Unknown
  · rw [if_pos hkind] at hid
    cases hid
  · rw [if_neg hkind] at hid
    cases hid
    exact ⟨hkind, index_lt_of_split hsplit⟩

/-! ## Lists of identities -/

/-- Written with commas between them. -/
def joined (pieces : List Text) : Text := [comma].intercalate pieces

theorem plain_joined {pieces : List Text} (hne : pieces ≠ []) (h : ∀ w ∈ pieces, Plain w) :
    Plain (joined pieces) := by
  induction pieces with
  | nil => exact absurd rfl hne
  | cons w rest ih =>
    have hw := h w List.mem_cons_self
    have hrest : ∀ v ∈ rest, Plain v := fun v hv => h v (List.mem_cons_of_mem _ hv)
    cases rest with
    | nil => simpa [joined] using hw
    | cons v vs =>
      have htail := ih (by simp) hrest
      rw [joined, List.intercalate_cons_cons, List.append_assoc]
      exact hw.append (Solid.cons (by decide) htail)

/-- Pieces that parse, read one after the other. -/
theorem parse_pieces {α : Type} {noun : Text} {parse : Text → Option α} {show_id : α → Text}
    {line : Line} {ids : List α} (hne : ∀ id ∈ ids, show_id id ≠ [])
    (hparse : ∀ id ∈ ids, parse (show_id id) = some id) (out : List α) :
    (ids.map show_id).foldlM (read_piece noun parse line) out = .ok (out ++ ids) := by
  induction ids generalizing out with
  | nil =>
    rw [List.append_nil]
    rfl
  | cons id ids ih =>
    have hid := hparse id List.mem_cons_self
    have hfirst : (show_id id).isEmpty = false := by
      simpa using hne id List.mem_cons_self
    have hrest := ih (fun x hx => hne x (List.mem_cons_of_mem _ hx))
      (fun x hx => hparse x (List.mem_cons_of_mem _ hx)) (out ++ [id])
    have hone : read_piece noun parse line out (show_id id) = .ok (out ++ [id]) := by
      simp only [read_piece, hfirst, Bool.false_eq_true, if_false, hid]
    rw [List.map_cons, List.foldlM_cons, hone, Result.ok_bind, hrest, List.append_assoc,
      List.singleton_append]

theorem parse_list_joined {α : Type} {noun : Text} {parse : Text → Option α} {show_id : α → Text}
    (line : Line) {ids : List α} (hsome : ids ≠ []) (hne : ∀ id ∈ ids, show_id id ≠ [])
    (hcomma : ∀ id ∈ ids, comma ∉ show_id id)
    (hparse : ∀ id ∈ ids, parse (show_id id) = some id) :
    parse_list noun parse line (joined (ids.map show_id)) = .ok ids := by
  have hsplit : (joined (ids.map show_id)).splitOn comma = ids.map show_id := by
    refine List.splitOn_intercalate comma ?_ (by simpa using hsome)
    intro piece hpiece
    obtain ⟨id, hid, rfl⟩ := List.mem_map.mp hpiece
    exact hcomma id hid
  rw [parse_list, hsplit]
  exact parse_pieces hne hparse []

theorem joined_cons (w : Text) (pieces : List Text) :
    joined (w :: pieces) = w ++ pieces.flatMap (comma :: ·) := by
  induction pieces generalizing w with
  | nil => simp [joined]
  | cons v pieces ih =>
    rw [joined, List.intercalate_cons_cons, ← joined, ih v, List.flatMap_cons]
    simp

theorem comma_list_eq (pieces : List Text) : comma_list pieces = joined pieces := by
  have hlater : ∀ (rest : List Text) (n : Nat), n ≠ 0 →
      (rest.zipIdx n).flatMap (fun p => (if p.2 ≠ 0 then [comma] else []) ++ p.1) =
        rest.flatMap (comma :: ·) := by
    intro rest
    induction rest with
    | nil =>
      intro n _
      rfl
    | cons w rest ih =>
      intro n hn
      rw [List.zipIdx_cons, List.flatMap_cons, List.flatMap_cons, ih (n + 1) (by omega)]
      simp [hn]
  cases pieces with
  | nil => rfl
  | cons w rest =>
    have htail := hlater rest 1 (by decide)
    rw [comma_list, List.zipIdx_cons, List.flatMap_cons, joined_cons, htail]
    simp

theorem plain_target (id : TargetId) : Plain id.to_string :=
  (prefix_target_kind id.kind).plain_indexed id.index

theorem plain_domain (id : DomainId) : Plain id.to_string :=
  (prefix_domain_kind id.kind).plain_indexed id.index

theorem plain_targets {targets : List TargetId} (hsome : targets ≠ []) :
    Plain (joined (targets.map TargetId.to_string)) := by
  refine plain_joined (by simpa using hsome) ?_
  intro w hw
  obtain ⟨m, _, rfl⟩ := List.mem_map.mp hw
  exact plain_target m

theorem parse_target_list_joined (line : Line) {ids : List TargetId} (hsome : ids ≠ [])
    (h : ∀ id ∈ ids, id.written) :
    parse_target_list line (joined (ids.map TargetId.to_string)) = .ok ids :=
  parse_list_joined line hsome (fun id _ => (plain_target id).1)
    (fun id _ => (prefix_target_kind id.kind).comma_indexed id.index)
    (fun id hid => parse_target_id_to_string (h id hid))

theorem parse_domain_list_joined (line : Line) {ids : List DomainId} (hsome : ids ≠ [])
    (h : ∀ id ∈ ids, id.written) :
    parse_domain_list line (joined (ids.map DomainId.to_string)) = .ok ids :=
  parse_list_joined line hsome (fun id _ => (plain_domain id).1)
    (fun id _ => (prefix_domain_kind id.kind).comma_indexed id.index)
    (fun id hid => parse_domain_id_to_string (h id hid))

/-- A list that was read is not empty, and every entry of it was parsed. -/
theorem mem_parsed_list {α : Type} {noun : Text} {parse : Text → Option α} {line : Line}
    {value : Text} {ids : List α} (h : parse_list noun parse line value = .ok ids) :
    ids ≠ [] ∧ ∀ id ∈ ids, ∃ piece, parse piece = some id := by
  -- Over what has been read so far: each piece adds one id, and the one it was parsed to.
  have hloop : ∀ (pieces : List Text) (out ids : List α),
      pieces.foldlM (read_piece noun parse line) out = .ok ids →
      ids.length = out.length + pieces.length ∧
        ∀ id ∈ ids, id ∈ out ∨ ∃ piece, parse piece = some id := by
    intro pieces
    induction pieces with
    | nil =>
      intro out ids h
      cases h
      exact ⟨by simp, fun id hid => .inl hid⟩
    | cons piece pieces ih =>
      intro out ids h
      rw [List.foldlM_cons, Result.bind_eq_ok] at h
      obtain ⟨next, hnext, hrest⟩ := h
      unfold read_piece at hnext
      split at hnext
      · cases hnext
      · split at hnext
        · cases hnext
        · next id hid =>
          cases hnext
          obtain ⟨hlength, hmem⟩ := ih _ _ hrest
          refine ⟨?_, ?_⟩
          · simp only [List.length_append, List.length_cons, List.length_nil] at hlength ⊢
            omega
          · intro x hx
            rcases hmem x hx with hx | hx
            · rcases List.mem_append.mp hx with hx | hx
              · exact .inl hx
              · rw [List.mem_singleton] at hx
                exact .inr ⟨piece, hx ▸ hid⟩
            · exact .inr hx
  obtain ⟨hlength, hmem⟩ := hloop _ _ _ h
  constructor
  · rintro rfl
    have hpieces := List.length_pos_iff.mpr (List.splitOn_ne_nil comma value)
    simp only [List.length_nil] at hlength
    omega
  · intro id hid
    rcases hmem id hid with hin | hparsed
    · cases hin
    · exact hparsed

/-! ## Lines -/

/-- A field as it is written. -/
def field_text (key value : Text) : Text := key ++ equals :: value

/-- A record as it is written, its line end apart. -/
def record_text (kind : Text) (fields : List Token) : Text :=
  [32].intercalate (kind :: fields.map (fun f => field_text f.key f.value))

/-- The text before a value: a blank, the key and the sign. -/
theorem field_text_append (key value : Text) :
    32 :: field_text key value = (32 :: key ++ [equals]) ++ value := by
  simp [field_text]

theorem record_text_eq (kind : Text) (fields : List Token) :
    record_text kind fields = kind ++ fields.flatMap (fun f => 32 :: field_text f.key f.value) := by
  unfold record_text
  induction fields generalizing kind with
  | nil => simp
  | cons f fields ih =>
    rw [List.map_cons, List.intercalate_cons_cons, ih, List.flatMap_cons]
    simp

/-- A field that a line keeps. -/
structure Token.Plain (f : Token) : Prop where
  key : MaintenanceFabric.Plain f.key
  equals : equals ∉ f.key
  value : MaintenanceFabric.Plain f.value

theorem Token.Plain.text {f : Token} (h : f.Plain) :
    MaintenanceFabric.Plain (field_text f.key f.value) :=
  h.key.append (Solid.cons (by decide) h.value)

/-- A field under a key that is written out. -/
theorem plain_field {key value : Text} (hkey : Plain key ∧ equals ∉ key) (hvalue : Plain value) :
    Token.Plain ⟨key, value⟩ := ⟨hkey.1, hkey.2, hvalue⟩

theorem plain_bool (b : Bool) : Plain (bool_text b) := by
  cases b <;> decide

/-- A record that the tokenizer reads back. -/
structure PlainRecord (kind : Text) (fields : List Token) : Prop where
  kind : Plain kind
  plain : ∀ f ∈ fields, f.Plain
  keys : (fields.map Token.key).Nodup
  count : fields.length ≤ 64

theorem read_token_field (number : Nat) {tokens : List Token} {f : Token} (h : f.Plain)
    (hfresh : f.key ∉ tokens.map Token.key) :
    read_token number tokens (field_text f.key f.value) = .ok (tokens ++ [f]) := by
  have hindex : (field_text f.key f.value).idxOf equals = f.key.length := by
    rw [field_text, List.idxOf_append_of_notMem h.equals, List.idxOf_cons_self]
    rfl
  have hkey : f.key.length ≠ 0 := by
    simpa using h.key.1
  have hvalue : f.value.length ≠ 0 := by
    simpa using h.value.1
  have hlength : (field_text f.key f.value).length = f.key.length + f.value.length + 1 := by
    simp [field_text]
    omega
  have hunknown : tokens.find? (fun token => token.key = f.key) = none := by
    rw [List.find?_eq_none]
    intro token htoken hsame
    exact hfresh (List.mem_map.mpr ⟨token, htoken, by simpa using hsame⟩)
  unfold read_token
  simp only [hindex, hlength]
  rw [if_neg (by omega)]
  simp [field_text, hunknown]

theorem read_tokens (number : Nat) (tokens : List Token) {fields : List Token}
    (h : ∀ f ∈ fields, f.Plain)
    (hkeys : ((tokens ++ fields).map Token.key).Nodup) :
    (fields.map (fun f => field_text f.key f.value)).foldlM (read_token number) tokens =
      .ok (tokens ++ fields) := by
  induction fields generalizing tokens with
  | nil =>
    rw [List.append_nil]
    rfl
  | cons f fields ih =>
    have hfresh : f.key ∉ tokens.map Token.key := by
      rw [List.map_append, List.nodup_append] at hkeys
      intro hmem
      exact hkeys.2.2 f.key hmem f.key (by simp) rfl
    have hone := read_token_field number (h f List.mem_cons_self) hfresh
    have hrest := @ih (tokens ++ [f]) (fun x hx => h x (List.mem_cons_of_mem _ hx))
      (by simpa using hkeys)
    rw [List.map_cons, List.foldlM_cons, hone, Result.ok_bind, hrest, List.append_assoc,
      List.singleton_append]

theorem Plain.unblank {w : Text} (h : Plain w) : Solid is_blank w := by
  refine ⟨h.1, ?_⟩
  intro c hc
  have hspace := h.solid.2 c hc
  rw [← Bool.not_eq_true] at hspace ⊢
  intro hblank
  apply hspace
  simp only [is_blank, Bool.or_eq_true, beq_iff_eq] at hblank
  rcases hblank with (rfl | rfl) | rfl <;> decide

namespace PlainRecord

variable {kind : Text} {fields : List Token}

theorem words_plain (h : PlainRecord kind fields) :
    ∀ w ∈ kind :: fields.map (fun f => field_text f.key f.value), Plain w := by
  intro w hw
  rcases List.mem_cons.mp hw with rfl | hw
  · exact h.kind
  · obtain ⟨f, hf, rfl⟩ := List.mem_map.mp hw
    exact (h.plain f hf).text

theorem mem_text (h : PlainRecord kind fields) {c : UInt8} (hc : c ∈ record_text kind fields) :
    c = 32 ∨ is_mark c = false := by
  rcases mem_intercalate hc with rfl | ⟨w, hw, hc⟩
  · exact .inl rfl
  · exact .inr ((h.words_plain w hw).2 c hc)

theorem body (h : PlainRecord kind fields) : line_body (record_text kind fields) =
    record_text kind fields := by
  have hstrip : trim (record_text kind fields) = record_text kind fields :=
    strip_intercalate (fun w hw => (h.words_plain w hw).unblank)
  have hcomment : hash ∉ record_text kind fields := by
    intro hmem
    rcases h.mem_text hmem with hc | hc
    · cases hc
    · cases hc
  unfold line_body
  simp only [hstrip]
  rw [if_neg hcomment]

theorem newline_free (h : PlainRecord kind fields) : newline ∉ record_text kind fields := by
  intro hmem
  rcases h.mem_text hmem with hc | hc
  · cases hc
  · cases hc

/-- A record is read back as its kind and its fields. -/
theorem read (h : PlainRecord kind fields) (number : Nat) :
    read_line number (record_text kind fields) =
      .ok (some { number, kind, tokens := fields }) := by
  have hwords : words is_space (record_text kind fields) =
      kind :: fields.map (fun f => field_text f.key f.value) :=
    words_intercalate (by decide) (fun w hw => (h.words_plain w hw).solid)
  have hsome : (record_text kind fields).isEmpty = false := by
    by_contra hempty
    rw [Bool.not_eq_false, List.isEmpty_iff] at hempty
    rw [hempty] at hwords
    cases hwords
  have htokens := read_tokens number [] h.plain (by simpa using h.keys)
  have hcount : decide (fields.length > 64) = false := by
    simpa using h.count
  rw [List.nil_append] at htokens
  unfold read_line
  simp only [h.body, hsome, hwords, List.tail_cons, List.headD_cons, htokens, Result.ok_bind,
    hcount, refuse_if, ok_status, Bool.false_eq_true, if_false]

end PlainRecord

/-! ## Texts -/

/-- A text of records, each on a line of its own. -/
def records_text (records : List (Text × List Token)) : Text :=
  records.flatMap (fun r => record_text r.1 r.2 ++ [newline])

/-- The lines of such a text, counted from `number`. -/
def numbered : Nat → List (Text × List Token) → List Line
  | _, [] => []
  | number, r :: rest => { number, kind := r.1, tokens := r.2 } :: numbered (number + 1) rest

theorem numbered_append (number : Nat) (first second : List (Text × List Token)) :
    numbered number (first ++ second) =
      numbered number first ++ numbered (number + first.length) second := by
  induction first generalizing number with
  | nil => rfl
  | cons r first ih =>
    rw [List.cons_append, numbered, ih, numbered, List.cons_append, List.length_cons]
    congr 3
    omega

theorem read_lines_records {records : List (Text × List Token)}
    (h : ∀ r ∈ records, PlainRecord r.1 r.2) (number : Nat) :
    read_lines number ((records_text records).splitOn newline) = .ok (numbered number records) := by
  induction records generalizing number with
  | nil => rfl
  | cons r rest ih =>
    have hr := h r List.mem_cons_self
    have hrest := ih (fun x hx => h x (List.mem_cons_of_mem _ hx)) (number + 1)
    have hsplit : (records_text (r :: rest)).splitOn newline =
        record_text r.1 r.2 :: (records_text rest).splitOn newline := by
      rw [records_text, List.flatMap_cons, List.append_assoc, List.singleton_append,
        List.splitOn_append_cons_self_of_not_mem hr.newline_free]
      rfl
    rw [hsplit, read_lines, hr.read, Result.ok_bind, hrest, Result.ok_bind]
    rfl

/-- What is written line by line is read line by line. -/
theorem tokenize_records {records : List (Text × List Token)}
    (h : ∀ r ∈ records, PlainRecord r.1 r.2) :
    tokenize (records_text records) = .ok (numbered 1 records) := read_lines_records h 1

/-! ## What was read -/

theorem hash_free_body (raw : Text) : hash ∉ line_body raw := by
  unfold line_body
  by_cases hcomment : hash ∈ trim raw
  · rw [if_pos hcomment]
    intro hmem
    have hbefore := mem_strip hmem
    have hne := List.all_eq_true.mp List.all_takeWhile hash hbefore
    simp at hne
  · rw [if_neg hcomment]
    exact hcomment

theorem read_token_value {number : Nat} {tokens tokens' : List Token} {token : Text}
    (htoken : Plain token) (h : read_token number tokens token = .ok tokens') :
    ∃ entry, tokens' = tokens ++ [entry] ∧ Plain entry.value := by
  unfold read_token at h
  simp only at h
  split at h
  · cases h
  · next hplace =>
    split at h
    · cases h
    · cases h
      refine ⟨_, rfl, ?_⟩
      refine htoken.of_sublist ?_ (fun c hc => List.mem_of_mem_drop hc)
      intro hnil
      have hlength := congrArg List.length hnil
      simp only [List.length_drop, List.length_nil] at hlength
      omega

theorem read_tokens_values {number : Nat} {pieces : List Text} {tokens tokens' : List Token}
    (hpieces : ∀ w ∈ pieces, Plain w) (htokens : ∀ token ∈ tokens, Plain token.value)
    (h : pieces.foldlM (read_token number) tokens = .ok tokens') :
    ∀ token ∈ tokens', Plain token.value := by
  induction pieces generalizing tokens with
  | nil =>
    cases h
    exact htokens
  | cons w pieces ih =>
    rw [List.foldlM_cons, Result.bind_eq_ok] at h
    obtain ⟨next, hnext, hrest⟩ := h
    obtain ⟨entry, rfl, hentry⟩ := read_token_value (hpieces w List.mem_cons_self) hnext
    refine ih (fun x hx => hpieces x (List.mem_cons_of_mem _ hx)) ?_ hrest
    intro token htoken
    rcases List.mem_append.mp htoken with htoken | htoken
    · exact htokens token htoken
    · rw [List.mem_singleton] at htoken
      rw [htoken]
      exact hentry

/-- Every value of the line can be written. -/
def Line.Plain (line : Line) : Prop := ∀ token ∈ line.tokens, MaintenanceFabric.Plain token.value

theorem Line.Plain.find {line : Line} (h : line.Plain) {key value : Text}
    (hfind : line.find key = some value) : MaintenanceFabric.Plain value := by
  simp only [Line.find, Option.map_eq_some_iff] at hfind
  obtain ⟨token, htoken, rfl⟩ := hfind
  exact h token (List.mem_of_find?_eq_some htoken)

theorem plain_read_line {number : Nat} {raw : Text} {line : Line}
    (h : read_line number raw = .ok (some line)) : line.Plain := by
  unfold read_line at h
  simp only at h
  split at h
  · cases h
  · rw [Result.bind_eq_ok] at h
    obtain ⟨tokens, htokens, hrest⟩ := h
    rw [Result.bind_eq_ok] at hrest
    obtain ⟨_, _, hline⟩ := hrest
    cases hline
    refine read_tokens_values ?_ (fun token htoken => by cases htoken) htokens
    intro w hw
    obtain ⟨hsolid, hmem⟩ := solid_of_mem_words (List.mem_of_mem_tail hw)
    refine ⟨hsolid.1, ?_⟩
    intro c hc
    have hhash : c ≠ hash := by
      rintro rfl
      exact hash_free_body raw (hmem _ hc)
    simp [is_mark, hsolid.2 c hc, hhash]

theorem plain_tokenize {t : Text} {lines : List Line} (h : tokenize t = .ok lines) :
    ∀ line ∈ lines, line.Plain := by
  have hlines : ∀ (raws : List Text) (number : Nat) (lines : List Line),
      read_lines number raws = .ok lines → ∀ line ∈ lines, line.Plain := by
    intro raws
    induction raws with
    | nil =>
      intro number lines h
      cases h
      intro line hline
      cases hline
    | cons raw rest ih =>
      intro number lines h
      rw [read_lines, Result.bind_eq_ok] at h
      obtain ⟨found, hfound, h⟩ := h
      rw [Result.bind_eq_ok] at h
      obtain ⟨later, hlater, h⟩ := h
      cases h
      intro line hline
      rcases List.mem_append.mp hline with hline | hline
      · rw [Option.mem_toList] at hline
        rw [hline] at hfound
        exact plain_read_line hfound
      · exact ih _ _ hlater line hline
  exact hlines _ _ _ h

theorem require_value_eq_ok {line : Line} {key value : Text} :
    require_value line key = .ok value ↔ line.find key = some value := by
  unfold require_value
  cases line.find key with
  | none => simp
  | some found => simp

theorem parse_u32_value_eq_ok {line : Line} {value : Text} {n : Nat} :
    parse_u32_value line value = .ok n ↔ parse_u32 value = some n := by
  unfold parse_u32_value
  cases parse_u32 value with
  | none => simp
  | some found => simp

theorem parse_bool_text (line : Line) (b : Bool) : parse_bool line (bool_text b) = .ok b := by
  cases b <;> rfl

theorem plain_name {line : Line} (h : line.Plain) {fallback : Text} (hfallback : Plain fallback)
    (key : Text) : Plain ((line.find key).getD fallback) := by
  cases hfind : line.find key with
  | none => exact hfallback
  | some value => exact h.find hfind

/-- An optional field is the default, or what its text parses to. -/
theorem optional_value_eq_ok {α : Type} {line : Line} {key : Text} {fallback a : α}
    {parse : Text → Result α} (h : optional_value line key fallback parse = .ok a) :
    a = fallback ∨ ∃ value, parse value = .ok a := by
  unfold optional_value at h
  split at h
  · cases h
    exact .inl rfl
  · next value _ => exact .inr ⟨value, h⟩

/-! ## The records of one kind -/

/-- What the lines of a kind say, in order; a line that is not read says nothing. -/
def records_of_kind {α : Type} (kind : Text) (load : Line → Result α)
    (lines : List Line) : List α :=
  lines.filterMap (fun line => if line.kind = kind then (load line).toOption else none)

theorem records_of_kind_append {α : Type} (kind : Text) (load : Line → Result α)
    (l m : List Line) :
    records_of_kind kind load (l ++ m) = records_of_kind kind load l ++
      records_of_kind kind load m :=
  List.filterMap_append

theorem records_of_one {α : Type} {kind : Text} {load : Line → Result α} {line : Line} {a : α}
    (hkind : line.kind = kind) (hload : load line = .ok a) :
    records_of_kind kind load [line] = [a] := by
  simp [records_of_kind, hkind, hload, Except.toOption]

theorem records_of_other {α : Type} {kind : Text} {load : Line → Result α} {line : Line}
    (hkind : line.kind ≠ kind) : records_of_kind kind load [line] = [] := by
  simp [records_of_kind, hkind]

end MaintenanceFabric
