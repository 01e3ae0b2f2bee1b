import MaintenanceFabric.Domain.Evidence
import MaintenanceFabric.Lib.Decode
import MaintenanceFabric.Store.Image
import MaintenanceFabric.Store.Records

/-! # Record codecs

    The byte layout of the records the store journals, one encoder and one
    decoder per entity.  A decoder is a `Reader`: it walks the payload, checks
    what the source checks in the order it checks it, and yields the entity.

    Every round trip is stated against the value the record stands for: what
    `decode` makes of `encode x` is what the checks of the decoder say about
    `x`.  Values are those of the source's machine types; `machine` says so
    for each entity.
-/

namespace MaintenanceFabric

open Lib

/-! ## Readers -/

/-- A decoder that walks a `ByteReader`. -/
abbrev Reader (α : Type) : Type := StateT ByteReader Result α

/-- What a reader does on every buffer that has `bs` in front of it. -/
abbrev ReadsAs {α : Type} (d : Reader α) (bs : Text) (x : Result α) : Prop :=
  Reads ByteReader.Ahead d bs x

namespace Reader

def u16 : Reader Nat := fun r => .ok r.u16
def u32 : Reader Nat := fun r => .ok r.u32
def u64 : Reader Nat := fun r => .ok r.u64
def i64 : Reader Int := fun r => .ok r.i64
def boolean : Reader Bool := fun r => .ok r.boolean
def str (max_length : Nat) : Reader Text := fun r => .ok (r.str max_length)
def blob (max_length : Nat) : Reader Text := fun r => .ok (r.blob max_length)

/-- `from_u64(reader.u64())`. -/
def id {tag : IdTag} : Reader (StrongId tag) := do
  let value ← u64
  pure ⟨value⟩

/-- `if (!reader.ok() || refused) return error;` -/
def refuse_unless_ok (refused : Bool) (error : Error) : Reader Unit := fun r =>
  if r.ok = false ∨ refused = true then .error error else .ok ((), r)

/-- `if (refused) return error;` -/
def refuse (refused : Bool) (error : Error) : Reader Unit := fun r =>
  if refused = true then .error error else .ok ((), r)

/-- A step that reads nothing. -/
def lift {α : Type} (x : Result α) : Reader α := fun r =>
  match x with
  | .error e => .error e
  | .ok a => .ok (a, r)

/-- `check_layout`. -/
def layout (expected : Nat) (what : Text) : Reader Unit := fun r =>
  match check_layout r expected what with
  | (.error e, _) => .error e
  | (.ok (), r) => .ok ((), r)

/-- Read a whole payload; bytes that are left over, or that were missing, are `trailing`. -/
def decode {α : Type} (body : Reader α) (trailing : Error) (payload : Text) : Result α :=
  match body { data := payload } with
  | .error e => .error e
  | .ok (a, r) => if r.at_end = false then .error trailing else .ok a

end Reader

/-! ### Ranges of the machine types -/

def u32_range : Nat := 4294967296
def u64_range : Nat := 18446744073709551616

/-- The 64-bit signed range. -/
def i64_range (v : Int) : Prop := -9223372036854775808 ≤ v ∧ v < 9223372036854775808

instance (v : Int) : Decidable (i64_range v) := inferInstanceAs (Decidable (_ ∧ _))

/-- The value a signed field holds once it has run over. -/
def wrapped_i64 (v : Int) : Int :=
  (v + 9223372036854775808) % 18446744073709551616 - 9223372036854775808

theorem i64_range_wrapped (v : Int) : i64_range (wrapped_i64 v) := by
  unfold i64_range wrapped_i64
  omega

theorem wrapped_i64_of_range {v : Int} (h : i64_range v) : wrapped_i64 v = v := by
  unfold i64_range at h
  unfold wrapped_i64
  omega

def StrongId.machine {tag : IdTag} (id : StrongId tag) : Prop := id.value < u64_range

instance {tag : IdTag} (id : StrongId tag) : Decidable id.machine :=
  inferInstanceAs (Decidable (_ < _))

/-! Every string bound fits the 16-bit length of a string field. -/

theorem kMaxNameLength_le : limits.kMaxNameLength ≤ 65535 := by decide
theorem kMaxTitleLength_le : limits.kMaxTitleLength ≤ 65535 := by decide
theorem kMaxReasonLength_le : limits.kMaxReasonLength ≤ 65535 := by decide
theorem kMaxDetailLength_le : limits.kMaxDetailLength ≤ 65535 := by decide

namespace ReadsAs

open ByteReader

theorem u16 {v : Nat} (h : v < 65536) : ReadsAs Reader.u16 (u16Bytes v) (.ok v) := by
  intro r rest ha
  obtain ⟨h1, a1⟩ := Ahead.u16 ha
  rw [Nat.mod_eq_of_lt h] at h1
  exact ⟨_, congrArg Except.ok h1, a1⟩

theorem u32 {v : Nat} (h : v < u32_range) : ReadsAs Reader.u32 (u32Bytes v) (.ok v) := by
  intro r rest ha
  obtain ⟨h1, a1⟩ := Ahead.u32 ha
  rw [Nat.mod_eq_of_lt (show v < 4294967296 from h)] at h1
  exact ⟨_, congrArg Except.ok h1, a1⟩

theorem u64 {v : Nat} (h : v < u64_range) : ReadsAs Reader.u64 (u64Bytes v) (.ok v) := by
  intro r rest ha
  obtain ⟨h1, a1⟩ := Ahead.u64 ha
  rw [Nat.mod_eq_of_lt (show v < 18446744073709551616 from h)] at h1
  exact ⟨_, congrArg Except.ok h1, a1⟩

theorem id {tag : IdTag} {id : StrongId tag} (h : id.machine) :
    ReadsAs Reader.id (u64Bytes id.value) (.ok id) := by
  have hread := Reads.field (l := []) (f := fun v => (pure ⟨v⟩ : Reader (StrongId tag))) (u64 h)
    (Reads.pure id)
  rw [List.flatten_cons, List.flatten_nil, List.append_nil] at hread
  exact hread

theorem i64 {v : Int} (h : i64_range v) : ReadsAs Reader.i64 (i64Bytes v) (.ok v) := by
  intro r rest ha
  obtain ⟨h1, a1⟩ := Ahead.i64 ha h
  exact ⟨_, congrArg Except.ok h1, a1⟩

theorem boolean (v : Bool) : ReadsAs Reader.boolean (boolBytes v) (.ok v) := by
  intro r rest ha
  obtain ⟨h1, a1⟩ := Ahead.boolean ha
  exact ⟨_, congrArg Except.ok h1, a1⟩

theorem str {max_length : Nat} (h : max_length ≤ 65535) (t : Text) :
    ReadsAs (Reader.str max_length) (strBytes max_length t) (.ok (clip max_length t)) := by
  intro r rest ha
  obtain ⟨h1, a1⟩ := Ahead.str ha h
  exact ⟨_, congrArg Except.ok h1, a1⟩

/-- A string within its bound is read as it is. -/
theorem str_fit {max_length : Nat} (hw : max_length ≤ 65535) {t : Text}
    (h : t.length ≤ max_length) :
    ReadsAs (Reader.str max_length) (strBytes max_length t) (.ok t) := by
  have hread := str hw t
  rwa [clip_of_le h] at hread

theorem blob {max_length : Nat} (hw : max_length < u32_range) {data : Text}
    (h : data.length ≤ max_length) :
    ReadsAs (Reader.blob max_length) (u32Bytes data.length ++ data) (.ok data) := by
  intro r rest ha
  rw [List.append_assoc] at ha
  obtain ⟨h1, a1⟩ := Ahead.blob ha h (Nat.lt_of_le_of_lt h hw)
  exact ⟨_, congrArg Except.ok h1, a1⟩

theorem lift {α : Type} (x : Result α) : ReadsAs (Reader.lift x) [] x := by
  apply Reads.of_peek
  intro r bs _
  cases x <;> rfl

/-- The digest field of a record. -/
theorem digest (v : UInt64) : ReadsAs Reader.u64 (u64Bytes v.toNat) (.ok v.toNat) :=
  u64 v.toNat_lt

theorem refuse_unless_ok (refused : Bool) (error : Error) :
    ReadsAs (Reader.refuse_unless_ok refused error) [] (refuse_if refused error) := by
  apply Reads.of_peek
  intro r bs ha
  cases refused <;> simp [Reader.refuse_unless_ok, refuse_if, ok_status, ha.ok, Except.map]

theorem refuse (refused : Bool) (error : Error) :
    ReadsAs (Reader.refuse refused error) [] (refuse_if refused error) := by
  apply Reads.of_peek
  intro r bs ha
  cases refused <;> simp [Reader.refuse, refuse_if, ok_status, Except.map]

/-- A check the value passes. -/
theorem accepts {refused : Bool} (h : refused = false) (error : Error) :
    ReadsAs (Reader.refuse refused error) [] (.ok ()) := by
  subst h
  exact refuse false error

/-- `if (!reader.ok()) return error;` on a healthy reader. -/
theorem healthy (error : Error) : ReadsAs (Reader.refuse_unless_ok false error) [] (.ok ()) :=
  refuse_unless_ok false error

theorem layout {expected : Nat} (h : expected < 65536) (what : Text) :
    ReadsAs (Reader.layout expected what) (u16Bytes expected) (.ok ()) := by
  intro r rest ha
  obtain ⟨h1, a1⟩ := Ahead.u16 ha
  refine ⟨r.skip 2, ?_, a1⟩
  simp [Reader.layout, check_layout, h1, a1.ok, Nat.mod_eq_of_lt h, ok_status]

/-- A reader that consumes the whole payload decides what decoding it yields. -/
theorem decode {α : Type} {body : Reader α} {payload : Text} {x : Result α}
    (h : ReadsAs body payload x) (trailing : Error) : body.decode trailing payload = x := by
  have hrun := h { data := payload } [] (by simpa using Ahead.start payload)
  unfold Reader.decode
  cases x with
  | error e => simp only [hrun]
  | ok a =>
    obtain ⟨r, hr, ha⟩ := hrun
    have hend : r.at_end = true := ha.at_end_iff.mpr rfl
    simp [hr, hend]

end ReadsAs

/-! ## Shared pieces -/

/-- `static_cast` of a code to the enumeration whose values are listed in code order. -/
def enumerator {α : Type} (values : List α) (fallback : α) (code : Nat) : α :=
  values.getD code fallback

def TargetKind.ofCode : Nat → TargetKind :=
  enumerator [.Unknown, .Link, .Port, .Switch, .Rack, .Pod, .Site, .ControlPlane] .Unknown

def DomainKind.ofCode : Nat → DomainKind :=
  enumerator [.Unknown, .Site, .Pod, .Rack, .Power, .Plane, .Zone, .Custom] .Unknown

@[simp] theorem TargetKind.ofCode_code (k : TargetKind) : ofCode k.code = k := by cases k <;> rfl

@[simp] theorem DomainKind.ofCode_code (k : DomainKind) : ofCode k.code = k := by cases k <;> rfl

theorem TargetKind.code_lt (k : TargetKind) : k.code < u32_range := by cases k <;> decide

theorem DomainKind.code_lt (k : DomainKind) : k.code < u32_range := by cases k <;> decide

def TargetId.machine (id : TargetId) : Prop := id.index < u32_range

def DomainId.machine (id : DomainId) : Prop := id.index < u32_range

instance (id : TargetId) : Decidable id.machine := inferInstanceAs (Decidable (_ < _))

instance (id : DomainId) : Decidable id.machine := inferInstanceAs (Decidable (_ < _))

def write_target_id (w : ByteWriter) (id : TargetId) : ByteWriter :=
  (w.u32 id.kind.code).u32 id.index

def target_bytes (id : TargetId) : Text := u32Bytes id.kind.code ++ u32Bytes id.index

@[simp] theorem write_target_id_buffer (w : ByteWriter) (id : TargetId) :
    (write_target_id w id).buffer = w.buffer ++ target_bytes id := by
  simp [write_target_id, target_bytes]

def read_target_id : Reader TargetId := do
  let kind ← Reader.u32
  let index ← Reader.u32
  pure ⟨TargetKind.ofCode kind, index⟩

theorem ReadsAs.target_id {id : TargetId} (h : id.machine) :
    ReadsAs read_target_id (target_bytes id) (.ok id) := by
  have hread : ReadsAs read_target_id [u32Bytes id.kind.code, u32Bytes id.index].flatten
      (.ok ⟨TargetKind.ofCode id.kind.code, id.index⟩) := by
    refine Reads.field (ReadsAs.u32 id.kind.code_lt) ?_
    refine Reads.field (ReadsAs.u32 h) ?_
    exact Reads.pure _
  simpa [target_bytes] using hread

def write_domain_id (w : ByteWriter) (id : DomainId) : ByteWriter :=
  (w.u32 id.kind.code).u32 id.index

def domain_bytes (id : DomainId) : Text := u32Bytes id.kind.code ++ u32Bytes id.index

@[simp] theorem write_domain_id_buffer (w : ByteWriter) (id : DomainId) :
    (write_domain_id w id).buffer = w.buffer ++ domain_bytes id := by
  simp [write_domain_id, domain_bytes]

def read_domain_id : Reader DomainId := do
  let kind ← Reader.u32
  let index ← Reader.u32
  pure ⟨DomainKind.ofCode kind, index⟩

theorem ReadsAs.domain_id {id : DomainId} (h : id.machine) :
    ReadsAs read_domain_id (domain_bytes id) (.ok id) := by
  have hread : ReadsAs read_domain_id [u32Bytes id.kind.code, u32Bytes id.index].flatten
      (.ok ⟨DomainKind.ofCode id.kind.code, id.index⟩) := by
    refine Reads.field (ReadsAs.u32 id.kind.code_lt) ?_
    refine Reads.field (ReadsAs.u32 h) ?_
    exact Reads.pure _
  simpa [domain_bytes] using hread

/-! ### Lists -/

/-- A counted list: the number of elements in 32 bits, then the elements. -/
def write_list {α : Type} (write : ByteWriter → α → ByteWriter) (w : ByteWriter) (l : List α) :
    ByteWriter :=
  l.foldl write (w.u32 l.length)

def list_bytes {α : Type} (bytes : α → Text) (l : List α) : Text :=
  u32Bytes l.length ++ l.flatMap bytes

theorem write_list_buffer {α : Type} {write : ByteWriter → α → ByteWriter} {bytes : α → Text}
    (h : ∀ w a, (write w a).buffer = w.buffer ++ bytes a) (w : ByteWriter) (l : List α) :
    (write_list write w l).buffer = w.buffer ++ list_bytes bytes l := by
  simp [write_list, list_bytes, ByteWriter.foldl_buffer h]

/-- Read a counted list of at most `limit` elements. -/
def read_list {α : Type} (limit : Nat) (too_many : Error) (read : Reader α) : Reader (List α) := do
  let count ← Reader.u32
  Reader.refuse_unless_ok (count > limit) too_many
  readMany read count

/-- A counted list within 32 bits reads back element by element. -/
theorem ReadsAs.list {α γ : Type} {bytes : α → Text} {read : Reader γ} {image : α → Result γ}
    {l : List α} (hlen : l.length < u32_range)
    (h : ∀ a ∈ l, ReadsAs read (bytes a) (image a)) (limit : Nat) (too_many : Error) :
    ReadsAs (read_list limit too_many read) (list_bytes bytes l)
      (do refuse_if (l.length > limit) too_many
          l.mapM image) := by
  have hread : ReadsAs (read_list limit too_many read)
      [u32Bytes l.length, l.flatMap bytes].flatten
      (do refuse_if (l.length > limit) too_many
          l.mapM image) := by
    refine Reads.field (ReadsAs.u32 hlen) ?_
    refine Reads.check (ReadsAs.refuse_unless_ok _ _) ?_
    intro _ _
    simpa using Reads.many h
  simpa [list_bytes] using hread

/-- A record of the expected type passes the type check of its decoder. -/
theorem refuse_if_type {record : Record} {type : RecordType} (h : record.type = type) (e : Error) :
    refuse_if (record.type ≠ type) e = .ok () := by
  simp [refuse_if, h, ok_status]

/-- Running a list of computations that all succeed. -/
theorem Result.mapM_ok {α γ : Type} (f : α → γ) (l : List α) :
    l.mapM (fun a => (.ok (f a) : Result γ)) = .ok (l.map f) := by
  induction l with
  | nil => rfl
  | cons a l ih =>
    rw [List.mapM_cons, ih]
    rfl

/-- The same for elements that are all read. -/
theorem ReadsAs.list_ok {α γ : Type} {bytes : α → Text} {read : Reader γ} {g : α → γ}
    {l : List α} (hlen : l.length < u32_range)
    (h : ∀ a ∈ l, ReadsAs read (bytes a) (.ok (g a))) (limit : Nat) (too_many : Error) :
    ReadsAs (read_list limit too_many read) (list_bytes bytes l)
      (do refuse_if (l.length > limit) too_many
          .ok (l.map g)) := by
  have hlist := ReadsAs.list hlen h limit too_many
  rwa [Result.mapM_ok] at hlist

/-- A list within its bound is read as it is. -/
theorem ReadsAs.list_fit {α : Type} {bytes : α → Text} {read : Reader α} {l : List α} {limit : Nat}
    (hlimit : limit < u32_range) (hlen : l.length ≤ limit)
    (h : ∀ a ∈ l, ReadsAs read (bytes a) (.ok a)) (too_many : Error) :
    ReadsAs (read_list limit too_many read) (list_bytes bytes l) (.ok l) := by
  have hread := ReadsAs.list_ok (g := fun a => a) (Nat.lt_of_le_of_lt hlen hlimit) h limit too_many
  have hfit : decide (l.length > limit) = false := by simpa using hlen
  rwa [hfit, List.map_id'] at hread

/-- Checking every element is checking whether any fails. -/
theorem Result.mapM_refuse_if {α : Type} (bad : α → Bool) (e : Error) (l : List α) :
    l.mapM (fun a => do refuse_if (bad a) e; .ok a) =
      (do refuse_if (l.any bad) e
          .ok l) := by
  induction l with
  | nil => rfl
  | cons a l ih =>
    rw [List.mapM_cons, ih, List.any_cons]
    cases bad a
    · cases l.any bad <;> rfl
    · rfl

/-- An identity of a list, which has to be valid. -/
def read_valid {α : Type} (valid : α → Bool) (invalid : Error) (read : Reader α) : Reader α := do
  let id ← read
  Reader.refuse_unless_ok (!valid id) invalid
  pure id

theorem ReadsAs.valid {α : Type} {read : Reader α} {bytes : Text} {a : α}
    (h : ReadsAs read bytes (.ok a)) (valid : α → Bool) (invalid : Error) :
    ReadsAs (read_valid valid invalid read) bytes
      (do refuse_if (!valid a) invalid
          .ok a) := by
  have hread : ReadsAs (read_valid valid invalid read) [bytes].flatten
      (do refuse_if (!valid a) invalid
          .ok a) := by
    refine Reads.field h ?_
    refine Reads.check (ReadsAs.refuse_unless_ok _ _) ?_
    intro _ _
    exact Reads.pure a
  simpa using hread

def write_target_list : ByteWriter → List TargetId → ByteWriter := write_list write_target_id

def read_target_list (limit : Nat) : Reader (List TargetId) :=
  read_list limit (corrupt (text "target list exceeds the accepted bound"))
    (read_valid TargetId.valid (corrupt (text "target list contains an invalid identity"))
      read_target_id)

def read_domain_list (limit : Nat) : Reader (List DomainId) :=
  read_list limit (corrupt (text "domain list exceeds the accepted bound"))
    (read_valid DomainId.valid (corrupt (text "domain list contains an invalid identity"))
      read_domain_id)

@[simp] theorem write_target_list_buffer (w : ByteWriter) (l : List TargetId) :
    (write_target_list w l).buffer = w.buffer ++ list_bytes target_bytes l :=
  write_list_buffer write_target_id_buffer w l

@[simp] theorem write_domain_list_buffer (w : ByteWriter) (l : List DomainId) :
    (write_list write_domain_id w l).buffer = w.buffer ++ list_bytes domain_bytes l :=
  write_list_buffer write_domain_id_buffer w l

@[simp] theorem write_id_list_buffer {tag : IdTag} (w : ByteWriter) (l : List (StrongId tag)) :
    (write_list (fun w id => w.u64 id.value) w l).buffer =
      w.buffer ++ list_bytes (fun id => u64Bytes id.value) l :=
  write_list_buffer (fun w id => ByteWriter.u64_buffer w id.value) w l

/-- A list of machine values, short enough to be counted in 32 bits. -/
def machine_list {α : Type} (machine : α → Prop) (l : List α) : Prop :=
  l.length < u32_range ∧ ∀ a ∈ l, machine a

instance {α : Type} (machine : α → Prop) [DecidablePred machine] (l : List α) :
    Decidable (machine_list machine l) := inferInstanceAs (Decidable (_ ∧ _))

theorem ReadsAs.target_list {l : List TargetId}
    (h : machine_list TargetId.machine l) (limit : Nat) :
    ReadsAs (read_target_list limit) (list_bytes target_bytes l)
      (do check_target_list limit l
          .ok l) := by
  have hread := ReadsAs.list h.1 (fun a ha => (ReadsAs.target_id (h.2 a ha)).valid TargetId.valid
    (corrupt (text "target list contains an invalid identity"))) limit
    (corrupt (text "target list exceeds the accepted bound"))
  rw [Result.mapM_refuse_if] at hread
  have hsame : (do check_target_list limit l; .ok l : Result (List TargetId)) =
      (do refuse_if (l.length > limit) (corrupt (text "target list exceeds the accepted bound"))
          refuse_if (l.any (fun t => !t.valid))
            (corrupt (text "target list contains an invalid identity"))
          .ok l) := by
    simp only [check_target_list, bind_assoc]
  rw [hsame]
  exact hread

theorem ReadsAs.domain_list {l : List DomainId}
    (h : machine_list DomainId.machine l) (limit : Nat) :
    ReadsAs (read_domain_list limit) (list_bytes domain_bytes l)
      (do refuse_if (l.length > limit) (corrupt (text "domain list exceeds the accepted bound"))
          refuse_if (l.any (fun d => !d.valid))
            (corrupt (text "domain list contains an invalid identity"))
          .ok l) := by
  have hread := ReadsAs.list h.1 (fun a ha => (ReadsAs.domain_id (h.2 a ha)).valid DomainId.valid
    (corrupt (text "domain list contains an invalid identity"))) limit
    (corrupt (text "domain list exceeds the accepted bound"))
  rwa [Result.mapM_refuse_if] at hread

theorem ReadsAs.id_list {tag : IdTag} {l : List (StrongId tag)}
    (h : machine_list StrongId.machine l) (limit : Nat) (too_many : Error) :
    ReadsAs (read_list limit too_many Reader.id) (list_bytes (fun id => u64Bytes id.value) l)
      (do refuse_if (l.length > limit) too_many
          .ok l) := by
  have hread := ReadsAs.list_ok (g := fun id => id) h.1
    (fun a ha => ReadsAs.id (h.2 a ha)) limit too_many
  rwa [List.map_id'] at hread

/-! ### Attempts and incarnations -/

def AttemptId.machine (a : AttemptId) : Prop :=
  a.job.machine ∧ a.generation.machine ∧ a.ordinal.machine

def ControllerIncarnation.machine (i : ControllerIncarnation) : Prop :=
  i.controller.machine ∧ i.boot_epoch.machine ∧ i.nonce < u64_range

instance (a : AttemptId) : Decidable a.machine := inferInstanceAs (Decidable (_ ∧ _))

instance (i : ControllerIncarnation) : Decidable i.machine := inferInstanceAs (Decidable (_ ∧ _))

def write_attempt_id (w : ByteWriter) (id : AttemptId) : ByteWriter :=
  ((w.u64 id.job.value).u64 id.generation.value).u64 id.ordinal.value

def attempt_bytes (id : AttemptId) : Text :=
  [u64Bytes id.job.value, u64Bytes id.generation.value, u64Bytes id.ordinal.value].flatten

@[simp] theorem write_attempt_id_buffer (w : ByteWriter) (id : AttemptId) :
    (write_attempt_id w id).buffer = w.buffer ++ attempt_bytes id := by
  simp [write_attempt_id, attempt_bytes]

def read_attempt_id : Reader AttemptId := do
  let job ← Reader.id
  let generation ← Reader.id
  let ordinal ← Reader.id
  pure { job, generation, ordinal }

theorem ReadsAs.attempt_id {id : AttemptId} (h : id.machine) :
    ReadsAs read_attempt_id (attempt_bytes id) (.ok id) := by
  obtain ⟨hjob, hgeneration, hordinal⟩ := h
  refine Reads.field (ReadsAs.id hjob) ?_
  refine Reads.field (ReadsAs.id hgeneration) ?_
  refine Reads.field (ReadsAs.id hordinal) ?_
  exact Reads.pure id

def write_incarnation (w : ByteWriter) (i : ControllerIncarnation) : ByteWriter :=
  ((w.u64 i.controller.value).u64 i.boot_epoch.value).u64 i.nonce

def incarnation_bytes (i : ControllerIncarnation) : Text :=
  [u64Bytes i.controller.value, u64Bytes i.boot_epoch.value, u64Bytes i.nonce].flatten

@[simp] theorem write_incarnation_buffer (w : ByteWriter) (i : ControllerIncarnation) :
    (write_incarnation w i).buffer = w.buffer ++ incarnation_bytes i := by
  simp [write_incarnation, incarnation_bytes]

def read_incarnation : Reader ControllerIncarnation := do
  let controller ← Reader.id
  let boot_epoch ← Reader.id
  let nonce ← Reader.u64
  pure { controller, boot_epoch, nonce }

theorem ReadsAs.incarnation {i : ControllerIncarnation} (h : i.machine) :
    ReadsAs read_incarnation (incarnation_bytes i) (.ok i) := by
  obtain ⟨hcontroller, hepoch, hnonce⟩ := h
  refine Reads.field (ReadsAs.id hcontroller) ?_
  refine Reads.field (ReadsAs.id hepoch) ?_
  refine Reads.field (ReadsAs.u64 hnonce) ?_
  exact Reads.pure i

end MaintenanceFabric
