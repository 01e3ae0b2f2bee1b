import Mathlib.Algebra.GroupWithZero.Nat
import Mathlib.Data.List.Sort
import Mathlib.Data.List.Dedup
import Mathlib.Order.Lattice

/-! # Core vocabulary

    Byte strings, error values, strong identities, limits and time: the
    types every other module builds on.

    Identities and counters are natural numbers, instants are integers.
    Where a value is written to bytes, where a sum is taken in 32 bits, and
    where an instant that a caller chooses is added to another, the width is
    modelled and the value reduced.  Elsewhere the natural reading is an
    assumption: a counter of 64 bits that moves by one at a time is taken not
    to run over, and instants to stay within 64 bits (`Instants` says which
    runs keep them there).  Where an identity can come in from outside, the
    results ask that it is not the last one (`machine`, `spare`).
-/

namespace MaintenanceFabric

/-! ## Text -/

/-- A `std::string`: a sequence of bytes. -/
abbrev Text : Type := List UInt8

/-- The bytes of a literal. -/
def text (s : String) : Text := s.toUTF8.data.toList

/-- `std::to_string` of an unsigned value. -/
def decimal (n : Nat) : Text := (Nat.toDigits 10 n).map (fun c => UInt8.ofNat c.toNat)

/-- `std::to_string` of a signed value. -/
def decimalInt (n : Int) : Text :=
  if n < 0 then text "-" ++ decimal n.natAbs else decimal n.natAbs

/-- `%0<width>u`: decimal digits, left-padded with zeros. -/
def padded (width n : Nat) : Text :=
  List.replicate (width - (decimal n).length) 48 ++ decimal n

/-- Does `haystack` contain `needle` as a contiguous piece (`std::string::find`)? -/
def Text.hasPiece (needle : Text) : Text → Bool
  | [] => needle.isEmpty
  | b :: rest => needle.isPrefixOf (b :: rest) || Text.hasPiece needle rest

/-! ## Errors -/

inductive ErrorCode where
  | Ok | InvalidArgument | NotFound | AlreadyExists | LimitExceeded | Overflow
  | StaleGeneration | StaleIncarnation | StaleRevision | StaleEvidence | StaleAttempt
  | StaleAuthority | PolicyDenied | StateConflict | WindowClosed | DependencyUnmet
  | EvidenceMissing | DrainFailed | DrainLeaseLost | RestorationFailed | Unauthorized
  | Busy | Cancelled | ShuttingDown | Timeout | IoError | CorruptState | VersionMismatch
  | Unsupported | Internal
  deriving DecidableEq, Repr

def ErrorCode.to_string : ErrorCode → Text
  | .Ok => text "ok"
  | .InvalidArgument => text "invalid-argument"
  | .NotFound => text "not-found"
  | .AlreadyExists => text "already-exists"
  | .LimitExceeded => text "limit-exceeded"
  | .Overflow => text "overflow"
  | .StaleGeneration => text "stale-generation"
  | .StaleIncarnation => text "stale-incarnation"
  | .StaleRevision => text "stale-revision"
  | .StaleEvidence => text "stale-evidence"
  | .StaleAttempt => text "stale-attempt"
  | .StaleAuthority => text "stale-authority"
  | .PolicyDenied => text "policy-denied"
  | .StateConflict => text "state-conflict"
  | .WindowClosed => text "window-closed"
  | .DependencyUnmet => text "dependency-unmet"
  | .EvidenceMissing => text "evidence-missing"
  | .DrainFailed => text "drain-failed"
  | .DrainLeaseLost => text "drain-lease-lost"
  | .RestorationFailed => text "restoration-failed"
  | .Unauthorized => text "unauthorized"
  | .Busy => text "busy"
  | .Cancelled => text "cancelled"
  | .ShuttingDown => text "shutting-down"
  | .Timeout => text "timeout"
  | .IoError => text "io-error"
  | .CorruptState => text "corrupt-state"
  | .VersionMismatch => text "version-mismatch"
  | .Unsupported => text "unsupported"
  | .Internal => text "internal"

structure Error where
  code : ErrorCode
  detail : Text
  deriving DecidableEq, Repr

def make_error (code : ErrorCode) (detail : Text) : Error := ⟨code, detail⟩
def invalid_argument (detail : Text) : Error := ⟨.InvalidArgument, detail⟩
def internal_error (detail : Text) : Error := ⟨.Internal, detail⟩

def format_error (error : Error) : Text :=
  error.code.to_string ++ if error.detail.isEmpty then [] else text ": " ++ error.detail

/-- `Result<T>`. -/
abbrev Result (α : Type) : Type := Except Error α

/-- `Status`: success, or the error that refused the call. -/
abbrev Status : Type := Result Unit

def ok_status : Status := .ok ()

/-- `status.ok()`. -/
def Status.isOk {α : Type} : Result α → Bool
  | .ok _ => true
  | .error _ => false

theorem Result.ok_bind {α γ : Type} (a : α) (f : α → Result γ) : ((.ok a : Result α) >>= f) = f a :=
  rfl

/-- A chain of fallible steps succeeds exactly when each step does. -/
theorem Result.bind_eq_ok {α β : Type} {x : Result α} {f : α → Result β} {b : β} :
    (x >>= f) = .ok b ↔ ∃ a, x = .ok a ∧ f a = .ok b := by
  cases x with
  | error e => simp [bind, Except.bind]
  | ok a => simp [bind, Except.bind]

/-- `if (refused) return error;` -/
def refuse_if (refused : Bool) (error : Error) : Status :=
  if refused then .error error else ok_status

@[simp] theorem refuse_if_eq_ok {refused : Bool} {error : Error} {u : Unit} :
    refuse_if refused error = .ok u ↔ refused = false := by
  cases refused <;> simp [refuse_if, ok_status]

/-- Run a check over a vector, stopping at the first refusal. -/
def check_all {α : Type} (check : α → Status) : List α → Status
  | [] => ok_status
  | a :: as => do
      check a
      check_all check as

theorem check_all_ok {α : Type} {check : α → Status} : ∀ {l : List α} {u : Unit},
    check_all check l = .ok u → ∀ a ∈ l, check a = .ok ()
  | [], _, _, _, ha => by cases ha
  | b :: bs, u, h, a, ha => by
      simp only [check_all, Result.bind_eq_ok] at h
      obtain ⟨_, hb, hbs⟩ := h
      rcases List.mem_cons.mp ha with rfl | ha
      · exact hb
      · exact check_all_ok hbs a ha

theorem check_all_iff {α : Type} {check : α → Status} {l : List α} {u : Unit} :
    check_all check l = .ok u ↔ ∀ a ∈ l, check a = .ok () := by
  refine ⟨check_all_ok, ?_⟩
  intro h
  induction l with
  | nil => rfl
  | cons a l ih =>
    rw [List.forall_mem_cons] at h
    rw [check_all, h.1, Result.ok_bind]
    exact ih h.2

theorem check_all_map {α γ : Type} (check : γ → Status) (f : α → γ) (l : List α) :
    check_all check (l.map f) = check_all (fun a => check (f a)) l := by
  induction l with
  | nil => rfl
  | cons a l ih => simp only [List.map_cons, check_all, ih]

/-! ## Strong identities -/

inductive IdTag where
  | job | generation | attempt | evidence | source | authority | controller | boot_epoch
  | revision | sequence | drain_lease | pool | contract | window | requestor | quarantine
  deriving DecidableEq, Repr

/-- The textual prefix of each identity kind. -/
def IdTag.label : IdTag → Text
  | .job => text "job"
  | .generation => text "gen"
  | .attempt => text "att"
  | .evidence => text "ev"
  | .source => text "src"
  | .authority => text "auth"
  | .controller => text "ctl"
  | .boot_epoch => text "boot"
  | .revision => text "rev"
  | .sequence => text "seq"
  | .drain_lease => text "lease"
  | .pool => text "pool"
  | .contract => text "ctr"
  | .window => text "win"
  | .requestor => text "req"
  | .quarantine => text "quar"

/-- `StrongId<Tag>`: identities of different kinds do not mix. Zero is the invalid identity. -/
@[ext] structure StrongId (tag : IdTag) where
  value : Nat := 0
  deriving DecidableEq, Repr

namespace StrongId

variable {tag : IdTag}

instance : Inhabited (StrongId tag) := ⟨⟨0⟩⟩

/-- `valid()`: the identity is not zero. -/
def valid (id : StrongId tag) : Bool := id.value != 0

/-- `next()`, for every identity of 64 bits but the last, which in the code is followed by zero. -/
def next (id : StrongId tag) : StrongId tag := ⟨id.value + 1⟩

theorem value_injective : Function.Injective (value : StrongId tag → Nat) :=
  fun _ _ h => StrongId.ext h

instance : LinearOrder (StrongId tag) := LinearOrder.lift' value value_injective

instance : LawfulBEq (StrongId tag) := inferInstance

theorem lt_iff {a b : StrongId tag} : a < b ↔ a.value < b.value := Iff.rfl

theorem le_iff {a b : StrongId tag} : a ≤ b ↔ a.value ≤ b.value := Iff.rfl

@[simp] theorem next_value (id : StrongId tag) : id.next.value = id.value + 1 := rfl

theorem valid_iff {id : StrongId tag} : id.valid = true ↔ id.value ≠ 0 := by simp [valid]

@[simp] theorem valid_default : (default : StrongId tag).valid = false := rfl

def to_string (id : StrongId tag) : Text := tag.label ++ text ":" ++ decimal id.value

end StrongId

abbrev JobId := StrongId .job
abbrev GenerationId := StrongId .generation
abbrev AttemptOrdinal := StrongId .attempt
abbrev EvidenceId := StrongId .evidence
abbrev SourceId := StrongId .source
abbrev AuthorityId := StrongId .authority
abbrev ControllerId := StrongId .controller
abbrev BootEpoch := StrongId .boot_epoch
abbrev Revision := StrongId .revision
abbrev DrainLeaseId := StrongId .drain_lease
abbrev PoolId := StrongId .pool
abbrev ContractId := StrongId .contract
abbrev WindowId := StrongId .window
abbrev RequestorId := StrongId .requestor
abbrev QuarantineId := StrongId .quarantine

/-- Identity of one execution attempt of one generation of one job: the fencing
    token of every externally reported outcome. -/
@[ext] structure AttemptId where
  job : JobId := ⟨0⟩
  generation : GenerationId := ⟨0⟩
  ordinal : AttemptOrdinal := ⟨0⟩
  deriving DecidableEq, Repr

namespace AttemptId

instance : Inhabited AttemptId := ⟨{}⟩

def valid (a : AttemptId) : Bool := a.job.valid && a.generation.valid && a.ordinal.valid

@[simp] theorem valid_default : (({} : AttemptId)).valid = false := rfl

def to_string (a : AttemptId) : Text :=
  a.job.to_string ++ text "/" ++ a.generation.to_string ++ text "/" ++ a.ordinal.to_string

end AttemptId

/-! ## Limits -/

namespace limits

def kMaxNameLength : Nat := 96
def kMaxTitleLength : Nat := 160
def kMaxReasonLength : Nat := 512
def kMaxDetailLength : Nat := 1024
def kMaxTargetsPerJob : Nat := 4096
def kMaxDependenciesPerJob : Nat := 64
def kMaxAttemptsPerJob : Nat := 64
def kMaxJobHistoryEntries : Nat := 1024
def kMaxJobsTotal : Nat := 65536
def kMaxJobsPerArbitration : Nat := 8192
def kMaxTargetsPerTopology : Nat := 65536
def kMaxDomainsPerTopology : Nat := 16384
def kMaxDomainsPerTarget : Nat := 64
def kMaxPoolsPerTopology : Nat := 4096
def kMaxMembersPerPool : Nat := 8192
def kMaxTopologyChainDepth : Nat := 32
def kMaxRedundancyRules : Nat := 4096
def kMaxDomainLimitRules : Nat := 4096
def kMaxContracts : Nat := 4096
def kMaxWindowRules : Nat := 1024
def kMaxPriorityTiers : Nat := 16
def kMaxWindowTargets : Nat := 4096
def kMaxEvidenceRecords : Nat := 16384
def kMaxEvidenceSourcesPerKey : Nat := 16
def kMaxEvidenceTtlNanos : Int := 86400000000000
def kMinEvidenceTtlNanos : Int := 1000000000
def kDefaultEvidenceTtlNanos : Int := 30000000000
def kMaxClockSkewNanos : Int := 5000000000
def kMaxPreconditionAgeNanos : Int := 60000000000
def kMaxDrainTargetsPerRequest : Nat := 512
def kMinDrainLeaseNanos : Int := 1000000000
def kMaxDrainLeaseNanos : Int := 3600000000000
def kDefaultDrainLeaseNanos : Int := 600000000000
def kMaxLiveReservations : Nat := 4096
def kDefaultAuthorityLeaseNanos : Int := 900000000000
def kMaxAuthorityLeaseNanos : Int := 7200000000000
def kMaxJournalRecordBytes : Nat := 4 * 1024 * 1024
def kMaxJournalRecords : Nat := 4000000
def kMaxJournalBytes : Nat := 512 * 1024 * 1024
def kMaxRecordsPerTransaction : Nat := 512
def kMaxFrameBytes : Nat := 1024 * 1024

end limits

/-! ## Time -/

/-- `Nanos`: an instant or a duration in nanoseconds. -/
abbrev Nanos : Type := Int

def kNanosPerSecond : Nanos := 1000000000
def kNanosPerMinute : Nanos := 60 * kNanosPerSecond

/-- Days since the epoch to (year, month, day), proleptic Gregorian. -/
def civil_from_days (days : Int) : Int × Int × Int :=
  let z := days + 719468
  let era := (if z ≥ 0 then z else z - 146096).tdiv 146097
  let doe := z - era * 146097
  let yoe := (doe - doe / 1460 + doe / 36524 - doe / 146096) / 365
  let doy := doe - (365 * yoe + yoe / 4 - yoe / 100)
  let mp := (5 * doy + 2) / 153
  let d := doy - (153 * mp + 2) / 5 + 1
  let m := if mp < 10 then mp + 3 else mp - 9
  (yoe + era * 400 + (if m ≤ 2 then 1 else 0), m, d)

/-- RFC 3339 UTC rendering with nanosecond precision. -/
def format_time (value : Nanos) : Text :=
  let seconds := value / kNanosPerSecond
  let fraction := value % kNanosPerSecond
  let days := seconds / 86400
  let second_of_day := (seconds % 86400).toNat
  let (year, month, day) := civil_from_days days
  let yearText := if year < 0 then text "-" ++ padded 3 year.natAbs else padded 4 year.natAbs
  yearText ++ text "-" ++ padded 2 month.toNat ++ text "-" ++ padded 2 day.toNat ++ text "T" ++
    padded 2 (second_of_day / 3600) ++ text ":" ++ padded 2 (second_of_day % 3600 / 60) ++
    text ":" ++ padded 2 (second_of_day % 60) ++ text "." ++ padded 9 fraction.toNat ++ text "Z"

/-- Drop trailing `0` characters. The callers strip after the unit has been written, so
    the unit letter protects the digits before it. -/
def stripZeros (t : Text) : Text := (t.reverse.dropWhile (· == 48)).reverse

/-- Compact human duration. -/
def format_duration (value : Nanos) : Text :=
  let magnitude := value.natAbs
  let sign := if value < 0 then text "-" else []
  let seconds := magnitude / 1000000000
  let remainder := magnitude % 1000000000
  if magnitude < 1000 then sign ++ decimal magnitude ++ text "ns"
  else if magnitude < 1000000 then
    sign ++ stripZeros (decimal (magnitude / 1000) ++ text "." ++ padded 3 (magnitude % 1000) ++
      text "us")
  else if magnitude < 1000000000 then
    sign ++ stripZeros (decimal (magnitude / 1000000) ++ text "." ++
      padded 6 (magnitude % 1000000) ++ text "ms")
  else
    sign ++ (if seconds ≥ 3600 then decimal (seconds / 3600) ++ text "h" else []) ++
      (if seconds ≥ 60 then decimal (seconds % 3600 / 60) ++ text "m" else []) ++
      (if remainder = 0 then decimal (seconds % 60) ++ text "s"
       else stripZeros (decimal (seconds % 60) ++ text "." ++ padded 9 remainder ++ text "s"))

/-! ## Ordered vectors -/

/-- `std::sort`. -/
def sort {α : Type} [LinearOrder α] (l : List α) : List α := l.insertionSort (· ≤ ·)

/-- `std::sort` with a comparison of one field. -/
def sort_by {α κ : Type} [LinearOrder κ] (field : α → κ) (l : List α) : List α :=
  l.insertionSort (fun a b => field a ≤ field b)

/-- `std::sort` followed by `std::unique` and `erase`. -/
def sorted_unique {α : Type} [LinearOrder α] (l : List α) : List α := (sort l).dedup

@[simp] theorem mem_sort {α : Type} [LinearOrder α] {a : α} {l : List α} :
    a ∈ sort l ↔ a ∈ l := by
  simp [sort]

@[simp] theorem mem_sort_by {α κ : Type} [LinearOrder κ] {field : α → κ} {a : α} {l : List α} :
    a ∈ sort_by field l ↔ a ∈ l := by
  simp [sort_by]

theorem pairwise_sort_by {α κ : Type} [LinearOrder κ] (field : α → κ) (l : List α) :
    (sort_by field l).Pairwise (fun a b => field a ≤ field b) := by
  have : Std.Total (fun a b : α => field a ≤ field b) := ⟨fun a b => le_total (field a) (field b)⟩
  have : IsTrans α (fun a b : α => field a ≤ field b) := ⟨fun _ _ _ h h' => le_trans h h'⟩
  exact List.pairwise_insertionSort _ l

@[simp] theorem mem_sorted_unique {α : Type} [LinearOrder α] {a : α} {l : List α} :
    a ∈ sorted_unique l ↔ a ∈ l := by
  simp [sorted_unique]

/-- Sorting what repeats nothing makes it ascend. -/
theorem ascending_sort {α : Type} [LinearOrder α] {l : List α} (h : l.Nodup) :
    (sort l).Pairwise (· < ·) := by
  have hnodup : (sort l).Nodup := (List.perm_insertionSort _ l).nodup_iff.mpr h
  have hsorted : (sort l).Pairwise (· ≤ ·) := List.pairwise_insertionSort _ l
  exact (hsorted.and hnodup).imp (fun h => lt_of_le_of_ne h.1 h.2)

theorem nodup_sorted_unique {α : Type} [LinearOrder α] (l : List α) : (sorted_unique l).Nodup :=
  List.nodup_dedup _

theorem pairwise_sorted_unique {α : Type} [LinearOrder α] (l : List α) :
    (sorted_unique l).Pairwise (· < ·) := by
  have hsorted : (sorted_unique l).Pairwise (· ≤ ·) :=
    (List.pairwise_insertionSort _ _).sublist (List.dedup_sublist _)
  exact (hsorted.and (nodup_sorted_unique l)).imp (fun h => lt_of_le_of_ne h.1 h.2)

/-- Sorting and dropping repetitions leaves nothing of the order, nor of the counts. -/
theorem sorted_unique_congr {α : Type} [LinearOrder α] {l l' : List α} (h : ∀ a, a ∈ l ↔ a ∈ l') :
    sorted_unique l = sorted_unique l' := by
  refine (pairwise_sorted_unique l).eq_of_mem_iff (pairwise_sorted_unique l') ?_
  intro a
  exact mem_sorted_unique.trans ((h a).trans mem_sorted_unique.symm)

/-- Push `a` unless the vector already holds it. -/
def push_unique {α : Type} [DecidableEq α] (l : List α) (a : α) : List α :=
  if a ∈ l then l else l ++ [a]

@[simp] theorem mem_push_unique {α : Type} [DecidableEq α] {a b : α} {l : List α} :
    b ∈ push_unique l a ↔ b ∈ l ∨ b = a := by
  unfold push_unique
  split
  · next h =>
    constructor
    · exact .inl
    · rintro (hb | rfl)
      · exact hb
      · exact h
  · simp

/-- Append every element of `bs` that is not there yet. -/
def push_all_unique {α : Type} [DecidableEq α] (l bs : List α) : List α :=
  bs.foldl push_unique l

@[simp] theorem mem_push_all_unique {α : Type} [DecidableEq α] {b : α} {bs l : List α} :
    b ∈ push_all_unique l bs ↔ b ∈ l ∨ b ∈ bs := by
  unfold push_all_unique
  induction bs generalizing l with
  | nil => simp
  | cons a bs ih => simp [ih, or_assoc]

theorem nodup_push_all_unique {α : Type} [DecidableEq α] {l : List α} (h : l.Nodup) (bs : List α) :
    (push_all_unique l bs).Nodup := by
  unfold push_all_unique
  induction bs generalizing l with
  | nil => exact h
  | cons b bs ih =>
    apply ih
    unfold push_unique
    by_cases hb : b ∈ l
    · rw [if_pos hb]
      exact h
    · rw [if_neg hb]
      exact List.nodup_append.mpr ⟨h, List.nodup_singleton b, by
        rintro x hx y hy rfl
        exact hb (List.mem_singleton.mp hy ▸ hx)⟩

/-- A loop that only collects: what is in the result was there or was contributed. -/
theorem mem_collected {α β : Type} {g : List α → β → List α} {P : β → α → Prop}
    (step : ∀ out x a, a ∈ g out x ↔ a ∈ out ∨ P x a) {xs : List β} {out : List α} {a : α} :
    a ∈ xs.foldl g out ↔ a ∈ out ∨ ∃ x ∈ xs, P x a := by
  induction xs generalizing out with
  | nil => simp
  | cons x xs ih => simp [ih, step, or_assoc]

/-- `std::clamp`. -/
def clamp (value lo hi : Int) : Int := if value < lo then lo else if hi < value then hi else value

/-- Has the vector two equal adjacent elements once sorted (`std::adjacent_find`)? -/
def repeats {α : Type} [DecidableEq α] (l : List α) : Bool := !decide l.Nodup

end MaintenanceFabric
