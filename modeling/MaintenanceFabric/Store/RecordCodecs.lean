import MaintenanceFabric.Store.JobCodec

/-! # Entity codecs

    Encoder and decoder of each entity as their callers see them, with the
    output argument the decoder writes.  `RecordCodec.Sound` is what all of
    them have in common: values that fit come back, errors leave the output
    alone, and what is accepted is read to its last byte.
-/

namespace MaintenanceFabric

open Lib

/-! ## Readers that walk -/

/-- A reader that moves over its buffer and nothing else. -/
abbrev Reader.Walks {α : Type} (d : Reader α) : Prop := Keeps ByteReader.data d

namespace Reader.Walks

theorem of_read {α : Type} {read : ByteReader → α × ByteReader}
    (h : ∀ r, (read r).2.data = r.data) : Walks (fun r => .ok (read r)) := by
  intro r a r' heq
  have hread := congrArg Prod.snd (Except.ok.inj heq)
  exact (congrArg ByteReader.data hread).symm.trans (h r)

theorem u32 : Walks Reader.u32 := of_read ByteReader.u32_data

theorem u64 : Walks Reader.u64 := of_read ByteReader.u64_data

theorem i64 : Walks Reader.i64 := of_read (fun r => r.u64_data)

theorem boolean : Walks Reader.boolean := of_read (fun r => r.u8_data)

theorem str (n : Nat) : Walks (Reader.str n) := of_read (fun r => r.str_data n)

theorem id {tag : IdTag} : Walks (Reader.id : Reader (StrongId tag)) :=
  Keeps.bind u64 (fun _ => Keeps.pure _)

theorem refuse (refused : Bool) (error : Error) : Walks (Reader.refuse refused error) := by
  intro r a r' h
  unfold Reader.refuse at h
  split at h
  · cases h
  · cases h
    rfl

theorem refuse_unless_ok (refused : Bool) (error : Error) :
    Walks (Reader.refuse_unless_ok refused error) := by
  intro r a r' h
  unfold Reader.refuse_unless_ok at h
  split at h
  · cases h
  · cases h
    rfl

theorem layout (expected : Nat) (what : Text) : Walks (Reader.layout expected what) := by
  intro r a r' h
  have hdata : (check_layout r expected what).2.data = r.data := by
    have hread := r.u16_data
    unfold check_layout
    simp only
    split
    · exact hread
    · split <;> exact hread
  unfold Reader.layout at h
  split at h
  · cases h
  · next heq =>
    cases h
    rw [heq] at hdata
    exact hdata

theorem list {α : Type} {limit : Nat} {too_many : Error} {read : Reader α} (h : Walks read) :
    Walks (read_list limit too_many read) :=
  Keeps.bind u32 (fun count => Keeps.bind (refuse_unless_ok _ _) (fun _ => Keeps.many h count))

theorem target_id : Walks read_target_id :=
  Keeps.bind u32 (fun _ => Keeps.bind u32 (fun _ => Keeps.pure _))

theorem domain_id : Walks read_domain_id :=
  Keeps.bind u32 (fun _ => Keeps.bind u32 (fun _ => Keeps.pure _))

theorem attempt_id : Walks read_attempt_id :=
  Keeps.bind id (fun _ => Keeps.bind id (fun _ => Keeps.bind id (fun _ => Keeps.pure _)))

theorem incarnation : Walks read_incarnation :=
  Keeps.bind id (fun _ => Keeps.bind id (fun _ => Keeps.bind u64 (fun _ => Keeps.pure _)))

theorem target_list (limit : Nat) : Walks (read_target_list limit) := by
  exact list (Keeps.bind target_id (fun _ =>
    Keeps.bind (refuse_unless_ok _ _) (fun _ => Keeps.pure _)))

theorem attempt : Walks read_attempt := by
  unfold read_attempt
  with_reducible
    repeat' first
      | exact u32 | exact i64 | exact str _ | exact refuse _ _ | exact attempt_id
      | exact Keeps.pure _ | apply Keeps.bind | intro

theorem history_entry : Walks read_history_entry := by
  unfold read_history_entry
  with_reducible
    repeat' first
      | exact u32 | exact i64 | exact str _ | exact refuse _ _ | exact incarnation
      | exact Keeps.pure _ | apply Keeps.bind | intro

theorem job : Walks read_job := by
  unfold read_job
  with_reducible
    repeat' first
      | exact u32 | exact u64 | exact i64 | exact boolean | exact id | exact str _
      | exact refuse _ _ | exact layout _ _ | exact incarnation | exact attempt_id
      | exact target_list _ | exact list id | exact list attempt | exact list history_entry
      | exact Keeps.pure _ | apply Keeps.bind | intro

theorem evidence : Walks read_evidence := by
  unfold read_evidence
  with_reducible
    repeat' first
      | exact u32 | exact u64 | exact i64 | exact boolean | exact id | exact refuse _ _
      | exact layout _ _ | exact incarnation | exact attempt_id | exact target_id
      | exact domain_id | exact Keeps.pure _ | apply Keeps.bind | intro

theorem reservation : Walks read_reservation := by
  unfold read_reservation
  with_reducible
    repeat' first
      | exact u64 | exact i64 | exact id | exact layout _ _ | exact incarnation
      | exact attempt_id | exact target_list _ | exact list domain_id | exact list id
      | exact Keeps.pure _ | apply Keeps.bind | intro

theorem lease : Walks read_lease := by
  unfold read_lease
  with_reducible
    repeat' first
      | exact u32 | exact u64 | exact i64 | exact id | exact refuse _ _ | exact layout _ _
      | exact incarnation | exact attempt_id | exact target_list _
      | exact Keeps.pure _ | apply Keeps.bind | intro

theorem quarantine : Walks read_quarantine := by
  unfold read_quarantine
  with_reducible
    repeat' first
      | exact u32 | exact u64 | exact i64 | exact boolean | exact id | exact str _
      | exact refuse _ _ | exact layout _ _ | exact incarnation | exact target_id
      | exact Keeps.pure _ | apply Keeps.bind | intro

theorem boot : Walks read_boot :=
  Keeps.bind (layout _ _) (fun _ => Keeps.bind incarnation (fun _ =>
    Keeps.bind id (fun _ => Keeps.pure _)))

end Reader.Walks

/-- What a payload that is decoded in whole has been read as. -/
structure Reader.Consumes {α : Type} (body : Reader α) (payload : Text) (a : α) : Prop where
  reads : ∃ r, body { data := payload } = .ok (a, r) ∧ r.ok = true ∧ r.data = payload ∧
    r.offset = payload.length

theorem Reader.decode_ok {α : Type} {body : Reader α} (h : body.Walks) {trailing : Error}
    {payload : Text} {a : α} (hdecode : body.decode trailing payload = .ok a) :
    body.Consumes payload a := by
  unfold Reader.decode at hdecode
  split at hdecode
  · cases hdecode
  · next r hrun =>
    split at hdecode
    · cases hdecode
    · next hend =>
      cases hdecode
      have hdata : r.data = payload := h _ _ _ hrun
      rw [Bool.not_eq_false, ByteReader.at_end, Bool.and_eq_true, beq_iff_eq] at hend
      exact ⟨r, hrun, hend.1, hdata, by rw [hend.2, hdata]⟩

/-! ## Codecs -/

/-- The output argument of a decoder that writes it last: an error leaves it as it was. -/
def assign {α : Type} (decoded : Result α) (out : α) : Status × α :=
  match decoded with
  | .error e => (.error e, out)
  | .ok fresh => (ok_status, fresh)

/-- An encoder and its decoder; `body` is the decoder's walk over the payload, and `holds` says
    which values the record has room for. -/
structure RecordCodec (α : Type) where
  encode : α → Record
  decode : Record → α → Status × α
  body : Reader α
  holds : α → Prop

/-- Values that fit come back; an error keeps what `kept` shows of the output argument; an
    accepted payload is read from its first byte to its last. -/
structure RecordCodec.Sound {α κ : Type} (c : RecordCodec α) (kept : α → κ) : Prop where
  round_trip : ∀ a out, c.holds a → c.decode (c.encode a) out = (ok_status, a)
  failed : ∀ record out e out', c.decode record out = (.error e, out') → kept out' = kept out
  consumed : ∀ record out out', c.decode record out = (ok_status, out') →
    c.body.Consumes record.payload out'

theorem assign_error {α : Type} {decoded : Result α} {out out' : α} {e : Error}
    (h : assign decoded out = (.error e, out')) : out' = out := by
  unfold assign at h
  split at h
  · exact (congrArg Prod.snd h).symm
  · cases h

theorem assign_ok {α : Type} {decoded : Result α} {out out' : α}
    (h : assign decoded out = (ok_status, out')) : decoded = .ok out' := by
  unfold assign at h
  split at h
  · cases h
  · cases h
    rfl

/-- A decoder that checks the type, walks the payload, checks the value and then assigns it. -/
theorem RecordCodec.sound_of_assign {α : Type} {encode : α → Record} {decode : Record → Result α}
    {body : Reader α} {holds : α → Prop} (trailing : Error)
    (hround : ∀ a, holds a → decode (encode a) = .ok a)
    (hwalk : ∀ record a, decode record = .ok a → body.decode trailing record.payload = .ok a)
    (hbody : body.Walks) :
    RecordCodec.Sound ⟨encode, fun record out => assign (decode record) out, body, holds⟩
      (fun a => a) := by
  constructor
  case round_trip =>
    intro a out ha
    show assign (decode (encode a)) out = _
    rw [hround a ha]
    rfl
  case failed =>
    intro record out e out' h
    exact assign_error h
  case consumed =>
    intro record out out' h
    exact Reader.decode_ok hbody (hwalk record out' (assign_ok h))

/-! ### Jobs -/

/-- A target list as a record takes it. -/
def bounded_targets (limit : Nat) (targets : List TargetId) : Prop :=
  targets.length ≤ limit ∧ ∀ t ∈ targets, t.valid = true

/-- The limits the job codec names. -/
structure MaintenanceJob.Storable (job : MaintenanceJob) : Prop where
  id : job.id.valid = true
  generation : job.generation.valid = true
  title : job.title.length ≤ limits.kMaxTitleLength
  reason : job.reason.length ≤ limits.kMaxReasonLength
  targets : bounded_targets limits.kMaxTargetsPerJob job.targets
  removal_set : bounded_targets limits.kMaxTargetsPerTopology job.removal_set
  depends_on : job.depends_on.length ≤ limits.kMaxDependenciesPerJob
  window_filter : job.window_filter.length ≤ limits.kMaxWindowRules
  block_detail : job.block_detail.length ≤ limits.kMaxDetailLength
  last_detail : job.last_detail.length ≤ limits.kMaxDetailLength
  attempts : job.attempts.length ≤ limits.kMaxAttemptsPerJob ∧
    ∀ a ∈ job.attempts, a.detail.length ≤ limits.kMaxDetailLength
  history : job.history.length ≤ limits.kMaxJobHistoryEntries ∧
    ∀ e ∈ job.history, e.detail.length ≤ limits.kMaxDetailLength
  approved_by : job.approved_by.length ≤ limits.kMaxNameLength

theorem recorded_job_eq {job : MaintenanceJob} (h : job.Storable) : recorded_job job = .ok job := by
  have hattempts : job.attempts.map recorded_attempt = job.attempts := by
    refine (List.map_congr_left ?_).trans (List.map_id _)
    intro a ha
    simp only [recorded_attempt, clip_of_le (h.attempts.2 a ha), id]
  have hhistory : job.history.map recorded_entry = job.history := by
    refine (List.map_congr_left ?_).trans (List.map_id _)
    intro e he
    simp only [recorded_entry, clip_of_le (h.history.2 e he), id]
  have hclipped : clipped_job job = job := by
    simp only [clipped_job, hattempts, hhistory, clip_of_le h.title, clip_of_le h.reason,
      clip_of_le h.block_detail, clip_of_le h.last_detail, clip_of_le h.approved_by]
  have hcheck : check_job_record job = .ok () := by
    simp only [check_job_record, Result.bind_eq_ok, refuse_if_eq_ok, decide_eq_false_iff_not,
      Nat.not_lt, check_target_list_iff]
    exact ⟨(), h.targets, (), h.removal_set, (), h.depends_on, (), h.window_filter, (),
      h.attempts.1, (), h.history.1, by simp [h.id, h.generation]⟩
  unfold recorded_job
  rw [hcheck, hclipped]
  rfl

def job_codec : RecordCodec MaintenanceJob :=
  { encode := encode_job_record
    decode := fun record out => assign (decode_job_record record) out
    body := read_job
    holds := fun job => job.machine ∧ job.Storable }

theorem job_codec_sound : job_codec.Sound (fun job => job) := by
  apply RecordCodec.sound_of_assign
    (corrupt (text "job record is malformed or has trailing bytes"))
  · intro job ⟨hmachine, hfits⟩
    rw [decode_encode_job hmachine, recorded_job_eq hfits]
  · intro record job h
    simp only [decode_job_record, Result.bind_eq_ok] at h
    obtain ⟨_, _, _, hread, _, _, heq⟩ := h
    cases heq
    exact hread
  · exact Reader.Walks.job

/-! ### Evidence, reservations, leases, quarantines -/

def evidence_codec : RecordCodec (EvidenceRecord × UInt64) :=
  { encode := fun a => encode_evidence_record a.1 a.2
    decode := fun record out => assign (decode_evidence_record record) out
    body := read_evidence
    holds := fun a => a.1.machine ∧ a.1.valid = true }

theorem evidence_codec_sound : evidence_codec.Sound (fun a => a) := by
  apply RecordCodec.sound_of_assign (corrupt (text "evidence record is malformed"))
  · intro a ⟨hmachine, hvalid⟩
    rw [decode_encode_evidence hmachine, hvalid]
    rfl
  · intro record a h
    simp only [decode_evidence_record, Result.bind_eq_ok] at h
    obtain ⟨_, _, _, hread, _, _, heq⟩ := h
    cases heq
    exact hread
  · exact Reader.Walks.evidence

structure AuthorityReservation.Storable (r : AuthorityReservation) : Prop where
  id : r.id.valid = true
  job : r.job.valid = true
  attempt : r.attempt.valid = true
  owner : r.owner.valid = true
  targets : bounded_targets limits.kMaxTargetsPerTopology r.targets
  domains : r.domains.length ≤ limits.kMaxDomainsPerTopology
  pools : r.pools.length ≤ limits.kMaxPoolsPerTopology

def reservation_codec : RecordCodec (AuthorityReservation × UInt64) :=
  { encode := fun a => encode_reservation_record a.1 a.2
    decode := fun record out => assign (decode_reservation_record record) out
    body := read_reservation
    holds := fun a => a.1.machine ∧ a.1.Storable }

theorem reservation_codec_sound : reservation_codec.Sound (fun a => a) := by
  apply RecordCodec.sound_of_assign (corrupt (text "reservation record is malformed"))
  · intro a ⟨hmachine, h⟩
    have hcheck : check_reservation_record a.1 = .ok () := by
      simp only [check_reservation_record, check_reservation_lists, Result.bind_eq_ok,
        refuse_if_eq_ok, decide_eq_false_iff_not, Nat.not_lt, check_target_list_iff]
      exact ⟨(), ⟨(), h.targets, (), h.domains, h.pools⟩, by simp [h.id, h.job, h.attempt, h.owner]⟩
    rw [decode_encode_reservation hmachine, hcheck]
    rfl
  · intro record a h
    simp only [decode_reservation_record, Result.bind_eq_ok] at h
    obtain ⟨_, _, _, hread, _, _, heq⟩ := h
    cases heq
    exact hread
  · exact Reader.Walks.reservation

def lease_codec : RecordCodec DrainLease :=
  { encode := encode_lease_record
    decode := fun record out => assign (decode_lease_record record) out
    body := read_lease
    holds := fun l => l.machine ∧ l.id.valid = true ∧
      bounded_targets limits.kMaxDrainTargetsPerRequest l.targets }

theorem lease_codec_sound : lease_codec.Sound (fun l => l) := by
  apply RecordCodec.sound_of_assign (corrupt (text "lease record is malformed"))
  · intro l ⟨hmachine, hid, htargets⟩
    have hcheck : check_lease_record l = .ok () := by
      simp only [check_lease_record, Result.bind_eq_ok, refuse_if_eq_ok, check_target_list_iff]
      exact ⟨(), htargets, by simp [hid]⟩
    rw [decode_encode_lease hmachine, hcheck]
    rfl
  · intro record l h
    simp only [decode_lease_record, Result.bind_eq_ok] at h
    obtain ⟨_, _, _, hread, _, _, heq⟩ := h
    cases heq
    exact hread
  · exact Reader.Walks.lease

def quarantine_codec : RecordCodec (QuarantineRecord × UInt64) :=
  { encode := fun a => encode_quarantine_record a.1 a.2
    decode := fun record out => assign (decode_quarantine_record record) out
    body := read_quarantine
    holds := fun a => a.1.machine ∧ a.1.id.valid = true ∧ a.1.target.valid = true ∧
      a.1.detail.length ≤ limits.kMaxDetailLength ∧
      a.1.cleared_by.length ≤ limits.kMaxNameLength }

theorem quarantine_codec_sound : quarantine_codec.Sound (fun a => a) := by
  apply RecordCodec.sound_of_assign (corrupt (text "quarantine record is malformed"))
  · intro a ⟨hmachine, hid, htarget, hdetail, hcleared⟩
    rw [decode_encode_quarantine hmachine, check_quarantine_record, hid, htarget,
      clipped_quarantine, clip_of_le hdetail, clip_of_le hcleared]
    rfl
  · intro record a h
    simp only [decode_quarantine_record, Result.bind_eq_ok] at h
    obtain ⟨_, _, _, hread, _, _, heq⟩ := h
    cases heq
    exact hread
  · exact Reader.Walks.quarantine

/-! ### Boots and erasures

    These decoders write part of their output before the last check: the prior
    epoch of a boot record, and the identity of an erasure record.
-/

/-- `decode_boot_record` with its two output arguments. The prior epoch is written once the walk
    is over, the incarnation once it is checked. -/
def assign_boot (record : Record) (incarnation : ControllerIncarnation) (prior_epoch : BootEpoch) :
    Status × ControllerIncarnation × BootEpoch :=
  if record.type ≠ .Boot then
    (.error (invalid_argument (text "record is not a boot record")), incarnation, prior_epoch)
  else
    match read_boot { data := record.payload } with
    | .error e => (.error e, incarnation, prior_epoch)
    | .ok ((fresh, prior), reader) =>
        if reader.at_end = false then
          (.error (corrupt (text "boot record is malformed")), incarnation, prior)
        else if fresh.valid = false then
          (.error (corrupt (text "boot record is not well formed")), incarnation, prior)
        else (ok_status, fresh, prior)

theorem assign_boot_eq (record : Record) (incarnation : ControllerIncarnation)
    (prior_epoch : BootEpoch) : ∃ early, assign_boot record incarnation prior_epoch =
      match decode_boot_record record with
      | .error e => (.error e, incarnation, early)
      | .ok (fresh, prior) => (ok_status, fresh, prior) := by
  unfold assign_boot decode_boot_record Reader.decode
  by_cases htype : record.type = .Boot
  · simp only [htype, ne_eq, not_true, if_false, decide_false, refuse_if, Bool.false_eq_true,
      ok_status, Result.ok_bind]
    rcases read_boot { data := record.payload } with e | ⟨⟨fresh, prior⟩, reader⟩
    · exact ⟨prior_epoch, rfl⟩
    · refine ⟨prior, ?_⟩
      simp only
      by_cases hend : reader.at_end = false
      · simp only [if_pos hend]
        rfl
      · simp only [if_neg hend, Result.ok_bind]
        cases fresh.valid <;> rfl
  · refine ⟨prior_epoch, ?_⟩
    simp only [htype, ne_eq, not_false_eq_true, if_true, decide_true, refuse_if]
    rfl

def boot_codec : RecordCodec (ControllerIncarnation × BootEpoch) :=
  { encode := fun a => encode_boot_record a.1 a.2
    decode := fun record out => assign_boot record out.1 out.2
    body := read_boot
    holds := fun a => a.1.machine ∧ a.2.machine ∧ a.1.valid = true }

theorem boot_codec_sound : boot_codec.Sound Prod.fst := by
  constructor
  case round_trip =>
    intro ⟨i, prior⟩ out ⟨hmachine, hprior, hvalid⟩
    have hdecode : decode_boot_record (encode_boot_record i prior) = .ok (i, prior) := by
      rw [decode_encode_boot hmachine hprior, hvalid]
      rfl
    simp only [boot_codec]
    generalize encode_boot_record i prior = record at hdecode ⊢
    obtain ⟨early, heq⟩ := assign_boot_eq record out.1 out.2
    rw [heq, hdecode]
  case failed =>
    intro record out e out' h
    obtain ⟨early, heq⟩ := assign_boot_eq record out.1 out.2
    rw [show assign_boot record out.1 out.2 = (.error e, out') from h] at heq
    split at heq
    · cases heq
      rfl
    · cases heq
  case consumed =>
    intro record out out' h
    obtain ⟨early, heq⟩ := assign_boot_eq record out.1 out.2
    rw [show assign_boot record out.1 out.2 = (ok_status, out') from h] at heq
    split at heq
    · cases heq
    · next fresh prior hdecode =>
      cases heq
      simp only [decode_boot_record, Result.bind_eq_ok] at hdecode
      obtain ⟨_, _, _, hread, _, _, hpair⟩ := hdecode
      cases hpair
      exact Reader.decode_ok Reader.Walks.boot hread

/-- A decoder of an erasure record with its output argument, which is written before the checks. -/
def assign_erased {tag : IdTag} (type : RecordType) (wrong_type malformed : Text)
    (record : Record) (out : StrongId tag) : Status × StrongId tag :=
  if record.type ≠ type then (.error (invalid_argument wrong_type), out)
  else
    match (Reader.id : Reader (StrongId tag)) { data := record.payload } with
    | .error e => (.error e, out)
    | .ok (id, reader) =>
        if reader.at_end = false ∨ id.valid = false then (.error (corrupt malformed), id)
        else (ok_status, id)

theorem assign_erased_ok {tag : IdTag} {type : RecordType} {wrong_type malformed : Text}
    {record : Record} {out id : StrongId tag} :
    assign_erased type wrong_type malformed record out = (ok_status, id) ↔
      decode_erased type wrong_type malformed record = .ok id := by
  unfold assign_erased decode_erased Reader.decode
  by_cases htype : record.type = type
  · rw [refuse_if_type htype, Result.ok_bind, if_neg (not_not.mpr htype)]
    rcases (Reader.id : Reader (StrongId tag)) { data := record.payload } with e | ⟨found, reader⟩
    · constructor <;> intro h <;> cases h
    · by_cases hend : reader.at_end = false
      · simp only [hend, true_or, if_true]
        constructor <;> intro h <;> cases h
      · by_cases hvalid : found.valid = false
        · simp only [hvalid, or_true, if_true, if_neg hend, Result.ok_bind]
          constructor <;> intro h <;> cases h
        · rw [Bool.not_eq_false] at hend hvalid
          simp [hend, hvalid, refuse_if, ok_status, Result.ok_bind]
  · rw [if_pos htype]
    have hrefused : refuse_if (decide (record.type ≠ type)) (invalid_argument wrong_type) =
        .error (invalid_argument wrong_type) := by
      simp [refuse_if, htype]
    rw [hrefused]
    constructor <;> intro h <;> cases h

def erased_codec {tag : IdTag} (type : RecordType) (wrong_type malformed : Text) :
    RecordCodec (StrongId tag) :=
  { encode := encode_erased type
    decode := assign_erased type wrong_type malformed
    body := Reader.id
    holds := fun id => id.machine ∧ id.valid = true }

theorem erased_codec_sound {tag : IdTag} (type : RecordType) (wrong_type malformed : Text) :
    (erased_codec type wrong_type malformed : RecordCodec (StrongId tag)).Sound (fun _ => ()) := by
  constructor
  case round_trip =>
    intro id out ⟨hmachine, hvalid⟩
    refine assign_erased_ok.mpr ?_
    rw [show (erased_codec type wrong_type malformed).encode id = encode_erased type id from rfl,
      decode_encode_erased hmachine, hvalid]
    rfl
  case failed =>
    intros
    rfl
  case consumed =>
    intro record out out' h
    have hdecode := assign_erased_ok.mp h
    simp only [decode_erased, Result.bind_eq_ok] at hdecode
    obtain ⟨_, _, _, hread, _, _, heq⟩ := hdecode
    cases heq
    exact Reader.decode_ok Reader.Walks.id hread

def job_erased_codec : RecordCodec JobId :=
  erased_codec .JobErased (text "record is not a job-erased record")
    (text "job-erased record is malformed")

def reservation_erased_codec : RecordCodec AuthorityId :=
  erased_codec .ReservationErased (text "record is not a reservation-erased record")
    (text "reservation-erased record is malformed")

def lease_erased_codec : RecordCodec DrainLeaseId :=
  erased_codec .LeaseErased (text "record is not a lease-erased record")
    (text "lease-erased record is malformed")

/-- Every entity record is read back as it was written; a payload that a decoder refuses leaves
    its output as it was, boot's prior epoch and the identity of an erasure apart; and one it
    accepts is consumed exactly. -/
theorem record_codecs_sound :
    job_codec.Sound (fun job => job) ∧ evidence_codec.Sound (fun a => a) ∧
    reservation_codec.Sound (fun a => a) ∧ lease_codec.Sound (fun l => l) ∧
    quarantine_codec.Sound (fun a => a) ∧ boot_codec.Sound Prod.fst ∧
    job_erased_codec.Sound (fun _ => ()) ∧ reservation_erased_codec.Sound (fun _ => ()) ∧
    lease_erased_codec.Sound (fun _ => ()) :=
  ⟨job_codec_sound, evidence_codec_sound, reservation_codec_sound, lease_codec_sound,
    quarantine_codec_sound, boot_codec_sound, erased_codec_sound _ _ _, erased_codec_sound _ _ _,
    erased_codec_sound _ _ _⟩

namespace Drill

/-- A cleared quarantine, with both of its texts. -/
def cleared_quarantine : QuarantineRecord :=
  { id := ⟨3⟩, target := ⟨.Switch, 7⟩, job := ⟨2⟩, generation := ⟨1⟩, reason := .OperatorHold
    detail := text "optics", created_at := -5, cleared := true, cleared_at := 9
    cleared_by := text "noc" }

end Drill

theorem cleared_quarantine_read_back :
    quarantine_codec.decode (quarantine_codec.encode (Drill.cleared_quarantine, 11))
        ({ id := ⟨0⟩, target := {}, job := ⟨0⟩, generation := ⟨0⟩ }, 0) =
      (ok_status, (Drill.cleared_quarantine, 11)) := by
  refine record_codecs_sound.2.2.2.2.1.round_trip _ _ ⟨?_, by decide, by decide, by decide,
    by decide⟩
  constructor
  all_goals decide

end MaintenanceFabric
