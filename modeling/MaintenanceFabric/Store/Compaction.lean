import MaintenanceFabric.Store.Journal

/-! # Compaction and the commits that follow it

    `rewrite` numbers the compacted frames from 1 and then restores the
    sequence counter the journal had before.  Replay accepts a frame only
    under the sequence it expects, so the commits appended after a compaction
    survive a reopen exactly when that counter happens to continue the new
    numbering.

    `Intact first data next delivered` describes a stretch of the file made of
    well-formed frames numbered from `first` up to (not including) `next`.
    Both the append path and the compaction loop produce such stretches, and
    replay walks one of them in a single step.
-/

namespace MaintenanceFabric

namespace Journal

/-! ## Reading back one frame -/

@[simp] theorem frame_head_length (record : Record) (sequence : UInt64) :
    (frame_head record sequence).length = 20 := rfl

theorem frame_bytes_length (record : Record) (sequence : UInt64) :
    (frame_bytes record sequence).length = kFrameHeaderBytes + record.payload.length := by
  simp [frame_bytes, kFrameHeaderBytes]
  omega

theorem frame_bytes_ne_nil (record : Record) (sequence : UInt64) :
    frame_bytes record sequence ≠ [] := by
  simp [frame_bytes, frame_head, u16Bytes]

/-- The 24 header bytes of a frame. -/
def frame_header (record : Record) (sequence : UInt64) : Text :=
  frame_head record sequence ++ u32Bytes (crc32c (frame_head record sequence)).toNat

theorem frame_bytes_eq (record : Record) (sequence : UInt64) :
    frame_bytes record sequence = frame_header record sequence ++ record.payload := by
  simp [frame_bytes, frame_header]

theorem take_frame_bytes (record : Record) (sequence : UInt64) (rest : Text) :
    (frame_bytes record sequence ++ rest).take kFrameHeaderBytes =
      frame_header record sequence := by
  rw [frame_bytes_eq, List.append_assoc]
  exact List.take_left' rfl

theorem drop_frame_bytes (record : Record) (sequence : UInt64) (rest : Text) :
    (frame_bytes record sequence ++ rest).drop kFrameHeaderBytes = record.payload ++ rest := by
  rw [frame_bytes_eq, List.append_assoc]
  exact List.drop_left' rfl

/-- A frame with a known type and an admissible size reads back as its record, provided its
    sequence is the expected one; under any other expectation it stops the replay. -/
theorem read_frame_frame_bytes {record : Record} (hw : record.writable = true)
    (sequence expected : UInt64) (rest : Text) :
    read_frame expected (frame_bytes record sequence ++ rest) =
      if sequence = expected then (deliver record).map (fun ds => (ds, record.payload.length))
      else .error (text "frame sequence is out of order") := by
  obtain ⟨hknown, hsize⟩ := Record.writable_iff.mp hw
  have hwidth : limits.kMaxJournalRecordBytes < 4294967296 := by decide
  have hcode := record.type.code_lt
  -- Each field of the header, read at its offset, is what `frame_bytes` wrote there.
  have hhead : (frame_header record sequence).take 20 = frame_head record sequence :=
    List.take_left' rfl
  have hcrc : read_u32_le ((frame_header record sequence).drop 20) =
      (crc32c (frame_head record sequence)).toNat := by
    have hdrop : (frame_header record sequence).drop 20 =
        u32Bytes (crc32c (frame_head record sequence)).toNat ++ [] := by
      rw [List.append_nil]; exact List.drop_left' rfl
    rw [hdrop, read_u32_le_u32Bytes, Nat.mod_eq_of_lt (UInt32.toNat_lt _)]
  have htype : read_u16 (frame_header record sequence) = record.type.code := by
    simp only [frame_header, frame_head, List.append_assoc]
    rw [read_u16_u16Bytes, Nat.mod_eq_of_lt hcode]
  have hseq : read_u64_be ((frame_header record sequence).drop 4) = sequence.toNat := by
    have hdrop : (frame_header record sequence).drop 4 = u64Bytes sequence.toNat ++
        (u32Bytes record.payload.length ++ (u32Bytes (crc32c record.payload).toNat ++
          u32Bytes (crc32c (frame_head record sequence)).toNat)) := rfl
    rw [hdrop, read_u64_be_u64Bytes, Nat.mod_eq_of_lt (UInt64.toNat_lt _)]
  have hlen : read_u32_le ((frame_header record sequence).drop 12) = record.payload.length := by
    have hdrop : (frame_header record sequence).drop 12 =
        u32Bytes record.payload.length ++ (u32Bytes (crc32c record.payload).toNat ++
          u32Bytes (crc32c (frame_head record sequence)).toNat) := rfl
    rw [hdrop, read_u32_le_u32Bytes, Nat.mod_eq_of_lt (by omega)]
  have hpay : read_u32_le ((frame_header record sequence).drop 16) =
      (crc32c record.payload).toNat := by
    have hdrop : (frame_header record sequence).drop 16 =
        u32Bytes (crc32c record.payload).toNat ++
          u32Bytes (crc32c (frame_head record sequence)).toNat := rfl
    rw [hdrop, read_u32_le_u32Bytes, Nat.mod_eq_of_lt (UInt32.toNat_lt _)]
  have hfull : ¬ (frame_header record sequence).length < kFrameHeaderBytes := by
    simp [frame_header, kFrameHeaderBytes]
  simp only [read_frame, take_frame_bytes, drop_frame_bytes, hhead, hcrc, htype, hseq, hlen, hpay,
    hfull, hknown, RecordType.ofCode_code, List.take_left]
  -- Every check passes but the last: the sequence has to be the expected one.
  by_cases hs : sequence = expected
  · subst hs
    have hfit : ¬ record.payload.length > limits.kMaxJournalRecordBytes := by omega
    simp only [hfit, ne_eq, not_true, if_false, if_true, lt_irrefl]
    cases deliver record <;> rfl
  · have hs' : sequence.toNat ≠ expected.toNat := fun e => hs (UInt64.toNat_inj.mp e)
    have hfit : ¬ record.payload.length > limits.kMaxJournalRecordBytes := by omega
    simp [hs, hs', hfit]

/-! ## Stretches of intact frames -/

/-- `data` is a run of frames numbered `first, first + 1, ...`; the number after the last one
    is `next`, and reading them delivers `delivered`. -/
inductive Intact (first : UInt64) : Text → UInt64 → List Record → Prop
  | nil : Intact first [] first []
  | snoc {data : Text} {next : UInt64} {delivered ds : List Record} {record : Record} :
      Intact first data next delivered → record.writable = true → deliver record = .ok ds →
      Intact first (data ++ frame_bytes record next) (next + 1) (delivered ++ ds)

/-- Replay walks a stretch that starts at the expected number, and continues after it. -/
theorem Intact.replay_frames {first next : UInt64} {data : Text} {delivered : List Record}
    (h : Intact first data next delivered) (rest : Text) :
    (Journal.replay_frames (data ++ rest) first).visited =
        delivered ++ (Journal.replay_frames rest next).visited ∧
      (Journal.replay_frames (data ++ rest) first).bytes =
        data.length + (Journal.replay_frames rest next).bytes := by
  induction h generalizing rest with
  | nil => simp
  | @snoc data next delivered ds record _ hw hd ih =>
    have hstep : Journal.replay_frames (frame_bytes record next ++ rest) next =
        { visited := ds ++ (Journal.replay_frames rest (next + 1)).visited
          frames := (Journal.replay_frames rest (next + 1)).frames + 1
          bytes := kFrameHeaderBytes + record.payload.length +
            (Journal.replay_frames rest (next + 1)).bytes
          detail := (Journal.replay_frames rest (next + 1)).detail } := by
      have hne : frame_bytes record next ++ rest ≠ [] := by simp [frame_bytes_ne_nil]
      have hdrop : (frame_bytes record next ++ rest).drop
          (kFrameHeaderBytes + record.payload.length) = rest :=
        List.drop_left' (frame_bytes_length record next)
      rw [Journal.replay_frames, if_neg hne, read_frame_frame_bytes hw, if_pos rfl, hd]
      simp only [Except.map, hdrop]
    obtain ⟨hv, hb⟩ := ih (frame_bytes record next ++ rest)
    rw [List.append_assoc, hv, hb, hstep]
    refine ⟨by simp, ?_⟩
    simp only [List.length_append, frame_bytes_length]
    omega

theorem Intact.next_of_nil {first next : UInt64} {data : Text} {delivered : List Record}
    (h : Intact first data next delivered) (hnil : data = []) : next = first := by
  cases h with
  | nil => rfl
  | snoc => exact absurd (List.append_eq_nil_iff.mp hnil).2 (frame_bytes_ne_nil _ _)

/-- A non-empty stretch opens with a frame numbered `first`. -/
theorem Intact.front {first next : UInt64} {data : Text} {delivered : List Record}
    (h : Intact first data next delivered) (hne : data ≠ []) :
    ∃ record rest, record.writable = true ∧ data = frame_bytes record first ++ rest := by
  induction h with
  | nil => exact absurd rfl hne
  | @snoc data next delivered ds record hi hw _ ih =>
    by_cases hd : data = []
    · rw [hi.next_of_nil hd]
      exact ⟨record, [], hw, by simp [hd]⟩
    · obtain ⟨r, rest, hr, rfl⟩ := ih hd
      exact ⟨r, rest ++ frame_bytes record next, hr, by simp⟩

/-- Replay makes no progress on a frame whose number is not the expected one. -/
theorem replay_frames_of_ne {record : Record} (hw : record.writable = true)
    {sequence expected : UInt64} (hne : sequence ≠ expected) (rest : Text) :
    (Journal.replay_frames (frame_bytes record sequence ++ rest) expected).bytes = 0 := by
  have hnil : frame_bytes record sequence ++ rest ≠ [] := by simp [frame_bytes_ne_nil]
  rw [Journal.replay_frames, if_neg hnil, read_frame_frame_bytes hw, if_neg hne]

@[simp] theorem replay_frames_nil (expected : UInt64) : replay_frames [] expected = {} := by
  rw [replay_frames, if_pos rfl]

/-! ## What the append path writes -/

/-- A call that commits records. -/
inductive AppendCall where
  | append (record : Record)
  | append_transaction (records : List Record)

/-- The records a call commits, in order. -/
def AppendCall.committed : AppendCall → List Record
  | .append record => [record]
  | .append_transaction records => records

def AppendCall.run (j : Journal) : AppendCall → Result Journal
  | .append record => j.append record
  | .append_transaction records => j.append_transaction records

/-- A sequence of successful append calls. -/
def appends (j : Journal) (calls : List AppendCall) : Result Journal :=
  calls.foldlM AppendCall.run j

theorem write_frame_ok {j j' : Journal} {record : Record} {sequence : UInt64}
    (h : j.write_frame record sequence = .ok j') :
    j'.file = j.file ++ frame_bytes record sequence ∧ j'.next_seq = j.next_seq ∧
      j'.options = j.options ∧ record.payload.length ≤ limits.kMaxJournalRecordBytes := by
  simp only [write_frame, Result.bind_eq_ok, refuse_if_eq_ok, decide_eq_false_iff_not] at h
  obtain ⟨_, hsize, _, _, _, _, h⟩ := h
  cases h
  exact ⟨rfl, rfl, rfl, by omega⟩

theorem check_transaction_ok {records : List Record} (h : check_transaction records = .ok ()) :
    ∀ r ∈ records, r.writable = true ∧ r.type ≠ .Transaction := by
  induction records with
  | nil => simp
  | cons r rs ih =>
    simp only [check_transaction, Result.bind_eq_ok, refuse_if_eq_ok,
      decide_eq_false_iff_not] at h
    obtain ⟨_, hv, _, ht, hrs⟩ := h
    intro x hx
    rcases List.mem_cons.mp hx with rfl | hx
    · exact ⟨writable_of_validate_record hv, ht⟩
    · exact ih hrs x hx

theorem deliver_transaction {records : List Record}
    (h : ∀ r ∈ records, r.writable = true ∧ r.type ≠ .Transaction) (hne : records ≠ [])
    (hlen : records.length ≤ limits.kMaxRecordsPerTransaction) :
    deliver (encode_transaction_record records) = .ok records := by
  have htype : (encode_transaction_record records).type = .Transaction := rfl
  simp [deliver, htype, decode_encode_transaction h hne hlen]

/-- Every successful append call adds one frame, numbered with the journal's counter, that
    delivers exactly the records of the call. -/
theorem AppendCall.run_ok {j j' : Journal} {c : AppendCall} (h : c.run j = .ok j') :
    ∃ record, record.writable = true ∧ deliver record = .ok c.committed ∧
      j'.file = j.file ++ frame_bytes record j.next_seq ∧ j'.next_seq = j.next_seq + 1 ∧
      j'.options = j.options := by
  cases c with
  | append record =>
    simp only [AppendCall.run, Journal.append, Result.bind_eq_ok, refuse_if_eq_ok,
      decide_eq_false_iff_not] at h
    obtain ⟨_, hv, _, ht, _, _, j'', hw, h⟩ := h
    cases h
    obtain ⟨hf, hn, ho, _⟩ := write_frame_ok hw
    refine ⟨record, writable_of_validate_record hv, ?_, hf, by simp [hn], ho⟩
    simp [deliver, ht, AppendCall.committed]
  | append_transaction records =>
    simp only [AppendCall.run, Journal.append_transaction, Result.bind_eq_ok, refuse_if_eq_ok,
      decide_eq_false_iff_not] at h
    obtain ⟨_, hne, _, hlen, _, hck, _, _, _, hsz, j'', hw, h⟩ := h
    cases h
    obtain ⟨hf, hn, ho, _⟩ := write_frame_ok hw
    have hgood := check_transaction_ok hck
    refine ⟨encode_transaction_record records, ?_, ?_, hf, by simp [hn], ho⟩
    · exact Record.writable_iff.mpr ⟨rfl, by omega⟩
    · exact deliver_transaction hgood (by simpa using hne) (by omega)

/-- Successful appends extend a stretch of intact frames by exactly what they commit. -/
theorem appends_ok {first : UInt64} {base : Text} {calls : List AppendCall} {j j' : Journal}
    {data : Text} {delivered : List Record} (hf : j.file = base ++ data)
    (hi : Intact first data j.next_seq delivered) (h : appends j calls = .ok j') :
    ∃ data', j'.file = base ++ data' ∧
      Intact first data' j'.next_seq (delivered ++ calls.flatMap AppendCall.committed) ∧
      j'.options = j.options ∧ (calls ≠ [] → data' ≠ []) ∧ (calls = [] → data' = data) := by
  induction calls generalizing j data delivered with
  | nil =>
    cases h
    exact ⟨data, hf, by simpa using hi, rfl, by simp, by simp⟩
  | cons c cs ih =>
    simp only [appends, List.foldlM_cons, Result.bind_eq_ok] at h
    obtain ⟨j1, h1, h2⟩ := h
    obtain ⟨record, hw, hd, hf1, hn1, ho1⟩ := c.run_ok h1
    have hi1 : Intact first (data ++ frame_bytes record j.next_seq) j1.next_seq
        (delivered ++ c.committed) := hn1 ▸ hi.snoc hw hd
    obtain ⟨data', hf', hi', ho', hne', heq'⟩ := ih (by rw [hf1, hf, List.append_assoc]) hi1 h2
    refine ⟨data', hf', by simpa using hi', ho'.trans ho1, fun _ => ?_, by simp⟩
    by_cases hcs : cs = []
    · rw [heq' hcs]; simp [frame_bytes_ne_nil]
    · exact hne' hcs

/-! ## What compaction writes -/

theorem rewrite_frames_ok {options : JournalOptions} {records : List Record} {sequence : UInt64}
    {out file body : Text} {delivered : List Record}
    (hR : ∀ r ∈ records, r.type ≠ .Transaction) (hout : out = file_header ++ body)
    (hi : Intact 1 body sequence delivered)
    (h : rewrite_frames options records sequence out = .ok file) :
    ∃ body', file = file_header ++ body' ∧
      Intact 1 body' (sequence + UInt64.ofNat records.length) (delivered ++ records) := by
  induction records generalizing sequence out body delivered with
  | nil =>
    cases h
    exact ⟨body, hout, by simpa using hi⟩
  | cons r rs ih =>
    simp only [rewrite_frames, Result.bind_eq_ok, refuse_if_eq_ok, decide_eq_false_iff_not] at h
    obtain ⟨_, hv, _, hsz, _, _, h⟩ := h
    have hrt := hR r (by simp)
    have hc : compacted r = encode_transaction_record [r] := by simp [compacted, hrt]
    have hgood : ∀ x ∈ [r], x.writable = true ∧ x.type ≠ .Transaction := by
      simpa using ⟨writable_of_validate_record hv, hrt⟩
    have hw : (compacted r).writable = true :=
      Record.writable_iff.mpr ⟨by rw [hc]; rfl, by omega⟩
    have hd : deliver (compacted r) = .ok [r] := by
      rw [hc]
      exact deliver_transaction hgood (by simp) (by simp [limits.kMaxRecordsPerTransaction])
    have hi1 := hi.snoc hw hd
    obtain ⟨body', hfile, hi'⟩ := ih (fun x hx => hR x (by simp [hx]))
      (by rw [hout, List.append_assoc]) hi1 h
    refine ⟨body', hfile, ?_⟩
    have hlen : sequence + 1 + UInt64.ofNat rs.length =
        sequence + UInt64.ofNat (r :: rs).length := by
      simp [UInt64.ofNat_add, UInt64.add_assoc, UInt64.add_comm]
    simpa [hlen] using hi'

theorem open_ok {options : JournalOptions} {file : Text} {j : Journal}
    (h : Journal.open options (some file) = .ok j) :
    j = { options, file, bytes := file.length } := by
  simp only [Journal.open, Result.bind_eq_ok] at h
  obtain ⟨_, _, _, _, _, _, h⟩ := h
  cases h
  rfl

/-- A file that starts with the journal header opens, under any options with a path. -/
theorem open_file_header {options : JournalOptions} (hpath : options.path ≠ []) (body : Text) :
    Journal.open options (some (file_header ++ body)) =
      .ok { options, file := file_header ++ body, bytes := (file_header ++ body).length } := by
  have hp : options.path.isEmpty = false := by simpa using hpath
  have hlen : decide ((file_header ++ body).length < kFileHeaderBytes) = false := by simp
  have hmagic : read_u32_le (file_header ++ body) = kMagic := by
    simp only [file_header, List.append_assoc, read_u32_le_u32Bytes]
    rfl
  have hversion : read_u16 ((file_header ++ body).drop 4) = kJournalVersion := by
    have hdrop : (file_header ++ body).drop 4 =
        u16Bytes kJournalVersion ++ (u32Bytes 0 ++ ([0, 0] ++ body)) := by
      simp only [file_header, List.append_assoc]
      exact List.drop_left' rfl
    rw [hdrop, read_u16_u16Bytes]
    rfl
  simp only [Journal.open, hp, hlen, hmagic, hversion]
  rfl

/-- After a compaction the file is the header and one intact stretch numbered from 1 that
    delivers the given records, while the counter is the one from before. -/
theorem rewrite_ok {j j1 : Journal} {records : List Record}
    (hR : ∀ r ∈ records, r.type ≠ .Transaction) (h : j.rewrite records = .ok j1) :
    ∃ body, j1.file = file_header ++ body ∧
      Intact 1 body (UInt64.ofNat (records.length + 1)) records ∧
      j1.next_seq = j.next_seq ∧ j1.options = j.options ∧ j.options.path ≠ [] := by
  simp only [rewrite, Result.bind_eq_ok] at h
  obtain ⟨_, _, file, hfile, reopened, hopen, h⟩ := h
  obtain ⟨body, hbody, hi⟩ := rewrite_frames_ok hR (List.append_nil _).symm Intact.nil hfile
  have hpath : j.options.path ≠ [] := by
    simp only [Journal.open, Result.bind_eq_ok, refuse_if_eq_ok] at hopen
    obtain ⟨_, hp, _⟩ := hopen
    simpa using hp
  cases h
  rw [open_ok hopen]
  refine ⟨body, hbody, ?_, rfl, rfl, hpath⟩
  have hlen : (1 : UInt64) + UInt64.ofNat records.length = UInt64.ofNat (records.length + 1) := by
    simp [UInt64.ofNat_add, UInt64.add_comm]
  simpa [hlen] using hi

/-! ## Reopening -/

/-- Opening `file` and replaying it hands the visitor exactly `expected` and cuts nothing off. -/
def Reopens (options : JournalOptions) (file : Text) (expected : List Record) : Prop :=
  ∃ opened replayed stats, Journal.open options (some file) = .ok opened ∧
    opened.replay = .ok (replayed, stats, expected) ∧ stats.truncated = false

theorem replay_ok {j : Journal} (h : kFileHeaderBytes ≤ j.file.length) :
    ∃ j' stats, j.replay =
        .ok (j', stats, (replay_frames (j.file.drop kFileHeaderBytes) 1).visited) ∧
      stats.truncated = decide (kFileHeaderBytes +
        (replay_frames (j.file.drop kFileHeaderBytes) 1).bytes < j.file.length) := by
  unfold replay
  rw [if_neg (Nat.not_lt.mpr h)]
  exact ⟨_, _, rfl, rfl⟩

theorem reopens_iff {options : JournalOptions} (hpath : options.path ≠ []) {body : Text}
    {expected : List Record} :
    Reopens options (file_header ++ body) expected ↔
      (replay_frames body 1).visited = expected ∧ body.length ≤ (replay_frames body 1).bytes := by
  have hopen := open_file_header hpath body
  have hlen : kFileHeaderBytes ≤ (file_header ++ body).length := by simp
  have hdrop : (file_header ++ body).drop kFileHeaderBytes = body := List.drop_left' rfl
  obtain ⟨j', stats, hreplay, htrunc⟩ := replay_ok
    (j := { options, file := file_header ++ body, bytes := (file_header ++ body).length }) hlen
  simp only [hdrop, List.length_append, file_header_length, Nat.add_lt_add_iff_left]
    at hreplay htrunc
  constructor
  · rintro ⟨opened, replayed, stats', hopen', hreplay', htrunc'⟩
    rw [hopen, Except.ok.injEq] at hopen'
    subst hopen'
    simp only [List.length_append, file_header_length, hreplay, Except.ok.injEq,
      Prod.mk.injEq] at hreplay'
    obtain ⟨-, rfl, hvisited⟩ := hreplay'
    rw [htrunc, decide_eq_false_iff_not, not_lt] at htrunc'
    exact ⟨hvisited, htrunc'⟩
  · rintro ⟨rfl, hbytes⟩
    refine ⟨_, j', stats, hopen, by simpa using hreplay, ?_⟩
    rw [htrunc, decide_eq_false_iff_not, not_lt]
    exact hbytes

/-- Appended frames that do not continue the numbering of the compacted ones are cut off: the
    frame with the wrong number right after them ends the walk. -/
theorem not_reopens_of_next_seq_ne {j j1 j2 : Journal} {records expected : List Record}
    {calls : List AppendCall} (hR : ∀ r ∈ records, r.type ≠ .Transaction)
    (h1 : j.rewrite records = .ok j1) (h2 : appends j1 calls = .ok j2) (hcalls : calls ≠ [])
    (hseq : j.next_seq ≠ UInt64.ofNat (records.length + 1)) :
    ¬ Reopens j2.options j2.file expected := by
  obtain ⟨body, hf1, hi, hn1, ho1, hpath⟩ := rewrite_ok hR h1
  obtain ⟨tail, hf2, hi2, ho2, hne, -⟩ := appends_ok (List.append_nil j1.file).symm Intact.nil h2
  rw [hf2, hf1, List.append_assoc, reopens_iff (by rw [ho2, ho1]; exact hpath)]
  obtain ⟨-, hb⟩ := hi.replay_frames tail
  rw [hb, List.length_append]
  rw [hn1] at hi2
  obtain ⟨r, rest, hw, htail⟩ := hi2.front (hne hcalls)
  have hzero := replay_frames_of_ne hw hseq rest
  rw [← htail] at hzero
  have hpos := List.length_pos_of_ne_nil (hne hcalls)
  omega

/-- Appended frames that continue the numbering of the compacted ones are read back. -/
theorem reopens_of_next_seq_eq {j j1 j2 : Journal} {records : List Record}
    {calls : List AppendCall} (hR : ∀ r ∈ records, r.type ≠ .Transaction)
    (h1 : j.rewrite records = .ok j1) (h2 : appends j1 calls = .ok j2)
    (hseq : calls = [] ∨ j.next_seq = UInt64.ofNat (records.length + 1)) :
    Reopens j2.options j2.file (records ++ calls.flatMap AppendCall.committed) := by
  obtain ⟨body, hf1, hi, hn1, ho1, hpath⟩ := rewrite_ok hR h1
  obtain ⟨tail, hf2, hi2, ho2, -, heq⟩ := appends_ok (List.append_nil j1.file).symm Intact.nil h2
  rw [hf2, hf1, List.append_assoc, reopens_iff (by rw [ho2, ho1]; exact hpath)]
  obtain ⟨hv, hb⟩ := hi.replay_frames tail
  rw [hv, hb, List.length_append]
  rcases hseq with hcalls | hseq
  · have htail : tail = [] := heq hcalls
    subst htail
    simp [hcalls]
  · rw [hn1, hseq] at hi2
    obtain ⟨hv2, hb2⟩ := hi2.replay_frames []
    simp only [List.append_nil, replay_frames_nil] at hv2 hb2
    rw [hv2, hb2]
    simp

/-- Commits made after a compaction survive a reopen exactly when there are none, or when the
    restored counter continues the numbering of the compacted frames. -/
theorem rewrite_then_appends_reopens_iff {j j1 j2 : Journal} {records : List Record}
    {calls : List AppendCall} (hR : ∀ r ∈ records, r.type ≠ .Transaction)
    (h1 : j.rewrite records = .ok j1) (h2 : appends j1 calls = .ok j2) :
    Reopens j2.options j2.file (records ++ calls.flatMap AppendCall.committed) ↔
      calls = [] ∨ j.next_seq = UInt64.ofNat (records.length + 1) := by
  constructor
  · intro h
    by_contra hc
    obtain ⟨hcalls, hseq⟩ := not_or.mp hc
    exact not_reopens_of_next_seq_ne hR h1 h2 hcalls hseq h
  · exact reopens_of_next_seq_eq hR h1 h2

/-! ## Reached journals -/

/-- The journals some sequence of successful calls leads to. -/
inductive Reached (options : JournalOptions) : Journal → Prop
  | opened {disk : Option Text} {j : Journal} :
      Journal.open options disk = .ok j → Reached options j
  | appended {j j' : Journal} {c : AppendCall} :
      Reached options j → c.run j = .ok j' → Reached options j'
  | replayed {j j' : Journal} {stats : ReplayStats} {visited : List Record} :
      Reached options j → j.replay = .ok (j', stats, visited) → Reached options j'
  | rewritten {j j' : Journal} {records : List Record} :
      Reached options j → j.rewrite records = .ok j' → Reached options j'

/-- A payload-free marker record. -/
def marker : Record := ⟨.Marker, []⟩

/-- A journal that has been created and replayed. -/
def fresh : Journal :=
  { options := { path := text "journal.mfj" }, file := file_header, replayed := true,
    bytes := kFileHeaderBytes }

theorem fresh_created : ∃ created stats, Journal.open fresh.options none = .ok created ∧
    created.replay = .ok (fresh, stats, []) := by
  have hdrop : file_header.drop kFileHeaderBytes = [] := rfl
  refine ⟨{ options := fresh.options, file := file_header, bytes := kFileHeaderBytes }, ?_⟩
  simp only [replay, hdrop, replay_frames_nil]
  exact ⟨_, rfl, rfl⟩

theorem fresh_reached : Reached fresh.options fresh := by
  obtain ⟨created, stats, hopen, hreplay⟩ := fresh_created
  exact .replayed (.opened hopen) hreplay

/-- Two commits, a compaction down to one record, one more commit: the last commit is lost. -/
theorem rewrite_then_append_loses_commit :
    ¬ ∀ (options : JournalOptions) (j j1 j2 : Journal) (records : List Record)
        (calls : List AppendCall), Reached options j → (∀ r ∈ records, r.type ≠ .Transaction) →
        j.rewrite records = .ok j1 → appends j1 calls = .ok j2 →
        Reopens j2.options j2.file (records ++ calls.flatMap AppendCall.committed) := by
  intro hall
  obtain ⟨j, hj, hreach⟩ : ∃ j, appends fresh [.append marker, .append marker] = .ok j ∧
      Reached fresh.options j := by
    refine ⟨_, rfl, ?_⟩
    exact .appended (c := .append marker) (.appended (c := .append marker) fresh_reached rfl) rfl
  obtain ⟨j1, h1⟩ : ∃ j1, j.rewrite [marker] = .ok j1 := by cases hj; exact ⟨_, rfl⟩
  obtain ⟨j2, h2⟩ : ∃ j2, appends j1 [.append marker] = .ok j2 := by
    cases hj; cases h1; exact ⟨_, rfl⟩
  have hmarker : ∀ r ∈ [marker], r.type ≠ .Transaction := by decide
  have hseq : j.next_seq ≠ UInt64.ofNat ([marker].length + 1) := by cases hj; decide
  exact not_reopens_of_next_seq_ne hmarker h1 h2 (by simp) hseq
    (hall _ j j1 j2 [marker] [.append marker] hreach hmarker h1 h2)

/-- One commit compacted to one record: the counter fits, and a later commit is kept. -/
theorem rewrite_then_append_keeps_commit : ∃ j j1 j2, appends fresh [.append marker] = .ok j ∧
    j.rewrite [marker] = .ok j1 ∧ appends j1 [.append marker] = .ok j2 ∧
    Reopens j2.options j2.file [marker, marker] := by
  obtain ⟨j, hj⟩ : ∃ j, appends fresh [.append marker] = .ok j := ⟨_, rfl⟩
  obtain ⟨j1, h1⟩ : ∃ j1, j.rewrite [marker] = .ok j1 := by cases hj; exact ⟨_, rfl⟩
  obtain ⟨j2, h2⟩ : ∃ j2, appends j1 [.append marker] = .ok j2 := by
    cases hj; cases h1; exact ⟨_, rfl⟩
  have hseq : j.next_seq = UInt64.ofNat ([marker].length + 1) := by cases hj; decide
  exact ⟨j, j1, j2, hj, h1, h2,
    (rewrite_then_appends_reopens_iff (by decide) h1 h2).mpr (.inr hseq)⟩

end Journal

end MaintenanceFabric
