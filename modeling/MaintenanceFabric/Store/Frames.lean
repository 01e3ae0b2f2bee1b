import MaintenanceFabric.Store.Compaction

/-! # Frames on disk

    What a sequence of append calls leaves in the file, frame by frame, and
    what replay makes of a file that is only partly such frames.  Replay looks
    at a frame's own bytes and at nothing behind them, so the walk over a file
    is decided stretch by stretch: `replay_frames_laid` walks the frames of
    successful calls, `replay_frames_kept` walks again what an earlier walk
    accepted.
-/

namespace MaintenanceFabric

namespace Journal

/-! ## Calls and the frames they write -/

/-- The record a call puts into its frame. -/
def AppendCall.record : AppendCall → Record
  | .append record => record
  | .append_transaction records => encode_transaction_record records

/-- The bytes a call adds to the file. -/
def AppendCall.size (c : AppendCall) : Nat := kFrameHeaderBytes + c.record.payload.length

/-- The calls that `append` and `append_transaction` do not refuse for what they carry. -/
def AppendCall.Admissible : AppendCall → Prop
  | .append record => record.writable = true ∧ record.type ≠ .Transaction
  | .append_transaction records =>
      records ≠ [] ∧ records.length ≤ limits.kMaxRecordsPerTransaction ∧
        (∀ r ∈ records, r.writable = true ∧ r.type ≠ .Transaction) ∧
        (encode_transaction_record records).payload.length ≤ limits.kMaxJournalRecordBytes

/-- The journal with one more frame. -/
def wrote (j : Journal) (record : Record) : Journal :=
  { j with
    file := j.file ++ frame_bytes record j.next_seq
    bytes := j.bytes + (kFrameHeaderBytes + record.payload.length)
    records := j.records + 1
    next_seq := j.next_seq + 1 }

theorem AppendCall.Admissible.writable {c : AppendCall} (h : c.Admissible) :
    c.record.writable = true := by
  cases c with
  | append record => exact h.1
  | append_transaction records => exact Record.writable_iff.mpr ⟨rfl, h.2.2.2⟩

theorem AppendCall.Admissible.deliver {c : AppendCall} (h : c.Admissible) :
    Journal.deliver c.record = .ok c.committed := by
  cases c with
  | append record => simp [Journal.deliver, AppendCall.record, h.2, AppendCall.committed]
  | append_transaction records => exact deliver_transaction h.2.2.1 h.1 h.2.1

theorem validate_record_of_writable {record : Record} (h : record.writable = true) :
    validate_record record = .ok () := by
  obtain ⟨hknown, hsize⟩ := Record.writable_iff.mp h
  have hne : record.type ≠ .Unknown := by
    intro e
    rw [e] at hknown
    exact absurd hknown (by decide)
  have hfit : ¬ record.payload.length > limits.kMaxJournalRecordBytes := by omega
  simp [validate_record, hne, hknown, hfit, ok_status]

theorem check_transaction_of_writable {records : List Record}
    (h : ∀ r ∈ records, r.writable = true ∧ r.type ≠ .Transaction) :
    check_transaction records = .ok () := by
  induction records with
  | nil => rfl
  | cons r rs ih =>
    obtain ⟨hw, ht⟩ := h r (by simp)
    simp only [check_transaction, Result.bind_eq_ok, refuse_if_eq_ok, decide_eq_false_iff_not]
    exact ⟨(), validate_record_of_writable hw, (), ht, ih (fun x hx => h x (by simp [hx]))⟩

theorem write_frame_eq_ok_iff {j j' : Journal} {record : Record} {sequence : UInt64} :
    j.write_frame record sequence = .ok j' ↔
      record.payload.length ≤ limits.kMaxJournalRecordBytes ∧
      j.bytes + (kFrameHeaderBytes + record.payload.length) ≤ j.options.max_bytes.toNat ∧
      j.records < j.options.max_records.toNat ∧
      j' = { j with
        file := j.file ++ frame_bytes record sequence
        bytes := j.bytes + (kFrameHeaderBytes + record.payload.length)
        records := j.records + 1 } := by
  simp only [write_frame, Result.bind_eq_ok, refuse_if_eq_ok, decide_eq_false_iff_not, not_lt,
    not_le, Except.ok.injEq]
  constructor
  · rintro ⟨_, hsize, _, hbytes, _, hrecords, rfl⟩
    exact ⟨hsize, hbytes, hrecords, rfl⟩
  · rintro ⟨hsize, hbytes, hrecords, rfl⟩
    exact ⟨(), hsize, (), hbytes, (), hrecords, rfl⟩

/-- Exactly the admissible calls that fit the bounds of a replayed journal are accepted, and an
    accepted call adds its frame. -/
theorem AppendCall.run_eq_ok_iff {j j' : Journal} {c : AppendCall} :
    c.run j = .ok j' ↔ c.Admissible ∧ j.replayed = true ∧
      j.bytes + c.size ≤ j.options.max_bytes.toNat ∧
      j.records < j.options.max_records.toNat ∧ j' = j.wrote c.record := by
  cases c with
  | append record =>
    simp only [AppendCall.run, Journal.append, ensure_replayed, Result.bind_eq_ok,
      refuse_if_eq_ok, decide_eq_false_iff_not, write_frame_eq_ok_iff, Except.ok.injEq]
    constructor
    · rintro ⟨_, hv, _, ht, _, hr, j1, ⟨hsize, hbytes, hrecords, rfl⟩, rfl⟩
      exact ⟨⟨writable_of_validate_record hv, ht⟩, by simpa using hr, hbytes, hrecords, rfl⟩
    · rintro ⟨⟨hw, ht⟩, hr, hbytes, hrecords, rfl⟩
      exact ⟨(), validate_record_of_writable hw, (), ht, (), by simpa using hr, _,
        ⟨(Record.writable_iff.mp hw).2, hbytes, hrecords, rfl⟩, rfl⟩
  | append_transaction records =>
    simp only [AppendCall.run, Journal.append_transaction, ensure_replayed, Result.bind_eq_ok,
      refuse_if_eq_ok, decide_eq_false_iff_not, write_frame_eq_ok_iff, Except.ok.injEq, not_lt]
    constructor
    · rintro ⟨_, hne, _, hlen, _, hck, _, hr, _, hsz, j1, ⟨_, hbytes, hrecords, rfl⟩, rfl⟩
      exact ⟨⟨by simpa using hne, hlen, check_transaction_ok hck, hsz⟩, by simpa using hr,
        hbytes, hrecords, rfl⟩
    · rintro ⟨⟨hne, hlen, hgood, hsz⟩, hr, hbytes, hrecords, rfl⟩
      exact ⟨(), by simpa using hne, (), hlen, (), check_transaction_of_writable hgood, (),
        by simpa using hr, (), hsz, _, ⟨hsz, hbytes, hrecords, rfl⟩, rfl⟩

/-- The frames a sequence of calls lays down, numbered from `first`. -/
def laid (first : UInt64) : List AppendCall → Text
  | [] => []
  | c :: cs => frame_bytes c.record first ++ laid (first + 1) cs

/-- The offset at which the frames of `calls` end in a file that starts with them. -/
def boundary (calls : List AppendCall) : Nat :=
  kFileHeaderBytes + (calls.map AppendCall.size).sum

theorem frame_bytes_size (c : AppendCall) (sequence : UInt64) :
    (frame_bytes c.record sequence).length = c.size := frame_bytes_length c.record sequence

theorem laid_length (first : UInt64) (calls : List AppendCall) :
    kFileHeaderBytes + (laid first calls).length = boundary calls := by
  induction calls generalizing first with
  | nil => rfl
  | cons c cs ih =>
    have hrest := ih (first + 1)
    simp only [boundary, laid, List.length_append, frame_bytes_size, List.map_cons,
      List.sum_cons] at hrest ⊢
    omega

theorem laid_append (first : UInt64) (calls more : List AppendCall) :
    laid first (calls ++ more) =
      laid first calls ++ laid (first + UInt64.ofNat calls.length) more := by
  induction calls generalizing first with
  | nil => simp [laid]
  | cons c cs ih =>
    have hnext : first + UInt64.ofNat (c :: cs).length =
        first + 1 + UInt64.ofNat cs.length := by
      simp [UInt64.ofNat_add, UInt64.add_assoc, UInt64.add_comm]
    simp only [List.cons_append, laid, ih, hnext, List.append_assoc]

/-- Successful calls leave their frames, one after the other, and count them. -/
theorem appends_eq {j j' : Journal} {calls : List AppendCall} (h : appends j calls = .ok j') :
    (∀ c ∈ calls, c.Admissible) ∧
      j' = { j with
        file := j.file ++ laid j.next_seq calls
        bytes := j.bytes + (calls.map AppendCall.size).sum
        records := j.records + calls.length
        next_seq := j.next_seq + UInt64.ofNat calls.length } := by
  induction calls generalizing j with
  | nil =>
    cases h
    simp [laid]
  | cons c cs ih =>
    simp only [appends, List.foldlM_cons, Result.bind_eq_ok] at h
    obtain ⟨j1, h1, h2⟩ := h
    obtain ⟨hc, -, -, -, rfl⟩ := AppendCall.run_eq_ok_iff.mp h1
    obtain ⟨hcs, rfl⟩ := ih h2
    refine ⟨by simpa using ⟨hc, hcs⟩, ?_⟩
    simp only [wrote, laid, AppendCall.size, List.append_assoc, List.map_cons, List.sum_cons,
      List.length_cons, Journal.mk.injEq, true_and]
    refine ⟨by omega, by omega, ?_⟩
    simp [UInt64.ofNat_add, UInt64.add_assoc, UInt64.add_comm]

/-! ## Walking frames -/

theorem replay_frames_cons {expected : UInt64} {data : Text} {delivered : List Record}
    {length : Nat} (hne : data ≠ []) (h : read_frame expected data = .ok (delivered, length)) :
    replay_frames data expected =
      { visited := delivered ++
          (replay_frames (data.drop (kFrameHeaderBytes + length)) (expected + 1)).visited
        frames := (replay_frames (data.drop (kFrameHeaderBytes + length)) (expected + 1)).frames + 1
        bytes := kFrameHeaderBytes + length +
          (replay_frames (data.drop (kFrameHeaderBytes + length)) (expected + 1)).bytes
        detail :=
          (replay_frames (data.drop (kFrameHeaderBytes + length)) (expected + 1)).detail } := by
  rw [replay_frames, if_neg hne, h]

theorem replay_frames_stop {expected : UInt64} {data detail : Text}
    (h : read_frame expected data = .error detail) :
    (replay_frames data expected).visited = [] ∧ (replay_frames data expected).bytes = 0 ∧
      (replay_frames data expected).frames = 0 := by
  by_cases hne : data = []
  · rw [hne]
    simp
  · rw [replay_frames, if_neg hne, h]
    simp

/-- What a walk finds when it goes on behind `calls` frames. -/
def Replayed.behind (walk : Replayed) (visited : List Record) (frames bytes : Nat) : Replayed :=
  { visited := visited ++ walk.visited
    frames := frames + walk.frames
    bytes := bytes + walk.bytes
    detail := walk.detail }

/-- Replay walks the frames of admissible calls that start at the expected number, and continues
    after them. -/
theorem replay_frames_laid {first : UInt64} {calls : List AppendCall}
    (h : ∀ c ∈ calls, c.Admissible) (rest : Text) :
    replay_frames (laid first calls ++ rest) first =
      (replay_frames rest (first + UInt64.ofNat calls.length)).behind
        (calls.flatMap AppendCall.committed) calls.length (laid first calls).length := by
  induction calls generalizing first with
  | nil => simp [laid, Replayed.behind]
  | cons c cs ih =>
    have hc := h c (by simp)
    have hread : read_frame first (frame_bytes c.record first ++ (laid (first + 1) cs ++ rest)) =
        .ok (c.committed, c.record.payload.length) := by
      rw [read_frame_frame_bytes hc.writable, if_pos rfl, hc.deliver]
      rfl
    have hne : frame_bytes c.record first ++ (laid (first + 1) cs ++ rest) ≠ [] := by
      simp [frame_bytes_ne_nil]
    have hdrop : (frame_bytes c.record first ++ (laid (first + 1) cs ++ rest)).drop
        (kFrameHeaderBytes + c.record.payload.length) = laid (first + 1) cs ++ rest :=
      List.drop_left' (frame_bytes_length c.record first)
    have hnext : first + UInt64.ofNat (c :: cs).length =
        first + 1 + UInt64.ofNat cs.length := by
      simp [UInt64.ofNat_add, UInt64.add_assoc, UInt64.add_comm]
    rw [laid, List.append_assoc, replay_frames_cons hne hread, hdrop,
      ih (fun x hx => h x (by simp [hx])), hnext]
    simp only [Replayed.behind, List.flatMap_cons, List.append_assoc, List.length_append,
      frame_bytes_length, List.length_cons, Replayed.mk.injEq, true_and, and_true]
    exact ⟨by omega, by omega⟩

/-- The checks a frame has passed once it is read. -/
theorem read_frame_ok {expected : UInt64} {data : Text} {delivered : List Record} {length : Nat}
    (h : read_frame expected data = .ok (delivered, length)) :
    kFrameHeaderBytes + length ≤ data.length ∧
      (crc32c ((data.take kFrameHeaderBytes).take 20)).toNat =
        read_u32_le ((data.take kFrameHeaderBytes).drop 20) ∧
      length = read_u32_le ((data.take kFrameHeaderBytes).drop 12) ∧
      (crc32c ((data.drop kFrameHeaderBytes).take length)).toNat =
        read_u32_le ((data.take kFrameHeaderBytes).drop 16) := by
  simp only [read_frame] at h
  split at h; · cases h
  rename_i hfull
  split at h; · cases h
  rename_i hheader
  split at h; · cases h
  split at h; · cases h
  split at h; · cases h
  split at h; · cases h
  rename_i hlen
  split at h; · cases h
  rename_i hpayload
  split at h; · cases h
  simp only [Except.ok.injEq, Prod.mk.injEq] at h
  obtain ⟨-, heq⟩ := h
  rw [heq] at hlen hpayload
  refine ⟨?_, not_not.mp hheader, heq.symm, not_not.mp hpayload⟩
  simp only [List.length_take, List.length_drop] at hfull hlen
  omega

/-- A frame is read from its own bytes: what stands behind them does not matter. -/
theorem read_frame_local {expected : UInt64} {data data' : Text} {delivered : List Record}
    {length : Nat} (h : read_frame expected data = .ok (delivered, length))
    (heq : data'.take (kFrameHeaderBytes + length) = data.take (kFrameHeaderBytes + length)) :
    read_frame expected data' = .ok (delivered, length) := by
  obtain ⟨-, -, hlen, -⟩ := read_frame_ok h
  have hhead : data'.take kFrameHeaderBytes = data.take kFrameHeaderBytes := by
    have := congrArg (List.take kFrameHeaderBytes) heq
    simpa [List.take_take] using this
  have hbody := congrArg (List.drop kFrameHeaderBytes) heq
  simp only [List.drop_take, Nat.add_sub_cancel_left] at hbody
  rw [hlen] at hbody
  rw [← h]
  simp only [read_frame, hhead, hbody]

theorem read_frame_nil (expected : UInt64) :
    read_frame expected [] = .error (text "final frame header is truncated") := rfl

/-- A frame that is cut short stops the walk. -/
theorem read_frame_cut {record : Record} (hw : record.writable = true)
    (sequence expected : UInt64) {n : Nat}
    (hn : n < kFrameHeaderBytes + record.payload.length) :
    ∃ detail, read_frame expected ((frame_bytes record sequence).take n) = .error detail := by
  cases hread : read_frame expected ((frame_bytes record sequence).take n) with
  | error detail => exact ⟨detail, rfl⟩
  | ok found =>
    -- read in the whole frame, it would be shorter than the frame
    obtain ⟨delivered, length⟩ := found
    have hle := (read_frame_ok hread).1
    rw [List.length_take] at hle
    have hwhole : read_frame expected (frame_bytes record sequence ++ []) =
        .ok (delivered, length) := by
      apply read_frame_local hread
      rw [List.append_nil, List.take_take, Nat.min_eq_left (by omega)]
    rw [read_frame_frame_bytes hw] at hwhole
    split at hwhole
    · cases hd : deliver record with
      | error e => simp [hd, Except.map] at hwhole
      | ok ds =>
        simp only [hd, Except.map, Except.ok.injEq, Prod.mk.injEq] at hwhole
        omega
    · cases hwhole

/-- The walk accepts bytes of the data only. -/
theorem replay_frames_bytes_le (data : Text) (expected : UInt64) :
    (replay_frames data expected).bytes ≤ data.length := by
  induction data, expected using replay_frames.induct with
  | case1 expected => simp
  | case2 data expected hne detail hread =>
    rw [(replay_frames_stop hread).2.1]
    exact Nat.zero_le _
  | case3 data expected hne delivered length hread ih =>
    have hle := (read_frame_ok hread).1
    rw [replay_frames_cons hne hread]
    simp only [List.length_drop] at ih ⊢
    omega

/-- What a walk accepted is accepted again, whatever stands behind it. -/
theorem replay_frames_kept (data : Text) (expected : UInt64) (rest : Text) :
    replay_frames (data.take (replay_frames data expected).bytes ++ rest) expected =
      (replay_frames rest (expected + UInt64.ofNat (replay_frames data expected).frames)).behind
        (replay_frames data expected).visited (replay_frames data expected).frames
        (replay_frames data expected).bytes := by
  induction data, expected using replay_frames.induct with
  | case1 expected => simp [Replayed.behind]
  | case2 data expected hne detail hread =>
    obtain ⟨hv, hb, hf⟩ := replay_frames_stop hread
    rw [hv, hb, hf]
    simp [Replayed.behind]
  | case3 data expected hne delivered length hread ih =>
    have hle := (read_frame_ok hread).1
    have hwalk := replay_frames_cons hne hread
    generalize hw : replay_frames (data.drop (kFrameHeaderBytes + length)) (expected + 1) = w
      at ih hwalk
    -- the accepted bytes are this frame and what the rest of the walk accepted
    have htake : data.take (kFrameHeaderBytes + length + w.bytes) =
        data.take (kFrameHeaderBytes + length) ++
          (data.drop (kFrameHeaderBytes + length)).take w.bytes := List.take_add
    have hlen : (data.take (kFrameHeaderBytes + length)).length = kFrameHeaderBytes + length := by
      rw [List.length_take]
      omega
    have hread' : read_frame expected (data.take (kFrameHeaderBytes + length) ++
        ((data.drop (kFrameHeaderBytes + length)).take w.bytes ++ rest)) =
        .ok (delivered, length) :=
      read_frame_local hread (List.take_left' hlen)
    have hne' : data.take (kFrameHeaderBytes + length) ++
        ((data.drop (kFrameHeaderBytes + length)).take w.bytes ++ rest) ≠ [] := by
      intro e
      rw [(List.append_eq_nil_iff.mp e).1, kFrameHeaderBytes, List.length_nil] at hlen
      omega
    have hnext : expected + UInt64.ofNat (w.frames + 1) =
        expected + 1 + UInt64.ofNat w.frames := by
      simp [UInt64.ofNat_add, UInt64.add_assoc, UInt64.add_comm]
    rw [hwalk]
    simp only [htake, List.append_assoc, hnext]
    rw [replay_frames_cons hne' hread', List.drop_left' hlen, ih]
    simp only [Replayed.behind, List.append_assoc, Replayed.mk.injEq, true_and, and_true]
    exact ⟨by omega, by omega⟩

/-! ## Reopening a file -/

/-- Open the file at the path and replay it. -/
def reopen (options : JournalOptions) (file : Text) :
    Result (Journal × ReplayStats × List Record) := do
  let opened ← Journal.open options (some file)
  opened.replay

/-- What a reopened journal holds after the walk over its frames. -/
def walked (options : JournalOptions) (file : Text) (walk : Replayed) : Journal :=
  { options
    file
    replayed := true
    bytes := kFileHeaderBytes + walk.bytes
    records := walk.frames
    next_seq := UInt64.ofNat (walk.frames + 1) }

/-- A file is kept as far as its frames are intact, and cut there. -/
theorem replay_header {j : Journal} {header b : Text} (hh : header.length = kFileHeaderBytes)
    (hf : j.file = header ++ b) :
    ∃ stats, j.replay =
        .ok (walked j.options (header ++ b.take (replay_frames b 1).bytes)
          (replay_frames b 1), stats, (replay_frames b 1).visited) ∧
      stats.truncated = decide ((replay_frames b 1).bytes < b.length) := by
  have hdrop : (header ++ b).drop kFileHeaderBytes = b := List.drop_left' hh
  have hshort : ¬ (header ++ b).length < kFileHeaderBytes := by simp [hh]
  have hle := replay_frames_bytes_le b 1
  simp only [replay, hf, hshort, if_false, hdrop]
  generalize replay_frames b 1 = walk at hle ⊢
  have hfile : (if decide (kFileHeaderBytes + walk.bytes < (header ++ b).length) = true
      then (header ++ b).take (kFileHeaderBytes + walk.bytes) else header ++ b) =
      header ++ b.take walk.bytes := by
    by_cases hcut : walk.bytes < b.length
    · rw [if_pos (by simpa [hh] using hcut), ← hh, List.take_length_add_append]
    · rw [if_neg (by simpa [hh] using hcut), List.take_of_length_le (by omega)]
  rw [hfile]
  exact ⟨_, rfl, by simp [hh]⟩

/-- Opening looks at nothing behind the file header. -/
theorem open_header {options : JournalOptions} {header body : Text} (body' : Text)
    {opened : Journal}
    (hh : header.length = kFileHeaderBytes)
    (h : Journal.open options (some (header ++ body)) = .ok opened) :
    Journal.open options (some (header ++ body')) =
      .ok { options, file := header ++ body', bytes := (header ++ body').length } := by
  obtain ⟨b0, b1, b2, b3, b4, b5, rest, rfl⟩ :
      ∃ b0 b1 b2 b3 b4 b5 rest, header = b0 :: b1 :: b2 :: b3 :: b4 :: b5 :: rest := by
    rcases header with _ | ⟨b0, _ | ⟨b1, _ | ⟨b2, _ | ⟨b3, _ | ⟨b4, _ | ⟨b5, rest⟩⟩⟩⟩⟩⟩ <;>
      first | exact ⟨_, _, _, _, _, _, _, rfl⟩ | simp [kFileHeaderBytes] at hh
  simp only [Journal.open, Result.bind_eq_ok, refuse_if_eq_ok, decide_eq_false_iff_not,
    List.length_append, hh, Except.ok.injEq] at h ⊢
  obtain ⟨_, hpath, _, _, _, hvalid, _⟩ := h
  exact ⟨(), hpath, (), by omega, (), hvalid, trivial⟩

/-- Reopening accepts a stretch of the file; any file that starts the same way is opened too. -/
theorem reopen_ok {options : JournalOptions} {disk : Text} {j : Journal} {stats : ReplayStats}
    {visited : List Record} (h : reopen options disk = .ok (j, stats, visited)) :
    ∃ header body, header.length = kFileHeaderBytes ∧
      j = walked options (header ++ body.take (replay_frames body 1).bytes)
        (replay_frames body 1) ∧
      visited = (replay_frames body 1).visited ∧
      ∀ body', ∃ j' stats', reopen options (header ++ body') =
        .ok (j', stats', (replay_frames body' 1).visited) := by
  simp only [reopen, Result.bind_eq_ok] at h
  obtain ⟨opened, hopen, hreplay⟩ := h
  have hfile := open_ok hopen
  have hlong : kFileHeaderBytes ≤ disk.length := by
    simp only [Journal.open, Result.bind_eq_ok, refuse_if_eq_ok, decide_eq_false_iff_not] at hopen
    obtain ⟨_, _, _, hlen, _⟩ := hopen
    omega
  have hh : (disk.take kFileHeaderBytes).length = kFileHeaderBytes := by
    rw [List.length_take]
    omega
  have hsplit := List.take_append_drop kFileHeaderBytes disk
  obtain ⟨stats', hwalk, -⟩ := replay_header (j := opened) hh (by rw [hfile]; exact hsplit.symm)
  rw [hwalk] at hreplay
  cases hreplay
  refine ⟨_, _, hh, by rw [hfile], rfl, ?_⟩
  intro body'
  rw [← hsplit] at hopen
  obtain ⟨stats'', hwalk', -⟩ := replay_header (b := body') (j :=
    { options, file := disk.take kFileHeaderBytes ++ body'
      bytes := (disk.take kFileHeaderBytes ++ body').length }) hh rfl
  rw [reopen, open_header body' hh hopen]
  exact ⟨_, stats'', hwalk'⟩

theorem reopen_file_header {options : JournalOptions} (hpath : options.path ≠ []) (body : Text) :
    ∃ stats, reopen options (file_header ++ body) =
        .ok (walked options (file_header ++ body.take (replay_frames body 1).bytes)
          (replay_frames body 1), stats, (replay_frames body 1).visited) ∧
      stats.truncated = decide ((replay_frames body 1).bytes < body.length) := by
  rw [reopen, open_file_header hpath body]
  exact replay_header (j := ⟨options, file_header ++ body, false, _, 0, 1⟩) rfl rfl

/-! ## Journals that hold the frames of a call sequence -/

/-- The replayed journal that holds exactly the frames of `calls`. -/
def holding (options : JournalOptions) (calls : List AppendCall) : Journal :=
  { options
    file := file_header ++ laid 1 calls
    replayed := true
    bytes := boundary calls
    records := calls.length
    next_seq := UInt64.ofNat (calls.length + 1) }

theorem one_add_ofNat (n : Nat) : (1 : UInt64) + UInt64.ofNat n = UInt64.ofNat (n + 1) := by
  simp [UInt64.ofNat_add, UInt64.add_comm]

/-- A file that is created and replayed holds no frame. -/
theorem created_holding {options : JournalOptions} {created j : Journal} {stats : ReplayStats}
    {visited : List Record} (hopen : Journal.open options none = .ok created)
    (hreplay : created.replay = .ok (j, stats, visited)) :
    options.path ≠ [] ∧ j = holding options [] := by
  simp only [Journal.open, Result.bind_eq_ok, refuse_if_eq_ok] at hopen
  obtain ⟨_, hpath, _, _, hcreated⟩ := hopen
  cases hcreated
  obtain ⟨_, hwalk, -⟩ := replay_header rfl (List.append_nil file_header).symm
    (j := { options, file := file_header, bytes := kFileHeaderBytes })
  rw [hwalk] at hreplay
  cases hreplay
  exact ⟨by simpa using hpath, by simp [holding, walked, laid, boundary]⟩

/-- Successful calls extend what a journal holds. -/
theorem appends_holding {options : JournalOptions} {calls more : List AppendCall} {j : Journal}
    (h : appends (holding options calls) more = .ok j) :
    (∀ c ∈ more, c.Admissible) ∧ j = holding options (calls ++ more) := by
  obtain ⟨hmore, hj⟩ := appends_eq h
  refine ⟨hmore, hj.trans ?_⟩
  simp only [holding, laid_append, one_add_ofNat, boundary, List.map_append, List.sum_append,
    List.length_append, List.append_assoc, Journal.mk.injEq, true_and]
  refine ⟨by omega, ?_⟩
  simp [UInt64.ofNat_add, UInt64.add_assoc, UInt64.add_comm]

/-- The walk over the frames of `calls` and a remainder that no frame can be read from. -/
theorem replay_frames_holding {calls : List AppendCall} (h : ∀ c ∈ calls, c.Admissible)
    {rest detail : Text}
    (hrest : read_frame (UInt64.ofNat (calls.length + 1)) rest = .error detail) :
    (replay_frames (laid 1 calls ++ rest) 1).visited = calls.flatMap AppendCall.committed ∧
      (replay_frames (laid 1 calls ++ rest) 1).frames = calls.length ∧
      (replay_frames (laid 1 calls ++ rest) 1).bytes = (laid 1 calls).length := by
  rw [replay_frames_laid h, one_add_ofNat]
  obtain ⟨hv, hb, hf⟩ := replay_frames_stop hrest
  simp only [Replayed.behind, hv, hb, hf, List.append_nil, Nat.add_zero, and_self]

/-- A file that holds the frames of `calls` and behind them bytes that cannot be read as the
    next frame is cut back to those frames. -/
theorem reopen_holding {options : JournalOptions} (hpath : options.path ≠ [])
    {calls : List AppendCall} (h : ∀ c ∈ calls, c.Admissible) {rest detail : Text}
    (hrest : read_frame (UInt64.ofNat (calls.length + 1)) rest = .error detail) :
    ∃ stats, reopen options (file_header ++ (laid 1 calls ++ rest)) =
        .ok (holding options calls, stats, calls.flatMap AppendCall.committed) ∧
      stats.truncated = decide (rest ≠ []) := by
  obtain ⟨stats, hreopen, htrunc⟩ := reopen_file_header hpath (laid 1 calls ++ rest)
  obtain ⟨hv, hf, hb⟩ := replay_frames_holding h hrest
  have hwalked : walked options (file_header ++ (laid 1 calls ++ rest).take
      (replay_frames (laid 1 calls ++ rest) 1).bytes) (replay_frames (laid 1 calls ++ rest) 1) =
      holding options calls := by
    simp only [walked, holding, hf, hb, List.take_left, laid_length]
  refine ⟨stats, by rw [hreopen, hwalked, hv], ?_⟩
  rw [htrunc, hb, List.length_append]
  have hpos : (laid 1 calls).length < (laid 1 calls).length + rest.length ↔ rest ≠ [] := by
    rw [← List.length_pos_iff]
    omega
  simp [hpos]

theorem reopen_holding_file {options : JournalOptions} (hpath : options.path ≠ [])
    {calls : List AppendCall} (h : ∀ c ∈ calls, c.Admissible) :
    ∃ stats, reopen options (holding options calls).file =
        .ok (holding options calls, stats, calls.flatMap AppendCall.committed) ∧
      stats.truncated = false := by
  obtain ⟨stats, hreopen, htrunc⟩ := reopen_holding hpath h (read_frame_nil _)
  rw [List.append_nil] at hreopen
  exact ⟨stats, hreopen, by simpa using htrunc⟩

theorem holding_file_take (options : JournalOptions) (calls : List AppendCall) (m : Nat) :
    (holding options calls).file.take (boundary (calls.take m)) =
      (holding options (calls.take m)).file := by
  have hsplit : laid 1 calls = laid 1 (calls.take m) ++
      laid (1 + UInt64.ofNat (calls.take m).length) (calls.drop m) := by
    rw [← laid_append, List.take_append_drop]
  simp only [holding, hsplit, ← List.append_assoc]
  apply List.take_left'
  rw [List.length_append, file_header_length, laid_length]

end Journal

end MaintenanceFabric
