import MaintenanceFabric.Lib.Run
import MaintenanceFabric.Store.Frames

/-! # Appends whose writes fail

    The append path again, on a device that may take only a prefix of what it
    is given and then report failure.  A call that fails this way returns its
    error and leaves the byte count and the sequence counter alone, but it does
    not take back the bytes the device took, and the next frame is written
    behind them.

    Replay therefore delivers what the successful calls committed as long as no
    frame is written behind such a remainder.  The journal sees a remainder:
    its file is longer than its byte count.
-/

namespace MaintenanceFabric

namespace Journal

/-! ## The device -/

/-- What one `fwrite` does with its bytes: take them all, or take a prefix and report failure. -/
inductive Fwrite where
  | full
  | short (count : Nat)
  deriving DecidableEq

def Fwrite.put (file data : Text) : Fwrite → Bool × Text
  | .full => (true, file ++ data)
  | .short count => (false, file ++ data.take count)

/-- The two writes of a frame. -/
structure FrameWrite where
  header : Fwrite := .full
  payload : Fwrite := .full
  deriving DecidableEq

/-! ## The append path on it -/

/-- The checks `write_frame` makes before it writes. -/
def admit_frame (j : Journal) (record : Record) : Status := do
  refuse_if (record.payload.length > limits.kMaxJournalRecordBytes)
    (make_error .LimitExceeded (text "record payload exceeds the journal bound"))
  refuse_if (j.bytes + (kFrameHeaderBytes + record.payload.length) > j.options.max_bytes.toNat)
    (make_error .LimitExceeded
      (text "journal would exceed its configured byte bound; compaction is required"))
  refuse_if (j.records ≥ j.options.max_records.toNat) (make_error .LimitExceeded
    (text "journal would exceed its configured record bound; compaction is required"))

def write_frame_on (w : FrameWrite) (j : Journal) (record : Record) (sequence : UInt64) :
    Status × Journal :=
  match j.admit_frame record with
  | .error e => (.error e, j)
  | .ok () =>
      match w.header.put j.file (frame_header record sequence) with
      | (false, file) =>
          (.error (make_error .IoError (text "failed to append a journal frame header")),
            { j with file })
      | (true, file) =>
          -- an empty payload is not written
          match if record.payload.isEmpty then (true, file)
              else w.payload.put file record.payload with
          | (false, file) =>
              (.error (make_error .IoError (text "failed to append a journal frame payload")),
                { j with file })
          | (true, file) =>
              (ok_status, { j with
                file
                bytes := j.bytes + (kFrameHeaderBytes + record.payload.length)
                records := j.records + 1 })

/-- The end of both append calls: write the frame under the next number, and count it. -/
def write_next_on (w : FrameWrite) (j : Journal) (record : Record) : Status × Journal :=
  match j.write_frame_on w record j.next_seq with
  | (.error e, j) => (.error e, j)
  | (.ok (), j) => (ok_status, { j with next_seq := j.next_seq + 1 })

def append_on (w : FrameWrite) (j : Journal) (record : Record) : Status × Journal :=
  match (do
    validate_record record
    refuse_if (record.type = .Transaction)
      (invalid_argument (text "use append_transaction for transactional records"))
    j.ensure_replayed : Status) with
  | .error e => (.error e, j)
  | .ok () => j.write_next_on w record

def append_transaction_on (w : FrameWrite) (j : Journal) (records : List Record) :
    Status × Journal :=
  match (do
    refuse_if records.isEmpty
      (invalid_argument (text "transaction must contain at least one record"))
    refuse_if (records.length > limits.kMaxRecordsPerTransaction)
      (make_error .LimitExceeded (text "transaction contains too many records"))
    check_transaction records
    j.ensure_replayed
    refuse_if ((encode_transaction_record records).payload.length > limits.kMaxJournalRecordBytes)
      (make_error .LimitExceeded (text "transaction exceeds the journal record bound")) :
      Status) with
  | .error e => (.error e, j)
  | .ok () => j.write_next_on w (encode_transaction_record records)

def AppendCall.run_on (w : FrameWrite) (j : Journal) : AppendCall → Status × Journal
  | .append record => j.append_on w record
  | .append_transaction records => j.append_transaction_on w records

/-! ## What a call leaves behind -/

/-- The bytes of a frame the device takes. -/
def FrameWrite.taken (w : FrameWrite) (record : Record) : Nat :=
  match w.header with
  | .short count => min count kFrameHeaderBytes
  | .full =>
      kFrameHeaderBytes + match w.payload with
        | .short count => min count record.payload.length
        | .full => record.payload.length

/-- Some write of the frame reports failure. -/
def FrameWrite.fails (w : FrameWrite) (record : Record) : Prop :=
  w.header ≠ .full ∨ record.payload ≠ [] ∧ w.payload ≠ .full

instance (w : FrameWrite) (record : Record) : Decidable (w.fails record) :=
  inferInstanceAs (Decidable (_ ∨ _))

theorem take_min_length (data : Text) (n : Nat) : data.take (min n data.length) = data.take n := by
  rw [List.take_eq_take_iff]
  omega

/-- A frame that passes the checks of `write_frame` goes to the device; a failure leaves the
    bytes the device took and nothing else. -/
theorem write_next_on_fails {w : FrameWrite} {j : Journal} {record : Record}
    (h : j.admit_frame record = .ok ()) (hw : w.fails record) :
    ∃ e, j.write_next_on w record = (.error e, { j with
      file := j.file ++ (frame_bytes record j.next_seq).take (w.taken record) }) := by
  have hlen : (frame_header record j.next_seq).length = kFrameHeaderBytes := rfl
  obtain ⟨header, payload⟩ := w
  cases header with
  | short count =>
    have htake : (frame_bytes record j.next_seq).take (min count kFrameHeaderBytes) =
        (frame_header record j.next_seq).take count := by
      rw [frame_bytes_eq, List.take_append_of_le_length (by omega), ← hlen, take_min_length]
    simp only [write_next_on, write_frame_on, h, Fwrite.put, FrameWrite.taken, htake]
    exact ⟨_, rfl⟩
  | full =>
    have hpay : record.payload ≠ [] ∧ payload ≠ .full := hw.resolve_left (fun hne => hne rfl)
    cases payload with
    | full => exact absurd rfl hpay.2
    | short count =>
      have htake : (frame_bytes record j.next_seq).take
          (kFrameHeaderBytes + min count record.payload.length) =
          frame_header record j.next_seq ++ record.payload.take count := by
        rw [frame_bytes_eq, ← hlen, List.take_length_add_append, take_min_length]
      have hempty : record.payload.isEmpty = false := by simpa using hpay.1
      simp only [write_next_on, write_frame_on, h, Fwrite.put, FrameWrite.taken, htake, hempty,
        Bool.false_eq_true, if_false, List.append_assoc]
      exact ⟨_, rfl⟩

theorem write_next_on_ok {w : FrameWrite} {j : Journal} {record : Record}
    (h : j.admit_frame record = .ok ()) (hw : ¬ w.fails record) :
    j.write_next_on w record = (ok_status, j.wrote record) := by
  obtain ⟨header, payload⟩ := w
  obtain ⟨hheader, hpayload⟩ := not_or.mp hw
  have hfull : header = .full := not_not.mp hheader
  subst hfull
  by_cases hempty : record.payload = []
  · simp [write_next_on, write_frame_on, h, Fwrite.put, hempty, ok_status, wrote, frame_bytes_eq]
  · have hfull : payload = .full := by
      by_contra hne
      exact hpayload ⟨hempty, hne⟩
    subst hfull
    simp [write_next_on, write_frame_on, h, Fwrite.put, hempty, ok_status, wrote, frame_bytes_eq]

theorem write_next_on_refused {w : FrameWrite} {j : Journal} {record : Record} {e : Error}
    (h : j.admit_frame record = .error e) : j.write_next_on w record = (.error e, j) := by
  simp only [write_next_on, write_frame_on, h]

/-- What a call checks before it comes to write. -/
def AppendCall.checks (j : Journal) : AppendCall → Status
  | .append record => do
      validate_record record
      refuse_if (record.type = .Transaction)
        (invalid_argument (text "use append_transaction for transactional records"))
      j.ensure_replayed
  | .append_transaction records => do
      refuse_if records.isEmpty
        (invalid_argument (text "transaction must contain at least one record"))
      refuse_if (records.length > limits.kMaxRecordsPerTransaction)
        (make_error .LimitExceeded (text "transaction contains too many records"))
      check_transaction records
      j.ensure_replayed
      refuse_if
        ((encode_transaction_record records).payload.length > limits.kMaxJournalRecordBytes)
        (make_error .LimitExceeded (text "transaction exceeds the journal record bound"))

theorem AppendCall.run_eq (j : Journal) (c : AppendCall) :
    c.run j = (do
      c.checks j
      j.admit_frame c.record
      .ok (j.wrote c.record)) := by
  cases c with
  | append record =>
    simp only [AppendCall.run, Journal.append, write_frame, checks, admit_frame, bind_assoc]
    rfl
  | append_transaction records =>
    simp only [AppendCall.run, Journal.append_transaction, write_frame, checks, admit_frame,
      bind_assoc]
    rfl

theorem AppendCall.run_on_eq (w : FrameWrite) (j : Journal) (c : AppendCall) :
    c.run_on w j =
      match c.checks j with
      | .error e => (.error e, j)
      | .ok () => j.write_next_on w c.record := by
  cases c <;> rfl

/-- What a call leads to: it is refused as on a device that takes everything, or it goes to the
    device. -/
theorem AppendCall.run_on_cases (w : FrameWrite) (j : Journal) (c : AppendCall) :
    (∃ e, c.run j = .error e ∧ c.run_on w j = (.error e, j)) ∨
      c.run j = .ok (j.wrote c.record) ∧
        (w.fails c.record ∧ (∃ e, c.run_on w j = (.error e, { j with
            file := j.file ++ (frame_bytes c.record j.next_seq).take (w.taken c.record) })) ∨
          ¬ w.fails c.record ∧ c.run_on w j = (ok_status, j.wrote c.record)) := by
  rw [AppendCall.run_eq, AppendCall.run_on_eq]
  cases hchecks : c.checks j with
  | error e => exact .inl ⟨e, rfl, rfl⟩
  | ok _ =>
    cases hadm : j.admit_frame c.record with
    | error e => exact .inl ⟨e, rfl, write_next_on_refused hadm⟩
    | ok _ =>
      refine .inr ⟨rfl, ?_⟩
      by_cases hw : w.fails c.record
      · exact .inl ⟨hw, write_next_on_fails hadm hw⟩
      · exact .inr ⟨hw, write_next_on_ok hadm hw⟩

/-- On a device that takes everything this is the append path. -/
theorem AppendCall.run_on_full (j : Journal) (c : AppendCall) :
    c.run_on {} j =
      match c.run j with
      | .ok j' => (ok_status, j')
      | .error e => (.error e, j) := by
  have hfull : ¬ (FrameWrite.fails {} c.record) := by simp [FrameWrite.fails]
  rcases c.run_on_cases {} j with ⟨e, hrun, hon⟩ | ⟨hrun, ⟨hw, -⟩ | ⟨-, hon⟩⟩
  · rw [hrun, hon]
  · exact absurd hw hfull
  · rw [hrun, hon]

/-! ## Runs -/

/-- A run of calls so far: the journal it has come to, and what the calls that returned ok
    committed. -/
structure Attempted where
  journal : Journal
  kept : List Record := []

namespace Attempted

def step (s : Attempted) (attempt : AppendCall × FrameWrite) : Attempted :=
  match attempt.1.run_on attempt.2 s.journal with
  | (.ok (), journal) => { journal, kept := s.kept ++ attempt.1.committed }
  | (.error _, journal) => { s with journal }

def run (s : Attempted) (attempts : List (AppendCall × FrameWrite)) : Attempted :=
  attempts.foldl step s

/-- Bytes go to the device only while the file is as long as the journal's byte count, and a
    write that reports failure has not taken its whole frame. -/
def Clean (s : Attempted) (attempt : AppendCall × FrameWrite) : Prop :=
  (∃ j, attempt.1.run s.journal = .ok j) → attempt.2.taken attempt.1.record ≠ 0 →
    s.journal.file.length = s.journal.bytes ∧
      (attempt.2.fails attempt.1.record → attempt.2.taken attempt.1.record < attempt.1.size)

/-- The file is a stretch that replays to what was delivered before and what has been kept
    since, and a remainder that no frame can be read from. -/
def Replays (header : Text) (before : List Record) (s : Attempted) : Prop :=
  ∃ data rest detail, s.journal.file = header ++ (data ++ rest) ∧
    s.journal.bytes = header.length + data.length ∧
    read_frame s.journal.next_seq rest = .error detail ∧
    ∀ more, (replay_frames (data ++ more) 1).visited =
      before ++ s.kept ++ (replay_frames more s.journal.next_seq).visited

theorem Replays.visited {header : Text} {before : List Record} {s : Attempted}
    (h : s.Replays header before) : ∃ body, s.journal.file = header ++ body ∧
      (replay_frames body 1).visited = before ++ s.kept := by
  obtain ⟨data, rest, detail, hfile, -, hrest, hdata⟩ := h
  refine ⟨data ++ rest, hfile, ?_⟩
  rw [hdata, (replay_frames_stop hrest).1, List.append_nil]

/-- Where the file is as long as the byte count, nothing remains behind the frames. -/
theorem Replays.rest_nil {header : Text} {before : List Record} {s : Attempted}
    (h : s.Replays header before) (hlen : s.journal.file.length = s.journal.bytes) :
    ∃ data, s.journal.file = header ++ data ∧ s.journal.bytes = header.length + data.length ∧
      ∀ more, (replay_frames (data ++ more) 1).visited =
        before ++ s.kept ++ (replay_frames more s.journal.next_seq).visited := by
  obtain ⟨data, rest, detail, hfile, hbytes, -, hdata⟩ := h
  have hnil : rest = [] := by
    apply List.eq_nil_of_length_eq_zero
    rw [hfile, hbytes, List.length_append, List.length_append] at hlen
    omega
  rw [hnil, List.append_nil] at hfile
  exact ⟨data, hfile, hbytes, hdata⟩

theorem Replays.step {header : Text} {before : List Record} {s : Attempted}
    {attempt : AppendCall × FrameWrite} (hclean : s.Clean attempt)
    (h : s.Replays header before) : (s.step attempt).Replays header before := by
  obtain ⟨c, w⟩ := attempt
  rcases c.run_on_cases w s.journal with ⟨e, hrun, hon⟩ | ⟨hrun, ⟨hw, e, hon⟩ | ⟨hw, hon⟩⟩
  · -- refused
    have hs : s.step (c, w) = s := by simp only [Attempted.step, hon]
    rwa [hs]
  · have hc : c.Admissible := (AppendCall.run_eq_ok_iff.mp hrun).1
    have hs : s.step (c, w) = { s with journal := { s.journal with
        file := s.journal.file ++
          (frame_bytes c.record s.journal.next_seq).take (w.taken c.record) } } := by
      simp only [Attempted.step, hon]
    rw [hs]
    by_cases htaken : w.taken c.record = 0
    · -- a failed write that took nothing
      simpa [htaken] using h
    -- Part of a frame at the end of whole frames: the replay stops before it.
    · obtain ⟨hlen, hpart⟩ := hclean ⟨_, hrun⟩ htaken
      obtain ⟨data, hfile, hbytes, hdata⟩ := h.rest_nil hlen
      obtain ⟨detail, hcut⟩ := read_frame_cut hc.writable s.journal.next_seq s.journal.next_seq
        (hpart hw)
      exact ⟨data, _, detail, by rw [hfile, List.append_assoc], hbytes, hcut, hdata⟩
  · have hc : c.Admissible := (AppendCall.run_eq_ok_iff.mp hrun).1
    have hs : s.step (c, w) =
        { journal := s.journal.wrote c.record, kept := s.kept ++ c.committed } := by
      simp only [Attempted.step, hon, ok_status]
    have htaken : w.taken c.record ≠ 0 := by
      -- A whole frame is not empty, so the condition asks for a clean end of the file.
      have hheader : w.header = .full := not_not.mp (not_or.mp hw).1
      simp only [FrameWrite.taken, hheader, kFrameHeaderBytes]
      omega
    rw [hs]
    obtain ⟨hlen, -⟩ := hclean ⟨_, hrun⟩ htaken
    obtain ⟨data, hfile, hbytes, hdata⟩ := h.rest_nil hlen
    refine ⟨data ++ frame_bytes c.record s.journal.next_seq, [], _, ?_, ?_, read_frame_nil _, ?_⟩
    · simp only [wrote, hfile, List.append_assoc, List.append_nil]
    · simp only [wrote, hbytes, List.length_append, frame_bytes_length]
      omega
    · intro more
      have hone := @replay_frames_laid s.journal.next_seq [c] (by simpa using hc) more
      simp only [laid, List.append_nil] at hone
      rw [List.append_assoc, hdata, hone]
      simp [Replayed.behind, wrote]

/-- In every run in which no frame is written behind a remainder, replay delivers exactly what
    the calls that returned ok committed, in order, after what it delivered before. -/
theorem run_reopens {options : JournalOptions} {disk : Text} {j0 : Journal} {stats0 : ReplayStats}
    {before : List Record} (h0 : reopen options disk = .ok (j0, stats0, before))
    {attempts : List (AppendCall × FrameWrite)}
    (hclean : Lib.Along step Clean { journal := j0 } attempts) :
    ∃ j stats, reopen options (run { journal := j0 } attempts).journal.file =
      .ok (j, stats, before ++ (run { journal := j0 } attempts).kept) := by
  obtain ⟨header, body, hh, rfl, rfl, hreopen⟩ := reopen_ok h0
  have hinit : Replays header (replay_frames body 1).visited
      { journal := walked options (header ++ body.take (replay_frames body 1).bytes)
          (replay_frames body 1) } := by
    refine ⟨body.take (replay_frames body 1).bytes, [], _, ?_, ?_, read_frame_nil _, ?_⟩
    · rw [List.append_nil]
      rfl
    · rw [List.length_take, Nat.min_eq_left (replay_frames_bytes_le body 1), hh]
      rfl
    · intro more
      rw [replay_frames_kept, one_add_ofNat]
      simp only [Replayed.behind, walked, List.append_nil]
  have hrun := hclean.invariant (fun s attempt hc hs => Replays.step hc hs) hinit
  obtain ⟨body', hfile, hvisited⟩ := hrun.visited
  obtain ⟨j, stats, h⟩ := hreopen body'
  refine ⟨j, stats, ?_⟩
  rw [run, hfile, h, hvisited]

/-- A header write that takes one byte and fails, and a good write behind it: replay delivers
    nothing, though the second call returned ok. -/
theorem short_write_loses_commit :
    ¬ ∀ (options : JournalOptions) (disk : Text) (j0 : Journal) (stats0 : ReplayStats)
        (before : List Record) (attempts : List (AppendCall × FrameWrite)),
        reopen options disk = .ok (j0, stats0, before) →
        ∃ j stats, reopen options (run { journal := j0 } attempts).journal.file =
          .ok (j, stats, before ++ (run { journal := j0 } attempts).kept) := by
  intro hall
  have hpath : fresh.options.path ≠ [] := by decide
  obtain ⟨stats0, h0, -⟩ := @reopen_holding_file fresh.options hpath [] (by simp)
  obtain ⟨j, stats, h⟩ := hall _ _ _ _ _
    [(.append marker, { header := .short 1 }), (.append marker, {})] h0
  have hfile : (run { journal := holding fresh.options [] }
      [(.append marker, { header := .short 1 }), (.append marker, {})]).journal.file =
      file_header ++ ([0] ++ frame_bytes marker 1) := by decide +kernel
  have hkept : (run { journal := holding fresh.options [] }
      [(.append marker, { header := .short 1 }), (.append marker, {})]).kept = [marker] := rfl
  obtain ⟨detail, hread⟩ : ∃ detail, read_frame 1 ([0] ++ frame_bytes marker 1) =
      .error detail := by
    have hbad : (read_frame 1 ([0] ++ frame_bytes marker 1)).isOk = false := by decide +kernel
    cases hread : read_frame 1 ([0] ++ frame_bytes marker 1) with
    | error detail => exact ⟨detail, rfl⟩
    | ok found =>
      rw [hread] at hbad
      cases hbad
  obtain ⟨stats', h', -⟩ := reopen_file_header hpath ([0] ++ frame_bytes marker 1)
  rw [hfile, hkept, h', (replay_frames_stop hread).1] at h
  simp at h

/-- A header write that fails before it takes a byte does no harm. -/
theorem short_write_without_bytes : ∃ j stats, reopen fresh.options
    (run { journal := holding fresh.options [] }
      [(.append marker, { header := .short 0 }), (.append marker, {})]).journal.file =
    .ok (j, stats, [marker]) := by
  have hpath : fresh.options.path ≠ [] := by decide
  obtain ⟨stats0, h0, -⟩ := @reopen_holding_file fresh.options hpath [] (by simp)
  have hclean : Lib.Along step Clean { journal := holding fresh.options [] }
      [(.append marker, { header := .short 0 }), (.append marker, {})] := by
    refine ⟨?_, ?_, trivial⟩
    · intro _ htaken
      exact absurd rfl htaken
    · intro _ _
      exact ⟨rfl, fun hw => absurd hw (by decide)⟩
  exact run_reopens h0 hclean

end Attempted

end Journal

end MaintenanceFabric
