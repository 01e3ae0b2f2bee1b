import MaintenanceFabric.Store.Frames

/-! # Damaged files

    A file written by append calls may be cut off at any byte, by a crash, or
    have one of its bytes changed.  Either way what is left is the frames
    before the damage and bytes that no frame can be read from, so reopening
    it delivers those frames and cuts the rest off.
-/

namespace MaintenanceFabric

namespace Journal

/-! ## A file cut off at any byte -/

theorem boundary_take_mono {calls : List AppendCall} {k m : Nat} (h : k ≤ m) :
    boundary (calls.take k) ≤ boundary (calls.take m) := by
  obtain ⟨d, rfl⟩ := Nat.exists_eq_add_of_le h
  simp only [boundary, List.take_add, List.map_append, List.sum_append]
  omega

/-- A cut falls behind some number of whole frames and before the end of the next one. -/
theorem exists_whole_frames {calls : List AppendCall} {n : Nat} (hlo : kFileHeaderBytes ≤ n) :
    ∃ m ≤ calls.length, boundary (calls.take m) ≤ n ∧
      ∀ k < calls.length, boundary (calls.take (k + 1)) ≤ n ↔ k < m := by
  have hzero : boundary (calls.take 0) ≤ n := by simpa [boundary] using hlo
  refine ⟨Nat.findGreatest (fun k => boundary (calls.take k) ≤ n) calls.length,
    Nat.findGreatest_le _, Nat.findGreatest_spec (P := fun k => boundary (calls.take k) ≤ n)
      (Nat.zero_le _) hzero, ?_⟩
  intro k hk
  constructor
  · intro hin
    exact Nat.le_findGreatest (P := fun k => boundary (calls.take k) ≤ n) hk hin
  · intro hlt
    exact (boundary_take_mono hlt).trans
      (Nat.findGreatest_spec (P := fun k => boundary (calls.take k) ≤ n) (Nat.zero_le _) hzero)

theorem read_frame_take_laid {calls : List AppendCall} (h : ∀ c ∈ calls, c.Admissible)
    (first expected : UInt64) {n : Nat} (hn : ∀ c ∈ calls.head?, n < c.size) :
    ∃ detail, read_frame expected ((laid first calls).take n) = .error detail := by
  cases calls with
  | nil => exact ⟨_, by rw [laid, List.take_nil, read_frame_nil]⟩
  | cons c cs =>
    have hlt : n < c.size := hn c rfl
    rw [laid, List.take_append_of_le_length (by rw [frame_bytes_size]; omega)]
    exact read_frame_cut (h c (by simp)).writable first expected hlt

theorem boundary_append (calls more : List AppendCall) :
    boundary (calls ++ more) = boundary calls + (more.map AppendCall.size).sum := by
  simp only [boundary, List.map_append, List.sum_append]
  omega

/-- The frames of `calls`, cut before the end of the frame behind the first `m`, are the first
    `m` frames and bytes that no frame can be read from. -/
theorem take_laid {calls : List AppendCall} {m n : Nat}
    (hcalls : ∀ c ∈ calls, c.Admissible) (hlo : boundary (calls.take m) ≤ n)
    (hhi : n ≤ boundary calls)
    (hnext : ∀ k < calls.length, boundary (calls.take (k + 1)) ≤ n ↔ k < m) :
    ∃ rest detail, (file_header ++ laid 1 calls).take n =
        file_header ++ (laid 1 (calls.take m) ++ rest) ∧
      read_frame (UInt64.ofNat ((calls.take m).length + 1)) rest = .error detail ∧
      rest.length = n - boundary (calls.take m) := by
  have hlen := laid_length 1 (calls.take m)
  have hall : boundary calls =
      boundary (calls.take m) + ((calls.drop m).map AppendCall.size).sum := by
    rw [← boundary_append, List.take_append_drop]
  have hsplit : laid 1 calls = laid 1 (calls.take m) ++
      laid (UInt64.ofNat ((calls.take m).length + 1)) (calls.drop m) := by
    rw [← one_add_ofNat, ← laid_append, List.take_append_drop]
  have htake : (file_header ++ laid 1 calls).take n = file_header ++ (laid 1 (calls.take m) ++
      (laid (UInt64.ofNat ((calls.take m).length + 1)) (calls.drop m)).take
        (n - boundary (calls.take m))) := by
    rw [hsplit, ← List.append_assoc, ← List.append_assoc, List.take_append,
      List.take_of_length_le (by simp only [List.length_append, file_header_length]; omega)]
    simp only [List.length_append, file_header_length, hlen]
  -- The frame behind the last whole one does not end before the cut.
  have hcut : ∀ c ∈ (calls.drop m).head?, n - boundary (calls.take m) < c.size := by
    intro c hc
    rw [List.head?_drop] at hc
    obtain ⟨hm, rfl⟩ := List.getElem?_eq_some_iff.mp hc
    have hend : boundary (calls.take (m + 1)) = boundary (calls.take m) + calls[m].size := by
      rw [List.take_succ_eq_append_getElem hm, boundary_append]
      simp
    have := (not_congr (hnext m hm)).mpr (lt_irrefl m)
    omega
  obtain ⟨detail, hread⟩ := @read_frame_take_laid (calls.drop m)
    (fun c hc => hcalls c (List.mem_of_mem_drop hc)) (UInt64.ofNat ((calls.take m).length + 1))
    (UInt64.ofNat ((calls.take m).length + 1)) _ hcut
  refine ⟨_, detail, htake, hread, ?_⟩
  have htail := laid_length (UInt64.ofNat ((calls.take m).length + 1)) (calls.drop m)
  rw [boundary] at htail
  rw [List.length_take]
  omega

/-- Whatever a file written by append calls is cut to, reopening it delivers the records of
    exactly the calls whose frames lie inside the cut, and cuts the file behind the last of
    them. The file left behind reopens to the same records with nothing cut off, accepts every
    admissible call its bounds leave room for, and reopens to what is appended then. -/
theorem cut_anywhere {options : JournalOptions} {created j0 j : Journal} {stats0 : ReplayStats}
    {visited0 : List Record} {calls : List AppendCall} {n : Nat}
    (hopen : Journal.open options none = .ok created)
    (hreplay : created.replay = .ok (j0, stats0, visited0)) (happ : appends j0 calls = .ok j)
    (hlo : kFileHeaderBytes ≤ n) (hhi : n ≤ j.file.length) :
    ∃ m ≤ calls.length,
      (∀ k < calls.length, boundary (calls.take (k + 1)) ≤ n ↔ k < m) ∧
      ∃ j1 stats1, reopen options (j.file.take n) =
          .ok (j1, stats1, (calls.take m).flatMap AppendCall.committed) ∧
        j1.file = j.file.take (boundary (calls.take m)) ∧
        (stats1.truncated = true ↔ ¬ ∃ k ≤ calls.length, n = boundary (calls.take k)) ∧
        ∃ j2 stats2, reopen options j1.file =
            .ok (j2, stats2, (calls.take m).flatMap AppendCall.committed) ∧
          stats2.truncated = false ∧
          (∀ c : AppendCall, c.Admissible →
            boundary (calls.take m) + c.size ≤ options.max_bytes.toNat →
            m < options.max_records.toNat → ∃ j3, c.run j2 = .ok j3) ∧
          ∀ more j3, appends j2 more = .ok j3 → ∃ j4 stats4, reopen options j3.file =
              .ok (j4, stats4, (calls.take m ++ more).flatMap AppendCall.committed) ∧
            stats4.truncated = false := by
  obtain ⟨hpath, rfl⟩ := created_holding hopen hreplay
  obtain ⟨hcalls, rfl⟩ := appends_holding happ
  rw [List.nil_append] at hhi ⊢
  have hsize : (holding options calls).file.length = boundary calls := by
    rw [holding, List.length_append, file_header_length, laid_length]
  rw [hsize] at hhi
  -- `m` counts the frames that lie whole before the cut; what is left behind them is no frame.
  obtain ⟨m, hm, hbm, hwhole⟩ := @exists_whole_frames calls _ hlo
  have hkept : ∀ c ∈ calls.take m, c.Admissible := fun c hc => hcalls c (List.mem_of_mem_take hc)
  obtain ⟨rest, detail, htake, hread, hrest⟩ := take_laid hcalls hbm hhi hwhole
  obtain ⟨stats1, h1, ht1⟩ := reopen_holding hpath hkept hread
  obtain ⟨stats2, h2, ht2⟩ := reopen_holding_file hpath hkept
  refine ⟨m, hm, hwhole, _, stats1, ?_, (holding_file_take options calls m).symm, ?_, _, stats2, h2,
    ht2, ?_, ?_⟩
  · rw [← h1, ← htake]
    rfl
  · -- the cut is a boundary exactly when it is the end of the last whole frame
    have hat : (∃ k ≤ calls.length, n = boundary (calls.take k)) ↔
        n = boundary (calls.take m) := by
      constructor
      · rintro ⟨k, hk, hn⟩
        have hkm : k ≤ m := by
          by_contra hlt
          obtain ⟨d, rfl⟩ : ∃ d, k = d + 1 := ⟨k - 1, by omega⟩
          have := (hwhole d hk).mp hn.ge
          omega
        have := @boundary_take_mono calls _ _ hkm
        omega
      · intro hn
        exact ⟨m, hm, hn⟩
    rw [ht1, hat, decide_eq_true_iff, ← List.length_pos_iff, hrest, Nat.sub_pos_iff_lt]
    exact ⟨fun hlt => hlt.ne', fun hne => lt_of_le_of_ne hbm (Ne.symm hne)⟩
  · intro c hc hbytes hrecords
    refine ⟨_, AppendCall.run_eq_ok_iff.mpr ⟨hc, rfl, hbytes, ?_, rfl⟩⟩
    simpa [holding, hm] using hrecords
  · intro more j3 h3
    obtain ⟨hmore, rfl⟩ := appends_holding h3
    obtain ⟨stats4, h4, ht4⟩ := @reopen_holding_file _ hpath (calls.take m ++ more) (by
      intro c hc
      rcases List.mem_append.mp hc with hc | hc
      · exact hkept c hc
      · exact hmore c hc)
    exact ⟨_, stats4, h4, ht4⟩

/-- Two writes and a crash in the middle of the second: the first survives. -/
theorem cut_in_second_frame : ∃ j j1 stats, appends fresh [.append marker, .append marker] = .ok j ∧
    40 ≤ j.file.length ∧ reopen fresh.options (j.file.take 40) = .ok (j1, stats, [marker]) := by
  obtain ⟨j, hj⟩ : ∃ j, appends fresh [.append marker, .append marker] = .ok j := ⟨_, rfl⟩
  obtain ⟨created, stats0, hopen, hreplay⟩ := fresh_created
  have hlen : 40 ≤ j.file.length := by cases hj; decide
  obtain ⟨m, -, hwhole, j1, stats, h1, -⟩ := cut_anywhere hopen hreplay hj (n := 40)
    (by decide) hlen
  have hm : m = 1 := by
    have h0 := (hwhole 0 (by decide)).mp (by decide)
    have h1 := (not_congr (hwhole 1 (by decide))).mp (by decide)
    omega
  subst hm
  exact ⟨j, j1, stats, hj, hlen, h1⟩

/-! ## A file with one byte changed -/

/-- The checks of `read_frame` on a header in its two parts and what follows it. -/
theorem read_frame_parts {expected : UInt64} {head sum body : Text} {delivered : List Record}
    {length : Nat} (hhead : head.length = 20) (hsum : sum.length = 4)
    (h : read_frame expected (head ++ (sum ++ body)) = .ok (delivered, length)) :
    (crc32c head).toNat = read_u32_le sum ∧ length = read_u32_le (head.drop 12 ++ sum) ∧
      (crc32c (body.take length)).toNat = read_u32_le (head.drop 16 ++ sum) := by
  obtain ⟨-, hheader, hlen, hpayload⟩ := read_frame_ok h
  have hfull : (head ++ sum).length = kFrameHeaderBytes := by
    rw [List.length_append, hhead, hsum, kFrameHeaderBytes]
  rw [← List.append_assoc, List.take_left' hfull] at hheader hlen hpayload
  rw [List.drop_left' hfull] at hpayload
  rw [List.take_left' hhead, List.drop_left' hhead] at hheader
  rw [List.drop_append_of_le_length (by omega)] at hlen hpayload
  exact ⟨hheader, hlen, hpayload⟩

/-- The first 20 bytes of a frame are under the header checksum. -/
theorem head_damaged {head sum body : Text} {k : Nat} {byte : UInt8} {expected : UInt64}
    (hhead : head.length = 20) (hsum : sum.length = 4)
    (hcrc : read_u32_le sum = (crc32c head).toNat) (hk : k < head.length)
    (hne : head[k]? ≠ some byte) (found : List Record × Nat) :
    read_frame expected (head.set k byte ++ (sum ++ body)) ≠ .ok found := by
  intro hread
  obtain ⟨heq, -⟩ := read_frame_parts (by simpa using hhead) hsum hread
  rw [hcrc] at heq
  exact crc32c_set_ne hk (byte_ne_getElem hk hne) (UInt32.toNat_inj.mp heq)

/-- The next four hold that checksum. -/
theorem sum_damaged {head body : Text} {k : Nat} {byte : UInt8} {expected : UInt64}
    (hhead : head.length = 20) (hk : k < (u32Bytes (crc32c head).toNat).length)
    (hne : (u32Bytes (crc32c head).toNat)[k]? ≠ some byte) (found : List Record × Nat) :
    read_frame expected (head ++ ((u32Bytes (crc32c head).toNat).set k byte ++ body)) ≠
      .ok found := by
  intro hread
  obtain ⟨heq, -⟩ := read_frame_parts hhead (by simp) hread
  exact read_u32_le_set_ne _ hk (byte_ne_getElem hk hne)
    (heq.symm.trans (read_u32_le_crc (crc32c head)).symm)

/-- The payload is under the checksum in the header. -/
theorem payload_damaged {record : Record} (hw : record.writable = true) (sequence : UInt64)
    {k : Nat} {byte : UInt8} {expected : UInt64} (hk : k < record.payload.length)
    (hne : record.payload[k]? ≠ some byte) (rest : Text) (found : List Record × Nat) :
    read_frame expected (frame_header record sequence ++ (record.payload.set k byte ++ rest)) ≠
      .ok found := by
  intro hread
  have hsize : record.payload.length < 4294967296 :=
    Nat.lt_of_le_of_lt (Record.writable_iff.mp hw).2 (by decide)
  rw [frame_header, List.append_assoc] at hread
  obtain ⟨-, hlen, hpay⟩ := read_frame_parts rfl rfl hread
  have hlen' : (frame_head record sequence).drop 12 =
      u32Bytes record.payload.length ++ u32Bytes (crc32c record.payload).toNat := rfl
  have hpay' : (frame_head record sequence).drop 16 = u32Bytes (crc32c record.payload).toNat := rfl
  rw [hlen', List.append_assoc, read_u32_le_u32Bytes, Nat.mod_eq_of_lt hsize] at hlen
  have hcrc : (crc32c record.payload).toNat < 4294967296 := (crc32c record.payload).toNat_lt
  rw [hpay', read_u32_le_u32Bytes, Nat.mod_eq_of_lt hcrc, hlen,
    List.take_left' (by rw [List.length_set])] at hpay
  exact crc32c_set_ne hk (byte_ne_getElem hk hne) (UInt32.toNat_inj.mp hpay)

/-- No byte of a frame can change unnoticed. -/
theorem read_frame_damaged {record : Record} (hw : record.writable = true)
    (sequence expected : UInt64) {k : Nat} {byte : UInt8}
    (hk : k < (frame_bytes record sequence).length)
    (hne : (frame_bytes record sequence)[k]? ≠ some byte) (rest : Text) :
    ∃ detail, read_frame expected ((frame_bytes record sequence).set k byte ++ rest) =
      .error detail := by
  have hbad : ∀ found, read_frame expected ((frame_bytes record sequence).set k byte ++ rest) ≠
      .ok found := by
    rw [frame_bytes_length, kFrameHeaderBytes] at hk
    have hhead : (frame_head record sequence).length = 20 := rfl
    have hsum : (u32Bytes (crc32c (frame_head record sequence)).toNat).length = 4 := rfl
    have hcrc := read_u32_le_crc (crc32c (frame_head record sequence))
    by_cases h20 : k < 20
    · rw [frame_bytes, List.getElem?_append_left (by omega)] at hne
      rw [frame_bytes, List.set_append_left _ _ (by omega), List.append_assoc, List.append_assoc]
      exact head_damaged hhead hsum hcrc (by omega) hne
    · by_cases h24 : k < 24
      · rw [frame_bytes, List.getElem?_append_right (by omega),
          List.getElem?_append_left (by omega)] at hne
        rw [frame_bytes, List.set_append_right _ _ (by omega),
          List.set_append_left _ _ (by omega), List.append_assoc, List.append_assoc]
        exact sum_damaged hhead (by omega) hne
      · have hheader : (frame_header record sequence).length = 24 := rfl
        rw [frame_bytes_eq, List.getElem?_append_right (by omega)] at hne
        rw [frame_bytes_eq, List.set_append_right _ _ (by omega), List.append_assoc]
        exact payload_damaged hw sequence (by omega) hne rest
  cases hread : read_frame expected ((frame_bytes record sequence).set k byte ++ rest) with
  | error detail => exact ⟨detail, rfl⟩
  | ok found => exact absurd hread (hbad found)

/-- The frames of `calls` with a byte changed in the frame behind the first `m` are the first
    `m` frames and bytes that no frame can be read from. -/
theorem set_laid {options : JournalOptions} {calls : List AppendCall} {m i : Nat} {byte : UInt8}
    (hcalls : ∀ c ∈ calls, c.Admissible) (hm : m < calls.length)
    (hlo : boundary (calls.take m) ≤ i) (hhi : i < boundary (calls.take (m + 1)))
    (hne : (holding options calls).file[i]? ≠ some byte) :
    ∃ rest detail, (holding options calls).file.set i byte =
        file_header ++ (laid 1 (calls.take m) ++ rest) ∧ rest ≠ [] ∧
      read_frame (UInt64.ofNat ((calls.take m).length + 1)) rest = .error detail := by
  have hlen := laid_length 1 (calls.take m)
  have hend : boundary (calls.take (m + 1)) = boundary (calls.take m) + calls[m].size := by
    rw [List.take_succ_eq_append_getElem hm, boundary_append]
    simp
  have hfile : (holding options calls).file = (file_header ++ laid 1 (calls.take m)) ++
      (frame_bytes calls[m].record (UInt64.ofNat ((calls.take m).length + 1)) ++
        laid (UInt64.ofNat ((calls.take m).length + 1) + 1) (calls.drop (m + 1))) := by
    rw [← laid, ← List.drop_eq_getElem_cons hm, List.append_assoc, ← one_add_ofNat, ← laid_append,
      List.take_append_drop]
    rfl
  have hfront : (file_header ++ laid 1 (calls.take m)).length = boundary (calls.take m) := by
    rw [List.length_append, file_header_length, hlen]
  have hframe := frame_bytes_size calls[m] (UInt64.ofNat ((calls.take m).length + 1))
  rw [hfile, List.getElem?_append_right (by omega), List.getElem?_append_left (by omega)] at hne
  obtain ⟨detail, hread⟩ := read_frame_damaged (hcalls calls[m] (List.getElem_mem hm)).writable
    (UInt64.ofNat ((calls.take m).length + 1)) (UInt64.ofNat ((calls.take m).length + 1))
    (by omega) hne (laid (UInt64.ofNat ((calls.take m).length + 1) + 1) (calls.drop (m + 1)))
  refine ⟨_, detail, ?_, ?_, hread⟩
  · rw [hfile, List.set_append_right _ _ (by omega), List.set_append_left _ _ (by omega),
      List.append_assoc]
  · intro hnil
    have := congrArg List.length hnil
    rw [List.length_append, List.length_set, hframe, AppendCall.size, kFrameHeaderBytes,
      List.length_nil] at this
    omega

/-- Change any one byte behind the header of a file written by append calls: reopening it
    delivers exactly the records of the calls before the one whose frame holds that byte, and
    cuts the file at the start of that frame. -/
theorem changed_anywhere {options : JournalOptions} {created j0 j : Journal}
    {stats0 : ReplayStats} {visited0 : List Record} {calls : List AppendCall} {i : Nat}
    {byte : UInt8} (hopen : Journal.open options none = .ok created)
    (hreplay : created.replay = .ok (j0, stats0, visited0)) (happ : appends j0 calls = .ok j)
    (hlo : kFileHeaderBytes ≤ i) (hhi : i < j.file.length) (hne : byte ≠ j.file[i]) :
    ∃ m < calls.length, boundary (calls.take m) ≤ i ∧ i < boundary (calls.take (m + 1)) ∧
      ∃ j1 stats, reopen options (j.file.set i byte) =
          .ok (j1, stats, (calls.take m).flatMap AppendCall.committed) ∧
        j1.file = j.file.take (boundary (calls.take m)) ∧ stats.truncated = true := by
  obtain ⟨hpath, rfl⟩ := created_holding hopen hreplay
  obtain ⟨hcalls, rfl⟩ := appends_holding happ
  simp only [List.nil_append] at hhi hne ⊢
  have hsize : (holding options calls).file.length = boundary calls := by
    rw [holding, List.length_append, file_header_length, laid_length]
  obtain ⟨m, hm, hbm, hwhole⟩ := @exists_whole_frames calls _ hlo
  have hlt : m < calls.length := by
    by_contra hge
    rw [List.take_of_length_le (by omega)] at hbm
    omega
  have hnext : i < boundary (calls.take (m + 1)) := by
    have := (not_congr (hwhole m hlt)).mpr (lt_irrefl m)
    omega
  have hne' : (holding options calls).file[i]? ≠ some byte := by
    rw [List.getElem?_eq_getElem hhi]
    exact fun e => hne (Option.some.inj e).symm
  have hkept : ∀ c ∈ calls.take m, c.Admissible := fun c hc => hcalls c (List.mem_of_mem_take hc)
  obtain ⟨rest, detail, hset, hrest, hread⟩ := set_laid hcalls hlt hbm hnext hne'
  obtain ⟨stats, h1, ht1⟩ := reopen_holding hpath hkept hread
  refine ⟨m, hlt, hbm, hnext, _, stats, ?_, (holding_file_take options calls m).symm, ?_⟩
  · rw [hset, h1]
  · rw [ht1, decide_eq_true_iff]
    exact hrest

/-- Two writes and a changed byte in the second: the first survives. -/
theorem changed_in_second_frame : ∃ j j1 stats,
    appends fresh [.append marker, .append marker] = .ok j ∧ j.file[38]? = some 0 ∧
      reopen fresh.options (j.file.set 38 7) = .ok (j1, stats, [marker]) := by
  obtain ⟨j, hj⟩ : ∃ j, appends fresh [.append marker, .append marker] = .ok j := ⟨_, rfl⟩
  obtain ⟨created, stats0, hopen, hreplay⟩ := fresh_created
  have hhi : 38 < j.file.length := by cases hj; decide
  have hold : j.file[38]? = some 0 := by cases hj; decide
  have hne : (7 : UInt8) ≠ j.file[38] := by
    have := (List.getElem?_eq_some_iff.mp hold).2
    rw [this]
    decide
  obtain ⟨m, hm, hlo, hnext, j1, stats, h1, -⟩ :=
    changed_anywhere hopen hreplay hj (by decide) hhi hne
  have hm1 : m = 1 := by
    have hcases : m = 0 ∨ m = 1 := by
      simp only [List.length_cons, List.length_nil] at hm
      omega
    rcases hcases with rfl | rfl
    · exact absurd hnext (by decide)
    · rfl
  subst hm1
  exact ⟨j, j1, stats, hj, hold, h1⟩

end Journal

end MaintenanceFabric
