import MaintenanceFabric.Store.Books
import MaintenanceFabric.Store.Replay

/-! # The store and the file behind it

    `append_transaction` of the store hands its journal one call per
    transaction.  This file says which transactions the journal takes, and
    what a store opened on a file of such transactions holds: the effects of
    their entries, in order.
-/

namespace MaintenanceFabric

open Lib Journal

/-! ## Transactions as calls -/

/-- The call the store makes for a transaction. -/
def transaction_call (entries : List Entry) : AppendCall :=
  .append_transaction (entries.map Entry.record)

theorem inner_bytes_length (e : Entry) : (inner_bytes e.record).length = 8 + e.size := by
  simp only [inner_bytes, List.length_append, u32Bytes_length, e.record_length]
  omega

theorem Entry.writable_iff (e : Entry) :
    e.record.writable = true ↔ e.size ≤ limits.kMaxJournalRecordBytes := by
  rw [Record.writable_iff, e.record_type, e.record_length]
  exact ⟨fun h => h.2, fun h => ⟨e.type_known.1, h⟩⟩

theorem check_entries_ok {entries : List Entry} :
    check_entries entries = .ok () ↔ ∀ e ∈ entries, e.record.writable = true := by
  simp only [check_entries, refuse_if_eq_ok, List.any_eq_false, decide_eq_true_eq,
    Entry.writable_iff, Nat.not_lt]

/-- `transaction_size` counts the payload the encoder writes. -/
theorem transaction_payload_length {entries : List Entry}
    (h : ∀ e ∈ entries, e.record.writable = true) :
    (encode_transaction_record (entries.map Entry.record)).payload.length =
      transaction_size entries := by
  have hwritable : ∀ r ∈ entries.map Entry.record, r.writable = true := by
    intro r hr
    obtain ⟨e, he, rfl⟩ := List.mem_map.mp hr
    exact h e he
  rw [encode_transaction_payload hwritable]
  simp only [List.length_append, u16Bytes_length, u32Bytes_length, List.length_flatMap,
    List.map_map, Function.comp_def, inner_bytes_length, transaction_size]
  omega

/-- What `append_transaction` lets through is what the journal writes. -/
theorem admit_transaction_ok {entries : List Entry} :
    admit_transaction entries = .ok () ↔ (transaction_call entries).Admissible := by
  have hordinary : ∀ e : Entry, e.record.type ≠ .Transaction := by
    intro e
    rw [e.record_type]
    exact e.type_known.2.1
  simp only [admit_transaction, Result.bind_eq_ok, refuse_if_eq_ok, decide_eq_false_iff_not,
    Nat.not_lt, transaction_call, AppendCall.Admissible, List.length_map]
  constructor
  · rintro ⟨_, hne, _, hlen, _, hcheck, hsize⟩
    have hwritable := check_entries_ok.mp hcheck
    refine ⟨by simpa using hne, hlen, ?_, ?_⟩
    · intro r hr
      obtain ⟨e, he, rfl⟩ := List.mem_map.mp hr
      exact ⟨hwritable e he, hordinary e⟩
    · rw [transaction_payload_length hwritable]
      exact hsize
  · rintro ⟨hne, hlen, hgood, hsize⟩
    have hwritable : ∀ e ∈ entries, e.record.writable = true := by
      intro e he
      exact (hgood _ (List.mem_map_of_mem he)).1
    rw [transaction_payload_length hwritable] at hsize
    exact ⟨(), by simpa using hne, (), hlen, (), check_entries_ok.mpr hwritable, hsize⟩

/-- An accepted write is an admitted transaction at the end of the log. -/
theorem Store.append_transaction_ok {s s' : Store} {entries : List Entry}
    (h : s.append_transaction entries = (.ok (), s')) :
    admit_transaction entries = .ok () ∧ s'.log = s.log ++ [entries] ∧ s'.state = s.state := by
  unfold Store.append_transaction at h
  split at h
  · cases h
  · next hadm =>
    split at h
    · next s1 hnext =>
      have hlog : s1.log = s.log ∧ s1.state = s.state := by
        unfold Store.next_verdict at hnext
        split at hnext
        · cases hnext
          exact ⟨rfl, rfl⟩
        · cases hnext
          exact ⟨rfl, rfl⟩
      cases h
      exact ⟨hadm, by rw [hlog.1], hlog.2⟩
    · cases h

theorem Store.append_and_flush_ok {s s' : Store} {entries : List Entry}
    (h : s.append_and_flush entries = (.ok (), s')) :
    admit_transaction entries = .ok () ∧ s'.log = s.log ++ [entries] ∧ s'.state = s.state := by
  unfold Store.append_and_flush at h
  split at h
  · cases h
  · split at h
    · cases h
    · next s1 happend =>
      obtain ⟨hadm, hlog, hstate⟩ := Store.append_transaction_ok happend
      have hflush : s'.log = s1.log ∧ s'.state = s1.state := by
        unfold Store.flush Store.next_verdict at h
        split at h
        · next hnext =>
          split at hnext
          · cases hnext
            cases h
            exact ⟨rfl, rfl⟩
          · cases hnext
            cases h
            exact ⟨rfl, rfl⟩
        · cases h
      exact ⟨hadm, hflush.1.trans hlog, hflush.2.trans hstate⟩

/-! ## Opening -/

namespace Store

/-- The store that the records of a journal leave. -/
def recovered (options : StoreOptions) (records : List Record) : Store :=
  let s := records.foldl visit (fresh options)
  s.with_jobs { s.state.jobs with next_id := next_job_id s.state.jobs }

theorem open_eq (options : StoreOptions) (file : Text) :
    Store.open options (some file) =
      (do let (journal, _, records) ← reopen options.journal file
          .ok (journal, recovered options records)) := by
  unfold Store.open reopen
  rw [bind_assoc]
  rfl

theorem image_recovered (options : StoreOptions) {entries : List Entry}
    (h : ∀ e ∈ entries, e.machine) :
    (recovered options (entries.map Entry.record)).image =
      entries.foldl Image.effect (fresh options).image := by
  rw [← image_visits (fresh options) h]
  rfl

/-- One more record has the effect of its entry on what was found before. -/
theorem image_recovered_append (options : StoreOptions) (records : List Record) {e : Entry}
    (h : e.machine) :
    (recovered options (records ++ [e.record])).image =
      (recovered options records).image.effect e := by
  have hvisit := image_visit (records.foldl visit (fresh options)) h
  rw [recovered, List.foldl_append]
  exact hvisit

/-- The file a journal leaves that was created empty and then took the transactions of `log`. -/
def file_of (options : StoreOptions) (log : List (List Entry)) : Text :=
  (holding options.journal (log.map transaction_call)).file

theorem committed_log (log : List (List Entry)) :
    (log.map transaction_call).flatMap AppendCall.committed = log.flatten.map Entry.record := by
  induction log with
  | nil => rfl
  | cons entries log ih =>
    simp only [List.map_cons, List.flatMap_cons, List.flatten_cons, List.map_append, ih]
    rfl

theorem transaction_calls_admissible {log : List (List Entry)}
    (hadm : ∀ entries ∈ log, admit_transaction entries = .ok ()) :
    ∀ c ∈ log.map transaction_call, c.Admissible := by
  intro c hc
  obtain ⟨entries, hentries, rfl⟩ := List.mem_map.mp hc
  exact admit_transaction_ok.mp (hadm entries hentries)

/-- A file of transactions opens, and everything in it is replayed. -/
theorem open_file_of {options : StoreOptions} (hpath : options.journal_path ≠ [])
    {log : List (List Entry)} (hadm : ∀ entries ∈ log, admit_transaction entries = .ok ()) :
    Store.open options (some (file_of options log)) =
      .ok (holding options.journal (log.map transaction_call),
        recovered options (log.flatten.map Entry.record)) := by
  have hpath' : options.journal.path ≠ [] := hpath
  obtain ⟨stats, hreopen, -⟩ := reopen_holding_file hpath' (transaction_calls_admissible hadm)
  rw [open_eq, file_of, hreopen, committed_log]
  rfl

/-- A store opened on the transactions of `log` holds their effects. -/
theorem open_laid {options : StoreOptions} (hpath : options.journal_path ≠ [])
    {log : List (List Entry)} (hadm : ∀ entries ∈ log, admit_transaction entries = .ok ())
    (h : ∀ e ∈ log.flatten, e.machine) :
    ∃ s, Store.open options (some (file_of options log)) =
        .ok (holding options.journal (log.map transaction_call), s) ∧
      s.image = replayed Image.effect (fresh options).image log :=
  ⟨_, open_file_of hpath hadm, image_recovered options h⟩

end Store

end MaintenanceFabric
