import MaintenanceFabric.Store.Reopening
import MaintenanceFabric.Store.TopologyOrder

/-! # Structural records that do not decode

    `Store::open` applies topology and policy records strictly, so that one
    that does not decode is an error.  The error goes into the report of a
    visitor that returns nothing; the replay continues, and the store is
    opened as if the record were not there.
-/

namespace MaintenanceFabric

open Lib Journal MaintenanceFabric.Topology

/-- A topology or policy record that its decoder rejects. -/
def Undecodable (record : Record) : Prop :=
  (record.type = .Topology ∧ ∃ e, decode_topology_record record = .error e) ∨
    (record.type = .Policy ∧ ∃ e, decode_policy_record record = .error e)

namespace Store

/-- Visiting it is an error that nobody reads. -/
theorem visit_undecodable {record : Record} (h : Undecodable record) (s : Store) :
    s.visit record = s := by
  unfold visit apply
  rcases h with ⟨htype, e, he⟩ | ⟨htype, e, he⟩
  · rw [htype, he]
    rfl
  · rw [htype, he]
    rfl

/-- Records before and after it are visited as if it were not there. -/
theorem visits_without {record : Record} (h : Undecodable record) (records : List Record)
    (s : Store) : records.foldl visit s = (records.filter (· ≠ record)).foldl visit s := by
  induction records generalizing s with
  | nil => rfl
  | cons r records ih =>
    by_cases hr : r = record
    · subst hr
      rw [List.foldl_cons, visit_undecodable h, ih, List.filter_cons_of_neg (by simp)]
    · rw [List.foldl_cons, ih, List.filter_cons_of_pos (by simpa using hr), List.foldl_cons]

theorem recovered_without {record : Record} (h : Undecodable record) (options : StoreOptions)
    (records : List Record) :
    recovered options records = recovered options (records.filter (· ≠ record)) := by
  unfold recovered
  rw [visits_without h]

/-- Opening a store fails only where opening or replaying its journal fails. -/
theorem open_reopens {options : StoreOptions} {file : Text} {records : List Record}
    (h : Reopens options.journal file records) :
    ∃ j, Store.open options (some file) = .ok (j, recovered options records) := by
  obtain ⟨opened, j, stats, hopen, hreplay, -⟩ := h
  refine ⟨j, ?_⟩
  rw [open_eq, reopen, hopen, Result.ok_bind, hreplay]
  rfl

/-- Whatever journal holds an undecodable structural record between intact frames, the store
    opens, in the state that the other records leave. -/
theorem undecodable_records_pass {options : StoreOptions} {file : Text} {records : List Record}
    (hfile : Reopens options.journal file records) :
    ∀ record ∈ records, Undecodable record →
      (¬ ∃ e, Store.open options (some file) = .error e) ∧
        ∃ j, Store.open options (some file) =
          .ok (j, recovered options (records.filter (· ≠ record))) := by
  intro record _ hbad
  obtain ⟨j, hj⟩ := open_reopens hfile
  rw [recovered_without hbad] at hj
  refine ⟨?_, j, hj⟩
  rintro ⟨e, he⟩
  rw [hj] at he
  cases he

/-! ### A topology that was committed -/

/-- The file of a new store after one `commit_topology`. -/
def topology_file (options : StoreOptions) (t : Topology) : Text :=
  file_of options ((fresh options).commit_topology t).2.log

/-- A topology whose record does not decode is in the journal all the same. -/
theorem commit_topology_logged {options : StoreOptions} {t : Topology} (hv : t.validate = .ok ())
    (hadm : admit_transaction [.topology t] = .ok ()) :
    ((fresh options).commit_topology t).2.log = [[.topology t]] := by
  unfold commit_topology
  rw [hv]
  simp only [append_and_flush_of_verdicts_nil (show (fresh options).verdicts = [] from rfl) hadm,
    ok_status]
  cases recorded_topology t with
  | error e => rfl
  | ok image => rfl

theorem topology_file_reopens {options : StoreOptions} (hpath : options.journal_path ≠ [])
    {t : Topology} (hv : t.validate = .ok ())
    (hadm : admit_transaction [.topology t] = .ok ()) :
    Reopens options.journal (topology_file options t) [encode_topology_record t] := by
  have hlog : ∀ entries ∈ [[Entry.topology t]], admit_transaction entries = .ok () := by
    intro entries hentries
    rw [List.mem_singleton.mp hentries]
    exact hadm
  have hpath' : options.journal.path ≠ [] := hpath
  obtain ⟨stats, hreopen, htrunc⟩ := reopen_holding_file hpath' (transaction_calls_admissible hlog)
  obtain ⟨opened, hopen, hreplay⟩ := Result.bind_eq_ok.mp hreopen
  rw [topology_file, commit_topology_logged hv hadm]
  exact ⟨opened, _, stats, hopen, hreplay, htrunc⟩

end Store

namespace Strict

def options : StoreOptions := { journal_path := text "journal" }

theorem tall_admitted : admit_transaction [.topology (Tower.tower 32)] = .ok () := by
  have hsize := Tower.tall_size
  apply Store.admit_single
  rw [Entry.size]
  omega

theorem tall_undecodable : Undecodable (encode_topology_record (Tower.tower 32)) := by
  refine .inl ⟨rfl, ?_⟩
  cases h : decode_topology_record (encode_topology_record (Tower.tower 32)) with
  | error e => exact ⟨e, rfl⟩
  | ok u => exact absurd h Tower.tall_undecodable

theorem tall_reopens : Reopens options.journal (Store.topology_file options (Tower.tower 32))
    [encode_topology_record (Tower.tower 32)] :=
  Store.topology_file_reopens (by decide) Tower.tall_validates tall_admitted

end Strict

namespace Store

/-- The file that committing the tall tower leaves opens as a store. -/
theorem tall_tower_passes :
    ¬ ∃ e, Store.open Strict.options (some (topology_file Strict.options (Tower.tower 32))) =
      .error e :=
  (undecodable_records_pass Strict.tall_reopens _ List.mem_cons_self Strict.tall_undecodable).1

/-- A store whose `commit_topology` was given the tall tower: every frame of its journal is
    intact, the topology record in it does not decode, and opening the journal is no error. -/
theorem undecodable_topology_opens : ∃ records,
    Reopens Strict.options.journal (topology_file Strict.options (Tower.tower 32)) records ∧
      (∃ record ∈ records, Undecodable record) ∧
      ¬ ∃ e, Store.open Strict.options (some (topology_file Strict.options (Tower.tower 32))) =
        .error e := by
  refine ⟨_, Strict.tall_reopens, ⟨_, List.mem_cons_self, Strict.tall_undecodable⟩, ?_⟩
  rintro ⟨e, he⟩
  obtain ⟨j, hj⟩ := open_reopens Strict.tall_reopens
  rw [hj] at he
  cases he

end Store

end MaintenanceFabric
