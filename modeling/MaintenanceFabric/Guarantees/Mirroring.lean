import MaintenanceFabric.Guarantees.Identities
import MaintenanceFabric.Store.Writes

/-! # Replay equals memory

    A store that starts on a fresh journal and is never compacted, with every
    write accepted: what another process finds in its file.
-/

namespace MaintenanceFabric

open Lib Journal

namespace Store

/-- A store that opens without a file starts on an empty journal. -/
theorem opened_fresh {options : StoreOptions} {journal : Journal} {store : Store}
    (h : Store.open options none = .ok (journal, store)) :
    options.journal_path ≠ [] ∧ journal = holding options.journal [] ∧
      store = recovered options [] := by
  obtain ⟨hpath, hcreate⟩ : options.journal_path ≠ [] ∧ options.create_if_missing = true := by
    obtain ⟨created, hcreated, -⟩ := Result.bind_eq_ok.mp h
    simp only [Journal.open, Result.bind_eq_ok, refuse_if_eq_ok, Bool.not_eq_false'] at hcreated
    obtain ⟨_, hpath, _, hcreate, -⟩ := hcreated
    exact ⟨by simpa [StoreOptions.journal] using hpath, hcreate⟩
  rw [open_created hpath hcreate] at h
  cases h
  exact ⟨hpath, rfl, rfl⟩

end Store

namespace Session

/-- The call writes what it does, in fields that fit their records. -/
def keeps_call (s : Session) : SessionEvent → Prop
  | .call verdicts c =>
      s.store.keeps c ∧ ∀ e ∈ (s.called verdicts c).2.log.flatten, e.machine
  | _ => True

/-- The journal holds transactions whose entries leave the state that is in memory. -/
structure Mirrors (options : StoreOptions) (s : Session) : Prop where
  journal : ∃ log, s.journal = holding options.journal (log.map transaction_call) ∧
    (∀ entries ∈ log, admit_transaction entries = .ok ()) ∧ (∀ e ∈ log.flatten, e.machine) ∧
    s.store.image = replayed Image.effect (Store.fresh options).image log
  counts : s.store.state.ledger.next_id.valid = true

theorem mirrors_opened {options : StoreOptions} {s : Session} (h : Opens options none s) :
    s.Mirrors options := by
  obtain ⟨-, hjournal, hstore⟩ := Store.opened_fresh h.1
  refine ⟨⟨[], hjournal, by simp, by simp, ?_⟩, ?_⟩
  · rw [hstore]
    exact @Store.image_recovered options [] (by simp)
  · rw [hstore]
    rfl

theorem mirrors_call {options : StoreOptions} {s : Session} (h : s.Mirrors options)
    {c : StoreCall} (hkeeps : s.keeps_call (.call [] c)) :
    (s.step (.call [] c)).Mirrors options := by
  obtain ⟨⟨log, hjournal, hadm, hmachine, himage⟩, hcounts⟩ := h
  obtain ⟨hkeeps, hfits⟩ := hkeeps
  unfold step
  simp only
  split
  · exact ⟨⟨log, hjournal, hadm, hmachine, himage⟩, hcounts⟩
  · next journal happ =>
    have hholds : s.store.image.Recordable := by
      rw [himage]
      exact Image.Recordable.effects ⟨by simp [Store.image, Store.fresh, Table.empty],
        by simp [Store.image, Store.fresh, Table.empty]⟩
    -- What the call logs is what it changed in memory; the journal takes the log as a whole.
    obtain ⟨committed, hlog, hmemory, -⟩ : Store.Mirrored { s.store with verdicts := [], log := [] }
        (s.called [] c).2 :=
      Store.mirrored_call (s := { s.store with verdicts := [], log := [] })
        rfl hholds hcounts hkeeps
    have hcommitted : (s.called [] c).2.log = committed := hlog
    rw [hcommitted] at happ hfits
    rw [hjournal] at happ
    obtain ⟨hadmissible, rfl⟩ := appends_holding happ
    refine ⟨⟨log ++ committed, by simp, ?_, ?_, ?_⟩, ?_⟩
    · intro entries hentries
      rcases List.mem_append.mp hentries with hold | hnew
      · exact hadm entries hold
      · exact admit_transaction_ok.mpr (hadmissible _ (List.mem_map_of_mem hnew))
    · intro e he
      rw [List.flatten_append] at he
      rcases List.mem_append.mp he with hold | hnew
      · exact hmachine e hold
      · exact hfits e hnew
    · rw [replayed_append, ← himage]
      exact hmemory
    · have hadvances : Store.Advances { s.store with verdicts := [], log := [] }
          (s.called [] c).2 := (Store.call_allocates _ c).advances
      have hle : s.store.state.ledger.next_id.value ≤
          (s.called [] c).2.state.ledger.next_id.value := hadvances.authorities
      have hpos := Nat.pos_of_ne_zero (StrongId.valid_iff.mp hcounts)
      exact StrongId.valid_iff.mpr (Nat.ne_of_gt (hpos.trans_le hle))

/-- Whenever calls that write what they do follow the opening of a fresh journal, the file opens
    to the state in memory: topology, policy, jobs, evidence, reservations, leases, quarantines,
    boot epoch, last incarnation and digests. -/
theorem replay_equals_memory {options : StoreOptions} {s : Session} (hopen : Opens options none s)
    {calls : List StoreCall} (hrun : Along step keeps_call s (calls.map (.call []))) :
    ∃ reopened, Store.open options (some (s.run (calls.map (.call []))).journal.file) =
        .ok ((s.run (calls.map (.call []))).journal, reopened) ∧
      reopened.image = (s.run (calls.map (.call []))).store.image := by
  have hpath := (Store.opened_fresh hopen.1).1
  have hmirrors : (s.run (calls.map (.call []))).Mirrors options := by
    have hstart := mirrors_opened hopen
    clear hopen
    induction calls generalizing s with
    | nil => exact hstart
    | cons c calls ih => exact ih hrun.2 (mirrors_call hstart hrun.1)
  obtain ⟨⟨log, hjournal, hadm, hmachine, himage⟩, -⟩ := hmirrors
  obtain ⟨reopened, hreopened, hreplayed⟩ := Store.open_laid hpath hadm hmachine
  refine ⟨reopened, ?_, ?_⟩
  · rw [hjournal]
    exact hreopened
  · rw [hreplayed, himage]

/-! ### Leases -/

/-- The lease of one switch. -/
def switch_lease : DrainLease :=
  { id := ⟨7⟩, targets := [{ kind := .Switch, index := 1 }], state := .Drained }

theorem switch_lease_machine : switch_lease.machine := by
  constructor <;> decide

/-- A job and a lease, read back from the journal. -/
theorem job_and_lease_replayed :
    ∃ reopened, Store.open Numbers.options (some (Numbers.start.run
        ([.create_job Numbers.request, .commit_lease switch_lease].map (.call []))).journal.file) =
        .ok ((Numbers.start.run ([.create_job Numbers.request,
          .commit_lease switch_lease].map (.call []))).journal, reopened) ∧
      reopened.image = (Numbers.start.run ([.create_job Numbers.request,
        .commit_lease switch_lease].map (.call []))).store.image := by
  apply replay_equals_memory Numbers.start_opens
  refine ⟨⟨trivial, Numbers.create_machine⟩, ?_, trivial⟩
  rw [Numbers.step_create]
  refine ⟨fun _ => rfl, ?_⟩
  intro e he
  rw [List.mem_singleton.mp he]
  exact switch_lease_machine

/-- The lease that a drain port answers with for a target it does not know. -/
def unknown_target_lease : DrainLease := { id := ⟨7⟩, targets := [{}], state := .Drained }

/-- It is kept in memory, and its record is dropped when the journal is opened. -/
theorem unknown_target_lease_lost : Opens Numbers.options none Numbers.start ∧
    ¬ ∃ reopened, Store.open Numbers.options (some (Numbers.start.run
        ([.commit_lease unknown_target_lease].map (.call []))).journal.file) =
        .ok ((Numbers.start.run ([.commit_lease unknown_target_lease].map (.call []))).journal,
          reopened) ∧
      reopened.image = (Numbers.start.run
        ([.commit_lease unknown_target_lease].map (.call []))).store.image := by
  refine ⟨Numbers.start_opens, ?_⟩
  have hadm : ∀ entries ∈ [[Entry.lease unknown_target_lease]],
      admit_transaction entries = .ok () := by
    intro entries hentries
    rw [List.mem_singleton.mp hentries]
    rfl
  have hmachine : ∀ e ∈ [Entry.lease unknown_target_lease], e.machine := by
    intro e he
    rw [List.mem_singleton.mp he]
    constructor <;> decide
  have hstep : Numbers.start.step (.call [] (.commit_lease unknown_target_lease)) =
      on Numbers.options.journal [[.lease unknown_target_lease]]
        ((Store.recovered Numbers.options []).call (.commit_lease unknown_target_lease)).2 [] :=
    step_call_on rfl rfl hadm (by decide) (by decide)
  rintro ⟨reopened, hopen, himage⟩
  rw [List.map_cons, List.map_nil, run_cons, run_nil, hstep] at hopen himage
  have hpath : Numbers.options.journal_path ≠ [] := by decide
  have hfile : Store.open Numbers.options (some (on Numbers.options.journal
      [[.lease unknown_target_lease]] ((Store.recovered Numbers.options []).call
        (.commit_lease unknown_target_lease)).2 []).journal.file) = _ :=
    Store.open_file_of hpath hadm
  rw [hfile] at hopen
  obtain ⟨-, hreopened⟩ := Prod.mk.inj (Except.ok.inj hopen)
  rw [← hreopened] at himage
  have hrecovered := Store.image_recovered Numbers.options hmachine
  have hleases := congrArg Image.leases (hrecovered.symm.trans himage)
  -- The record does not pass its check when it is read back, so the lease is dropped.
  have hdropped : ([Entry.lease unknown_target_lease].foldl Image.effect
      (Store.fresh Numbers.options).image).leases = Table.empty := rfl
  have hkept : ((Store.recovered Numbers.options []).call
      (.commit_lease unknown_target_lease)).2.image.leases.rows = [unknown_target_lease] := rfl
  have hrows := congrArg Table.rows (hdropped.symm.trans hleases)
  exact absurd (hrows.trans hkept) (List.cons_ne_nil _ _).symm

end Session

end MaintenanceFabric
