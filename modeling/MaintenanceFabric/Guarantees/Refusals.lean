import MaintenanceFabric.Guarantees.Identities
import MaintenanceFabric.Store.Continuation
import MaintenanceFabric.Store.Writes

/-! # Calls that return an error

    The structural calls write one record, sync it, and only then change
    memory.  An error before the record is written leaves no trace.  An error
    of the sync leaves the record in the file.
-/

namespace MaintenanceFabric

open Lib Journal

namespace Store

/-! ## In memory -/

/-- The structural call returns an error. -/
def fails (s : Store) : StoreCall → Prop
  | .create_job job => ∃ e, (s.create_job job).1 = .error e
  | .commit_job job => ∃ e, (s.commit_job job).1 = .error e
  | .commit_job_erased id => ∃ e, (s.commit_job_erased id).1 = .error e
  | .commit_topology t => ∃ e, (s.commit_topology t).1 = .error e
  | .commit_policy p => ∃ e, (s.commit_policy p).1 = .error e
  | _ => False

/-- The record a structural call asks the journal to write, if nothing refuses the call before. -/
def stages (s : Store) : StoreCall → Option Entry
  | .create_job job =>
      let job := { job with id := s.state.jobs.next_id, revision := ⟨1⟩ }
      if s.state.jobs.jobs.size ≥ limits.kMaxJobsTotal then none
      else
        match { s.state.jobs with next_id := s.state.jobs.next_id.next }.insert job with
        | .error _ => none
        | .ok _ => some (.job job)
  | .commit_job job =>
      match s.state.jobs.put job with
      | .error _ => none
      | .ok _ => some (.job job)
  | .commit_job_erased id =>
      match s.state.jobs.find id with
      | none => none
      | some _ => some (.job_erased id)
  | .commit_topology t =>
      match t.validate with
      | .error _ => none
      | .ok _ => some (.topology t)
  | .commit_policy p =>
      match p.validate with
      | .error _ => none
      | .ok _ => some (.policy p)
  | _ => none

/-- The journal takes the record and then fails to sync. -/
def syncs_late (s : Store) (e : Entry) : Prop :=
  admit_transaction [e] = .ok () ∧ ∃ fault rest, s.verdicts = none :: some fault :: rest

/-- A step that left memory alone, and wrote nothing, or one record that was not synced or has no
    effect. -/
def Unchanged (s s' : Store) (staged : Option Entry) : Prop :=
  s'.image = s.image ∧
    ((s'.log = s.log ∧ ∀ e, staged = some e → ¬ s.syncs_late e) ∨
      ∃ e, staged = some e ∧ s'.log = s.log ++ [[e]] ∧
        (s.syncs_late e ∨ ∀ i : Image, i.effect e = i))

theorem Unchanged.refused {s s' : Store} (himage : s'.image = s.image) (hlog : s'.log = s.log) :
    Unchanged s s' none :=
  ⟨himage, .inl ⟨hlog, by simp⟩⟩

theorem append_and_flush_failed {s s' : Store} {e : Entry} {error : Error}
    (h : s.append_and_flush [e] = (.error error, s')) : Unchanged s s' (some e) := by
  -- The record is not written when the journal does not admit it, or answers with a fault.
  have hunwritten : s'.image = s.image → s'.log = s.log → ¬ s.syncs_late e →
      Unchanged s s' (some e) := by
    intro himage hlog hlate
    refine ⟨himage, .inl ⟨hlog, ?_⟩⟩
    intro e' he'
    cases he'
    exact hlate
  unfold append_and_flush at h
  split at h
  · next hcheck =>
    cases h
    apply hunwritten rfl rfl
    rintro ⟨hadm, -⟩
    simp only [admit_transaction, Result.bind_eq_ok] at hadm
    obtain ⟨_, _, _, _, _, hentries, _⟩ := hadm
    rw [hcheck] at hentries
    cases hentries
  · split at h
    · next happend =>
      cases h
      unfold append_transaction next_verdict at happend
      split at happend
      · next hadm =>
        cases happend
        apply hunwritten rfl rfl
        rintro ⟨hadm', -⟩
        rw [hadm] at hadm'
        cases hadm'
      · split at happend
        · cases happend
        · next hverdict =>
          split at hverdict
          · cases hverdict
          · next hcons =>
            cases hverdict
            cases happend
            apply hunwritten rfl rfl
            rintro ⟨-, fault, rest, hlate⟩
            rw [hcons] at hlate
            cases hlate
    · next happend =>
      have hadm := (append_transaction_ok happend).1
      unfold append_transaction next_verdict at happend
      rw [hadm] at happend
      simp only at happend
      unfold flush next_verdict at h
      split at happend
      · next hverdict =>
        split at hverdict
        · next hnil =>
          cases hverdict
          cases happend
          rw [hnil] at h
          cases h
        · next hcons =>
          cases hverdict
          cases happend
          split at h
          · cases h
          · next hflush =>
            split at hflush
            · cases hflush
            · next hrest =>
              cases hflush
              cases h
              simp only at hrest
              rw [hrest] at hcons
              exact ⟨rfl, .inr ⟨e, rfl, rfl, .inl ⟨hadm, _, _, hcons⟩⟩⟩
      · cases happend

theorem image_append_and_flush {s s' : Store} {entries : List Entry} {r : Status}
    (h : s.append_and_flush entries = (r, s')) : s'.image = s.image := by
  have hverdict : ∀ x : Store, x.next_verdict.2.image = x.image := by
    intro x
    unfold next_verdict
    split <;> rfl
  have happend : (s.append_transaction entries).2.image = s.image := by
    have hv := hverdict s
    unfold append_transaction
    split
    · rfl
    · split
      · next heq =>
        rw [heq] at hv
        exact hv
      · next heq =>
        rw [heq] at hv
        exact hv
  unfold append_and_flush at h
  split at h
  · cases h
    rfl
  · split at h
    · next heq =>
      cases h
      rw [heq] at happend
      exact happend
    · next s1 heq =>
      rw [heq] at happend
      have hv := hverdict s1
      unfold flush at h
      split at h
      · next hflush =>
        cases h
        rw [hflush] at hv
        exact hv.trans happend
      · next hflush =>
        cases h
        rw [hflush] at hv
        exact hv.trans happend

/-- A record that was written and synced, but that does not decode. -/
theorem append_and_flush_undecoded {s s' : Store} {e : Entry} {u : Unit}
    (h : s.append_and_flush [e] = (.ok u, s')) (he : ∀ i : Image, i.effect e = i) :
    Unchanged s s' (some e) :=
  ⟨image_append_and_flush h, .inr ⟨e, rfl, (append_and_flush_ok h).2.1, .inr he⟩⟩

theorem failed_commit_topology {s : Store} {t : Topology} (h : s.fails (.commit_topology t)) :
    Unchanged s (s.call (.commit_topology t)).2 (s.stages (.commit_topology t)) := by
  obtain ⟨error, herror⟩ := h
  simp only [stages, call]
  unfold commit_topology at herror ⊢
  cases hvalid : t.validate with
  | error e => exact .refused rfl rfl
  | ok _ =>
    simp only [hvalid] at herror ⊢
    rcases hw : s.append_and_flush [.topology t] with ⟨e | _, s'⟩
    · exact append_and_flush_failed hw
    · rw [hw] at herror
      simp only at herror ⊢
      cases hr : recorded_topology t with
      | error e => exact append_and_flush_undecoded hw (fun i => by simp only [Image.effect, hr])
      | ok image =>
        rw [hr] at herror
        cases herror

theorem failed_commit_policy {s : Store} {p : Policy} (h : s.fails (.commit_policy p)) :
    Unchanged s (s.call (.commit_policy p)).2 (s.stages (.commit_policy p)) := by
  obtain ⟨error, herror⟩ := h
  simp only [stages, call]
  unfold commit_policy at herror ⊢
  cases hvalid : p.validate with
  | error e => exact .refused rfl rfl
  | ok _ =>
    simp only [hvalid] at herror ⊢
    rcases hw : s.append_and_flush [.policy p] with ⟨e | _, s'⟩
    · exact append_and_flush_failed hw
    · rw [hw] at herror
      simp only at herror ⊢
      cases hr : recorded_policy p with
      | error e => exact append_and_flush_undecoded hw (fun i => by simp only [Image.effect, hr])
      | ok image =>
        rw [hr] at herror
        cases herror

theorem failed_commit_job {s : Store} {job : MaintenanceJob} (h : s.fails (.commit_job job)) :
    Unchanged s (s.call (.commit_job job)).2 (s.stages (.commit_job job)) := by
  obtain ⟨error, herror⟩ := h
  simp only [stages, call]
  unfold commit_job at herror ⊢
  cases hput : s.state.jobs.put job with
  | error e => exact .refused rfl rfl
  | ok _ =>
    simp only [hput] at herror ⊢
    rcases hw : s.append_and_flush [.job job] with ⟨e | _, s'⟩
    · exact append_and_flush_failed hw
    · rw [hw] at herror
      simp only at herror ⊢
      cases hr : recorded_job job with
      | error e => exact append_and_flush_undecoded hw (fun i => by simp only [Image.effect, hr])
      | ok image =>
        rw [hr] at herror
        cases herror

theorem failed_commit_job_erased {s : Store} {id : JobId} (h : s.fails (.commit_job_erased id)) :
    Unchanged s (s.call (.commit_job_erased id)).2 (s.stages (.commit_job_erased id)) := by
  obtain ⟨error, herror⟩ := h
  simp only [stages, call]
  unfold commit_job_erased at herror ⊢
  cases hfind : s.state.jobs.find id with
  | none => exact .refused rfl rfl
  | some _ =>
    simp only [hfind] at herror ⊢
    rcases hw : s.append_and_flush [.job_erased id] with ⟨e | _, s'⟩
    · exact append_and_flush_failed hw
    · rw [hw] at herror
      simp only at herror ⊢
      by_cases hid : id.valid = true
      · rw [if_pos hid] at herror
        cases herror
      · rw [if_neg hid]
        exact append_and_flush_undecoded hw (fun i => by simp only [Image.effect, hid]; rfl)

/-- The identity is spent, which no record shows. -/
theorem failed_create_job {s : Store} {job : MaintenanceJob} (h : s.fails (.create_job job)) :
    Unchanged s (s.call (.create_job job)).2 (s.stages (.create_job job)) := by
  obtain ⟨error, herror⟩ := h
  simp only [stages, call]
  unfold create_job at herror ⊢
  by_cases hfull : s.state.jobs.jobs.size ≥ limits.kMaxJobsTotal
  · rw [if_pos hfull, if_pos hfull]
    exact .refused rfl rfl
  · rw [if_neg hfull] at herror
    rw [if_neg hfull, if_neg hfull]
    simp only at herror ⊢
    generalize hstaged : { job with id := s.state.jobs.next_id, revision := ⟨1⟩ } = staged
      at herror ⊢
    simp only [with_jobs] at herror ⊢
    cases hinsert : JobTable.insert
        { s.state.jobs with next_id := s.state.jobs.next_id.next } staged with
    | error e =>
      exact .refused rfl rfl
    | ok _ =>
      simp only [hinsert] at herror ⊢
      generalize hmoved : ({ s with state := { s.state with
        jobs := { s.state.jobs with next_id := s.state.jobs.next_id.next } } } : Store) = moved
        at herror ⊢
      -- The counter has moved by then, and nothing moves it back.
      have hsame : ∀ {x : Store}, Unchanged moved x (some (.job staged)) →
          Unchanged s x (some (.job staged)) := by
        intro x hx
        rw [← hmoved] at hx
        exact hx
      rcases hw : moved.append_and_flush [.job staged] with ⟨e | _, s'⟩
      · exact hsame (append_and_flush_failed hw)
      · rw [hw] at herror
        simp only at herror ⊢
        cases hr : recorded_job staged with
        | error e =>
          exact hsame (append_and_flush_undecoded hw (fun i => by simp only [Image.effect, hr]))
        | ok image =>
          rw [hr] at herror
          cases herror

theorem failed_call {s : Store} {c : StoreCall} (h : s.fails c) :
    Unchanged s (s.call c).2 (s.stages c) := by
  cases c with
  | create_job job => exact failed_create_job h
  | commit_job job => exact failed_commit_job h
  | commit_job_erased id => exact failed_commit_job_erased h
  | commit_topology t => exact failed_commit_topology h
  | commit_policy p => exact failed_commit_policy h
  | begin_incarnation controller nonce steady => cases h
  | allocate_evidence_id => cases h
  | quarantine_target target job generation reason detail now created_by => cases h
  | commit_jobs jobs => cases h
  | observe_evidence evidence digest => cases h
  | reserve_authority r => cases h
  | insert_authority r digest => cases h
  | release_authority id current => cases h
  | renew_authority id attempt current extend now => cases h
  | expire_authority now => cases h
  | fence_authority current => cases h
  | commit_lease lease => cases h
  | commit_lease_erased id => cases h
  | commit_quarantine record digest => cases h
  | flush => cases h

end Store

/-! ## On disk -/

namespace Session

/-- The session is one that some events lead to. -/
def Reached (s : Session) : Prop :=
  ∃ options disk start events, Opens options disk start ∧ s = start.run events

/-- The record of the call is in the file although the call failed: it was written and not synced,
    it is the next one that a reader expects, and it means something on top of what the reader
    found before. -/
def leaves_record (s : Session) (verdicts : List (Option JournalFault)) (c : StoreCall)
    (reader : StoreOptions) (found : Image) : Prop :=
  ∃ e, Store.stages { s.store with verdicts, log := [] } c = some e ∧
    Store.syncs_late { s.store with verdicts, log := [] } e ∧
    s.journal.Continues reader.journal ∧ found.effect e ≠ found

/-- A structural call that returns an error leaves memory as it was, and it leaves what a reader
    finds in the file as it was exactly when it does not leave its record behind. -/
theorem failed_call_changes_nothing_iff {s : Session} (hreached : s.Reached)
    {verdicts : List (Option JournalFault)} {c : StoreCall}
    (hfails : Store.fails { s.store with verdicts, log := [] } c)
    (hfits : ∀ e ∈ (s.called verdicts c).2.log.flatten, e.machine)
    (hroom : ∃ journal,
      appends s.journal ((s.called verdicts c).2.log.map transaction_call) = .ok journal)
    {reader : StoreOptions} {before : Journal × Store}
    (hbefore : Store.open reader (some s.journal.file) = .ok before) :
    ((s.step (.call verdicts c)).store.image = s.store.image ∧
      ∃ after, Store.open reader (some (s.step (.call verdicts c)).journal.file) = .ok after ∧
        after.2.image = before.2.image) ↔
      ¬ s.leaves_record verdicts c reader before.2.image := by
  obtain ⟨_, _, start, events, hopen, rfl⟩ := hreached
  obtain ⟨header, good, tail, next, visited, hcut⟩ := standing_run hopen events
  generalize start.run events = s at hcut hfails hfits hroom hbefore ⊢
  obtain ⟨journal, happ⟩ := hroom
  have hstep : s.step (.call verdicts c) =
      { journal, store := (s.called verdicts c).2
        issued := s.issued ++ (s.called verdicts c).1 } := by
    unfold step
    simp only [happ]
  obtain ⟨himage, hlog⟩ : Store.Unchanged { s.store with verdicts, log := [] }
      (s.called verdicts c).2 _ := Store.failed_call hfails
  have hmemory : (s.step (.call verdicts c)).store.image = s.store.image := by
    rw [hstep]
    exact himage
  -- What the reader finds is the records in front of the tail.
  rw [Store.open_eq] at hbefore
  obtain ⟨⟨j, stats, records⟩, hreopen, hfound⟩ := Result.bind_eq_ok.mp hbefore
  cases hfound
  obtain ⟨rfl, -, -⟩ := hcut.reopened hreopen
  have hcontinues := hcut.continues_iff hreopen
  have hafter : ∀ {good' tail' : Text} {next' : UInt64} {visited' : List Record},
      journal.Cut header good' tail' next' visited' →
      ∃ j', Store.open reader (some journal.file) = .ok (j', Store.recovered reader visited') := by
    intro good' tail' next' visited' hcut'
    obtain ⟨j', stats', hreopen'⟩ := hcut.opens hcut' hreopen
    exact ⟨j', by rw [Store.open_eq, hreopen']; rfl⟩
  rcases hlog with ⟨hsame, hlate⟩ | ⟨e, hstaged, hwrote, hwhy⟩
  · -- Nothing was written, and the journal is the one from before.
    have hnothing : (s.called verdicts c).2.log = [] := hsame
    rw [hnothing] at happ
    cases happ
    constructor
    · rintro - ⟨e, hstaged, hlate', -, -⟩
      exact hlate e hstaged hlate'
    · intro _
      refine ⟨hmemory, _, ?_, rfl⟩
      rw [hstep, Store.open_eq]
      exact hbefore
  · have hone : (s.called verdicts c).2.log = [[e]] := hwrote
    have he : e.machine := hfits e (by rw [hone]; simp)
    rw [hone] at happ
    rw [hstep]
    rcases hcut.appended happ with ⟨htail, hseq, hcut'⟩ | ⟨hastray, hcut'⟩
    · -- The record is the next one that a reader gets.
      obtain ⟨j', hopen'⟩ := hafter hcut'
      have himage' : (Store.recovered reader
          (records ++ [transaction_call [e]].flatMap AppendCall.committed)).image =
          (Store.recovered reader records).image.effect e :=
        Store.image_recovered_append reader records he
      constructor
      · rintro ⟨-, after, hopen'', hsame⟩ ⟨e', hstaged', -, -, hne⟩
        rw [hstaged] at hstaged'
        cases hstaged'
        rw [hopen'] at hopen''
        cases hopen''
        exact hne (himage'.symm.trans hsame)
      · intro hleaves
        refine ⟨himage, _, hopen', himage'.trans ?_⟩
        rcases hwhy with hlate | hnone
        · by_contra hne
          exact hleaves ⟨e, hstaged, hlate, hcontinues.mpr ⟨htail, hseq⟩, hne⟩
        · exact hnone _
    · -- A reader does not get as far as the record.
      obtain ⟨j', hopen'⟩ := hafter hcut'
      constructor
      · rintro - ⟨e', -, -, hcont, -⟩
        exact hastray.not_continued (hcontinues.mp hcont)
      · intro _
        exact ⟨himage, _, hopen', rfl⟩

/-! ### A sync that fails -/

/-- Replacing a job that is not there is refused, and leaves nothing behind. -/
theorem missing_job_leaves_nothing :
    (Numbers.start.step (.call [] (.commit_job Numbers.first))).store.image =
        Numbers.start.store.image ∧
      ∃ after, Store.open Numbers.options
          (some (Numbers.start.step (.call [] (.commit_job Numbers.first))).journal.file) =
            .ok after ∧
        after.2.image = (Store.recovered Numbers.options []).image := by
  have hbefore : Store.open Numbers.options (some Numbers.start.journal.file) =
      .ok (holding Numbers.options.journal [], Store.recovered Numbers.options []) :=
    @Store.open_file_of Numbers.options (by decide) [] (by simp)
  have hfails : Store.fails { Numbers.start.store with verdicts := [], log := [] }
      (.commit_job Numbers.first) := ⟨_, rfl⟩
  have hreached : Numbers.start.Reached := ⟨_, _, _, [], Numbers.start_opens, rfl⟩
  refine (failed_call_changes_nothing_iff hreached hfails ?_ ?_ hbefore).mpr ?_
  · intro e he
    cases he
  · exact ⟨_, rfl⟩
  · rintro ⟨e, hstaged, -⟩
    cases hstaged

/-- The journal takes the record of the new job and fails to sync. -/
def late_fault : List (Option JournalFault) := [none, some .io]

/-- The caller is told that the job was not created. Memory has no job, the file has. -/
theorem failed_create_leaves_job : Numbers.start.Reached ∧
    Store.fails { Numbers.start.store with verdicts := late_fault, log := [] }
      (.create_job Numbers.request) ∧
    ¬ ∃ after, Store.open Numbers.options (some (Numbers.start.step
        (.call late_fault (.create_job Numbers.request))).journal.file) = .ok after ∧
      after.2.image = (Store.recovered Numbers.options []).image := by
  refine ⟨⟨_, _, _, [], Numbers.start_opens, rfl⟩, ⟨_, rfl⟩, ?_⟩
  have hstep : Numbers.start.step (.call late_fault (.create_job Numbers.request)) =
      on Numbers.options.journal [[.job Numbers.first]]
        ({ Store.recovered Numbers.options [] with verdicts := late_fault }.call
          (.create_job Numbers.request)).2 [] :=
    step_call_on rfl rfl Numbers.create_admitted (by decide) (by decide)
  have hopen : Store.open Numbers.options (some (Numbers.start.step
      (.call late_fault (.create_job Numbers.request))).journal.file) = .ok
        (holding Numbers.options.journal ([[Entry.job Numbers.first]].map transaction_call),
          Store.recovered Numbers.options ([Entry.job Numbers.first].map Entry.record)) := by
    rw [hstep]
    exact @Store.open_file_of Numbers.options (by decide) [[.job Numbers.first]]
      Numbers.create_admitted
  rintro ⟨after, hafter, hsame⟩
  rw [hopen] at hafter
  have hfound := congrArg Prod.snd (Except.ok.inj hafter)
  rw [← hfound, Store.image_recovered _ Numbers.create_machine] at hsame
  have hrows := congrArg (fun i => i.jobs.rows) hsame
  have hthere : ([Entry.job Numbers.first].foldl Image.effect
      (Store.fresh Numbers.options).image).jobs.rows = [clipped_job Numbers.first] := rfl
  have hnone : (Store.recovered Numbers.options []).image.jobs.rows = [] := rfl
  exact absurd (hthere.symm.trans (hrows.trans hnone)) (List.cons_ne_nil _ _)

end Session

end MaintenanceFabric
