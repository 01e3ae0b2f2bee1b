import MaintenanceFabric.Store.Reopening
import MaintenanceFabric.Store.Writes

/-! # Several jobs in one transaction

    `commit_jobs` installs the jobs one by one, remembers what each of them
    replaced, and writes one transaction.  If anything is refused it puts back
    what it has remembered, in the order in which it remembered it.  A job that
    occurs twice has been remembered twice, the second time as the first of the
    two left it, and that is what is put back last.  When all goes well the jobs
    are stored as their records read back, with nothing left of a string that is
    beyond its limit.
-/

namespace MaintenanceFabric

open Lib

/-! ## Strings -/

/-- The strings of a job are within the limits of its record. -/
structure MaintenanceJob.StringsFit (job : MaintenanceJob) : Prop where
  title : job.title.length ≤ limits.kMaxTitleLength
  reason : job.reason.length ≤ limits.kMaxReasonLength
  block_detail : job.block_detail.length ≤ limits.kMaxDetailLength
  last_detail : job.last_detail.length ≤ limits.kMaxDetailLength
  attempts : ∀ a ∈ job.attempts, a.detail.length ≤ limits.kMaxDetailLength
  history : ∀ e ∈ job.history, e.detail.length ≤ limits.kMaxDetailLength
  approved_by : job.approved_by.length ≤ limits.kMaxNameLength

theorem clip_eq_iff {max_length : Nat} {t : Text} :
    clip max_length t = t ↔ t.length ≤ max_length := by
  constructor
  · intro h
    have hle := clip_length_le max_length t
    rw [h] at hle
    exact hle
  · exact clip_of_le

theorem map_eq_self_iff {α : Type} {f : α → α} {l : List α} :
    l.map f = l ↔ ∀ a ∈ l, f a = a := by
  rw [← List.map_inj_left, List.map_id']

/-- A job reads back as it was written exactly when its strings are within their limits. -/
theorem clipped_job_eq_iff {job : MaintenanceJob} : clipped_job job = job ↔ job.StringsFit := by
  have hattempt : ∀ a : AttemptRecord,
      recorded_attempt a = a ↔ a.detail.length ≤ limits.kMaxDetailLength := by
    intro a
    rw [← clip_eq_iff]
    cases a
    simp [recorded_attempt]
  have hentry : ∀ e : HistoryEntry,
      recorded_entry e = e ↔ e.detail.length ≤ limits.kMaxDetailLength := by
    intro e
    rw [← clip_eq_iff]
    cases e
    simp [recorded_entry]
  constructor
  · intro h
    have hattempts := map_eq_self_iff.mp (congrArg MaintenanceJob.attempts h)
    have hhistory := map_eq_self_iff.mp (congrArg MaintenanceJob.history h)
    exact
      { title := clip_eq_iff.mp (congrArg MaintenanceJob.title h)
        reason := clip_eq_iff.mp (congrArg MaintenanceJob.reason h)
        block_detail := clip_eq_iff.mp (congrArg MaintenanceJob.block_detail h)
        last_detail := clip_eq_iff.mp (congrArg MaintenanceJob.last_detail h)
        attempts := fun a ha => (hattempt a).mp (hattempts a ha)
        history := fun e he => (hentry e).mp (hhistory e he)
        approved_by := clip_eq_iff.mp (congrArg MaintenanceJob.approved_by h) }
  · intro h
    unfold clipped_job
    rw [clip_of_le h.title, clip_of_le h.reason, clip_of_le h.block_detail,
      clip_of_le h.last_detail, clip_of_le h.approved_by,
      map_eq_self_iff.mpr (fun a ha => (hattempt a).mpr (h.attempts a ha)),
      map_eq_self_iff.mpr (fun e he => (hentry e).mpr (h.history e he))]

namespace Store

/-! ## What is put back -/

/-- The jobs that are tried, up to and including one that is stale and up to one that is missing. -/
def tried (table : JobTable) : List MaintenanceJob → List JobId
  | [] => []
  | job :: jobs =>
      match table.find job.id with
      | none => []
      | some _ =>
          match table.put job with
          | .error _ => [job.id]
          | .ok next => job.id :: tried next jobs

/-- What is remembered last under an identity is what was stored, or a later version of it if the
    identity has been tried before. -/
structure Remembers (table : JobTable) (jobs olds : List MaintenanceJob) : Prop where
  ids : olds.map MaintenanceJob.id = tried table jobs
  last : ∀ id o, olds.reverse.find? (fun o => decide (o.id = id)) = some o →
    ∃ stored, table.find id = some stored ∧
      (o = stored ∧ (tried table jobs).count id = 1 ∨
        stored.revision < o.revision ∧ 1 < (tried table jobs).count id)

theorem put_fresh {table next : JobTable} {job stored : MaintenanceJob}
    (hput : table.put job = .ok next) (hfind : table.find job.id = some stored) :
    stored.revision < job.revision ∧
      ∀ id, next.find id = if job.id = id then some job else table.find id := by
  have hnext := put_of_ok hput
  unfold JobTable.put at hput
  rw [hfind] at hput
  simp only at hput
  split at hput
  · cases hput
  · next hrevision =>
    refine ⟨?_, ?_⟩
    · have hnext : stored.revision < stored.revision.next :=
        StrongId.lt_iff.mpr (Nat.lt_succ_self _)
      rw [not_not.mp hrevision]
      exact hnext
    · intro id
      rw [hnext]
      unfold JobTable.find
      convert Table.find_put table.jobs job id

theorem Remembers.one {table : JobTable} {job stored : MaintenanceJob} {jobs : List MaintenanceJob}
    (hfind : table.find job.id = some stored) (htried : tried table (job :: jobs) = [job.id]) :
    Remembers table (job :: jobs) [stored] := by
  have hid : stored.id = job.id := Table.key_of_find hfind
  refine ⟨by simp [htried, hid], ?_⟩
  intro id o ho
  simp only [List.reverse_singleton, List.find?_singleton, decide_eq_true_eq] at ho
  split at ho
  · next hsame =>
    cases ho
    rw [← hsame, hid]
    exact ⟨stored, hfind, .inl ⟨rfl, by simp [htried]⟩⟩
  · cases ho

/-- A job has been put, and the rest of the list is tried on the table it leaves. -/
theorem Remembers.cons {table next : JobTable} {job stored : MaintenanceJob}
    {jobs olds : List MaintenanceJob} (hput : table.put job = .ok next)
    (hfind : table.find job.id = some stored) (h : Remembers next jobs olds) :
    Remembers table (job :: jobs) (stored :: olds) := by
  obtain ⟨hlater, hnext⟩ := put_fresh hput hfind
  have hid : stored.id = job.id := Table.key_of_find hfind
  have htried : tried table (job :: jobs) = job.id :: tried next jobs := by
    rw [tried]
    simp only [hfind, hput]
  refine ⟨by rw [List.map_cons, hid, h.ids, htried], ?_⟩
  intro id o ho
  rw [htried, List.count_cons]
  rw [List.reverse_cons, List.find?_append] at ho
  cases hlast : olds.reverse.find? (fun o => decide (o.id = id)) with
  | some o' =>
    -- The identity is tried again further on; what it finds there is this job or a later version.
    rw [hlast, Option.some_or] at ho
    cases ho
    obtain ⟨found, hfound, hcases⟩ := h.last id o hlast
    rw [hnext] at hfound
    by_cases hsame : job.id = id
    · rw [if_pos hsame] at hfound
      cases hfound
      refine ⟨stored, hsame ▸ hfind, .inr ⟨?_, ?_⟩⟩
      · rcases hcases with ⟨rfl, _⟩ | ⟨hrevision, _⟩
        · exact hlater
        · exact hlater.trans hrevision
      · rw [if_pos (by simpa using hsame)]
        rcases hcases with ⟨_, hone⟩ | ⟨_, hmore⟩
        · omega
        · omega
    · rw [if_neg hsame] at hfound
      rw [if_neg (by simpa using hsame), Nat.add_zero]
      exact ⟨found, hfound, hcases⟩
  | none =>
    rw [hlast, Option.none_or, List.find?_singleton] at ho
    split at ho
    · next hsame =>
      cases ho
      have hsame : job.id = id := by rw [← hid]; simpa using hsame
      have hnot : id ∉ tried next jobs := by
        rw [← h.ids]
        intro hmem
        obtain ⟨o, ho, hoid⟩ := List.mem_map.mp hmem
        have hno := List.find?_eq_none.mp hlast o (List.mem_reverse.mpr ho)
        simp [hoid] at hno
      refine ⟨stored, hsame ▸ hfind, .inl ⟨rfl, ?_⟩⟩
      rw [if_pos (by simpa using hsame), List.count_eq_zero.mpr hnot]
    · cases ho

/-- What `put_all` has remembered when it stops, or when it is through. -/
theorem put_all_remembers : ∀ {jobs : List MaintenanceJob} {table : JobTable}
    {previous remembered : List MaintenanceJob},
    ((∃ e, put_all table previous jobs = .error (e, remembered)) ∨
      ∃ table', put_all table previous jobs = .ok (table', remembered)) →
    ∃ olds, remembered = previous ++ olds ∧ Remembers table jobs olds
  | [], table, previous, remembered, h => by
      have hnone : Remembers table [] [] := ⟨rfl, fun _ _ ho => by cases ho⟩
      rcases h with ⟨e, h⟩ | ⟨table', h⟩
      · cases h
      · cases h
        exact ⟨[], by simp, hnone⟩
  | job :: jobs, table, previous, remembered, h => by
      unfold put_all at h
      cases hfind : table.find job.id with
      -- The first missing job ends the loop before anything is remembered of it.
      | none =>
        simp only [hfind] at h
        have hnone : Remembers table (job :: jobs) [] := by
          refine ⟨?_, fun _ _ ho => by cases ho⟩
          rw [tried]
          simp only [hfind, List.map_nil]
        rcases h with ⟨e, h⟩ | ⟨table', h⟩
        · cases h
          exact ⟨[], by simp, hnone⟩
        · cases h
      | some stored =>
        cases hput : table.put job with
        -- A refused put is remembered: the loop keeps the stored job before it tries.
        | error e' =>
          simp only [hfind, hput] at h
          have htried : tried table (job :: jobs) = [job.id] := by
            rw [tried]
            simp only [hfind, hput]
          rcases h with ⟨e, h⟩ | ⟨table', h⟩
          · cases h
            exact ⟨[stored], rfl, .one hfind htried⟩
          · cases h
        | ok next =>
          simp only [hfind, hput] at h
          obtain ⟨olds, rfl, hrest⟩ := put_all_remembers h
          exact ⟨stored :: olds, by simp, .cons hput hfind hrest⟩

/-- Everything is tried when nothing is refused. -/
theorem tried_all : ∀ {jobs : List MaintenanceJob} {table table' : JobTable}
    {previous previous' : List MaintenanceJob},
    put_all table previous jobs = .ok (table', previous') →
    tried table jobs = jobs.map MaintenanceJob.id ∧ table'.next_id = table.next_id
  | [], table, table', previous, previous', h => by
      cases h
      exact ⟨rfl, rfl⟩
  | job :: jobs, table, table', previous, previous', h => by
      unfold put_all at h
      cases hfind : table.find job.id with
      | none =>
        simp only [hfind] at h
        cases h
      | some stored =>
        cases hput : table.put job with
        | error e =>
          simp only [hfind, hput] at h
          cases h
        | ok next =>
          simp only [hfind, hput] at h
          obtain ⟨htried, hnext⟩ := tried_all h
          rw [put_of_ok hput] at hnext
          refine ⟨?_, hnext⟩
          rw [tried]
          simp only [hfind, hput, htried, List.map_cons]

/-- The rollback restores the table exactly when no identity has been tried twice. -/
theorem roll_back_iff {table : JobTable} {jobs olds : List MaintenanceJob}
    (h : Remembers table jobs olds) {reached : Table MaintenanceJob.id}
    (hreached : ∀ id, id ∉ tried table jobs → reached.find id = table.jobs.find id) :
    olds.foldl Table.put reached = table.jobs ↔ (tried table jobs).Nodup := by
  -- What is put back last stands, and the copies are put back in the order they were taken.
  have hfind : ∀ id, (olds.foldl Table.put reached).find id =
      (olds.reverse.find? (fun o => decide (o.id = id))).or (reached.find id) := by
    intro id
    convert Table.find_foldl_put olds reached id
  constructor
  -- Tried twice, the copy that is put back last is the job of the first try.
  · intro hrestored
    refine List.nodup_iff_count_le_one.mpr (fun id => ?_)
    by_contra hmore
    have hmem : id ∈ olds.map MaintenanceJob.id := by
      rw [h.ids]
      refine List.count_pos_iff.mp ?_
      omega
    obtain ⟨x, hx, hxid⟩ := List.mem_map.mp hmem
    cases hlast : olds.reverse.find? (fun o => decide (o.id = id)) with
    | none =>
      have hno := List.find?_eq_none.mp hlast x (List.mem_reverse.mpr hx)
      simp [hxid] at hno
    | some o =>
      obtain ⟨stored, hstored, hcases⟩ := h.last id o hlast
      have hback := hfind id
      rw [hrestored, hlast, Option.some_or,
        show table.jobs.find id = some stored from hstored] at hback
      rcases hcases with ⟨_, hone⟩ | ⟨hrevision, _⟩
      · omega
      · cases hback
        exact absurd hrevision (lt_irrefl _)
  -- Tried once, it is the job that was stored.
  · intro hnodup
    apply Table.ext_find
    intro id
    rw [hfind]
    cases hlast : olds.reverse.find? (fun o => decide (o.id = id)) with
    | some o =>
      obtain ⟨stored, hstored, hcases⟩ := h.last id o hlast
      have hone := List.nodup_iff_count_le_one.mp hnodup id
      rcases hcases with ⟨rfl, _⟩ | ⟨_, hmore⟩
      · exact hstored.symm
      · omega
    | none =>
      rw [Option.none_or]
      apply hreached
      rw [← h.ids]
      intro hmem
      obtain ⟨x, hx, hxid⟩ := List.mem_map.mp hmem
      have hno := List.find?_eq_none.mp hlast x (List.mem_reverse.mpr hx)
      simp [hxid] at hno

/-! ## The call -/

/-- The last job of a list under an identity. -/
def last_listed (jobs : List MaintenanceJob) (id : JobId) : Option MaintenanceJob :=
  jobs.reverse.find? (fun j => decide (j.id = id))

/-- After an error the table is as before; otherwise the last listed job of every identity is
    stored, the other jobs are unchanged, and one transaction has been written. -/
structure AllOrNothing (s : Store) (jobs : List MaintenanceJob) : Prop where
  refused : Status.isOk (s.commit_jobs jobs).1 = false →
    (s.commit_jobs jobs).2.state.jobs = s.state.jobs
  taken : Status.isOk (s.commit_jobs jobs).1 = true →
    (∀ id, (s.commit_jobs jobs).2.state.jobs.find id =
      (last_listed jobs id).or (s.state.jobs.find id)) ∧
    (s.commit_jobs jobs).2.log = s.log ++ [jobs.map Entry.job]

/-- Every job is there and one revision ahead at its turn, the journal takes the transaction, and
    its records can be applied. -/
def Takes (s : Store) (jobs : List MaintenanceJob) : Prop :=
  jobs ≠ [] ∧ (put_all s.state.jobs [] jobs).toOption.isSome = true ∧
    Status.isOk (s.append_and_flush (jobs.map Entry.job)).1 = true ∧
    ∀ j ∈ jobs, check_job_record j = .ok ()

theorem state_append_and_flush (s : Store) (entries : List Entry) :
    (s.append_and_flush entries).2.state = s.state := (s.quiet_append_and_flush entries).1

/-- How the call ends. -/
theorem commit_jobs_ends (s : Store) (jobs : List MaintenanceJob) :
    (s.Takes jobs ∧ Status.isOk (s.commit_jobs jobs).1 = true ∧
      (s.commit_jobs jobs).2.state.jobs.jobs =
        (jobs.map clipped_job).foldl Table.put s.state.jobs.jobs ∧
      (s.commit_jobs jobs).2.log = s.log ++ [jobs.map Entry.job]) ∨
    (¬ s.Takes jobs ∧ Status.isOk (s.commit_jobs jobs).1 = false ∧
      ((s.commit_jobs jobs).2.state.jobs = s.state.jobs ↔ (tried s.state.jobs jobs).Nodup)) := by
  have hjobs : ∀ t : Table MaintenanceJob.id,
      ({ s.state.jobs with jobs := t } : JobTable) = s.state.jobs ↔ t = s.state.jobs.jobs := by
    intro t
    constructor
    · intro h
      exact congrArg JobTable.jobs h
    · intro h
      rw [h]
  unfold Takes
  have happend := s.state_append_and_flush (jobs.map Entry.job)
  have hlog := @Store.append_and_flush_ok s
  unfold commit_jobs
  by_cases hnone : jobs.isEmpty = true
  · rw [if_pos hnone]
    have hnil : jobs = [] := by simpa using hnone
    refine .inr ⟨fun h => h.1 hnil, rfl, ?_⟩
    rw [hnil]
    exact ⟨fun _ => List.nodup_nil, fun _ => rfl⟩
  · rw [if_neg hnone]
    have hne : jobs ≠ [] := by simpa using hnone
    cases hput : put_all s.state.jobs [] jobs with
    | error r =>
      -- A job is missing or stale: the table has not got past it.
      obtain ⟨e, previous⟩ := r
      obtain ⟨olds, hprevious, hremembers⟩ := put_all_remembers (.inl ⟨e, hput⟩)
      rw [List.nil_append] at hprevious
      refine .inr ⟨fun h => absurd h.2.1 Bool.false_ne_true, rfl, ?_⟩
      rw [hprevious]
      exact (hjobs _).trans (roll_back_iff hremembers (fun _ _ => rfl))
    | ok r =>
      obtain ⟨table, previous⟩ := r
      obtain ⟨olds, hprevious, hremembers⟩ := put_all_remembers (.inr ⟨table, hput⟩)
      obtain ⟨htable, _, _⟩ := put_all_ok hput
      obtain ⟨htried, hnext⟩ := tried_all hput
      rw [List.nil_append] at hprevious
      have hback : (s.with_jobs (roll_back table previous)).state.jobs = s.state.jobs ↔
          (tried s.state.jobs jobs).Nodup := by
        have hroll : roll_back table previous =
            { s.state.jobs with jobs := olds.foldl Table.put table.jobs } := by
          rw [hprevious]
          unfold roll_back
          rw [hnext]
        show roll_back table previous = s.state.jobs ↔ _
        rw [hroll]
        refine (hjobs _).trans (roll_back_iff hremembers ?_)
        intro id hid
        rw [htable]
        rcases Table.find_foldl_put_cases jobs s.state.jobs.jobs id
          with ⟨j, hj, rfl, _⟩ | ⟨_, hkeep⟩
        · rw [htried] at hid
          exact absurd (List.mem_map_of_mem hj) hid
        · exact hkeep
      simp only
      generalize hout : s.append_and_flush (jobs.map Entry.job) = out at happend
      obtain ⟨result, s'⟩ := out
      cases result with
      | error e => exact .inr ⟨fun h => absurd h.2.2.1 Bool.false_ne_true, rfl, hback⟩
      | ok _ =>
        cases himages : recorded_jobs jobs with
        | error e =>
          refine .inr ⟨?_, rfl, hback⟩
          rintro ⟨_, _, _, hchecks⟩
          rw [recorded_jobs_of_check hchecks] at himages
          cases himages
        | ok images =>
          obtain ⟨rfl, hchecks⟩ := recorded_jobs_ok himages
          refine .inl ⟨⟨hne, rfl, rfl, hchecks⟩, rfl, ?_, (hlog hout).2.1⟩
          show (jobs.map clipped_job).foldl Table.put table.jobs = _
          rw [htable]
          exact put_images jobs s.state.jobs.jobs

/-- When a call has gone through, what is stored is what the records read back as. -/
theorem find_taken {s : Store} {jobs : List MaintenanceJob}
    (hstate : (s.commit_jobs jobs).2.state.jobs.jobs =
      (jobs.map clipped_job).foldl Table.put s.state.jobs.jobs) (id : JobId) :
    (s.commit_jobs jobs).2.state.jobs.find id =
      ((last_listed jobs id).map clipped_job).or (s.state.jobs.find id) := by
  unfold JobTable.find last_listed
  rw [hstate, Table.find_foldl_put, ← List.map_reverse, List.find?_map]
  congr 2
  convert rfl
  exact decide_eq_decide.mpr Iff.rfl

/-- What the call must not run into: a job that is stored with strings beyond their limits when it
    goes through, and an identity that has been tried twice when it does not. -/
structure CommitsCleanly (s : Store) (jobs : List MaintenanceJob) : Prop where
  strings : s.Takes jobs → ∀ id, ∀ j ∈ last_listed jobs id, j.StringsFit
  tried : ¬ s.Takes jobs → (tried s.state.jobs jobs).Nodup

/-- A call that goes through must not list a job with a string beyond its limit, one that does not
    must not have tried an identity twice. -/
theorem commit_jobs_all_or_nothing_iff (s : Store) (jobs : List MaintenanceJob) :
    s.AllOrNothing jobs ↔ s.CommitsCleanly jobs := by
  rcases s.commit_jobs_ends jobs with ⟨htakes, hok, hstate, hlog⟩ | ⟨hfails, hno, hback⟩
  · have hfind := find_taken hstate
    constructor
    · intro h
      refine ⟨fun _ id j hj => ?_, fun hfails => absurd htakes hfails⟩
      -- The job is stored as it was listed, and also as its record reads back.
      have hstored := (h.taken hok).1 id
      rw [hfind, Option.mem_def.mp hj] at hstored
      exact clipped_job_eq_iff.mp (Option.some.inj hstored)
    · intro h
      refine ⟨fun hno => ?_, fun _ => ⟨fun id => ?_, hlog⟩⟩
      · rw [hok] at hno
        cases hno
      · rw [hfind]
        cases hlast : last_listed jobs id with
        | none => rfl
        | some j =>
          have hfits := h.strings htakes id j hlast
          rw [Option.map_some, clipped_job_eq_iff.mpr hfits]
  · constructor
    · intro h
      exact ⟨fun htakes => absurd htakes hfails, fun _ => hback.mp (h.refused hno)⟩
    · intro h
      refine ⟨fun _ => hback.mpr (h.tried hfails), ?_⟩
      intro hok
      rw [hno] at hok
      cases hok

/-- A table of one job. -/
def lone : Store :=
  { state := { jobs := { jobs := Table.empty.put { id := ⟨1⟩, revision := ⟨1⟩ } } } }

/-- The second version of the job, listed twice: the second of them is stale, and the first
    stays. -/
theorem repeated_job_is_kept :
    ¬ lone.AllOrNothing [{ id := ⟨1⟩, revision := ⟨2⟩ }, { id := ⟨1⟩, revision := ⟨2⟩ }] := by
  rw [commit_jobs_all_or_nothing_iff]
  intro h
  have hfails : ¬ lone.Takes [{ id := ⟨1⟩, revision := ⟨2⟩ }, { id := ⟨1⟩, revision := ⟨2⟩ }] := by
    intro htakes
    have hput := htakes.2.1
    revert hput
    decide +kernel
  have hnodup := h.tried hfails
  revert hnodup
  decide +kernel

end Store

end MaintenanceFabric
