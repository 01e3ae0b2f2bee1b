import MaintenanceFabric.Engine.Arbitration

/-! # The work lists of a tick

    The scheduler sorts the job table into work lists, and a pass puts five of
    them together again, drops what comes twice, and drives the jobs in the
    order of their ids.  All of that comes to one filter of the table: the
    lists overlap only in jobs that appear under two headings, and the final
    sort forgets the headings.
-/

namespace MaintenanceFabric

open Lib

/-- May a job in this state hold authority or a drain lease? -/
def JobState.holds_resources : JobState → Bool
  | .Prerequisites | .Ready | .InMaintenance | .Verifying | .Restoring | .Blocked => true
  | .Proposed | .Validated | .Complete | .Cancelled | .Failed => false

structure SchedulerSelection where
  validated : List JobId := []
  runnable : List JobId := []
  in_maintenance : List JobId := []
  verifying : List JobId := []
  restoring : List JobId := []
  overrun : List JobId := []
  expiring : List JobId := []
  blocked : List JobId := []
  renewal_margin : Nanos := 0
  digest : UInt64 := 0

namespace Scheduler

/-- Has the window of a running job closed? -/
def window_passed (job : MaintenanceJob) (now : Nanos) : Bool :=
  decide (job.window_closes_at > 0) && decide (now ≥ job.window_closes_at)

def sort_state (now : Nanos) (s : SchedulerSelection) (job : MaintenanceJob) : SchedulerSelection :=
  match job.state with
  | .Validated =>
      { s with validated := s.validated ++ [job.id], runnable := s.runnable ++ [job.id] }
  | .Prerequisites | .Ready => { s with runnable := s.runnable ++ [job.id] }
  | .Blocked => { s with blocked := s.blocked ++ [job.id], runnable := s.runnable ++ [job.id] }
  | .InMaintenance =>
      { s with
        in_maintenance := s.in_maintenance ++ [job.id]
        overrun := if window_passed job now then s.overrun ++ [job.id] else s.overrun }
  | .Verifying => { s with verifying := s.verifying ++ [job.id] }
  | .Restoring => { s with restoring := s.restoring ++ [job.id] }
  | .Proposed | .Complete | .Cancelled | .Failed => s

/-- Does the job hold something that runs out? -/
def may_expire (job : MaintenanceJob) : Bool :=
  job.state.holds_resources && (job.authority.valid || job.lease.valid)

/-- One job of the table. -/
def classify (now : Nanos) (s : SchedulerSelection) (job : MaintenanceJob) : SchedulerSelection :=
  let s := sort_state now s job
  if may_expire job then { s with expiring := s.expiring ++ [job.id] } else s

def digest_list (tag : Text) (list : List JobId) (d : Digest) : Digest :=
  list.foldl (fun d id => d.update_u64 id.value) ((d.update tag).update_u64 list.length)

def selection_digest (now : Nanos) (s : SchedulerSelection) : UInt64 :=
  let d := (({} : Digest).update (text "mf.scheduler.v1")).update_i64 now
  let d := digest_list (text "r") s.runnable (digest_list (text "a") s.validated d)
  let d := digest_list (text "v") s.verifying (digest_list (text "m") s.in_maintenance d)
  let d := digest_list (text "o") s.overrun (digest_list (text "s") s.restoring d)
  (digest_list (text "b") s.blocked (digest_list (text "e") s.expiring d)).value

def plan_tick (jobs : JobTable) (policy : Policy) (now : Nanos) : SchedulerSelection :=
  let s := jobs.jobs.rows.foldl (classify now) { renewal_margin := renewal_margin policy }
  let s : SchedulerSelection :=
    { s with
      validated := sorted_unique s.validated, runnable := sorted_unique s.runnable
      in_maintenance := sorted_unique s.in_maintenance, verifying := sorted_unique s.verifying
      restoring := sorted_unique s.restoring, overrun := sorted_unique s.overrun
      expiring := sorted_unique s.expiring, blocked := sorted_unique s.blocked }
  { s with digest := selection_digest now s }

/-- The order in which a pass drives the selected jobs. -/
def drive_order (s : SchedulerSelection) : List JobId :=
  let order := push_all_unique [] s.validated
  let order := push_all_unique (push_all_unique order s.restoring) s.verifying
  sort (push_all_unique (push_all_unique order s.in_maintenance) s.runnable)

/-! ## What the lists hold -/

/-- The states of the runnable list. -/
def may_advance : JobState → Bool
  | .Validated | .Prerequisites | .Ready | .Blocked => true
  | _ => false

/-- The jobs of a list of rows that meet a condition, by their ids. -/
def ids (p : MaintenanceJob → Bool) (rows : List MaintenanceJob) : List JobId :=
  (rows.filter p).map MaintenanceJob.id

theorem ids_cons (p : MaintenanceJob → Bool) (job : MaintenanceJob) (rows : List MaintenanceJob) :
    ids p (job :: rows) = (if p job then [job.id] else []) ++ ids p rows := by
  unfold ids
  by_cases hp : p job = true
  · simp [hp]
  · simp [hp]

/-- Every list collects the jobs that belong to it, in the order of the table. -/
theorem foldl_classify (now : Nanos) (rows : List MaintenanceJob) (s : SchedulerSelection) :
    rows.foldl (classify now) s =
      { s with
        validated := s.validated ++ ids (fun j => j.state = .Validated) rows
        runnable := s.runnable ++ ids (fun j => may_advance j.state) rows
        in_maintenance := s.in_maintenance ++ ids (fun j => j.state = .InMaintenance) rows
        verifying := s.verifying ++ ids (fun j => j.state = .Verifying) rows
        restoring := s.restoring ++ ids (fun j => j.state = .Restoring) rows
        overrun := s.overrun ++
          ids (fun j => decide (j.state = .InMaintenance) && window_passed j now) rows
        expiring := s.expiring ++ ids may_expire rows
        blocked := s.blocked ++ ids (fun j => j.state = .Blocked) rows } := by
  induction rows generalizing s with
  | nil => simp [ids]
  | cons job rows ih =>
    rw [List.foldl_cons, ih]
    simp only [ids_cons]
    unfold classify sort_state
    -- One row at a time: its state, its leases and its window decide which lists it joins.
    cases hstate : job.state <;> cases hexpire : may_expire job <;>
      cases hwindow : window_passed job now <;> simp [may_advance, List.append_assoc]

/-- The list holds the ids of the jobs that meet a condition, ascending and once each. -/
def Collects (jobs : JobTable) (p : MaintenanceJob → Bool) (list : List JobId) : Prop :=
  list.Pairwise (· < ·) ∧ ∀ id, id ∈ list ↔ ∃ j, jobs.find id = some j ∧ p j = true

theorem collects_ids (jobs : JobTable) (p : MaintenanceJob → Bool) :
    Collects jobs p (ids p jobs.jobs.rows) := by
  refine ⟨List.pairwise_map.mpr (jobs.jobs.sorted.filter p), ?_⟩
  intro id
  unfold ids
  simp only [List.mem_map, List.mem_filter]
  constructor
  · rintro ⟨j, ⟨hmem, hp⟩, rfl⟩
    exact ⟨j, Table.find_iff_mem.mpr hmem, hp⟩
  · rintro ⟨j, hfind, hp⟩
    exact ⟨j, ⟨Table.mem_of_find hfind, hp⟩, Table.key_of_find hfind⟩

/-- The final sort of a list changes nothing. -/
theorem Collects.sorted_unique {jobs : JobTable} {p : MaintenanceJob → Bool} {list : List JobId}
    (h : Collects jobs p list) : Collects jobs p (sorted_unique list) := by
  refine ⟨pairwise_sorted_unique list, ?_⟩
  intro id
  rw [mem_sorted_unique, h.2]

theorem plan_tick_eq (jobs : JobTable) (policy : Policy) (now : Nanos) :
    ∃ digest, plan_tick jobs policy now =
      { validated := sorted_unique (ids (fun j => j.state = .Validated) jobs.jobs.rows)
        runnable := sorted_unique (ids (fun j => may_advance j.state) jobs.jobs.rows)
        in_maintenance := sorted_unique (ids (fun j => j.state = .InMaintenance) jobs.jobs.rows)
        verifying := sorted_unique (ids (fun j => j.state = .Verifying) jobs.jobs.rows)
        restoring := sorted_unique (ids (fun j => j.state = .Restoring) jobs.jobs.rows)
        overrun := sorted_unique
          (ids (fun j => decide (j.state = .InMaintenance) && window_passed j now) jobs.jobs.rows)
        expiring := sorted_unique (ids may_expire jobs.jobs.rows)
        blocked := sorted_unique (ids (fun j => j.state = .Blocked) jobs.jobs.rows)
        renewal_margin := renewal_margin policy, digest } := by
  refine ⟨(plan_tick jobs policy now).digest, ?_⟩
  unfold plan_tick
  simp only [foldl_classify, List.nil_append]

theorem plan_tick_ids (jobs : JobTable) :
    MaintenanceFabric.plan_tick jobs = ids (fun j => schedulable j.state) jobs.jobs.rows := rfl

/-- Five of the lists make up the jobs a pass has work for, in the order of their ids. -/
theorem drive_order_eq (jobs : JobTable) (policy : Policy) (now : Nanos) :
    drive_order (plan_tick jobs policy now) = MaintenanceFabric.plan_tick jobs := by
  have hcollects := collects_ids jobs (fun j => schedulable j.state)
  obtain ⟨digest, heq⟩ := plan_tick_eq jobs policy now
  rw [heq, plan_tick_ids]
  unfold drive_order
  simp only
  -- Both lists ascend without repetitions, so it is enough that they have the same members.
  refine (ascending_sort ?_).eq_of_mem_iff hcollects.1 ?_
  · repeat apply nodup_push_all_unique
    exact List.nodup_nil
  · intro id
    simp only [mem_sort, mem_push_all_unique, mem_sorted_unique, (collects_ids jobs _).2,
      List.not_mem_nil, false_or]
    constructor
    · rintro ((((⟨j, hj, hp⟩ | ⟨j, hj, hp⟩) | ⟨j, hj, hp⟩) | ⟨j, hj, hp⟩) | ⟨j, hj, hp⟩)
      all_goals
        refine ⟨j, hj, ?_⟩
        revert hp
        cases j.state <;> simp [schedulable, may_advance]
    · rintro ⟨j, hj, hp⟩
      cases hstate : j.state with
      | Validated => exact .inr ⟨j, hj, by simp [hstate, may_advance]⟩
      | Prerequisites => exact .inr ⟨j, hj, by simp [hstate, may_advance]⟩
      | Ready => exact .inr ⟨j, hj, by simp [hstate, may_advance]⟩
      -- The remaining lists are tried from the last one pushed to the first.
      | Blocked => exact .inr ⟨j, hj, by simp [hstate, may_advance]⟩
      | InMaintenance => exact .inl (.inr ⟨j, hj, by simp [hstate]⟩)
      | Verifying => exact .inl (.inl (.inr ⟨j, hj, by simp [hstate]⟩))
      | Restoring => exact .inl (.inl (.inl (.inr ⟨j, hj, by simp [hstate]⟩)))
      | _ =>
        rw [hstate] at hp
        cases hp

/-- Every work list holds exactly the jobs its heading names, and a pass drives every job that is
    neither proposed nor over, once, in the order of the ids. -/
theorem work_lists_exact (jobs : JobTable) (policy : Policy) (now : Nanos) :
    Collects jobs (fun j => j.state = .Validated) (plan_tick jobs policy now).validated ∧
    Collects jobs (fun j => may_advance j.state) (plan_tick jobs policy now).runnable ∧
    Collects jobs (fun j => j.state = .InMaintenance) (plan_tick jobs policy now).in_maintenance ∧
    Collects jobs (fun j => j.state = .Verifying) (plan_tick jobs policy now).verifying ∧
    Collects jobs (fun j => j.state = .Restoring) (plan_tick jobs policy now).restoring ∧
    Collects jobs (fun j => j.state = .Blocked) (plan_tick jobs policy now).blocked ∧
    Collects jobs (fun j => decide (j.state = .InMaintenance) && window_passed j now)
      (plan_tick jobs policy now).overrun ∧
    Collects jobs may_expire (plan_tick jobs policy now).expiring ∧
    Collects jobs (fun j => !j.is_terminal && decide (j.state ≠ .Proposed))
      (drive_order (plan_tick jobs policy now)) ∧
    drive_order (plan_tick jobs policy now) = MaintenanceFabric.plan_tick jobs := by
  have horder := drive_order_eq jobs policy now
  have hdriven : (fun j : MaintenanceJob => schedulable j.state) =
      fun j => !j.is_terminal && decide (j.state ≠ .Proposed) := by
    funext j
    unfold MaintenanceJob.is_terminal
    cases j.state <;> rfl
  have hdrives : Collects jobs (fun j => !j.is_terminal && decide (j.state ≠ .Proposed))
      (MaintenanceFabric.plan_tick jobs) :=
        hdriven ▸ collects_ids jobs (fun j => schedulable j.state)
  refine ⟨?_, ?_, ?_, ?_, ?_, ?_, ?_, ?_, horder ▸ hdrives, horder⟩
  all_goals
    obtain ⟨digest, heq⟩ := plan_tick_eq jobs policy now
    rw [heq]
    exact (collects_ids jobs _).sorted_unique

end Scheduler

end MaintenanceFabric
