import MaintenanceFabric.Guarantees.Capacity
import MaintenanceFabric.Guarantees.Start
import MaintenanceFabric.Runtime.Bindings
import MaintenanceFabric.Runtime.Departures

/-! # Windows

    A window gates the start of a job.  One window is chosen for the whole job,
    the first open one that applies to any of its targets: it stands in for the
    windows of the other targets, and the filter of the request has no say in
    the choice.
-/

namespace MaintenanceFabric

open Lib

/-- The window is open and leaves the lead time it asks for. -/
def Window.open_at (w : Window) (now : Nanos) : Prop :=
  w.opens_at ≤ now ∧ now < w.closes_at ∧ w.min_lead_time ≤ w.closes_at - now

instance (w : Window) (now : Nanos) : Decidable (w.open_at now) :=
  inferInstanceAs (Decidable (_ ∧ _ ∧ _))

theorem Window.classify_open {w : Window} {now : Nanos} :
    w.classify now = .Open ↔ w.open_at now := by
  unfold classify open_at
  by_cases hopens : now < w.opens_at
  · rw [if_pos hopens]
    simp [not_le.mpr hopens]
  · rw [if_neg hopens]
    by_cases hcloses : now ≥ w.closes_at
    · rw [if_pos hcloses]
      simp [not_lt.mpr hcloses]
    · rw [if_neg hcloses]
      by_cases hlead : w.closes_at - now < w.min_lead_time
      · rw [if_pos hlead]
        simp [not_le.mpr hlead]
      · rw [if_neg hlead]
        exact ⟨fun _ => ⟨not_lt.mp hopens, not_le.mp hcloses, not_lt.mp hlead⟩, fun _ => rfl⟩

/-! ## The chosen window -/

/-- The window applies to the job: to one of its targets, or to every job without targets. -/
def Window.concerns (w : Window) (targets : List TargetId) : Prop :=
  targets = [] ∨ ∃ t ∈ targets, w.applies_to t = true

/-- Of the windows that concern the targets and are open, the window has the smallest id. -/
structure FirstOpen (windows : List Window) (targets : List TargetId) (now : Nanos) (w : Window) :
    Prop where
  mem : w ∈ windows
  concerns : w.concerns targets
  opened : w.open_at now
  first : ∀ v ∈ windows, v.concerns targets → v.open_at now → w.id ≤ v.id

variable {windows : List Window} {targets : List TargetId} {now : Nanos} {required : Bool}

theorem mem_applicable {w : Window} :
    w ∈ sort_by Window.id (windows.filter (fun w => targets.isEmpty || targets.any w.applies_to)) ↔
      w ∈ windows ∧ w.concerns targets := by
  simp [Window.concerns]

/-- If no window concerns the targets, no window is chosen; else a start is allowed exactly if one
    of them is open, and the first of those is chosen. -/
theorem evaluate_window_cases
    (h : (evaluate_window windows targets now required).allows_start = true) :
    (∀ w ∈ windows, ¬ w.concerns targets) ∧
        (evaluate_window windows targets now required).window = ⟨0⟩ ∨
      ∃ w, FirstOpen windows targets now w ∧
        (evaluate_window windows targets now required).window = w.id := by
  have hmem : ∀ w, w ∈ sort_by Window.id
      (windows.filter (fun w => targets.isEmpty || targets.any w.applies_to)) ↔
        w ∈ windows ∧ w.concerns targets := fun w => mem_applicable
  have hsorted := pairwise_sort_by Window.id
    (windows.filter (fun w => targets.isEmpty || targets.any w.applies_to))
  unfold evaluate_window at h ⊢
  simp only at h ⊢
  generalize sort_by Window.id _ = applicable at h hmem hsorted ⊢
  cases applicable with
  | nil =>
    left
    refine ⟨fun w hw hconcerns => ?_, ?_⟩
    · have := (hmem w).mpr ⟨hw, hconcerns⟩
      cases this
    · cases required <;> rfl
  | cons front rest =>
    right
    simp only at h ⊢
    cases hopen : (front :: rest).find? (fun w => w.classify now == .Open) with
    | none =>
      -- Then the first window decides, and it is not open.
      rw [hopen] at h
      have hfront := List.find?_eq_none.mp hopen front List.mem_cons_self
      simp only [WindowEvaluation.allows_start, Option.getD_none, Option.isSome_none,
        Bool.false_eq_true, if_false, Bool.or_eq_true] at h
      rcases h with h | h
      · exact absurd h hfront
      · unfold Window.classify at h
        split at h
        · cases h
        · split at h
          · cases h
          · split at h <;> cases h
    | some w =>
      obtain ⟨hw, before, after, hsplit, hbefore⟩ := List.find?_eq_some_iff_append.mp hopen
      have hmemw := (hmem w).mp (by rw [hsplit]; simp)
      refine ⟨w, ⟨hmemw.1, hmemw.2, Window.classify_open.mp (beq_iff_eq.mp hw), ?_⟩, rfl⟩
      intro v hv hconcerns hopened
      have hin := (hmem v).mpr ⟨hv, hconcerns⟩
      rw [hsplit] at hin hsorted
      rcases List.mem_append.mp hin with hin | hin
      · have hclosed := hbefore v hin
        rw [Window.classify_open.mpr hopened] at hclosed
        cases hclosed
      · rcases List.mem_cons.mp hin with hsame | hin
        · rw [hsame]
        · exact (List.pairwise_cons.mp (List.pairwise_append.mp hsorted).2.1).1 v hin

theorem FirstOpen.unique {w v : Window} (hw : FirstOpen windows targets now w)
    (hv : FirstOpen windows targets now v) : w.id = v.id :=
  le_antisymm (hw.first v hv.mem hv.concerns hv.opened) (hv.first w hw.mem hw.concerns hw.opened)

/-! ## The recorded window -/

/-- A transition leaves the window and the filter of the job alone. -/
theorem Drive.transition_windows (d : Drive) (to_state : JobState) (reason : BlockReason)
    (detail : Text) (now : Nanos) :
    (d.transition_locked to_state reason detail now).2.job.window = d.job.window ∧
      (d.transition_locked to_state reason detail now).2.job.window_filter =
        d.job.window_filter := by
  have hentered : (entered d.job to_state reason detail now d.ctl.incarnation).window =
    d.job.window ∧
      (entered d.job to_state reason detail now d.ctl.incarnation).window_filter =
        d.job.window_filter := by
    cases to_state <;> exact ⟨rfl, rfl⟩
  unfold transition_locked
  split
  · simp only
    generalize entered d.job to_state reason detail now d.ctl.incarnation = moved at hentered
    have hfreed : (if gives_back to_state moved.service_removed then
        Drive.release_resources_locked
          { d with job := moved } else { d with job := moved }).job.window =
          d.job.window ∧
        (if gives_back to_state moved.service_removed then
          Drive.release_resources_locked { d with job := moved }
          else { d with job := moved }).job.window_filter = d.job.window_filter := by
      split
      · obtain ⟨_, _, hjob, _⟩ := release_resources_spec { d with job := moved }
        rw [hjob]
        exact hentered
      · exact hentered
    split
    · exact hfreed
    · exact hfreed
  · exact ⟨rfl, rfl⟩

namespace Controller

/-- The job that a transition and its commit leave. -/
theorem transition_stores (d : Drive) (to_state : JobState) (reason : BlockReason) (detail : Text)
    (now : Nanos) {c' : Controller} {j j' : MaintenanceJob}
    (hc' : c' = if (d.transition_locked to_state reason detail now).1 then
        ((d.transition_locked to_state reason detail now).2.ctl.commit_job_locked
          (d.transition_locked to_state reason detail now).2.job now).2
      else (d.transition_locked to_state reason detail now).2.ctl)
    (hj : d.ctl.world.jobs.find d.job.id = some j) (hj' : c'.world.jobs.find d.job.id = some j') :
    j' = j ∨ j'.state = to_state ∧ j'.window = d.job.window ∧
      j'.window_filter = d.job.window_filter := by
  have hjobs := Drive.jobs_transition d to_state reason detail now
  have hwindows := d.transition_windows to_state reason detail now
  rcases Drive.transition_cases d to_state reason detail now with hno | ⟨_, htrue, hmoved⟩
  · rw [hno] at hc'
    rw [hc'] at hj'
    exact .inl (Option.some.inj (hj'.symm.trans hj))
  · rw [htrue, if_pos rfl] at hc'
    obtain ⟨a, l, hcore, _⟩ := hmoved.core
    generalize (d.transition_locked to_state reason detail now).2 = d' at hc' hjobs hwindows hcore
    rcases d'.ctl.commit_stores d'.job now with hkept | ⟨_, revision, hput⟩
    · rw [hc', hkept, hjobs] at hj'
      exact .inl (Option.some.inj (hj'.symm.trans hj))
    · have hkey : (clipped_job (revised d'.job revision now)).id = d.job.id :=
        congrArg Core.id hcore
      rw [hc', hput, ← hkey] at hj'
      cases Option.some.inj (hj'.symm.trans (Table.find_put_self _ _))
      exact .inr ⟨congrArg Core.state hcore, hwindows⟩

variable {c : Controller} {id : JobId} {j j' : MaintenanceJob} {context : PassContext}
  {actions : List DrainAction}

/-- A started job records the window that `evaluate_window` chose for it. -/
theorem started_window (context : PassContext) (hj : c.world.jobs.find id = some j)
    (hready : j.state = .Ready)
    (hj' : (c.drive_locked id context actions).1.world.jobs.find id = some j')
    (hafter : j'.state = .InMaintenance) :
    j'.window = (evaluate_window c.policy.windows j.targets context.now
        c.policy.require_window).window ∧ j'.window_filter = j.window_filter := by
  have hid : j.id = id := Table.key_of_find hj
  have hdriven := drive_locked_eq context actions hj (by rw [hready]; rfl)
  unfold Drive.drive_state at hdriven
  simp only [hready] at hdriven
  -- A drive that ends in a transition stores the copy that it made the transition with.
  have hend : ∀ (d : Drive) (to_state : JobState) (reason : BlockReason) (detail : Text),
      d.ctl = c → d.job.id = j.id →
      (c.drive_locked id context actions).1 =
        (if (d.transition_locked to_state reason detail context.now).1 then
          ((d.transition_locked to_state reason detail context.now).2.ctl.commit_job_locked
            (d.transition_locked to_state reason detail context.now).2.job context.now).2
        else (d.transition_locked to_state reason detail context.now).2.ctl) →
      j'.state = to_state ∧ j'.window = d.job.window ∧ j'.window_filter = d.job.window_filter := by
    intro d to_state reason detail hctl hjob hend
    have hkey : d.job.id = id := hjob.trans hid
    rcases transition_stores d to_state reason detail context.now hend (j := j)
      (by rw [hctl, hkey]; exact hj) (by rw [hkey]; exact hj') with hsame | hmoved
    · rw [hsame, hready] at hafter
      cases hafter
    · exact hmoved
  unfold Drive.drive_ready_locked Drive.block_on_violation at hdriven
  simp only at hdriven
  split at hdriven
  · -- Every other end leads elsewhere.
    split at hdriven
    all_goals
      have hstate := (hend _ _ _ _ rfl rfl hdriven).1
      rw [hafter] at hstate
      cases hstate
  · split at hdriven
    · have hstate := (hend _ _ _ _ rfl rfl hdriven).1
      rw [hafter] at hstate
      cases hstate
    · split at hdriven
      · have hstate := (hend _ _ _ _ rfl rfl hdriven).1
        rw [hafter] at hstate
        cases hstate
      · exact (hend _ _ _ _ rfl rfl hdriven).2

end Controller

/-! ## Starts -/

/-- Every target that a window applies to has an open one, and the recorded window is one that the
    request asks for. -/
structure WindowBound (policy : Policy) (now : Nanos) (j : MaintenanceJob) : Prop where
  targets : ∀ t ∈ j.targets, (∃ w ∈ policy.windows, w.applies_to t = true) →
    ∃ w ∈ policy.windows, w.applies_to t = true ∧ w.open_at now
  filter : j.window_filter ≠ [] → j.window ∈ j.window_filter

instance (policy : Policy) (now : Nanos) (j : MaintenanceJob) :
    Decidable (WindowBound policy now j) :=
  decidable_of_iff ((∀ t ∈ j.targets, (∃ w ∈ policy.windows, w.applies_to t = true) →
      ∃ w ∈ policy.windows, w.applies_to t = true ∧ w.open_at now) ∧
    (j.window_filter ≠ [] → j.window ∈ j.window_filter))
    ⟨fun h => ⟨h.1, h.2⟩, fun h => ⟨h.1, h.2⟩⟩

/-- What an open window of one target stands in for, and what the filter must leave. -/
structure WindowsAgree (policy : Policy) (now : Nanos) (j : MaintenanceJob) : Prop where
  /-- Of two targets that windows apply to, one does not wait while the other's window is open. -/
  targets : ∀ t ∈ j.targets, ∀ u ∈ j.targets, (∃ w ∈ policy.windows, w.applies_to t = true) →
    (∃ w ∈ policy.windows, w.applies_to u = true ∧ w.open_at now) →
    ∃ w ∈ policy.windows, w.applies_to t = true ∧ w.open_at now
  /-- A filter has the first open window of the job, or no window where none applies. -/
  filter : j.window_filter ≠ [] →
    (∃ w, FirstOpen policy.windows j.targets now w ∧ w.id ∈ j.window_filter) ∨
      (∀ w ∈ policy.windows, ¬ w.concerns j.targets) ∧ ⟨0⟩ ∈ j.window_filter

/-- A start that `evaluate_window` allows is bound by the windows exactly if they agree. -/
theorem window_bound_iff {policy : Policy} {now : Nanos} {j j' : MaintenanceJob}
    (h : (evaluate_window policy.windows j.targets now policy.require_window).allows_start = true)
    (htargets : j'.targets = j.targets) (hfilter : j'.window_filter = j.window_filter)
    (hwindow : j'.window = (evaluate_window policy.windows j.targets now
      policy.require_window).window) :
    WindowBound policy now j' ↔ WindowsAgree policy now j := by
  have hcases := evaluate_window_cases h
  rw [← hwindow] at hcases
  have hconcerned : ∀ t ∈ j.targets, ∀ w : Window, w.applies_to t = true → w.concerns j.targets :=
    fun t ht w happlies => .inr ⟨t, ht, happlies⟩
  constructor
  · rintro ⟨hbound, hasked⟩
    rw [htargets] at hbound
    rw [hfilter] at hasked
    refine ⟨fun t ht _ _ hgated _ => hbound t ht hgated, ?_⟩
    intro hne
    have hmem := hasked hne
    rcases hcases with ⟨hnone, hzero⟩ | ⟨w, hfirst, hchosen⟩
    · rw [hzero] at hmem
      exact .inr ⟨hnone, hmem⟩
    · rw [hchosen] at hmem
      exact .inl ⟨w, hfirst, hmem⟩
  · rintro ⟨hagree, hasked⟩
    constructor
    · rw [htargets]
      rintro t ht ⟨w, hw, happlies⟩
      rcases hcases with ⟨hnone, _⟩ | ⟨v, hfirst, _⟩
      · exact absurd (hconcerned t ht w happlies) (hnone w hw)
      -- The first open window may be open for another target than the one that is gated.
      · rcases hfirst.concerns with hempty | ⟨u, hu, hv⟩
        · rw [hempty] at ht
          cases ht
        · exact hagree t ht u hu ⟨w, hw, happlies⟩ ⟨v, hfirst.mem, hv, hfirst.opened⟩
    · rw [hfilter]
      intro hne
      rcases hasked hne with ⟨w, hfirst, hmem⟩ | ⟨hnone, hmem⟩
      · rcases hcases with ⟨hnone, _⟩ | ⟨v, hv, hchosen⟩
        · exact absurd hfirst.concerns (hnone w hfirst.mem)
        · rw [hchosen, hv.unique hfirst]
          exact hmem
      · rcases hcases with ⟨_, hzero⟩ | ⟨v, hv, _⟩
        · rw [hzero]
          exact hmem
        · exact absurd hv.concerns (hnone v hv.mem)

namespace System

/-- Every start in every run under a policy with windows is bound by them exactly if, when it was
    decided, the windows agreed on the targets of the job and on its filter. -/
theorem windows_bind_iff (events : List Event) (e : Event) (id : JobId) (j' : MaintenanceJob)
    (hj' : (initial.run (events ++ [e])).job id = some j') (hafter : j'.state = .InMaintenance)
    (hbefore : ∀ j, (initial.run events).job id = some j → j.state ≠ .InMaintenance) :
    ∃ p j, (initial.run events).pass = some p ∧ (initial.run events).job id = some j ∧
      ((initial.run events).ctl.policy.windows ≠ [] →
        (WindowBound (initial.run events).ctl.policy p.now j' ↔
          WindowsAgree (initial.run events).ctl.policy p.now j)) := by
  have hs := sound_run events
  rw [run_snoc] at hj'
  generalize initial.run events = s at *
  obtain ⟨p, j, hdriving, hj, _, started⟩ := hs.entered_maintenance hj' hafter hbefore
  obtain ⟨_, pass, _, _⟩ := driving_spec hdriving
  refine ⟨p, j, pass, hj, fun _ => ?_⟩
  obtain ⟨_, _, hcore⟩ := started.core
  have hkept : j'.window = (evaluate_window s.ctl.policy.windows j.targets p.now
      s.ctl.policy.require_window).window ∧ j'.window_filter = j.window_filter := by
    have hctl := step_drive_ctl hdriving
    rw [show j.id = id from Table.key_of_find hj] at hctl
    unfold System.job at hj'
    rw [hctl] at hj'
    split at hj'
    · exact Controller.started_window (c := under s.ctl e.verdicts)
        (p.context (under s.ctl e.verdicts))
        hj started.ready hj' hafter
    · exact absurd hafter (hbefore j' hj')
  exact window_bound_iff started.gate.window (congrArg Core.targets hcore) hkept.2 hkept.1

end System

namespace Drill

/-- A job for both switches, up to the drive that starts it, under the given windows. -/
def windowed (windows : List Window) (window_filter : List WindowId) : List Event :=
  [boot 0, call (.set_topology pair), call (.set_policy { policy with windows }), health 1 0,
    peer_health 1 0,
    call (.propose { request with targets := [switch, peer], window_filter } (text "operator") 0),
    approve 1 0] ++ tick 0 1 ++ tick (ms 100) 1 ++ [call (.tick 0 (ms 200)), call (.begin_pass 0)]

def minute (id : Nat) : Window := { id := ⟨id⟩, opens_at := 0, closes_at := ms 60000 }

/-- The window of the first switch is open, that of the second opens a minute later. -/
def apart : List Window :=
  [{ minute 1 with targets := [switch] },
    { minute 2 with targets := [peer], opens_at := ms 60000, closes_at := ms 120000 }]

/-- Both windows are open for both switches, and the request asks for one of them. -/
def asked (window : Nat) : List Event := windowed [minute 1, minute 2] [⟨window⟩]

/-- The step after the run starts a job under a policy with windows, and they do not bind it. -/
def StartsUnbound (run : List Event) : Prop :=
  (System.initial.run run).pass.map Pass.now = some (ms 200) ∧
  (System.initial.run run).ctl.policy.windows ≠ [] ∧
  ((System.initial.run run).job ⟨1⟩).map MaintenanceJob.state = some .Ready ∧
  ((System.initial.run (run ++ [call .pass_step])).job ⟨1⟩).map (fun j =>
      (j.state, decide (WindowBound (System.initial.run run).ctl.policy (ms 200) j))) =
    some (.InMaintenance, false)

end Drill

namespace System

/-- The request asks for the window that is chosen, and the start is bound. -/
theorem asked_for_window_is_recorded :
    ∃ p j j', (initial.run (Drill.asked 1)).pass = some p ∧
      (initial.run (Drill.asked 1)).job ⟨1⟩ = some j ∧
      (initial.run (Drill.asked 1 ++ [Drill.call .pass_step])).job ⟨1⟩ = some j' ∧
      WindowsAgree (initial.run (Drill.asked 1)).ctl.policy p.now j := by
  obtain ⟨j', hj', hafter⟩ :=
    job_of_field (initial.run (Drill.asked 1 ++ [Drill.call .pass_step])) ⟨1⟩
    (fun j => (j.state, decide
      (WindowBound (initial.run (Drill.asked 1)).ctl.policy (Drill.ms 200) j)))
    (a := (.InMaintenance, true)) (by decide +kernel)
  obtain ⟨hafter, hbound⟩ := Prod.mk.inj hafter
  obtain ⟨x, hx, hready⟩ := job_of_field (initial.run (Drill.asked 1)) ⟨1⟩ MaintenanceJob.state
    (a := .Ready) (by decide +kernel)
  obtain ⟨p, j, hp, hj, hiff⟩ := windows_bind_iff (Drill.asked 1) (Drill.call .pass_step) ⟨1⟩ j' hj'
    hafter (by
      intro j hj
      rw [hx] at hj
      cases hj
      rw [hready]
      decide)
  have hnow : (initial.run (Drill.asked 1)).pass.map Pass.now = some (Drill.ms 200) := by
    decide +kernel
  rw [hp] at hnow
  have hnow : p.now = Drill.ms 200 := Option.some.inj hnow
  refine ⟨p, j, j', hp, hj, hj', (hiff (by decide +kernel)).mp ?_⟩
  rw [hnow]
  exact of_decide_eq_true hbound

/-- The open window of one switch lets a job start on both, and a job starts under a window that
    its filter does not have. -/
theorem window_stands_in : Drill.StartsUnbound (Drill.windowed Drill.apart []) ∧
    Drill.StartsUnbound (Drill.asked 2) := by
  unfold Drill.StartsUnbound
  decide +kernel

end System

end MaintenanceFabric
