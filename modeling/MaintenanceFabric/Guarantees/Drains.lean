import MaintenanceFabric.Guarantees.Lifecycle
import MaintenanceFabric.Runtime.Emissions

/-! # Drains in flight

    Two guarantees about the actions under way: a job has one drain request in
    flight at a time, and a granted lease is not forgotten.  Both have a gap.
    The mark of a request is shared with the releases of its job, so that the
    outcome of a release can take it away; and a release that fails is
    repeated only for a lease the store knows.
-/

namespace MaintenanceFabric

open Lib

namespace System

/-! ## One request at a time -/

/-- Is this a drain request of the job? -/
def asks_for (job : JobId) (a : DrainAction) : Bool := decide (a.kind = .Request ∧ a.job = job)

/-- A job that is not marked has no request under way, a marked one has at most one. -/
def InFlight (s : System) : Prop :=
  ∀ job, s.emitted.countP (asks_for job) ≤ if job ∈ s.ctl.drain_inflight then 1 else 0

/-- The outcome of a release is applied only while no request of its job is under way. -/
def ReleaseApart (s : System) (e : Event) : Prop :=
  ∀ x ∈ s.answering e, x.1.kind = .Release → ∀ b ∈ s.emitted, b.kind = .Request → b.job ≠ x.1.job

instance (s : System) (e : Event) : Decidable (s.ReleaseApart e) := by
  unfold ReleaseApart
  infer_instance

theorem countP_releases {new : List DrainAction} (h : ∀ a ∈ new, a.kind = .Release) (job : JobId) :
    new.countP (asks_for job) = 0 := by
  rw [List.countP_eq_zero]
  intro a ha
  simp [asks_for, h a ha]

/-- Releases come and go without a trace. -/
theorem InFlight.add_releases {s s' : System} (h : s.InFlight) {new : List DrainAction}
    (hemitted : s'.emitted.Perm (s.emitted ++ new)) (hnew : ∀ a ∈ new, a.kind = .Release)
    (hinflight : s'.ctl.drain_inflight = s.ctl.drain_inflight) : s'.InFlight := by
  intro job
  rw [hemitted.countP_eq, List.countP_append, countP_releases hnew, hinflight]
  exact h job

/-- A request is added for an unmarked job, which is marked by it. -/
theorem InFlight.add_request {s s' : System} (h : s.InFlight) {j : MaintenanceJob} {policy : Policy}
    (idle : j.id ∉ s.ctl.drain_inflight)
    (hinflight : s'.ctl.drain_inflight = s.ctl.drain_inflight ++ [j.id])
    (hemitted : s'.emitted.Perm (s.emitted ++ [Drive.demand policy j])) : s'.InFlight := by
  intro job
  rw [hemitted.countP_eq, List.countP_append, hinflight]
  have hbefore := h job
  by_cases hjob : job = j.id
  · subst hjob
    rw [if_neg idle] at hbefore
    rw [if_pos (by simp)]
    have hone : [Drive.demand policy j].countP (asks_for j.id) ≤ 1 := List.countP_le_length
    omega
  · have hnone : [Drive.demand policy j].countP (asks_for job) = 0 := by
      rw [List.countP_eq_zero]
      intro a ha
      rw [List.mem_singleton] at ha
      subst ha
      simpa [asks_for, Drive.demand] using Ne.symm hjob
    rw [hnone]
    simpa [hjob] using hbefore

/-- One step. The mark of a job is taken back with its request, and never under it. -/
theorem InFlight.step {s : System} (h : s.InFlight) (hattended : s.Attended) {e : Event}
    (calm : s.ReleaseApart e) : (s.step e).InFlight := by
  have hemits := emits_step hattended e
  generalize s.step e = s' at hemits
  cases hemits with
  | kept inflight _ emitted =>
    intro job
    rw [emitted.countP_eq]
    refine (h job).trans ?_
    by_cases hjob : job ∈ s.ctl.drain_inflight
    · rw [if_pos hjob, if_pos (inflight job hjob)]
    · rw [if_neg hjob]
      exact Nat.zero_le _
  | asked _ _ _ asks _ emitted =>
    generalize hout : (s'.ctl, _) = out at asks
    cases asks with
    | nothing marks =>
      obtain ⟨hctl, hnew⟩ := Prod.mk.inj hout
      rw [List.append_right_eq_self] at hnew
      subst hnew
      exact h.add_releases emitted (fun _ ha => by cases ha) (hctl ▸ marks.inflight)
    | retired _ marks _ _ =>
      obtain ⟨hctl, hnew⟩ := Prod.mk.inj hout
      cases List.append_cancel_left hnew
      refine h.add_releases emitted ?_ (hctl ▸ marks.inflight)
      intro a ha
      rw [List.mem_singleton.mp ha]
      rfl
    -- The pass asks only for a job without a mark, and marks it at once.
    | requested _ _ _ _ idle inflight _ =>
      obtain ⟨hctl, hnew⟩ := Prod.mk.inj hout
      cases List.append_cancel_left hnew
      exact h.add_request idle (hctl ▸ inflight) emitted
    | recalled _ _ _ inflight _ =>
      obtain ⟨hctl, hnew⟩ := Prod.mk.inj hout
      cases List.append_cancel_left hnew
      refine h.add_releases emitted ?_ (hctl ▸ inflight)
      intro a ha
      rw [List.mem_singleton.mp ha]
      rfl
  | swept _ _ _ _ inflight _ _ emitted =>
    refine h.add_releases emitted ?_ inflight
    intro a ha
    obtain ⟨l, _, rfl⟩ := List.mem_map.mp ha
    rfl
  | left _ leaves given emitted =>
    refine h.add_releases emitted ?_ leaves.inflight
    intro a ha
    obtain ⟨j, _, _, _, rfl⟩ := given a ha
    rfl
  -- What is still waiting is counted without the action that has been answered.
  | @answered action response now answering outcome =>
    obtain ⟨waiting, new, deferred, before, after⟩ := outcome.flow
    intro job
    have hnew : ∀ a ∈ new, a.kind = .Release := by
      intro a ha
      rw [(outcome.answered.added deferred ha).2.2.2.2]
      rfl
    have hbefore := h job
    rw [before.countP_eq, List.countP_cons] at hbefore
    rw [after.countP_eq, List.countP_append, countP_releases hnew, Nat.add_zero,
      outcome.inflight]
    by_cases hjob : job = action.job
    · -- The mark of this job is gone, and so is every request of it.
      have hnone : waiting.countP (asks_for job) = 0 := by
        cases hkind : action.kind with
        | Request =>
          rw [if_pos (by simp [asks_for, hkind, hjob])] at hbefore
          split at hbefore <;> omega
        -- The mark goes with an answered release too: no request of the job may be waiting then.
        | Release =>
          rw [List.countP_eq_zero]
          intro b hb hasks
          simp only [asks_for, decide_eq_true_eq] at hasks
          refine calm _ answering hkind b ?_ hasks.1 (hasks.2.trans hjob)
          exact before.mem_iff.mpr (List.mem_cons_of_mem _ hb)
      rw [hnone]
      exact Nat.zero_le _
    · have hkept : (job ∈ s.ctl.drain_inflight.filter (· ≠ action.job)) ↔
          job ∈ s.ctl.drain_inflight := by
        simp [hjob]
      simp only [hkept]
      omega
  -- A restart forgets every mark and every action but the deferred releases.
  | restarted _ restarts emitted =>
    intro job
    have hreleases : ∀ a ∈ s'.ctl.deferred_releases, a.kind = .Release :=
      fun a ha => (restarts.deferred a ha).1
    rw [emitted, countP_releases hreleases]
    exact Nat.zero_le _

/-- In every run in which no release is answered while a request of its job is under way, a job
    and an attempt never have two requests under way. -/
theorem one_drain_request (events : List Event) (h : Along step ReleaseApart initial events)
    (job : JobId) (attempt : AttemptId) :
    (initial.run events).emitted.countP
      (fun a => decide (a.kind = .Request ∧ a.job = job ∧ a.attempt = attempt)) ≤ 1 := by
  have hinvariant : (initial.run events).InFlight ∧ (initial.run events).Attended := by
    refine h.invariant (I := fun s => s.InFlight ∧ s.Attended) ?_ ⟨?_, fun _ hp => by cases hp⟩
    · intro s e calm hs
      exact ⟨hs.1.step hs.2 calm, hs.2.step e⟩
    · intro job
      exact Nat.zero_le _
  have hcount := hinvariant.1 job
  have hfewer : (initial.run events).emitted.countP
      (fun a => decide (a.kind = .Request ∧ a.job = job ∧ a.attempt = attempt)) ≤
      (initial.run events).emitted.countP (asks_for job) := by
    refine List.countP_mono_left ?_
    intro a _ ha
    simp only [decide_eq_true_eq] at ha
    simp [asks_for, ha.1, ha.2.1]
  split at hcount <;> omega

end System

namespace Drill

/-- The same request, with a drain. -/
def wanting : MaintenanceRequest := { request with requires_drain := true }

/-- Job 1 holds authority and is about to ask for its drain. -/
def waiting : List Event :=
  [boot 0, call (.set_topology topology), call (.set_policy policy), health 1 0,
    call (.propose wanting (text "operator") 0), approve 1 0] ++ tick 0 1

/-- One pass of a tick over one job. -/
def pass (thread : Nat) : List Event :=
  [call (.begin_pass thread), call .pass_step, call .pass_step]

/-- The drain port answers the first action of a tick. -/
def answer (thread : Nat) (response : DrainResponse) : List Event :=
  [call (.mark thread), call (.outcome thread response)]

/-- A lease on the switch, drained for an attempt of job 1. -/
def grant (lease generation ordinal : Nat) : DrainResponse :=
  { status := ok_status
    lease := { id := ⟨lease⟩, targets := [switch], state := .Drained
               attempt := { job := ⟨1⟩, generation := ⟨generation⟩, ordinal := ⟨ordinal⟩ } } }

/-- The request of job 1 is under way. -/
def requested : List Event := waiting ++ [call (.tick 0 (ms 100))] ++ pass 0

/-- Job 1 has its lease and is ready. -/
def drained : List Event :=
  requested ++ answer 0 (grant 1 1 1) ++ pass 0 ++ [call (.finish 0)]

/-- Job 1 is re-armed. One tick is still about to release the old lease when another one asks
    for the new; then the first tick goes on. -/
def doubled : List Event :=
  drained ++ [call (.rearm ⟨1⟩ (text "operator") (ms 110)), call (.tick 0 (ms 120))] ++ pass 0 ++
    [call (.tick 1 (ms 130))] ++ pass 1 ++ answer 0 { status := ok_status } ++ pass 0

end Drill

namespace System

theorem one_drain_request_drill :
    Along step ReleaseApart initial Drill.requested ∧
      (initial.run Drill.requested).emitted.countP (asks_for ⟨1⟩) = 1 ∧
      (initial.run Drill.requested).emitted.countP
        (fun a => decide (a.kind = .Request ∧ a.job = ⟨1⟩ ∧ a.attempt = Drill.first 1)) ≤ 1 := by
  have hapart : Along step ReleaseApart initial Drill.requested := by decide +kernel
  exact ⟨hapart, by decide +kernel, one_drain_request _ hapart _ _⟩

/-- The outcome of the release takes the mark of the request away. -/
theorem two_drain_requests :
    (initial.run Drill.doubled).emitted.countP
      (fun a => decide (a.kind = .Request ∧ a.job = ⟨1⟩ ∧
        a.attempt = { job := ⟨1⟩, generation := ⟨2⟩, ordinal := ⟨2⟩ })) = 2 := by
  decide +kernel

/-! ## Granted leases -/

/-- The leases that have been granted and not reported released, after one more event. -/
def settle (s : System) (held : List DrainLeaseId) (e : Event) : List DrainLeaseId :=
  match s.answering e with
  | none => held
  | some (action, response, _) =>
      match action.kind with
      | .Request =>
          if Status.isOk response.status && response.lease.id.valid
          then push_unique held response.lease.id else held
      | .Release =>
          if Controller.lease_gone response.status then held.filter (· ≠ action.lease) else held

/-- The controller still knows of the lease: it is stored, or its release is under way. -/
def Knows (s : System) (lease : DrainLeaseId) : Prop :=
  (s.ctl.store.state.leases.find lease).isSome = true ∨
    ∃ a ∈ s.emitted, a.kind = .Release ∧ a.lease = lease

instance (s : System) (lease : DrainLeaseId) : Decidable (s.Knows lease) := by
  unfold Knows
  infer_instance

/-- A run watched from outside: the system, and the leases the drain port is holding for it. -/
structure Watch where
  system : System
  held : List DrainLeaseId := []

namespace Watch

def step (w : Watch) (e : Event) : Watch := ⟨w.system.step e, w.system.settle w.held e⟩

def Remembers (w : Watch) : Prop := ∀ lease ∈ w.held, w.system.Knows lease

/-- The lease an answer brings is accepted by the journal. -/
def Journaled (w : Watch) (e : Event) : Prop :=
  ∀ x ∈ w.system.answering e, x.1.kind = .Request → Status.isOk x.2.1.status = true →
    Status.isOk ((under w.system.ctl e.verdicts).store.commit_lease x.2.1.lease).1 = true

instance (w : Watch) (e : Event) : Decidable (w.Journaled e) := by
  unfold Journaled
  infer_instance

/-- A release of a held lease that fails, other than by `NotFound`, is about a lease the store
    knows, or one that another release under way names too. -/
def Repeatable (w : Watch) (e : Event) : Prop :=
  ∀ x ∈ w.system.answering e, x.1.kind = .Release →
    Controller.lease_gone x.2.1.status = false → x.1.lease ∈ w.held →
    (w.system.ctl.store.state.leases.find x.1.lease).isSome = true ∨
      2 ≤ w.system.emitted.countP (fun a => decide (a.kind = .Release ∧ a.lease = x.1.lease))

instance (w : Watch) (e : Event) : Decidable (w.Repeatable e) := by
  unfold Repeatable
  infer_instance

end Watch

/-- Nothing is lost as long as no outcome is applied. -/
theorem Knows.of_perm {s s' : System} {lease : DrainLeaseId} {new : List DrainAction}
    (h : s.Knows lease) (hleases : s'.ctl.store.state.leases = s.ctl.store.state.leases)
    (hemitted : s'.emitted.Perm (s.emitted ++ new)) : s'.Knows lease := by
  rcases h with h | ⟨a, ha, hrelease⟩
  · left
    rw [hleases]
    exact h
  · exact .inr ⟨a, hemitted.mem_iff.mpr (List.mem_append_left _ ha), hrelease⟩

/-- What is known of a lease when the action that is taken away does not matter to it. -/
theorem Knows.of_waiting {s s' : System} {lease : DrainLeaseId} {action : DrainAction}
    {waiting new : List DrainAction} (h : s.Knows lease)
    (hstored : (s.ctl.store.state.leases.find lease).isSome = true →
      (s'.ctl.store.state.leases.find lease).isSome = true)
    (hother : action.kind = .Release → action.lease ≠ lease)
    (before : s.emitted.Perm (action :: waiting)) (after : s'.emitted.Perm (waiting ++ new)) :
    s'.Knows lease := by
  rcases h with h | ⟨a, ha, hkind, hlease⟩
  · exact .inl (hstored h)
  · right
    rcases List.mem_cons.mp (before.mem_iff.mp ha) with rfl | ha
    · exact absurd hlease (hother hkind)
    · exact ⟨a, after.mem_iff.mpr (List.mem_append_left _ ha), hkind, hlease⟩

namespace Watch

/-- One answer. -/
theorem Remembers.answer {w : Watch} (h : w.Remembers) {e : Event} {action : DrainAction}
    {response : DrainResponse} {now : Nanos}
    (answering : w.system.answering e = some (action, response, now)) (journaled : w.Journaled e)
    (repeatable : w.Repeatable e) : (w.step e).Remembers := by
  have houtcome := step_answering answering
  obtain ⟨waiting, new, deferred, before, after⟩ := houtcome.flow
  have hanswered := houtcome.answered
  intro lease hheld
  simp only [step, settle, answering] at hheld
  show (w.system.step e).Knows lease
  -- The lease the service holds is either stored, or a release of it is still waiting.
  cases hanswered with
  | kept kind refused leases _ =>
    simp only [kind, refused, Bool.false_eq_true, if_false] at hheld
    have hstored : (w.system.step e).ctl.store.state.leases = w.system.ctl.store.state.leases :=
      leases
    by_cases hlease : action.lease = lease
    · subst hlease
      rcases repeatable _ answering kind refused hheld with hknown | htwice
      · left
        rw [hstored]
        exact hknown
      · -- The other release is still waiting.
        right
        simp only [before.countP_eq, List.countP_cons, kind, decide_true,
          and_self, if_true] at htwice
        obtain ⟨a, ha, hsame⟩ := List.countP_pos_iff.mp
          (show 0 < waiting.countP (fun a => decide (a.kind = .Release ∧ a.lease = action.lease)) by
            omega)
        exact ⟨a, after.mem_iff.mpr (List.mem_append_left _ ha), by simpa using hsame⟩
    · exact (h lease hheld).of_waiting (fun hs => by rw [hstored]; exact hs)
        (fun _ => hlease) before
        after
  -- The answer settles the release, and the service no longer holds the lease.
  | gone kind gone leases _ =>
    simp only [kind, gone, if_true, List.mem_filter, decide_eq_true_eq] at hheld
    obtain ⟨hheld, hother⟩ := hheld
    rw [answering_release answering kind] at leases
    refine (h lease hheld).of_waiting ?_ (fun _ => Ne.symm hother) before after
    intro hs
    rcases leases with hl | hl
    · rw [hl]
      exact hs
    · rw [hl, Table.find_erase, if_neg (Ne.symm hother)]
      exact hs
  -- An answer for a job that has moved on: the controller sends the lease straight back.
  | stale kind stale leases added =>
    have hstored : (w.system.step e).ctl.store.state.leases = w.system.ctl.store.state.leases :=
      leases
    simp only [kind] at hheld
    split at hheld
    · next hok =>
      simp only [Bool.and_eq_true] at hok
      rcases mem_push_unique.mp hheld with hheld | rfl
      · exact (h lease hheld).of_waiting (fun hs => by rw [hstored]; exact hs)
          (fun hr => by rw [kind] at hr; cases hr) before after
      · have hlease : Controller.granted_lease action response = response.lease.id := if_pos hok.2
        rw [if_pos (by rw [hlease]; simp [hok])] at added
        refine .inr ⟨Controller.refusal response.lease.id, ?_, rfl, rfl⟩
        rw [← hlease]
        unfold emitted
        rw [added]
        simp
    · exact (h lease hheld).of_waiting (fun hs => by rw [hstored]; exact hs)
        (fun hr => by rw [kind] at hr; cases hr) before after
  | failed kind current empty leases _ =>
    have hstored : (w.system.step e).ctl.store.state.leases = w.system.ctl.store.state.leases :=
      leases
    have hnone : (Status.isOk response.status && response.lease.id.valid) = false := by
      cases hok : Status.isOk response.status with
      | false => rfl
      | true => simp [empty hok]
    simp only [kind, hnone, Bool.false_eq_true, if_false] at hheld
    exact (h lease hheld).of_waiting (fun hs => by rw [hstored]; exact hs)
      (fun hr => by rw [kind] at hr; cases hr) before after
  -- The lease is in the journal before the job names it.
  | granted kind current ok valid leases _ =>
    simp only [kind, ok, valid, Bool.and_self, if_true] at hheld
    have haccepted := journaled _ answering kind ok
    have hput : (w.system.step e).ctl.store.state.leases =
        w.system.ctl.store.state.leases.put response.lease := by
      rcases leases with ⟨_, hl⟩ | ⟨hno, _⟩
      · exact hl
      · refine absurd ?_ hno
        show ((under w.system.ctl e.verdicts).store.commit_lease response.lease).1 = ok_status
        cases hstatus : ((under w.system.ctl e.verdicts).store.commit_lease response.lease).1 with
        | ok _ => rfl
        | error _ =>
          rw [hstatus] at haccepted
          cases haccepted
    rcases mem_push_unique.mp hheld with hheld | rfl
    · refine (h lease hheld).of_waiting ?_ (fun hr => by rw [kind] at hr; cases hr) before after
      intro hs
      rw [hput, Table.find_put]
      split
      · rfl
      · exact hs
    · left
      rw [hput, Table.find_put_self]
      rfl

/-- One step of a process that is not restarted. -/
theorem Remembers.step {w : Watch} (h : w.Remembers) (hattended : w.system.Attended) {e : Event}
    (running : e.restarts = false) (journaled : w.Journaled e) (repeatable : w.Repeatable e) :
    (w.step e).Remembers := by
  cases hanswering : w.system.answering e with
  | some x => exact h.answer hanswering journaled repeatable
  | none =>
    have hheld : (w.step e).held = w.held := by
      simp only [Watch.step, settle, hanswering]
    have hemits := emits_step hattended e
    intro lease hlease
    rw [hheld] at hlease
    have hknown := h lease hlease
    show (w.system.step e).Knows lease
    generalize w.system.step e = s' at hemits
    cases hemits with
    | kept _ leases emitted =>
      rw [← List.append_nil w.system.emitted] at emitted
      exact hknown.of_perm leases emitted
    | asked _ _ _ _ leases emitted => exact hknown.of_perm leases emitted
    | swept _ _ _ _ _ leases _ emitted => exact hknown.of_perm leases emitted
    | left _ leaves _ emitted => exact hknown.of_perm leaves.leases emitted
    | answered answering _ =>
      rw [hanswering] at answering
      cases answering
    | restarted label _ _ =>
      rw [running] at label
      cases label

/-- A failed release that leaves its lease known leaves it stored or named twice. -/
theorem repeatable_of_remembers {w : Watch} {e : Event} (h : (w.step e).Remembers) :
    w.Repeatable e := by
  rintro ⟨action, response, now⟩ answering kind refused hheld
  simp only at kind refused hheld
  have houtcome := step_answering answering
  obtain ⟨waiting, new, deferred, before, after⟩ := houtcome.flow
  have hkept : (w.step e).held = w.held := by
    simp only [Watch.step, settle, Option.mem_def.mp answering, kind, refused, Bool.false_eq_true,
      if_false]
  have hknown : (w.system.step e).Knows action.lease := h action.lease (by rw [hkept]; exact hheld)
  have hnone : new = [] := by
    rw [List.eq_nil_iff_forall_not_mem]
    intro a ha
    have hrequest := (houtcome.answered.added deferred ha).1
    rw [kind] at hrequest
    cases hrequest
  -- A refused release keeps the lease with the service: only the first outcome is left.
  cases houtcome.answered with
  | kept _ _ leases _ =>
    rcases hknown with hstored | ⟨a, ha, hrelease⟩
    · left
      rw [show (w.system.step e).ctl.store.state.leases =
        w.system.ctl.store.state.leases from leases]
        at hstored
      exact hstored
    · right
      rw [after.mem_iff, hnone, List.append_nil] at ha
      have hother : 0 < waiting.countP
        (fun a => decide (a.kind = .Release ∧ a.lease = action.lease)) :=
        List.countP_pos_iff.mpr ⟨a, ha, by simpa using hrelease⟩
      simp only [before.countP_eq, List.countP_cons, kind, decide_true, and_self, if_true]
      omega
  | gone _ gone _ _ =>
    rw [refused] at gone
    cases gone
  | stale request _ _ _ =>
    cases kind.symm.trans request
  | failed request _ _ _ _ =>
    cases kind.symm.trans request
  | granted request _ _ _ _ _ =>
    cases kind.symm.trans request

end Watch

/-- A process that is not restarted and whose leases are journaled knows every lease the drain
    port holds for it, at every moment, exactly when every failed release can be repeated. -/
theorem no_lease_forgotten (prior events : List Event) (running : ∀ e ∈ events, e.restarts = false)
    (journaled : Along Watch.step Watch.Journaled ⟨initial.run prior, []⟩ events) :
    (∀ mid rest, events = mid ++ rest →
      (mid.foldl Watch.step ⟨initial.run prior, []⟩).Remembers) ↔
    Along Watch.step Watch.Repeatable ⟨initial.run prior, []⟩ events := by
  constructor
  · intro h
    refine Along.iff_forall.mpr ?_
    intro mid e rest hsplit
    have hafter := h (mid ++ [e]) rest (by rw [hsplit, List.append_assoc]; rfl)
    rw [List.foldl_append] at hafter
    exact Watch.repeatable_of_remembers hafter
  · intro h mid rest hsplit
    rw [hsplit] at running journaled h
    have hjournaled := (Along.append.mp journaled).1
    have hrepeatable := (Along.append.mp h).1
    clear hsplit h journaled
    have hattended := attended_run prior
    -- The induction carries the watched state, and with it the pass that is attended.
    suffices ∀ w : Watch, w.system.Attended → w.Remembers → Along Watch.step Watch.Journaled w mid →
        Along Watch.step Watch.Repeatable w mid → (mid.foldl Watch.step w).Remembers from
      this ⟨initial.run prior, []⟩ hattended (fun _ hl => by cases hl) hjournaled hrepeatable
    clear hjournaled hrepeatable hattended
    induction mid with
    | nil => exact fun w _ hw _ _ => hw
    | cons e mid ih =>
      intro w hattended hw hjournaled hrepeatable
      have hrunning : e.restarts = false := running e (by simp)
      refine ih (fun x hx => running x (by simp at hx ⊢; tauto)) (w.step e) (hattended.step e)
        (hw.step hattended hrunning hjournaled.1 hrepeatable.1) hjournaled.2 hrepeatable.2

end System

namespace Drill

/-- The request of job 1 is under way when the job is cancelled. The port grants a lease, and
    the release of it fails. -/
def lost : List Event :=
  requested.tail ++ [call (.cancel ⟨1⟩ (text "operator") [] (ms 110))] ++ answer 0 (grant 1 1 1) ++
    [call (.begin_pass 0), call .pass_step] ++
    answer 0 { status := .error (make_error .Timeout (text "drain fabric")) }

end Drill

namespace System

theorem no_lease_forgotten_drill :
    (Drill.drained.tail.foldl Watch.step ⟨initial.run [Drill.boot 0], []⟩).held = [⟨1⟩] ∧
      (Drill.drained.tail.foldl Watch.step ⟨initial.run [Drill.boot 0], []⟩).Remembers := by
  refine ⟨by decide +kernel, ?_⟩
  refine (no_lease_forgotten [Drill.boot 0] Drill.drained.tail ?_ ?_).mpr ?_ _ [] (by simp)
  · decide +kernel
  · decide +kernel
  · decide +kernel

/-- The lease that was granted to a cancelled job, after its release has failed. -/
theorem lease_forgotten :
    (∀ e ∈ Drill.lost, e.restarts = false) ∧
      Along Watch.step Watch.Journaled ⟨initial.run [Drill.boot 0], []⟩ Drill.lost ∧
      (Drill.lost.foldl Watch.step ⟨initial.run [Drill.boot 0], []⟩).held = [⟨1⟩] ∧
      ¬ (Drill.lost.foldl Watch.step ⟨initial.run [Drill.boot 0], []⟩).system.Knows ⟨1⟩ := by
  refine ⟨?_, ?_, ?_, ?_⟩ <;> decide +kernel

end System

end MaintenanceFabric
