import MaintenanceFabric.Core.Basic

/-! # Job lifecycle

    The eight stages of the chain Proposed → ... → Complete, the three states
    off the chain, and the one function that decides which transitions are
    legal.
-/

namespace MaintenanceFabric

inductive JobState where
  | Proposed | Validated | Prerequisites | Ready | InMaintenance | Verifying | Restoring
  | Complete | Blocked | Cancelled | Failed
  deriving DecidableEq, Repr

namespace JobState

def to_string : JobState → Text
  | .Proposed => text "proposed"
  | .Validated => text "validated"
  | .Prerequisites => text "prerequisites"
  | .Ready => text "ready"
  | .InMaintenance => text "in-maintenance"
  | .Verifying => text "verifying"
  | .Restoring => text "restoring"
  | .Complete => text "complete"
  | .Blocked => text "blocked"
  | .Cancelled => text "cancelled"
  | .Failed => text "failed"

/-- Position on the chain; the off-chain states have none. -/
def stage_index : JobState → Option Nat
  | .Proposed => some 0
  | .Validated => some 1
  | .Prerequisites => some 2
  | .Ready => some 3
  | .InMaintenance => some 4
  | .Verifying => some 5
  | .Restoring => some 6
  | .Complete => some 7
  | .Blocked | .Cancelled | .Failed => none

def is_terminal (state : JobState) : Bool :=
  state == .Complete || state == .Cancelled || state == .Failed

def stage_removes_service (state : JobState) : Bool :=
  state == .InMaintenance || state == .Verifying || state == .Restoring

end JobState

structure TransitionCheck where
  allowed : Bool
  reason : Text

def check_transition (from_state to_state : JobState) (service_removed : Bool) : TransitionCheck :=
  if from_state = to_state then ⟨false, text "no-op transition"⟩
  else if from_state.is_terminal then ⟨false, text "source state is terminal"⟩
  else if to_state = .Cancelled then
    if service_removed then
      ⟨false, text "service has been removed; the scope must be restored, not cancelled"⟩
    else ⟨true, text "withdrawn before service removal"⟩
  else if to_state = .Failed then ⟨true, text "failure is legal from any non-terminal state"⟩
  else if to_state = .Blocked then ⟨true, text "any non-terminal state may become blocked"⟩
  else if from_state = .Blocked then
    if to_state.stage_index = none then
      ⟨false, text "blocked jobs may only resume onto the lifecycle chain"⟩
    else if service_removed then
      if to_state = .Verifying ∨ to_state = .Restoring then
        ⟨true, text "resuming toward restoration"⟩
      else ⟨false,
        text "service was removed; a blocked job may only resume at verifying or restoring"⟩
    else if to_state = .Prerequisites ∨ to_state = .Ready then
      ⟨true, text "resuming onto the lifecycle chain"⟩
    else ⟨false, text "a blocked job that removed no service must re-enter at prerequisites or ready, never at a removal or verification stage"⟩
  else
    match from_state.stage_index, to_state.stage_index with
    | some from_stage, some to_stage =>
        if to_stage = from_stage + 1 then ⟨true, text "advance to the next lifecycle stage"⟩
        else if to_stage < from_stage then
          if service_removed then
            ⟨false, text "service has been removed; backward transitions are forbidden"⟩
          else if to_stage = 0 then ⟨false, text "a job never returns to proposed"⟩
          else ⟨true, text "backward transition permitted before service removal"⟩
        else ⟨false, text "lifecycle stages cannot be skipped"⟩
    | _, _ => ⟨false, text "unsupported transition"⟩

/-- Nothing leaves a terminal state. -/
theorem check_transition_alive {from_state to_state : JobState} {service_removed : Bool}
    (h : (check_transition from_state to_state service_removed).allowed = true) :
    from_state.is_terminal = false := by
  by_contra hterm
  rw [Bool.not_eq_false] at hterm
  unfold check_transition at h
  rw [if_pos hterm] at h
  split at h <;> cases h

end MaintenanceFabric
