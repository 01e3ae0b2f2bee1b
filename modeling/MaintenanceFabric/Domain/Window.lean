import MaintenanceFabric.Domain.Identity

/-! # Maintenance windows

    A window gates admission: may a job start now?  It never stops a target
    from being returned to service.
-/

namespace MaintenanceFabric

/-- What the policy asks for when a window closes while an attempt is running. -/
inductive OnWindowClose where
  | FinishActiveStep | ExtendToComplete | AbortAndRestore
  deriving DecidableEq, Repr

def OnWindowClose.code : OnWindowClose → Nat
  | .FinishActiveStep => 0
  | .ExtendToComplete => 1
  | .AbortAndRestore => 2

structure Window where
  id : WindowId
  name : Text := []
  opens_at : Nanos := 0
  closes_at : Nanos := 0
  min_lead_time : Nanos := 0
  abort_grace : Nanos := 0
  on_close : OnWindowClose := .FinishActiveStep
  targets : List TargetId := []
  deriving DecidableEq, Repr

/-- An empty target list applies to every target. -/
def Window.applies_to (w : Window) (target : TargetId) : Bool :=
  w.targets.isEmpty || decide (target ∈ w.targets)

inductive WindowVerdict where
  | NoWindowConfigured | Open | NotYetOpen | TooLateToStart | Closed | NoMatchingWindow
  deriving DecidableEq, Repr

def WindowVerdict.to_string : WindowVerdict → Text
  | .NoWindowConfigured => text "no-window-configured"
  | .Open => text "open"
  | .NotYetOpen => text "not-yet-open"
  | .TooLateToStart => text "too-late-to-start"
  | .Closed => text "closed"
  | .NoMatchingWindow => text "no-matching-window"

structure WindowEvaluation where
  verdict : WindowVerdict := .NoWindowConfigured
  window : WindowId := ⟨0⟩
  closes_at : Nanos := 0
  remaining : Nanos := 0
  detail : Text := []

def WindowEvaluation.allows_start (e : WindowEvaluation) : Bool :=
  e.verdict == .Open || e.verdict == .NoWindowConfigured

def Window.classify (w : Window) (now : Nanos) : WindowVerdict :=
  if now < w.opens_at then .NotYetOpen
  else if now ≥ w.closes_at then .Closed
  else if w.closes_at - now < w.min_lead_time then .TooLateToStart
  else .Open

def window_detail (w : Window) : WindowVerdict → Text
  | .Open => text "window " ++ w.id.to_string ++ text " is open with lead time satisfied"
  | .NotYetOpen => text "window " ++ w.id.to_string ++ text " has not opened yet"
  | .TooLateToStart => text "window " ++ w.id.to_string ++
      text " closes sooner than the required lead time"
  | .Closed => text "window " ++ w.id.to_string ++ text " is closed"
  | .NoWindowConfigured | .NoMatchingWindow => []

/-- The window with the smallest id that allows a start wins; if none does, the smallest
    applicable one determines the verdict. -/
def evaluate_window (windows : List Window) (targets : List TargetId) (now : Nanos)
    (require_window : Bool) : WindowEvaluation :=
  let applicable := sort_by Window.id
    (windows.filter (fun w => targets.isEmpty || targets.any w.applies_to))
  match applicable with
  | [] =>
      if require_window then
        { verdict := .NoMatchingWindow
          detail := text "policy requires a maintenance window and none matches the job targets" }
      else
        { verdict := .NoWindowConfigured
          detail := text "no maintenance window configured; admission is not window gated" }
  | front :: rest =>
      let best_open := (front :: rest).find? (fun w => w.classify now == .Open)
      let chosen := best_open.getD front
      let verdict := if best_open.isSome then .Open else chosen.classify now
      { verdict
        window := chosen.id
        closes_at := chosen.closes_at
        remaining := chosen.closes_at - now
        detail := window_detail chosen verdict }

end MaintenanceFabric
