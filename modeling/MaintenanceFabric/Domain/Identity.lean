import MaintenanceFabric.Core.Basic
import Mathlib.Data.Prod.Lex

/-! # Domain identities

    Targets, failure domains and controller incarnations, with the fence
    checks that compare them.
-/

namespace MaintenanceFabric

/-! ## Targets -/

inductive TargetKind where
  | Unknown | Link | Port | Switch | Rack | Pod | Site | ControlPlane
  deriving DecidableEq, Repr

def TargetKind.code : TargetKind → Nat
  | .Unknown => 0
  | .Link => 1
  | .Port => 2
  | .Switch => 3
  | .Rack => 4
  | .Pod => 5
  | .Site => 6
  | .ControlPlane => 7

def TargetKind.to_string : TargetKind → Text
  | .Unknown => text "unknown"
  | .Link => text "link"
  | .Port => text "port"
  | .Switch => text "switch"
  | .Rack => text "rack"
  | .Pod => text "pod"
  | .Site => text "site"
  | .ControlPlane => text "control-plane"

theorem TargetKind.code_injective : Function.Injective TargetKind.code := by
  intro a b h
  cases a <;> cases b <;> first | rfl | cases h

@[ext] structure TargetId where
  kind : TargetKind := .Unknown
  index : Nat := 0
  deriving DecidableEq, Repr

namespace TargetId

def valid (id : TargetId) : Bool := decide (id.kind ≠ .Unknown)

/-- Ordered by kind, then by index. -/
def rank (id : TargetId) : Nat ×ₗ Nat := toLex (id.kind.code, id.index)

theorem rank_injective : Function.Injective rank := by
  intro a b h
  have h' : (a.kind.code, a.index) = (b.kind.code, b.index) := toLex.injective h
  obtain ⟨hk, hi⟩ := Prod.mk.inj h'
  exact TargetId.ext (TargetKind.code_injective hk) hi

instance : LinearOrder TargetId := LinearOrder.lift' rank rank_injective

def to_string (id : TargetId) : Text := id.kind.to_string ++ text ":" ++ decimal id.index

end TargetId

/-! ## Failure domains -/

inductive DomainKind where
  | Unknown | Site | Pod | Rack | Power | Plane | Zone | Custom
  deriving DecidableEq, Repr

def DomainKind.code : DomainKind → Nat
  | .Unknown => 0
  | .Site => 1
  | .Pod => 2
  | .Rack => 3
  | .Power => 4
  | .Plane => 5
  | .Zone => 6
  | .Custom => 7

def DomainKind.to_string : DomainKind → Text
  | .Unknown => text "unknown"
  | .Site => text "site"
  | .Pod => text "pod"
  | .Rack => text "rack"
  | .Power => text "power"
  | .Plane => text "plane"
  | .Zone => text "zone"
  | .Custom => text "custom"

theorem DomainKind.code_injective : Function.Injective DomainKind.code := by
  intro a b h
  cases a <;> cases b <;> first | rfl | cases h

@[ext] structure DomainId where
  kind : DomainKind := .Unknown
  index : Nat := 0
  deriving DecidableEq, Repr

namespace DomainId

def valid (id : DomainId) : Bool := decide (id.kind ≠ .Unknown)

def rank (id : DomainId) : Nat ×ₗ Nat := toLex (id.kind.code, id.index)

theorem rank_injective : Function.Injective rank := by
  intro a b h
  have h' : (a.kind.code, a.index) = (b.kind.code, b.index) := toLex.injective h
  obtain ⟨hk, hi⟩ := Prod.mk.inj h'
  exact DomainId.ext (DomainKind.code_injective hk) hi

instance : LinearOrder DomainId := LinearOrder.lift' rank rank_injective

def to_string (id : DomainId) : Text := id.kind.to_string ++ text ":" ++ decimal id.index

end DomainId

/-! ## Controller incarnations -/

/-- One boot of one controller. -/
structure ControllerIncarnation where
  controller : ControllerId := ⟨0⟩
  boot_epoch : BootEpoch := ⟨0⟩
  nonce : Nat := 0
  deriving DecidableEq, Repr

namespace ControllerIncarnation

def valid (i : ControllerIncarnation) : Bool :=
  i.controller.valid && i.boot_epoch.valid && i.nonce != 0

def to_string (i : ControllerIncarnation) : Text :=
  i.controller.to_string ++ text "/" ++ i.boot_epoch.to_string ++ text "/" ++ decimal i.nonce

end ControllerIncarnation

/-- Must a record left by `recorded` be distrusted by `current`? -/
def is_fenced_by (recorded current : ControllerIncarnation) : Bool :=
  if recorded.controller ≠ current.controller then true
  else if recorded.boot_epoch ≠ current.boot_epoch then
    decide (recorded.boot_epoch < current.boot_epoch)
  else decide (recorded.nonce ≠ current.nonce)

theorem is_fenced_by_self (i : ControllerIncarnation) : is_fenced_by i i = false := by
  simp [is_fenced_by]

/-! ## Health and target records -/

inductive Health where
  | Unknown | Healthy | Degraded | Down | Retired
  deriving DecidableEq, Repr

def Health.code : Health → Nat
  | .Unknown => 0
  | .Healthy => 1
  | .Degraded => 2
  | .Down => 3
  | .Retired => 4

def Health.to_string : Health → Text
  | .Unknown => text "unknown"
  | .Healthy => text "healthy"
  | .Degraded => text "degraded"
  | .Down => text "down"
  | .Retired => text "retired"

/-- `is_serving(Health)`. -/
def Health.is_serving (h : Health) : Bool := h == .Healthy || h == .Degraded

structure TargetRecord where
  id : TargetId
  name : Text := []
  parent : Option TargetId := none
  domains : List DomainId := []
  capacity_units : Nat := 1
  maintainable : Bool := true
  deriving DecidableEq, Repr

def validate_target_record (record : TargetRecord) : Status := do
  refuse_if (!record.id.valid) (invalid_argument (text "target id is not valid"))
  refuse_if (record.name.length > limits.kMaxNameLength)
    (make_error .LimitExceeded (text "target name exceeds maximum length"))
  refuse_if (record.domains.length > limits.kMaxDomainsPerTarget)
    (make_error .LimitExceeded (text "target belongs to too many failure domains"))
  refuse_if (record.capacity_units = 0)
    (invalid_argument (text "target capacity_units must be greater than zero"))
  refuse_if (repeats record.domains)
    (invalid_argument (text "target lists the same failure domain twice"))

end MaintenanceFabric
