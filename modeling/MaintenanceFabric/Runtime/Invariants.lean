import MaintenanceFabric.Runtime.Edits

/-! # Invariants of jobs and books

    What every edit preserves of a job, and what every change preserves of the
    books, whatever the license.  Nothing here looks at a function of the
    controller: the case analyses are over `Edit` and `Change`.
-/

namespace MaintenanceFabric

open Lib

/-! ## Histories -/

/-- The values of `service_removed` a state can be found with. -/
def JobState.fits : JobState → Bool → Bool
  | .Proposed, removed | .Validated, removed | .Prerequisites, removed | .Ready, removed
  | .Cancelled, removed => !removed
  | .InMaintenance, removed | .Verifying, removed | .Restoring, removed | .Complete, removed =>
      removed
  | .Blocked, _ | .Failed, _ => true

/-- `service_removed` after a state has been entered. -/
def removes (removed : Bool) (to_state : JobState) : Bool := removed || to_state == .InMaintenance

/-- The trail leads from one state to another. Each entry leaves the state the one before it
    entered, is legal for the value `service_removed` had at that time, and enters
    `Restoring` only from `Verifying`. -/
inductive Follows : JobState → Bool → List (JobState × JobState) → JobState → Bool → Prop where
  | stay {s : JobState} {removed : Bool} (fits : s.fits removed = true) :
      Follows s removed [] s removed
  | move {s t last : JobState} {removed removed' : Bool} {trail : List (JobState × JobState)}
      (fits : s.fits removed = true) (legal : (check_transition s t removed).allowed = true)
      (ordered : t = .Restoring → s = .Verifying)
      (rest : Follows t (removes removed t) trail last removed') :
      Follows s removed ((s, t) :: trail) last removed'

/-- A legal transition arrives with a fitting flag. -/
theorem fits_of_legal {s t : JobState} {removed : Bool} (hs : s.fits removed = true)
    (legal : (check_transition s t removed).allowed = true) :
    t.fits (removes removed t) = true := by
  revert hs legal
  cases s <;> cases t <;> cases removed <;> decide

namespace Follows

variable {s t last : JobState} {removed removed' : Bool} {trail : List (JobState × JobState)}

theorem fits_last (h : Follows s removed trail last removed') : last.fits removed' = true := by
  induction h with
  | stay fits => exact fits
  | move _ _ _ _ ih => exact ih

theorem last_of_nil (h : Follows s removed [] last removed') : last = s := by
  cases h
  rfl

theorem snoc (h : Follows s removed trail last removed')
    (legal : (check_transition last t removed').allowed = true)
    (ordered : t = .Restoring → last = .Verifying) :
    Follows s removed (trail ++ [(last, t)]) t (removes removed' t) := by
  induction h with
  | stay fits => exact .move fits legal ordered (.stay (fits_of_legal fits legal))
  | move fits first before _ ih => exact .move fits first before (ih legal ordered)

/-- What is left of a trail when its oldest entries are dropped. -/
theorem drop (h : Follows s removed trail last removed') (n : Nat) :
    ∃ s' b, Follows s' b (trail.drop n) last removed' := by
  induction h generalizing n with
  | stay fits => exact ⟨_, _, by simpa using Follows.stay fits⟩
  | move fits legal ordered rest ih =>
    cases n with
    | zero => exact ⟨_, _, .move fits legal ordered rest⟩
    | succ n => exact ih n

end Follows

/-! ## Sound jobs -/

structure Core.Sound (c : Core) : Prop where
  /-- A terminal job has no active attempt. -/
  idle : c.state.is_terminal = true → c.active_attempt = {}
  /-- A valid active attempt is one the job itself has minted, for its generation. -/
  own : c.active_attempt.valid = true → c.active_attempt.job = c.id ∧
    c.active_attempt.generation = c.generation ∧ c.active_attempt.ordinal < c.next_attempt
  trail : ∃ start removed, Follows start removed c.trail c.state c.service_removed ∧
    (c.dropped = 0 → start = .Proposed ∧ removed = false) ∧ (0 < c.dropped → c.trail ≠ [])

namespace Core

variable {c : Core}

theorem Sound.fits (h : c.Sound) : c.state.fits c.service_removed = true := by
  obtain ⟨_, _, htrail, _⟩ := h.trail
  exact htrail.fits_last

theorem Fresh.sound (h : c.Fresh) : c.Sound := by
  obtain ⟨hstate, htrail, hdropped, hremoved, hactive, _⟩ := h
  refine ⟨fun _ => hactive, ?_, .Proposed, false, ?_, fun _ => ⟨rfl, rfl⟩, ?_⟩
  · intro hv
    rw [hactive] at hv
    cases hv
  · rw [htrail, hstate, hremoved]
    exact .stay rfl
  · omega

/-- The entries a move cuts off to keep the history within its bound. -/
def excess (c : Core) : Nat := c.trail.length + 1 - limits.kMaxJobHistoryEntries

theorem move_trail (c : Core) (t : JobState) :
    (c.move t).trail = (c.trail ++ [(c.state, t)]).drop c.excess := by
  simp [Core.move, excess]

theorem move_dropped (c : Core) (t : JobState) : (c.move t).dropped = c.dropped + c.excess := by
  simp [Core.move, excess]

theorem excess_le (c : Core) : c.excess ≤ c.trail.length := by
  simp only [excess, limits.kMaxJobHistoryEntries]
  omega

/-- Entering a state legally. -/
theorem Sound.move (h : c.Sound) {t : JobState}
    (legal : (check_transition c.state t c.service_removed).allowed = true)
    (ordered : t = .Restoring → c.state = .Verifying) : (c.move t).Sound := by
  refine ⟨?_, ?_, ?_⟩
  · intro hterm
    exact if_pos hterm
  · intro hv
    by_cases hterm : t.is_terminal = true
    · rw [show (c.move t).active_attempt = {} from if_pos hterm] at hv
      cases hv
    · rw [show (c.move t).active_attempt = c.active_attempt from if_neg hterm] at hv ⊢
      exact h.own hv
  · obtain ⟨start, removed, htrail, hkept, _⟩ := h.trail
    have hsnoc := htrail.snoc legal ordered
    have hne : (c.move t).trail ≠ [] := by
      rw [move_trail, Ne, List.drop_eq_nil_iff, List.length_append, List.length_singleton]
      have := c.excess_le
      omega
    -- Either nothing is cut off, or the start moves along the trail.
    by_cases hfull : c.excess = 0
    · refine ⟨start, removed, ?_, ?_, fun _ => hne⟩
      · rw [move_trail, hfull, List.drop_zero]
        exact hsnoc
      · intro hzero
        rw [move_dropped] at hzero
        exact hkept (by omega)
    · obtain ⟨s', b, hdrop⟩ := hsnoc.drop c.excess
      refine ⟨s', b, ?_, ?_, fun _ => hne⟩
      · rw [move_trail]
        exact hdrop
      · intro hzero
        rw [move_dropped] at hzero
        omega

/-- A new attempt is above every attempt minted before. -/
theorem Sound.mint (h : c.Sound) (alive : c.state.is_terminal = false) : c.mint.Sound := by
  refine ⟨?_, ?_, h.trail⟩
  · intro hterm
    rw [show c.mint.state = c.state from rfl, alive] at hterm
    cases hterm
  · intro _
    exact ⟨rfl, rfl, Nat.lt_succ_self _⟩

/-- Forgetting the active attempt. -/
theorem Sound.without_attempt (h : c.Sound) (generation : GenerationId) (failed : Bool)
    (authority : AuthorityId) (lease : DrainLeaseId) :
    ({ c with generation, active_attempt := {}, maintenance_failed := failed, authority, lease } :
      Core).Sound := by
  refine ⟨fun _ => rfl, ?_, h.trail⟩
  intro hv
  cases hv

/-- Fields that soundness does not look at. -/
theorem Sound.touch (h : c.Sound) (removal_set : List TargetId) (failed : Bool)
    (authority : AuthorityId) (lease : DrainLeaseId) :
    ({ c with removal_set, maintenance_failed := failed, authority, lease } : Core).Sound :=
  ⟨h.idle, h.own, h.trail⟩

theorem Sound.with_attempt (h : c.Sound) (alive : c.state.is_terminal = false) :
    c.with_attempt.Sound := by
  unfold Core.with_attempt
  split
  · exact h
  · exact h.mint alive

@[simp] theorem with_attempt_state (c : Core) : c.with_attempt.state = c.state := by
  unfold Core.with_attempt
  split <;> rfl

@[simp] theorem with_attempt_removed (c : Core) :
    c.with_attempt.service_removed = c.service_removed := by
  unfold Core.with_attempt
  split <;> rfl

theorem Sound.reconcile (h : c.Sound) (alive : c.state.is_terminal = false)
    (authority : AuthorityId) (lease : DrainLeaseId) : (c.reconcile authority lease).Sound := by
  have hfenced : ({ c with active_attempt := {}, authority, lease } : Core).Sound :=
    h.without_attempt c.generation c.maintenance_failed authority lease
  have htokened : (if c.service_removed then
      ({ c with active_attempt := {}, authority, lease } : Core).mint
      else { c with active_attempt := {}, authority, lease }).Sound := by
    split
    · exact hfenced.mint alive
    · exact hfenced
  unfold Core.reconcile
  simp only
  split
  · exact htokened
  · next hblocked =>
    refine htokened.move ?_ (by simp)
    have hstate : (if c.service_removed then
        ({ c with active_attempt := {}, authority, lease } : Core).mint
        else { c with active_attempt := {}, authority, lease }).state = c.state := by
      split <;> rfl
    rw [hstate]
    unfold check_transition
    rw [if_neg hblocked, if_neg (by rw [alive]; simp), if_neg (by simp), if_neg (by simp),
      if_pos rfl]

end Core

/-- Every edit keeps a job sound. -/
theorem Edit.sound {k : EditKind} {c c' : Core} (h : Edit k c c') (hc : c.Sound) : c'.Sound := by
  have hfits := hc.fits
  have halive := h.alive
  -- Each edit is a legal move with changes around it that no part of soundness reads.
  cases h with
  | touched a l _ => exact hc.touch _ _ a l
  | minted _ _ => exact hc.mint halive
  | approved state =>
    refine hc.move ?_ (by simp)
    rw [state] at hfits ⊢
    rw [show c.service_removed = false by simpa [JobState.fits] using hfits]
    decide
  | rearmed a l _ kept legal =>
    have hmoved : (c.move (Controller.rearm_state c.state)).Sound := by
      refine hc.move (by rw [kept]; exact legal) ?_
      cases c.state <;> simp [Controller.rearm_state]
    exact hmoved.without_attempt _ _ a l
  | expanded removal_set a l state =>
    have hwide : ({ c with removal_set } : Core).Sound :=
      hc.touch removal_set c.maintenance_failed c.authority c.lease
    refine Core.Sound.touch (Core.Sound.move (hwide.with_attempt halive) ?_ (by simp)) _ _ a l
    rw [Core.with_attempt_state, Core.with_attempt_removed]
    show (check_transition c.state .Prerequisites c.service_removed).allowed = true
    rw [state] at hfits ⊢
    rw [show c.service_removed = false by simpa [JobState.fits] using hfits]
    decide
  | moved to_state a l legal onward => exact (hc.move legal onward.2.2).touch _ _ a l
  | confirmed failed a l state =>
    have hflag : ({ c with maintenance_failed := c.maintenance_failed || failed } : Core).Sound :=
      hc.touch c.removal_set (c.maintenance_failed || failed) c.authority c.lease
    refine (hflag.move ?_ (by simp)).touch _ _ a l
    show (check_transition c.state .Verifying c.service_removed).allowed = true
    rw [state] at hfits ⊢
    rw [show c.service_removed = true by simpa [JobState.fits] using hfits]
    decide
  | resumed a l state removed =>
    refine ((hc.with_attempt halive).move ?_ (by simp)).touch _ _ a l
    rw [Core.with_attempt_state, Core.with_attempt_removed, state, removed]
    decide
  | reconciled a l _ _ => exact hc.reconcile halive a l

/-! ## How a job moves on -/

/-- Has the scope of the job been fixed? -/
def Core.Settled (c : Core) : Prop := c.state ≠ .Proposed ∧ c.state ≠ .Validated

/-- What holds between an earlier and a later version of one job, however many edits lie
    between them. -/
structure Advance (c c' : Core) : Prop where
  id : c'.id = c.id
  request : c'.targets = c.targets ∧ c'.depends_on = c.depends_on ∧
    c'.requires_drain = c.requires_drain
  generation : c.generation ≤ c'.generation
  next_attempt : c.next_attempt ≤ c'.next_attempt
  attempt : c'.active_attempt = c.active_attempt ∨ c'.active_attempt = {} ∨
    c.next_attempt ≤ c'.active_attempt.ordinal
  terminal : c.state.is_terminal = true → c' = c
  settled : c.Settled → c'.Settled ∧ c'.removal_set = c.removal_set
  removed : c.service_removed = true → c'.service_removed = true ∧ c'.generation = c.generation

namespace Advance

variable {c c' c'' : Core}

theorem refl (c : Core) : Advance c c where
  id := rfl
  request := ⟨rfl, rfl, rfl⟩
  generation := le_refl _
  next_attempt := le_refl _
  attempt := .inl rfl
  terminal := fun _ => rfl
  settled := fun h => ⟨h, rfl⟩
  removed := fun h => ⟨h, rfl⟩

theorem trans (h : Advance c c') (h' : Advance c' c'') : Advance c c'' where
  id := h'.id.trans h.id
  request := ⟨h'.request.1.trans h.request.1, h'.request.2.1.trans h.request.2.1,
    h'.request.2.2.trans h.request.2.2⟩
  generation := h.generation.trans h'.generation
  next_attempt := h.next_attempt.trans h'.next_attempt
  attempt := by
    rcases h'.attempt with heq | hnone | hnew
    · rw [heq]
      exact h.attempt
    · exact .inr (.inl hnone)
    · exact .inr (.inr (h.next_attempt.trans hnew))
  terminal := by
    intro hterm
    have hfirst := h.terminal hterm
    have hsecond := h'.terminal (by rw [hfirst]; exact hterm)
    exact hsecond.trans hfirst
  settled := by
    intro hs
    obtain ⟨hs', hset⟩ := h.settled hs
    obtain ⟨hs'', hset'⟩ := h'.settled hs'
    exact ⟨hs'', hset'.trans hset⟩
  removed := by
    intro hr
    obtain ⟨hr', hgen⟩ := h.removed hr
    obtain ⟨hr'', hgen'⟩ := h'.removed hr'
    exact ⟨hr'', hgen'.trans hgen⟩

/-- An attempt that was minted and is no longer active does not become active again. -/
theorem fenced (h : Advance c c') {a : AttemptId} (hv : a.valid = true)
    (minted : a.ordinal < c.next_attempt) (gone : c.active_attempt ≠ a) :
    a.ordinal < c'.next_attempt ∧ c'.active_attempt ≠ a := by
  refine ⟨lt_of_lt_of_le minted h.next_attempt, ?_⟩
  intro heq
  rcases h.attempt with hsame | hnone | hnew
  · exact gone (hsame.symm.trans heq)
  · rw [← heq, hnone] at hv
    cases hv
  · rw [heq] at hnew
    exact absurd minted (not_lt.mpr hnew)

end Advance

/-- Entering a state is an advance, given that the job is alive and does not fall back. -/
theorem Core.advance_move {c : Core} {t : JobState} (alive : c.state.is_terminal = false)
    (onward : c.Settled → t ≠ .Proposed ∧ t ≠ .Validated) : Advance c (c.move t) where
  id := rfl
  request := ⟨rfl, rfl, rfl⟩
  generation := le_refl _
  next_attempt := le_refl _
  attempt := by
    by_cases ht : t.is_terminal = true
    · exact .inr (.inl (if_pos ht))
    · exact .inl (if_neg ht)
  terminal := fun h => by rw [alive] at h; cases h
  settled := fun h => ⟨onward h, rfl⟩
  removed := by
    intro hr
    refine ⟨?_, rfl⟩
    show (c.service_removed || _) = true
    rw [hr, Bool.true_or]

/-- The later version may hold other resources, unless nothing may change any more. -/
theorem Advance.resources {c c' : Core} (h : Advance c c') (alive : c.state.is_terminal = false)
    (authority : AuthorityId) (lease : DrainLeaseId) : Advance c { c' with authority, lease } :=
  { h with terminal := fun hterm => by rw [alive] at hterm; cases hterm }

theorem Core.advance_moved {c : Core} {t : JobState} (alive : c.state.is_terminal = false)
    (onward : c.Settled → t ≠ .Proposed ∧ t ≠ .Validated) (authority : AuthorityId)
    (lease : DrainLeaseId) : Advance c { c.move t with authority, lease } :=
  (Core.advance_move alive onward).resources alive authority lease

theorem Core.advance_mint {c : Core} (alive : c.state.is_terminal = false) : Advance c c.mint where
  id := rfl
  request := ⟨rfl, rfl, rfl⟩
  generation := le_refl _
  next_attempt := Nat.le_succ _
  attempt := .inr (.inr (le_refl _))
  terminal := fun h => by rw [alive] at h; cases h
  settled := fun h => ⟨h, rfl⟩
  removed := fun h => ⟨h, rfl⟩

theorem Core.advance_with_attempt {c : Core} (alive : c.state.is_terminal = false) :
    Advance c c.with_attempt := by
  unfold Core.with_attempt
  split
  · exact .refl c
  · exact advance_mint alive

/-- Authority, lease and the failure mark do not matter to an advance. -/
theorem Core.advance_touch {c : Core} (alive : c.state.is_terminal = false) (failed : Bool)
    (authority : AuthorityId) (lease : DrainLeaseId) :
    Advance c { c with maintenance_failed := failed, authority, lease } where
  id := rfl
  request := ⟨rfl, rfl, rfl⟩
  generation := le_refl _
  next_attempt := le_refl _
  attempt := .inl rfl
  terminal := fun h => by rw [alive] at h; cases h
  settled := fun h => ⟨h, rfl⟩
  removed := fun h => ⟨h, rfl⟩

theorem Core.advance_reconcile {c : Core} (alive : c.state.is_terminal = false)
    (authority : AuthorityId) (lease : DrainLeaseId) :
    Advance c (c.reconcile authority lease) := by
  have hfenced : Advance c { c with active_attempt := {}, authority, lease } :=
    { Core.advance_touch alive c.maintenance_failed authority lease with
      attempt := .inr (.inl rfl)
      terminal := fun h => by rw [alive] at h; cases h }
  have htokened : Advance c (if c.service_removed then
      ({ c with active_attempt := {}, authority, lease } : Core).mint
      else { c with active_attempt := {}, authority, lease }) := by
    split
    · exact hfenced.trans (advance_mint alive)
    · exact hfenced
  unfold Core.reconcile
  simp only
  split
  · exact htokened
  · refine htokened.trans (advance_move ?_ (fun _ => by simp))
    split <;> exact alive

/-- Every edit is an advance. -/
theorem Edit.advance {k : EditKind} {c c' : Core} (h : Edit k c c') (hc : c.Sound) :
    Advance c c' := by
  have hfits := hc.fits
  have halive := h.alive
  cases h with
  | touched a l _ => exact Core.advance_touch halive c.maintenance_failed a l
  | minted _ _ => exact Core.advance_mint halive
  | approved state => exact Core.advance_move halive (fun hs => absurd state hs.1)
  | rearmed a l _ kept _ =>
    have hmove := Core.advance_moved (t := Controller.rearm_state c.state) halive ?_ a l
    · exact { hmove with
        generation := Nat.le_succ _
        attempt := .inr (.inl rfl)
        terminal := fun hterm => by rw [halive] at hterm; cases hterm
        removed := fun hr => by rw [kept] at hr; cases hr }
    · intro hs
      unfold Controller.rearm_state
      rw [if_neg hs.1]
      simp
  | expanded removal_set a l state =>
    -- The scope changes here, in a job whose scope was still open.
    have hopen : ∀ d : Core, d.state = .Validated → ¬ d.Settled := fun d hd hs => hs.2 hd
    have hkept : c.service_removed = false := by
      rw [state] at hfits
      simpa [JobState.fits] using hfits
    have hwide : Advance c { c with removal_set } :=
      { Advance.refl c with
        settled := fun hs => absurd hs (hopen c state)
        terminal := fun hterm => by rw [halive] at hterm; cases hterm }
    have hgiven : Advance c ({ c with removal_set } : Core).with_attempt :=
      hwide.trans (Core.advance_with_attempt halive)
    refine hgiven.trans (Core.advance_moved ?_ (fun _ => by simp) a l)
    rw [Core.with_attempt_state]
    exact halive
  | moved to_state a l legal onward =>
    refine Core.advance_moved halive (fun _ => ⟨?_, onward.1⟩) a l
    intro ht
    rw [ht] at legal
    revert legal
    cases c.state <;> cases c.service_removed <;> decide
  | confirmed failed a l state =>
    refine (Core.advance_touch halive (c.maintenance_failed || failed) c.authority c.lease).trans ?_
    exact Core.advance_moved (c := { c with maintenance_failed := c.maintenance_failed || failed })
      halive (fun _ => by simp) a l
  | resumed a l _ _ =>
    refine (Core.advance_with_attempt halive).trans (Core.advance_moved ?_ (fun _ => by simp) a l)
    rw [Core.with_attempt_state]
    exact halive
  | reconciled a l _ _ => exact Core.advance_reconcile halive a l

/-! ## The states an edit enters -/

def EditKind.enters : EditKind → JobState → Bool
  | .touched, _ | .minted, _ => false
  | .approved, t => t == .Validated
  | .rearmed, t => t == .Validated || t == .Prerequisites
  | .expanded, t => t == .Prerequisites
  | .moved to_state, t => t == to_state
  | .confirmed _, t | .resumed, t => t == .Verifying
  | .reconciled, t => t == .Blocked

theorem Edit.enters {k : EditKind} {c c' : Core} (h : Edit k c c') :
    c'.state = c.state ∨ k.enters c'.state = true := by
  cases h with
  | touched _ _ _ => exact .inl rfl
  | minted _ _ => exact .inl rfl
  | approved _ => exact .inr rfl
  | rearmed _ _ _ _ _ =>
    right
    show EditKind.enters .rearmed (Controller.rearm_state c.state) = true
    unfold Controller.rearm_state
    split <;> rfl
  | expanded _ _ _ _ => exact .inr rfl
  | moved t _ _ _ _ => exact .inr (beq_self_eq_true t)
  | confirmed _ _ _ _ => exact .inr rfl
  | resumed _ _ _ _ => exact .inr rfl
  | reconciled _ _ _ _ =>
    unfold Core.reconcile
    simp only
    split
    · left
      split <;> rfl
    · exact .inr rfl

/-- `service_removed` changes only on the way into `InMaintenance`. -/
theorem Edit.removes {k : EditKind} {c c' : Core} (h : Edit k c c')
    (hkeep : k ≠ .moved .InMaintenance) :
    c'.service_removed = c.service_removed := by
  have hmove : ∀ (d : Core) (t : JobState), t ≠ .InMaintenance →
      (d.move t).service_removed = d.service_removed := by
    intro d t ht
    simp [Core.move, ht]
  cases h with
  | touched _ _ _ => rfl
  | minted _ _ => rfl
  | approved _ => exact hmove _ _ (by simp)
  | rearmed _ _ _ _ _ =>
    refine hmove c (Controller.rearm_state c.state) ?_
    unfold Controller.rearm_state
    split <;> simp
  | expanded _ _ _ _ => exact (hmove _ _ (by simp)).trans (Core.with_attempt_removed _)
  | moved t _ _ _ _ =>
    refine hmove c t ?_
    intro ht
    exact hkeep (by rw [ht])
  | confirmed _ _ _ _ => exact hmove _ _ (by simp)
  | resumed _ _ _ _ => exact (hmove _ _ (by simp)).trans (Core.with_attempt_removed _)
  | reconciled _ _ _ _ =>
    unfold Core.reconcile
    simp only
    split
    · split <;> rfl
    · refine (hmove _ _ (by simp)).trans ?_
      split <;> rfl

/-! ## Sound books -/

/-- A reservation belongs to a job whose scope is fixed, and covers that scope as long as the
    job is in the generation the reservation was granted to. -/
structure World.Holds (w : World) (r : AuthorityReservation) : Prop where
  attempt : r.attempt.valid = true
  nonempty : r.targets ≠ []
  owner : r.owner.boot_epoch ≤ w.epoch
  job : ∃ j, w.jobs.find r.job = some j ∧ j.core.Settled ∧ r.generation ≤ j.generation ∧
    (r.generation = j.generation → ∀ t, t ∈ r.targets ↔ t ∈ j.removal_set)

structure World.Sound (w : World) : Prop where
  jobs : ∀ j ∈ w.jobs.rows, j.core.Sound ∧ Recordable j
  epoch : w.incarnation.boot_epoch ≤ w.epoch
  ids : (⟨0⟩ : AuthorityId) < w.ledger.next_id ∧
    ∀ r ∈ w.ledger.reservations.rows, ⟨0⟩ < r.id ∧ r.id < w.ledger.next_id
  /-- The identity a job holds names no reservation of another job, now or later. -/
  named : ∀ j ∈ w.jobs.rows, j.authority < w.ledger.next_id ∧
    ∀ r ∈ w.ledger.reservations.rows, r.id = j.authority → r.job = j.id
  holds : ∀ r ∈ w.ledger.reservations.rows, w.Holds r

namespace World.Sound

variable {w : World}

theorem job (h : w.Sound) {id : JobId} {j : MaintenanceJob} (hj : w.jobs.find id = some j) :
    j.core.Sound :=
  (h.jobs j (Table.mem_of_find hj)).1

/-- A job with a valid active attempt is not finished. -/
theorem alive_of_attempt (h : w.Sound) {id : JobId} {j : MaintenanceJob}
    (hj : w.jobs.find id = some j) (hvalid : j.active_attempt.valid = true) :
    j.state.is_terminal = false := by
  rw [← Bool.not_eq_true]
  intro hterm
  rw [show j.active_attempt = {} from (h.job hj).idle hterm] at hvalid
  cases hvalid

/-- A job is replaced by a later version of itself. -/
theorem replace (h : w.Sound) {j j' : MaintenanceJob} (stored : w.jobs.find j.id = some j)
    (advance : Advance j.core j'.core) (sound : j'.core.Sound) (recordable : Recordable j')
    (authority : j'.authority = j.authority ∨ j'.authority = ⟨0⟩ ∨
      ∃ r ∈ w.ledger.reservations.rows, r.id = j'.authority ∧ r.job = j.id) :
    ({ w with jobs := w.jobs.put j' } : World).Sound := by
  have hid : j'.id = j.id := advance.id
  have hmem : j ∈ w.jobs.rows := Table.mem_of_find stored
  refine ⟨?_, h.epoch, h.ids, ?_, ?_⟩
  · intro x hx
    rcases Table.mem_put.mp hx with rfl | ⟨hx, _⟩
    · exact ⟨sound, recordable⟩
    · exact h.jobs x hx
  · intro x hx
    rcases Table.mem_put.mp hx with rfl | ⟨hx, _⟩
    · rcases authority with ha | ha | ⟨r, hr, hrid, hrjob⟩
      · rw [ha, hid]
        exact h.named j hmem
      · rw [ha]
        refine ⟨h.ids.1, fun r hr hzero => ?_⟩
        exact absurd (h.ids.2 r hr).1 (by rw [hzero]; exact lt_irrefl _)
      · rw [← hrid, hid]
        refine ⟨(h.ids.2 r hr).2, fun r' hr' heq => ?_⟩
        rw [Table.eq_of_mem_of_key_eq hr' hr heq]
        exact hrjob
    · exact h.named x hx
  · intro r hr
    obtain ⟨hattempt, hne, howner, k, hk, hsettled, hgen, hscope⟩ := h.holds r hr
    refine ⟨hattempt, hne, howner, ?_⟩
    by_cases hkey : j'.id = r.job
    · -- The reservation's own job moved on: its scope is fixed.
      rw [← hkey, hid, stored] at hk
      cases hk
      obtain ⟨hsettled', hset⟩ := advance.settled hsettled
      refine ⟨j', hkey ▸ Table.find_put_self _ _, hsettled', hgen.trans advance.generation, ?_⟩
      intro heq t
      have hgen' : j.generation ≤ j'.generation := advance.generation
      rw [show j'.removal_set = j.removal_set from hset]
      exact hscope (le_antisymm hgen (heq ▸ hgen')) t
    · exact ⟨k, (Table.find_put_of_ne _ hkey).trans hk, hsettled, hgen, hscope⟩

/-- Rows leave the ledger. -/
theorem shrink (h : w.Sound) {rows : Table AuthorityReservation.id}
    (hsub : ∀ r ∈ rows.rows, r ∈ w.ledger.reservations.rows) :
    ({ w with ledger := { w.ledger with reservations := rows } } : World).Sound where
  jobs := h.jobs
  epoch := h.epoch
  ids := ⟨h.ids.1, fun r hr => h.ids.2 r (hsub r hr)⟩
  named := fun j hj => ⟨(h.named j hj).1, fun r hr => (h.named j hj).2 r (hsub r hr)⟩
  holds := by
    intro r hr
    obtain ⟨hattempt, hne, howner, hjob⟩ := h.holds r (hsub r hr)
    exact ⟨hattempt, hne, howner, hjob⟩

theorem create (h : w.Sound) {j : MaintenanceJob} (unused : w.jobs.find j.id = none)
    (fresh : j.core.Fresh) (recordable : Recordable j) :
    ({ w with jobs := w.jobs.put j } : World).Sound := by
  refine ⟨?_, h.epoch, h.ids, ?_, ?_⟩
  · intro x hx
    rcases Table.mem_put.mp hx with rfl | ⟨hx, _⟩
    · exact ⟨fresh.sound, recordable⟩
    · exact h.jobs x hx
  · intro x hx
    rcases Table.mem_put.mp hx with rfl | ⟨hx, _⟩
    · obtain ⟨_, _, _, _, _, _, _, _, _, hauthority, _⟩ := fresh
      rw [show x.authority = ⟨0⟩ from hauthority]
      refine ⟨h.ids.1, fun r hr hzero => ?_⟩
      exact absurd (h.ids.2 r hr).1 (by rw [hzero]; exact lt_irrefl _)
    · exact h.named x hx
  · intro r hr
    obtain ⟨hattempt, hne, howner, k, hk, hrest⟩ := h.holds r hr
    refine ⟨hattempt, hne, howner, k, (Table.find_put_of_ne _ ?_).trans hk, hrest⟩
    intro heq
    rw [← heq, unused] at hk
    cases hk

theorem reserve (h : w.Sound) {r : AuthorityReservation} {j : MaintenanceJob}
    (reservation : ReservationFor w r j) :
    ({ w with ledger := ⟨w.ledger.reservations.put r, r.id.next⟩ } : World).Sound := by
  have hnew : r.id < r.id.next := Nat.lt_succ_self _
  have hup : w.ledger.next_id < r.id.next := lt_of_le_of_lt reservation.fresh hnew
  refine ⟨h.jobs, h.epoch, ⟨h.ids.1.trans hup, ?_⟩, ?_, ?_⟩
  · intro x hx
    rcases Table.mem_put.mp hx with rfl | ⟨hx, _⟩
    · exact ⟨lt_of_lt_of_le h.ids.1 reservation.fresh, hnew⟩
    · exact ⟨(h.ids.2 x hx).1, (h.ids.2 x hx).2.trans hup⟩
  · intro k hk
    refine ⟨(h.named k hk).1.trans hup, ?_⟩
    intro x hx hid
    rcases Table.mem_put.mp hx with rfl | ⟨hx, _⟩
    · exact absurd (lt_of_lt_of_le (h.named k hk).1 (hid ▸ reservation.fresh)) (lt_irrefl _)
    · exact (h.named k hk).2 x hx hid
  · intro x hx
    rcases Table.mem_put.mp hx with rfl | ⟨hx, _⟩
    · refine ⟨reservation.attempt, reservation.nonempty, ?_, j, ?_, reservation.past, ?_, ?_⟩
      · rw [reservation.owner]
        exact h.epoch
      · rw [reservation.job]
        exact reservation.stored
      · exact le_of_eq reservation.generation
      · intro _
        exact reservation.scope
    · obtain ⟨hattempt, hne, howner, hjob⟩ := h.holds x hx
      exact ⟨hattempt, hne, howner, hjob⟩

theorem renew (h : w.Sound) {r : AuthorityReservation} (held : r ∈ w.ledger.reservations.rows)
    (e : Nanos) (v : Revision) :
    ({ w with ledger := { w.ledger with
      reservations := w.ledger.reservations.put { r with expires_at := e, revision := v } } } :
      World).Sound := by
  refine ⟨h.jobs, h.epoch, ⟨h.ids.1, ?_⟩, ?_, ?_⟩
  · intro x hx
    rcases Table.mem_put.mp hx with rfl | ⟨hx, _⟩
    · exact h.ids.2 r held
    · exact h.ids.2 x hx
  · intro k hk
    refine ⟨(h.named k hk).1, ?_⟩
    intro x hx
    rcases Table.mem_put.mp hx with rfl | ⟨hx, _⟩
    · exact (h.named k hk).2 r held
    · exact (h.named k hk).2 x hx
  · intro x hx
    rcases Table.mem_put.mp hx with rfl | ⟨hx, _⟩
    · obtain ⟨hattempt, hne, howner, hjob⟩ := h.holds r held
      exact ⟨hattempt, hne, howner, hjob⟩
    · obtain ⟨hattempt, hne, howner, hjob⟩ := h.holds x hx
      exact ⟨hattempt, hne, howner, hjob⟩

/-- A new process, or none: the jobs and the ledger are what they were. -/
theorem reopen (h : w.Sound) {w' : World} (hjobs : w'.jobs = w.jobs)
    (hledger : w'.ledger = w.ledger)
    (hepoch : w.epoch ≤ w'.epoch) (hcurrent : w'.incarnation.boot_epoch ≤ w'.epoch) : w'.Sound := by
  refine ⟨hjobs ▸ h.jobs, hcurrent, hledger ▸ h.ids, ?_, ?_⟩
  · rw [hjobs, hledger]
    exact h.named
  · rw [hledger]
    intro r hr
    obtain ⟨hattempt, hne, howner, hjob⟩ := h.holds r hr
    exact ⟨hattempt, hne, howner.trans hepoch, hjobs ▸ hjob⟩

/-- Every change keeps the books sound. -/
theorem change {L : License} {w' : World} (h : w.Sound) (hchange : Change L w w') : w'.Sound := by
  cases hchange with
  | edited stored edit _ authority recordable =>
    exact h.replace stored (edit.advance (h.job stored)) (edit.sound (h.job stored)) recordable
      authority
  | retired stored edit _ authority recordable _ =>
    have hjob := h.replace stored (edit.advance (h.job stored)) (edit.sound (h.job stored))
      recordable (authority.imp_right .inl)
    exact hjob.shrink (fun r hr => (Table.mem_erase.mp hr).1)
  | dropped _ _ => exact h.shrink (fun r hr => (Table.mem_erase.mp hr).1)
  | created unused fresh recordable => exact h.create unused fresh recordable
  | reserved reservation _ => exact h.reserve reservation
  | renewed e v held _ => exact h.renew held e v
  | expired now _ => exact h.shrink (fun r hr => (Table.mem_filter.mp hr).1)
  | authored _ _ _ => exact h.reopen rfl rfl (le_refl _) h.epoch
  | observed _ _ => exact h.reopen rfl rfl (le_refl _) h.epoch
  | reopened incarnation capacity _ later =>
    refine h.reopen rfl rfl ?_ (le_refl _)
    rw [later]
    exact Nat.le_succ _
  | halted capacity _ => exact h.reopen rfl rfl (le_refl _) (Nat.zero_le _)
  | fenced _ => exact h.shrink (fun r hr => (Table.mem_filter.mp hr).1)

theorem changes {L : License} {w' : World} (h : w.Sound) (hchanges : Changes L w w') : w'.Sound :=
  hchanges.preserves (fun _ _ hw hc => hw.change hc) h

end World.Sound

/-! ## One job across changes -/

/-- What a change does to the job under one identity. -/
theorem Change.job_cases {L : License} {w w' : World} (h : Change L w w') (id : JobId) :
    w'.jobs.find id = w.jobs.find id ∨
    (∃ j j' k, w.jobs.find id = some j ∧ w'.jobs.find id = some j' ∧ Edit k j.core j'.core ∧
      L.edits id k) ∨
    (w.jobs.find id = none ∧ ∃ j', w'.jobs.find id = some j' ∧ j'.core.Fresh) := by
  have hedited : ∀ {j j' : MaintenanceJob} {k : EditKind}, w.jobs.find j.id = some j →
      Edit k j.core j'.core → L.edits j.id k →
      (w.jobs.put j').find id = w.jobs.find id ∨
      ∃ j₁ j₁' k, w.jobs.find id = some j₁ ∧ (w.jobs.put j').find id = some j₁' ∧
        Edit k j₁.core j₁'.core ∧ L.edits id k := by
    intro j j' k stored edit licensed
    have hid : j'.id = j.id := edit.id_eq
    by_cases hkey : j'.id = id
    · right
      rw [hid] at hkey
      subst hkey
      exact ⟨j, j', k, stored, hid ▸ Table.find_put_self _ _, edit, licensed⟩
    · exact .inl (Table.find_put_of_ne _ hkey)
  cases h with
  | edited stored edit licensed _ _ => exact (hedited stored edit licensed).imp_right .inl
  | retired stored edit licensed _ _ _ => exact (hedited stored edit licensed).imp_right .inl
  | @created j unused fresh _ =>
    by_cases hkey : j.id = id
    · subst hkey
      exact .inr (.inr ⟨unused, j, Table.find_put_self _ _, fresh⟩)
    · exact .inl (Table.find_put_of_ne _ hkey)
  | _ => exact .inl rfl

section OneJob

variable {L : License} {w w' : World} {id : JobId} {R : Core → Core → Prop}
  (hrefl : ∀ c, R c c) (htrans : ∀ {a b c}, R a b → R b c → R a c)
  (hedit : ∀ {k c c'}, L.edits id k → c.Sound → Edit k c c' → R c c')

include hrefl htrans hedit

/-- Jobs are never lost, and what every licensed edit does holds across a whole sequence. -/
theorem Changes.job (h : Changes L w w') (hw : w.Sound) {j : MaintenanceJob}
    (hj : w.jobs.find id = some j) : ∃ j', w'.jobs.find id = some j' ∧ R j.core j'.core := by
  induction h with
  | refl => exact ⟨j, hj, hrefl _⟩
  | @tail mid last hsteps hstep ih =>
    obtain ⟨m, hm, hR⟩ := ih
    have hmid : mid.Sound := hw.changes hsteps
    rcases hstep.job_cases id with hsame | ⟨a, b, k, ha, hb, edit, licensed⟩ | ⟨hnone, _⟩
    · exact ⟨m, hsame.trans hm, hR⟩
    · rw [hm] at ha
      cases ha
      exact ⟨b, hb, htrans hR (hedit licensed (hmid.job hm) edit)⟩
    · rw [hm] at hnone
      cases hnone

/-- A job found afterwards was there before, or started out fresh. -/
theorem Changes.origin (h : Changes L w w') (hw : w.Sound) {j' : MaintenanceJob}
    (hj' : w'.jobs.find id = some j') :
    (∃ j, w.jobs.find id = some j ∧ R j.core j'.core) ∨
    (w.jobs.find id = none ∧ ∃ c, c.Fresh ∧ R c j'.core) := by
  induction h generalizing j' with
  | refl => exact .inl ⟨j', hj', hrefl _⟩
  | @tail mid last hsteps hstep ih =>
    have hmid : mid.Sound := hw.changes hsteps
    rcases hstep.job_cases id with hsame | ⟨a, b, k, ha, hb, edit, licensed⟩ | ⟨hnone, b, hb, fresh⟩
    · exact ih (hsame ▸ hj')
    · rw [hj'] at hb
      cases hb
      have hstepR := hedit licensed (hmid.job ha) edit
      rcases ih ha with ⟨j, hj, hR⟩ | ⟨hnone, c, hc, hR⟩
      · exact .inl ⟨j, hj, htrans hR hstepR⟩
      · exact .inr ⟨hnone, c, hc, htrans hR hstepR⟩
    · rw [hj'] at hb
      cases hb
      refine .inr ⟨?_, j'.core, fresh, hrefl _⟩
      -- A job that was there before would still be there.
      cases hbefore : w.jobs.find id with
      | none => rfl
      | some j =>
        obtain ⟨m, hm, _⟩ := Changes.job hrefl htrans hedit hsteps hw hbefore
        rw [hm] at hnone
        cases hnone

end OneJob

namespace Changes

variable {L : License} {w w' : World} {id : JobId}

/-- Every job moves on. -/
theorem advance (h : Changes L w w') (hw : w.Sound) {j : MaintenanceJob}
    (hj : w.jobs.find id = some j) :
    ∃ j', w'.jobs.find id = some j' ∧ Advance j.core j'.core :=
  h.job (R := Advance) .refl (fun h h' => h.trans h') (fun _ hc edit => edit.advance hc) hw hj

/-- A finished job is never touched again. -/
theorem terminal (h : Changes L w w') {j : MaintenanceJob} (hj : w.jobs.find id = some j)
    (hterm : j.state.is_terminal = true) : w'.jobs.find id = some j := by
  refine h.preserves (P := fun w => w.jobs.find id = some j) ?_ hj
  intro a b ha hstep
  rcases hstep.job_cases id with hsame | ⟨m, _, _, hm, _, edit, _⟩ | ⟨hnone, _⟩
  · exact hsame.trans ha
  · rw [ha] at hm
    cases hm
    rw [show j.state.is_terminal = false from edit.alive] at hterm
    cases hterm
  · rw [ha] at hnone
    cases hnone

/-- A job is found in a state it was not in before only if some licensed edit enters it. -/
theorem entered (h : Changes L w w') (hw : w.Sound) {j' : MaintenanceJob}
    (hj' : w'.jobs.find id = some j') (hnew : j'.state ≠ .Proposed) :
    (∃ j, w.jobs.find id = some j ∧ j.state = j'.state) ∨
    ∃ k, L.edits id k ∧ k.enters j'.state = true := by
  by_cases hk : ∃ k, L.edits id k ∧ k.enters j'.state = true
  · exact .inr hk
  · have hcases := h.origin (R := fun c c' => c'.state = j'.state → c.state = j'.state)
      (fun _ h => h) (fun h h' hq => h (h' hq)) ?_ hw hj'
    · rcases hcases with ⟨j, hj, hstate⟩ | ⟨_, c, hc, hstate⟩
      · exact .inl ⟨j, hj, hstate rfl⟩
      · exact absurd ((hstate rfl).symm.trans hc.1) hnew
    · intro k c c' licensed _ edit hq
      rcases edit.enters with hsame | henters
      · exact hsame.symm.trans hq
      · exact absurd ⟨k, licensed, hq ▸ henters⟩ hk

/-- Service is removed only by an edit licensed to start maintenance. -/
theorem removal (h : Changes L w w') (hw : w.Sound) {j' : MaintenanceJob}
    (hj' : w'.jobs.find id = some j') (hremoved : j'.service_removed = true) :
    (∃ j, w.jobs.find id = some j ∧ j.service_removed = true) ∨
      L.edits id (.moved .InMaintenance) := by
  by_cases hk : L.edits id (.moved .InMaintenance)
  · exact .inr hk
  · have hcases := h.origin (R := fun c c' => c'.service_removed = c.service_removed)
      (fun _ => rfl) (fun h h' => h'.trans h) ?_ hw hj'
    · rcases hcases with ⟨j, hj, hsame⟩ | ⟨_, c, hc, hsame⟩
      · exact .inl ⟨j, hj, hsame.symm.trans hremoved⟩
      · have : c.service_removed = true := hsame ▸ hremoved
        rw [hc.2.2.2.1] at this
        cases this
    · intro k c c' licensed _ edit
      refine edit.removes ?_
      intro heq
      exact hk (heq ▸ licensed)

end Changes

end MaintenanceFabric
