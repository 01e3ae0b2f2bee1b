import MaintenanceFabric.Drain.Local
import MaintenanceFabric.Lib.Run

/-! # Leases in process

    The in-process drain service hands out every lease under a number of its
    own, and raises its epoch with every grant and every refresh.  So a lease
    that is gone does not come back under its number, and a lease that shows
    the epoch it was seen with is the lease that was seen.
-/

namespace MaintenanceFabric

open Lib

/-- The same lease at a later time: what was granted stands, and an epoch that is still the same
    means that nothing has changed. Refreshed in time it lapses no earlier, and where refreshes are
    fenced it stays with its owner. -/
structure DrainLease.Continues (timely fenced : Prop) (lease later : DrainLease) : Prop where
  id : later.id = lease.id
  targets : later.targets = lease.targets
  granted_at : later.granted_at = lease.granted_at
  state : later.state = lease.state
  attempt : later.attempt = lease.attempt
  epoch : lease.epoch ≤ later.epoch
  unchanged : later.epoch = lease.epoch → later = lease
  expires_at : timely → lease.expires_at ≤ later.expires_at
  owner : fenced → later.owner = lease.owner

section Continues

variable {timely fenced : Prop} {l l' l'' : DrainLease}

theorem DrainLease.Continues.refl (l : DrainLease) : l.Continues timely fenced l :=
  ⟨rfl, rfl, rfl, rfl, rfl, le_refl _, fun _ => rfl, fun _ => le_refl _, fun _ => rfl⟩

theorem DrainLease.Continues.trans (h : l.Continues timely fenced l')
    (h' : l'.Continues timely fenced l'') : l.Continues timely fenced l'' where
  id := h'.id.trans h.id
  targets := h'.targets.trans h.targets
  granted_at := h'.granted_at.trans h.granted_at
  state := h'.state.trans h.state
  attempt := h'.attempt.trans h.attempt
  epoch := h.epoch.trans h'.epoch
  unchanged := by
    intro hsame
    have hfirst : l'.epoch = l.epoch := le_antisymm (hsame ▸ h'.epoch) h.epoch
    rw [h'.unchanged (hsame.trans hfirst.symm), h.unchanged hfirst]
  expires_at := fun ht => (h.expires_at ht).trans (h'.expires_at ht)
  owner := fun hf => (h'.owner hf).trans (h.owner hf)

end Continues

namespace LocalDrainPort

/-! ## What happens to the port -/

/-- A call of the port, or one of the switches that tests set. -/
inductive Event where
  | call (call : DrainCall)
  | fail_next (count : Nat)
  | set_granted_state (state : DrainState)
  | drop_leases_on_next_query

def live (p : LocalDrainPort) : Event → LocalDrainPort
  | .call call => (p.perform call).2
  | .fail_next count => p.fail_next count
  | .set_granted_state state => p.set_granted_state state
  | .drop_leases_on_next_query => p.drop_leases_on_next_query

/-- A refresh does not run over: the new end is an instant of 64 bits. -/
def Timely (p : LocalDrainPort) : Event → Prop
  | .call (.refresh_drain lease extend _) =>
      ∀ held ∈ p.leases.find lease, i64_range (held.expires_at + extend)
  | _ => True

/-! ## The books -/

/-- Every number and every epoch in use has been handed out, and no attempt has two leases. -/
structure Orderly (p : LocalDrainPort) : Prop where
  ids : ∀ l ∈ p.leases.rows, l.id < p.next_id
  epochs : ∀ l ∈ p.leases.rows, l.epoch ≤ p.epoch
  attempts : ∀ l ∈ p.leases.rows, ∀ l' ∈ p.leases.rows, l.attempt = l'.attempt → l = l'

/-- Only the owner of a lease may refresh it. -/
def Fenced (p : LocalDrainPort) : Prop := p.options.fence_refresh_by_owner = true

/-- Where a lease of the later port comes from: it is new, under a number and an epoch that had not
    been handed out, or it continues one that was held. -/
structure Moves (timely : Prop) (p p' : LocalDrainPort) : Prop where
  fence : p'.options.fence_refresh_by_owner = p.options.fence_refresh_by_owner
  next_id : p.next_id ≤ p'.next_id
  epoch : p.epoch ≤ p'.epoch
  leases : ∀ l' ∈ p'.leases.rows, (p.next_id ≤ l'.id ∧ p.epoch < l'.epoch) ∨
    ∃ l ∈ p.leases.rows, l.Continues timely p.Fenced l'

section Moves

variable {timely : Prop} {p p' p'' : LocalDrainPort}

theorem Moves.trans (h : Moves timely p p') (h' : Moves timely p' p'') : Moves timely p p'' where
  fence := h'.fence.trans h.fence
  next_id := h.next_id.trans h'.next_id
  epoch := h.epoch.trans h'.epoch
  leases := by
    have hfenced : p'.Fenced = p.Fenced := by rw [Fenced, Fenced, h.fence]
    intro l'' hl''
    rcases h'.leases l'' hl'' with ⟨hid, hepoch⟩ | ⟨l', hl', hcontinues'⟩
    · exact .inl ⟨h.next_id.trans hid, lt_of_le_of_lt h.epoch hepoch⟩
    rw [hfenced] at hcontinues'
    rcases h.leases l' hl' with ⟨hid, hepoch⟩ | ⟨l, hl, hcontinues⟩
    · refine .inl ⟨?_, lt_of_lt_of_le hepoch hcontinues'.epoch⟩
      rw [hcontinues'.id]
      exact hid
    · exact .inr ⟨l, hl, hcontinues.trans hcontinues'⟩

/-- What a step does to the books of an orderly port. -/
def Sound (timely : Prop) (p p' : LocalDrainPort) : Prop := Orderly p' ∧ Moves timely p p'

/-- Leases are only taken away. -/
theorem Sound.of_subset (h : Orderly p)
    (hfence : p'.options.fence_refresh_by_owner = p.options.fence_refresh_by_owner)
    (hnext : p'.next_id = p.next_id) (hepoch : p'.epoch = p.epoch)
    (hrows : ∀ l ∈ p'.leases.rows, l ∈ p.leases.rows) : Sound timely p p' := by
  refine ⟨⟨?_, ?_, ?_⟩, hfence, le_of_eq hnext.symm, le_of_eq hepoch.symm, ?_⟩
  · intro l hl
    rw [hnext]
    exact h.ids l (hrows l hl)
  · intro l hl
    rw [hepoch]
    exact h.epochs l (hrows l hl)
  · exact fun l hl l' hl' => h.attempts l (hrows l hl) l' (hrows l' hl')
  · exact fun l hl => .inr ⟨l, hrows l hl, .refl l⟩

/-- A lease is put into the books, under the next epoch: a new one, to an attempt that had none, or
    one that was held. -/
theorem sound_put (h : Orderly p) (lease : DrainLease) (p' : LocalDrainPort)
    (hfence : p'.options.fence_refresh_by_owner = p.options.fence_refresh_by_owner)
    (hnext : p.next_id ≤ p'.next_id) (hid : lease.id < p'.next_id)
    (hepoch : p'.epoch = p.epoch + 1) (hlease : lease.epoch = p.epoch + 1)
    (hleases : p'.leases = p.leases.put lease)
    (hother : ∀ l ∈ p.leases.rows, l.id ≠ lease.id → l.attempt ≠ lease.attempt)
    (horigin : p.next_id ≤ lease.id ∨
      ∃ held ∈ p.leases.rows, held.Continues timely p.Fenced lease) : Sound timely p p' := by
  have hrows : ∀ l ∈ p'.leases.rows, l = lease ∨ (l ∈ p.leases.rows ∧ l.id ≠ lease.id) := by
    intro l hl
    rw [hleases] at hl
    exact Table.mem_put.mp hl
  refine ⟨⟨?_, ?_, ?_⟩, hfence, hnext, by omega, ?_⟩
  · intro l hl
    rcases hrows l hl with rfl | ⟨hl, -⟩
    · exact hid
    · exact lt_of_lt_of_le (h.ids l hl) hnext
  · intro l hl
    rcases hrows l hl with rfl | ⟨hl, -⟩
    · omega
    · have := h.epochs l hl
      omega
  · intro l hl l' hl' hsame
    -- Of two leases with one attempt neither is the new one, unless both are.
    rcases hrows l hl with rfl | ⟨hl, hne⟩ <;> rcases hrows l' hl' with rfl | ⟨hl', hne'⟩
    · rfl
    · exact absurd hsame.symm (hother l' hl' hne')
    · exact absurd hsame (hother l hl hne)
    · exact h.attempts l hl l' hl' hsame
  · intro l hl
    rcases hrows l hl with rfl | ⟨hl, -⟩
    · exact horigin.imp (fun hnew => ⟨hnew, by omega⟩) id
    · exact .inr ⟨l, hl, .refl l⟩

/-! ## Calls -/

theorem sound_request_drain (h : Orderly p) (request : DrainRequest) :
    Sound timely p (p.request_drain request).2 := by
  unfold request_drain
  split
  · exact .of_subset h rfl rfl rfl fun _ hl => hl
  · simp only
    split
    · exact .of_subset h rfl rfl rfl fun _ hl => hl
    · split
      · exact .of_subset h rfl rfl rfl fun _ hl => hl
      · next hfree =>
        have hlt : p.next_id < p.next_id.next := StrongId.lt_iff.mpr (Nat.lt_succ_self _)
        refine sound_put h _ { p with
          requests := p.requests + 1, next_id := p.next_id.next, epoch := p.epoch + 1
          leases := p.leases.put _ } rfl hlt.le hlt rfl rfl rfl ?_ (.inl (le_refl _))
        intro l hl _ hattempt
        have hnone := List.find?_eq_none.mp hfree l hl
        exact hnone (by simpa using hattempt)

theorem sound_refresh_drain (h : Orderly p) (lease : DrainLeaseId) (extend : Nanos)
    (requester : ControllerIncarnation)
    (htimely : timely → p.Timely (.call (.refresh_drain lease extend requester))) :
    Sound timely p (p.refresh_drain lease extend requester).2 := by
  unfold refresh_drain
  split
  · exact .of_subset h rfl rfl rfl fun _ hl => hl
  · next held hfind =>
    have hheld := Table.mem_of_find hfind
    have hepoch := h.epochs held hheld
    split
    · exact .of_subset h rfl rfl rfl fun _ hl => hl
    · next hfenced =>
      split
      · exact .of_subset h rfl rfl rfl fun _ hl => hl
      · next hextend =>
        refine sound_put h { held with
          expires_at := wrapped_i64 (held.expires_at + extend)
          owner := requester, epoch := p.epoch + 1 } _
          rfl (le_refl _) (h.ids held hheld) rfl rfl rfl ?_ (.inr ⟨held, hheld, ?_⟩)
        · -- No other lease is for the attempt that this one is held for.
          intro l hl hne hattempt
          exact hne (h.attempts l hl held hheld hattempt ▸ rfl)
        refine ⟨rfl, rfl, rfl, rfl, rfl, ?_, ?_, ?_, ?_⟩
        · exact hepoch.trans (Nat.le_succ _)
        · intro hsame
          -- No lease held has the epoch of the next refresh.
          have hsame : p.epoch + 1 = held.epoch := hsame
          omega
        · intro ht
          have hfits := htimely ht held hfind
          show held.expires_at ≤ wrapped_i64 (held.expires_at + extend)
          rw [wrapped_i64_of_range hfits]
          exact Int.le_add_of_nonneg_right (Int.le_of_lt (Int.not_le.mp hextend))
        · intro hfence
          rw [Fenced] at hfence
          rw [hfence] at hfenced
          simp only [Bool.true_and, decide_eq_true_eq, ne_eq, not_not] at hfenced
          exact hfenced.symm

theorem sound_query_drain (h : Orderly p) (lease : DrainLeaseId)
    (requester : ControllerIncarnation) : Sound timely p (p.query_drain lease requester).2 := by
  have hdrop : Sound timely p p.drop_leases := by
    unfold drop_leases
    split
    · exact .of_subset h rfl rfl rfl fun _ hl => absurd hl (List.not_mem_nil)
    · exact .of_subset h rfl rfl rfl fun _ hl => hl
  unfold query_drain
  simp only
  split
  · exact hdrop
  · exact hdrop

theorem sound_release_drain (h : Orderly p) (lease : DrainLeaseId)
    (requester : ControllerIncarnation) : Sound timely p (p.release_drain lease requester).2 := by
  unfold release_drain
  split
  · exact .of_subset h rfl rfl rfl fun _ hl => hl
  · exact .of_subset h rfl rfl rfl fun _ hl => (Table.mem_erase.mp hl).1

theorem sound_live (h : Orderly p) {e : Event} (htimely : timely → p.Timely e) :
    Sound timely p (p.live e) := by
  cases e with
  | call call =>
    cases call with
    | request_drain request => exact sound_request_drain h request
    | refresh_drain lease extend requester =>
      exact sound_refresh_drain h lease extend requester htimely
    | query_drain lease requester => exact sound_query_drain h lease requester
    | release_drain lease requester => exact sound_release_drain h lease requester
  | fail_next count => exact .of_subset h rfl rfl rfl fun _ hl => hl
  | set_granted_state state => exact .of_subset h rfl rfl rfl fun _ hl => hl
  | drop_leases_on_next_query => exact .of_subset h rfl rfl rfl fun _ hl => hl

/-! ## Runs -/

theorem sound_run (h : Orderly p) (events : List Event) :
    Sound (Along live Timely p events) p (events.foldl live p) := by
  have hrun : Along live (fun q e => Along live Timely p events → q.Timely e) p events := by
    refine Along.iff_forall.mpr ?_
    intro mid e rest hsplit htimely
    exact Along.iff_forall.mp htimely mid e rest hsplit
  refine hrun.invariant (I := Sound (Along live Timely p events) p) ?_
    (.of_subset h rfl rfl rfl fun _ hl => hl)
  intro q e htimely hq
  have hstep := sound_live hq.1 htimely
  exact ⟨hstep.1, hq.2.trans hstep.2⟩

end Moves

/-! ## Staying held -/

end LocalDrainPort

end MaintenanceFabric
