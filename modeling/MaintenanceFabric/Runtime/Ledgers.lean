import MaintenanceFabric.Runtime.Grants
import MaintenanceFabric.Runtime.Accounting
import MaintenanceFabric.Runtime.Recovery

/-! # What becomes of the ledger

    Outside arbitration and restart a step only takes from the ledger or
    extends a lease; an arbitration installs what it has staged, and a restart
    fences and reissues.  None of this gives a job generation a second
    reservation.
-/

namespace MaintenanceFabric

open Lib

/-- What a reservation is for. -/
def AuthorityReservation.claim (r : AuthorityReservation) : AuthorityId × JobId × GenerationId :=
  (r.id, r.job, r.generation)

namespace AuthorityLedger

/-! ## Tidy ledgers -/

/-- A job generation holds one reservation at most, and there are not too many. -/
structure Tidy (l : AuthorityLedger) : Prop where
  exclusive : ∀ r ∈ l.reservations.rows, ∀ r' ∈ l.reservations.rows,
    r.job = r'.job → r.generation = r'.generation → r = r'
  bounded : l.reservations.size ≤ limits.kMaxLiveReservations

theorem tidy_empty : ({} : AuthorityLedger).Tidy := by
  refine ⟨?_, Nat.zero_le _⟩
  intro r hr
  cases hr

/-- Every reservation left was there before, for the same job and generation. -/
def Derives (l l' : AuthorityLedger) : Prop :=
  ∀ r' ∈ l'.reservations.rows, ∃ r ∈ l.reservations.rows, r'.claim = r.claim

section

variable {l l' l'' : AuthorityLedger}

theorem derives_of_subset (h : ∀ r ∈ l'.reservations.rows, r ∈ l.reservations.rows) :
    Derives l l' :=
  fun r hr => ⟨r, h r hr, rfl⟩

theorem Derives.trans (h : Derives l l') (h' : Derives l' l'') : Derives l l'' := by
  intro r hr
  obtain ⟨r', hr', hclaim'⟩ := h' r hr
  obtain ⟨r'', hr'', hclaim⟩ := h r' hr'
  exact ⟨r'', hr'', hclaim'.trans hclaim⟩

/-- A row may change, but not what it is for. -/
theorem derives_put {r : AuthorityReservation} (held : r ∈ l.reservations.rows) (e : Nanos)
    (v : Revision) : Derives l { l with
      reservations := l.reservations.put { r with expires_at := e, revision := v } } := by
  intro r' hr'
  rcases Table.mem_put.mp hr' with rfl | ⟨hr', _⟩
  · exact ⟨r, held, rfl⟩
  · exact ⟨r', hr', rfl⟩

/-- A ledger without new identities is not larger. -/
theorem size_le_of_ids
    (h : ∀ r' ∈ l'.reservations.rows, ∃ r ∈ l.reservations.rows, r'.id = r.id) :
    l'.reservations.size ≤ l.reservations.size := by
  unfold Table.size
  rw [← List.length_map (f := AuthorityReservation.id),
    ← List.length_map (f := AuthorityReservation.id)]
  refine (List.subperm_of_subset l'.reservations.nodup_keys ?_).length_le
  intro id hid
  obtain ⟨r', hr', rfl⟩ := List.mem_map.mp hid
  obtain ⟨r, hr, hid⟩ := h r' hr'
  exact List.mem_map.mpr ⟨r, hr, hid.symm⟩

theorem Derives.size_le (h : Derives l l') : l'.reservations.size ≤ l.reservations.size := by
  refine size_le_of_ids ?_
  intro r' hr'
  obtain ⟨r, hr, hclaim⟩ := h r' hr'
  exact ⟨r, hr, congrArg Prod.fst hclaim⟩

theorem Derives.tidy (h : Derives l l') (htidy : l.Tidy) : l'.Tidy := by
  refine ⟨?_, h.size_le.trans htidy.bounded⟩
  intro x hx y hy hjob hgeneration
  obtain ⟨x', hx', hxclaim⟩ := h x hx
  obtain ⟨y', hy', hyclaim⟩ := h y hy
  simp only [AuthorityReservation.claim, Prod.mk.injEq] at hxclaim hyclaim
  obtain ⟨hxid, hxjob, hxgeneration⟩ := hxclaim
  obtain ⟨hyid, hyjob, hygeneration⟩ := hyclaim
  have hsame : x' = y' := htidy.exclusive x' hx' y' hy' (by rw [← hxjob, hjob, hyjob])
    (by rw [← hxgeneration, hgeneration, hygeneration])
  refine Table.eq_of_mem_of_key_eq hx hy ?_
  show x.id = y.id
  rw [hxid, hyid, hsame]

theorem reserve_room {r g : AuthorityReservation} (h : l.reserve r = .ok (g, l')) :
    l.reservations.size < limits.kMaxLiveReservations := by
  unfold reserve at h
  obtain ⟨_, hcheck, _⟩ := Result.bind_eq_ok.mp h
  simp only [check_reservation, Result.bind_eq_ok, refuse_if_eq_ok] at hcheck
  obtain ⟨_, _, _, _, _, _, _, _, _, _, _, _, _, _, hroom⟩ := hcheck
  simpa using hroom

/-- A grant goes to a job generation that held nothing, while there was room. -/
theorem Tidy.reserve {r g : AuthorityReservation} (h : l.Tidy)
    (hreserve : l.reserve r = .ok (g, l')) :
    l'.Tidy := by
  have hroom := reserve_room hreserve
  have hunheld := reserve_unheld hreserve
  obtain ⟨hg, rfl, _, _⟩ := reserve_ok hreserve
  have hjob : g.job = r.job := by rw [hg]
  have hgeneration : g.generation = r.generation := by rw [hg]
  constructor
  · intro x hx y hy hxy hxy'
    rcases Table.mem_put.mp hx with hxg | ⟨hxl, _⟩
    · rcases Table.mem_put.mp hy with hyg | ⟨hyl, _⟩
      · rw [hxg, hyg]
      · rw [hxg] at hxy hxy'
        exact absurd ⟨hxy.symm.trans hjob, hxy'.symm.trans hgeneration⟩ (hunheld y hyl)
    · rcases Table.mem_put.mp hy with hyg | ⟨hyl, _⟩
      · rw [hyg] at hxy hxy'
        exact absurd ⟨hxy.trans hjob, hxy'.trans hgeneration⟩ (hunheld x hxl)
      · exact h.exclusive x hxl y hyl hxy hxy'
  · exact (Table.size_put_le _ _).trans hroom

end

end AuthorityLedger

/-! ## Changes -/

section Rows

variable {L : License} {w w' : World}

/-- Without a grant or a restart no reservation is new. -/
theorem Change.derives (h : Change L w w') (hgrants : ¬ L.grants) (hrestart : ¬ L.restarts) :
    w.ledger.Derives w'.ledger := by
  have hsame : w.ledger.Derives w.ledger := AuthorityLedger.derives_of_subset (fun _ h => h)
  cases h with
  | retired _ _ _ _ _ _ =>
    exact AuthorityLedger.derives_of_subset (fun _ hr => (Table.mem_erase.mp hr).1)
  | dropped _ _ => exact AuthorityLedger.derives_of_subset (fun _ hr => (Table.mem_erase.mp hr).1)
  | reserved _ stage =>
    rcases stage with ⟨_, hgrant⟩ | hrestarts
    · exact absurd hgrant hgrants
    · exact absurd hrestarts hrestart
  | renewed e v held _ => exact AuthorityLedger.derives_put held e v
  | expired _ _ => exact AuthorityLedger.derives_of_subset (fun _ hr => (Table.mem_filter.mp hr).1)
  | reopened _ _ licensed _ => exact absurd licensed hrestart
  | halted _ licensed => exact absurd licensed hrestart
  | fenced licensed => exact absurd licensed hrestart
  | edited _ _ _ _ _ => exact hsame
  | created _ _ _ => exact hsame
  | authored _ _ _ => exact hsame
  | observed _ _ => exact hsame

theorem Changes.derives (h : Changes L w w') (hgrants : ¬ L.grants) (hrestart : ¬ L.restarts) :
    w.ledger.Derives w'.ledger := by
  induction h with
  | refl => exact AuthorityLedger.derives_of_subset (fun _ h => h)
  | tail _ hstep ih => exact ih.trans (hstep.derives hgrants hrestart)

end Rows

/-! ## Arbitration -/

namespace ArbitrationContext

/-- Every grant is staged through the checks of the ledger. -/
theorem tidy_decide_all (c : ArbitrationContext) : ∀ (candidates : List ArbitrationCandidate)
    (position granted : Nat) {l : AuthorityLedger}, l.Tidy →
    (c.decide_all candidates position granted l).2.Tidy
  | [], _, _, _, h => h
  | candidate :: rest, position, granted, l, h => by
      unfold decide_all
      have hcases := c.decide_candidate_cases candidate position granted l
      generalize c.decide_candidate candidate position granted l = decided at hcases ⊢
      obtain ⟨decision, next⟩ := decided
      simp only at hcases ⊢
      obtain ⟨_, ⟨_, rfl⟩ | ⟨_, j, g, _, hreserve, _⟩⟩ := hcases
      · exact tidy_decide_all c rest _ _ h
      · exact tidy_decide_all c rest _ _ (h.reserve hreserve)

end ArbitrationContext

namespace Controller

/-- Applying a decision installs what is staged for it, or adds nothing. -/
theorem apply_decision_rows (c : Controller) (staging : AuthorityLedger) (now : Nanos)
    (d : ArbitrationDecision) :
    ∀ r' ∈ (apply_decision staging now c d).world.ledger.reservations.rows,
      r' ∈ staging.reservations.rows ∨
        ∃ r ∈ c.world.ledger.reservations.rows, r'.claim = r.claim := by
  have hsame : ∀ r' ∈ c.world.ledger.reservations.rows, r' ∈ staging.reservations.rows ∨
      ∃ r ∈ c.world.ledger.reservations.rows, r'.claim = r.claim :=
        fun r' hr' => .inr ⟨r', hr', rfl⟩
  intro r' hr'
  unfold Controller.apply_decision at hr'
  cases hout : d.outcome with
  | Deferred =>
    rw [hout] at hr'
    exact hsame r' hr'
  | Denied =>
    rw [hout] at hr'
    -- A denial may give authority back, and that is all it does to the ledger.
    have happlied := applied_denial
      (L := { edits := fun _ _ => True, writes := fun _ => False, observes := fun _ => False
              expires := fun _ => False, restarts := False, faulty := False })
      c d now ⟨0⟩ trivial (fun _ _ _ => trivial)
    exact .inr (happlied.changes.derives id id r' hr')
  | Granted =>
    rw [hout] at hr'
    change r' ∈ (c.apply_grant staging d now).world.ledger.reservations.rows at hr'
    unfold Controller.apply_grant at hr'
    split at hr'
    · next current granted _ hstaged =>
      rcases Store.insert_authority_cases c.store granted
        with ⟨e, he, hb⟩ | ⟨ledger, hadopt, hok, hb⟩
      · split at hr'
        · next heq =>
          rw [heq] at hb
          rw [world_of_books hb] at hr'
          exact hsame r' hr'
        · next heq =>
          rw [heq] at he
          cases he
      · split at hr'
        · next heq =>
          rw [heq] at hok
          cases hok
        · next store heq =>
          rw [heq] at hb
          have hledger : ({ c with store } : Controller).world.ledger = ledger := by
            show store.books.ledger = ledger
            rw [hb]
          rw [(commit_frame _ _ _).1, hledger, AuthorityLedger.adopt_ok hadopt] at hr'
          rcases Table.mem_put.mp hr' with rfl | ⟨hr', _⟩
          · exact .inl (Table.mem_of_find hstaged)
          · exact hsame r' hr'
    · exact hsame r' hr'

/-- Applying them all leaves nothing but what is staged, if the ledger held nothing else before. -/
theorem derives_apply_decisions {staging : AuthorityLedger} (now : Nanos)
    (ds : List ArbitrationDecision) {c : Controller} (h : staging.Derives c.world.ledger) :
    staging.Derives (ds.foldl (Controller.apply_decision staging now) c).world.ledger := by
  induction ds generalizing c with
  | nil => exact h
  | cons d ds ih =>
    refine ih ?_
    intro r' hr'
    rcases apply_decision_rows c staging now d r' hr' with hstaged | ⟨r, hr, hclaim⟩
    · exact ⟨r', hstaged, rfl⟩
    · obtain ⟨r₀, hr₀, hclaim₀⟩ := h r hr
      exact ⟨r₀, hr₀, hclaim.trans hclaim₀⟩

theorem tidy_arbitrate_locked (c : Controller) (context : PassContext)
    (hn : ∀ r ∈ c.world.ledger.reservations.rows, r.id < c.world.ledger.next_id)
    (h : c.world.ledger.Tidy) : (c.arbitrate_locked context).world.ledger.Tidy := by
  have htidy : (arbitrate (c.arbitration_context context) c.world.ledger).2.Tidy :=
    ArbitrationContext.tidy_decide_all _ _ 0 0 h
  have hstaged : (arbitrate (c.arbitration_context context) c.world.ledger).2.Derives
      c.world.ledger := by
    intro r hr
    refine ⟨r, ?_, rfl⟩
    have hfind := ArbitrationContext.decide_all_find (c.arbitration_context context)
      (order_candidates ((c.arbitration_context context).candidates.filterMap
        (c.arbitration_context context).jobs.find) (c.arbitration_context context).policy) 0 0
      c.world.ledger (hn r hr)
    have hheld : c.world.ledger.find r.id = some r := Table.find_iff_mem.mpr hr
    exact Table.mem_of_find (hfind.trans hheld)
  exact (derives_apply_decisions context.now _ hstaged).tidy htidy

/-! ## Restart -/

theorem tidy_reissue (c : Controller) (j : MaintenanceJob) (now : Nanos) (h : c.world.ledger.Tidy) :
    (c.reissue j now).2.world.ledger.Tidy := by
  unfold reissue
  simp only
  rcases Store.reserve_authority_cases c.store
      (c.reissued_reservation (c.new_attempt_locked (c.fenced_job j now) now) now) with
    ⟨e, he, hb⟩ | ⟨g, staging, hreserve, hid, hb⟩
  · split
    · next heq =>
      rw [heq] at hb
      rw [world_of_books hb]
      exact h
    · next heq =>
      rw [heq] at he
      cases he
  · split
    · next heq =>
      rw [heq] at hid
      cases hid
    · next id store heq =>
      rw [heq] at hb
      show store.books.ledger.Tidy
      rw [hb]
      exact h.reserve hreserve

/-- Blocking a prepared job can give its authority back, and that is all. -/
theorem derives_reblocked (c : Controller) (prepared : MaintenanceJob) (removed : Bool)
    (now : Nanos) :
    c.world.ledger.Derives (c.reblocked prepared removed now).2.ctl.world.ledger := by
  have hsame : c.world.ledger.Derives c.world.ledger :=
    AuthorityLedger.derives_of_subset (fun _ h => h)
  unfold reblocked
  split
  · rcases Drive.transition_cases { ctl := c, job := prepared } .Blocked .ReconciledAfterRestart
        (if removed then
          text "controller restarted while the scope was out of service; verification and restoration are mandatory"
         else text "controller restarted; prerequisites must be re-established") now with
      hno | ⟨_, _, hmoved⟩
    · rw [hno]
      exact hsame
    · rcases hmoved.world with hw | ⟨hw, _, _⟩
      · rw [hw]
        exact hsame
      · rw [hw]
        exact AuthorityLedger.derives_of_subset (fun _ hr => (Table.mem_erase.mp hr).1)
  · exact hsame

theorem tidy_reconcile_job (r : Reconciling) (j : MaintenanceJob) (now : Nanos)
    (h : r.ctl.world.ledger.Tidy) : (reconcile_job r j now).ctl.world.ledger.Tidy := by
  rw [reconcile_job_eq]
  by_cases hneeds : r.ctl.needs_reconciling j = true
  · rw [if_pos hneeds]
    have hcopied : (r.copied j now).2.1.world.ledger.Tidy := by
      unfold Reconciling.copied
      by_cases hremoved : j.service_removed = true
      · rw [if_pos hremoved]
        exact r.ctl.tidy_reissue j now h
      · rw [if_neg hremoved]
        unfold abandon_lease
        simp only
        split <;> exact h
    exact ((r.copied j now).2.1.derives_reblocked (r.copied j now).1 j.service_removed
      now).tidy hcopied
  · rw [if_neg hneeds]
    exact h

theorem tidy_reconcile_locked (c : Controller) (now : Nanos) (h : c.world.ledger.Tidy) :
    (c.reconcile_locked now).2.world.ledger.Tidy := by
  unfold reconcile_locked
  simp only
  have hfence : ({ c with store := c.store.fence_authority c.incarnation } :
      Controller).world.ledger.Tidy := by
    rcases Store.fence_authority_books c.store c.incarnation with hb | hb
    · rw [world_of_books hb]
      exact h
    · show (c.store.fence_authority c.incarnation).books.ledger.Tidy
      rw [hb]
      refine AuthorityLedger.Derives.tidy ?_ h
      exact AuthorityLedger.derives_of_subset (fun _ hr => (Table.mem_filter.mp hr).1)
  -- The induction is on the jobs; the commit behind the loop leaves the ledger alone.
  have hloop : ∀ (jobs : List MaintenanceJob) (r : Reconciling), r.ctl.world.ledger.Tidy →
      (jobs.foldl (fun r job => reconcile_job r job now) r).ctl.world.ledger.Tidy := by
    intro jobs
    induction jobs with
    | nil => exact fun _ h => h
    | cons j jobs ih => exact fun r h => ih _ (tidy_reconcile_job r j now h)
  have hreconciled := hloop (c.store.fence_authority c.incarnation).state.jobs.jobs.rows
    { ctl := { c with store := c.store.fence_authority c.incarnation } } hfence
  generalize (c.store.fence_authority c.incarnation).state.jobs.jobs.rows.foldl
    (fun r job => reconcile_job r job now)
    { ctl := { c with store := c.store.fence_authority c.incarnation } } = r at hreconciled ⊢
  split
  · exact hreconciled
  · have hledger := (Store.commit_jobs_aside r.ctl.store (r.updates.map (r.ctl.stamped now))).1
    have hkept : (r.ctl.store.commit_jobs
      (r.updates.map (r.ctl.stamped now))).2.books.ledger.Tidy := by
      rw [hledger]
      exact hreconciled
    split
    · next heq =>
      rw [heq] at hkept
      exact hkept
    · next heq =>
      rw [heq] at hkept
      exact hkept

theorem tidy_open (c : Controller) (options : ControllerOptions) (clock : Nanos) (steady : Nat)
    (h : c.world.ledger.Tidy) :
    (Controller.open c.store options clock steady).2.world.ledger.Tidy := by
  unfold Controller.open
  simp only
  generalize hstore : ({ state := recovered c.store.state options, verdicts := c.store.verdicts
                         log := c.store.log, digests := c.store.digests } : Store) = store
  have hledger : store.books.ledger = c.world.ledger := by
    rw [← hstore]
    rfl
  have hbegun : (store.begin_incarnation options.controller_id options.nonce
      steady).2.books.ledger.Tidy := by
    rcases Store.begin_incarnation_cases store options.controller_id options.nonce steady with
      ⟨e, _, hb⟩ | ⟨incarnation, _, _, hb⟩
    · rw [hb, hledger]
      exact h
    · rw [hb]
      show store.books.ledger.Tidy
      rw [hledger]
      exact h
  split
  · next heq =>
    rw [heq] at hbegun
    exact hbegun
  · next heq =>
    rw [heq] at hbegun
    exact tidy_reconcile_locked _ clock hbegun

end Controller

end MaintenanceFabric
