import MaintenanceFabric.Store.Sessions

/-! # What the calls write

    Memory beside the journal.  A call is mirrored when the entries it adds to
    the log do to the state exactly what the call did to it.  Most calls are;
    those that install what they were given, and not what its record decodes
    to, are mirrored when the two agree.
-/

namespace MaintenanceFabric

open Lib

/-! ## What a replay leaves -/

/-- The reservations have records that decode, and the leases have identities. -/
structure Image.Recordable (i : Image) : Prop where
  reservations : ∀ r ∈ i.reservations.rows, check_reservation_record r = .ok ()
  leases : ∀ l ∈ i.leases.rows, l.id.valid = true

namespace Image.Recordable

theorem of_eq {i i' : Image} (h : i.Recordable) (hreservations : i'.reservations = i.reservations)
    (hleases : i'.leases = i.leases) : i'.Recordable := by
  constructor
  · rw [hreservations]
    exact h.reservations
  · rw [hleases]
    exact h.leases

theorem effect {i : Image} (h : i.Recordable) (e : Entry) : (i.effect e).Recordable := by
  -- Only reservations and leases are bounded here; the other entries leave both tables.
  cases e with
  | reservation r digest =>
    unfold Image.effect
    simp only
    split
    · exact h
    · next hcheck =>
      refine ⟨?_, h.leases⟩
      intro r' hr'
      rcases Table.mem_put.mp hr' with rfl | ⟨hold, -⟩
      · exact hcheck
      · exact h.reservations r' hold
  | reservation_erased id =>
    unfold Image.effect
    simp only
    split
    · exact ⟨fun r hr => h.reservations r (Table.mem_erase.mp hr).1, h.leases⟩
    · exact h
  | lease l =>
    unfold Image.effect
    simp only
    split
    · exact h
    · next hcheck =>
      refine ⟨h.reservations, ?_⟩
      intro l' hl'
      rcases Table.mem_put.mp hl' with rfl | ⟨hold, -⟩
      · simp only [check_lease_record, Result.bind_eq_ok, refuse_if_eq_ok,
          Bool.not_eq_false'] at hcheck
        obtain ⟨_, _, hid⟩ := hcheck
        exact hid
      · exact h.leases l' hold
  | lease_erased id =>
    unfold Image.effect
    simp only
    split
    · exact ⟨h.reservations, fun l hl => h.leases l (Table.mem_erase.mp hl).1⟩
    · exact h
  | topology t =>
    unfold Image.effect
    simp only
    split <;> exact h.of_eq rfl rfl
  | policy p =>
    unfold Image.effect
    simp only
    split <;> exact h.of_eq rfl rfl
  | job j =>
    unfold Image.effect
    simp only
    split <;> exact h.of_eq rfl rfl
  | job_erased id =>
    unfold Image.effect
    simp only
    split <;> exact h.of_eq rfl rfl
  | evidence r digest =>
    unfold Image.effect
    simp only
    split <;> exact h.of_eq rfl rfl
  | quarantine q digest =>
    unfold Image.effect
    simp only
    split <;> exact h.of_eq rfl rfl
  | boot incarnation prior =>
    unfold Image.effect
    simp only
    split <;> exact h.of_eq rfl rfl

theorem effects {entries : List Entry} {i : Image} (h : i.Recordable) :
    (entries.foldl Image.effect i).Recordable := by
  induction entries generalizing i with
  | nil => exact h
  | cons e entries ih => exact ih (h.effect e)

end Image.Recordable

namespace Store

/-- Memory, and what was written beside it. -/
def journaled (s : Store) : Journaled Image Entry := ⟨s.image, s.log⟩

/-- The step wrote what it did. -/
def Mirrored (s s' : Store) : Prop :=
  Logged Image.effect (fun _ => True) s.journaled s'.journaled

theorem Mirrored.idle {s s' : Store} (hlog : s'.log = s.log) (himage : s'.image = s.image) :
    Mirrored s s' :=
  Logged.idle hlog himage

theorem Mirrored.commit {s s' : Store} {entries : List Entry} (hlog : s'.log = s.log ++ [entries])
    (himage : s'.image = entries.foldl Image.effect s.image) : Mirrored s s' :=
  Logged.commit hlog himage (fun _ _ => trivial)

/-! ## The journal boundary

    A journal that takes every write refuses only what it does not admit.
-/

theorem append_transaction_refused {s s' : Store} {entries : List Entry} {e : Error}
    (h : s.verdicts = []) (happend : s.append_transaction entries = (.error e, s')) : s' = s := by
  cases hadm : admit_transaction entries with
  | error e' =>
    unfold append_transaction at happend
    rw [hadm] at happend
    cases happend
    rfl
  | ok _ =>
    rw [append_transaction_of_verdicts_nil h hadm] at happend
    cases happend

theorem append_transaction_taken {s s' : Store} {entries : List Entry} {u : Unit}
    (h : s.verdicts = []) (happend : s.append_transaction entries = (.ok u, s')) :
    admit_transaction entries = .ok () ∧ s' = { s with log := s.log ++ [entries] } := by
  have hadm := (append_transaction_ok happend).1
  rw [append_transaction_of_verdicts_nil h hadm] at happend
  cases happend
  exact ⟨hadm, rfl⟩

theorem append_and_flush_refused {s s' : Store} {entries : List Entry} {e : Error}
    (h : s.verdicts = []) (happend : s.append_and_flush entries = (.error e, s')) : s' = s := by
  cases hadm : admit_transaction entries with
  | error e' =>
    unfold append_and_flush at happend
    split at happend
    · cases happend
      rfl
    · split at happend
      · next hwritten =>
        cases happend
        exact append_transaction_refused h hwritten
      · next hwritten =>
        rw [(append_transaction_ok hwritten).1] at hadm
        cases hadm
  | ok _ =>
    rw [append_and_flush_of_verdicts_nil h hadm] at happend
    cases happend

theorem append_and_flush_taken {s s' : Store} {entries : List Entry} {u : Unit}
    (h : s.verdicts = []) (happend : s.append_and_flush entries = (.ok u, s')) :
    admit_transaction entries = .ok () ∧ s' = { s with log := s.log ++ [entries] } := by
  have hadm := (append_and_flush_ok happend).1
  rw [append_and_flush_of_verdicts_nil h hadm] at happend
  cases happend
  exact ⟨hadm, rfl⟩

/-! ## Incarnations and structure -/

theorem mirrored_begin_incarnation {s : Store} (h : s.verdicts = []) (controller : ControllerId)
    (nonce steady : Nat) : Mirrored s (s.begin_incarnation controller nonce steady).2 := by
  have hvalid : ∀ i, (s.begin_incarnation controller nonce steady).1 = .ok i → i.valid = true :=
    fun _ => begin_incarnation_valid
  unfold begin_incarnation at hvalid ⊢
  split
  · exact .idle rfl rfl
  · next hcontroller =>
    simp only [hcontroller] at hvalid
    simp only
    split
    · next hwritten =>
      rw [append_and_flush_refused h hwritten]
      exact .idle rfl rfl
    · next hwritten =>
      rw [hwritten] at hvalid
      have hincarnation := hvalid _ rfl
      obtain ⟨-, rfl⟩ := append_and_flush_taken h hwritten
      apply Mirrored.commit rfl
      simp only [List.foldl_cons, List.foldl_nil, Image.effect, hincarnation, if_true]
      rfl

theorem mirrored_commit_topology {s : Store} (h : s.verdicts = []) (t : Topology) :
    Mirrored s (s.commit_topology t).2 := by
  unfold commit_topology
  split
  · exact .idle rfl rfl
  · split
    · next hwritten =>
      rw [append_and_flush_refused h hwritten]
      exact .idle rfl rfl
    · next hwritten =>
      obtain ⟨-, rfl⟩ := append_and_flush_taken h hwritten
      split
      · next hrecorded =>
        apply Mirrored.commit rfl
        simp only [List.foldl_cons, List.foldl_nil, Image.effect, hrecorded]
        rfl
      · next hrecorded =>
        apply Mirrored.commit rfl
        simp only [List.foldl_cons, List.foldl_nil, Image.effect, hrecorded]
        rfl

theorem mirrored_commit_policy {s : Store} (h : s.verdicts = []) (p : Policy) :
    Mirrored s (s.commit_policy p).2 := by
  unfold commit_policy
  split
  · exact .idle rfl rfl
  · split
    · next hwritten =>
      rw [append_and_flush_refused h hwritten]
      exact .idle rfl rfl
    · next hwritten =>
      obtain ⟨-, rfl⟩ := append_and_flush_taken h hwritten
      split
      · next hrecorded =>
        apply Mirrored.commit rfl
        simp only [List.foldl_cons, List.foldl_nil, Image.effect, hrecorded]
        rfl
      · next hrecorded =>
        apply Mirrored.commit rfl
        simp only [List.foldl_cons, List.foldl_nil, Image.effect, hrecorded]
        rfl

/-! ## Jobs -/

theorem mirrored_create_job {s : Store} (h : s.verdicts = []) (job : MaintenanceJob) :
    Mirrored s (s.create_job job).2 := by
  have hmoved : (s.with_jobs { s.state.jobs with
      next_id := s.state.jobs.next_id.next }).verdicts = [] := h
  unfold create_job
  split
  · exact .idle rfl rfl
  · simp only
    split
    · exact .idle rfl rfl
    · split
      · next hwritten =>
        rw [append_and_flush_refused hmoved hwritten]
        exact .idle rfl rfl
      · next hwritten =>
        obtain ⟨-, rfl⟩ := append_and_flush_taken hmoved hwritten
        split
        · next hrecorded =>
          apply Mirrored.commit rfl
          simp only [List.foldl_cons, List.foldl_nil, Image.effect, hrecorded]
          rfl
        · next hrecorded =>
          apply Mirrored.commit rfl
          simp only [List.foldl_cons, List.foldl_nil, Image.effect, hrecorded]
          rfl

theorem mirrored_commit_job {s : Store} (h : s.verdicts = []) (job : MaintenanceJob) :
    Mirrored s (s.commit_job job).2 := by
  unfold commit_job
  split
  · exact .idle rfl rfl
  · split
    · next hwritten =>
      rw [append_and_flush_refused h hwritten]
      exact .idle rfl rfl
    · next hwritten =>
      obtain ⟨-, rfl⟩ := append_and_flush_taken h hwritten
      split
      · next hrecorded =>
        apply Mirrored.commit rfl
        simp only [List.foldl_cons, List.foldl_nil, Image.effect, hrecorded]
        rfl
      · next hrecorded =>
        apply Mirrored.commit rfl
        simp only [List.foldl_cons, List.foldl_nil, Image.effect, hrecorded]
        rfl

theorem mirrored_commit_job_erased {s : Store} (h : s.verdicts = []) (id : JobId) :
    Mirrored s (s.commit_job_erased id).2 := by
  unfold commit_job_erased
  split
  · exact .idle rfl rfl
  · split
    · next hwritten =>
      rw [append_and_flush_refused h hwritten]
      exact .idle rfl rfl
    · next hwritten =>
      obtain ⟨-, rfl⟩ := append_and_flush_taken h hwritten
      by_cases hid : id.valid = true
      · rw [if_pos hid]
        apply Mirrored.commit rfl
        simp only [List.foldl_cons, List.foldl_nil, Image.effect, hid, if_true]
        rfl
      · rw [if_neg hid]
        apply Mirrored.commit rfl
        simp only [List.foldl_cons, List.foldl_nil, Image.effect, hid]
        rfl

/-! ### Several jobs at once -/

/-- The batch gets past the job table and the journal. -/
def takes_batch (s : Store) (jobs : List MaintenanceJob) : Prop :=
  (∃ staged, put_all s.state.jobs [] jobs = .ok staged) ∧
    admit_transaction (jobs.map .job) = .ok ()

/-- A batch that is taken holds only jobs whose records decode. One that is refused, or in which
    no record decodes, names no job twice. -/
def keeps_batch (s : Store) (jobs : List MaintenanceJob) : Prop :=
  (s.takes_batch jobs ∧ ∀ j ∈ jobs, check_job_record j = .ok ()) ∨
    (jobs.map MaintenanceJob.id).Nodup ∧
      (¬ s.takes_batch jobs ∨ ∀ j ∈ jobs, check_job_record j ≠ .ok ())

/-- The records of jobs within the bounds, one after the other. -/
theorem effects_jobs {jobs : List MaintenanceJob} (h : ∀ j ∈ jobs, check_job_record j = .ok ())
    (i : Image) : (jobs.map .job).foldl Image.effect i =
      { i with jobs := (jobs.map clipped_job).foldl Table.put i.jobs } := by
  induction jobs generalizing i with
  | nil => rfl
  | cons j jobs ih =>
    have hj : recorded_job j = .ok (clipped_job j) := by
      rw [recorded_job, h j List.mem_cons_self]
      rfl
    have heffect : i.effect (.job j) = { i with jobs := i.jobs.put (clipped_job j) } := by
      simp only [Image.effect, hj]
    simp only [List.map_cons, List.foldl_cons, heffect]
    exact ih (fun x hx => h x (List.mem_cons_of_mem _ hx)) _

theorem effects_jobs_undecodable {jobs : List MaintenanceJob}
    (h : ∀ j ∈ jobs, check_job_record j ≠ .ok ()) (i : Image) :
    (jobs.map .job).foldl Image.effect i = i := by
  induction jobs generalizing i with
  | nil => rfl
  | cons j jobs ih =>
    have heffect : i.effect (.job j) = i := by
      unfold Image.effect
      simp only
      split
      · rfl
      · next hrecorded => exact absurd (recorded_job_ok hrecorded).2 (h j List.mem_cons_self)
    simp only [List.map_cons, List.foldl_cons, heffect]
    exact ih (fun x hx => h x (List.mem_cons_of_mem _ hx)) _

/-- Undoing a batch that names no job twice restores the table. -/
theorem roll_back_refused {jobs previous : List MaintenanceJob} {table : JobTable} {e : Error}
    (hnd : (jobs.map MaintenanceJob.id).Nodup)
    (hput : put_all table [] jobs = .error (e, previous)) :
    (roll_back table previous).jobs = table.jobs := by
  obtain ⟨olds, hprevious, holds⟩ := put_all_previous hnd (.inl ⟨e, hput⟩)
  rw [List.nil_append] at hprevious
  subst hprevious
  exact Table.foldl_put_of_subset (fun o ho => (holds o ho).1)

theorem roll_back_staged {jobs previous : List MaintenanceJob} {table staged : JobTable}
    (hnd : (jobs.map MaintenanceJob.id).Nodup)
    (hput : put_all table [] jobs = .ok (staged, previous)) :
    (roll_back staged previous).jobs = table.jobs := by
  obtain ⟨olds, hprevious, holds⟩ := put_all_previous hnd (.inr ⟨staged, hput⟩)
  rw [List.nil_append] at hprevious
  subst hprevious
  obtain ⟨hjobs, -, hall⟩ := put_all_ok hput
  simp only [roll_back, hjobs]
  exact roll_back_put_all (fun o ho => (holds o ho).1) hall

theorem recorded_jobs_of_check {jobs : List MaintenanceJob}
    (h : ∀ j ∈ jobs, check_job_record j = .ok ()) :
    recorded_jobs jobs = .ok (jobs.map clipped_job) := by
  induction jobs with
  | nil => rfl
  | cons j jobs ih =>
    have hj : recorded_job j = .ok (clipped_job j) := by
      rw [recorded_job, h j List.mem_cons_self]
      rfl
    have hrest := ih (fun x hx => h x (List.mem_cons_of_mem _ hx))
    unfold recorded_jobs at hrest ⊢
    rw [List.mapM_cons, hj, Result.ok_bind, hrest]
    rfl

theorem mirrored_commit_jobs {s : Store} (h : s.verdicts = []) {jobs : List MaintenanceJob}
    (hkeeps : s.keeps_batch jobs) : Mirrored s (s.commit_jobs jobs).2 := by
  -- A table that is rolled back leaves the image as it was.
  have hback : ∀ {t : JobTable}, t.jobs = s.state.jobs.jobs → (s.with_jobs t).image = s.image := by
    intro t ht
    simp only [image, with_jobs, ht]
  unfold commit_jobs
  split
  · exact .idle rfl rfl
  · next hne =>
    cases hput : put_all s.state.jobs [] jobs with
    | error r =>
      obtain ⟨e, previous⟩ := r
      rcases hkeeps with ⟨⟨⟨staged, hstaged⟩, -⟩, -⟩ | ⟨hnd, -⟩
      · rw [hput] at hstaged
        cases hstaged
      · exact .idle rfl (hback (roll_back_refused hnd hput))
    | ok r =>
      obtain ⟨table, previous⟩ := r
      simp only
      split
      · next hwritten =>
        rcases hkeeps with ⟨⟨-, hadm⟩, -⟩ | ⟨hnd, -⟩
        · rw [append_and_flush_of_verdicts_nil h hadm] at hwritten
          cases hwritten
        · rw [append_and_flush_refused h hwritten]
          exact .idle rfl (hback (roll_back_staged hnd hput))
      · next hwritten =>
        obtain ⟨hadm, rfl⟩ := append_and_flush_taken h hwritten
        have htaken : s.takes_batch jobs := ⟨⟨_, hput⟩, hadm⟩
        rcases hkeeps with ⟨-, hcheck⟩ | ⟨hnd, hnone⟩
        · rw [recorded_jobs_of_check hcheck]
          apply Mirrored.commit rfl
          rw [effects_jobs hcheck]
          obtain ⟨hjobs, -⟩ := put_all_ok hput
          simp only [image, with_jobs, hjobs, put_images]
        · have hundecodable := hnone.resolve_left (not_not_intro htaken)
          split
          · apply Mirrored.commit rfl
            rw [effects_jobs_undecodable hundecodable]
            exact hback (roll_back_staged hnd hput)
          · next himages =>
            -- A batch is not empty, so one of its jobs would have decoded.
            exfalso
            cases jobs with
            | nil => exact hne rfl
            | cons j jobs =>
              exact hundecodable j List.mem_cons_self
                ((recorded_jobs_ok himages).2 j List.mem_cons_self)

/-! ## Evidence -/

theorem mirrored_observe_evidence {s : Store} (h : s.verdicts = []) (evidence : EvidenceRecord)
    (digest : UInt64) : Mirrored s (s.observe_evidence evidence digest).2 := by
  unfold observe_evidence
  split
  · exact .idle rfl rfl
  · next staging hobserve =>
    split
    · next hwritten =>
      rw [append_transaction_refused h hwritten]
      exact .idle rfl rfl
    · next hwritten =>
      obtain ⟨-, rfl⟩ := append_transaction_taken h hwritten
      have hobserve' : s.image.evidence.observe evidence = .ok staging := hobserve
      apply Mirrored.commit rfl
      simp only [List.foldl_cons, List.foldl_nil, Image.effect, hobserve']
      rfl

/-! ## Authority -/

theorem mirrored_install_ledger {s : Store} (h : s.verdicts = []) {entries : List Entry}
    {staging : AuthorityLedger} {digests : Digests}
    (heffect : admit_transaction entries = .ok () → entries.foldl Image.effect s.image =
      { s.image with reservations := staging.reservations, digests }) :
    Mirrored s (s.install_ledger entries staging digests).2 := by
  unfold install_ledger
  split
  · next hwritten =>
    rw [append_transaction_refused h hwritten]
    exact .idle rfl rfl
  · next hwritten =>
    obtain ⟨hadm, rfl⟩ := append_transaction_taken h hwritten
    apply Mirrored.commit rfl
    rw [heffect hadm]
    rfl

/-- Whether a single record is admitted depends on its size alone. -/
theorem admit_single_congr {e e' : Entry} (h : e.size = e'.size) :
    admit_transaction [e] = admit_transaction [e'] := by
  simp only [admit_transaction, check_entries, transaction_size, List.any_cons, List.any_nil,
    List.map_cons, List.map_nil, h, List.length_cons, List.length_nil, List.isEmpty_cons]

theorem effect_reservation {i : Image} {r : AuthorityReservation}
    (h : check_reservation_record r = .ok ()) (digest : UInt64) :
    i.effect (.reservation r digest) =
      { i with
        reservations := i.reservations.put r
        digests := i.digests.with_reservation r.id (sealed digest (reservation_digest r)) } := by
  unfold Image.effect
  simp only [h]

theorem sealed_self (digest : UInt64) : sealed digest digest = digest := by
  unfold sealed
  split <;> rfl

/-- The ledger takes the request, and the record of what it grants decodes. -/
def keeps_reserve (s : Store) (r : AuthorityReservation) : Prop :=
  s.state.ledger.check_reservation r = .ok () → admit_transaction [.reservation r 0] = .ok () →
    check_reservation_lists r = .ok ()

/-- What is granted on a valid identity, with lists within the bounds, has a record that
    decodes. -/
theorem granted_recordable {l staging : AuthorityLedger} {r granted : AuthorityReservation}
    (hreserve : l.reserve r = .ok (granted, staging)) (hnext : l.next_id.valid = true)
    (hlists : check_reservation_lists r = .ok ()) : check_reservation_record granted = .ok () := by
  obtain ⟨_, hcheck, hgrant⟩ := Result.bind_eq_ok.mp hreserve
  obtain ⟨rfl, -⟩ := Prod.mk.inj (Except.ok.inj hgrant)
  simp only [AuthorityLedger.check_reservation, Result.bind_eq_ok, refuse_if_eq_ok,
    Bool.or_eq_false_iff, Bool.not_eq_false'] at hcheck
  obtain ⟨_, ⟨hjob, -⟩, _, hattempt, _, howner, -⟩ := hcheck
  have hlists' : check_reservation_lists { r with id := l.next_id, revision := ⟨1⟩ } = .ok () :=
    hlists
  simp only [check_reservation_record, hlists', Result.ok_bind, refuse_if_eq_ok, hnext, hjob,
    hattempt, howner, Bool.not_true, Bool.or_false]

theorem mirrored_reserve_authority {s : Store} (h : s.verdicts = [])
    (hnext : s.state.ledger.next_id.valid = true) {r : AuthorityReservation}
    (hkeeps : s.keeps_reserve r) : Mirrored s (s.reserve_authority r).2 := by
  unfold reserve_authority
  split
  · exact .idle rfl rfl
  · next granted staging hreserve =>
    have hinstalled : Mirrored s (s.install_ledger
        [.reservation granted (reservation_digest granted)] staging
        (s.digests.with_reservation granted.id (reservation_digest granted))).2 := by
      apply mirrored_install_ledger h
      intro hadm
      obtain ⟨hgranted, hstaging, -, -⟩ := AuthorityLedger.reserve_ok hreserve
      obtain ⟨_, hcheck, -⟩ := Result.bind_eq_ok.mp hreserve
      have hsize : (Entry.reservation granted (reservation_digest granted)).size =
          (Entry.reservation r 0).size := by
        rw [hgranted]
        rfl
      rw [admit_single_congr hsize] at hadm
      have hrecord := granted_recordable hreserve hnext (hkeeps hcheck hadm)
      rw [List.foldl_cons, List.foldl_nil, effect_reservation hrecord, sealed_self, hstaging]
      rfl
    simp only
    split
    · next heq =>
      rw [heq] at hinstalled
      exact hinstalled
    · next heq =>
      rw [heq] at hinstalled
      exact hinstalled

/-- An adopted reservation that is journaled has a record that decodes. -/
def keeps_insert (r : AuthorityReservation) : Prop :=
  r.id.valid = true → r.job.valid = true → admit_transaction [.reservation r 0] = .ok () →
    check_reservation_record r = .ok ()

theorem mirrored_insert_authority {s : Store} (h : s.verdicts = []) {r : AuthorityReservation}
    (digest : UInt64) (hkeeps : keeps_insert r) :
    Mirrored s (s.insert_authority r digest).2 := by
  unfold insert_authority
  split
  · exact .idle rfl rfl
  · next staging hadopt =>
    apply mirrored_install_ledger h
    intro hadm
    rw [admit_single_congr (show (Entry.reservation r digest).size = (Entry.reservation r 0).size
      from rfl)] at hadm
    have hvalid := hadopt
    unfold AuthorityLedger.adopt at hvalid
    obtain ⟨_, hvalid, -⟩ := Result.bind_eq_ok.mp hvalid
    rw [refuse_if_eq_ok, Bool.or_eq_false_iff, Bool.not_eq_false', Bool.not_eq_false'] at hvalid
    rw [List.foldl_cons, List.foldl_nil, effect_reservation (hkeeps hvalid.1 hvalid.2 hadm),
      AuthorityLedger.adopt_ok hadopt]
    rfl

theorem mirrored_release_authority {s : Store} (h : s.verdicts = []) (hholds : s.image.Recordable)
    (id : AuthorityId) (current : ControllerIncarnation) :
    Mirrored s (s.release_authority id current).2 := by
  unfold release_authority
  split
  · exact .idle rfl rfl
  · next staging hrelease =>
    apply mirrored_install_ledger h
    intro _
    obtain ⟨r, hfind, rfl⟩ := AuthorityLedger.release_ok hrelease
    obtain ⟨hmem, rfl⟩ := Table.find_eq_some_iff.mp hfind
    have hid := (check_reservation_record_valid (hholds.reservations r hmem)).1
    simp only [List.foldl_cons, List.foldl_nil, Image.effect, hid, if_true]
    rfl

theorem mirrored_renew_authority {s : Store} (h : s.verdicts = []) (hholds : s.image.Recordable)
    (id : AuthorityId) (attempt : AttemptId) (current : ControllerIncarnation)
    (extend now : Nanos) : Mirrored s (s.renew_authority id attempt current extend now).2 := by
  unfold renew_authority
  split
  · exact .idle rfl rfl
  · next staging hrenew =>
    split
    · exact .idle rfl rfl
    · next stored hstored =>
      apply mirrored_install_ledger h
      intro _
      obtain ⟨r, e, v, hfind, -, rfl⟩ := AuthorityLedger.renew_ok hrenew
      obtain ⟨hmem, rfl⟩ := Table.find_eq_some_iff.mp hfind
      have hrenewed : stored = { r with expires_at := e, revision := v } :=
        (Option.some.inj ((Table.find_put_self _ _).symm.trans hstored)).symm
      have hrecord : check_reservation_record stored = .ok () := by
        rw [hrenewed]
        exact hholds.reservations r hmem
      rw [List.foldl_cons, List.foldl_nil, effect_reservation hrecord, sealed_self, hrenewed]
      rfl

/-- One record for each reservation that is erased. -/
theorem effects_erased {rows : List AuthorityReservation} (h : ∀ r ∈ rows, r.id.valid = true)
    (i : Image) : (rows.map (fun r => .reservation_erased r.id)).foldl Image.effect i =
      { i with
        reservations := (rows.map AuthorityReservation.id).foldl Table.erase i.reservations } := by
  induction rows generalizing i with
  | nil => rfl
  | cons r rows ih =>
    have hid := h r List.mem_cons_self
    have heffect : i.effect (.reservation_erased r.id) =
        { i with reservations := i.reservations.erase r.id } := by
      simp only [Image.effect, hid, if_true]
    simp only [List.map_cons, List.foldl_cons, heffect]
    exact ih (fun x hx => h x (List.mem_cons_of_mem _ hx)) _

/-- Erasing the held reservations that have a property. -/
theorem effects_erased_held {s : Store} (hholds : s.image.Recordable)
    (p : AuthorityReservation → Bool) :
    ((s.state.ledger.reservations.rows.filter p).map
        (fun r => .reservation_erased r.id)).foldl Image.effect s.image =
      { s.image with reservations := s.state.ledger.reservations.filter (fun r => !p r) } := by
  have hvalid : ∀ r ∈ s.state.ledger.reservations.rows.filter p, r.id.valid = true := by
    intro r hr
    exact (check_reservation_record_valid (hholds.reservations r (List.mem_filter.mp hr).1)).1
  rw [effects_erased hvalid, ← Table.foldl_erase_filter]
  rfl

theorem mirrored_expire_authority {s : Store} (h : s.verdicts = []) (hholds : s.image.Recordable)
    (now : Nanos) : Mirrored s (s.expire_authority now) := by
  unfold expire_authority
  simp only
  split
  · exact .idle rfl rfl
  · apply mirrored_install_ledger h
    intro _
    rw [effects_erased_held hholds]
    simp only [Bool.not_not]
    rfl

theorem mirrored_fence_authority {s : Store} (h : s.verdicts = []) (hholds : s.image.Recordable)
    (current : ControllerIncarnation) : Mirrored s (s.fence_authority current) := by
  unfold fence_authority
  simp only
  split
  · exact .idle rfl rfl
  · apply mirrored_install_ledger h
    intro _
    exact effects_erased_held hholds _

/-! ## Leases and quarantine -/

/-- A lease that is journaled has a record that decodes. -/
def keeps_lease (lease : DrainLease) : Prop :=
  admit_transaction [.lease lease] = .ok () → check_lease_record lease = .ok ()

theorem mirrored_commit_lease {s : Store} (h : s.verdicts = []) {lease : DrainLease}
    (hkeeps : keeps_lease lease) : Mirrored s (s.commit_lease lease).2 := by
  unfold commit_lease
  split
  · next hwritten =>
    rw [append_transaction_refused h hwritten]
    exact .idle rfl rfl
  · next hwritten =>
    obtain ⟨hadm, rfl⟩ := append_transaction_taken h hwritten
    apply Mirrored.commit rfl
    simp only [List.foldl_cons, List.foldl_nil, Image.effect, hkeeps hadm]
    rfl

theorem mirrored_commit_lease_erased {s : Store} (h : s.verdicts = []) (hholds : s.image.Recordable)
    (id : DrainLeaseId) : Mirrored s (s.commit_lease_erased id).2 := by
  unfold commit_lease_erased
  split
  · next hwritten =>
    rw [append_transaction_refused h hwritten]
    exact .idle rfl rfl
  · next hwritten =>
    obtain ⟨-, rfl⟩ := append_transaction_taken h hwritten
    apply Mirrored.commit rfl
    by_cases hid : id.valid = true
    · simp only [List.foldl_cons, List.foldl_nil, Image.effect, hid, if_true]
      rfl
    · -- Nothing is stored under an identity that is not valid.
      have hnone : s.state.leases.find id = none := by
        by_contra hsome
        obtain ⟨l, hl⟩ := Option.ne_none_iff_exists'.mp hsome
        obtain ⟨hmem, rfl⟩ := Table.find_eq_some_iff.mp hl
        exact hid (hholds.leases l hmem)
      simp only [List.foldl_cons, List.foldl_nil, Image.effect, hid]
      simp only [image, Table.erase_of_find_none hnone]
      rfl

/-- A quarantine that its record keeps as it is. -/
def clips_nothing (q : QuarantineRecord) : Prop :=
  check_quarantine_record q = .ok () ∧ clipped_quarantine q = q

theorem effect_quarantine {i : Image} {q : QuarantineRecord} (h : clips_nothing q)
    (digest : UInt64) :
    i.effect (.quarantine q digest) =
      { i with
        quarantines := i.quarantines.put q
        digests := i.digests.with_quarantine q.id (sealed digest (quarantine_digest q)) } := by
  unfold Image.effect
  simp only [h.1, h.2]

/-- What the quarantine table inserts has the identities its record is asked for. -/
theorem insert_quarantine_ok {t t' : QuarantineTable} {q : QuarantineRecord}
    (h : t.insert q = .ok t') :
    check_quarantine_record q = .ok () ∧ t'.records = t.records.put q := by
  unfold QuarantineTable.insert at h
  obtain ⟨_, hvalid, h⟩ := Result.bind_eq_ok.mp h
  obtain ⟨_, _, h⟩ := Result.bind_eq_ok.mp h
  cases h
  rw [refuse_if_eq_ok] at hvalid
  exact ⟨by rw [check_quarantine_record, refuse_if_eq_ok, hvalid], rfl⟩

/-- The detail of a quarantine that is opened fits its record. -/
def keeps_detail (s : Store) (target : TargetId) (detail : Text) : Prop :=
  target.valid = true → (s.state.quarantines.find s.state.quarantines.next_id).isNone = true →
    detail.length ≤ limits.kMaxDetailLength

theorem mirrored_quarantine_target {s : Store} (h : s.verdicts = []) {target : TargetId}
    (job : JobId) (generation : GenerationId) (reason : BlockReason) {detail : Text} (now : Nanos)
    (created_by : ControllerIncarnation) (hkeeps : s.keeps_detail target detail) :
    Mirrored s (s.quarantine_target target job generation reason detail now created_by).2 := by
  have hmoved : (s.with_quarantines
      { s.state.quarantines with next_id := s.state.quarantines.next_id.next }).verdicts = [] := h
  unfold quarantine_target
  simp only
  split
  · exact .idle rfl rfl
  · next staging hinsert =>
    split
    · next hwritten =>
      rw [append_transaction_refused hmoved hwritten]
      exact .idle rfl rfl
    · next hwritten =>
      obtain ⟨-, rfl⟩ := append_transaction_taken hmoved hwritten
      obtain ⟨hcheck, hrecords⟩ := insert_quarantine_ok hinsert
      -- The detail fits whenever the call is let through, so the record reads back whole.
      have hdetail : detail.length ≤ limits.kMaxDetailLength := by
        have hvalid := hcheck
        rw [check_quarantine_record, refuse_if_eq_ok, Bool.or_eq_false_iff,
          Bool.not_eq_false', Bool.not_eq_false'] at hvalid
        unfold QuarantineTable.insert at hinsert
        obtain ⟨_, -, hinsert⟩ := Result.bind_eq_ok.mp hinsert
        obtain ⟨_, hnew, -⟩ := Result.bind_eq_ok.mp hinsert
        rw [refuse_if_eq_ok, Option.isSome_eq_false_iff] at hnew
        exact hkeeps hvalid.2 hnew
      have hclips : clips_nothing
          { id := s.state.quarantines.next_id, target, job, generation, reason, detail
            created_at := now, created_by } :=
        ⟨hcheck, by rw [clipped_quarantine, clip_of_le hdetail]; rfl⟩
      apply Mirrored.commit rfl
      rw [List.foldl_cons, List.foldl_nil, effect_quarantine hclips, sealed_self]
      simp only [image, with_quarantines, hrecords]

/-- A quarantine is journaled as it is kept, under the digest it is kept with. -/
def keeps_quarantine (s : Store) (record : QuarantineRecord) (digest : UInt64) : Prop :=
  if (s.state.quarantines.find record.id).isNone = true then
    check_quarantine_record record = .ok () → clipped_quarantine record = record
  else clips_nothing record ∧ (digest = 0 ∨ digest = quarantine_digest record)

theorem mirrored_commit_quarantine {s : Store} (h : s.verdicts = []) {record : QuarantineRecord}
    {digest : UInt64} (hkeeps : s.keeps_quarantine record digest) :
    Mirrored s (s.commit_quarantine record digest).2 := by
  -- Either way the record and its digest are what the journal gives back.
  have hinstall : ∀ {staging : QuarantineTable} {stored : UInt64} {s' : Store} {u : Unit},
      staging.records = s.state.quarantines.records.put record → clips_nothing record →
      stored = sealed digest (quarantine_digest record) →
      s.append_transaction [.quarantine record digest] = (.ok u, s') →
      Mirrored s { s'.with_quarantines staging with
        digests := s'.digests.with_quarantine record.id stored } := by
    intro staging stored s' u hrecords hclips hstored hwritten
    obtain ⟨-, rfl⟩ := append_transaction_taken h hwritten
    apply Mirrored.commit rfl
    rw [List.foldl_cons, List.foldl_nil, effect_quarantine hclips, hstored]
    simp only [image, with_quarantines, hrecords]
  unfold keeps_quarantine at hkeeps
  unfold commit_quarantine
  by_cases hnew : (s.state.quarantines.find record.id).isNone = true
  · rw [if_pos hnew] at hkeeps ⊢
    simp only
    split
    · exact .idle rfl rfl
    · next staging hinsert =>
      obtain ⟨hcheck, hrecords⟩ := insert_quarantine_ok hinsert
      split
      · next hwritten =>
        rw [append_transaction_refused h hwritten]
        exact .idle rfl rfl
      · next hwritten =>
        exact hinstall hrecords ⟨hcheck, hkeeps hcheck⟩ rfl hwritten
  · rw [if_neg hnew] at hkeeps ⊢
    obtain ⟨hclips, hdigest⟩ := hkeeps
    simp only
    split
    · exact .idle rfl rfl
    · next staging hput =>
      have hrecords : staging.records = s.state.quarantines.records.put record := by
        unfold QuarantineTable.put at hput
        obtain ⟨_, -, hput⟩ := Result.bind_eq_ok.mp hput
        cases hput
        rfl
      have hstored : quarantine_digest record = sealed digest (quarantine_digest record) := by
        rcases hdigest with rfl | rfl
        · rfl
        · exact (sealed_self _).symm
      split
      · next hwritten =>
        rw [append_transaction_refused h hwritten]
        exact .idle rfl rfl
      · next hwritten => exact hinstall hrecords hclips hstored hwritten

/-! ## Every call -/

/-- What the call writes decodes to what the call does. Structural calls install what their record
    decodes to, so only the others are asked anything. -/
def keeps (s : Store) : StoreCall → Prop
  | .commit_jobs jobs => s.keeps_batch jobs
  | .reserve_authority r => s.keeps_reserve r
  | .insert_authority r _ => keeps_insert r
  | .commit_lease lease => keeps_lease lease
  | .quarantine_target target _ _ _ detail _ _ => s.keeps_detail target detail
  | .commit_quarantine record digest => s.keeps_quarantine record digest
  | _ => True

theorem mirrored_call {s : Store} (h : s.verdicts = []) (hholds : s.image.Recordable)
    (hnext : s.state.ledger.next_id.valid = true) {c : StoreCall} (hkeeps : s.keeps c) :
    Mirrored s (s.call c).2 := by
  cases c with
  | begin_incarnation controller nonce steady => exact mirrored_begin_incarnation h _ _ _
  | commit_topology t => exact mirrored_commit_topology h t
  | commit_policy p => exact mirrored_commit_policy h p
  | create_job job => exact mirrored_create_job h job
  | allocate_evidence_id => exact .idle rfl rfl
  | quarantine_target target job generation reason detail now created_by =>
    exact mirrored_quarantine_target h job generation reason now created_by hkeeps
  | commit_job job => exact mirrored_commit_job h job
  | commit_jobs jobs => exact mirrored_commit_jobs h hkeeps
  | commit_job_erased job => exact mirrored_commit_job_erased h job
  | observe_evidence evidence digest => exact mirrored_observe_evidence h evidence digest
  | reserve_authority r => exact mirrored_reserve_authority h hnext hkeeps
  | insert_authority r digest => exact mirrored_insert_authority h digest hkeeps
  | release_authority id current => exact mirrored_release_authority h hholds id current
  | renew_authority id attempt current extend now =>
    exact mirrored_renew_authority h hholds id attempt current extend now
  | expire_authority now => exact mirrored_expire_authority h hholds now
  | fence_authority current => exact mirrored_fence_authority h hholds current
  | commit_lease lease => exact mirrored_commit_lease h hkeeps
  | commit_lease_erased id => exact mirrored_commit_lease_erased h hholds id
  | commit_quarantine record digest => exact mirrored_commit_quarantine h hkeeps
  | flush =>
    have hflush : s.flush = (ok_status, s) := by
      unfold flush next_verdict
      rw [h]
    exact .idle (congrArg (fun x => x.2.log) hflush) (congrArg (fun x => x.2.image) hflush)

end Store

end MaintenanceFabric
