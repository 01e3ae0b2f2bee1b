import MaintenanceFabric.Guarantees.Exclusion

/-! # Reservations of removed service

    Capacity that a job has taken out is meant to stay reserved for as long as
    the job is not over.  Reservations are leases, every pass begins by dropping
    those that have run out, and a lease is renewed only while its job still
    gathers prerequisites.  The guarantee therefore holds along every run in
    which no pass finds such a lease expired.
-/

namespace MaintenanceFabric

open Lib

/-! ## A reservation across changes -/

/-- The ledger holds a reservation for this generation of the job, live at all these times. -/
def AuthorityLedger.Reserves (l : AuthorityLedger) (j : MaintenanceJob)
    (times : List Nanos) : Prop :=
  ∃ r ∈ l.reservations.rows, r.job = j.id ∧ r.generation = j.generation ∧
    ∀ now ∈ times, r.live_at now = true

instance (l : AuthorityLedger) (j : MaintenanceJob) (times : List Nanos) :
    Decidable (l.Reserves j times) :=
  inferInstanceAs (Decidable (∃ r ∈ l.reservations.rows, _))

theorem AuthorityReservation.live_at_longer {r r' : AuthorityReservation} {now : Nanos}
    (h : r.live_at now = true) (hlonger : r.expires_at ≤ r'.expires_at) :
    r'.live_at now = true := by
  unfold live_at at h ⊢
  rw [decide_eq_true_eq] at h ⊢
  exact lt_of_lt_of_le h hlonger

namespace AuthorityLedger.Reserves

variable {l : AuthorityLedger} {j : MaintenanceJob} {times times' : List Nanos}

theorem mono (h : l.Reserves j times) (hsub : times' ⊆ times) : l.Reserves j times' := by
  obtain ⟨r, hr, hjob, hgen, hlive⟩ := h
  exact ⟨r, hr, hjob, hgen, fun now hnow => hlive now (hsub hnow)⟩

/-- Of two reservations the longer one serves for both. -/
theorem merge (h : l.Reserves j times) (h' : l.Reserves j times') :
    l.Reserves j (times ++ times') := by
  obtain ⟨r, hr, hjob, hgen, hlive⟩ := h
  obtain ⟨r', hr', hjob', hgen', hlive'⟩ := h'
  rcases le_total r.expires_at r'.expires_at with hle | hle
  · refine ⟨r', hr', hjob', hgen', ?_⟩
    intro now hnow
    rcases List.mem_append.mp hnow with hnow | hnow
    · exact AuthorityReservation.live_at_longer (hlive now hnow) hle
    · exact hlive' now hnow
  · refine ⟨r, hr, hjob, hgen, ?_⟩
    intro now hnow
    rcases List.mem_append.mp hnow with hnow | hnow
    · exact hlive now hnow
    · exact AuthorityReservation.live_at_longer (hlive' now hnow) hle

end AuthorityLedger.Reserves

section Rows

variable {L : License} {w w' : World}

/-- A row that is live whenever leases run out stays, is extended, or has lost its purpose. -/
theorem Change.row (h : Change L w w') (hw : w.Sound) (hrestart : ¬ L.restarts)
    (hfaulty : ¬ L.faulty)
    {r : AuthorityReservation} (hr : r ∈ w.ledger.reservations.rows)
    (hlive : ∀ now, L.expires now → r.live_at now = true) :
    (∃ r' ∈ w'.ledger.reservations.rows, r'.job = r.job ∧ r'.generation = r.generation ∧
      r.expires_at ≤ r'.expires_at) ∨
    ∃ j', w'.jobs.find r.job = some j' ∧
      (j'.state.is_terminal = true ∨ j'.service_removed = false) := by
  have stays : ∀ {l : AuthorityLedger}, r ∈ l.reservations.rows →
      ∃ r' ∈ l.reservations.rows, r'.job = r.job ∧ r'.generation = r.generation ∧
        r.expires_at ≤ r'.expires_at := fun hr => ⟨r, hr, rfl, rfl, le_refl _⟩
  cases h with
  -- The reservation that goes is the one its job names, and that job has lost its purpose.
  | @retired j j' k stored edit _ _ _ spent =>
    by_cases hid : r.id = j.authority
    · right
      have hjob : r.job = j.id := (hw.named j (Table.mem_of_find stored)).2 r hr hid
      refine ⟨j', ?_, spent⟩
      rw [hjob, ← show j'.id = j.id from edit.id_eq]
      exact Table.find_put_self _ _
    · exact .inl (stays (Table.mem_erase.mpr ⟨hr, hid⟩))
  | @dropped j stored excuse =>
    by_cases hid : r.id = j.authority
    · right
      have hjob : r.job = j.id := (hw.named j (Table.mem_of_find stored)).2 r hr hid
      exact ⟨j, hjob ▸ stored, .inr (excuse.resolve_right hfaulty)⟩
    · exact .inl (stays (Table.mem_erase.mpr ⟨hr, hid⟩))
  -- A new reservation has an id above all that are there, so it replaces none.
  | @reserved r' j reservation _ =>
    have hlt : r.id < r'.id := lt_of_lt_of_le (hw.ids.2 r hr).2 reservation.fresh
    exact .inl (stays (Table.mem_put.mpr (.inr ⟨hr, hlt.ne⟩)))
  | @renewed r' e v held longer =>
    left
    by_cases hid : r.id = r'.id
    · cases Table.eq_of_mem_of_key_eq hr held hid
      exact ⟨_, Table.mem_put.mpr (.inl rfl), rfl, rfl, longer⟩
    · exact stays (Table.mem_put.mpr (.inr ⟨hr, hid⟩))
  | expired now licensed => exact .inl (stays (Table.mem_filter.mpr ⟨hr, hlive now licensed⟩))
  | reopened _ _ licensed _ => exact absurd licensed hrestart
  | halted _ licensed => exact absurd licensed hrestart
  | fenced licensed => exact absurd licensed hrestart
  | edited _ _ _ _ _ => exact .inl (stays hr)
  | created _ _ _ => exact .inl (stays hr)
  | authored _ _ _ => exact .inl (stays hr)
  | observed _ _ => exact .inl (stays hr)

/-- No row appears for a job that has removed service. -/
theorem Change.row_origin (h : Change L w w') (hw : w.Sound) (hrestart : ¬ L.restarts)
    {r' : AuthorityReservation} (hr' : r' ∈ w'.ledger.reservations.rows) {j : MaintenanceJob}
    (hj : w.jobs.find r'.job = some j) (hremoved : j.service_removed = true) :
    ∃ r ∈ w.ledger.reservations.rows, r.job = r'.job ∧ r.generation = r'.generation ∧
      r.owner = r'.owner := by
  have same : r' ∈ w.ledger.reservations.rows → ∃ r ∈ w.ledger.reservations.rows,
      r.job = r'.job ∧ r.generation = r'.generation ∧ r.owner = r'.owner :=
    fun hr => ⟨r', hr, rfl, rfl, rfl⟩
  cases h with
  | retired _ _ _ _ _ _ => exact same (Table.mem_erase.mp hr').1
  | dropped _ _ => exact same (Table.mem_erase.mp hr').1
  | @reserved g k reservation stage =>
    rcases Table.mem_put.mp hr' with rfl | ⟨hr, _⟩
    · -- The job would have to gather prerequisites and be out of service at once.
      have hstage := (stage.resolve_right hrestart).1
      rw [reservation.job, reservation.stored] at hj
      cases hj
      have hfits : j.state.fits j.service_removed = true := (hw.job reservation.stored).fits
      rw [hstage, hremoved] at hfits
      cases hfits
    · exact same hr
  | @renewed r e v held _ =>
    rcases Table.mem_put.mp hr' with rfl | ⟨hr, _⟩
    · exact ⟨r, held, rfl, rfl, rfl⟩
    · exact same hr
  | expired _ _ => exact same (Table.mem_filter.mp hr').1
  | reopened _ _ licensed _ => exact absurd licensed hrestart
  | halted _ licensed => exact absurd licensed hrestart
  | fenced licensed => exact absurd licensed hrestart
  | edited _ _ _ _ _ => exact same hr'
  | created _ _ _ => exact same hr'
  | authored _ _ _ => exact same hr'
  | observed _ _ => exact same hr'

/-- The job has removed service and, unless it is over, is reserved at all these times. -/
def World.Keeps (w : World) (id : JobId) (times : List Nanos) : Prop :=
  ∃ j, w.jobs.find id = some j ∧ j.service_removed = true ∧
    (j.state.is_terminal = true ∨ w.ledger.Reserves j times)

theorem Change.keeps (h : Change L w w') (hw : w.Sound) (hrestart : ¬ L.restarts)
    (hfaulty : ¬ L.faulty) {id : JobId} {times : List Nanos}
    (hexpires : ∀ now, L.expires now → now ∈ times) (hkeeps : w.Keeps id times) :
    w'.Keeps id times := by
  obtain ⟨j, hj, hremoved, hcase⟩ := hkeeps
  obtain ⟨j', hj', hadvance⟩ := (Changes.single h).advance hw hj
  obtain ⟨hremoved', hgen⟩ := hadvance.removed hremoved
  refine ⟨j', hj', hremoved', ?_⟩
  rcases hcase with hterm | ⟨r, hr, hjob, hrgen, hlive⟩
  · left
    rw [(Changes.single h).terminal hj hterm] at hj'
    cases hj'
    exact hterm
  · have hid : j.id = id := Table.key_of_find hj
    have hid' : j'.id = j.id := hadvance.id
    rcases h.row hw hrestart hfaulty hr (fun now hnow => hlive now (hexpires now hnow)) with
      ⟨r', hr', hjob', hgen', hlonger⟩ | ⟨x, hx, hspent⟩
    · right
      refine ⟨r', hr', ?_, ?_, ?_⟩
      · rw [hjob', hjob, hid']
      · rw [hgen', hrgen]
        exact hgen.symm
      · intro now hnow
        exact AuthorityReservation.live_at_longer (hlive now hnow) hlonger
    · rw [hjob, hid, hj'] at hx
      cases hx
      refine .inl (hspent.resolve_right ?_)
      intro hkept
      rw [show j'.service_removed = true from hremoved'] at hkept
      cases hkept

end Rows

namespace Changes

variable {L : License} {w w' : World}

theorem keeps (h : Changes L w w') (hw : w.Sound) (hrestart : ¬ L.restarts) (hfaulty : ¬ L.faulty)
    {id : JobId} {times : List Nanos} (hexpires : ∀ now, L.expires now → now ∈ times)
    (hkeeps : w.Keeps id times) : w'.Keeps id times := by
  have hboth : w'.Sound ∧ w'.Keeps id times := by
    refine h.preserves (P := fun w => w.Sound ∧ w.Keeps id times) ?_ ⟨hw, hkeeps⟩
    intro a b hab hchange
    exact ⟨hab.1.change hchange, hchange.keeps hab.1 hrestart hfaulty hexpires hab.2⟩
  exact hboth.2

theorem row_origin (h : Changes L w w') (hw : w.Sound)
    (hrestart : ¬ L.restarts) {j : MaintenanceJob}
    {r' : AuthorityReservation} (hj : w.jobs.find r'.job = some j)
    (hremoved : j.service_removed = true)
    (hr' : r' ∈ w'.ledger.reservations.rows) :
    ∃ r ∈ w.ledger.reservations.rows, r.job = r'.job ∧ r.generation = r'.generation ∧
      r.owner = r'.owner := by
  induction h generalizing r' with
  | refl => exact ⟨r', hr', rfl, rfl, rfl⟩
  | @tail mid last hsteps hstep ih =>
    obtain ⟨m, hm, hadvance⟩ := Changes.advance hsteps hw hj
    obtain ⟨r, hr, hjob, hgen, howner⟩ := hstep.row_origin (hw.changes hsteps) hrestart hr' hm
      (hadvance.removed hremoved).1
    obtain ⟨r₀, hr₀, hjob₀, hgen₀, howner₀⟩ := ih (hjob.symm ▸ hj) hr
    exact ⟨r₀, hr₀, hjob₀.trans hjob, hgen₀.trans hgen, howner₀.trans howner⟩

theorem incarnation_eq (h : Changes L w w') (hrestart : ¬ L.restarts) :
    w'.incarnation = w.incarnation := by
  refine h.preserves (P := fun x => x.incarnation = w.incarnation) ?_ rfl
  intro a b ha hchange
  cases hchange with
  | reopened _ _ licensed _ => exact absurd licensed hrestart
  | halted _ licensed => exact absurd licensed hrestart
  | _ => exact ha

theorem epoch_le (h : Changes L w w') : w.epoch ≤ w'.epoch := by
  refine h.preserves (P := fun x => w.epoch ≤ x.epoch) ?_ (le_refl _)
  intro a b ha hchange
  cases hchange with
  | reopened incarnation _ _ later =>
    show w.epoch ≤ incarnation.boot_epoch
    rw [later]
    exact ha.trans (Nat.le_succ _)
  | _ => exact ha

end Changes

namespace System

variable {s : System} {e : Event}

/-! ## Ticks in progress -/

/-- The clock readings of the ticks that have begun a pass. -/
def clocks (s : System) : List Nanos :=
  (s.threads.rows.filter (fun t => decide (t.passes < kMaxPassesPerTick))).map Thread.now

theorem mem_clocks {now : Nanos} :
    now ∈ s.clocks ↔ ∃ t ∈ s.threads.rows, t.passes < kMaxPassesPerTick ∧ t.now = now := by
  simp [clocks, and_assoc]

/-- The tick that a step lets into the lock. -/
def beginning (s : System) (e : Event) : Option Thread :=
  match e.label with
  | .begin_pass thread => s.threads.find thread
  | _ => none

/-- A tick counts its passes down, and the one that holds the lock has begun. -/
structure Timed (s : System) : Prop where
  bounded : ∀ t ∈ s.threads.rows, t.passes ≤ kMaxPassesPerTick
  begun : ∀ p, s.pass = some p → ∀ t, s.threads.find p.thread = some t →
    t.passes < kMaxPassesPerTick

theorem end_pass_passes (t : Thread) (actions : List DrainAction) :
    (end_pass t actions).passes ≤ t.passes := by
  unfold end_pass
  simp only
  split
  · exact Nat.zero_le _
  · exact le_refl _

theorem Timed.step (h : s.Timed) (e : Event) : (s.step e).Timed := by
  have hdid := s.step_did e
  generalize s.step e = s' at hdid
  generalize under s.ctl e.verdicts = c at hdid
  -- A thread is replaced by a version of itself that has no more passes left.
  have hput : ∀ {x : Thread}, x.passes ≤ kMaxPassesPerTick →
      ∀ t ∈ (s.threads.put x).rows, t.passes ≤ kMaxPassesPerTick := by
    intro x hx t ht
    rcases Table.mem_put.mp ht with rfl | ⟨ht, _⟩
    · exact hx
    · exact h.bounded t ht
  cases hdid with
  | nothing => exact ⟨h.bounded, h.begun⟩
  | restarted _ => exact ⟨fun _ ht => (by cases ht), fun _ hp => (by cases hp)⟩
  | @drove p _ _ _ _ pass _ =>
    refine ⟨h.bounded, ?_⟩
    intro q hq
    cases hq
    exact fun t ht => h.begun p pass t ht
  | closed _ _ _ _ =>
    refine ⟨?_, fun _ hp => by cases hp⟩
    simp only
    split
    · exact h.bounded
    · next t found =>
      exact hput ((end_pass_passes t _).trans (h.bounded t (Table.mem_of_find found)))
  | ticked _ _ pass _ =>
    refine ⟨hput (le_refl _), ?_⟩
    intro q hq
    rw [show s.pass = some q from hq] at pass
    cases pass
  | @began thread t _ _ _ found ready =>
    have hbound := h.bounded t (Table.mem_of_find found)
    refine ⟨hput (show t.passes - 1 ≤ _ by omega), ?_⟩
    intro q hq x hx
    cases hq
    have hfind : ∀ y : Thread, y.id = thread → (s.threads.put y).find thread = some y :=
      fun y hy => hy ▸ Table.find_put_self _ _
    have hid : t.id = thread := Table.key_of_find found
    have hself := hfind { t with passes := t.passes - 1 } hid
    cases Option.some.inj (hself.symm.trans hx)
    show t.passes - 1 < _
    have := ready.1
    omega
  | @marked thread t _ _ _ _ pass found _ =>
    refine ⟨hput (h.bounded t (Table.mem_of_find found)), ?_⟩
    intro q hq
    rw [show s.pass = some q from hq] at pass
    cases pass
  | @answered thread _ t _ _ _ _ pass found _ =>
    refine ⟨hput (h.bounded t (Table.mem_of_find found)), ?_⟩
    intro q hq
    rw [show s.pass = some q from hq] at pass
    cases pass
  | finished _ _ pass _ _ =>
    refine ⟨fun t ht => h.bounded t (Table.mem_erase.mp ht).1, ?_⟩
    intro q hq
    rw [show s.pass = some q from hq] at pass
    cases pass
  | called _ pass _ =>
    refine ⟨h.bounded, ?_⟩
    intro q hq
    rw [show s.pass = some q from hq] at pass
    cases pass

theorem timed_run (events : List Event) : (initial.run events).Timed :=
  run_invariant (fun _ e h => h.step e) events
    ⟨fun _ ht => (by cases ht), fun _ hp => (by cases hp)⟩

/-- Only the beginning of a pass adds a clock reading. -/
theorem Timed.clocks_step (h : s.Timed) (e : Event) :
    (s.step e).clocks ⊆ (s.beginning e).toList.map Thread.now ++ s.clocks := by
  have hdid := s.step_did e
  generalize s.step e = s' at hdid
  generalize under s.ctl e.verdicts = c at hdid
  intro now hnow
  obtain ⟨t', ht', hpasses, rfl⟩ := mem_clocks.mp hnow
  have same : t' ∈ s.threads.rows →
      t'.now ∈ (s.beginning e).toList.map Thread.now ++ s.clocks := fun ht =>
    List.mem_append_right _ (mem_clocks.mpr ⟨t', ht, hpasses, rfl⟩)
  -- A version of a tick that had begun before.
  have version : ∀ {t : Thread}, t ∈ s.threads.rows → t'.now = t.now →
      t.passes < kMaxPassesPerTick →
      t'.now ∈ (s.beginning e).toList.map Thread.now ++ s.clocks := fun ht hnow hpasses =>
    List.mem_append_right _ (mem_clocks.mpr ⟨_, ht, hpasses, hnow.symm⟩)
  cases hdid with
  | nothing => exact same ht'
  | restarted _ => cases ht'
  | drove _ _ _ _ => exact same ht'
  | @closed p _ _ pass _ =>
    simp only at ht'
    split at ht'
    · exact same ht'
    · next t found =>
      rcases Table.mem_put.mp ht' with rfl | ⟨ht, _⟩
      · exact version (Table.mem_of_find found) rfl (h.begun p pass t found)
      · exact same ht
  | ticked _ _ _ _ =>
    rcases Table.mem_put.mp ht' with rfl | ⟨ht, _⟩
    · exact absurd hpasses (lt_irrefl _)
    · exact same ht
  | @began thread t label _ _ found _ =>
    rcases Table.mem_put.mp ht' with rfl | ⟨ht, _⟩
    · refine List.mem_append_left _ (List.mem_map.mpr ⟨t, ?_, rfl⟩)
      unfold beginning
      rw [label]
      simp only [found, Option.toList_some, List.mem_singleton]
    · exact same ht
  | marked _ _ _ found _ =>
    rcases Table.mem_put.mp ht' with rfl | ⟨ht, _⟩
    · exact version (Table.mem_of_find found) rfl hpasses
    · exact same ht
  | answered _ _ _ found _ =>
    rcases Table.mem_put.mp ht' with rfl | ⟨ht, _⟩
    · exact version (Table.mem_of_find found) rfl hpasses
    · exact same ht
  | finished _ _ _ _ _ => exact same (Table.mem_erase.mp ht').1
  | called _ _ _ => exact same ht'

/-! ## Leases that last -/

/-- What a step must find for the leases of removed service to last: a pass that begins finds
    none of them run out, a job is started under a lease that outlasts the ticks in progress,
    and the journal takes what is written for a job that is out of service. -/
def LeasesLast (s : System) (e : Event) : Prop :=
  (∀ t ∈ s.beginning e, ∀ j ∈ s.ctl.store.state.jobs.jobs.rows, OutOfService j →
    s.ctl.store.state.ledger.Reserves j [] → s.ctl.store.state.ledger.Reserves j [t.now]) ∧
  (∀ d ∈ s.driving e, d.2.state = .Ready → s.ctl.store.state.ledger.Reserves d.2 [d.1.now] →
    s.ctl.store.state.ledger.Reserves d.2 s.clocks) ∧
  (∀ d ∈ s.driving e, d.2.service_removed = true → e.verdicts = [])

instance (s : System) (e : Event) : Decidable (LeasesLast s e) :=
  inferInstanceAs (Decidable (_ ∧ _ ∧ _))

theorem license_expires {now : Nanos} (h : (s.license e).expires now) :
    now ∈ (s.beginning e).toList.map Thread.now := by
  have hlicensed := s.licensed e
  generalize s.license e = L at h hlicensed
  cases hlicensed with
  | expiry label found =>
    unfold beginning
    rw [label]
    simp only [found, Option.toList_some, List.map_singleton, List.mem_singleton]
    exact h
  | _ => exact h.elim

theorem license_faulty (hs : s.Sound) (h : (s.license e).faulty) :
    ∃ d ∈ s.driving e, d.2.service_removed = true ∧ e.verdicts ≠ [] := by
  have hlicensed := s.licensed e
  generalize s.license e = L at h hlicensed
  cases hlicensed with
  | @drive p id rest label pass remaining =>
    obtain ⟨j, hj, hremoved, hbad⟩ := h
    refine ⟨(p, j), driving_eq label pass remaining hj, hremoved, ?_⟩
    exact hbad.resolve_right (not_not.mpr (hs.world.jobs j (Table.mem_of_find hj)).2)
  | _ => exact h.elim

/-- Nothing but a restart changes whether the process is up. -/
theorem step_up (hlabel : e.restarts = false) : (s.step e).up = s.up := by
  have hdid := s.step_did e
  generalize s.step e = s' at hdid
  cases hdid with
  | restarted label =>
    unfold Event.restarts at hlabel
    rw [label] at hlabel
    cases hlabel
  | _ => rfl

/-- A reservation that outlasts the ticks in progress still does after a step. -/
theorem Sound.reserves_step (h : s.Sound) (htimed : s.Timed) (hlast : LeasesLast s e)
    (hlabel : e.restarts = false) {id : JobId}
    {j j' : MaintenanceJob} (hj : s.job id = some j) (hremoved : j.service_removed = true)
    (hj' : (s.step e).job id = some j') (hout : OutOfService j')
    (hres : s.ctl.store.state.ledger.Reserves j s.clocks) :
    (s.step e).ctl.store.state.ledger.Reserves j' (s.step e).clocks := by
  have hrestart : ¬ (s.license e).restarts := by
    intro hr
    rw [license_restarts hr] at hlabel
    cases hlabel
  have hfaulty : ¬ (s.license e).faulty := by
    intro hf
    obtain ⟨d, hd, hd_removed, hbad⟩ := license_faulty h hf
    exact hbad (hlast.2.2 d hd hd_removed)
  obtain ⟨halive, _⟩ := h.kept_scope hj hj' hremoved hout
  have hbegin : s.ctl.store.state.ledger.Reserves j ((s.beginning e).toList.map Thread.now) := by
    cases hb : s.beginning e with
    | none => exact hres.mono (List.nil_subset _)
    | some t => exact hlast.1 t hb j (Table.mem_of_find hj) halive (hres.mono (List.nil_subset _))
  have hkeeps : s.ctl.world.Keeps id ((s.beginning e).toList.map Thread.now ++ s.clocks) :=
    ⟨j, hj, hremoved, .inr (hbegin.merge hres)⟩
  obtain ⟨x, hx, _, hcase⟩ := (changes_step h e).keeps h.world hrestart hfaulty
    (fun now hnow => List.mem_append_left _ (license_expires hnow)) hkeeps
  cases Option.some.inj (hx.symm.trans hj')
  rcases hcase with hterm | hres'
  · rw [hout.1] at hterm
    cases hterm
  · exact hres'.mono (htimed.clocks_step e)

/-- A job that a step has started is reserved as long as the ticks in progress need. -/
theorem Sound.reserves_started (h : s.Sound) (htimed : s.Timed) (hlast : LeasesLast s e)
    {id : JobId} {j' : MaintenanceJob} (hj' : (s.step e).job id = some j')
    (hremoved : j'.service_removed = true)
    (hbefore : ∀ j, s.job id = some j → j.service_removed = false) :
    (s.step e).ctl.store.state.ledger.Reserves j' (s.step e).clocks := by
  obtain ⟨p, j, hdriving, hj, started⟩ := h.started hj' hremoved hbefore
  obtain ⟨label, _⟩ := driving_spec hdriving
  obtain ⟨r, hfind, hlive, _⟩ := started.gate.authority
  obtain ⟨hmem, hjob, hgen⟩ := find_for_job_spec hfind
  have hheld : s.ctl.store.state.ledger.Reserves j [p.now] := by
    refine ⟨r, hmem, hjob, hgen, ?_⟩
    intro now hnow
    rw [List.mem_singleton.mp hnow]
    exact hlive
  obtain ⟨r, hmem, hjob, hgen, hlive⟩ := hlast.2.1 (p, j) hdriving started.ready hheld
  obtain ⟨a, l, hcore⟩ := started.core
  refine ⟨r, ?_, hjob.trans (congrArg Core.id hcore).symm,
    hgen.trans (congrArg Core.generation hcore).symm, ?_⟩
  · rw [show (s.step e).ctl.store.state.ledger = s.ctl.store.state.ledger from
      congrArg (fun w : World => w.ledger) started.world]
    exact hmem
  · intro now hnow
    refine hlive now ?_
    have hclocks := htimed.clocks_step e hnow
    unfold beginning at hclocks
    rw [label] at hclocks
    exact hclocks

/-- The running incarnation has at some point held a reservation for this generation of the
    job. -/
def Granted (events : List Event) (j : MaintenanceJob) : Prop :=
  ∃ before, before <+: events ∧
    ∃ r ∈ (initial.run before).ctl.store.state.ledger.reservations.rows,
      r.job = j.id ∧ r.generation = j.generation ∧ r.owner = (initial.run events).ctl.incarnation

/-- A grant that a step can rely on was already there, unless the step has restarted the
    process or started the job. -/
theorem granted_before {events : List Event} {e : Event}
    (hlabel : e.restarts = false) {id : JobId}
    {j j' : MaintenanceJob} (hj : (initial.run events).job id = some j)
    (hremoved : j.service_removed = true)
    (hj' : (initial.run (events ++ [e])).job id = some j') (hgranted : Granted (events ++ [e]) j') :
    Granted events j := by
  have hs := sound_run events
  rw [run_snoc] at hj'
  have hrestart : ¬ ((initial.run events).license e).restarts := by
    intro hr
    rw [license_restarts hr] at hlabel
    cases hlabel
  have hchanges := changes_step hs e
  have hinc : ((initial.run events).step e).ctl.incarnation =
    (initial.run events).ctl.incarnation :=
    hchanges.incarnation_eq hrestart
  obtain ⟨k, hk, hadvance⟩ := hchanges.advance hs.world hj
  cases Option.some.inj (hk.symm.trans hj')
  obtain ⟨before, hbefore, r, hr, hjob, hgen, howner⟩ := hgranted
  rw [run_snoc, hinc] at howner
  have hid : j'.id = j.id := hadvance.id
  have hsame : j'.generation = j.generation := (hadvance.removed hremoved).2
  rw [hid] at hjob
  rw [hsame] at hgen
  -- The grant is seen after this step, or was seen before it.
  rcases List.prefix_concat_iff.mp hbefore with rfl | hbefore
  · rw [run_snoc] at hr
    have hfound : (initial.run events).ctl.world.jobs.find r.job = some j := by
      rw [hjob, show j.id = id from Table.key_of_find hj]
      exact hj
    obtain ⟨r₀, hr₀, hjob₀, hgen₀, howner₀⟩ :=
      hchanges.row_origin hs.world hrestart hfound hremoved hr
    exact ⟨events, List.prefix_rfl, r₀, hr₀, hjob₀.trans hjob,
      hgen₀.trans hgen, howner₀.trans howner⟩
  · exact ⟨before, hbefore, r, hr, hjob, hgen, howner⟩

/-- Epochs only grow. -/
theorem epoch_run (events more : List Event) :
    (initial.run events).ctl.world.epoch ≤ (initial.run (events ++ more)).ctl.world.epoch := by
  rw [run_append]
  have hs := sound_run events
  generalize initial.run events = s at hs ⊢
  have hboth : (s.run more).Sound ∧ s.ctl.world.epoch ≤ (s.run more).ctl.world.epoch := by
    refine run_invariant (I := fun x : System => x.Sound ∧
      s.ctl.world.epoch ≤ x.ctl.world.epoch) ?_ more
      ⟨hs, le_refl _⟩
    intro x e hx
    exact ⟨hx.1.step e, hx.2.trans (changes_step hx.1 e).epoch_le⟩
  exact hboth.2

/-- A process that has just come up relies on no grant but its own. -/
theorem granted_after_restart {events : List Event} {e : Event} (hrestart : e.restarts = true)
    (hup : (initial.run (events ++ [e])).up = true) {j : MaintenanceJob}
    (hgranted : Granted (events ++ [e]) j) :
    (initial.run (events ++ [e])).ctl.store.state.ledger.Reserves j
      (initial.run (events ++ [e])).clocks := by
  obtain ⟨options, clock, steady, label⟩ := restarts_spec hrestart
  obtain ⟨before, hbefore, r, hr, hjob, hgen, howner⟩ := hgranted
  have hstep : (initial.run events).step e = restart
      { initial.run events with ctl := under (initial.run events).ctl e.verdicts }
      options clock steady := by
    unfold step
    simp only [label]
  rcases List.prefix_concat_iff.mp hbefore with rfl | hbefore
  · refine ⟨r, hr, hjob, hgen, ?_⟩
    rw [run_snoc, hstep]
    intro now hnow
    cases hnow
  · -- Its epoch is newer than that of any owner seen before.
    exfalso
    obtain ⟨more, rfl⟩ := hbefore
    have hold : r.owner.boot_epoch ≤ (initial.run (before ++ more)).ctl.world.epoch :=
      ((sound_run before).world.holds r hr).owner.trans (epoch_run before more)
    rw [run_snoc, hstep] at hup howner
    have hnew :=
      Controller.epoch_open (c := under (initial.run (before ++ more)).ctl e.verdicts) hup
    rw [howner] at hold
    have hlt : (initial.run (before ++ more)).ctl.world.epoch <
        (initial.run (before ++ more)).ctl.world.epoch.next := Nat.lt_succ_self _
    rw [← world_under _ e.verdicts, ← hnew] at hlt
    exact absurd hold (not_le.mpr hlt)

/-- Every job that is out of service, and that the running incarnation has granted, is reserved
    for as long as the ticks in progress need. -/
theorem reserved_along (events : List Event) (hlast : Along step LeasesLast initial events)
    (hup : (initial.run events).up = true) {id : JobId} {j : MaintenanceJob}
    (hj : (initial.run events).job id = some j) (hout : OutOfService j)
    (hgranted : Granted events j) :
    (initial.run events).ctl.store.state.ledger.Reserves j (initial.run events).clocks := by
  induction events using List.reverseRecOn generalizing j with
  | nil => cases hup
  | append_singleton events e ih =>
    obtain ⟨hbefore, hcond, _⟩ := Along.append.mp hlast
    change LeasesLast (initial.run events) e at hcond
    cases hlabel : e.restarts with
    | true => exact granted_after_restart hlabel hup hgranted
    | false =>
      have hs := sound_run events
      have hj' := hj
      rw [run_snoc] at hup hj' ⊢
      rw [step_up hlabel] at hup
      by_cases hold : ∃ i, (initial.run events).job id = some i ∧ i.service_removed = true
      · obtain ⟨i, hi, hremoved⟩ := hold
        have hgranted := granted_before hlabel hi hremoved hj hgranted
        obtain ⟨hi_out, _⟩ := hs.kept_scope hi hj' hremoved hout
        exact hs.reserves_step (timed_run events) hcond hlabel hi hremoved hj' hout
          (ih hbefore hup hi hi_out hgranted)
      · refine hs.reserves_started (timed_run events) hcond hj' hout.2 ?_
        intro i hi
        rw [← Bool.not_eq_true]
        exact fun hremoved => hold ⟨i, hi, hremoved⟩

/-- The tick of the thread has nothing left to do. -/
def Returns (s : System) (thread : Nat) (t : Thread) : Prop :=
  s.up = true ∧ s.pass = none ∧ s.threads.find thread = some t ∧ t.passes = 0 ∧ t.actions = []

theorem step_finish {thread : Nat} {t : Thread} (h : Returns s thread t)
    (verdicts : List (Option JournalFault)) :
    s.step ⟨.finish thread, verdicts⟩ =
      { s with ctl := under s.ctl verdicts, threads := s.threads.erase thread } := by
  obtain ⟨hup, hpass, hfound, hdone⟩ := h
  unfold step
  simp only [hup, hpass, if_true]
  unfold unlocked finish
  simp only [hfound, if_pos hdone]

/-- What a tick that returns at `now` leaves behind: every job that is out of service, and that
    the running incarnation has granted, holds a live reservation for its whole scope. -/
def CapacityReserved (events : List Event) (now : Nanos) : Prop :=
  ∀ id j, (initial.run events).job id = some j → OutOfService j → Granted events j →
    ∃ r ∈ (initial.run events).ctl.store.state.ledger.reservations.rows,
      r.job = id ∧ r.generation = j.generation ∧ r.live_at now = true ∧
      ∀ x ∈ j.removal_set, x ∈ r.targets

/-- Along a run in which leases last, every tick that returns leaves removed capacity
    reserved. -/
theorem removed_capacity_stays_reserved (events : List Event) (thread : Nat)
    (verdicts : List (Option JournalFault)) (t : Thread)
    (hlast : Along step LeasesLast initial (events ++ [⟨.finish thread, verdicts⟩]))
    (hreturns : Returns (initial.run events) thread t) :
    CapacityReserved (events ++ [⟨.finish thread, verdicts⟩]) t.now := by
  intro id j hj hout hgranted
  have hs := sound_run events
  rw [run_snoc, step_finish hreturns] at hj ⊢
  have hbefore : Granted events j := by
    obtain ⟨before, hpre, r, hr, hjob, hgen, howner⟩ := hgranted
    rw [run_snoc, step_finish hreturns] at howner
    rcases List.prefix_concat_iff.mp hpre with rfl | hpre
    · rw [run_snoc, step_finish hreturns] at hr
      exact ⟨events, List.prefix_rfl, r, hr, hjob, hgen, howner⟩
    · exact ⟨before, hpre, r, hr, hjob, hgen, howner⟩
  have hj : (initial.run events).job id = some j := hj
  obtain ⟨hup, _, hfound, hpasses, _⟩ := hreturns
  obtain ⟨r, hr, hjob, hgen, hlive⟩ :=
    reserved_along events (Along.append.mp hlast).1 hup hj hout hbefore
  refine ⟨r, hr, hjob.trans (Table.key_of_find hj), hgen, ?_, ?_⟩
  · refine hlive t.now (mem_clocks.mpr ⟨t, Table.mem_of_find hfound, ?_, rfl⟩)
    rw [hpasses]
    decide
  · exact fun x hx => (hs.held_scope hj hr hjob hgen x).mpr hx

end System

namespace Drill

/-- A tick at `now` over the jobs of the drill, up to its return. -/
def later (now : Nanos) : List Event :=
  started ++ [call (.tick 0 now), call (.begin_pass 0), call .pass_step, call .pass_step]

end Drill

namespace System

/-- The tick of the drill that is about to return. -/
theorem returns_of_fields {s : System}
    (h : s.up = true ∧ s.pass.isNone = true ∧
      (s.threads.find 0).map (fun t => (t.passes, t.actions.length)) = some (0, 0)) :
    ∃ t, Returns s 0 t := by
  obtain ⟨hup, hpass, hthread⟩ := h
  obtain ⟨t, ht, hfields⟩ := Option.map_eq_some_iff.mp hthread
  obtain ⟨hpasses, hactions⟩ := Prod.mk.inj hfields
  exact ⟨t, hup, Option.isNone_iff_eq_none.mp hpass, ht, hpasses,
    List.length_eq_zero_iff.mp hactions⟩

/-- A tick within the lease leaves the scope of the job in maintenance reserved. -/
theorem capacity_reserved_within_lease :
    ∃ t, Returns (initial.run (Drill.later (Drill.ms 1300))) 0 t ∧
      CapacityReserved (Drill.later (Drill.ms 1300) ++ [Drill.call (.finish 0)]) t.now := by
  obtain ⟨t, hreturns⟩ := returns_of_fields (s := initial.run (Drill.later (Drill.ms 1300)))
    (by decide +kernel)
  exact ⟨t, hreturns,
    removed_capacity_stays_reserved (Drill.later (Drill.ms 1300)) 0 [] t
      (by decide +kernel) hreturns⟩

/-- An empty ledger reserves nothing for a job that is out of service. -/
theorem not_reserved_of_empty {events before : List Event} {now : Nanos} {j : MaintenanceJob}
    {id : JobId} {g : GenerationId} (hj : (initial.run events).job id = some j)
    (hf : (j.state.is_terminal, j.service_removed, j.generation) = (false, true, g))
    (hbefore : before <+: events)
    (hgranted : ∃ r ∈ (initial.run before).ctl.store.state.ledger.reservations.rows,
      r.job = id ∧ r.generation = g ∧ r.owner = (initial.run events).ctl.incarnation)
    (hempty : (initial.run events).ctl.store.state.ledger.reservations.rows = []) :
    ¬ CapacityReserved events now := by
  simp only [Prod.mk.injEq] at hf
  obtain ⟨halive, hremoved, rfl⟩ := hf
  have hid : j.id = id := Table.key_of_find hj
  subst hid
  intro hreserved
  obtain ⟨r, hr, _⟩ := hreserved _ j hj ⟨halive, hremoved⟩ ⟨before, hbefore, hgranted⟩
  rw [hempty] at hr
  cases hr

/-- Two seconds in, the lease is over, the maintenance is not, and the reservation is gone. -/
theorem capacity_unreserved_after_lease :
    ∃ t, Returns (initial.run (Drill.later (Drill.ms 2000))) 0 t ∧
      ¬ CapacityReserved (Drill.later (Drill.ms 2000) ++ [Drill.call (.finish 0)]) t.now := by
  obtain ⟨t, hreturns⟩ := returns_of_fields (s := initial.run (Drill.later (Drill.ms 2000)))
    (by decide +kernel)
  obtain ⟨j, hj, hf⟩ := job_of_field
    (initial.run (Drill.later (Drill.ms 2000) ++ [Drill.call (.finish 0)])) ⟨1⟩
    (fun j => (j.state.is_terminal, j.service_removed, j.generation)) (a := (false, true, ⟨1⟩))
    (by decide +kernel)
  have hbefore : Drill.started <+: Drill.later (Drill.ms 2000) ++ [Drill.call (.finish 0)] :=
    ⟨_, (List.append_assoc _ _ _).symm⟩
  exact ⟨t, hreturns, not_reserved_of_empty hj hf hbefore (by decide +kernel) (by decide +kernel)⟩

end System

end MaintenanceFabric
