import MaintenanceFabric.Guarantees.JointSafety
import MaintenanceFabric.Guarantees.Lifecycle
import MaintenanceFabric.Runtime.Ledgers
import MaintenanceFabric.Runtime.Steps

/-! # The concurrency bound

    `max_concurrent_jobs` bounds the grants of one arbitration, counted from
    zero.  What it is meant to bound is what is live, so the bound holds when
    nothing is live at the start of an arbitration, or when no more jobs can be
    granted than there is room for beside what is live.  Between arbitrations
    reservations only end or are extended.
-/

namespace MaintenanceFabric

open Lib

/-! ## One arbitration -/

namespace ArbitrationContext

variable (c : ArbitrationContext)

/-- The ledger after the candidate has been granted what it asks for, whatever the limit; none if
    it is missing, holds authority already, or is refused. -/
def take_on (candidate : ArbitrationCandidate) (ledger : AuthorityLedger) :
    Option AuthorityLedger :=
  match c.jobs.find candidate.job with
  | none => none
  | some job =>
      match (ledger.find_for_job job.id job.generation).filter (fun r =>
          job.active_attempt.valid && r.live_at c.now &&
            decide (r.attempt = job.active_attempt)) with
      | some _ => none
      | none => (acquire_authority (c.acquire_context ledger job)).1.toOption.map Prod.snd

/-- How many candidates would be granted one after the other if nothing limited their number. -/
def demand : List ArbitrationCandidate → AuthorityLedger → Nat
  | [], _ => 0
  | candidate :: rest, ledger =>
      match c.take_on candidate ledger with
      | none => demand rest ledger
      | some next => demand rest next + 1

/-- Nothing is live at the start, or there is room beside what is live for all who could be
    granted. -/
def HasRoom (ledger : AuthorityLedger) : Prop :=
  (ledger.live c.now).length = 0 ∨
    (ledger.live c.now).length +
        c.demand (order_candidates (c.candidates.filterMap c.jobs.find) c.policy) ledger ≤
      c.policy.max_concurrent_jobs

instance (ledger : AuthorityLedger) : Decidable (c.HasRoom ledger) :=
  inferInstanceAs (Decidable (_ ∨ _))

variable {c} {l l' : AuthorityLedger} {j : MaintenanceJob} {g : AuthorityReservation}

/-- A grant adds one live reservation. -/
theorem live_grant (h : (c.acquire_context l j).Acquired g l') (hn : l.Numbered) :
    (l'.live c.now).length = (l.live c.now).length + 1 := by
  have hnew : l.reservations.find g.id = none := by
    cases hfind : l.reservations.find g.id with
    | none => rfl
    | some r =>
      have hid : r.id = l.next_id := (Table.key_of_find hfind).trans h.id
      exact absurd hid (hn r (Table.mem_of_find hfind)).ne
  have hperm : l'.reservations.rows.Perm (g :: l.reservations.rows) := by
    have hput : l' = ⟨l.reservations.put g, l.next_id.next⟩ := h.ledger
    rw [hput]
    refine (Table.put_perm _ _).trans ?_
    rw [Table.erase_of_find_none hnew]
  have hlive : g.live_at c.now = true := h.live
  unfold AuthorityLedger.live
  rw [(hperm.filter _).length_eq, List.filter_cons, if_pos hlive, List.length_cons]

/-- Below the limit of this call a candidate is decided as it would be without one. -/
theorem decide_candidate_admits (candidate : ArbitrationCandidate) (position : Nat) {granted : Nat}
    (hroom : granted < c.policy.max_concurrent_jobs) (l : AuthorityLedger) :
    let decided := c.decide_candidate candidate position granted l
    (c.take_on candidate l = none ∧ decided.1.outcome ≠ .Granted ∧ decided.2 = l) ∨
      (c.take_on candidate l = some decided.2 ∧ decided.1.outcome = .Granted) := by
  intro decided
  simp only [decided]
  unfold decide_candidate take_on
  cases c.jobs.find candidate.job with
  | none => exact .inl ⟨rfl, by simp, rfl⟩
  | some job =>
    simp only
    cases (l.find_for_job job.id job.generation).filter (fun r =>
        job.active_attempt.valid && r.live_at c.now && decide (r.attempt = job.active_attempt)) with
    | some existing => exact .inl ⟨rfl, by simp, rfl⟩
    | none =>
      simp only
      rw [if_neg (not_le.mpr hroom)]
      cases acquire_authority (c.acquire_context l job) with
      | mk answer impact =>
        cases answer with
        | error e => exact .inl ⟨rfl, by simp, rfl⟩
        | ok granted => exact .inr ⟨rfl, rfl⟩

/-- Once the limit of the call is reached nothing more is granted. -/
theorem decide_all_full : ∀ (candidates : List ArbitrationCandidate) (position : Nat)
    {granted : Nat} (l : AuthorityLedger), c.policy.max_concurrent_jobs ≤ granted →
    (c.decide_all candidates position granted l).2 = l
  | [], _, _, _, _ => rfl
  | candidate :: rest, position, granted, l, hfull => by
      unfold decide_all
      have hspec := c.decide_candidate_spec candidate position granted l
      generalize c.decide_candidate candidate position granted l = decided at hspec ⊢
      obtain ⟨decision, next⟩ := decided
      obtain ⟨_, ⟨hout, hsame⟩ | ⟨_, hroom, _⟩⟩ := hspec
      · simp only at hout hsame ⊢
        rw [hsame, if_neg hout]
        exact decide_all_full rest (position + 1) l hfull
      · omega

/-- What is live grows by the candidates that could be granted, as far as the call may grant. -/
theorem decide_all_live : ∀ (candidates : List ArbitrationCandidate) (position granted : Nat)
    {l : AuthorityLedger}, l.Numbered →
    ((c.decide_all candidates position granted l).2.live c.now).length =
      (l.live c.now).length + min (c.demand candidates l) (c.policy.max_concurrent_jobs - granted)
  | [], _, _, l, _ => by
      unfold decide_all demand
      simp
  | candidate :: rest, position, granted, l, hn => by
      by_cases hfull : c.policy.max_concurrent_jobs ≤ granted
      · rw [decide_all_full (candidate :: rest) position l hfull]
        omega
      · have htakes := decide_candidate_admits (c := c) candidate position (not_le.mp hfull) l
        have hspec := c.decide_candidate_spec candidate position granted l
        unfold decide_all demand
        generalize c.decide_candidate candidate position granted l = decided at htakes hspec ⊢
        obtain ⟨decision, next⟩ := decided
        simp only at htakes hspec ⊢
        obtain ⟨htake, hout, hsame⟩ | ⟨htake, hout⟩ := htakes
        · rw [htake, if_neg hout, hsame]
          exact decide_all_live rest (position + 1) granted hn
        · obtain ⟨_, ⟨hno, _⟩ | ⟨_, _, j, g, _, _, hacquired⟩⟩ := hspec
          · exact absurd hout hno
          -- A grant uses up one of the grants the call has left.
          · have hlive := live_grant hacquired hn
            have hrest := decide_all_live rest (position + 1) (granted + 1) (hacquired.numbered hn)
            rw [htake, if_pos hout, hrest, hlive]
            simp only
            omega

theorem arbitrate_live (c : ArbitrationContext) {ledger : AuthorityLedger} (hn : ledger.Numbered) :
    ((arbitrate c ledger).2.live c.now).length ≤ c.policy.max_concurrent_jobs ↔
      c.HasRoom ledger := by
  unfold arbitrate HasRoom
  rw [decide_all_live _ 0 0 hn]
  -- The call may grant up to the limit, so with anything live at the start demand has to be less.
  omega

end ArbitrationContext

/-! ## Between arbitrations -/

namespace AuthorityLedger

/-- Every reservation left was there before. -/
def Lasting (l l' : AuthorityLedger) : Prop :=
  ∀ r' ∈ l'.reservations.rows, ∃ r ∈ l.reservations.rows, r'.id = r.id

theorem Lasting.size_le {l l' : AuthorityLedger} (h : Lasting l l') :
    l'.reservations.size ≤ l.reservations.size :=
  size_le_of_ids h

theorem Derives.lasting {l l' : AuthorityLedger} (h : Derives l l') : Lasting l l' := by
  intro r' hr'
  obtain ⟨r, hr, hclaim⟩ := h r' hr'
  exact ⟨r, hr, congrArg Prod.fst hclaim⟩

end AuthorityLedger

section Rows

variable {L : License} {w w' : World}

/-- Without a grant or a restart no identity is new. -/
theorem Changes.lasting (h : Changes L w w') (hgrants : ¬ L.grants) (hrestart : ¬ L.restarts) :
    w.ledger.Lasting w'.ledger :=
  (h.derives hgrants hrestart).lasting

end Rows

/-! ## Applying the decisions -/

namespace Controller

/-- The ledger holds nothing but what is staged. -/
def Covered (c : Controller) (staging : AuthorityLedger) : Prop :=
  staging.Lasting c.world.ledger

theorem Covered.apply_decision {c : Controller} {staging : AuthorityLedger} (h : c.Covered staging)
    (now : Nanos) (d : ArbitrationDecision) : (apply_decision staging now c d).Covered staging := by
  intro r' hr'
  rcases apply_decision_rows c staging now d r' hr' with hstaged | ⟨r, hr, hclaim⟩
  · exact ⟨r', hstaged, rfl⟩
  · obtain ⟨r₀, hr₀, hid⟩ := h r hr
    exact ⟨r₀, hr₀, (congrArg Prod.fst hclaim).trans hid⟩

theorem Covered.apply_decisions {staging : AuthorityLedger} (now : Nanos) :
    ∀ (ds : List ArbitrationDecision) {c : Controller}, c.Covered staging →
      (ds.foldl (Controller.apply_decision staging now) c).Covered staging
  | [], _, h => h
  | d :: ds, _, h => Covered.apply_decisions now ds (h.apply_decision now d)

/-- After an arbitration the controller holds at most what the arbitrator staged. -/
theorem size_arbitrate_locked (c : Controller) (context : PassContext)
    (hn : c.store.state.ledger.Numbered)
    (hlive : ∀ r ∈ c.store.state.ledger.reservations.rows, r.live_at context.now = true)
    (hroom : (c.arbitration_context context).HasRoom c.store.state.ledger) :
    (c.arbitrate_locked context).store.state.ledger.reservations.size ≤
      c.policy.max_concurrent_jobs := by
  have hempty : (c.arbitration_context context).Safe c.store.state.ledger [] := by
    constructor
    · intro g hg
      cases hg
    · exact fun h => absurd rfl h
  obtain ⟨grants, hsafe, hgrants⟩ := ArbitrationContext.Safe.decide_all
    (order_candidates ((c.arbitration_context context).candidates.filterMap
      (c.arbitration_context context).jobs.find)
        (c.arbitration_context context).policy) 0 0 hn hempty
  rw [List.append_nil] at hsafe
  change (c.arbitration_context context).Safe
    (arbitrate (c.arbitration_context context) c.store.state.ledger).2 grants at hsafe
  change ArbitrationContext.Grants c.store.state.ledger
    (arbitrate (c.arbitration_context context) c.store.state.ledger).2 _ grants at hgrants
  generalize hstaging : arbitrate (c.arbitration_context context) c.store.state.ledger = decided
    at hsafe hgrants
  have hcovered : c.Covered decided.2 := by
    intro r hr
    exact ⟨r, (hgrants.rows r).mpr (.inr hr), rfl⟩
  have hall : ∀ l : AuthorityLedger, (∀ r ∈ l.reservations.rows, r.live_at context.now = true) →
      l.live context.now = l.reservations.rows := fun l h => List.filter_eq_self.mpr h
  -- Everything that is staged is live: what was there by assumption, a grant because it is new.
  have hstaged : decided.2.live context.now = decided.2.reservations.rows := by
    refine hall _ (fun r hr => ?_)
    rcases (hgrants.rows r).mp hr with hg | hr
    · exact (hsafe.each r hg).live
    · exact hlive r hr
  have hkept := (ArbitrationContext.arbitrate_live (c.arbitration_context context) hn).mpr hroom
  rw [hstaging] at hkept
  change (decided.2.live context.now).length ≤ c.policy.max_concurrent_jobs at hkept
  rw [hstaged] at hkept
  refine le_trans ?_ hkept
  unfold Controller.arbitrate_locked
  rw [hstaging]
  exact (hcovered.apply_decisions context.now decided.1).size_le

end Controller

/-! ## Runs -/

namespace System

/-- The pass that a step closes with its arbitration. -/
def closing (s : System) (e : Event) : Option Pass :=
  match e.label, s.pass with
  | .pass_step, some p => if p.remaining = [] then some p else none
  | _, _ => none

/-- A step that is no restart and leaves the limit alone; when it arbitrates, the expiry that
    began the pass has left nothing dead on record, and there is room for its grants. -/
structure Roomy (s : System) (e : Event) : Prop where
  running : e.restarts = false
  limit : (s.step e).ctl.policy.max_concurrent_jobs = s.ctl.policy.max_concurrent_jobs
  purged : ∀ p ∈ s.closing e, ∀ r ∈ s.ctl.store.state.ledger.reservations.rows,
    r.live_at p.now = true
  room : ∀ p ∈ s.closing e,
    (s.ctl.arbitration_context (p.context s.ctl)).HasRoom s.ctl.store.state.ledger

instance (s : System) (e : Event) : Decidable (s.Roomy e) :=
  decidable_of_iff (e.restarts = false ∧
    (s.step e).ctl.policy.max_concurrent_jobs = s.ctl.policy.max_concurrent_jobs ∧
    (∀ p ∈ s.closing e, ∀ r ∈ s.ctl.store.state.ledger.reservations.rows,
      r.live_at p.now = true) ∧
    ∀ p ∈ s.closing e,
      (s.ctl.arbitration_context (p.context s.ctl)).HasRoom s.ctl.store.state.ledger)
    ⟨fun ⟨running, limit, purged, room⟩ => ⟨running, limit, purged, room⟩,
      fun h => ⟨h.running, h.limit, h.purged, h.room⟩⟩

/-- No more reservations are on record than the policy allows to be live. -/
def Bounded (s : System) : Prop :=
  s.ctl.store.state.ledger.reservations.size ≤ s.ctl.policy.max_concurrent_jobs

variable {s : System} {e : Event}

theorem license_grants (h : (s.license e).grants) :
    ∃ p, e.label = .pass_step ∧ s.pass = some p ∧ p.remaining = [] := by
  have hlicensed := s.licensed e
  generalize s.license e = L at h hlicensed
  cases hlicensed with
  | arbitration label pass remaining => exact ⟨_, label, pass, remaining⟩
  | _ => exact h.elim

theorem Bounded.step (hb : s.Bounded) (sound : s.Sound) (hroomy : s.Roomy e) :
    (s.step e).Bounded := by
  unfold Bounded
  rw [hroomy.limit]
  have hrestart : ¬ (s.license e).restarts := by
    intro h
    have hrunning := hroomy.running
    rw [license_restarts h] at hrunning
    cases hrunning
  -- Without a grant or a restart the ledger never grows.
  by_cases hgrants : (s.license e).grants
  · obtain ⟨p, label, pass, remaining⟩ := license_grants hgrants
    have hclosing : s.closing e = some p := by
      unfold closing
      rw [label, pass]
      simp only [remaining, if_true]
    have hsize := Controller.size_arbitrate_locked (under s.ctl e.verdicts) (p.context s.ctl)
      (fun r hr => (sound.world.ids.2 r hr).2) (hroomy.purged p hclosing) (hroomy.room p hclosing)
    have hdid := s.step_did e
    generalize s.step e = s' at hdid ⊢
    generalize hc : under s.ctl e.verdicts = c at hdid hsize
    have hpolicy : c.policy = s.ctl.policy := by rw [← hc]; rfl
    have hcontext : ∀ q : Pass, q.context c = q.context s.ctl := by
      intro q
      rw [← hc]
      rfl
    rw [hpolicy] at hsize
    -- Only the step that closes the pass runs arbitration; the other steps have another label.
    cases hdid with
    | nothing =>
      rw [← hc]
      exact hb
    | @closed q _ _ hq _ =>
      obtain rfl : q = p := Option.some.inj (hq.symm.trans pass)
      show ((c.arbitrate_locked (q.context c)).sweep_orphans
        q.actions).1.store.state.ledger.reservations.size ≤ _
      rw [hcontext]
      exact hsize
    | @drove q id rest _ _ hq hrest =>
      obtain rfl : q = p := Option.some.inj (hq.symm.trans pass)
      rw [remaining] at hrest
      cases hrest
    | restarted h => cases label.symm.trans h
    | ticked h => cases label.symm.trans h
    | began h => cases label.symm.trans h
    | marked h => cases label.symm.trans h
    | answered h => cases label.symm.trans h
    | finished h => cases label.symm.trans h
    | called _ _ call =>
      rw [label] at call
      cases call
  · exact ((changes_step sound e).lasting hgrants hrestart).size_le.trans hb

theorem Bounded.live (h : s.Bounded) (now : Nanos) :
    (s.ctl.store.state.ledger.live now).length ≤ s.ctl.policy.max_concurrent_jobs :=
  (List.length_filter_le _ _).trans h

/-- An arbitration that starts within the bound ends within it exactly when nothing is live at its
    start or there is room beside it for all who could be granted; and along every stretch of a run
    whose arbitrations all have that room, the bound holds in every state, at every time. -/
theorem concurrency_bound (c : ArbitrationContext) (ledger : AuthorityLedger) :
    (ledger.Built → (ledger.live c.now).length ≤ c.policy.max_concurrent_jobs →
      (((arbitrate c ledger).2.live c.now).length ≤ c.policy.max_concurrent_jobs ↔
        c.HasRoom ledger)) ∧
    ∀ before events, (initial.run before).Bounded →
      Along step Roomy (initial.run before) events →
      ∀ now, ((((initial.run before).run events).ctl.store.state.ledger).live now).length ≤
        ((initial.run before).run events).ctl.policy.max_concurrent_jobs := by
  constructor
  · exact fun built _ => ArbitrationContext.arbitrate_live c built.numbered
  · intro before events hstart hroomy now
    have hrun : ((initial.run before).run events).Sound ∧
      ((initial.run before).run events).Bounded := by
      refine Along.invariant (I := fun s => s.Sound ∧ s.Bounded) ?_ hroomy
        ⟨sound_run before, hstart⟩
      rintro s e hstep ⟨hsound, hbounded⟩
      exact ⟨hsound.step e, hbounded.step hsound hstep⟩
    exact hrun.2.live now

end System

/-! ## A second pass -/

namespace Depot

/-- One job at a time. -/
def single : Policy := { max_concurrent_jobs := 1 }

/-- The ledger after the first crew has got its reservation. -/
def first_granted : AuthorityLedger :=
  match ({} : AuthorityLedger).reserve
    ((crews single []).acquire_context {} (crew 1)).reservation with
  | .ok granted => granted.2
  | .error _ => {}

theorem first_granted_built : first_granted.Built := by
  unfold first_granted
  split
  · next h => exact .reserve .empty h (by decide)
  · exact .empty

end Depot

namespace Drill

/-- Job 1 is approved and job 2 is not. -/
def approved : List Event :=
  [boot 0, call (.set_topology topology), call (.set_policy policy), health 1 0, propose 0,
    propose 0, approve 1 0]

end Drill

namespace System

/-- Both crews ask at once under a limit of one; and two ticks of a run, the first of which grants
    job 1 its reservation. -/
theorem one_live_at_a_time :
    ((arbitrate (Depot.crews Depot.single [⟨1⟩, ⟨2⟩]) {}).2.live 0).length ≤ 1 ∧
    (((initial.run Drill.approved).run (Drill.tick 0 1)).ctl.store.state.ledger.live 0).length = 1 ∧
    (((initial.run Drill.approved).run
        (Drill.tick 0 1 ++ Drill.tick (Drill.ms 100) 1)).ctl.store.state.ledger.live
      (Drill.ms 100)).length ≤
      ((initial.run Drill.approved).run
        (Drill.tick 0 1 ++ Drill.tick (Drill.ms 100) 1)).ctl.policy.max_concurrent_jobs := by
  obtain ⟨hcall, hrun⟩ := concurrency_bound (Depot.crews Depot.single [⟨1⟩, ⟨2⟩]) {}
  refine ⟨(hcall .empty (Nat.zero_le _)).mpr (.inl rfl), by decide +kernel, ?_⟩
  have hstart : (initial.run Drill.approved).Bounded := by
    unfold Bounded
    decide +kernel
  exact hrun Drill.approved (Drill.tick 0 1 ++ Drill.tick (Drill.ms 100) 1) hstart
    (by decide +kernel) (Drill.ms 100)

/-- The next arbitration starts counting at zero, so a second reservation goes live. -/
theorem second_pass_exceeds : Depot.first_granted.Built ∧
    (Depot.first_granted.live 0).length = 1 ∧ Depot.single.max_concurrent_jobs = 1 ∧
    ((arbitrate (Depot.crews Depot.single [⟨2⟩]) Depot.first_granted).2.live 0).length = 2 :=
  ⟨Depot.first_granted_built, by decide +kernel, rfl, by decide +kernel⟩

end System

end MaintenanceFabric
