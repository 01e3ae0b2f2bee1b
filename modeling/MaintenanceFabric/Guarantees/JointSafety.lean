import MaintenanceFabric.Engine.Arbitration
import MaintenanceFabric.Guarantees.Projection
import MaintenanceFabric.Store.Codec

/-! # Joint safety of arbitration

    Every grant is projected against the ledger as it stands at its turn.
    Later grants take more out of service, so what an earlier grant relied on
    is checked again by every later one that touches it: the last grant's
    projection covers the whole union, and a contract no later grant touches
    loses no member to one.
-/

namespace MaintenanceFabric

open Lib

/-! ## Ledgers -/

namespace AuthorityLedger

/-- The ledgers that the operations build while their counter does not run over; a release
    erases. -/
inductive Built : AuthorityLedger → Prop where
  | empty : Built {}
  | reserve {l l' : AuthorityLedger} {r g : AuthorityReservation} (built : Built l)
      (h : l.reserve r = .ok (g, l')) (room : l.next_id.next.machine) : Built l'
  | adopt {l l' : AuthorityLedger} {r : AuthorityReservation} (built : Built l)
      (h : l.adopt r = .ok l') (room : r.id.next.machine) : Built l'
  | erase {l : AuthorityLedger} (id : AuthorityId) (built : Built l) :
      Built { l with reservations := l.reservations.erase id }
  | renew {l l' : AuthorityLedger} {id : AuthorityId} {attempt : AttemptId}
      {current : ControllerIncarnation} {extend now : Nanos} (built : Built l)
      (h : l.renew id attempt current extend now = .ok l') : Built l'
  | expire {l : AuthorityLedger} (now : Nanos) (built : Built l) : Built (l.expire now)
  | fence {l : AuthorityLedger} (current : ControllerIncarnation) (built : Built l) :
      Built (l.fence_older_incarnations current).2

/-- The next identity lies above every reservation on record. -/
def Numbered (l : AuthorityLedger) : Prop := ∀ r ∈ l.reservations.rows, r.id < l.next_id

theorem Numbered.reserve {l l' : AuthorityLedger} {r g : AuthorityReservation} (h : l.Numbered)
    (hreserve : l.reserve r = .ok (g, l')) : l'.Numbered := by
  obtain ⟨hg, rfl, _, _⟩ := reserve_ok hreserve
  intro x hx
  have hlt : l.next_id < l.next_id.next := StrongId.lt_iff.mpr (Nat.lt_succ_self _)
  rcases Table.mem_put.mp hx with rfl | ⟨hx, _⟩
  · rw [hg]
    exact hlt
  · exact lt_trans (h x hx) hlt

theorem Built.numbered {l : AuthorityLedger} (h : l.Built) : l.Numbered := by
  induction h with
  | empty =>
    intro r hr
    cases hr
  | reserve _ h _ ih => exact ih.reserve h
  | adopt _ h _ ih =>
    rw [adopt_ok h]
    intro x hx
    simp only
    rcases Table.mem_put.mp hx with rfl | ⟨hx, _⟩
    · split
      · exact StrongId.lt_iff.mpr (Nat.lt_succ_self _)
      · next hbelow => exact not_le.mp hbelow
    · split
      · next habove =>
        exact lt_trans (lt_of_lt_of_le (ih x hx) habove) (StrongId.lt_iff.mpr (Nat.lt_succ_self _))
      · exact ih x hx
  | erase id _ ih => exact fun x hx => ih x (Table.mem_erase.mp hx).1
  | renew _ h ih =>
    obtain ⟨r, e, v, hfind, _, rfl⟩ := renew_ok h
    intro x hx
    rcases Table.mem_put.mp hx with rfl | ⟨hx, _⟩
    · exact ih r (Table.mem_of_find hfind)
    · exact ih x hx
  | expire now _ ih => exact fun x hx => ih x (Table.mem_filter.mp hx).1
  | fence current _ ih => exact fun x hx => ih x (Table.mem_filter.mp hx).1

/-- A reservation comes into force before it runs out. -/
theorem reserve_positive {l l' : AuthorityLedger} {r g : AuthorityReservation}
    (h : l.reserve r = .ok (g, l')) : r.granted_at < r.expires_at := by
  unfold reserve at h
  obtain ⟨_, hcheck, _⟩ := Result.bind_eq_ok.mp h
  simp only [check_reservation, Result.bind_eq_ok, refuse_if_eq_ok] at hcheck
  obtain ⟨_, _, _, _, _, _, _, _, _, hpositive, _⟩ := hcheck
  simpa using hpositive

end AuthorityLedger

/-! ## One grant -/

namespace AuthorityAcquireContext

variable {a : AuthorityAcquireContext} {g : AuthorityReservation} {l : AuthorityLedger}

/-- The question the grant was projected by. -/
def question (a : AuthorityAcquireContext) : ImpactInput :=
  { topology := a.topology, policy := a.policy, readiness := a.readiness
    baseline_removed := a.ledger.reserved_targets a.now
    planned_removed := a.removal_set }

/-- All a successful acquisition says. -/
structure Acquired (a : AuthorityAcquireContext) (g : AuthorityReservation) (l : AuthorityLedger) :
    Prop where
  id : g.id = a.ledger.next_id
  ledger : l = ⟨a.ledger.reservations.put g, a.ledger.next_id.next⟩
  job : g.job = a.job
  scope : ∀ t, t ∈ g.targets ↔ t ∈ a.removal_set
  live : g.live_at a.now = true
  apart : ∀ r ∈ a.ledger.reservations.rows, r.live_at a.now = true → ∀ t ∈ g.targets, t ∉ r.targets
  fresh : ∀ t ∈ g.targets, a.readiness.is_fresh t = true
  bounds : a.question.Bounds

theorem acquired (h : (acquire_authority a).1 = .ok (g, l)) : a.Acquired g l := by
  obtain ⟨hreserve, _, hfresh, hoverlap, himpact⟩ := acquire_authority_ok h
  obtain ⟨hg, hl, _, _⟩ := AuthorityLedger.reserve_ok hreserve
  have hscope : ∀ t, t ∈ g.targets ↔ t ∈ a.removal_set := by
    intro t
    rw [hg]
    exact mem_sorted_unique
  constructor
  case id => rw [hg]
  case ledger => exact hl
  case job => rw [hg]; rfl
  case scope => exact hscope
  case live =>
    rw [hg]
    exact decide_eq_true (AuthorityLedger.reserve_positive hreserve)
  case apart =>
    intro r hr hlive t ht hshared
    have hnone : a.overlap r = none := by
      have := List.findSome?_eq_none_iff.mp hoverlap r hr
      simpa using this
    unfold overlap at hnone
    split at hnone
    · next hskip =>
      -- The job's own live reservation would have been refused by the ledger.
      simp only [hlive, Bool.not_true, Bool.false_or, Bool.and_eq_true, decide_eq_true_eq] at hskip
      exact AuthorityLedger.reserve_unheld hreserve r hr hskip
    · have hmiss := List.find?_eq_none.mp hnone t ((hscope t).mp ht)
      simp [AuthorityReservation.covers, hshared] at hmiss
  case fresh =>
    intro t ht
    by_contra hstale
    have hlisted : t ∈ a.readiness.unfresh a.removal_set := by
      unfold ReadinessView.unfresh
      rw [mem_sorted_unique, List.mem_filter]
      exact ⟨(hscope t).mp ht, by simpa using hstale⟩
    rw [hfresh] at hlisted
    cases hlisted
  case bounds => exact ImpactInput.satisfied_iff.mp himpact

theorem Acquired.rows (h : a.Acquired g l) (hn : a.ledger.Numbered) {r : AuthorityReservation} :
    r ∈ l.reservations.rows ↔ r = g ∨ r ∈ a.ledger.reservations.rows := by
  rw [h.ledger, Table.mem_put]
  constructor
  · rintro (rfl | ⟨hr, _⟩)
    · exact .inl rfl
    · exact .inr hr
  · rintro (rfl | hr)
    · exact .inl rfl
    · exact .inr ⟨hr, by rw [h.id]; exact (hn r hr).ne⟩

theorem Acquired.numbered (h : a.Acquired g l) (hn : a.ledger.Numbered) : l.Numbered := by
  rw [h.ledger]
  intro x hx
  have hlt : a.ledger.next_id < a.ledger.next_id.next := StrongId.lt_iff.mpr (Nat.lt_succ_self _)
  rcases Table.mem_put.mp hx with rfl | ⟨hx, _⟩
  · rw [h.id]
    exact hlt
  · exact lt_trans (hn x hx) hlt

/-- What is out of service after the grant is what it was projected with. -/
theorem Acquired.union (h : a.Acquired g l) (hn : a.ledger.Numbered) (t : TargetId) :
    t ∈ l.reserved_targets a.now ↔ a.question.is_removed t = true := by
  unfold question ImpactInput.is_removed
  rw [Bool.or_eq_true, decide_eq_true_eq, decide_eq_true_eq, AuthorityLedger.mem_reserved_targets,
    AuthorityLedger.mem_reserved_targets]
  constructor
  · rintro ⟨r, hr, hlive, ht⟩
    rcases (h.rows hn).mp hr with rfl | hr
    · exact .inr ((h.scope t).mp ht)
    · exact .inl ⟨r, hr, hlive, ht⟩
  · rintro (⟨r, hr, hlive, ht⟩ | ht)
    · exact ⟨r, (h.rows hn).mpr (.inr hr), hlive, ht⟩
    · exact ⟨g, (h.rows hn).mpr (.inl rfl), h.live, (h.scope t).mpr ht⟩

end AuthorityAcquireContext

/-! ## The loop -/

namespace ArbitrationContext

variable (c : ArbitrationContext)

/-- One decision leaves the ledger alone, or is a grant that had room in this pass and passed
    every check. -/
theorem decide_candidate_spec (candidate : ArbitrationCandidate) (position granted : Nat)
    (ledger : AuthorityLedger) :
    let decided := c.decide_candidate candidate position granted ledger
    decided.1.job = candidate.job ∧
      (decided.1.outcome ≠ .Granted ∧ decided.2 = ledger ∨
       decided.1.outcome = .Granted ∧ granted < c.policy.max_concurrent_jobs ∧
        ∃ j g, c.jobs.find candidate.job = some j ∧ decided.1.authority = g.id ∧
          (c.acquire_context ledger j).Acquired g decided.2) := by
  intro decided
  simp only [decided]
  unfold decide_candidate
  simp only
  split
  · exact ⟨rfl, .inl ⟨by simp, rfl⟩⟩
  · next j hj =>
    split
    · exact ⟨rfl, .inl ⟨by simp, rfl⟩⟩
    · split
      · exact ⟨rfl, .inl ⟨by simp, rfl⟩⟩
      · next hroom =>
        split
        · exact ⟨rfl, .inl ⟨by simp, rfl⟩⟩
        · next g staged impact hacq =>
          exact ⟨rfl, .inr ⟨rfl, not_le.mp hroom, j, g, hj, rfl,
            AuthorityAcquireContext.acquired (congrArg Prod.fst hacq)⟩⟩

/-- The union of all live reservations keeps the bounds of pools and domains. -/
structure UnionKept (l : AuthorityLedger) : Prop where
  declared : ∀ t ∈ l.reserved_targets c.now, (c.topology.target t).isSome = true
  pools : ∀ pool ∈ c.topology.pools.rows, (∃ m ∈ pool.members, m ∈ l.reserved_targets c.now) →
    c.policy.required_total pool.id ≤ units_where c.topology pool.members
      (fun m => c.readiness.is_serving m && !decide (m ∈ l.reserved_targets c.now))
  domains : ∀ t ∈ l.reserved_targets c.now, ∀ r, c.topology.target t = some r → ∀ d ∈ r.domains,
    c.policy.domain_limits_for d ≠ [] →
    ((c.topology.domain_members d).filter (fun m => decide (m ∈ l.reserved_targets c.now))).length ≤
      effective_max_out (c.policy.domain_limits_for d)

/-- What the reservation of a grant rests on, all live reservations being out of service. -/
structure GrantKept (l : AuthorityLedger) (g : AuthorityReservation) : Prop where
  held : g ∈ l.reservations.rows
  live : g.live_at c.now = true
  apart : ∀ r ∈ l.reservations.rows, r.live_at c.now = true → r.id ≠ g.id →
    ∀ t ∈ g.targets, t ∉ r.targets
  fit : ∀ t ∈ g.targets, (c.topology.target t).any TargetRecord.maintainable = true ∧
    c.readiness.is_fresh t = true
  contracts : ∀ contract ∈ c.policy.contracts, (∃ m ∈ contract.members, m ∈ g.targets) →
    contract.min_available ≤ (contract.members.filter
      (fun m => c.readiness.is_serving m && !decide (m ∈ l.reserved_targets c.now))).length

/-- The grants made so far, all kept at once. -/
structure Safe (l : AuthorityLedger) (grants : List AuthorityReservation) : Prop where
  each : ∀ g ∈ grants, c.GrantKept l g
  union : grants ≠ [] → c.UnionKept l

variable {c} {l l' : AuthorityLedger} {j : MaintenanceJob} {g : AuthorityReservation}

theorem union_kept (h : (c.acquire_context l j).Acquired g l')
    (hn : l.Numbered) : c.UnionKept l' := by
  have hunion : ∀ t, t ∈ l'.reserved_targets c.now ↔
      (c.acquire_context l j).question.is_removed t = true := h.union hn
  have hsame : (fun m => decide (m ∈ l'.reserved_targets c.now)) =
      (c.acquire_context l j).question.is_removed := by
    funext m
    rw [Bool.eq_iff_iff, decide_eq_true_eq]
    exact hunion m
  constructor
  · exact fun t ht => (h.bounds.targets t ((hunion t).mp ht)).1
  · rintro pool hpool ⟨m, hm, hout⟩
    have hbound := h.bounds.pools m ((hunion m).mp hout) pool
      (c.topology.pools_indexed pool hpool m hm) (Table.find_iff_mem.mpr hpool)
    simp only [congrFun hsame]
    exact hbound.trans (Nat.mod_le _ _)
  · intro t ht r hr d hd hlimited
    rw [hsame]
    exact h.bounds.domains t ((hunion t).mp ht) r hr d hd hlimited

theorem grant_kept (h : (c.acquire_context l j).Acquired g l') (hn : l.Numbered) :
    c.GrantKept l' g := by
  -- What is reserved after the grant is what the question took as removed.
  have hunion : ∀ t, t ∈ l'.reserved_targets c.now ↔
      (c.acquire_context l j).question.is_removed t = true := h.union hn
  constructor
  case held => exact (h.rows hn).mpr (.inl rfl)
  case live => exact h.live
  case apart =>
    intro r hr hlive hne t ht
    rcases (h.rows hn).mp hr with rfl | hr
    · exact absurd rfl hne
    · exact h.apart r hr hlive t ht
  case fit =>
    intro t ht
    have hplanned : t ∈ (c.acquire_context l j).question.planned_removed := (h.scope t).mp ht
    have hremoved : (c.acquire_context l j).question.is_removed t = true := by
      simp [ImpactInput.is_removed, hplanned]
    exact ⟨(h.bounds.targets t hremoved).2 hplanned, h.fresh t ht⟩
  case contracts =>
    rintro contract hcontract ⟨m, hm, hg⟩
    have hbound := h.bounds.contracts contract hcontract ⟨m, hm, (h.scope m).mp hg⟩
    refine hbound.trans (le_of_eq ?_)
    unfold ImpactInput.available
    congr 2
    funext x
    rw [Bool.eq_iff_iff]
    simp only [Bool.and_eq_true, Bool.not_eq_true', decide_eq_false_iff_not, hunion x,
      Bool.not_eq_true]
    exact Iff.rfl

/-- A later grant keeps what an earlier one rests on: it is disjoint from it, and it checks every
    contract that it takes a member from. -/
theorem GrantKept.later {e : AuthorityReservation} (he : c.GrantKept l e)
    (h : (c.acquire_context l j).Acquired g l') (hn : l.Numbered) : c.GrantKept l' e := by
  have hunion : ∀ t, t ∈ l'.reserved_targets c.now ↔
    t ∈ l.reserved_targets c.now ∨ t ∈ g.targets := by
    intro t
    refine (h.union hn t).trans ?_
    unfold AuthorityAcquireContext.question ImpactInput.is_removed
    rw [Bool.or_eq_true, decide_eq_true_eq, decide_eq_true_eq, h.scope t]
    exact Iff.rfl
  constructor
  case held => exact (h.rows hn).mpr (.inr he.held)
  case live => exact he.live
  case apart =>
    intro r hr hlive hne t ht hshared
    rcases (h.rows hn).mp hr with rfl | hr
    · exact h.apart e he.held he.live t hshared ht
    · exact he.apart r hr hlive hne t ht hshared
  case fit => exact he.fit
  case contracts =>
    intro contract hcontract htouched
    by_cases hagain : ∃ m ∈ contract.members, m ∈ g.targets
    · exact (grant_kept h hn).contracts contract hcontract hagain
    · -- The new grant takes no member, so as many are left as before.
      refine (he.contracts contract hcontract htouched).trans (le_of_eq ?_)
      congr 1
      apply List.filter_congr
      intro m hm
      have hkept : m ∉ g.targets := fun hg => hagain ⟨m, hm, hg⟩
      rw [Bool.eq_iff_iff]
      simp [hunion m, hkept]

theorem Safe.grant {grants : List AuthorityReservation} (hs : c.Safe l grants)
    (h : (c.acquire_context l j).Acquired g l') (hn : l.Numbered) : c.Safe l' (g :: grants) := by
  constructor
  · intro e he
    rcases List.mem_cons.mp he with rfl | he
    · exact grant_kept h hn
    · exact (hs.each e he).later h hn
  · exact fun _ => union_kept h hn

/-- The reservations a run of decisions adds, and that each answers a granted decision. -/
structure Grants (l l' : AuthorityLedger) (decisions : List ArbitrationDecision)
    (grants : List AuthorityReservation) : Prop where
  rows : ∀ r, r ∈ l'.reservations.rows ↔ r ∈ grants ∨ r ∈ l.reservations.rows
  granted : ∀ d ∈ decisions, d.outcome = .Granted → ∃ g ∈ grants, g.id = d.authority ∧ g.job = d.job
  answers : ∀ g ∈ grants, ∃ d ∈ decisions, d.outcome = .Granted ∧ d.authority = g.id

theorem Safe.decide_all : ∀ (candidates : List ArbitrationCandidate) (position granted : Nat)
    {l : AuthorityLedger} {grants : List AuthorityReservation}, l.Numbered → c.Safe l grants →
    ∃ more, c.Safe (c.decide_all candidates position granted l).2 (more ++ grants) ∧
      Grants l (c.decide_all candidates position granted l).2
        (c.decide_all candidates position granted l).1 more
  | [], _, _, l, grants, _, hs => by
      refine ⟨[], hs, ?_, ?_, ?_⟩
      · simp [ArbitrationContext.decide_all]
      · intro d hd
        cases hd
      · intro g hg
        cases hg
  | candidate :: rest, position, granted, l, grants, hn, hs => by
      unfold ArbitrationContext.decide_all
      have hspec := c.decide_candidate_spec candidate position granted l
      generalize c.decide_candidate candidate position granted l = decided at hspec ⊢
      obtain ⟨decision, next⟩ := decided
      simp only at hspec ⊢
      obtain ⟨hjob, ⟨hout, rfl⟩ | ⟨hout, _, j, g, hj, hauth, hacquired⟩⟩ := hspec
      -- The candidate is not granted: the rest is decided over the same ledger.
      · obtain ⟨more, hsafe, hgrants⟩ := Safe.decide_all rest (position + 1)
          (if decision.outcome = .Granted then granted + 1 else granted) hn hs
        refine ⟨more, hsafe, hgrants.rows, ?_, ?_⟩
        · intro d hd hgranted
          rcases List.mem_cons.mp hd with rfl | hd
          · exact absurd hgranted hout
          · exact hgrants.granted d hd hgranted
        · intro x hx
          obtain ⟨d, hd, hanswer⟩ := hgrants.answers x hx
          exact ⟨d, List.mem_cons_of_mem _ hd, hanswer⟩
      -- A grant is checked against those before it; what follows is checked against it.
      · have hnext : next.Numbered := hacquired.numbered hn
        obtain ⟨more, hsafe, hgrants⟩ := Safe.decide_all rest (position + 1)
          (if decision.outcome = .Granted then granted + 1 else granted) hnext
          (hs.grant hacquired hn)
        refine ⟨more ++ [g], by simpa using hsafe, ?_, ?_, ?_⟩
        · intro r
          rw [hgrants.rows, hacquired.rows hn, List.mem_append, List.mem_singleton, or_assoc]
          exact Iff.rfl
        · intro d hd hgranted
          rcases List.mem_cons.mp hd with rfl | hd
          · have hjid : j.id = candidate.job := Table.key_of_find hj
            exact ⟨g, by simp, hauth.symm, by rw [hjob, hacquired.job]; exact hjid⟩
          · obtain ⟨x, hx, hid⟩ := hgrants.granted d hd hgranted
            exact ⟨x, List.mem_append_left _ hx, hid⟩
        · intro x hx
          rcases List.mem_append.mp hx with hx | hx
          · obtain ⟨d, hd, hanswer⟩ := hgrants.answers x hx
            exact ⟨d, List.mem_cons_of_mem _ hd, hanswer⟩
          · obtain rfl := List.mem_singleton.mp hx
            exact ⟨decision, List.mem_cons_self, hout, hauth⟩

/-- Deciding uses at most one identity for each candidate. -/
theorem decide_all_counter : ∀ (candidates : List ArbitrationCandidate) (position granted : Nat)
    (l : AuthorityLedger), (c.decide_all candidates position granted l).2.next_id.value ≤
      l.next_id.value + candidates.length
  | [], _, _, l => Nat.le_refl _
  | candidate :: rest, position, granted, l => by
      unfold decide_all
      have hspec := c.decide_candidate_spec candidate position granted l
      generalize c.decide_candidate candidate position granted l = decided at hspec ⊢
      obtain ⟨decision, next⟩ := decided
      simp only at hspec ⊢
      have hrest := decide_all_counter rest (position + 1)
        (if decision.outcome = .Granted then granted + 1 else granted) next
      have hstep : next.next_id.value ≤ l.next_id.value + 1 := by
        obtain ⟨_, ⟨_, rfl⟩ | ⟨_, _, j, g, _, _, hacquired⟩⟩ := hspec
        · exact Nat.le_succ _
        · have hnext : next = ⟨l.reservations.put g, l.next_id.next⟩ := hacquired.ledger
          rw [hnext]
          exact Nat.le_refl _
      rw [List.length_cons]
      omega

/-- The reservation on record under the identity of a granted decision. -/
def GrantedBy (decisions : List ArbitrationDecision) (after : AuthorityLedger)
    (g : AuthorityReservation) : Prop :=
  g ∈ after.reservations.rows ∧ ∃ d ∈ decisions, d.outcome = .Granted ∧ d.authority = g.id

/-- After arbitration every grant is on record and kept together with all the others, the union
    of the live reservations keeps the bounds if anything was granted, and what was on record
    before is still there as it was. With an identity of 64 bits left for each candidate, the
    counter does not run over. -/
theorem arbitration_jointly_safe (c : ArbitrationContext) (ledger : AuthorityLedger)
    (built : ledger.Built) :
    (∀ d ∈ (arbitrate c ledger).1, d.outcome = .Granted →
      ∃ g, GrantedBy (arbitrate c ledger).1 (arbitrate c ledger).2 g ∧ g.id = d.authority ∧
        g.job = d.job) ∧
    (∀ g, GrantedBy (arbitrate c ledger).1 (arbitrate c ledger).2 g →
      c.GrantKept (arbitrate c ledger).2 g) ∧
    ((∃ d ∈ (arbitrate c ledger).1, d.outcome = .Granted) → c.UnionKept (arbitrate c ledger).2) ∧
    (∀ r ∈ ledger.reservations.rows, r ∈ (arbitrate c ledger).2.reservations.rows) ∧
    (∀ r ∈ (arbitrate c ledger).2.reservations.rows, r ∈ ledger.reservations.rows ∨
      GrantedBy (arbitrate c ledger).1 (arbitrate c ledger).2 r) ∧
    (ledger.next_id.value + c.candidates.length < u64_range →
      (arbitrate c ledger).2.next_id.machine) := by
  have hempty : c.Safe ledger [] := by
    constructor
    · intro g hg
      cases hg
    · exact fun h => absurd rfl h
  obtain ⟨grants, hsafe, hgrants⟩ := Safe.decide_all
    (order_candidates (c.candidates.filterMap c.jobs.find) c.policy) 0 0 built.numbered hempty
  rw [List.append_nil] at hsafe
  change c.Safe (arbitrate c ledger).2 grants at hsafe
  change Grants ledger (arbitrate c ledger).2 (arbitrate c ledger).1 grants at hgrants
  have hby : ∀ g ∈ grants, GrantedBy (arbitrate c ledger).1 (arbitrate c ledger).2 g :=
    fun g hg => ⟨(hgrants.rows g).mpr (.inl hg), hgrants.answers g hg⟩
  refine ⟨?_, ?_, ?_, ?_, ?_, ?_⟩
  · intro d hd hgranted
    obtain ⟨g, hg, hid, hjob⟩ := hgrants.granted d hd hgranted
    exact ⟨g, hby g hg, hid, hjob⟩
  · rintro g ⟨hrow, d, hd, hgranted, hauth⟩
    obtain ⟨x, hx, hid, _⟩ := hgrants.granted d hd hgranted
    -- Identities are unique on record, so the row is the grant.
    have hsame : g = x :=
      Table.eq_of_mem_of_key_eq hrow ((hgrants.rows x).mpr (.inl hx)) (hauth.symm.trans hid.symm)
    rw [hsame]
    exact hsafe.each x hx
  · rintro ⟨d, hd, hgranted⟩
    obtain ⟨g, hg, _⟩ := hgrants.granted d hd hgranted
    exact hsafe.union (List.ne_nil_of_mem hg)
  · exact fun r hr => (hgrants.rows r).mpr (.inr hr)
  · intro r hr
    rcases (hgrants.rows r).mp hr with hg | hr
    · exact .inr (hby r hg)
    · exact .inl hr
  · intro hroom
    have hcounter := decide_all_counter (c := c)
      (order_candidates (c.candidates.filterMap c.jobs.find) c.policy) 0 0 ledger
    have hfewer := List.length_filterMap_le c.jobs.find c.candidates
    rw [order_candidates, List.length_insertionSort, List.length_map] at hcounter
    exact Nat.lt_of_le_of_lt (hcounter.trans (Nat.add_le_add_left hfewer _)) hroom

end ArbitrationContext

/-! ## Two crews in the depot -/

namespace Depot

/-- The job that takes out switch `n`. -/
def crew (n : Nat) : MaintenanceJob :=
  { id := ⟨n⟩, removal_set := [switch n], state := .Prerequisites
    active_attempt := { job := ⟨n⟩, generation := ⟨1⟩, ordinal := ⟨1⟩ } }

/-- One switch of the rack may be out at a time. -/
def one_per_rack : Policy := { domain_limits := [{ domain := rack, max_out := 1 }] }

def crews (policy : Policy) (candidates : List JobId) : ArbitrationContext :=
  { topology := racked, policy, readiness := seen [1, 2]
    jobs := { jobs := (Table.empty.put (crew 1)).put (crew 2) }
    candidates, current := { controller := ⟨1⟩, boot_epoch := ⟨1⟩, nonce := 1 }, now := 0 }

end Depot

namespace ArbitrationContext

/-- The first crew is granted its switch and the second one is not. -/
theorem one_crew_granted : ∃ d ∈ (arbitrate (Depot.crews Depot.one_per_rack [⟨2⟩, ⟨1⟩]) {}).1,
    d.job = ⟨1⟩ ∧ d.outcome = .Granted ∧
    (Depot.crews Depot.one_per_rack [⟨2⟩, ⟨1⟩]).UnionKept
      (arbitrate (Depot.crews Depot.one_per_rack [⟨2⟩, ⟨1⟩]) {}).2 ∧
    ∃ g, g.job = ⟨1⟩ ∧ (Depot.crews Depot.one_per_rack [⟨2⟩, ⟨1⟩]).GrantKept
      (arbitrate (Depot.crews Depot.one_per_rack [⟨2⟩, ⟨1⟩]) {}).2 g := by
  obtain ⟨hrecorded, hkept, hunion, _, _, _⟩ :=
    arbitration_jointly_safe (Depot.crews Depot.one_per_rack [⟨2⟩, ⟨1⟩]) {} .empty
  obtain ⟨d, hd, hjob, hgranted⟩ : ∃
    d ∈ (arbitrate (Depot.crews Depot.one_per_rack [⟨2⟩, ⟨1⟩]) {}).1,
      d.job = ⟨1⟩ ∧ d.outcome = .Granted := by decide +kernel
  obtain ⟨g, hby, _, hg⟩ := hrecorded d hd hgranted
  exact ⟨d, hd, hjob, hgranted, hunion ⟨d, hd, hgranted⟩, g, hg.trans hjob, hkept g hby⟩

end ArbitrationContext

end MaintenanceFabric
