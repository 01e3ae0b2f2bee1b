import MaintenanceFabric.Store.Sessions

/-! # Journals in use

    What the file of a running session looks like: a stretch that replay
    accepts, and behind it either nothing, or frames that replay will not
    accept because they are numbered wrongly.  A journal continues its file
    when the next frame it writes is the next one replay expects.
-/

namespace MaintenanceFabric

open Lib

namespace Journal

/-- Replay accepts the stretch, whatever follows, and then expects the number `next`. -/
def Settled (good : Text) (next : UInt64) (visited : List Record) : Prop :=
  ∃ frames, next = 1 + UInt64.ofNat frames ∧
    ∀ rest, replay_frames (good ++ rest) 1 =
      (replay_frames rest next).behind visited frames good.length

theorem Settled.nil : Settled [] 1 [] := by
  refine ⟨0, by simp, ?_⟩
  intro rest
  simp [Replayed.behind]

/-- What an earlier walk accepted is settled. -/
theorem Settled.kept (body : Text) :
    Settled (body.take (replay_frames body 1).bytes)
      (1 + UInt64.ofNat (replay_frames body 1).frames) (replay_frames body 1).visited := by
  refine ⟨(replay_frames body 1).frames, rfl, ?_⟩
  intro rest
  have hlen : (body.take (replay_frames body 1).bytes).length = (replay_frames body 1).bytes := by
    rw [List.length_take]
    exact Nat.min_eq_left (replay_frames_bytes_le body 1)
  rw [replay_frames_kept, hlen]

theorem Settled.laid {good : Text} {next : UInt64} {visited : List Record}
    (h : Settled good next visited) {calls : List AppendCall} (hcalls : ∀ c ∈ calls, c.Admissible) :
    Settled (good ++ Journal.laid next calls) (next + UInt64.ofNat calls.length)
      (visited ++ calls.flatMap AppendCall.committed) := by
  obtain ⟨frames, hnext, hwalk⟩ := h
  refine ⟨frames + calls.length, ?_, ?_⟩
  · rw [hnext, UInt64.ofNat_add, UInt64.add_assoc]
  · intro rest
    rw [List.append_assoc, hwalk, replay_frames_laid hcalls]
    simp only [Replayed.behind, List.append_assoc, List.length_append, Replayed.mk.injEq, true_and,
      and_true]
    exact ⟨by omega, by omega⟩

/-- Stretches that were written frame by frame are settled. -/
theorem Intact.settled {data : Text} {next : UInt64} {delivered : List Record}
    (h : Intact 1 data next delivered) : Settled data next delivered := by
  induction h with
  | nil => exact Settled.nil
  | @snoc data next delivered ds record _ hw hd ih =>
    obtain ⟨frames, hnext, hwalk⟩ := ih
    refine ⟨frames + 1, ?_, ?_⟩
    · rw [hnext, UInt64.ofNat_add, UInt64.add_assoc]
      rfl
    · intro rest
      have hne : frame_bytes record next ++ rest ≠ [] := by simp [frame_bytes_ne_nil]
      have hread : read_frame next (frame_bytes record next ++ rest) =
          .ok (ds, record.payload.length) := by
        rw [read_frame_frame_bytes hw, if_pos rfl, hd]
        rfl
      have hdrop : (frame_bytes record next ++ rest).drop
          (kFrameHeaderBytes + record.payload.length) = rest :=
        List.drop_left' (frame_bytes_length record next)
      rw [List.append_assoc, hwalk, replay_frames_cons hne hread, hdrop]
      simp only [Replayed.behind, List.append_assoc, List.length_append, frame_bytes_length,
        Replayed.mk.injEq, true_and, and_true]
      exact ⟨by omega, by omega⟩

/-- Frames behind a settled stretch that replay does not get past: the first one is numbered
    wrongly, or will be. -/
def Astray (tail : Text) (next sequence : UInt64) : Prop :=
  (tail = [] ∧ sequence ≠ next) ∨
    ∃ record number rest, record.writable = true ∧ number ≠ next ∧
      tail = frame_bytes record number ++ rest

theorem Astray.laid {tail : Text} {next sequence : UInt64} (h : Astray tail next sequence)
    {calls : List AppendCall} (hcalls : ∀ c ∈ calls, c.Admissible) :
    Astray (tail ++ Journal.laid sequence calls) next (sequence + UInt64.ofNat calls.length) := by
  rcases h with ⟨rfl, hne⟩ | ⟨record, number, rest, hw, hne, rfl⟩
  · cases calls with
    | nil => exact .inl ⟨rfl, by simpa using hne⟩
    | cons c calls =>
      have hc := (hcalls c List.mem_cons_self).writable
      exact .inr ⟨c.record, sequence, Journal.laid (sequence + 1) calls, hc, hne, rfl⟩
  · exact .inr ⟨record, number, rest ++ Journal.laid sequence calls, hw, hne, by simp⟩

theorem Astray.not_continued {tail : Text} {next sequence : UInt64}
    (h : Astray tail next sequence) : ¬ (tail = [] ∧ sequence = next) := by
  rintro ⟨htail, hseq⟩
  rcases h with ⟨-, hne⟩ | ⟨record, number, rest, -, -, rfl⟩
  · exact hne hseq
  · exact frame_bytes_ne_nil _ _ (List.append_eq_nil_iff.mp htail).1

/-- Nothing astray is delivered. -/
theorem Astray.replay {tail : Text} {next sequence : UInt64} (h : Astray tail next sequence) :
    (replay_frames tail next).visited = [] ∧ (replay_frames tail next).bytes = 0 ∧
      (replay_frames tail next).frames = 0 := by
  rcases h with ⟨rfl, -⟩ | ⟨record, number, rest, hw, hne, rfl⟩
  · simp
  · have hread : read_frame next (frame_bytes record number ++ rest) =
        .error (text "frame sequence is out of order") := by
      rw [read_frame_frame_bytes hw, if_neg hne]
    exact replay_frames_stop hread

/-- The file of a journal in use, cut where replay will stop. -/
structure Cut (j : Journal) (header good tail : Text) (next : UInt64) (visited : List Record) :
    Prop where
  file : j.file = header ++ (good ++ tail)
  header : header.length = kFileHeaderBytes
  settled : Settled good next visited
  tail : (tail = [] ∧ j.next_seq = next) ∨ Astray tail next j.next_seq

/-- The journal is one that a session can have. -/
def Standing (j : Journal) : Prop :=
  ∃ header good tail next visited, j.Cut header good tail next visited

theorem Standing.reopened {options : JournalOptions} {file : Text} {j : Journal}
    {stats : ReplayStats} {visited : List Record}
    (h : reopen options file = .ok (j, stats, visited)) : j.Standing := by
  obtain ⟨header, body, hh, rfl, -, -⟩ := reopen_ok h
  refine ⟨header, body.take (replay_frames body 1).bytes, [],
    1 + UInt64.ofNat (replay_frames body 1).frames, (replay_frames body 1).visited, ?_⟩
  constructor
  · rw [List.append_nil]
    rfl
  · exact hh
  · exact Settled.kept body
  · left
    refine ⟨rfl, ?_⟩
    simp only [walked, UInt64.ofNat_add]
    rw [UInt64.add_comm]
    rfl

/-- Opening the file of a journal in use keeps the settled stretch. -/
theorem Cut.reopened {j j' : Journal} {header good tail : Text} {next : UInt64}
    {visited visited' : List Record} (h : j.Cut header good tail next visited)
    {options : JournalOptions} {stats : ReplayStats}
    (hopen : reopen options j.file = .ok (j', stats, visited')) :
    visited' = visited ∧ j'.file = header ++ good ∧ j'.next_seq = next := by
  obtain ⟨opened, hopened, hreplay⟩ := Result.bind_eq_ok.mp hopen
  have hfile : opened.file = header ++ (good ++ tail) := by
    rw [open_ok hopened, h.file]
  obtain ⟨stats', hwalk, -⟩ := replay_header h.header hfile
  rw [hwalk] at hreplay
  cases hreplay
  obtain ⟨hv, hb, hf⟩ : (replay_frames tail next).visited = [] ∧
      (replay_frames tail next).bytes = 0 ∧ (replay_frames tail next).frames = 0 := by
    rcases h.tail with ⟨rfl, -⟩ | hastray
    · simp
    · exact hastray.replay
  obtain ⟨frames, hnext, hgood⟩ := h.settled
  rw [hgood tail]
  simp only [walked, Replayed.behind, hv, hb, hf, List.append_nil, Nat.add_zero, List.take_left,
    true_and, UInt64.ofNat_add]
  rw [hnext, UInt64.add_comm]
  rfl

/-- What opens the file of one journal opens that of another one under the same header. -/
theorem Cut.opens {j j' : Journal} {header good tail good' tail' : Text} {next next' : UInt64}
    {visited visited' : List Record} (h : j.Cut header good tail next visited)
    (h' : j'.Cut header good' tail' next' visited') {options : JournalOptions}
    {found : Journal × ReplayStats × List Record} (hopen : reopen options j.file = .ok found) :
    ∃ j'' stats, reopen options j'.file = .ok (j'', stats, visited') := by
  obtain ⟨opened, hopened, -⟩ := Result.bind_eq_ok.mp hopen
  rw [h.file] at hopened
  have hopened' := open_header (good' ++ tail') h.header hopened
  obtain ⟨stats, hreplay, -⟩ := replay_header (j :=
    { options, file := header ++ (good' ++ tail'), bytes := (header ++ (good' ++ tail')).length })
    h.header rfl
  have hreopen : reopen options j'.file = .ok (walked options
      (header ++ (good' ++ tail').take (replay_frames (good' ++ tail') 1).bytes)
      (replay_frames (good' ++ tail') 1), stats, (replay_frames (good' ++ tail') 1).visited) := by
    rw [reopen, h'.file, hopened']
    exact hreplay
  have hvisited := (h'.reopened hreopen).1
  rw [hvisited] at hreopen
  exact ⟨_, _, hreopen⟩

/-- The journal continues its file: what is opened there is not cut, and expects the number that
    the journal writes next. -/
def Continues (j : Journal) (options : JournalOptions) : Prop :=
  ∃ j' stats visited, reopen options j.file = .ok (j', stats, visited) ∧ j'.file = j.file ∧
    j'.next_seq = j.next_seq

theorem Cut.continues_iff {j j' : Journal} {header good tail : Text} {next : UInt64}
    {visited visited' : List Record} (h : j.Cut header good tail next visited)
    {options : JournalOptions} {stats : ReplayStats}
    (hopen : reopen options j.file = .ok (j', stats, visited')) :
    j.Continues options ↔ tail = [] ∧ j.next_seq = next := by
  obtain ⟨-, hfile, hnext⟩ := h.reopened hopen
  constructor
  · rintro ⟨j1, stats1, visited1, hopen1, hfile1, hseq1⟩
    rw [hopen] at hopen1
    cases hopen1
    refine ⟨?_, hseq1.symm.trans hnext⟩
    rw [hfile, h.file, List.append_right_inj] at hfile1
    exact List.append_right_eq_self.mp hfile1.symm
  · rintro ⟨rfl, hseq⟩
    refine ⟨j', stats, visited', hopen, ?_, hnext.trans hseq.symm⟩
    rw [hfile, h.file, List.append_nil]

theorem Cut.appended {j j' : Journal} {header good tail : Text} {next : UInt64}
    {visited : List Record} (h : j.Cut header good tail next visited) {calls : List AppendCall}
    (happ : appends j calls = .ok j') :
    (tail = [] ∧ j.next_seq = next ∧
      j'.Cut header (good ++ laid next calls) [] (next + UInt64.ofNat calls.length)
        (visited ++ calls.flatMap AppendCall.committed)) ∨
    Astray tail next j.next_seq ∧
      j'.Cut header good (tail ++ laid j.next_seq calls) next visited := by
  obtain ⟨hcalls, rfl⟩ := appends_eq happ
  rcases h.tail with ⟨rfl, hseq⟩ | hastray
  · left
    refine ⟨rfl, hseq, ?_⟩
    constructor
    · simp [h.file, hseq]
    · exact h.header
    · exact h.settled.laid hcalls
    · exact .inl ⟨rfl, by rw [hseq]⟩
  · right
    refine ⟨hastray, ?_⟩
    constructor
    · simp [h.file]
    · exact h.header
    · exact h.settled
    · exact .inr (hastray.laid hcalls)

theorem Standing.appended {j j' : Journal} (h : j.Standing) {calls : List AppendCall}
    (happ : appends j calls = .ok j') : j'.Standing := by
  obtain ⟨header, good, tail, next, visited, hcut⟩ := h
  rcases hcut.appended happ with ⟨-, -, hcut'⟩ | ⟨-, hcut'⟩
  · exact ⟨_, _, _, _, _, hcut'⟩
  · exact ⟨_, _, _, _, _, hcut'⟩

theorem Standing.rewritten {j j' : Journal} {records : List Record}
    (hrecords : ∀ r ∈ records, r.type ≠ .Transaction) (h : j.rewrite records = .ok j') :
    j'.Standing := by
  obtain ⟨body, hfile, hintact, -, -, -⟩ := rewrite_ok hrecords h
  refine ⟨file_header, body, [], UInt64.ofNat (records.length + 1), records, ?_⟩
  constructor
  · rw [hfile, List.append_nil]
  · rfl
  · exact hintact.settled
  · by_cases hseq : j'.next_seq = UInt64.ofNat (records.length + 1)
    · exact .inl ⟨rfl, hseq⟩
    · exact .inr (.inl ⟨rfl, hseq⟩)

end Journal

/-! ## Sessions -/

namespace Session

open Journal

theorem standing_of_open {options : StoreOptions} {disk : Option Text} {journal : Journal}
    {store : Store} (h : Store.open options disk = .ok (journal, store)) : journal.Standing := by
  obtain ⟨opened, hopened, h⟩ := Result.bind_eq_ok.mp h
  obtain ⟨⟨j, stats, records⟩, hreplay, h⟩ := Result.bind_eq_ok.mp h
  cases h
  cases disk with
  | none =>
    obtain ⟨-, rfl⟩ := created_holding hopened hreplay
    exact ⟨file_header, [], [], 1, [], rfl, rfl, Settled.nil, .inl ⟨rfl, rfl⟩⟩
  | some file =>
    have hreopen : Journal.reopen options.journal file = .ok (journal, stats, records) := by
      rw [Journal.reopen, hopened]
      exact hreplay
    exact Standing.reopened hreopen

theorem standing_step (s : Session) (e : SessionEvent) (h : s.journal.Standing) :
    (s.step e).journal.Standing := by
  cases e with
  | call verdicts c =>
    unfold step
    simp only
    split
    · exact h
    · next happ => exact h.appended happ
  | compact prior now =>
    unfold step
    simp only
    split
    · exact h
    · next journal hcompact =>
      obtain ⟨_, _, hrewrite⟩ := Result.bind_eq_ok.mp hcompact
      refine Standing.rewritten ?_ hrewrite
      intro r hr
      obtain ⟨e, -, rfl⟩ := List.mem_map.mp hr
      rw [e.record_type]
      exact e.type_known.2.1
  | reopen options =>
    unfold step
    simp only
    split
    · exact h
    · next hopen => exact standing_of_open hopen

/-- Every session has a journal of this kind. -/
theorem standing_run {options : StoreOptions} {disk : Option Text} {s : Session}
    (hopen : Opens options disk s) (events : List SessionEvent) :
    (s.run events).journal.Standing :=
  run_invariant (I := fun s : Session => s.journal.Standing) standing_step events
    (standing_of_open hopen.1)

end Session

end MaintenanceFabric
