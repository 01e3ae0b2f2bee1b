import Mathlib.Data.List.Basic

/-! # Decoders

    A decoder reads from a state `σ` that still has some symbols in front of
    it and either yields a value or fails with an error.  `Reads ahead d bs x`
    says what `d` does on every state that starts with the symbols `bs`,
    whatever follows them: it ends the way `x` says and, when `x` is a value,
    it has consumed exactly `bs`.

    The rules compose such facts the way decoders are composed, so that a
    record layout is read back by one step per field.

    Nothing in this file is specific to one program: it is generic in the
    state, the symbols, the errors and the relation `ahead`.
-/

namespace Lib

variable {σ β ε α γ : Type} {ahead : σ → List β → Prop}

/-- What a decoder does on every state that has `bs` in front of it. -/
def Reads (ahead : σ → List β → Prop) (d : StateT σ (Except ε) α) (bs : List β)
    (x : Except ε α) : Prop :=
  ∀ s rest, ahead s (bs ++ rest) →
    match x with
    | .ok a => ∃ s', d s = .ok (a, s') ∧ ahead s' rest
    | .error e => d s = .error e

/-- Repeat a decoding step that extends an accumulator. -/
def readLoop (step : γ → StateT σ (Except ε) γ) : Nat → γ → StateT σ (Except ε) γ
  | 0, acc => pure acc
  | n + 1, acc => do readLoop step n (← step acc)

/-- Read `n` values of one kind. -/
def readMany (d : StateT σ (Except ε) α) : Nat → StateT σ (Except ε) (List α)
  | 0 => pure []
  | n + 1 => do
      let a ← d
      let rest ← readMany d n
      pure (a :: rest)

namespace Reads

theorem pure (a : α) : Reads ahead (Pure.pure a : StateT σ (Except ε) α) [] (.ok a) := by
  intro s rest h
  exact ⟨s, rfl, h⟩

/-- A decoder that consumes nothing and answers from the state alone. -/
theorem of_peek {d : StateT σ (Except ε) α} {x : Except ε α}
    (h : ∀ s bs, ahead s bs → d s = x.map (fun a => (a, s))) : Reads ahead d [] x := by
  intro s rest hs
  have hd := h s rest hs
  cases x with
  | error e => exact hd
  | ok a => exact ⟨s, hd, hs⟩

theorem bind {d : StateT σ (Except ε) α} {f : α → StateT σ (Except ε) γ} {bs bs' : List β}
    {x : Except ε α} {y : α → Except ε γ} (hd : Reads ahead d bs x)
    (hf : ∀ a, x = .ok a → Reads ahead (f a) bs' (y a)) :
    Reads ahead (d >>= f) (bs ++ bs') (x >>= y) := by
  intro s rest h
  rw [List.append_assoc] at h
  have hfirst := hd s (bs' ++ rest) h
  cases x with
  | error e =>
    have hrun : (d >>= f) s = .error e := by
      change (d s >>= fun p => f p.1 p.2) = _
      rw [hfirst]
      rfl
    exact hrun
  | ok a =>
    obtain ⟨s', hrun, hs'⟩ := hfirst
    have hstep : (d >>= f) s = f a s' := by
      change (d s >>= fun p => f p.1 p.2) = _
      rw [hrun]
      rfl
    have hrest := hf a rfl s' rest hs'
    change (match y a with
      | .ok c => ∃ s', (d >>= f) s = .ok (c, s') ∧ ahead s' rest
      | .error e => (d >>= f) s = .error e)
    rw [hstep]
    exact hrest

/-! A record layout is the list of its fields; the rules below read off one field, or make one
    check between two fields. -/

/-- A field that may be refused. -/
theorem part {d : StateT σ (Except ε) α} {f : α → StateT σ (Except ε) γ} {b : List β}
    {l : List (List β)} {x : Except ε α} {y : α → Except ε γ} (hd : Reads ahead d b x)
    (hf : ∀ a, x = .ok a → Reads ahead (f a) l.flatten (y a)) :
    Reads ahead (d >>= f) (b :: l).flatten (x >>= y) :=
  bind hd hf

/-- A field that yields one value once a check on it passes. -/
theorem guarded {d : StateT σ (Except ε) α} {f : α → StateT σ (Except ε) γ} {b : List β}
    {l : List (List β)} {c : Except ε Unit} {a : α} {y : Except ε γ}
    (hd : Reads ahead d b (c >>= fun _ => .ok a)) (hf : Reads ahead (f a) l.flatten y) :
    Reads ahead (d >>= f) (b :: l).flatten (c >>= fun _ => y) := by
  have hpart := part (f := f) (l := l) (y := fun _ => y) hd (by
    intro a' ha
    cases c with
    | error e => cases ha
    | ok u => cases ha; exact hf)
  cases c with
  | error e => exact hpart
  | ok u => exact hpart

/-- A field that is always read: the value it yields goes on. -/
theorem field {d : StateT σ (Except ε) α} {f : α → StateT σ (Except ε) γ} {b : List β}
    {l : List (List β)} {a : α} {y : Except ε γ} (hd : Reads ahead d b (.ok a))
    (hf : Reads ahead (f a) l.flatten y) : Reads ahead (d >>= f) (b :: l).flatten y :=
  bind (y := fun _ => y) hd (fun b hb => by cases hb; exact hf)

/-- A check that consumes nothing and may refuse. -/
theorem check {d : StateT σ (Except ε) α} {f : α → StateT σ (Except ε) γ} {bs : List β}
    {x : Except ε α} {y : α → Except ε γ} (hd : Reads ahead d [] x)
    (hf : ∀ a, x = .ok a → Reads ahead (f a) bs (y a)) :
    Reads ahead (d >>= f) bs (x >>= y) := by
  simpa using bind hd hf

/-- A check that consumes nothing and does not refuse. -/
theorem pass {d : StateT σ (Except ε) α} {f : α → StateT σ (Except ε) γ} {bs : List β}
    {a : α} {y : Except ε γ} (hd : Reads ahead d [] (.ok a)) (hf : Reads ahead (f a) bs y) :
    Reads ahead (d >>= f) bs y :=
  check (y := fun _ => y) hd (fun b hb => by cases hb; exact hf)

/-- A loop over an encoded list folds the list. -/
theorem loop {step : γ → StateT σ (Except ε) γ} {encode : α → List β}
    {fold : γ → α → Except ε γ} : ∀ {l : List α} (acc : γ),
    (∀ a ∈ l, ∀ acc, Reads ahead (step acc) (encode a) (fold acc a)) →
    Reads ahead (readLoop step l.length acc) (l.flatMap encode) (l.foldlM fold acc)
  | [], acc, _ => pure acc
  | a :: l, acc, h => by
      rw [List.flatMap_cons, List.foldlM_cons]
      refine bind (h a List.mem_cons_self acc) ?_
      intro acc' _
      exact loop acc' (fun b hb => h b (List.mem_cons_of_mem _ hb))

/-- Reading back an encoded list. -/
theorem many {d : StateT σ (Except ε) γ} {encode : α → List β} {image : α → Except ε γ} :
    ∀ {l : List α}, (∀ a ∈ l, Reads ahead d (encode a) (image a)) →
    Reads ahead (readMany d l.length) (l.flatMap encode) (l.mapM image)
  | [], _ => pure []
  | a :: l, h => by
      rw [List.flatMap_cons, List.mapM_cons]
      refine bind (h a List.mem_cons_self) ?_
      intro b _
      rw [← List.append_nil (l.flatMap encode)]
      refine bind (many (fun c hc => h c (List.mem_cons_of_mem _ hc))) ?_
      intro bs _
      exact pure (b :: bs)

end Reads

/-! ## Decoders that move and do nothing else -/

section

variable {τ : Type}

/-- A decoder that leaves one view of the state as it was whenever it yields a value. -/
def Keeps (view : σ → τ) (d : StateT σ (Except ε) α) : Prop :=
  ∀ s a s', d s = .ok (a, s') → view s' = view s

namespace Keeps

variable {view : σ → τ}

theorem pure (a : α) : Keeps view (Pure.pure a : StateT σ (Except ε) α) := by
  intro s b s' h
  cases h
  rfl

theorem bind {d : StateT σ (Except ε) α} {f : α → StateT σ (Except ε) γ} (hd : Keeps view d)
    (hf : ∀ a, Keeps view (f a)) : Keeps view (d >>= f) := by
  intro s c s' h
  change (d s >>= fun p => f p.1 p.2) = _ at h
  cases hfirst : d s with
  | error e =>
    rw [hfirst] at h
    cases h
  | ok p =>
    obtain ⟨a, s1⟩ := p
    rw [hfirst] at h
    exact (hf a s1 c s' h).trans (hd s a s1 hfirst)

theorem many {d : StateT σ (Except ε) α} (hd : Keeps view d) (n : Nat) :
    Keeps view (readMany d n) := by
  induction n with
  | zero => exact pure []
  | succ n ih => exact bind hd (fun a => bind ih (fun l => pure (a :: l)))

end Keeps

end

end Lib
