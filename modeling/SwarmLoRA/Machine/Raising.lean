import Mathlib.Data.List.Defs

/-! Calls that change a state and may raise. A handler finds the state as the exception left it,
so that two things are said of a call: where it returns, and what it keeps wherever it ends. -/
namespace Machine

variable {ε σ α β : Type} {s s' s'' : σ} {a : α} {b : β} {e : ε}

/-- The call returns a value and leaves a state. -/
def Returns (m : EStateM ε σ α) (s : σ) (a : α) (s' : σ) : Prop := m s = .ok a s'

/-- The call raises and leaves a state. -/
def Raises (m : EStateM ε σ α) (s : σ) (e : ε) (s' : σ) : Prop := m s = .error e s'

/-- What holds before the call holds where it ends, whether it returns or raises. -/
structure Keeps (I : σ → Prop) (m : EStateM ε σ α) : Prop where
  returns : ∀ s a s', I s → Returns m s a s' → I s'
  raises : ∀ s e s', I s → Raises m s e s' → I s'

section Returns

variable {m : EStateM ε σ α} {f : α → EStateM ε σ β}

@[simp] theorem returns_pure {a' : α} :
    Returns (pure a : EStateM ε σ α) s a' s' ↔ a' = a ∧ s' = s := by
  show EStateM.Result.ok a s = .ok a' s' ↔ _
  rw [EStateM.Result.ok.injEq]
  exact ⟨fun h => ⟨h.1.symm, h.2.symm⟩, fun h => ⟨h.1.symm, h.2.symm⟩⟩

@[simp] theorem not_returns_throw : ¬Returns (throw e : EStateM ε σ α) s a s' :=
  fun h => nomatch h

@[simp] theorem returns_get {a : σ} :
    Returns (get : EStateM ε σ σ) s a s' ↔ a = s ∧ s' = s :=
  returns_pure

@[simp] theorem returns_modify {change : σ → σ} {a : PUnit} :
    Returns (modify change : EStateM ε σ PUnit) s a s' ↔ s' = change s := by
  show EStateM.Result.ok PUnit.unit (change s) = .ok a s' ↔ _
  rw [EStateM.Result.ok.injEq]
  exact ⟨fun h => h.2.symm, fun h => ⟨rfl, h.symm⟩⟩

@[simp] theorem returns_bind :
    Returns (m >>= f) s b s'' ↔ ∃ a s', Returns m s a s' ∧ Returns (f a) s' b s'' := by
  unfold Returns
  show EStateM.bind m f s = _ ↔ _
  unfold EStateM.bind
  cases m s with
  | ok a s' =>
      constructor
      · intro h
        exact ⟨a, s', rfl, h⟩
      · rintro ⟨a', t, hFirst, hRest⟩
        cases hFirst
        exact hRest
  | error e s' =>
      constructor
      · intro h
        cases h
      · rintro ⟨a', t, hFirst, -⟩
        cases hFirst

theorem returns_get_bind {f : σ → EStateM ε σ β} (h : Returns (get >>= f) s b s') :
    Returns (f s) s b s' := by
  obtain ⟨t, t', hGet, hRest⟩ := returns_bind.mp h
  obtain ⟨rfl, rfl⟩ := returns_get.mp hGet
  exact hRest

theorem returns_modify_bind {change : σ → σ} {f : PUnit → EStateM ε σ β}
    (h : Returns (modify change >>= f) s b s') : Returns (f ⟨⟩) (change s) b s' := by
  obtain ⟨_, t, hModify, hRest⟩ := returns_bind.mp h
  rwa [returns_modify.mp hModify] at hRest

theorem raises_bind :
    Raises (m >>= f) s e s'' ↔
      Raises m s e s'' ∨ ∃ a s', Returns m s a s' ∧ Raises (f a) s' e s'' := by
  unfold Returns Raises
  show EStateM.bind m f s = _ ↔ _
  unfold EStateM.bind
  cases m s with
  | ok a s' =>
      constructor
      · intro h
        exact .inr ⟨a, s', rfl, h⟩
      · rintro (hFirst | ⟨a', t, hFirst, hRest⟩)
        · cases hFirst
        · cases hFirst
          exact hRest
  | error e' s' =>
      constructor
      · intro h
        cases h
        exact .inl rfl
      · rintro (hFirst | ⟨a', t, hFirst, -⟩)
        · cases hFirst
          rfl
        · cases hFirst

/-- A loop over calls that leave the state as it is collects what each of them returns. -/
theorem returns_mapM {f : α → EStateM ε σ β} {g : α → β} {l : List α} {results : List β}
    (hEach : ∀ a b s', Returns (f a) s b s' → b = g a ∧ s' = s)
    (h : Returns (l.mapM f) s results s') : results = l.map g ∧ s' = s := by
  induction l generalizing results with
  | nil =>
      rw [List.mapM_nil, returns_pure] at h
      exact h
  | cons a l ih =>
      rw [List.mapM_cons, returns_bind] at h
      obtain ⟨b, t, hFirst, h⟩ := h
      obtain ⟨rest, t', hRest, h⟩ := returns_bind.mp h
      obtain ⟨rfl, rfl⟩ := returns_pure.mp h
      obtain ⟨rfl, rfl⟩ := hEach a b t hFirst
      obtain ⟨rfl, rfl⟩ := ih hRest
      exact ⟨rfl, rfl⟩

end Returns

namespace Keeps

variable {I : σ → Prop} {m : EStateM ε σ α} {f : α → EStateM ε σ β}

theorem pure (a : α) : Keeps I (pure a : EStateM ε σ α) where
  returns _ _ _ hs h := (returns_pure.mp h).2 ▸ hs
  raises _ _ _ _ h := nomatch h

theorem throw (e : ε) : Keeps I (throw e : EStateM ε σ α) where
  returns _ _ _ _ h := nomatch h
  raises s e' s' hs h := by
    cases h
    exact hs

theorem get : Keeps I (get : EStateM ε σ σ) where
  returns _ _ _ hs h := (returns_get.mp h).2 ▸ hs
  raises _ _ _ _ h := nomatch h

theorem modify {change : σ → σ} (hChange : ∀ s, I s → I (change s)) :
    Keeps I (modify change : EStateM ε σ PUnit) where
  returns s _ _ hs h := returns_modify.mp h ▸ hChange s hs
  raises _ _ _ _ h := nomatch h

theorem bind (hFirst : Keeps I m) (hRest : ∀ a, Keeps I (f a)) : Keeps I (m >>= f) where
  returns s b s'' hs h := by
    obtain ⟨a, s', hm, hf⟩ := returns_bind.mp h
    exact (hRest a).returns s' b s'' (hFirst.returns s a s' hs hm) hf
  raises s e s'' hs h := by
    rcases raises_bind.mp h with hm | ⟨a, s', hm, hf⟩
    · exact hFirst.raises s e s'' hs hm
    · exact (hRest a).raises s' e s'' (hFirst.returns s a s' hs hm) hf

theorem mapM {f : α → EStateM ε σ β} (l : List α) (hEach : ∀ a, Keeps I (f a)) :
    Keeps I (l.mapM f) := by
  induction l with
  | nil =>
      rw [List.mapM_nil]
      exact pure _
  | cons a l ih =>
      rw [List.mapM_cons]
      exact bind (hEach a) fun _ => bind ih fun _ => pure _

end Keeps

end Machine
