import Mathlib.Data.List.Forall2

/-! Computations that can fail.

A sequence returns exactly when both parts do, and a loop that returned went through
all of its turns: `foldlM_rec` is the rule for what such a loop has built. -/
namespace ZeusPower.Library.Fallible

universe u
variable {ε α β : Type u}

theorem bind_eq_ok {x : Except ε α} {f : α → Except ε β} {b : β} :
    x >>= f = .ok b ↔ ∃ a, x = .ok a ∧ f a = .ok b := by
  cases x with
  | error e =>
    constructor
    · intro h
      cases h
    · intro ⟨a, ha, _⟩
      cases ha
  | ok a =>
    constructor
    · intro h
      exact ⟨a, rfl, h⟩
    · intro ⟨a', ha, h⟩
      cases ha
      exact h

theorem bind_eq_error {x : Except ε α} {f : α → Except ε β} {e : ε} :
    x >>= f = .error e ↔ x = .error e ∨ ∃ a, x = .ok a ∧ f a = .error e := by
  cases x with
  | error e' =>
    constructor
    · intro h
      cases h
      exact Or.inl rfl
    · intro h
      obtain h | ⟨a, ha, _⟩ := h
      · cases h
        rfl
      · cases ha
  | ok a =>
    constructor
    · intro h
      exact Or.inr ⟨a, rfl, h⟩
    · intro h
      obtain h | ⟨a', ha, h⟩ := h
      · cases h
      · cases ha
        exact h

theorem map_eq_ok {x : Except ε α} {f : α → β} {b : β} : x.map f = .ok b ↔ ∃ a, x = .ok a ∧ f a = b := by
  cases x with
  | error e =>
    constructor
    · intro h
      cases h
    · intro ⟨a, ha, _⟩
      cases ha
  | ok a =>
    constructor
    · intro h
      exact ⟨a, rfl, Except.ok.inj h⟩
    · intro ⟨a', ha, h⟩
      cases ha
      exact congrArg Except.ok h

theorem toOption_bind (x : Except ε α) (f : α → Except ε β) :
    (x >>= f).toOption = x.toOption.bind fun a => (f a).toOption := by
  cases x <;> rfl

/-- Two computations that return the same, or both fail. -/
theorem toOption_eq_cases {x y : Except ε α} (h : x.toOption = y.toOption) :
    (∃ a, x = .ok a ∧ y = .ok a) ∨ ∃ e e', x = .error e ∧ y = .error e' := by
  cases x with
  | error e =>
    cases y with
    | error e' => exact Or.inr ⟨e, e', rfl, rfl⟩
    | ok a => cases h
  | ok a =>
    cases y with
    | error e => cases h
    | ok a' =>
      obtain rfl : a = a' := Option.some.inj h
      exact Or.inl ⟨a, rfl, rfl⟩

/-- A map that returned has returned everywhere. -/
theorem mapM_eq_ok {f : α → Except ε β} {l : List α} {l' : List β} :
    l.mapM f = .ok l' ↔ List.Forall₂ (fun a b => f a = .ok b) l l' := by
  induction l generalizing l' with
  | nil =>
    rw [List.mapM_nil, List.forall₂_nil_left_iff]
    constructor
    · intro h
      exact (Except.ok.inj h).symm
    · rintro rfl
      rfl
  | cons a l ih =>
    rw [List.mapM_cons, bind_eq_ok]
    constructor
    · rintro ⟨b, hb, h⟩
      obtain ⟨bs, hbs, h⟩ := bind_eq_ok.mp h
      obtain rfl := Except.ok.inj h
      exact .cons hb (ih.mp hbs)
    · intro h
      cases h with
      | cons hb hbs => exact ⟨_, hb, bind_eq_ok.mpr ⟨_, ih.mpr hbs, rfl⟩⟩

/-- What a computation returns can be tested by running it. -/
instance decidableReturns {x : Except ε α} {P : α → Prop} [DecidablePred P] :
    Decidable (∃ a, x = .ok a ∧ P a) :=
  match x with
  | .error _ => isFalse fun ⟨_, h, _⟩ => nomatch h
  | .ok a => decidable_of_iff (P a) ⟨fun h => ⟨a, rfl, h⟩, fun ⟨_, h, hP⟩ => Except.ok.inj h ▸ hP⟩

/-- A loop that returned satisfies, of the whole list, what each turn carries from the
turns done to one more. -/
theorem foldlM_rec {f : β → α → Except ε β} {I : List α → β → Prop} {l : List α}
    {b b' : β} (hinit : I [] b)
    (hturn : ∀ done a b b', I done b → f b a = .ok b' → I (done ++ [a]) b')
    (h : l.foldlM f b = .ok b') : I l b' := by
  have hloop : ∀ (rest done : List α) (b : β), I done b → rest.foldlM f b = .ok b' →
      I (done ++ rest) b' := by
    intro rest
    induction rest with
    | nil =>
      intro done b hb h
      rw [List.foldlM_nil] at h
      obtain rfl : b = b' := Except.ok.inj h
      rwa [List.append_nil]
    | cons a rest ih =>
      intro done b hb h
      rw [List.foldlM_cons] at h
      obtain ⟨b₁, hb₁, h⟩ := bind_eq_ok.mp h
      have := ih (done ++ [a]) b₁ (hturn done a b b₁ hb hb₁) h
      rwa [List.append_assoc, List.singleton_append] at this
  exact hloop l [] b hinit h

end ZeusPower.Library.Fallible
