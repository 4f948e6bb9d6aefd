/-!
# Chains that may fail

Readers are written as chains of steps of which the first that fails ends the chain.

* `chain_eq_ok`, `chain_eq_error`   what a step followed by others comes to;
* `unless_eq_ok`                    a check in front of the other steps.
-/

namespace ForgeRelay

variable {ε α β : Type} {x : Except ε α} {f : α → Except ε β}

theorem chain_eq_ok {b : β} : (x >>= f) = .ok b ↔ ∃ a, x = .ok a ∧ f a = .ok b := by
  cases x with
  | error fault => exact ⟨fun h => (nomatch h), fun ⟨_, h, _⟩ => (nomatch h)⟩
  | ok a =>
    constructor
    · intro h
      exact ⟨a, rfl, h⟩
    · rintro ⟨_, h, hb⟩
      cases h
      exact hb

theorem chain_eq_error {e : ε} :
    (x >>= f) = .error e ↔ x = .error e ∨ ∃ a, x = .ok a ∧ f a = .error e := by
  cases x with
  | error fault =>
    constructor
    · intro h
      cases h
      exact .inl rfl
    · rintro (h | ⟨_, h, -⟩)
      · cases h
        rfl
      · cases h
  | ok a =>
    constructor
    · intro h
      exact .inr ⟨a, rfl, h⟩
    · rintro (h | ⟨_, h, he⟩)
      · cases h
      · cases h
        exact he

theorem unless_eq_ok {p : Prop} [Decidable p] {e : ε} {next : PUnit → Except ε α} {a : α} :
    (if p then throw e >>= next else next ()) = .ok a ↔ ¬ p ∧ next () = .ok a := by
  by_cases hp : p
  · rw [if_pos hp]
    exact ⟨fun h => (nomatch h), fun h => absurd hp h.1⟩
  · rw [if_neg hp]
    exact ⟨fun h => ⟨hp, h⟩, And.right⟩

end ForgeRelay
