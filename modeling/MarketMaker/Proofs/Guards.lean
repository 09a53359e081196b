/-!
# Guards

A check is a sequence of steps, each of which may refuse. What a check that refuses nothing has
established is read off step by step.
-/

namespace MarketMaker.Guards

variable {ε ε' β γ : Type}

/-- A sequence refuses nothing when no step of it does. -/
theorem bind_eq_ok {x : Except ε β} {f : β → Except ε γ} {c : γ} :
    (x >>= f) = .ok c ↔ ∃ b, x = .ok b ∧ f b = .ok c := by
  cases x <;> simp [bind, Except.bind]

/-- What is made of a result is there when the result is. -/
theorem map_eq_ok {x : Except ε β} {f : β → γ} {c : γ} :
    f <$> x = .ok c ↔ ∃ b, x = .ok b ∧ f b = c := by
  cases x <;> simp [Functor.map, Except.map]

/-- A guard lets on to the rest when what it guards against is not so. -/
theorem guard_eq_ok {p : Prop} [Decidable p] {e : ε} {f : β → Except ε γ}
    {rest : Except ε γ} {c : γ} :
    (if p then throw e >>= f else rest) = .ok c ↔ ¬ p ∧ rest = .ok c := by
  by_cases hp : p
  · simp [hp, throw, throwThe, MonadExceptOf.throw, bind, Except.bind]
  · simp [hp]

/-- Other words for a refusal are a refusal. -/
theorem mapError_eq_ok {x : Except ε β} {f : ε → ε'} {b : β} :
    x.mapError f = .ok b ↔ x = .ok b := by
  cases x <;> constructor <;> rintro ⟨⟩ <;> rfl

end MarketMaker.Guards
