/-! Checks in the `Except` monad: a run of `if failing then throw error`
steps succeeds exactly when no step's condition holds and what follows them
succeeds. -/

namespace Guard

variable {ε α β : Type}

@[simp] theorem ok_bind (value : α) (next : α → Except ε β) :
    (Except.ok value >>= next : Except ε β) = next value := rfl

@[simp] theorem error_bind (error : ε) (next : α → Except ε β) :
    (Except.error error >>= next : Except ε β) = Except.error error := rfl

@[simp] theorem error_map (error : ε) (f : α → β) :
    (f <$> Except.error error : Except ε β) = Except.error error := rfl

@[simp] theorem throw_bind (error : ε) (next : α → Except ε β) :
    (throw error >>= next : Except ε β) = throw error := rfl

theorem bind_eq_ok {first : Except ε α} {next : α → Except ε β} {value : β} :
    first >>= next = .ok value ↔ ∃ result, first = .ok result ∧ next result = .ok value := by
  cases first with
  | error thrown => simp
  | ok result => simp

@[simp] theorem exists_eq_ok_unit {result : Except ε Unit} : (∃ value, result = .ok value) ↔ result = .ok () :=
  ⟨fun ⟨(), succeeded⟩ => succeeded, fun succeeded => ⟨(), succeeded⟩⟩

@[simp] theorem pure_eq_ok (value other : α) : (pure value : Except ε α) = .ok other ↔ value = other := by
  constructor
  · intro same
    cases same
    rfl
  · intro same
    rw [same]
    rfl

@[simp] theorem ite_throw_eq_ok {failing : Prop} [Decidable failing] (error : ε)
    (rest : Except ε α) (value : α) :
    (if failing then throw error else rest) = .ok value ↔ ¬failing ∧ rest = .ok value := by
  by_cases holds : failing
  · simp [holds]
  · simp [holds]

end Guard
