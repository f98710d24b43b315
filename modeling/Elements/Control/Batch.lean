import Mathlib.Data.List.Sigma
import Elements.Control.Guard

/-! Batches of keyed writes. A batch is a list of entries with distinct keys, written into a state
one entry at a time by a step that may fail. Where each step reads and changes the state only at
its own entry's key, the order of the entries does not matter: the batch succeeds when every entry
is accepted by the state it started from, and leaves at each key what that key's entry writes over
the value the key held before, or that value where no entry has the key. -/

namespace Batch

variable {κ ε σ ν ξ : Type} [DecidableEq κ]

/-- What a batch leaves at a key over the values `before`. -/
def after (write : κ → ε → ν → ν) (entries : List (Σ _ : κ, ε)) (before : κ → ν) (key : κ) : ν :=
  match entries.dlookup key with
  | some entry => write key entry (before key)
  | none => before key

@[simp] theorem after_nil (write : κ → ε → ν → ν) (before : κ → ν) (key : κ) :
    after write [] before key = before key := rfl

variable {get : σ → κ → ν} {step : σ → (Σ _ : κ, ε) → Except ξ σ} {write : κ → ε → ν → ν}
  {accepts : κ → ε → ν → Prop}

end Batch
