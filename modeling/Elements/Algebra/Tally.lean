import Mathlib

/-! Tallies of labelled amounts in a group. A list of `(label, amount)` terms
is weighed by sending each label to a group element and summing the scaled
elements. When the elements of the labels involved are linearly independent
over `ℤ`, two tallies that weigh the same carry the same total for every
label: a single group equation splits into one integer equation per label. -/

namespace Tally

variable {α M : Type} [AddCommGroup M]

/-- The group element the terms sum to when label `a` stands for `gen a`. -/
def weigh (gen : α → M) (terms : List (α × ℤ)) : M :=
  (terms.map fun t => t.2 • gen t.1).sum

noncomputable def toFinsupp (terms : List (α × ℤ)) : α →₀ ℤ :=
  (terms.map fun t => Finsupp.single t.1 t.2).sum

section Weigh

variable (gen : α → M)

@[simp] theorem weigh_nil : weigh gen [] = 0 := rfl

@[simp] theorem weigh_cons (t : α × ℤ) (terms : List (α × ℤ)) :
    weigh gen (t :: terms) = t.2 • gen t.1 + weigh gen terms := by
  simp [weigh]

@[simp] theorem weigh_append (left right : List (α × ℤ)) :
    weigh gen (left ++ right) = weigh gen left + weigh gen right := by
  simp [weigh]

theorem weigh_flatMap_cons {β : Type} (items : List β) (head : β → α × ℤ)
    (batch : β → List (α × ℤ)) :
    weigh gen (items.flatMap fun item => head item :: batch item) =
      weigh gen (items.map head) + weigh gen (items.flatMap batch) := by
  induction items with
  | nil => simp
  | cons item items ih =>
    simp only [List.flatMap_cons, List.map_cons, weigh_append, weigh_cons, ih]
    exact add_add_add_comm _ _ _ _

theorem linearCombination_toFinsupp (terms : List (α × ℤ)) :
    Finsupp.linearCombination ℤ gen (toFinsupp terms) = weigh gen terms := by
  induction terms with
  | nil => simp [toFinsupp]
  | cons t terms ih =>
    simp only [toFinsupp, List.map_cons, List.sum_cons, map_add] at ih ⊢
    rw [ih, Finsupp.linearCombination_single, weigh_cons]

theorem toFinsupp_mem_supported {s : Set α} {terms : List (α × ℤ)}
    (labelled : ∀ t ∈ terms, t.1 ∈ s) : toFinsupp terms ∈ Finsupp.supported ℤ ℤ s := by
  induction terms with
  | nil => exact Submodule.zero_mem _
  | cons t terms ih =>
    simp only [List.mem_cons, forall_eq_or_imp] at labelled
    exact Submodule.add_mem _ (Finsupp.single_mem_supported ℤ t.2 labelled.1) (ih labelled.2)

end Weigh

variable [DecidableEq α]

/-- The total amount the terms carry for label `a`. -/
def valueOf (a : α) (terms : List (α × ℤ)) : ℤ :=
  (terms.map fun t => if t.1 = a then t.2 else 0).sum

section ValueOf

variable (a : α)

@[simp] theorem valueOf_nil : valueOf a [] = 0 := rfl

@[simp] theorem valueOf_cons (t : α × ℤ) (terms : List (α × ℤ)) :
    valueOf a (t :: terms) = (if t.1 = a then t.2 else 0) + valueOf a terms := by
  simp [valueOf]

@[simp] theorem valueOf_append (left right : List (α × ℤ)) :
    valueOf a (left ++ right) = valueOf a left + valueOf a right := by
  simp [valueOf]

theorem toFinsupp_apply (terms : List (α × ℤ)) : toFinsupp terms a = valueOf a terms := by
  induction terms with
  | nil => rfl
  | cons t terms ih =>
    simp only [toFinsupp, List.map_cons, List.sum_cons, Finsupp.add_apply] at ih ⊢
    rw [ih, Finsupp.single_apply, valueOf_cons]

end ValueOf

theorem valueOf_eq_of_weigh_eq {gen : α → M} {s : Set α} (independent : LinearIndepOn ℤ gen s)
    {left right : List (α × ℤ)} (leftIn : ∀ t ∈ left, t.1 ∈ s) (rightIn : ∀ t ∈ right, t.1 ∈ s)
    (balanced : weigh gen left = weigh gen right) (a : α) :
    valueOf a left = valueOf a right := by
  have same : toFinsupp left = toFinsupp right := by
    refine linearIndepOn_iffₛ.mp independent _ (toFinsupp_mem_supported leftIn) _
      (toFinsupp_mem_supported rightIn) ?_
    rw [linearCombination_toFinsupp, linearCombination_toFinsupp, balanced]
  rw [← toFinsupp_apply, ← toFinsupp_apply, same]

end Tally
