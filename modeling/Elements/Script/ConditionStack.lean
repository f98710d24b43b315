import Mathlib

/-! `ConditionStack` of `script/interpreter.cpp`: the stack of IF/ELSE branches taken, kept as
its size and the position of its first false entry, both 32-bit. Against the vector of booleans
it stands for, every operation keeps the pair exact as long as the vector holds at most
`2 ^ 32 - 1` entries; past that the size wraps. -/

namespace Elements

namespace ConditionStack

/-- `std::numeric_limits<uint32_t>::max()`, the position meaning that no entry is false. -/
def NO_FALSE : UInt32 := 0xFFFFFFFF

end ConditionStack

open ConditionStack in
structure ConditionStack where
  m_stack_size : UInt32 := 0
  m_first_false_pos : UInt32 := NO_FALSE
  deriving DecidableEq, Repr

namespace ConditionStack

def empty (s : ConditionStack) : Bool := s.m_stack_size == 0

def all_true (s : ConditionStack) : Bool := s.m_first_false_pos == NO_FALSE

def push_back (s : ConditionStack) (f : Bool) : ConditionStack :=
  -- the stack is all true and a false is added: it sits at the current size
  let first := if s.m_first_false_pos == NO_FALSE && !f then s.m_stack_size else s.m_first_false_pos
  ⟨s.m_stack_size + 1, first⟩

/-- `pop_back`, or `none` where the source asserts a nonempty stack. -/
def pop_back (s : ConditionStack) : Option ConditionStack :=
  if s.m_stack_size > 0 then
    let size := s.m_stack_size - 1
    -- popping the first false makes everything true
    some ⟨size, if s.m_first_false_pos == size then NO_FALSE else s.m_first_false_pos⟩
  else none

/-- `toggle_top`, or `none` where the source asserts a nonempty stack. -/
def toggle_top (s : ConditionStack) : Option ConditionStack :=
  if s.m_stack_size > 0 then
    if s.m_first_false_pos == NO_FALSE then some { s with m_first_false_pos := s.m_stack_size - 1 }
    else if s.m_first_false_pos == s.m_stack_size - 1 then some { s with m_first_false_pos := NO_FALSE }
    -- toggling anything but the first false is unobservable
    else some s
  else none

/-- The operations EvalScript applies: `OP_IF`/`OP_NOTIF` push, `OP_ELSE` toggles,
`OP_ENDIF` pops. -/
inductive Op where
  | push_back (f : Bool)
  | pop_back
  | toggle_top
  deriving DecidableEq, Repr

def step (s : ConditionStack) : Op → Option ConditionStack
  | .push_back f => some (s.push_back f)
  | .pop_back => s.pop_back
  | .toggle_top => s.toggle_top

def run (s : ConditionStack) : List Op → Option ConditionStack
  | [] => some s
  | op :: ops => (s.step op).bind (run · ops)

/-- The same operations on `std::vector<bool>`; `none` for a pop or a toggle of the empty vector. -/
def vectorStep (v : List Bool) : Op → Option (List Bool)
  | .push_back f => some (v ++ [f])
  | .pop_back => if v = [] then none else some v.dropLast
  | .toggle_top => if v = [] then none else some (v.dropLast ++ [!v.getLast!])

def vectorRun (v : List Bool) : List Op → Option (List Bool)
  | [] => some v
  | op :: ops => (vectorStep v op).bind (vectorRun · ops)

/-- The vector holds at most `bound` entries before and after every operation. -/
def StaysWithin (bound : Nat) (v : List Bool) : List Op → Prop
  | [] => v.length ≤ bound
  | op :: ops => v.length ≤ bound ∧ ∀ w ∈ vectorStep v op, StaysWithin bound w ops

instance decStaysWithin (bound : Nat) : (v : List Bool) → (ops : List Op) → Decidable (StaysWithin bound v ops)
  | v, [] => inferInstanceAs (Decidable (v.length ≤ bound))
  | v, op :: ops =>
      have := fun w => decStaysWithin bound w ops
      inferInstanceAs (Decidable (_ ∧ ∀ w ∈ vectorStep v op, _))

theorem StaysWithin.length_le {bound : Nat} {v : List Bool} {ops : List Op} (within : StaysWithin bound v ops) :
    v.length ≤ bound := by
  cases ops with
  | nil => exact within
  | cons op ops => exact within.1

def firstFalse (v : List Bool) : Option Nat := v.findIdx? (fun b => !b)

/-- The pair is the vector's size and the index of its first false entry, or `NO_FALSE`. -/
structure Represents (s : ConditionStack) (v : List Bool) : Prop where
  size : s.m_stack_size.toNat = v.length
  first : s.m_first_false_pos.toNat = (firstFalse v).getD NO_FALSE.toNat
  fits : v.length ≤ NO_FALSE.toNat

theorem toNat_NO_FALSE : NO_FALSE.toNat = 2 ^ 32 - 1 := rfl

theorem firstFalse_append_singleton (v : List Bool) (b : Bool) :
    firstFalse (v ++ [b]) = (firstFalse v).or (if b then none else some v.length) := by
  cases b <;> simp [firstFalse, List.findIdx?_append]

theorem firstFalse_lt {v : List Bool} {i : Nat} (found : firstFalse v = some i) : i < v.length :=
  (List.findIdx?_eq_some_iff_findIdx_eq.mp found).1

theorem initial_represents : Represents {} [] where
  size := rfl
  first := rfl
  fits := by decide

theorem Represents.empty_eq {s : ConditionStack} {v : List Bool} (rep : Represents s v) :
    s.empty = v.isEmpty := by
  have size := rep.size
  cases v with
  | nil =>
      have zero : s.m_stack_size = 0 := UInt32.toNat_inj.mp size
      simp [empty, zero]
  | cons b v =>
      simp only [empty, List.isEmpty_cons, beq_eq_false_iff_ne]
      intro zero
      rw [zero] at size
      simp at size

theorem Represents.all_true_eq {s : ConditionStack} {v : List Bool} (rep : Represents s v) :
    s.all_true = v.all id := by
  have first := rep.first
  cases found : firstFalse v with
  | none =>
      rw [found, Option.getD_none] at first
      have allTrue : v.all id = true := by
        simpa [firstFalse, List.findIdx?_eq_none_iff] using found
      rw [allTrue, all_true, beq_iff_eq]
      exact UInt32.toNat_inj.mp first
  | some i =>
      have below := firstFalse_lt found
      have fits := rep.fits
      rw [found, Option.getD_some] at first
      have notAll : v.all id = false := by
        obtain ⟨inBounds, falseAt, -⟩ := List.findIdx?_eq_some_iff_getElem.mp found
        simp only [List.all_eq_false, id]
        exact ⟨_, List.getElem_mem below, by simpa using falseAt⟩
      rw [notAll, all_true, beq_eq_false_iff_ne]
      intro same
      rw [same, toNat_NO_FALSE] at first
      rw [toNat_NO_FALSE] at fits
      omega

section Operations

variable {s : ConditionStack} {v : List Bool}

theorem Represents.push_back (rep : Represents s v) (f : Bool) (room : v.length + 1 ≤ NO_FALSE.toNat) :
    Represents (s.push_back f) (v ++ [f]) := by
  obtain ⟨size, first, -⟩ := rep
  rw [toNat_NO_FALSE] at room
  constructor
  · rw [ConditionStack.push_back, UInt32.toNat_add, size, List.length_append, List.length_singleton]
    simp only [UInt32.reduceToNat]
    omega
  · rw [firstFalse_append_singleton, ConditionStack.push_back]
    cases found : firstFalse v with
    | some i =>
        rw [found, Option.getD_some] at first
        have notNone : s.m_first_false_pos ≠ NO_FALSE := by
          intro same
          have below := firstFalse_lt found
          rw [same, toNat_NO_FALSE] at first
          omega
        simp [notNone, first]
    | none =>
        rw [found, Option.getD_none] at first
        have none : s.m_first_false_pos = NO_FALSE := UInt32.toNat_inj.mp first
        cases f <;> simp [none, size]
  · simp only [List.length_append, List.length_singleton]
    exact room

theorem nonempty_size {n : Nat} (size : s.m_stack_size.toNat = n + 1) :
    s.m_stack_size > 0 ∧ (s.m_stack_size - 1).toNat = n := by
  have positive : s.m_stack_size > 0 := UInt32.lt_iff_toNat_lt.mpr (by simp [size])
  refine ⟨positive, ?_⟩
  rw [UInt32.toNat_sub_of_le _ _ (UInt32.le_iff_toNat_le.mpr (by simp [size])), size]
  simp

theorem Represents.pop_back (rep : Represents s v) (nonempty : v ≠ []) :
    ∃ s', s.pop_back = some s' ∧ Represents s' v.dropLast := by
  obtain ⟨size, first, fits⟩ := rep
  obtain ⟨u, t, rfl⟩ := List.eq_nil_or_concat' v |>.resolve_left nonempty
  rw [List.length_append, List.length_singleton] at size fits
  rw [toNat_NO_FALSE] at fits
  obtain ⟨positive, pred⟩ := nonempty_size size
  refine ⟨_, if_pos positive, ?_⟩
  rw [List.dropLast_concat]
  refine ⟨pred, ?_, by rw [toNat_NO_FALSE]; omega⟩
  rw [firstFalse_append_singleton] at first
  dsimp only
  -- the popped entry was the first false exactly when the position is the new size
  by_cases popped : s.m_first_false_pos = s.m_stack_size - 1
  · rw [if_pos (beq_iff_eq.mpr popped), toNat_NO_FALSE]
    rw [popped, pred] at first
    cases found : firstFalse u with
    | none => rfl
    | some i =>
        rw [found] at first
        have below := firstFalse_lt found
        simp at first
        omega
  · rw [if_neg (by simpa using popped)]
    cases found : firstFalse u with
    | some i => simpa [found] using first
    | none =>
        rw [found] at first
        cases t
        · exact absurd (UInt32.toNat_inj.mp (by simpa [pred] using first)) popped
        · simpa using first

theorem Represents.toggle_top (rep : Represents s v) (nonempty : v ≠ []) :
    ∃ s', s.toggle_top = some s' ∧ Represents s' (v.dropLast ++ [!v.getLast!]) := by
  obtain ⟨size, first, fits⟩ := rep
  obtain ⟨u, t, rfl⟩ := List.eq_nil_or_concat' v |>.resolve_left nonempty
  rw [List.length_append, List.length_singleton] at size fits
  rw [toNat_NO_FALSE] at fits
  rw [List.dropLast_concat, List.getLast!_eq_getLast?_getD, List.getLast?_concat, Option.getD_some]
  obtain ⟨positive, pred⟩ := nonempty_size size
  have keeps : (u ++ [!t]).length ≤ NO_FALSE.toNat := by rw [toNat_NO_FALSE]; simp; omega
  rw [firstFalse_append_singleton] at first
  unfold ConditionStack.toggle_top
  rw [if_pos positive]
  cases found : firstFalse u with
  | some i =>
      -- the first false is below the top, which the pair does not see
      have below := firstFalse_lt found
      rw [found] at first
      simp only [Option.some_or, Option.getD_some] at first
      have notNone : s.m_first_false_pos ≠ NO_FALSE := by
        intro same
        rw [same, toNat_NO_FALSE] at first
        omega
      have notTop : s.m_first_false_pos ≠ s.m_stack_size - 1 := by
        intro same
        rw [same, pred] at first
        omega
      refine ⟨s, by rw [if_neg (by simpa using notNone), if_neg (by simpa using notTop)],
        ⟨by simpa using size, ?_, keeps⟩⟩
      rw [firstFalse_append_singleton, found, first]
      rfl
  | none =>
      cases t
      · -- the top is the first false: toggling it makes everything true
        simp only [found, Option.none_or, Bool.false_eq_true, if_false, Option.getD_some] at first
        have top : s.m_first_false_pos = s.m_stack_size - 1 := UInt32.toNat_inj.mp (by rw [first, pred])
        have notNone : s.m_first_false_pos ≠ NO_FALSE := by
          intro same
          rw [same, toNat_NO_FALSE] at first
          omega
        refine ⟨_, by rw [if_neg (by simpa using notNone), if_pos (by simpa using top)],
          ⟨by simpa using size, ?_, keeps⟩⟩
        rw [firstFalse_append_singleton, found]
        rfl
      · -- all true: the toggled top becomes the first false
        simp only [found, Option.none_or, if_true, Option.getD_none] at first
        have none : s.m_first_false_pos = NO_FALSE := UInt32.toNat_inj.mp first
        refine ⟨_, by rw [if_pos (by simpa using none)], ⟨by simpa using size, ?_, keeps⟩⟩
        rw [firstFalse_append_singleton, found]
        simpa using pred

theorem Represents.step (rep : Represents s v) {op : Op} {w : List Bool} (stepped : vectorStep v op = some w)
    (room : w.length ≤ NO_FALSE.toNat) : ∃ s', s.step op = some s' ∧ Represents s' w := by
  cases op with
  | push_back f =>
      rw [vectorStep, Option.some.injEq] at stepped
      subst stepped
      exact ⟨_, rfl, rep.push_back f (by simpa using room)⟩
  | pop_back =>
      by_cases nonempty : v = []
      · rw [vectorStep, if_pos nonempty] at stepped
        contradiction
      · rw [vectorStep, if_neg nonempty, Option.some.injEq] at stepped
        subst stepped
        exact rep.pop_back nonempty
  | toggle_top =>
      by_cases nonempty : v = []
      · rw [vectorStep, if_pos nonempty] at stepped
        contradiction
      · rw [vectorStep, if_neg nonempty, Option.some.injEq] at stepped
        subst stepped
        exact rep.toggle_top nonempty

theorem Represents.run (rep : Represents s v) {ops : List Op} {w : List Bool} (ran : vectorRun v ops = some w)
    (within : StaysWithin NO_FALSE.toNat v ops) : ∃ s', s.run ops = some s' ∧ Represents s' w := by
  induction ops generalizing s v with
  | nil =>
      rw [vectorRun, Option.some.injEq] at ran
      subst ran
      exact ⟨s, rfl, rep⟩
  | cons op ops ih =>
      rw [vectorRun, Option.bind_eq_some_iff] at ran
      obtain ⟨u, stepped, rest⟩ := ran
      have next : StaysWithin NO_FALSE.toNat u ops := within.2 u stepped
      obtain ⟨s₁, pairStepped, rep₁⟩ := rep.step stepped next.length_le
      obtain ⟨s', pairRan, rep'⟩ := ih rep₁ rest next
      refine ⟨s', ?_, rep'⟩
      rw [ConditionStack.run, pairStepped, Option.bind_some, pairRan]

end Operations

/-- The pair of an empty stack, after any run the vector allows within `2 ^ 32 - 1` entries, is the
vector's size and first false position, and `empty()` and `all_true()` answer as the vector does. -/
theorem conditionStack_refines_vector {ops : List Op} {w : List Bool} (ran : vectorRun [] ops = some w)
    (within : StaysWithin (2 ^ 32 - 1) [] ops) :
    ∃ s, run {} ops = some s ∧ s.m_stack_size.toNat = w.length ∧
      s.m_first_false_pos.toNat = (firstFalse w).getD NO_FALSE.toNat ∧
      s.empty = w.isEmpty ∧ s.all_true = w.all id := by
  rw [← toNat_NO_FALSE] at within
  obtain ⟨s, pairRan, rep⟩ := initial_represents.run ran within
  exact ⟨s, pairRan, rep.size, rep.first, rep.empty_eq, rep.all_true_eq⟩

/-- OP_IF, OP_NOTIF, OP_ELSE, OP_ENDIF: the inner branch closed, the outer one still taken. -/
theorem conditionStack_refines_vector_nested :
    ∃ s, run {} [.push_back true, .push_back false, .toggle_top, .pop_back] = some s ∧
      s.m_stack_size.toNat = [true].length ∧
      s.m_first_false_pos.toNat = (firstFalse [true]).getD NO_FALSE.toNat ∧
      s.empty = [true].isEmpty ∧ s.all_true = [true].all id :=
  conditionStack_refines_vector (by decide) (by decide)

theorem run_push_back_true (s : ConditionStack) (k : Nat) :
    s.run (List.replicate k (.push_back true)) = some ⟨s.m_stack_size + UInt32.ofNat k, s.m_first_false_pos⟩ := by
  induction k generalizing s with
  | zero => simp [ConditionStack.run]
  | succ k ih =>
      rw [List.replicate_succ, ConditionStack.run, step, Option.bind_some, ih]
      simp [ConditionStack.push_back, UInt32.ofNat_add, UInt32.add_assoc, UInt32.add_comm 1]

theorem vectorRun_push_back (v : List Bool) (b : Bool) (k : Nat) :
    vectorRun v (List.replicate k (.push_back b)) = some (v ++ List.replicate k b) := by
  induction k generalizing v with
  | zero => simp [vectorRun]
  | succ k ih =>
      rw [List.replicate_succ, vectorRun, vectorStep, Option.bind_some, ih, List.replicate_succ,
        List.append_assoc, List.singleton_append]

/-- Past `2 ^ 32 - 1` entries the size wraps: after `2 ^ 32` pushes the stack says it is empty
while the vector holds `2 ^ 32` entries. -/
theorem run_push_back_wraps :
    (run {} (List.replicate (2 ^ 32) (.push_back true))).map empty = some true ∧
      (vectorRun [] (List.replicate (2 ^ 32) (.push_back true))).map List.isEmpty = some false := by
  have wraps : UInt32.ofNat (2 ^ 32) = 0 := rfl
  rw [run_push_back_true, vectorRun_push_back, wraps, List.nil_append, Option.map_some, Option.map_some,
    List.isEmpty_replicate]
  constructor
  · rfl
  · rfl

end ConditionStack

end Elements
