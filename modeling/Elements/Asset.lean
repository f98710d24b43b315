import Elements.Consensus.TxVerify

/-! The operators of `asset.cpp` on `CAmountMap`: sums and differences entry by entry, and the
comparisons, which read a missing asset as zero and hold only when they hold for every asset. A
`std::map` has one entry for each asset; a map here is its list of entries with the assets
distinct. -/

namespace Elements

namespace CAmountMap

/-- A `std::map` holds one entry for each asset. -/
def KeysUnique (m : CAmountMap) : Prop := (m.entries.map (·.1)).Nodup

instance (m : CAmountMap) : Decidable m.KeysUnique := inferInstanceAs (Decidable (List.Nodup _))

/-- `valueFor(mapValue, asset)`: the amount of the asset's entry, zero without one. -/
def valueFor (mapValue : CAmountMap) (asset : CAsset) : CAmount := mapValue.get asset

/-- `a -= b`: every entry of `b` taken from `a`. -/
def sub (a b : CAmountMap) : CAmountMap :=
  b.entries.foldl (fun m entry => m.modify entry.1 (· - entry.2)) a

/-- `a + b`: from an empty map `c`, `c[asset] += amount` over `a`, then over `b`. -/
def plus (a b : CAmountMap) : CAmountMap := (empty.add a).add b

/-- `a - b`: from an empty map `c`, `c[asset] += amount` over `a`, then `c[asset] -= amount` over `b`. -/
def minus (a b : CAmountMap) : CAmountMap := (empty.add a).sub b

/-- The two loops of a comparison, over the entries of `b` and then of `a`: each returns false
at the first pair (amount in `a`, amount in `b`) that `holds` rejects. -/
def allPairs (holds : CAmount → CAmount → Bool) (a b : CAmountMap) : Bool :=
  b.entries.all (fun entry => holds (a.valueFor entry.1) entry.2) &&
    a.entries.all (fun entry => holds entry.2 (b.valueFor entry.1))

/-- The flag of a strict comparison: some pair met along the two loops satisfies `strict`. -/
def somePair (strict : CAmount → CAmount → Bool) (a b : CAmountMap) : Bool :=
  b.entries.any (fun entry => strict (a.valueFor entry.1) entry.2) ||
    a.entries.any (fun entry => strict entry.2 (b.valueFor entry.1))

/-- `operator<`: false at an amount of `a` above `b`'s; otherwise whether one is below. The flag
is read only once no entry has returned false. -/
def lt (a b : CAmountMap) : Bool := allPairs (fun x y => !(x > y)) a b && somePair (fun x y => x < y) a b

def le (a b : CAmountMap) : Bool := allPairs (fun x y => !(x > y)) a b

def gt (a b : CAmountMap) : Bool := allPairs (fun x y => !(x < y)) a b && somePair (fun x y => x > y) a b

def ge (a b : CAmountMap) : Bool := allPairs (fun x y => !(x < y)) a b

/-- `operator==`: over the entries of `a` first, then of `b`. -/
def eq (a b : CAmountMap) : Bool :=
  a.entries.all (fun entry => b.valueFor entry.1 == entry.2) &&
    b.entries.all (fun entry => a.valueFor entry.1 == entry.2)

def ne (a b : CAmountMap) : Bool := !eq a b

/-- `operator!`: every amount is zero. -/
def isZero (a : CAmountMap) : Bool := a.entries.all fun entry => entry.2 == 0

theorem valueFor_nil (asset : CAsset) : (⟨[]⟩ : CAmountMap).valueFor asset = 0 := rfl

theorem valueFor_cons (entry : CAsset × CAmount) (rest : List (CAsset × CAmount)) (asset : CAsset) :
    (⟨entry :: rest⟩ : CAmountMap).valueFor asset =
      if entry.1 = asset then entry.2 else (⟨rest⟩ : CAmountMap).valueFor asset := by
  by_cases same : entry.1 = asset <;> simp [valueFor, get, same]

theorem valueFor_of_mem {m : CAmountMap} (unique : m.KeysUnique) {entry : CAsset × CAmount}
    (member : entry ∈ m.entries) : m.valueFor entry.1 = entry.2 := by
  obtain ⟨entries⟩ := m
  induction entries with
  | nil => exact absurd member List.not_mem_nil
  | cons first rest ih =>
      unfold KeysUnique at unique
      rw [List.map_cons, List.nodup_cons] at unique
      rw [valueFor_cons]
      rcases List.mem_cons.mp member with rfl | later
      · rw [if_pos rfl]
      · have other : first.1 ≠ entry.1 := fun same => unique.1 (same ▸ List.mem_map_of_mem later)
        rw [if_neg other]
        exact ih unique.2 later

theorem valueFor_of_not_mem {m : CAmountMap} {asset : CAsset} (absent : asset ∉ m.entries.map (·.1)) :
    m.valueFor asset = 0 := by
  obtain ⟨entries⟩ := m
  induction entries with
  | nil => rfl
  | cons first rest ih =>
      rw [List.map_cons, List.mem_cons, not_or] at absent
      rw [valueFor_cons, if_neg (Ne.symm absent.1)]
      exact ih absent.2

theorem allPairs_swap (holds : CAmount → CAmount → Bool) (a b : CAmountMap) :
    allPairs holds a b = allPairs (fun x y => holds y x) b a := by
  rw [allPairs, allPairs, Bool.and_comm]

theorem somePair_swap (strict : CAmount → CAmount → Bool) (a b : CAmountMap) :
    somePair strict a b = somePair (fun x y => strict y x) b a := by
  rw [somePair, somePair, Bool.or_comm]

theorem gt_eq_lt (a b : CAmountMap) : a.gt b = b.lt a := by
  rw [gt, lt, allPairs_swap, somePair_swap]

theorem ge_eq_le (a b : CAmountMap) : a.ge b = b.le a := by
  rw [ge, le, allPairs_swap]

theorem eq_eq_allPairs (a b : CAmountMap) : a.eq b = allPairs (fun x y => x == y) a b := by
  rw [eq, allPairs, Bool.and_comm]
  simp only [Bool.beq_comm]

section Unique

variable {a b : CAmountMap} (ua : a.KeysUnique) (ub : b.KeysUnique)
include ua ub

theorem allPairs_iff {holds : CAmount → CAmount → Bool} (zero : holds 0 0 = true) :
    allPairs holds a b = true ↔ ∀ asset, holds (a.valueFor asset) (b.valueFor asset) = true := by
  simp only [allPairs, Bool.and_eq_true, List.all_eq_true]
  constructor
  · rintro ⟨overB, overA⟩ asset
    by_cases inB : asset ∈ b.entries.map (·.1)
    · obtain ⟨entry, member, rfl⟩ := List.mem_map.mp inB
      rw [valueFor_of_mem ub member]
      exact overB entry member
    · by_cases inA : asset ∈ a.entries.map (·.1)
      · obtain ⟨entry, member, rfl⟩ := List.mem_map.mp inA
        rw [valueFor_of_mem ua member]
        exact overA entry member
      · rw [valueFor_of_not_mem inA, valueFor_of_not_mem inB]
        exact zero
  · intro every
    refine ⟨fun entry member => ?_, fun entry member => ?_⟩
    · have pair := every entry.1
      rwa [valueFor_of_mem ub member] at pair
    · have pair := every entry.1
      rwa [valueFor_of_mem ua member] at pair

theorem somePair_iff {strict : CAmount → CAmount → Bool} (zero : strict 0 0 = false) :
    somePair strict a b = true ↔ ∃ asset, strict (a.valueFor asset) (b.valueFor asset) = true := by
  simp only [somePair, Bool.or_eq_true, List.any_eq_true]
  constructor
  · rintro (⟨entry, member, pair⟩ | ⟨entry, member, pair⟩)
    · exact ⟨entry.1, by rwa [valueFor_of_mem ub member]⟩
    · exact ⟨entry.1, by rwa [valueFor_of_mem ua member]⟩
  · rintro ⟨asset, pair⟩
    by_cases inB : asset ∈ b.entries.map (·.1)
    · obtain ⟨entry, member, rfl⟩ := List.mem_map.mp inB
      rw [valueFor_of_mem ub member] at pair
      exact .inl ⟨entry, member, pair⟩
    · by_cases inA : asset ∈ a.entries.map (·.1)
      · obtain ⟨entry, member, rfl⟩ := List.mem_map.mp inA
        rw [valueFor_of_mem ua member] at pair
        exact .inr ⟨entry, member, pair⟩
      · rw [valueFor_of_not_mem inA, valueFor_of_not_mem inB, zero] at pair
        exact absurd pair Bool.false_ne_true

theorem eq_iff : a.eq b = true ↔ ∀ asset, a.valueFor asset = b.valueFor asset := by
  rw [eq_eq_allPairs, allPairs_iff ua ub (beq_self_eq_true 0)]
  simp only [beq_iff_eq]

theorem le_iff : a.le b = true ↔ ∀ asset, a.valueFor asset ≤ b.valueFor asset := by
  rw [le, allPairs_iff ua ub (by decide)]
  simp only [Bool.not_eq_true', decide_eq_false_iff_not, not_lt]

theorem lt_eq_le_and_ne : a.lt b = (a.le b && a.ne b) := by
  rw [lt, ← le, ne]
  cases below : a.le b with
  | false => rfl
  | true =>
      have everywhere := (le_iff ua ub).mp below
      rw [Bool.true_and, Bool.true_and, Bool.eq_iff_iff, somePair_iff ua ub (by decide), Bool.not_eq_true',
        Bool.eq_false_iff, Ne, eq_iff ua ub]
      simp only [decide_eq_true_eq, not_forall]
      exact ⟨fun ⟨asset, lower⟩ => ⟨asset, lower.ne⟩,
        fun ⟨asset, other⟩ => ⟨asset, lt_of_le_of_ne (everywhere asset) other⟩⟩

end Unique

theorem isZero_iff {a : CAmountMap} (ua : a.KeysUnique) : a.isZero = true ↔ ∀ asset, a.valueFor asset = 0 := by
  simp only [isZero, List.all_eq_true, beq_iff_eq]
  constructor
  · intro every asset
    by_cases inA : asset ∈ a.entries.map (·.1)
    · obtain ⟨entry, member, rfl⟩ := List.mem_map.mp inA
      rw [valueFor_of_mem ua member]
      exact every entry member
    · exact valueFor_of_not_mem inA
  · intro every entry member
    rw [← valueFor_of_mem ua member]
    exact every entry.1

theorem keys_update (entries : List (CAsset × CAmount)) (asset : CAsset) (f : CAmount → CAmount) :
    (entries.map fun entry => if entry.1 == asset then (entry.1, f entry.2) else entry).map (·.1) =
      entries.map (·.1) := by
  rw [List.map_map]
  apply List.map_congr_left
  intro entry _
  by_cases same : entry.1 = asset <;> simp [same]

theorem find?_update (entries : List (CAsset × CAmount)) (asset other : CAsset) (f : CAmount → CAmount) :
    (entries.map fun entry => if entry.1 == asset then (entry.1, f entry.2) else entry).find? (·.1 == other) =
      (entries.find? (·.1 == other)).map fun entry => if entry.1 == asset then (entry.1, f entry.2) else entry := by
  have sameKey : ((·.1 == other) ∘ fun entry : CAsset × CAmount =>
      if entry.1 == asset then (entry.1, f entry.2) else entry) = (·.1 == other) := by
    funext entry
    by_cases same : entry.1 = asset <;> simp [same]
  rw [List.find?_map, sameKey]

theorem valueFor_modify (m : CAmountMap) (asset : CAsset) (f : CAmount → CAmount) (other : CAsset) :
    (m.modify asset f).valueFor other = if other = asset then f (m.valueFor asset) else m.valueFor other := by
  unfold valueFor get modify
  by_cases present : m.entries.any (·.1 == asset) = true
  · -- the asset has an entry: the search finds the entry it found before, updated when it is the asset's
    rw [if_pos present, find?_update]
    cases found : m.entries.find? (·.1 == other) with
    | none =>
        have absent : other ≠ asset := by
          rintro rfl
          rw [List.find?_eq_none] at found
          obtain ⟨entry, member, key⟩ := List.any_eq_true.mp present
          exact found entry member key
        simp [absent]
    | some entry =>
        have key := List.find?_some found
        rw [beq_iff_eq] at key
        by_cases same : other = asset
        · subst same
          simp [found, key]
        · simp [key, same]
  · -- no entry yet: one is appended after the others
    rw [if_neg present, List.find?_append]
    by_cases same : other = asset
    · subst same
      have missing : m.entries.find? (·.1 == other) = none := by
        rw [List.find?_eq_none]
        intro entry member key
        exact present (List.any_eq_true.mpr ⟨entry, member, key⟩)
      simp [missing]
    · have skipped : [(asset, f 0)].find? (·.1 == other) = none := by
        simp [Ne.symm same]
      rw [if_neg same, skipped, Option.or_none]

theorem keysUnique_modify {m : CAmountMap} (unique : m.KeysUnique) (asset : CAsset) (f : CAmount → CAmount) :
    (m.modify asset f).KeysUnique := by
  unfold modify KeysUnique
  split_ifs with present
  · rw [keys_update]
    exact unique
  · rw [List.map_append, List.nodup_append]
    refine ⟨unique, List.nodup_singleton _, ?_⟩
    intro key member other inOther
    rw [List.map_singleton, List.mem_singleton] at inOther
    subst inOther
    obtain ⟨entry, inEntries, rfl⟩ := List.mem_map.mp member
    rintro rfl
    exact present (List.any_eq_true.mpr ⟨entry, inEntries, beq_self_eq_true _⟩)

section Fold

variable (step : CAmount → CAmount → CAmount)

theorem keysUnique_foldl_modify (entries : List (CAsset × CAmount)) {a : CAmountMap} (ua : a.KeysUnique) :
    (entries.foldl (fun m entry => m.modify entry.1 (step · entry.2)) a).KeysUnique := by
  induction entries generalizing a with
  | nil => exact ua
  | cons first rest ih => exact ih (keysUnique_modify ua _ _)

theorem valueFor_foldl_modify (unit : ∀ x, step x 0 = x) {entries : List (CAsset × CAmount)}
    (unique : (entries.map (·.1)).Nodup) (a : CAmountMap) (asset : CAsset) :
    (entries.foldl (fun m entry => m.modify entry.1 (step · entry.2)) a).valueFor asset =
      step (a.valueFor asset) ((⟨entries⟩ : CAmountMap).valueFor asset) := by
  induction entries generalizing a with
  | nil => rw [List.foldl_nil, valueFor_nil, unit]
  | cons first rest ih =>
      rw [List.map_cons, List.nodup_cons] at unique
      rw [List.foldl_cons, ih unique.2, valueFor_modify, valueFor_cons]
      by_cases same : asset = first.1
      · -- the first entry's asset has no other entry in `b`
        subst same
        rw [if_pos rfl, if_pos rfl, valueFor_of_not_mem unique.1, unit]
      · rw [if_neg same, if_neg (Ne.symm same)]

end Fold

section Arithmetic

variable {a b : CAmountMap}

theorem keysUnique_add (ua : a.KeysUnique) : (a.add b).KeysUnique := keysUnique_foldl_modify _ _ ua

theorem keysUnique_sub (ua : a.KeysUnique) : (a.sub b).KeysUnique := keysUnique_foldl_modify _ _ ua

theorem valueFor_add (ub : b.KeysUnique) (asset : CAsset) :
    (a.add b).valueFor asset = a.valueFor asset + b.valueFor asset :=
  valueFor_foldl_modify (· + ·) add_zero ub a asset

theorem valueFor_sub (ub : b.KeysUnique) (asset : CAsset) :
    (a.sub b).valueFor asset = a.valueFor asset - b.valueFor asset :=
  valueFor_foldl_modify (· - ·) sub_zero ub a asset

theorem keysUnique_empty : empty.KeysUnique := List.nodup_nil

theorem valueFor_empty (asset : CAsset) : empty.valueFor asset = 0 := rfl

variable (ua : a.KeysUnique) (ub : b.KeysUnique)
include ua ub

theorem valueFor_plus (asset : CAsset) : (a.plus b).valueFor asset = a.valueFor asset + b.valueFor asset := by
  rw [plus, valueFor_add ub, valueFor_add ua, valueFor_empty, zero_add]

theorem valueFor_minus (asset : CAsset) : (a.minus b).valueFor asset = a.valueFor asset - b.valueFor asset := by
  rw [minus, valueFor_sub ub, valueFor_add ua, valueFor_empty, zero_add]

theorem eq_add_plus : (a.add b).eq (a.plus b) = true := by
  have summed : (a.plus b).KeysUnique := keysUnique_add (keysUnique_add keysUnique_empty)
  rw [eq_iff (keysUnique_add ua) summed]
  intro asset
  rw [valueFor_add ub, valueFor_plus ua ub]

theorem eq_sub_minus : (a.sub b).eq (a.minus b) = true := by
  have taken : (a.minus b).KeysUnique := keysUnique_sub (keysUnique_add keysUnique_empty)
  rw [eq_iff (keysUnique_sub ua) taken]
  intro asset
  rw [valueFor_sub ub, valueFor_minus ua ub]

end Arithmetic

theorem amountMap_pointwise (a b : CAmountMap) (ua : a.KeysUnique) (ub : b.KeysUnique) :
    (a.eq b = true ↔ ∀ asset, a.valueFor asset = b.valueFor asset) ∧
      (a.le b = true ↔ ∀ asset, a.valueFor asset ≤ b.valueFor asset) ∧
      a.lt b = (a.le b && a.ne b) ∧ a.gt b = b.lt a ∧ a.ge b = b.le a ∧
      (a.isZero = true ↔ ∀ asset, a.valueFor asset = 0) ∧
      (∀ asset, (a.plus b).valueFor asset = a.valueFor asset + b.valueFor asset) ∧
      (∀ asset, (a.minus b).valueFor asset = a.valueFor asset - b.valueFor asset) ∧
      (a.add b).eq (a.plus b) = true ∧ (a.sub b).eq (a.minus b) = true :=
  ⟨eq_iff ua ub, le_iff ua ub, lt_eq_le_and_ne ua ub, gt_eq_lt a b, ge_eq_le a b, isZero_iff ua,
    valueFor_plus ua ub, valueFor_minus ua ub, eq_add_plus ua ub, eq_sub_minus ua ub⟩

/-- A map with an explicit zero entry equals the map without it. -/
theorem amountMap_pointwise_zeroEntry :
    (⟨[(default, 5), (⟨⟨List.replicate 32 1, rfl⟩⟩, 0)]⟩ : CAmountMap).KeysUnique ∧
      (⟨[(default, 5)]⟩ : CAmountMap).KeysUnique ∧
      ((⟨[(default, 5), (⟨⟨List.replicate 32 1, rfl⟩⟩, 0)]⟩ : CAmountMap).eq ⟨[(default, 5)]⟩ = true ↔
        ∀ asset, (⟨[(default, 5), (⟨⟨List.replicate 32 1, rfl⟩⟩, 0)]⟩ : CAmountMap).valueFor asset =
          (⟨[(default, 5)]⟩ : CAmountMap).valueFor asset) :=
  ⟨by decide, by decide, (amountMap_pointwise _ _ (by decide) (by decide)).1⟩

end CAmountMap

end Elements
