import Mathlib

/-! Trees given by a parent map: every node but the root has a parent one level below it. The
ancestor `k` levels up, the ancestor relation, and the last common ancestor of two nodes. -/

namespace Ancestry

structure Tree (α : Type) where
  parent : α → Option α
  depth : α → Nat
  depth_parent : ∀ a p, parent a = some p → depth a = depth p + 1
  depth_root : ∀ a, parent a = none → depth a = 0
  root_unique : ∀ a b, parent a = none → parent b = none → a = b

namespace Tree

variable {α : Type} (T : Tree α)

/-- The ancestor `k` levels up; none past the root. -/
def walk : α → Nat → Option α
  | a, 0 => some a
  | a, k + 1 => (T.parent a).bind fun p => walk p k

def IsAncestor (d a : α) : Prop := ∃ k, T.walk a k = some d

/-- `c` is a common ancestor of `a` and `b`, and every common ancestor is one of `c`. -/
def IsLastCommon (c a b : α) : Prop :=
  T.IsAncestor c a ∧ T.IsAncestor c b ∧ ∀ d, T.IsAncestor d a → T.IsAncestor d b → T.IsAncestor d c

variable {T}

@[simp] theorem walk_zero (a : α) : T.walk a 0 = some a := rfl

theorem walk_succ_of_parent {a p : α} (up : T.parent a = some p) (k : Nat) : T.walk a (k + 1) = T.walk p k := by
  rw [walk, up, Option.bind_some]

theorem walk_succ_of_root {a : α} (root : T.parent a = none) (k : Nat) : T.walk a (k + 1) = none := by
  rw [walk, root, Option.bind_none]

theorem parent_of_depth_pos {a : α} (positive : 0 < T.depth a) :
    ∃ p, T.parent a = some p ∧ T.depth a = T.depth p + 1 := by
  cases up : T.parent a with
  | none =>
      have root := T.depth_root a up
      omega
  | some p => exact ⟨p, rfl, T.depth_parent a p up⟩

theorem parent_eq_none_of_depth_zero {a : α} (zero : T.depth a = 0) : T.parent a = none := by
  cases up : T.parent a with
  | none => rfl
  | some p =>
      have step := T.depth_parent a p up
      omega

theorem eq_of_depth_zero {a b : α} (zero_a : T.depth a = 0) (zero_b : T.depth b = 0) : a = b :=
  T.root_unique a b (parent_eq_none_of_depth_zero zero_a) (parent_eq_none_of_depth_zero zero_b)

theorem walk_add (a : α) (i j : Nat) : T.walk a (i + j) = (T.walk a i).bind fun c => T.walk c j := by
  induction i generalizing a with
  | zero => simp
  | succ i ih =>
      cases up : T.parent a with
      | none => rw [Nat.add_right_comm, walk_succ_of_root up, walk_succ_of_root up, Option.bind_none]
      | some p => rw [Nat.add_right_comm, walk_succ_of_parent up, walk_succ_of_parent up, ih]

theorem walk_add_of_walk {a c : α} {i : Nat} (reach : T.walk a i = some c) (j : Nat) :
    T.walk a (i + j) = T.walk c j := by
  rw [walk_add, reach, Option.bind_some]

theorem depth_walk {a c : α} {k : Nat} (reach : T.walk a k = some c) : k ≤ T.depth a ∧ T.depth c = T.depth a - k := by
  induction k generalizing a with
  | zero =>
      obtain rfl := Option.some.inj reach
      omega
  | succ k ih =>
      cases up : T.parent a with
      | none => rw [walk_succ_of_root up] at reach; contradiction
      | some p =>
          rw [walk_succ_of_parent up] at reach
          have below := ih reach
          have step := T.depth_parent a p up
          omega

theorem walk_isSome {a : α} {k : Nat} (within : k ≤ T.depth a) : ∃ c, T.walk a k = some c := by
  induction k generalizing a with
  | zero => exact ⟨a, rfl⟩
  | succ k ih =>
      obtain ⟨p, up, step⟩ := parent_of_depth_pos (T := T) (a := a) (by omega)
      rw [walk_succ_of_parent up]
      exact ih (by omega)

theorem le_of_walk {β : Type} [Preorder β] {f : α → β} (monotone : ∀ a p, T.parent a = some p → f p ≤ f a)
    {a c : α} {k : Nat} (reach : T.walk a k = some c) : f c ≤ f a := by
  induction k generalizing a with
  | zero =>
      obtain rfl := Option.some.inj reach
      exact le_rfl
  | succ k ih =>
      cases up : T.parent a with
      | none => rw [walk_succ_of_root up] at reach; contradiction
      | some p =>
          rw [walk_succ_of_parent up] at reach
          exact (ih reach).trans (monotone a p up)

namespace IsAncestor

theorem refl (a : α) : T.IsAncestor a a := ⟨0, rfl⟩

theorem parent {a p : α} (up : T.parent a = some p) : T.IsAncestor p a :=
  ⟨1, by rw [walk_succ_of_parent up, walk_zero]⟩

theorem trans {a b c : α} (cb : T.IsAncestor c b) (ba : T.IsAncestor b a) : T.IsAncestor c a := by
  obtain ⟨j, reach_c⟩ := cb
  obtain ⟨i, reach_b⟩ := ba
  exact ⟨i + j, by rw [walk_add_of_walk reach_b, reach_c]⟩

theorem depth_le {d a : α} (da : T.IsAncestor d a) : T.depth d ≤ T.depth a := by
  obtain ⟨k, reach⟩ := da
  have moved := depth_walk reach
  omega

theorem eq_of_depth_eq {c d a : α} (ca : T.IsAncestor c a) (da : T.IsAncestor d a) (level : T.depth c = T.depth d) :
    c = d := by
  obtain ⟨i, reach_c⟩ := ca
  obtain ⟨j, reach_d⟩ := da
  have moved_c := depth_walk reach_c
  have moved_d := depth_walk reach_d
  obtain rfl : i = j := by omega
  exact Option.some.inj (reach_c.symm.trans reach_d)

theorem of_parent {d a p : α} (da : T.IsAncestor d a) (other : d ≠ a) (up : T.parent a = some p) :
    T.IsAncestor d p := by
  obtain ⟨k, reach⟩ := da
  cases k with
  | zero => exact absurd (Option.some.inj reach).symm other
  | succ k => exact ⟨k, by rwa [walk_succ_of_parent up] at reach⟩

theorem of_walk {d a e : α} {k : Nat} (da : T.IsAncestor d a) (reach : T.walk a k = some e)
    (low : T.depth d ≤ T.depth e) : T.IsAncestor d e := by
  obtain ⟨i, reach_d⟩ := da
  have moved_d := depth_walk reach_d
  have moved_e := depth_walk reach
  -- `d` is `i` levels up and `e` is `k ≤ i` levels up
  refine ⟨i - k, ?_⟩
  rw [← walk_add_of_walk reach, Nat.add_sub_cancel' (by omega)]
  exact reach_d

end IsAncestor

theorem isLastCommon_self (a : α) : T.IsLastCommon a a a :=
  ⟨.refl a, .refl a, fun _ da _ => da⟩

theorem isLastCommon_of_parents {a b p q c : α} (other : a ≠ b) (level : T.depth a = T.depth b)
    (up_a : T.parent a = some p) (up_b : T.parent b = some q) (last : T.IsLastCommon c p q) :
    T.IsLastCommon c a b := by
  obtain ⟨cp, cq, greatest⟩ := last
  refine ⟨cp.trans (.parent up_a), cq.trans (.parent up_b), fun d da db => greatest d ?_ ?_⟩
  · refine da.of_parent ?_ up_a
    rintro rfl
    exact other (IsAncestor.eq_of_depth_eq db (.refl b) level)
  · refine db.of_parent ?_ up_b
    rintro rfl
    exact other (IsAncestor.eq_of_depth_eq (.refl a) da level)

theorem isLastCommon_of_aligned {a b ea eb c : α} {i j : Nat} (reach_a : T.walk a i = some ea)
    (reach_b : T.walk b j = some eb) (lowest : T.depth ea = min (T.depth a) (T.depth b))
    (level : T.depth ea = T.depth eb) (last : T.IsLastCommon c ea eb) : T.IsLastCommon c a b := by
  obtain ⟨cea, ceb, greatest⟩ := last
  refine ⟨cea.trans ⟨i, reach_a⟩, ceb.trans ⟨j, reach_b⟩, fun d da db => greatest d ?_ ?_⟩
  · have below_a := da.depth_le
    have below_b := db.depth_le
    exact da.of_walk reach_a (by omega)
  · have below_a := da.depth_le
    have below_b := db.depth_le
    exact db.of_walk reach_b (by omega)

variable (T) in
/-- The nodes from `a` up `k` levels, nearest first, as far as the root. -/
def pathUp : α → Nat → List α
  | a, 0 => [a]
  | a, k + 1 =>
      match T.parent a with
      | some p => a :: pathUp p k
      | none => [a]

variable (T) in
/-- The nodes from the root down to `a`. -/
def path (a : α) : List α := (T.pathUp a (T.depth a)).reverse

theorem pathUp_succ_of_parent {a p : α} (up : T.parent a = some p) (k : Nat) :
    T.pathUp a (k + 1) = a :: T.pathUp p k := by
  rw [pathUp, up]

theorem pathUp_getElem? {a : α} {k : Nat} (within : k ≤ T.depth a) {i : Nat} (upTo : i ≤ k) :
    (T.pathUp a k)[i]? = T.walk a i := by
  induction k generalizing a i with
  | zero =>
      obtain rfl : i = 0 := by omega
      rfl
  | succ k ih =>
      obtain ⟨p, up, step⟩ := parent_of_depth_pos (T := T) (a := a) (by omega)
      rw [pathUp, up]
      cases i with
      | zero => rfl
      | succ i => rw [List.getElem?_cons_succ, ih (by omega) (by omega), walk_succ_of_parent up]

theorem length_pathUp {a : α} {k : Nat} (within : k ≤ T.depth a) : (T.pathUp a k).length = k + 1 := by
  induction k generalizing a with
  | zero => rfl
  | succ k ih =>
      obtain ⟨p, up, step⟩ := parent_of_depth_pos (T := T) (a := a) (by omega)
      rw [pathUp, up, List.length_cons, ih (by omega)]

theorem length_path (a : α) : (T.path a).length = T.depth a + 1 := by
  rw [path, List.length_reverse, length_pathUp le_rfl]

theorem path_getElem? (a : α) (h : Nat) :
    (T.path a)[h]? = if h ≤ T.depth a then T.walk a (T.depth a - h) else none := by
  split_ifs with within
  · rw [path, List.getElem?_reverse (by rw [length_pathUp le_rfl]; omega), length_pathUp le_rfl,
      pathUp_getElem? le_rfl (by omega), show T.depth a + 1 - 1 - h = T.depth a - h by omega]
  · rw [List.getElem?_eq_none (by rw [length_path]; omega)]

end Tree

end Ancestry
