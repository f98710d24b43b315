import Mathlib

/-! The first vote to reach a threshold. Votes are scanned in order and
tallied by key, and the scan stops at the first vote whose key is eligible
and whose tally, that vote included, reaches the threshold. Whether some vote
wins depends only on the final tally of each key; when the threshold is more
than half the votes at most one key can reach it, so the winning key does not
depend on the order of the scan. -/

namespace Quorum

variable {α κ : Type} [DecidableEq κ] (key : α → κ) (eligible : κ → Bool) (threshold : Nat)

def firstToReach : List κ → List α → Option α
  | _, [] => none
  | tally, vote :: votes =>
    if eligible (key vote) && decide (threshold ≤ (key vote :: tally).count (key vote)) then some vote
    else firstToReach (key vote :: tally) votes

variable {key eligible threshold}

theorem count_scanned (tally : List κ) (vote : α) (votes : List α) (k : κ) :
    (key vote :: tally ++ votes.map key).count k = (tally ++ (vote :: votes).map key).count k := by
  rw [List.map_cons]
  exact (List.perm_middle.count_eq k).symm

theorem count_add_count_le {k k' : κ} (differ : k ≠ k') :
    ∀ keys : List κ, keys.count k + keys.count k' ≤ keys.length
  | [] => Nat.le_refl 0
  | first :: keys => by
    have rest := count_add_count_le differ keys
    rw [List.count_cons, List.count_cons, List.length_cons]
    by_cases isFirst : first = k
    · subst isFirst
      simp [differ]
      omega
    · simp only [beq_iff_eq, isFirst, if_false]
      split <;> omega

theorem firstToReach_spec {tally : List κ} {votes : List α} {winner : α}
    (wins : firstToReach key eligible threshold tally votes = some winner) :
    winner ∈ votes ∧ eligible (key winner) = true ∧
      threshold ≤ (tally ++ votes.map key).count (key winner) := by
  induction votes generalizing tally with
  | nil => cases wins
  | cons vote votes ih =>
    simp only [firstToReach] at wins
    split at wins
    · next reached =>
      cases wins
      simp only [Bool.and_eq_true, decide_eq_true_eq] at reached
      refine ⟨List.mem_cons_self, reached.1, Nat.le_trans reached.2 ?_⟩
      rw [← count_scanned]
      exact List.Sublist.count_le _ (List.sublist_append_left _ _)
    · rcases ih wins with ⟨member, eligibleWinner, reached⟩
      exact ⟨List.mem_cons_of_mem _ member, eligibleWinner, by rwa [← count_scanned]⟩

theorem firstToReach_isSome {tally : List κ} {votes : List α} {k : κ}
    (proposed : k ∈ votes.map key) (eligibleKey : eligible k = true)
    (reached : threshold ≤ (tally ++ votes.map key).count k) :
    (firstToReach key eligible threshold tally votes).isSome := by
  induction votes generalizing tally with
  | nil => simp at proposed
  | cons vote votes ih =>
    simp only [firstToReach]
    split
    · rfl
    · next missed =>
      by_cases later : k ∈ votes.map key
      · -- a later vote on the key still reaches the threshold
        exact ih later (by rwa [count_scanned])
      · -- this is the last vote on the key, and it reaches the threshold here
        have here : key vote = k := by
          rcases List.mem_cons.mp (List.map_cons ▸ proposed) with same | member
          · exact same.symm
          · exact absurd member later
        have full : (k :: tally).count k = (tally ++ (vote :: votes).map key).count k := by
          rw [← count_scanned, here, List.count_append, List.count_eq_zero_of_not_mem later,
            Nat.add_zero]
        simp only [here, eligibleKey, full, reached, decide_true, Bool.and_true] at missed
        exact absurd trivial missed

theorem firstToReach_isSome_iff (votes : List α) :
    (firstToReach key eligible threshold [] votes).isSome ↔
      ∃ k ∈ votes.map key, eligible k = true ∧ threshold ≤ (votes.map key).count k := by
  constructor
  · intro found
    rcases Option.isSome_iff_exists.mp found with ⟨winner, wins⟩
    rcases firstToReach_spec wins with ⟨member, eligibleWinner, reached⟩
    exact ⟨key winner, List.mem_map_of_mem member, eligibleWinner, by simpa using reached⟩
  · rintro ⟨k, proposed, eligibleKey, reached⟩
    exact firstToReach_isSome proposed eligibleKey (by simpa using reached)

theorem eq_of_reached {keys : List κ} {k k' : κ} (majority : keys.length < 2 * threshold)
    (reached : threshold ≤ keys.count k) (reached' : threshold ≤ keys.count k') : k = k' := by
  by_contra differ
  have both := count_add_count_le differ keys
  omega

theorem firstToReach_key_perm {votes votes' : List α} (reordered : votes.Perm votes')
    (majority : votes.length < 2 * threshold) :
    (firstToReach key eligible threshold [] votes').map key =
      (firstToReach key eligible threshold [] votes).map key := by
  have keysPerm := reordered.map key
  have sameFound : (firstToReach key eligible threshold [] votes').isSome =
      (firstToReach key eligible threshold [] votes).isSome := by
    apply Bool.eq_iff_iff.mpr
    rw [firstToReach_isSome_iff, firstToReach_isSome_iff]
    simp only [keysPerm.mem_iff, keysPerm.count_eq]
  cases wins : firstToReach key eligible threshold [] votes with
  | none =>
    rw [wins, Option.isSome_none, Option.isSome_eq_false_iff, Option.isNone_iff_eq_none] at sameFound
    rw [sameFound]
  | some winner =>
    rw [wins, Option.isSome_some, Option.isSome_iff_exists] at sameFound
    rcases sameFound with ⟨winner', wins'⟩
    rw [wins']
    have reached := (firstToReach_spec wins).2.2
    have reached' := (firstToReach_spec wins').2.2
    rw [List.nil_append] at reached reached'
    rw [← keysPerm.count_eq] at reached'
    simp only [Option.map_some, Option.some.injEq]
    exact eq_of_reached (by simpa using majority) reached' reached

end Quorum
