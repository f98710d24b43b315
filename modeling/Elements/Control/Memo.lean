import Mathlib.Data.List.Basic

/-! Memoised evaluation along a chain of predecessors. A value is given at the end of the chain
(`none`) and computed at every key by a step from the value at its predecessor. A run walks back
from a key, through the keys the cache does not hold, to one it holds, to the end of the chain, or
to a key whose value is known to be the one at the end; it then replays the step forward,
storing each value it computes.

When every stored value is the specification's, a run returns the specification's value and
leaves every stored value the specification's; so does every later run. -/

namespace Memo

variable {α σ : Type} [DecidableEq α]

/-- Values stored by key; the key `none` is the end of the chain. -/
abbrev Cache (α σ : Type) : Type := Option α → Option σ

def Cache.empty : Cache α σ := fun _ => none

def Cache.insert (cache : Cache α σ) (key : Option α) (value : σ) : Cache α σ :=
  fun other => if other = key then some value else cache other

@[simp] theorem Cache.insert_self (cache : Cache α σ) (key : Option α) (value : σ) :
    cache.insert key value key = some value := if_pos rfl

theorem Cache.insert_of_ne (cache : Cache α σ) {key other : Option α} (value : σ) (different : other ≠ key) :
    cache.insert key value other = cache other := if_neg different

section Run

variable (pred : α → Option α) (stop : α → Bool) (base : σ) (step : α → σ → Option σ)

/-- The walk back from `key` along `pred`, pushing the keys still to compute (the last pushed
first), until a key the cache holds, the end of the chain, or a key `stop` accepts; the last two
are stored with `base`. `none` when the fuel runs out. -/
def walkBack : Nat → Option α → List α → Cache α σ → Option (Option α × List α × Cache α σ)
  | 0, _, _, _ => none
  | fuel + 1, key, pending, cache =>
      match cache key, key with
      | some _, _ => some (key, pending, cache)
      | none, none => some (none, pending, cache.insert none base)
      | none, some a =>
          if stop a then some (some a, pending, cache.insert (some a) base)
          else walkBack fuel (pred a) (a :: pending) cache

/-- The walk forward: the step applied at each pending key, the last pushed first, and each value
stored under its key. `none` when a step fails. -/
def replay : List α → σ → Cache α σ → Option (σ × Cache α σ)
  | [], state, cache => some (state, cache)
  | a :: pending, state, cache => do
      let state ← step a state
      replay pending state (cache.insert (some a) state)

/-- A memoised evaluation at `key`: the walk back, the value stored where it ended, and the walk
forward from there. -/
def run (fuel : Nat) (key : Option α) (cache : Cache α σ) : Option (σ × Cache α σ) := do
  let (key, pending, cache) ← walkBack pred stop base fuel key [] cache
  let state ← cache key
  replay step pending state cache

/-- `spec` is what the evaluation computes, on the keys `good` holds of: the value at the end of the
chain, the step from the predecessor's value elsewhere, and the value at the end wherever `stop`
accepts. `rank` falls along `pred`, which keeps `good`. -/
structure IsSpec (good : α → Prop) (rank : Option α → Nat) (spec : Option α → σ) : Prop where
  spec_none : spec none = base
  good_pred : ∀ a, good a → ∀ b, pred a = some b → good b
  rank_pred : ∀ a, good a → rank (pred a) < rank (some a)
  step_eq : ∀ a, good a → stop a = false → step a (spec (pred a)) = some (spec (some a))
  stop_eq : ∀ a, good a → stop a = true → spec (some a) = base

def Sound (spec : Option α → σ) (cache : Cache α σ) : Prop :=
  ∀ key value, cache key = some value → spec key = value

def GoodKey (good : α → Prop) : Option α → Prop
  | none => True
  | some a => good a

/-- The pending keys lead by `pred` from `key` up to `target`: the last pushed has `key` as its
predecessor, and each pushed before it has the next as its own. -/
def Leads : Option α → List α → Option α → Prop
  | key, [], target => key = target
  | key, a :: pending, target => pred a = key ∧ Leads (some a) pending target

variable {pred stop base step} {good : α → Prop} {rank : Option α → Nat} {spec : Option α → σ}

theorem Sound.insert {cache : Cache α σ} (sound : Sound spec cache) {key : Option α} {value : σ}
    (correct : spec key = value) : Sound spec (cache.insert key value) := by
  intro other stored found
  by_cases same : other = key
  · subst same
    rw [Cache.insert_self, Option.some.injEq] at found
    rw [← found, correct]
  · rw [Cache.insert_of_ne cache value same] at found
    exact sound other stored found

omit [DecidableEq α] in
theorem Sound.empty : Sound spec (Cache.empty : Cache α σ) := fun _ _ found => nomatch found

theorem replay_spec (isSpec : IsSpec pred stop base step good rank spec) :
    ∀ (pending : List α) (key target : Option α) (cache : Cache α σ), Leads pred key pending target →
      (∀ a ∈ pending, good a ∧ stop a = false) → Sound spec cache →
      ∃ cache', replay step pending (spec key) cache = some (spec target, cache') ∧ Sound spec cache'
  | [], key, target, cache, leads, _, sound => by
      rw [Leads] at leads
      subst leads
      exact ⟨cache, rfl, sound⟩
  | a :: pending, key, target, cache, leads, computed, sound => by
      obtain ⟨up, rest⟩ := leads
      obtain ⟨good_a, unstopped⟩ := computed a List.mem_cons_self
      have stepped : step a (spec key) = some (spec (some a)) := by
        rw [← up]
        exact isSpec.step_eq a good_a unstopped
      rw [replay, stepped, Option.bind_eq_bind, Option.bind_some]
      exact replay_spec isSpec pending (some a) target _ rest
        (fun b member => computed b (List.mem_cons_of_mem a member)) (sound.insert rfl)

theorem walkBack_spec (isSpec : IsSpec pred stop base step good rank spec) :
    ∀ (fuel : Nat) (key target : Option α) (pending : List α) (cache : Cache α σ), rank key < fuel →
      GoodKey good key → Leads pred key pending target → (∀ a ∈ pending, good a ∧ stop a = false) →
      Sound spec cache →
      ∃ last pending' cache', walkBack pred stop base fuel key pending cache = some (last, pending', cache') ∧
        cache' last = some (spec last) ∧ Leads pred last pending' target ∧
        (∀ a ∈ pending', good a ∧ stop a = false) ∧ Sound spec cache'
  | 0, _, _, _, _, fueled, _, _, _, _ => absurd fueled (Nat.not_lt_zero _)
  | fuel + 1, key, target, pending, cache, fueled, goodKey, leads, computed, sound => by
      cases stored : cache key with
      | some value =>
          -- the cache holds the key: the walk stops there
          refine ⟨key, pending, cache, ?_, ?_, leads, computed, sound⟩
          · simp only [walkBack, stored]
          · rw [stored, sound key value stored]
      | none =>
          cases key with
          | none =>
              -- the end of the chain has the value at the end
              refine ⟨none, pending, cache.insert none base, ?_, by rw [Cache.insert_self, isSpec.spec_none], leads, computed,
                sound.insert isSpec.spec_none⟩
              simp only [walkBack, stored]
          | some a =>
              cases stopped : stop a with
              | true =>
                  have atBase := isSpec.stop_eq a goodKey stopped
                  refine ⟨some a, pending, cache.insert (some a) base, ?_, by rw [Cache.insert_self, atBase], leads, computed,
                    sound.insert atBase⟩
                  simp only [walkBack, stored, stopped, if_true]
              | false =>
                  -- push the key and go on from its predecessor
                  have lower := isSpec.rank_pred a goodKey
                  have goodPred : GoodKey good (pred a) := by
                    cases up : pred a with
                    | none => trivial
                    | some b => exact isSpec.good_pred a goodKey b up
                  obtain ⟨last, pending', cache', walked, rest⟩ :=
                    walkBack_spec isSpec fuel (pred a) target (a :: pending) cache (by omega) goodPred
                      ⟨rfl, leads⟩
                      (fun b member => (List.mem_cons.mp member).elim (fun same => same ▸ ⟨goodKey, stopped⟩)
                        (computed b))
                      sound
                  refine ⟨last, pending', cache', ?_, rest⟩
                  simp only [walkBack, stored, stopped, Bool.false_eq_true, if_false]
                  exact walked

theorem run_spec (isSpec : IsSpec pred stop base step good rank spec) {fuel : Nat} {key : Option α}
    (fueled : rank key < fuel) (goodKey : GoodKey good key) {cache : Cache α σ} (sound : Sound spec cache) :
    ∃ cache', run pred stop base step fuel key cache = some (spec key, cache') ∧ Sound spec cache' := by
  obtain ⟨last, pending, walkedCache, walked, stored, leads, computed, walkedSound⟩ :=
    walkBack_spec isSpec fuel key key [] cache fueled goodKey rfl (fun _ member => nomatch member) sound
  rw [run, walked, Option.bind_eq_bind, Option.bind_some]
  simp only [stored, Option.bind_eq_bind, Option.bind_some]
  exact replay_spec isSpec pending last key walkedCache leads computed walkedSound

end Run

end Memo
