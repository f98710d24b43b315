import Mathlib

/-! Primality by Pratt certificates, checked by evaluation.

Lucas's test (`lucas_primality`) proves `p` prime from a witness `a` with `a ^ (p - 1) ≡ 1`
and `a ^ ((p - 1) / q) ≢ 1 (mod p)` for every prime `q` dividing `p - 1`. A certificate lists
numbers with their witnesses and the prime factors of `p - 1`, with repetition, each factor
certified earlier in the list. `checkAll` tests it with powers computed by repeated squaring,
so that the kernel can run it on numbers of hundreds of bits. -/

namespace Pratt

/-- `acc * base ^ e % m`, by repeated squaring over at most `fuel` bits of `e`. -/
def powModAux (m : Nat) : Nat → Nat → Nat → Nat → Nat
  | 0, _, _, acc => acc % m
  | fuel + 1, base, e, acc =>
      if e = 0 then acc % m
      else powModAux m fuel (base * base % m) (e / 2) (if e % 2 = 1 then acc * base % m else acc)

/-- `a ^ n % m`, for exponents below `2 ^ 512`. -/
def powMod (m a n : Nat) : Nat := powModAux m 512 a n 1

/-- One entry of a certificate: the number, Lucas's witness, and the prime factors of `p - 1`. -/
structure Entry where
  p : Nat
  a : Nat
  factors : List Nat

def Entry.check (proven : List Nat) (e : Entry) : Bool :=
  2 ≤ e.p && e.p ≤ 2 ^ 512 && e.factors.all (· ∈ proven) && e.factors.prod == e.p - 1 &&
    powMod e.p e.a (e.p - 1) == 1 && e.factors.all fun q => powMod e.p e.a ((e.p - 1) / q) != 1

def checkAll : List Nat → List Entry → Bool
  | _, [] => true
  | proven, e :: es => e.check proven && checkAll (e.p :: proven) es

theorem powModAux_eq (m : Nat) : ∀ fuel base e acc, e < 2 ^ fuel →
    powModAux m fuel base e acc = acc * base ^ e % m
  | 0, base, e, acc, small => by
      obtain rfl : e = 0 := by simpa using small
      simp [powModAux]
  | fuel + 1, base, e, acc, small => by
      by_cases zero : e = 0
      · subst zero
        simp [powModAux]
      have halved : e / 2 < 2 ^ fuel := by rw [pow_succ] at small; omega
      have squared : (base * base % m) ^ (e / 2) % m = base ^ (2 * (e / 2)) % m := by
        rw [← Nat.pow_mod, pow_mul, sq]
      rw [powModAux, if_neg zero, powModAux_eq m fuel _ _ _ halved, Nat.mul_mod, squared, ← Nat.mul_mod]
      -- the exponent is its halves and its low bit
      have key : base ^ e = base ^ (2 * (e / 2)) * base ^ (e % 2) := by
        rw [← pow_add, Nat.div_add_mod]
      rw [key]
      split_ifs with odd
      · rw [Nat.mod_mul_mod, odd, pow_one]
        congr 1
        ring
      · rw [show e % 2 = 0 by omega, pow_zero, Nat.mul_one]

theorem powMod_eq {m n : Nat} (a : Nat) (small : n < 2 ^ 512) : powMod m a n = a ^ n % m := by
  rw [powMod, powModAux_eq m 512 a n 1 small, Nat.one_mul]

theorem natCast_pow_eq_one_iff {p : Nat} (two_le : 2 ≤ p) (a n : Nat) :
    ((a : ZMod p) ^ n = 1) ↔ a ^ n % p = 1 := by
  rw [← Nat.cast_pow, ← Nat.cast_one, ZMod.natCast_eq_natCast_iff', Nat.one_mod_eq_one.mpr (by omega)]

theorem Entry.prime_of_check {proven : List Nat} {e : Entry} (primes : ∀ q ∈ proven, q.Prime)
    (checked : e.check proven = true) : e.p.Prime := by
  simp only [Entry.check, Bool.and_eq_true, decide_eq_true_eq, List.all_eq_true, beq_iff_eq,
    bne_iff_ne, ne_eq] at checked
  obtain ⟨⟨⟨⟨⟨two_le, bounded⟩, certified⟩, product⟩, full⟩, proper⟩ := checked
  have exponent : ∀ n, n ≤ e.p - 1 → n < 2 ^ 512 := fun n le => by omega
  apply lucas_primality e.p (e.a : ZMod e.p)
  · rw [natCast_pow_eq_one_iff two_le, ← powMod_eq _ (exponent _ le_rfl)]
    exact full
  · intro q prime divides
    -- a prime dividing the product of the factors is one of them
    rw [← product] at divides
    obtain ⟨f, member, dividesF⟩ := (Nat.Prime.prime prime).dvd_prod_iff.mp divides
    obtain rfl : q = f := (Nat.prime_dvd_prime_iff_eq prime (primes f (certified f member))).mp dividesF
    rw [ne_eq, natCast_pow_eq_one_iff two_le, ← powMod_eq _ (exponent _ (Nat.div_le_self _ _))]
    exact proper q member

theorem prime_of_checkAll : ∀ {proven : List Nat} {es : List Entry}, (∀ q ∈ proven, q.Prime) →
    checkAll proven es = true → ∀ e ∈ es, e.p.Prime
  | _, [], _, _, _, member => by simp at member
  | proven, e :: es, primes, checked, e', member => by
      rw [checkAll, Bool.and_eq_true] at checked
      have first := Entry.prime_of_check primes checked.1
      rcases List.mem_cons.mp member with rfl | later
      · exact first
      · apply prime_of_checkAll _ checked.2 e' later
        intro q member'
        rcases List.mem_cons.mp member' with rfl | earlier
        · exact first
        · exact primes q earlier

theorem prime_of_mem {es : List Entry} (checked : checkAll [2] es = true) {p : Nat}
    (listed : p ∈ es.map Entry.p) : p.Prime := by
  obtain ⟨e, member, rfl⟩ := List.mem_map.mp listed
  exact prime_of_checkAll (by simp [Nat.prime_two]) checked e member

end Pratt
