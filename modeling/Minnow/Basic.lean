import Mathlib

namespace Minnow

/-!
# What the modelled C++ shares

Bytes, the exceptions the code throws, and the size limit of the standard containers.
-/

/-- The contents of a `std::string`, a `std::vector<char>` or a `std::string_view`. -/
abbrev Bytes := List UInt8

/-- The exceptions that the modelled code, or the standard library under it, throws; the last
    one stands for undefined behaviour, which no run of the program may reach. -/
inductive StdException where
  | runtimeError (what : String)
  | outOfRange (what : String)
  | lengthError (what : String)
  | undefinedBehaviour (what : String)
deriving DecidableEq, Repr

/-- `max_size()` of `std::string` and `std::vector<char>`: the largest `ptrdiff_t`. -/
def maxSize : ℕ := 2 ^ 63 - 1

/-- A sum of `uint64_t` values that fits is the sum of the naturals. -/
theorem toNat_add_of_lt {a b : UInt64} (h : a.toNat + b.toNat < 2 ^ 64) :
    (a + b).toNat = a.toNat + b.toNat := by
  rw [UInt64.toNat_add, Nat.mod_eq_of_lt h]

/-- A length that fits in 64 bits is read back unchanged. -/
theorem toNat_ofNat_of_lt {n : ℕ} (h : n < 2 ^ 64) : (UInt64.ofNat n).toNat = n := by
  rw [UInt64.toNat_ofNat', Nat.mod_eq_of_lt h]

end Minnow
