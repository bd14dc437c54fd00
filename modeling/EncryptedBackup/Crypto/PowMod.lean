/-
Powers and inverses modulo a number, by repeated squaring and by repeated division. `powMod_eq`
says what the first computes.
-/

namespace EncryptedBackup

/-- The power of `base` with this exponent, modulo `modulus`. -/
def powMod (base exponent modulus : Nat) : Nat :=
  if exponent = 0 then 1 % modulus
  else
    let half := powMod (base * base % modulus) (exponent / 2) modulus
    if exponent % 2 = 1 then base * half % modulus else half

theorem powMod_eq (base exponent modulus : Nat) :
    powMod base exponent modulus = Nat.pow base exponent % modulus := by
  fun_induction powMod base exponent modulus with
  | case1 => simp_all [Nat.pow_eq]
  | case2 base exponent h half hodd ih =>
    simp only [half, ih, Nat.pow_eq]
    conv => rhs; rw [show exponent = 2 * (exponent / 2) + 1 by omega]
    rw [Nat.pow_succ, Nat.pow_mul, Nat.pow_two, Nat.mul_comm base, Nat.mul_mod, Nat.mod_mod,
      ← Nat.pow_mod, ← Nat.mul_mod]
  | case3 base exponent h half hodd ih =>
    simp only [half, ih, Nat.pow_eq]
    conv => rhs; rw [show exponent = 2 * (exponent / 2) by omega]
    rw [Nat.pow_mul, Nat.pow_two, ← Nat.pow_mod]

/-- Repeated division from the remainders `r` and `s`, to which the multiples `x` and `y` of a first
number belong: the greatest common divisor and its multiple. -/
def gcdMultiple (r s : Nat) (x y : Int) : Nat × Int :=
  if s = 0 then (r, x) else gcdMultiple s (r % s) y (x - (r / s : Nat) * y)
termination_by s
decreasing_by exact Nat.mod_lt _ (by omega)

/-- The number below `m` whose product with `a` is 1 modulo `m`, if there is one. -/
def inverseMod? (a m : Nat) : Option Nat :=
  match gcdMultiple m (a % m) 0 1 with
  | (1, x) => some (x % m).toNat
  | _ => none

end EncryptedBackup
