/-
The field of 256 elements in which AES computes: bytes as polynomials over two elements, modulo
`x^8 + x^4 + x^3 + x + 1`.
-/

namespace EncryptedBackup.Field256

/-- Multiply by the indeterminate. -/
def double (a : UInt8) : UInt8 :=
  if a &&& 0x80 = 0 then a <<< 1 else (a <<< 1) ^^^ 0x1B

/-- The product of `a` and the `n` low bits of `b`. -/
def mulBits : (n : Nat) → (a b : UInt8) → UInt8
  | 0, _, _ => 0
  | n + 1, a, b => (if b &&& 1 = 0 then 0 else a) ^^^ mulBits n (double a) (b >>> 1)

/-- The product of two elements. -/
def mul (a b : UInt8) : UInt8 := mulBits 8 a b

/-- The inverse of an element, which is its power 254; zero for zero. -/
def inverse (a : UInt8) : UInt8 :=
  let a2 := mul a a
  let a4 := mul a2 a2
  let a8 := mul a4 a4
  let a16 := mul a8 a8
  let a32 := mul a16 a16
  let a64 := mul a32 a32
  let a128 := mul a64 a64
  mul a2 (mul a4 (mul a8 (mul a16 (mul a32 (mul a64 a128)))))

end EncryptedBackup.Field256
