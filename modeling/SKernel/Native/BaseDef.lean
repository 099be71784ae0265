import Mathlib.Algebra.Group.Nat.Defs

/-!
# Basic definitions

The error codes and the alignment macro of `include/kernel/base_def.h` that the modelled
functions use.
-/

namespace SKernel.Native

/-- `sk_err_t`, the values these modules return. -/
inductive SkErr where
  /-- `SK_EOK` -/
  | eok
  /-- `SK_ERROR` -/
  | error
  /-- `SK_ETIMEOUT` -/
  | etimeout
  /-- `SK_EFULL` -/
  | efull
  /-- `SK_EINVAL` -/
  | einval
  deriving DecidableEq, Repr

/-- The number behind an error code. -/
def SkErr.code : SkErr → Int
  | .eok => 0
  | .error => -1
  | .etimeout => -2
  | .efull => -3
  | .einval => -8

/-- `SK_ALIGN(size, align)` for a 64-bit size and an `align` of type `int` or `unsigned long`, so
    that the mask `~(align - 1)` has 64 bits. -/
def skAlign (size align : Nat) : Nat :=
  ((size + align - 1) % 2 ^ 64) &&& (2 ^ 64 - align)

/-- `SK_ALIGN(size, align)` for a 64-bit size and an `align` of type `unsigned int`. The mask
    `~(align - 1)` has 32 bits and is extended with zeros: bits 32 to 63 of the size are lost. -/
def skAlignUint (size align : Nat) : Nat :=
  ((size + align - 1) % 2 ^ 64) &&& (2 ^ 32 - align)

end SKernel.Native
