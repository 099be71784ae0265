import Mathlib.Algebra.Group.Nat.Defs
import Mathlib.Logic.Function.Basic
import SKernel.ForStd.ByteMem

/-!
# Strings and memory blocks

The string and memory functions of `include/kernel/base_def.h`. An array is the list of its bytes,
and so is what a pointer into an array leads to, from the pointer to the end of the array. An access
outside an array is `none`. `sk_memcpy` is here twice: on the whole memory, with the addresses that
tell it in which direction to copy, and between two arrays that do not overlap.
-/

namespace SKernel.Native

open ByteMem

/-- A pointer to a string: its address, and the bytes from there to the end of the array. -/
structure CString where
  addr : Nat
  bytes : List UInt8
  terminated : 0 ∈ bytes
  deriving DecidableEq

/-- The characters of a string. -/
def CString.text (s : CString) : List UInt8 :=
  s.bytes.takeWhile (· ≠ 0)

/-- `sk_strlen`. -/
def skStrlen : List UInt8 → Option Nat
  | [] => none
  | c :: s => if c = 0 then some 0 else (skStrlen s).map (· + 1)

/-- `sk_strncmp`. The difference is kept in a `signed char`. -/
def skStrncmp : List UInt8 → List UInt8 → Nat → Option Int
  | _, _, 0 => some 0
  | c :: cs, d :: ct, count + 1 =>
    let ret := ((c.toNat : Int) - d.toNat).bmod 256
    if ret ≠ 0 then some ret
    else if c = 0 ∨ d = 0 then some ret
    else skStrncmp cs ct count
  | _, _, _ + 1 => none

/-- `sk_strcmp`. The difference is kept in an `sk_int8_t`. -/
def skStrcmpArray : List UInt8 → List UInt8 → Nat → Option Int
  | _, _, 0 => some 0
  | c :: st1, d :: st2, count + 1 =>
    let ret := ((c.toNat : Int) - d.toNat).bmod 256
    if ret ≠ 0 ∨ d = 0 then some ret else skStrcmpArray st1 st2 count
  | _, _, _ + 1 => none

/-- `sk_memcmp`. -/
def skMemcmp : List UInt8 → List UInt8 → Nat → Option Int
  | _, _, 0 => some 0
  | c :: cs, d :: ct, count + 1 =>
    let ret := (c.toNat : Int) - d.toNat
    if ret ≠ 0 then some ret else skMemcmp cs ct count
  | _, _, _ + 1 => none

/-- The loop of `sk_memcpy` from the first byte to the last one. -/
def copyForward (m : Mem) (d s : Nat) : Nat → Mem
  | 0 => m
  | count + 1 =>
    copyForward (Function.update m d (m s)) ((d + 1) % 2 ^ 64) ((s + 1) % 2 ^ 64) count

/-- The loop of `sk_memcpy` from the last byte to the first one. -/
def copyBackward (m : Mem) (d s : Nat) : Nat → Mem
  | 0 => m
  | len + 1 =>
    copyBackward (Function.update m ((d + len) % 2 ^ 64) (m ((s + len) % 2 ^ 64))) d s len

/-- `sk_memcpy`: the memory after it. It returns `dst`. -/
def skMemcpy (m : Mem) (dst src count : Nat) : Mem :=
  if dst ≤ src ∨ dst > (src + count) % 2 ^ 64 then copyForward m dst src count
  else copyBackward m dst src count

/-- `sk_memcpy` between two arrays that do not overlap: the destination after it. -/
def skMemcpyArray (dst src : List UInt8) (count : Nat) : Option (List UInt8) :=
  if count ≤ dst.length ∧ count ≤ src.length then some (src.take count ++ dst.drop count) else none

/-- The characters of a string, which `%s` prints. -/
def stringChars (s : List UInt8) : Option (List UInt8) :=
  (skStrlen s).map (s.take ·)

end SKernel.Native
