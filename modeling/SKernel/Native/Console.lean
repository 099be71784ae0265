import Mathlib.Algebra.Group.Int.Defs
import SKernel.Native.StringOps

/-!
# Formatted output on the console

Model of `sk_itoa`, `sk_vsprintf` and `sk_kprintf` in `driver/serial/console.c`. The arrays of
`sk_itoa` are lists, and an access outside of one is `none`. `sk_vsprintf` gets a pointer and no
length: what it writes is the list of its stores, each with the distance from the start of the
buffer. An argument of a kind that the format does not ask for, or none, is `none`.
-/

namespace SKernel.Native

/-- The character of a remainder, which is converted to an `sk_uint32_t`, and the result to a
    `char`. -/
def itoaChar (rem : Int) : UInt8 :=
  let rem := (rem % 2 ^ 32).toNat
  if rem > 9 then UInt8.ofNat (rem - 10 + 0x61) else UInt8.ofNat (rem + 0x30)

/-- `sk_itoa`: the digits that are stored one after the other, and the rest of the array. -/
def itoaLoop (base : Int) : Int → List UInt8 → Option (List UInt8 × List UInt8)
  | num, [] => if num = 0 then some ([], []) else none
  | num, cell :: cells =>
    if num = 0 then some ([], cell :: cells)
    else do
      let (digits, rest) ← itoaLoop base (num.tdiv base) cells
      some (itoaChar (num.tmod base) :: digits, rest)

/-- `sk_itoa`, the sign is stored behind the digits. -/
def itoaSign (isNegative : Bool) (digits rest : List UInt8) : Option (List UInt8 × List UInt8) :=
  if isNegative then
    match rest with
    | [] => none
    | _ :: rest => some (digits ++ [0x2d], rest)
  else some (digits, rest)

/-- `sk_itoa`, the loop that reverses the string. -/
def itoaReverse (str : List UInt8) (start stop : Nat) : Option (List UInt8) :=
  if start < stop then do
    let temp ← str[start]?
    let last ← str[stop]?
    itoaReverse ((str.set start last).set stop temp) (start + 1) (stop - 1)
  else some str
termination_by stop - start

/-- `sk_itoa`, the end of the string is stored, and the string is reversed. -/
def itoaFinish (text : List UInt8) : List UInt8 → Option (List UInt8)
  | [] => none
  | _ :: rest => itoaReverse (text ++ 0 :: rest) 0 (text.length - 1)

/-- `sk_itoa`, the number 0. -/
def itoaZero : List UInt8 → Option (List UInt8)
  | _ :: _ :: rest => some (0x30 :: 0 :: rest)
  | _ => none

/-- `sk_itoa`. The negation of the smallest number is that number. -/
def skItoa (num : BitVec 32) (str : List UInt8) (base : Int) : Option (List UInt8) :=
  if num = 0 then itoaZero str
  else do
    let isNegative := decide (num.toInt < 0 ∧ base = 10)
    let num := if isNegative then -num else num
    let (digits, rest) ← itoaLoop base num.toInt str
    let (text, rest) ← itoaSign isNegative digits rest
    itoaFinish text rest

/-- An argument of `sk_kprintf`. -/
inductive KprintfArg where
  | int (val : BitVec 32)
  | str (val : CString)

/-- A store: the distance from the start of the buffer, and the byte. -/
abbrev Store := Nat × UInt8

/-- `sk_strcpy` to the place `pos` of the buffer. -/
def skStrcpy (pos : Nat) : List UInt8 → Option (List Store)
  | [] => none
  | c :: src =>
    if c = 0 then some [(pos, 0)] else (skStrcpy (pos + 1) src).map ((pos, c) :: ·)

/-- The state of `sk_vsprintf` behind a conversion, and what the conversion has stored. -/
structure ConvEnd where
  stores : List Store
  pos : Nat
  args : List KprintfArg
  temp : List UInt8

/-- `sk_vsprintf`, a string is copied to the buffer. -/
def convString (val : List UInt8) (pos : Nat) (args : List KprintfArg) (temp : List UInt8) :
    Option ConvEnd := do
  let stores ← skStrcpy pos val
  let len ← skStrlen val
  some { stores := stores, pos := pos + len, args := args, temp := temp }

/-- `sk_vsprintf`, a number is converted. -/
def convNumber (base : Int) (pos : Nat) (temp : List UInt8) : List KprintfArg → Option ConvEnd
  | .int val :: args => do
    let temp ← skItoa val temp base
    convString temp pos args temp
  | _ => none

/-- `sk_vsprintf`, the conversion with the letter `k`. -/
def conversion (k : UInt8) (pos : Nat) (args : List KprintfArg) (temp : List UInt8) :
    Option ConvEnd :=
  if k = 0x64 then convNumber 10 pos temp args
  else if k = 0x78 then convNumber 16 pos temp args
  else if k = 0x73 then
    match args with
    | .str val :: args => convString val.bytes pos args temp
    | _ => none
  else if k = 0x63 then
    match args with
    | .int val :: args =>
      some
        { stores := [(pos, UInt8.ofNat val.toNat)], pos := pos + 1, args := args, temp := temp }
    | _ => none
  else
    some { stores := [(pos, 0x25), (pos + 1, k)], pos := pos + 2, args := args, temp := temp }

/-- The loop of `sk_vsprintf`, from the place `pos` of the buffer on: the stores, and the length. -/
def vsprintfLoop : List UInt8 → Nat → List KprintfArg → List UInt8 → Option (List Store × Nat)
  | [], _, _, _ => none
  | c :: p, pos, args, temp =>
    if c = 0 then some ([(pos, 0)], pos)
    else
      match p with
      | [] => none
      | k :: p' =>
        if c = 0x25 ∧ k ≠ 0 then do
          let conv ← conversion k pos args temp
          let (stores, len) ← vsprintfLoop p' conv.pos conv.args conv.temp
          some (conv.stores ++ stores, len)
        else do
          let (stores, len) ← vsprintfLoop (k :: p') (pos + 1) args temp
          some ((pos, c) :: stores, len)

/-- `sk_vsprintf`. The array `temp` has 32 bytes, which are not initialized. -/
def skVsprintf (fmt : CString) (args : List KprintfArg) (temp : List UInt8) :
    Option (List Store × Nat) :=
  vsprintfLoop fmt.bytes 0 args temp

/-- `SK_CONSOLE_BUF_SIZE`. -/
def skConsoleBufSize : Nat := 128

/-- `sk_kprintf`: the stores to `sk_log_buf`, and the length given to `sk_device_write`, if any. -/
def skKprintf (console : Bool) (fmt : CString) (args : List KprintfArg) (temp : List UInt8) :
    Option (List Store × Option Nat) := do
  let (stores, length) ← skVsprintf fmt args temp
  let length := if length > skConsoleBufSize then skConsoleBufSize else length
  some (stores, if console then some length else none)

end SKernel.Native
