/-!
# Hexadecimal text

Words and bytes as lower-case hexadecimal digits, the most significant digit first.  `digits`
always gives the width asked for, which is the width of the word wherever it is used.
-/

namespace FreeSpace.Hex

/-- The last `width` hexadecimal digits of `n`. -/
def digits : Nat → Nat → List Char
  | 0, _ => []
  | width + 1, n => digits width (n / 16) ++ [Nat.digitChar (n % 16)]

@[simp] theorem length_digits (width n : Nat) : (digits width n).length = width := by
  induction width generalizing n with
  | zero => rfl
  | succ width ih => simp [digits, ih]

/-- `n` in exactly `width` digits. -/
def text (width n : Nat) : String :=
  String.ofList (digits width n)

/-- Two digits for every byte. -/
def ofBytes (bytes : Array UInt8) : String :=
  bytes.foldl (fun out b => (out.push (Nat.digitChar (b.toNat / 16))).push
    (Nat.digitChar (b.toNat % 16))) ""

end FreeSpace.Hex
