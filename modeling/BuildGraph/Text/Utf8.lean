/-! Bytes as UTF-8 text.

A sequence that is cut short or out of range counts as one fault, which ends before the
first byte that cannot go on with it. Decoding is strict, or puts U+FFFD for every fault.
-/

set_option autoImplicit false

namespace BuildGraph

abbrev Bytes := List UInt8

namespace Utf8

/-- What a first byte announces: the bounds of the second byte, the number of further
bytes, and the bits it gives itself. -/
structure Lead where
  low : Nat
  high : Nat
  more : Nat
  bits : Nat

def lead? (b : Nat) : Option Lead :=
  if b < 0x80 then some ⟨0, 0, 0, b⟩
  else if b < 0xC2 then none
  else if b < 0xE0 then some ⟨0x80, 0xBF, 1, b - 0xC0⟩
  else if b < 0xF0 then
    some ⟨if b = 0xE0 then 0xA0 else 0x80, if b = 0xED then 0x9F else 0xBF, 2, b - 0xE0⟩
  else if b < 0xF5 then
    some ⟨if b = 0xF0 then 0x90 else 0x80, if b = 0xF4 then 0x8F else 0xBF, 3, b - 0xF0⟩
  else none

/-- Take `more` further bytes, the first of them between `low` and `high`. -/
def continuation : Nat → Nat → Nat → Nat → Bytes → Option Nat × Bytes
  | 0, _, _, bits, rest => (some bits, rest)
  | _ + 1, _, _, _, [] => (none, [])
  | more + 1, low, high, bits, b :: rest =>
    if low ≤ b.toNat ∧ b.toNat ≤ high then
      continuation more 0x80 0xBF (bits * 64 + (b.toNat - 0x80)) rest
    else (none, b :: rest)

theorem continuation_length (more low high bits : Nat) (rest : Bytes) :
    (continuation more low high bits rest).2.length ≤ rest.length := by
  induction more generalizing low high bits rest with
  | zero => simp [continuation]
  | succ more ih =>
    cases rest with
    | nil => simp [continuation]
    | cons b rest =>
      simp only [continuation]
      split
      · exact Nat.le_succ_of_le (ih ..)
      · exact Nat.le_refl _

/-- The first character, or a fault, and the bytes after it. -/
def next (b : UInt8) (rest : Bytes) : Option Char × Bytes :=
  match lead? b.toNat with
  | none => (none, rest)
  | some lead =>
    let (bits, rest) := continuation lead.more lead.low lead.high lead.bits rest
    (bits.map Char.ofNat, rest)

theorem next_length (b : UInt8) (rest : Bytes) : (next b rest).2.length ≤ rest.length := by
  unfold next
  split
  · exact Nat.le_refl _
  · exact continuation_length ..

/-- The characters of a text, with `none` for every fault. -/
def decode : Bytes → List (Option Char)
  | [] => []
  | b :: rest => (next b rest).1 :: decode (next b rest).2
  termination_by bytes => bytes.length
  decreasing_by exact Nat.lt_succ_of_le (next_length b rest)

/-- The text, if there is no fault. -/
def strict? (bytes : Bytes) : Option String :=
  ((decode bytes).mapM id).map String.ofList

/-- The text with a replacement character for every fault. -/
def lossy (bytes : Bytes) : String :=
  String.ofList ((decode bytes).map fun c => c.getD (Char.ofNat 0xFFFD))

def encode (text : String) : Bytes := text.toUTF8.toList

end Utf8

end BuildGraph
