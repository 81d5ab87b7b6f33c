import Mathlib.Data.Nat.Init
import Mathlib.Tactic.IntervalCases

/-!
# Base64

Three bytes are written as four of sixty-four characters; a shorter rest is padded.
-/

namespace Base64

def alphabet : List Char :=
  "ABCDEFGHIJKLMNOPQRSTUVWXYZabcdefghijklmnopqrstuvwxyz0123456789+/".toList

def digit (n : ℕ) : Char := alphabet.getD n '='

def digitValue (c : Char) : Option ℕ := alphabet.idxOf? c

def encode : List UInt8 → List Char
  | [] => []
  | [a] => [digit (a.toNat / 4), digit (a.toNat % 4 * 16), '=', '=']
  | [a, b] =>
    [digit (a.toNat / 4), digit (a.toNat % 4 * 16 + b.toNat / 16), digit (b.toNat % 16 * 4), '=']
  | a :: b :: c :: rest =>
    digit (a.toNat / 4) :: digit (a.toNat % 4 * 16 + b.toNat / 16) ::
      digit (b.toNat % 16 * 4 + c.toNat / 64) :: digit (c.toNat % 64) :: encode rest

/-- The three bytes of a group, from the numbers of the characters that share each. -/
def firstByte (i j : ℕ) : UInt8 := UInt8.ofNat (i * 4 + j / 16)

def secondByte (j k : ℕ) : UInt8 := UInt8.ofNat (j % 16 * 16 + k / 4)

def thirdByte (k l : ℕ) : UInt8 := UInt8.ofNat (k % 4 * 64 + l)

/-- The bytes of one group of characters, the last of the text or not. -/
def decodeGroup (w x y z : Char) : Option (List UInt8) := do
  let i ← digitValue w
  let j ← digitValue x
  if y = '=' ∧ z = '=' then some [firstByte i j]
  else
    let k ← digitValue y
    if z = '=' then some [firstByte i j, secondByte j k]
    else
      let l ← digitValue z
      some [firstByte i j, secondByte j k, thirdByte k l]

/-- Only the last group is padded. -/
def decode : List Char → Option (List UInt8)
  | [] => some []
  | w :: x :: y :: z :: rest => do
    if z = '=' ∧ rest ≠ [] then none
    let bytes ← decodeGroup w x y z
    let bytes' ← decode rest
    some (bytes ++ bytes')
  | _ => none

theorem digitValue_digit {n : ℕ} (h : n < 64) : digitValue (digit n) = some n := by
  interval_cases n <;> decide

theorem digit_ne_pad {n : ℕ} (h : n < 64) : digit n ≠ '=' := by
  interval_cases n <;> decide

theorem firstByte_eq (a : UInt8) {n : ℕ} (h : n < 16) :
    firstByte (a.toNat / 4) (a.toNat % 4 * 16 + n) = a := by
  have hsum : a.toNat / 4 * 4 + (a.toNat % 4 * 16 + n) / 16 = a.toNat := by omega
  rw [firstByte, hsum, UInt8.ofNat_toNat]

theorem secondByte_eq (m : ℕ) (b : UInt8) {n : ℕ} (h : n < 4) :
    secondByte (m * 16 + b.toNat / 16) (b.toNat % 16 * 4 + n) = b := by
  have hb : b.toNat < 256 := b.toNat_lt
  have hsum : (m * 16 + b.toNat / 16) % 16 * 16 + (b.toNat % 16 * 4 + n) / 4 = b.toNat := by omega
  rw [secondByte, hsum, UInt8.ofNat_toNat]

theorem thirdByte_eq (m : ℕ) (c : UInt8) : thirdByte (m * 4 + c.toNat / 64) (c.toNat % 64) = c := by
  have hc : c.toNat < 256 := c.toNat_lt
  have hsum : (m * 4 + c.toNat / 64) % 4 * 64 + c.toNat % 64 = c.toNat := by omega
  rw [thirdByte, hsum, UInt8.ofNat_toNat]

theorem decodeGroup_one (a : UInt8) :
    decodeGroup (digit (a.toNat / 4)) (digit (a.toNat % 4 * 16)) '=' '=' = some [a] := by
  have ha : a.toNat < 256 := a.toNat_lt
  have hfirst := firstByte_eq a (show 0 < 16 by decide)
  simpa [decodeGroup, digitValue_digit (show a.toNat / 4 < 64 by omega),
    digitValue_digit (show a.toNat % 4 * 16 < 64 by omega)] using hfirst

theorem decodeGroup_two (a b : UInt8) :
    decodeGroup (digit (a.toNat / 4)) (digit (a.toNat % 4 * 16 + b.toNat / 16))
      (digit (b.toNat % 16 * 4)) '=' = some [a, b] := by
  have ha : a.toNat < 256 := a.toNat_lt
  have hb : b.toNat < 256 := b.toNat_lt
  have hsecond := secondByte_eq (a.toNat % 4) b (show 0 < 4 by decide)
  simpa [decodeGroup, digitValue_digit (show a.toNat / 4 < 64 by omega),
    digitValue_digit (show a.toNat % 4 * 16 + b.toNat / 16 < 64 by omega),
    digitValue_digit (show b.toNat % 16 * 4 < 64 by omega),
    digit_ne_pad (show b.toNat % 16 * 4 < 64 by omega),
    firstByte_eq a (show b.toNat / 16 < 16 by omega)] using hsecond

theorem decodeGroup_three (a b c : UInt8) :
    decodeGroup (digit (a.toNat / 4)) (digit (a.toNat % 4 * 16 + b.toNat / 16))
      (digit (b.toNat % 16 * 4 + c.toNat / 64)) (digit (c.toNat % 64)) = some [a, b, c] := by
  have ha : a.toNat < 256 := a.toNat_lt
  have hb : b.toNat < 256 := b.toNat_lt
  have hc : c.toNat < 256 := c.toNat_lt
  simp [decodeGroup, digitValue_digit (show a.toNat / 4 < 64 by omega),
    digitValue_digit (show a.toNat % 4 * 16 + b.toNat / 16 < 64 by omega),
    digitValue_digit (show b.toNat % 16 * 4 + c.toNat / 64 < 64 by omega),
    digitValue_digit (show c.toNat % 64 < 64 by omega),
    digit_ne_pad (show c.toNat % 64 < 64 by omega),
    firstByte_eq a (show b.toNat / 16 < 16 by omega),
    secondByte_eq _ b (show c.toNat / 64 < 4 by omega), thirdByte_eq]

theorem decode_encode (bytes : List UInt8) : decode (encode bytes) = some bytes := by
  fun_induction encode bytes with
  | case1 => rfl
  | case2 a => simp [decode, decodeGroup_one]
  | case3 a b => simp [decode, decodeGroup_two]
  | case4 a b c rest ih =>
    have hpad : digit (c.toNat % 64) ≠ '=' := digit_ne_pad (Nat.mod_lt _ (by decide))
    simp [decode, hpad, decodeGroup_three, ih]

example : String.ofList (encode [104, 101, 108, 108, 111]) = "aGVsbG8=" := by decide

end Base64
