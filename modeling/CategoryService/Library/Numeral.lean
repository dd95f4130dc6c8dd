import Mathlib.Tactic.Common
import Mathlib.Tactic.Ring

/-! Decimal numerals with an optional sign, over any reading of single characters
as digits that agrees with ASCII. -/
namespace Numeral

structure DigitReader where
  digit : Char → Option Nat
  ascii : ∀ d < 10, digit d.digitChar = some d
  minus : digit '-' = none
  plus : digit '+' = none

/-- The reader that knows ASCII digits only. -/
def asciiReader : DigitReader where
  digit c := if c.isDigit then some (c.toNat - 48) else none
  ascii := by decide
  minus := by decide
  plus := by decide

variable (R : DigitReader)

def readDigits : List Char → Nat → Option Nat
  | [], acc => some acc
  | c :: cs, acc => (R.digit c).bind fun d => readDigits cs (10 * acc + d)

def readNat (s : List Char) : Option Nat := if s = [] then none else readDigits R s 0

def readInt : List Char → Option Int
  | '-' :: s => (readNat R s).map fun n : Nat => -(n : Int)
  | '+' :: s => (readNat R s).map fun n : Nat => (n : Int)
  | s => (readNat R s).map fun n : Nat => (n : Int)

def printInt (i : Int) : List Char :=
  if i < 0 then '-' :: Nat.toDigits 10 i.natAbs else Nat.toDigits 10 i.natAbs

theorem readDigits_append (u v : List Char) (acc : Nat) :
    readDigits R (u ++ v) acc = (readDigits R u acc).bind (readDigits R v) := by
  induction u generalizing acc with
  | nil => rfl
  | cons c u ih =>
    simp only [List.cons_append, readDigits, ih]
    cases R.digit c <;> rfl

theorem readDigits_toDigits (n : Nat) : readDigits R (Nat.toDigits 10 n) 0 = some n := by
  induction n using Nat.strong_induction_on with
  | _ n ih =>
    by_cases hn : n < 10
    · simp [Nat.toDigits_of_lt_base hn, readDigits, R.ascii n hn]
    · have hd := R.ascii (n % 10) (Nat.mod_lt n (by omega))
      have ht := ih (n / 10) (by omega)
      rw [Nat.toDigits_of_base_le (by omega) (by omega), readDigits_append, ht]
      simp only [Option.bind_some, readDigits, hd, Option.some.injEq]
      omega

theorem readNat_toDigits (n : Nat) : readNat R (Nat.toDigits 10 n) = some n := by
  simp [readNat, Nat.toDigits_ne_nil, readDigits_toDigits]

/-- A numeral without a sign is not taken for one with a sign. -/
theorem readInt_toDigits (n : Nat) : readInt R (Nat.toDigits 10 n) = some (n : Int) := by
  have hr := readNat_toDigits R n
  unfold readInt
  split
  · rename_i s hs
    simp [hs, readNat, readDigits, R.minus] at hr
  · rename_i s hs
    simp [hs, readNat, readDigits, R.plus] at hr
  · simp [hr]

theorem readInt_printInt (i : Int) : readInt R (printInt i) = some i := by
  by_cases hi : i < 0
  · have hn : -(i.natAbs : Int) = i := by omega
    simp only [printInt, if_pos hi, readInt, readNat_toDigits, Option.map_some, hn]
  · rw [printInt, if_neg hi, readInt_toDigits]
    simp only [Option.some.injEq]
    omega

example : readInt asciiReader (printInt (-12)) = some (-12) := by decide

theorem printInt_ne_nil (i : Int) : printInt i ≠ [] := by
  unfold printInt
  split <;> simp [Nat.toDigits_ne_nil]

end Numeral
