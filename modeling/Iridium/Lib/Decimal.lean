import Mathlib.Data.List.Basic
import Mathlib.Tactic.Common

/-!
# Decimal numerals

A `Numeral` is what a decimal integer may look like in a text: digits, at least one and leading
zeros included, and a sign or none. It has one `text` and one `value`, of any size, and reads back
from its text (`parse_text`). `ofInt` is the numeral that a number is printed as.
-/

namespace Decimal

inductive Sign where
  | none | plus | minus
  deriving DecidableEq, Repr

def Sign.text : Sign → List UInt8
  | .none => []
  | .plus => [0x2B]
  | .minus => [0x2D]

structure Numeral where
  sign : Sign
  digits : List (Fin 10)
  nonempty : digits ≠ []
  deriving DecidableEq

def digitChar (d : Fin 10) : UInt8 := UInt8.ofNat (0x30 + d.val)

namespace Numeral

def text (n : Numeral) : List UInt8 := n.sign.text ++ n.digits.map digitChar

/-- The number that the digits spell. -/
def magnitude (n : Numeral) : Nat := n.digits.foldl (fun v d => 10 * v + d.val) 0

def value (n : Numeral) : Int :=
  match n.sign with
  | .minus => -n.magnitude
  | _ => n.magnitude

end Numeral

/-! ## Characters -/

theorem digitChar_range (d : Fin 10) : 0x30 ≤ digitChar d ∧ digitChar d ≤ 0x39 := by
  revert d
  decide

/-- A character that is no sign and no digit is in no numeral. -/
theorem notMem_text {c : UInt8} (hplus : c ≠ 0x2B) (hminus : c ≠ 0x2D)
    (hdigit : ¬ (0x30 ≤ c ∧ c ≤ 0x39)) (n : Numeral) : c ∉ n.text := by
  intro hc
  rcases List.mem_append.mp hc with hsign | hdigits
  · cases hs : n.sign with
    | none => simp [hs, Sign.text] at hsign
    | plus => exact hplus (by simpa [hs, Sign.text] using hsign)
    | minus => exact hminus (by simpa [hs, Sign.text] using hsign)
  · obtain ⟨d, -, rfl⟩ := List.mem_map.mp hdigits
    exact hdigit (digitChar_range d)

/-! ## Reading -/

def digit? (c : UInt8) : Option (Fin 10) :=
  if h : 0x30 ≤ c.toNat ∧ c.toNat < 0x3A then some ⟨c.toNat - 0x30, by omega⟩ else none

theorem digit?_digitChar (d : Fin 10) : digit? (digitChar d) = some d := by
  revert d
  decide

/-- The sign of a text, and the rest of it. -/
def splitSign : List UInt8 → Sign × List UInt8
  | c :: cs => if c = 0x2B then (.plus, cs) else if c = 0x2D then (.minus, cs) else (.none, c :: cs)
  | [] => (.none, [])

/-- The numeral that a text is. -/
def parse (text : List UInt8) : Option Numeral :=
  let (sign, rest) := splitSign text
  match rest.mapM digit? with
  | none => none
  | some digits => if h : digits ≠ [] then some ⟨sign, digits, h⟩ else none

theorem mapM_digit? (ds : List (Fin 10)) : (ds.map digitChar).mapM digit? = some ds := by
  induction ds with
  | nil => rfl
  | cons d ds ih => simp [digit?_digitChar, ih]

theorem splitSign_text (n : Numeral) : splitSign n.text = (n.sign, n.digits.map digitChar) := by
  obtain ⟨d, ds, hds⟩ := List.exists_cons_of_ne_nil n.nonempty
  have hrange := digitChar_range d
  have hplus : digitChar d ≠ 0x2B := by
    intro heq
    rw [heq] at hrange
    exact absurd hrange.1 (by decide)
  have hminus : digitChar d ≠ 0x2D := by
    intro heq
    rw [heq] at hrange
    exact absurd hrange.1 (by decide)
  rw [Numeral.text, hds]
  cases n.sign <;> simp [Sign.text, splitSign, hplus, hminus]

/-- **A numeral reads back from its text.** -/
theorem parse_text (n : Numeral) : parse n.text = some n := by
  simp only [parse, splitSign_text, mapM_digit?, dif_pos n.nonempty]

/-! ## Printing -/

/-- The digits of a number, without leading zeros. -/
def digitsOf (n : Nat) : List (Fin 10) :=
  if h : n < 10 then [⟨n, h⟩] else digitsOf (n / 10) ++ [⟨n % 10, Nat.mod_lt n (by decide)⟩]

theorem digitsOf_ne_nil (n : Nat) : digitsOf n ≠ [] := by
  rw [digitsOf]
  split <;> simp

theorem foldl_digitsOf (n : Nat) :
    (digitsOf n).foldl (fun v d => 10 * v + d.val) 0 = n := by
  induction n using digitsOf.induct with
  | case1 n h => simp [digitsOf, h]
  | case2 n h ih =>
      rw [digitsOf, dif_neg h, List.foldl_append, ih, List.foldl_cons, List.foldl_nil]
      show 10 * (n / 10) + n % 10 = n
      omega

/-- The numeral that a number is printed as. -/
def ofInt : Int → Numeral
  | .ofNat n => ⟨.none, digitsOf n, digitsOf_ne_nil n⟩
  | .negSucc n => ⟨.minus, digitsOf (n + 1), digitsOf_ne_nil (n + 1)⟩

/-- **What a number is printed as has its value.** -/
theorem value_ofInt (v : Int) : (ofInt v).value = v := by
  cases v with
  | ofNat n => simp [ofInt, Numeral.value, Numeral.magnitude, foldl_digitsOf]
  | negSucc n =>
      rw [ofInt, Numeral.value, Numeral.magnitude, foldl_digitsOf, Int.negSucc_eq]
      rfl

/-- The magnitude is the value without its sign. -/
theorem magnitude_eq (n : Numeral) : n.magnitude = n.value.natAbs := by
  unfold Numeral.value
  split <;> simp

end Decimal
