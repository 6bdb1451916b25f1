import Iridium.Modem
import Iridium.Lib.Decimal

/-!
# The casts of boost

What their documentation says of decimal numerals. `lexical_cast` to an unsigned type negates in
that type, as `strtoul` does. `Boost.standard` is a boost that behaves so.
-/

namespace Iridium

open Decimal

/-- The range of a 32-bit `int`. -/
def InInt (v : Int) : Prop := -2 ^ 31 ≤ v ∧ v < 2 ^ 31

instance (v : Int) : Decidable (InInt v) :=
  inferInstanceAs (Decidable (-2 ^ 31 ≤ v ∧ v < 2 ^ 31))

/-- The range of a `uint8_t`. -/
def InUInt8 (v : Int) : Prop := 0 ≤ v ∧ v < 2 ^ 8

instance (v : Int) : Decidable (InUInt8 v) := inferInstanceAs (Decidable (0 ≤ v ∧ v < 2 ^ 8))

theorem InUInt8.inInt {v : Int} (h : InUInt8 v) : InInt v := by
  unfold InUInt8 at h
  unfold InInt
  omega

namespace Boost

structure Documented (boost : Boost) : Prop where
  lexicalInt : ∀ n : Numeral,
    boost.lexicalInt n.text = if InInt n.value then some n.value else none
  lexicalUInt16 : ∀ n : Numeral,
    boost.lexicalUInt16 n.text
      = if n.magnitude < 65536 then some (UInt16.ofInt n.value) else none
  numericUInt8 : ∀ v : Int,
    boost.numericUInt8 v = if InUInt8 v then some (UInt8.ofInt v) else none

namespace Documented

variable {boost : Boost} {σ : Type}

/-- Between the ranges of the two casts it is the second one that throws. -/
theorem convert_uint8 (h : boost.Documented) (store : UInt8 → σ → σ) (n : Numeral) :
    (Number.uint8 store).convert boost n.text
      = if InUInt8 n.value then .ok (store (UInt8.ofInt n.value))
        else if InInt n.value then .error .badNumericCast else .error .badLexicalCast := by
  by_cases hbyte : InUInt8 n.value
  · simp [Number.convert, h.lexicalInt, h.numericUInt8, hbyte, hbyte.inInt]
  · by_cases hint : InInt n.value <;>
      simp [Number.convert, h.lexicalInt, h.numericUInt8, hbyte, hint]

theorem convert_uint16 (h : boost.Documented) (store : UInt16 → σ → σ) (n : Numeral) :
    (Number.uint16 store).convert boost n.text
      = if n.magnitude < 65536 then .ok (store (UInt16.ofInt n.value))
        else .error .badLexicalCast := by
  by_cases hshort : n.magnitude < 65536 <;> simp [Number.convert, h.lexicalUInt16, hshort]

theorem convert_int32 (h : boost.Documented) (store : Int → σ → σ) (n : Numeral) :
    (Number.int32 store).convert boost n.text
      = if InInt n.value then .ok (store n.value) else .error .badLexicalCast := by
  by_cases hint : InInt n.value <;> simp [Number.convert, h.lexicalInt, hint]

end Documented

/-- Casts that read a numeral, and nothing else. -/
def standard : Boost where
  lexicalInt text :=
    match parse text with
    | none => none
    | some n => if InInt n.value then some n.value else none
  lexicalUInt16 text :=
    match parse text with
    | none => none
    | some n => if n.magnitude < 65536 then some (UInt16.ofInt n.value) else none
  numericUInt8 v := if InUInt8 v then some (UInt8.ofInt v) else none

theorem standard_documented : standard.Documented where
  lexicalInt n := by simp only [standard, parse_text]
  lexicalUInt16 n := by simp only [standard, parse_text]
  numericUInt8 _ := rfl

end Boost

/-- An open modem on a little-endian host with signed characters. -/
def Modem.x86 : Modem where
  isOpen := true
  platform := ⟨true, false⟩
  boost := Boost.standard
  ioError := "Operation canceled"
  past _ := fun _ => 0

end Iridium
