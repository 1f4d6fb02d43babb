import SelfQuant.OmsOrderTable
import Mathlib.Tactic.Ring
import Mathlib.Tactic.Linarith

namespace SelfQuant.Ibkr

open List Oms Int Option

def Fits (value : Int) : Prop := int64Min ≤ value ∧ value ≤ int64Max

instance (value : Int) : Decidable (Fits value) := inferInstanceAs (Decidable (_ ∧ _))

def number (digits : List Char) : Nat := Nat.ofDigitChars 10 digits 0

variable (text : List Char)

def sign : Int := if text.head? = some '-' then -1 else 1

def unsigned : List Char := if text.head? = some '-' then text.tail else text

def fromChars : Option Int :=
  let value := sign text * number (unsigned text)
  if unsigned text ≠ [] ∧ (unsigned text).all (·.isDigit) ∧ Fits value then some value else none

def whole : List Char := text.takeWhile (· ≠ '.')

def fraction : List Char := (text.dropWhile (· ≠ '.')).tail

/-- Only the upper bound is guarded, and not tightly; the machine's product wraps around. -/
def digitStep (value : Int) (digit : Char) : Option Int :=
  if !digit.isDigit ∨ int64Max / 10 < value then none
  else some ((value * 10 + (digit.toNat - '0'.toNat : Nat)).bmod (2 ^ 64))

/-- The second loop of the source multiplies by ten for each digit that is missing. -/
def scaled (fraction : List Char) (scale : Nat) : List Char :=
  fraction.take scale ++ replicate (scale - fraction.length) '0'

def parseDecimal (scale : Nat) : Option Int :=
  if text = [] ∨ 18 < scale ∨ ((fraction text).drop scale).any (· ≠ '0') then none
  else (if whole text = [] then some 0 else fromChars (whole text)).bind
    ((scaled (fraction text) scale).foldlM digitStep)

/-- What stands before the point and what stands behind it, in the unit of the scale. -/
def before (scale : Nat) : Nat := number (unsigned (whole text)) * 10 ^ scale

@[inherit_doc before]
def behind (text : List Char) (scale : Nat) : Nat := number (scaled (fraction text) scale)

/-- A negative number has no fraction, the digits behind the scale are zeros, and the result fits. -/
structure Exact (text : List Char) (scale : Nat) : Prop where
  supported : scale ≤ 18 ∨ number (unsigned (whole text) ++ fraction text) = 0
  negative : sign (whole text) = -1 → behind text scale = 0
  rest : ∀ c ∈ (fraction text).drop scale, c = '0'
  fits : Fits (sign (whole text) * (before text scale + behind text scale))

variable {text ds : List Char} {scale : Nat} {value v : Int} {c : Char}

end SelfQuant.Ibkr
