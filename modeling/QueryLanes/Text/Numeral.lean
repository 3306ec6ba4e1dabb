/-!
# Decimal numerals

Natural numbers are written in decimal and read back. Reading takes an optional plus sign and one
or more digits, and stops at the first character that is no digit or carries the value past the
greatest one allowed; leading zeros are free.
-/

namespace QueryLanes.Numeral

def render (n : Nat) : String := String.ofList (Nat.toDigits 10 n)

/-- A whole number, with a minus sign when it is negative. -/
def renderInt : Int → String
  | .ofNat n => render n
  | .negSucc n => "-" ++ render (n + 1)

/-- Why a text is no numeral of the range asked for. -/
inductive Fault where
  | empty
  | invalidDigit
  | tooLarge
deriving DecidableEq, Repr

def Fault.message : Fault → String
  | .empty => "cannot parse integer from empty string"
  | .invalidDigit => "invalid digit found in string"
  | .tooLarge => "number too large to fit in target type"

def digit? (c : Char) : Option Nat := if '0' ≤ c ∧ c ≤ '9' then some (c.toNat - 48) else none

/-- Digits read after some that gave `value`. -/
def readDigits (greatest : Nat) : Nat → List Char → Except Fault Nat
  | value, [] => .ok value
  | value, c :: r =>
    match digit? c with
    | none => .error .invalidDigit
    | some d => if greatest < value * 10 + d then .error .tooLarge
      else readDigits greatest (value * 10 + d) r

/-- A numeral of at most `greatest`. A plus sign needs a digit after it. -/
def read (greatest : Nat) (s : String) : Except Fault Nat :=
  match s.toList with
  | [] => .error .empty
  | ['+'] => .error .invalidDigit
  | '+' :: r => readDigits greatest 0 r
  | cs => readDigits greatest 0 cs

end QueryLanes.Numeral
