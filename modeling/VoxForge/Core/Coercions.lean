import Mathlib.Algebra.GroupWithZero.Nat
import Mathlib.Data.List.Basic
import VoxForge.Core.Json
import VoxForge.Core.Text

/-! How the host language turns values of a document into numbers, and text into lower case. -/
namespace VoxForge.Core

namespace PyFloat

/-- A product with a positive number. -/
def scale (weight : ℚ) : PyFloat → PyFloat
  | finite q => finite (q * weight)
  | x => x

def add : PyFloat → PyFloat → PyFloat
  | finite p,finite q => finite (p + q)
  | nan,_ | _,nan => nan
  | infinite m,infinite n => if m = n then infinite m else nan
  | infinite n,_ | _,infinite n => infinite n

def lt : PyFloat → PyFloat → Bool
  | finite p,finite q => p < q
  | nan,_ | _,nan => false
  | infinite m,infinite n => m && !n
  | infinite m,finite _ => m
  | finite _,infinite n => !n

end PyFloat

inductive CoercionError where
  | typeError
  | valueError
  | overflowError
  deriving DecidableEq, Repr

/-- What the host language writes and reads: `str` of what is no string, `int` and `float` of
a string, `none` where they raise a `ValueError`, and `str.lower` of a string that is not ASCII. -/
structure Host where
  render : Json → String
  parseInt : String → Option Int
  parseFloat : String → Option PyFloat
  lowerOther : String → String

def Host.lower (host : Host) (s : String) : String :=
  if isAscii s then String.ofList (s.toList.map Char.toLower) else host.lowerOther s

theorem Host.lower_ascii (host : Host) {s : String} (h : isAscii s = true) :
    host.lower s = String.ofList (s.toList.map Char.toLower) := if_pos h

/-- A host that reads no numbers and knows ASCII only. -/
def asciiHost : Host where
  render _ := ""
  parseInt _ := none
  parseFloat _ := none
  lowerOther s := s

namespace Json
variable (host : Host)

/-- From here on an integer rounds to no float. -/
def floatLimit : Nat := 2 ^ 1024 - 2 ^ 970

def toFloat : Json → Except CoercionError PyFloat
  | null => .error .typeError
  | bool b => .ok (.finite (if b then 1 else 0))
  | int n => if n.natAbs < floatLimit then .ok (.finite n) else .error .overflowError
  | float x => .ok x
  | str s => (host.parseFloat s).elim (.error .valueError) .ok
  | arr _ | obj _ => .error .typeError

/-- `int(value)`: a float is truncated. -/
def toInt : Json → Except CoercionError Int
  | null => .error .typeError
  | bool b => .ok (if b then 1 else 0)
  | int n => .ok n
  | float (.finite q) => .ok (q.num.tdiv q.den)
  | float (.infinite _) => .error .overflowError
  | float .nan => .error .valueError
  | str s => (host.parseInt s).elim (.error .valueError) .ok
  | arr _ | obj _ => .error .typeError

end Json
end VoxForge.Core
