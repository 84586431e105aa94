import Mathlib.Data.Rat.Defs

/-! Values of JSON documents as the host language holds them after parsing. -/
namespace VoxForge.Core

/-- A float: the rounding of finite values is left out. -/
inductive PyFloat where
  | finite (value : ℚ)
  | infinite (negative : Bool)
  | nan
  deriving DecidableEq, Repr

/-- The keys of an object are distinct; the entries keep their order. -/
inductive Json where
  | null
  | bool (value : Bool)
  | int (value : Int)
  | float (value : PyFloat)
  | str (value : String)
  | arr (items : List Json)
  | obj (entries : List (String × Json))

namespace Json

/-- `bool(value)`. -/
def truthy : Json → Bool
  | null => false
  | bool b => b
  | int n => n ≠ 0
  | float x => x ≠ .finite 0
  | str s => s ≠ ""
  | arr items => !items.isEmpty
  | obj entries => !entries.isEmpty

/-- `str(value)`, where `render` writes what is no string. -/
def text (render : Json → String) : Json → String
  | str s => s
  | value => render value

/-- `value == s` for a string `s`. -/
def isStr (s : String) : Json → Bool
  | str t => t = s
  | _ => false

/-- `value.get(key)` of an object; other values have no entries. -/
def get? (key : String) : Json → Option Json
  | obj entries => entries.lookup key
  | _ => none

@[simp] theorem text_str (render : Json → String) (s : String) : text render (str s) = s := rfl

@[simp] theorem isStr_str (s t : String) : isStr s (str t) = decide (t = s) := rfl

end Json
end VoxForge.Core
