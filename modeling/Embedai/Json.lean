import Mathlib.Data.Rat.Defs
import Mathlib.Data.List.Basic

namespace Embedai

/-- A value as Python's `json` gives it: the keys of an object are distinct. -/
inductive Json
  | null
  | bool (value : Bool)
  | int (value : ℤ)
  | float (value : ℚ)
  | str (value : String)
  | arr (items : List Json)
  | obj (fields : List (String × Json))

namespace Json

def truthy : Json → Bool
  | null => false
  | bool value => value
  | int value => value ≠ 0
  | float value => value ≠ 0
  | str value => value ≠ ""
  | arr items => !items.isEmpty
  | obj fields => !fields.isEmpty

def hashable : Json → Bool
  | arr _ => false
  | obj _ => false
  | _ => true

def field (key : String) : Json → Option Json
  | obj fields => fields.lookup key
  | _ => none

def number : Json → Option ℚ
  | bool value => some (if value then 1 else 0)
  | int value => some value
  | float value => some value
  | _ => none

mutual

/-- Python's `==`: `True` is 1, and the keys of a `dict` have no order. -/
def pyEq : Json → Json → Bool
  | null, null => true
  | str a, str b => a = b
  | arr as, arr bs => pyEqItems as bs
  | obj as, obj bs => as.length = bs.length && pyEqFields as bs
  | a, b =>
    match a.number, b.number with
    | some m, some n => m = n
    | _, _ => false

def pyEqItems : List Json → List Json → Bool
  | [], [] => true
  | a :: as, b :: bs => pyEq a b && pyEqItems as bs
  | _, _ => false

def pyEqFields : List (String × Json) → List (String × Json) → Bool
  | [], _ => true
  | (key, a) :: as, bs => (bs.lookup key).any (pyEq a) && pyEqFields as bs

end

end Json

end Embedai
