/-!
# JSON values

Values as the dictionary of an external document may hold them.

* `Json` — integers stay exact; every other number is a binary64 magnitude with a sign, so that
  a negative zero is a value of its own.
* `Json.put` — a member of an object.  Members keep the order in which their names came first; a
  repeated name replaces the value in place.
-/

namespace ReportPress

/-- A JSON value. -/
inductive Json where
  | null
  | bool (b : Bool)
  | integer (n : Int)
  | float (negative : Bool) (magnitude : Rat)
  | string (s : String)
  | array (items : List Json)
  | object (members : List (String × Json))
deriving Inhabited, Repr, BEq

namespace Json

/-- The members of an object after one more is read. -/
def put {V : Type} (name : String) (value : V) : List (String × V) → List (String × V)
  | [] => [(name, value)]
  | (n, v) :: rest => if n = name then (n, value) :: rest else (n, v) :: put name value rest

end Json

end ReportPress
