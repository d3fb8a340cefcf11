import MatStack.Controller.ImRequests

/-!
# JSON values

The values that a device's data are turned into, as `serde_json` holds them: an integer is a `u64`
or an `i64`, a floating-point number is carried as its bits, and the fields of an object are in the
order of their keys.
-/

namespace MatStack

inductive Json where
  | null
  | bool (b : Bool)
  | int (v : Int)
  | float (bits : UInt64)
  | string (s : String)
  | array (items : List Json)
  | object (fields : List (String × Json))

end MatStack
