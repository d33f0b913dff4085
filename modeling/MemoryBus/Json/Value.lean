/-! JSON values. Of the numbers only the natural ones below `2 ^ 64` are told apart. -/
namespace MemoryBus.Json

inductive Value
  | null
  | boolean (b : Bool)
  | natural (n : Nat)
  | otherNumber
  | text (s : List Char)
  | array (items : List Value)
  | object (fields : List (List Char × Value))

namespace Value

/-- The value of a field; the last counts where a name occurs more than once. -/
def get? : Value → String → Option Value
  | object fields, name => fields.reverse.lookup name.toList
  | _, _ => none

def natural? : Value → Option Nat
  | natural n => some n
  | _ => none

end Value
end MemoryBus.Json
