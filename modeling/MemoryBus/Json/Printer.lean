import MemoryBus.Decimal

/-! Objects of natural numbers, printed one field to a line. -/
namespace MemoryBus.Json

def printField (field : String × Nat) : List Char :=
  ' ' :: ' ' :: '"' :: (field.1.toList ++ '"' :: ':' :: ' ' :: Decimal.digits field.2)

/-- The names are taken to need no escapes. -/
def printObject (fields : List (String × Nat)) : List Char :=
  '{' :: '\n' :: ([',', '\n'].intercalate (fields.map printField) ++ ['\n', '}'])

end MemoryBus.Json
