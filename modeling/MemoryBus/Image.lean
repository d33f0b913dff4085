import MemoryBus.Error

/-! Image files, and the banks that are filled from them. -/
namespace MemoryBus

/-- An image file that was opened. -/
structure ImageFile where
  /-- The length that it is said to have. -/
  length : Except FileError Nat
  /-- The bytes that there are to read after that. -/
  bytes : ByteArray
  /-- Why there are no more bytes to read, if it is not the end of the file. -/
  failure : Option FileError

namespace ImageFile

/-- A file that holds these bytes. -/
def ofBytes (bytes : ByteArray) : ImageFile := ⟨.ok bytes.size, bytes, none⟩

/-- What a reader is told who wants more bytes than there are. -/
def shortage (file : ImageFile) : FileError := file.failure.getD (.refused "failed to fill whole buffer")

end ImageFile

namespace MemoryMap

/-- Fills bank `i` from an image file that must be as long as the bank, or says why not. The file is `none`
when it cannot be opened, and its length is asked for before the bank is looked for. The bytes are read into
the bank itself: when there are too few of them, those that there are stay in it. -/
def loadImage (m : MemoryMap) (i : Nat) (path : String) : Option ImageFile → Except MemoryError Unit × MemoryMap
  | none => (.error (.image (.notFound path)), m)
  | some file =>
    match file.length, m.banks.toArray[i]? with
    | .error e, _ => (.error (.file e), m)
    | .ok _, none => (.error (.image (.notFound s!"bank {i}")), m)
    | .ok length, some bank =>
      if length ≠ bank.bytes.size then (.error (.image (.wrongSize bank.bytes.size length)), m)
      else
        let read := m.overwriteBank i 0 file.bytes.data.toList
        if file.bytes.size < length then (.error (.file file.shortage), read)
        else (.ok (), read.note (.imageLoaded path bank.name))

end MemoryMap
end MemoryBus
