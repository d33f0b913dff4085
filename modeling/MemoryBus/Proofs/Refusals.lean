import MemoryBus.Operation
import MemoryBus.Proofs.Accesses

/-! Operations that change a map one field after the other, and are not undone when they fail. They check
everything before they change anything, so an operation that is refused leaves no trace. Only the bytes of an
image file can turn out to be too few when some of them have been read. -/
namespace MemoryBus

variable {σ ε : Type}

/-- Changes to a map, one after the other. A failure keeps those that were made before. -/
abbrev InPlace (ε : Type) := EStateM ε MemoryMap

namespace InPlace

/-- A check that changes nothing. -/
def check {α : Type} : Except ε α → InPlace ε α
  | .ok v => pure v
  | .error e => throw e

def install (t : Table) : InPlace TableError Unit := do
  check (t.check (← get).banks.sizes)
  let old := (← get).table
  modify ({ · with table := t })
  modify fun m => { m with retired := m.retired.add old.stats }
  modify ({ · with slots := .empty })
  modify (·.note (.installed t.size))

/-- The banks that take the images, chosen one after the other. -/
def targets : List BankImage → InPlace SnapshotError (List Nat)
  | [] => pure []
  | image :: images => do
    let i ← check (MemoryMap.target (← get).banks image)
    return i :: (← targets images)

def fills : List (Nat × BankImage) → InPlace SnapshotError Unit
  | [] => pure ()
  | (i, image) :: rest => do
    modify fun m => { m with banks := m.banks.fill i image.bytes }
    fills rest

def restore (s : Snapshot) : InPlace SnapshotError Unit := do
  check s.checkVersion
  let chosen ← targets s.banks
  fills (chosen.zip s.banks)
  modify (·.note (.snapshotRestored s.banks.length))

/-- Reads the file into the first `length` bytes of bank `i`. -/
def readInto (i length : Nat) (file : ImageFile) : InPlace MemoryError Unit := do
  modify (·.overwriteBank i 0 file.bytes.data.toList)
  if file.bytes.size < length then throw (.file file.shortage)

def loadImage (i : Nat) (path : String) : Option ImageFile → InPlace MemoryError Unit
  | none => throw (.image (.notFound path))
  | some file => do
    let length ← check (file.length.mapError .file)
    match (← get).banks.toArray[i]? with
    | none => throw (.image (.notFound s!"bank {i}"))
    | some bank =>
      if length ≠ bank.bytes.size then throw (.image (.wrongSize bank.bytes.size length))
      readInto i length file
      modify (·.note (.imageLoaded path bank.name))

/-- All or nothing: the changed map, or the one that there was. -/
def outcome (m : MemoryMap) : Except ε MemoryMap → EStateM.Result ε MemoryMap Unit
  | .ok m' => .ok () m'
  | .error e => .error e m

end InPlace

/-- The file does not fall short: there are as many bytes to read as its length says. A file that is cut off
while it is read falls short, and so does one whose length was never that of its contents. -/
def ImageFile.Steady (file : ImageFile) : Prop := ∀ length, file.length = .ok length → length ≤ file.bytes.size

namespace Operation

/-- Leaves the map as the changes leave it, also where they fail. -/
def settleInPlace (b : Bus σ) (refusal : ε → MemoryError) (changes : InPlace ε Unit) : Reply × Bus σ :=
  match changes.run b.map with
  | .ok _ map => (.done, { b with map })
  | .error e map => (.refused (refusal e), { b with map })

section

variable (p : Port σ)

def performInPlace (b : Bus σ) : Operation → Except Fault (Reply × Bus σ)
  | install t => .ok (settleInPlace b .table (InPlace.install t))
  | reinstall => .ok (settleInPlace b .table (InPlace.install b.map.table))
  | restore s => .ok (settleInPlace b .snapshot (InPlace.restore s))
  | loadImage i path file => .ok (settleInPlace b id (InPlace.loadImage i path file))
  | op => op.perform p b

end

def Reply.isRefusal : Reply → Bool
  | refused _ => true
  | _ => false

/-- The file of an image does not fall short. -/
def Steady : Operation → Prop
  | loadImage _ _ (some file) => file.Steady
  | _ => True

/-- The operations of a run that are not refused. After a fault none is performed, and none is left out. -/
def accepted (p : Port σ) (b : Bus σ) : List Operation → List Operation
  | [] => []
  | op :: ops =>
    match op.performInPlace p b with
    | .error _ => op :: ops
    | .ok (answer, b) => if answer.isRefusal then accepted p b ops else op :: accepted p b ops

variable {p : Port σ} {b b' : Bus σ} {op : Operation} {answer : Reply}

end Operation
end MemoryBus
