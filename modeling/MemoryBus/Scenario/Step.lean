import MemoryBus.Layout.Build
import MemoryBus.Snapshot.Basic

/-! What a scenario asks of a memory. -/
namespace MemoryBus.Scenario

/-- A table to build, and the addresses to look up in it before it is used. -/
structure TablePlan where
  ranges : List Range
  guard : Range
  finds : List UInt32

/-- A machine's layout: the built-in one, a text to read, or a value. -/
inductive LayoutSource
  | builtIn
  | text (s : String)
  | value (l : Layout)

/-- A step that needs only the memory map. -/
inductive MapStep
  | find (address : UInt32)
  | install (plan : TablePlan)
  /-- Installs the table that is installed. -/
  | reinstall
  /-- Builds a table from the installed one's list, and installs it. -/
  | rebuild
  | installLayout (source : LayoutSource)
  | addBank (name : String) (bytes : ByteArray)
  | bankFind (name : String)
  | bankName (bank : Nat)
  | bankSize (bank : Nat)
  | bankCount
  | banks
  | bankRead (bank offset count : Nat)
  | bankWrite (bank offset : Nat) (bytes : List UInt8)
  | bankDigest (bank : Nat)
  /-- Without a file the image does not exist. -/
  | loadImage (bank : Nat) (file : Option ByteArray)
  | order
  | entries
  | head
  | tableSize
  | mapStats
  | tableStats
  | slots
  | translate (direction : Direction) (width : Width) (address : UInt32)
  | restore (snapshot : Snapshot)

/-- A step that needs the interpreter core. -/
inductive CpuStep
  | reset
  | setLevel (level : UInt8)
  | run (host : UInt32)
  | remaining
  | setRemaining (host : Int32)
  /-- Sets the core's own count of cycles. -/
  | putRemaining (cycles : Int32)
  | putPc (pc : UInt32)

inductive Step
  | map (s : MapStep)
  | cpu (s : CpuStep)
  | readByte (address : UInt32)
  | readWord (address : UInt32)
  | readLong (address : UInt32)
  | writeByte (address : UInt32) (value : UInt8)
  | writeWord (address : UInt32) (value : UInt16)
  | writeLong (address value : UInt32)
  | stats
  | resetStats
  | handlerName
  /-- Calls the device of a range without an access. -/
  | askDevice (range : Range) (request : Request)
  | trace (iterations : Nat)
  | expand (range bank : String) (useMask : UInt32)
  | snapshot (name : String)
  | restoreNamed (name : String)
  /-- Writes a snapshot as a file and loads it again. -/
  | save (name : String)

/-- A step on a table that stands alone. -/
inductive TableStep
  | find (address : UInt32)
  | entries
  | size
  | resetStats
  /-- Keeps a copy of the table. -/
  | push
  /-- Takes the copy last kept for the table. -/
  | pop
  | check (sizes : List Nat)

end MemoryBus.Scenario
