import MemoryBus.Map

/-! Who serves the ranges that no bank serves. -/
namespace MemoryBus

variable {σ : Type}

structure DeviceReply (σ : Type) where
  /-- What a read yields, of which the access keeps its own width. -/
  value : UInt32
  state : σ
  remarks : List Event

/-- After an accepted notification the access is made again over the map that the handler left. -/
structure NotifyReply (σ : Type) where
  accepted : Bool
  state : σ
  map : MemoryMap

/-- The devices and notify sources of a machine, as functions of the state that they keep. -/
structure Handler (σ : Type) where
  name : String
  device : σ → Range → Request → DeviceReply σ
  notify : σ → Range → MemoryMap → NotifyReply σ

namespace Handler

/-- Reads yield zero, writes are dropped and notifications are declined. -/
def silent (name : String) : Handler σ where
  name
  device s r q := ⟨0, s, [.unhandledDevice r.tag q.address]⟩
  notify s r m := ⟨false, s, m.note (.unhandledNotify r.tag)⟩

end Handler
end MemoryBus
