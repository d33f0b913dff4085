/-! Words and longs as their bytes and words, highest first. -/
namespace MemoryBus.BigEndian

def word (high low : UInt8) : UInt16 := (high.toUInt16 <<< 8) ||| low.toUInt16

def wordHigh (w : UInt16) : UInt8 := (w >>> 8).toUInt8

def wordLow (w : UInt16) : UInt8 := w.toUInt8

def long (high low : UInt16) : UInt32 := (high.toUInt32 <<< 16) ||| low.toUInt32

def longHigh (l : UInt32) : UInt16 := (l >>> 16).toUInt16

def longLow (l : UInt32) : UInt16 := l.toUInt16

end MemoryBus.BigEndian
