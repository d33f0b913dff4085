import MemoryBus.Map

/-! Bank sizes never change, and an access that stays inside its bank succeeds. -/
namespace MemoryBus

/-- How many bytes an access of this width takes. -/
def Width.bytes : Width → Nat
  | .byte => 1
  | .word => 2

namespace Banks

variable {s : Banks} {bank offset : Nat}

/-- The bank exists, and the bytes that an access of width `w` takes at `offset` are inside it. -/
def Reaches (s : Banks) (w : Width) (bank offset : Nat) : Prop :=
  ∃ size, s.sizes[bank]? = some size ∧ offset + w.bytes ≤ size

@[simp] theorem sizes_add (name : String) (bytes : ByteArray) :
    (s.add name bytes).sizes = s.sizes ++ [bytes.size] := by simp [sizes, add]

theorem sizes_modify (f : Bank → Bank) (hf : ∀ k, (f k).bytes.size = k.bytes.size) :
    (Banks.mk (s.toArray.modify bank f)).sizes = s.sizes := by
  apply List.ext_getElem?
  intro j
  simp only [sizes, List.getElem?_map, Array.getElem?_toList, Array.getElem?_modify]
  split <;> simp [Function.comp_def, hf]

@[simp] theorem size_overwrite (old : ByteArray) (offset : Nat) (new : List UInt8) :
    (overwrite old offset new).size = old.size := by
  unfold overwrite
  induction new generalizing old offset with
  | nil => rfl
  | cons v new ih =>
    refine (ih _ _).trans ?_
    split <;> simp

@[simp] theorem sizes_setByte (v : UInt8) : (s.setByte bank offset v).sizes = s.sizes :=
  sizes_modify _ fun k => by simp

@[simp] theorem sizes_overwriteBank (new : List UInt8) :
    (s.overwriteBank bank offset new).sizes = s.sizes := sizes_modify _ fun k => by simp

@[simp] theorem sizes_fill (bytes : ByteArray) : (s.fill bank bytes).sizes = s.sizes :=
  sizes_modify _ fun k => by split <;> simp_all

/-- The names and the sizes of the banks, which stay what they are. -/
def shape (s : Banks) : List (String × Nat) := s.toArray.toList.map fun k => (k.name, k.bytes.size)

theorem map_snd_shape (s : Banks) : s.shape.map (·.2) = s.sizes := by simp [shape, sizes]

theorem sizes_of_shape {s' : Banks} (h : s.shape = s'.shape) : s.sizes = s'.sizes := by
  rw [← map_snd_shape, ← map_snd_shape, h]

theorem sizes_prefix_of_shape {s' : Banks} (h : s.shape <+: s'.shape) : s.sizes <+: s'.sizes := by
  rw [← map_snd_shape, ← map_snd_shape]
  exact h.map _

@[simp] theorem shape_add (name : String) (bytes : ByteArray) :
    (s.add name bytes).shape = s.shape ++ [(name, bytes.size)] := by simp [shape, add]

theorem shape_modify (f : Bank → Bank)
    (hf : ∀ k, (f k).name = k.name ∧ (f k).bytes.size = k.bytes.size) :
    (Banks.mk (s.toArray.modify bank f)).shape = s.shape := by
  apply List.ext_getElem?
  intro j
  simp only [shape, List.getElem?_map, Array.getElem?_toList, Array.getElem?_modify]
  split <;> simp [Function.comp_def, hf]

@[simp] theorem shape_setByte (v : UInt8) : (s.setByte bank offset v).shape = s.shape :=
  shape_modify _ fun k => by simp

@[simp] theorem shape_overwriteBank (new : List UInt8) :
    (s.overwriteBank bank offset new).shape = s.shape := shape_modify _ fun k => by simp

@[simp] theorem shape_fill (bytes : ByteArray) : (s.fill bank bytes).shape = s.shape :=
  shape_modify _ fun k => by split <;> simp_all

theorem find?_eq (s : Banks) (name : String) : s.find? name = s.shape.findIdx? (·.1 == name) := by
  rw [shape, List.findIdx?_map, ← List.findIdx?_toArray]
  rfl

theorem byte?_isSome : (s.byte? bank offset).isSome = true ↔ s.Reaches .byte bank offset := by
  unfold byte? Reaches sizes
  cases h : s.toArray[bank]? with
  | none => simp [h]
  | some k =>
    have hlt : (k.bytes[offset]?).isSome = true ↔ offset + Width.byte.bytes ≤ k.bytes.size := by
      by_cases ho : offset < k.bytes.size
      · exact iff_of_true (by simp [getElem?_pos, ho]) ho
      · exact iff_of_false (by simp [getElem?_neg, ho]) ho
    simpa [h] using hlt

theorem readByte_ok (h : s.Reaches .byte bank offset) : ∃ v, s.readByte bank offset = .ok v := by
  obtain ⟨v, hv⟩ := Option.isSome_iff_exists.mp (byte?_isSome.mpr h)
  exact ⟨v, by simp [readByte, hv]⟩

theorem Reaches.byte_of_word (h : s.Reaches .word bank offset) :
    s.Reaches .byte bank offset ∧ s.Reaches .byte bank (offset + 1) := by
  obtain ⟨size, hs, ho⟩ := h
  simp only [Width.bytes] at ho
  exact ⟨⟨size, hs, show offset + 1 ≤ size by omega⟩, size, hs, show offset + 1 + 1 ≤ size by omega⟩

theorem readWord_ok (h : s.Reaches .word bank offset) : ∃ v, s.readWord bank offset = .ok v := by
  obtain ⟨v, hv⟩ := readByte_ok h.byte_of_word.1
  obtain ⟨u, hu⟩ := readByte_ok h.byte_of_word.2
  exact ⟨BigEndian.word v u, by simp [readWord, hv, hu]; rfl⟩

end Banks

namespace MemoryMap

variable {m : MemoryMap} {bank offset : Nat}

theorem writeByte_ok (h : m.banks.Reaches .byte bank offset) (v : UInt8) :
    m.writeByte bank offset v = .ok { m with banks := m.banks.setByte bank offset v } := by
  simp [writeByte, Banks.holds, Banks.byte?_isSome.mpr h]

theorem writeWord_ok (h : m.banks.Reaches .word bank offset) (v : UInt16) :
    m.writeWord bank offset v = .ok { m with
      banks := (m.banks.setByte bank offset (BigEndian.wordHigh v)).setByte bank (offset + 1)
        (BigEndian.wordLow v) } := by
  have h' : (m.banks.setByte bank offset (BigEndian.wordHigh v)).Reaches .byte bank (offset + 1) := by
    simpa [Banks.Reaches] using h.byte_of_word.2
  simp only [writeWord, writeByte_ok h.byte_of_word.1]
  exact writeByte_ok h' (BigEndian.wordLow v)

end MemoryMap
end MemoryBus
