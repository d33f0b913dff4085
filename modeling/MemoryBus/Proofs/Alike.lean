import MemoryBus.Proofs.Disjoint

/-! Maps that differ only in what lookups and slots leave behind, and what the operations on a map
make of two of them. -/
namespace MemoryBus

section Matches

variable {α α' β β' ε ε' : Type} {R : α → β → Prop} {S : α' → β' → Prop}
  {x : Except ε α} {y : Except ε β}

/-- Related results, or the same error. -/
def Matches (R : α → β → Prop) : Except ε α → Except ε β → Prop
  | .ok v, .ok u => R v u
  | .error e, .error e' => e = e'
  | _, _ => False

theorem Matches.cases (h : Matches R x y) :
    (∃ v u, x = .ok v ∧ y = .ok u ∧ R v u) ∨ ∃ e, x = .error e ∧ y = .error e := by
  cases x with
  | ok v => cases y with
    | ok u => exact .inl ⟨v, u, rfl, rfl, h⟩
    | error e => exact h.elim
  | error e => cases y with
    | ok u => exact h.elim
    | error e' => exact .inr ⟨e, rfl, congrArg Except.error (Eq.symm h)⟩

theorem matches_of_eq {y : Except ε α} (h : x = y) : Matches (· = ·) x y := by
  subst h
  cases x <;> exact rfl

theorem Matches.bind {f : α → Except ε α'} {g : β → Except ε β'} (h : Matches R x y)
    (hfg : ∀ v u, R v u → Matches S (f v) (g u)) : Matches S (x >>= f) (y >>= g) := by
  obtain ⟨v, u, rfl, rfl, hvu⟩ | ⟨e, rfl, rfl⟩ := h.cases
  · exact hfg v u hvu
  · exact rfl

theorem Matches.map {f : α → α'} {g : β → β'} (h : Matches R x y) (hfg : ∀ v u, R v u → S (f v) (g u)) :
    Matches S (x.map f) (y.map g) := by
  obtain ⟨v, u, rfl, rfl, hvu⟩ | ⟨e, rfl, rfl⟩ := h.cases
  · exact hfg v u hvu
  · exact rfl

theorem Matches.mapError (f : ε → ε') (h : Matches R x y) : Matches R (x.mapError f) (y.mapError f) := by
  obtain ⟨v, u, rfl, rfl, hvu⟩ | ⟨e, rfl, rfl⟩ := h.cases
  · exact hvu
  · exact rfl

end Matches

def Event.isPromotion : Event → Bool
  | .promoted .. => true
  | _ => false

/-- The journal without the lines that tell how lookups reorder the list. -/
def Journal.steady (j : Journal) : Journal := j.filter (!·.isPromotion)

/-- The order of the list, the slots, the counters of lookups and the lines about promotions may
differ. -/
structure MemoryMap.Alike (m m' : MemoryMap) : Prop where
  entries : m.table.entries = m'.table.entries
  banks : m.banks = m'.banks
  journal : m.journal.steady = m'.journal.steady

namespace MemoryMap.Alike

variable {m m' : MemoryMap}

theorem refl (m : MemoryMap) : m.Alike m := ⟨rfl, rfl, rfl⟩

theorem note (h : m.Alike m') (e : Event) : (m.note e).Alike (m'.note e) where
  entries := h.entries
  banks := h.banks
  journal := by
    have hj := h.journal
    simp only [Journal.steady] at hj
    simp [Journal.steady, MemoryMap.note, List.filter_cons, hj]

theorem of_banks (h : m.Alike m') (banks : Banks) :
    MemoryMap.Alike { m with banks } { m' with banks } := ⟨h.entries, rfl, h.journal⟩

theorem steady_find (m : MemoryMap) (a : UInt32) : (m.find a).2.journal.steady = m.journal.steady := by
  simp only [MemoryMap.find, Journal.steady, List.filter_append]
  have hnone : ((m.table.find a).1.event? a).toList.filter (!·.isPromotion) = [] := by
    unfold Lookup.event?
    split <;> simp [Event.isPromotion]
  rw [hnone, List.nil_append]

theorem find_right (h : m.Alike m') (a : UInt32) : m.Alike (m'.find a).2 :=
  ⟨h.entries.trans Table.entries_find.symm, h.banks, h.journal.trans (steady_find m' a).symm⟩

theorem find (h : m.Alike m') (a : UInt32) : (m.find a).2.Alike (m'.find a).2 where
  entries := Table.entries_find.trans (h.find_right a).entries
  banks := h.banks
  journal := (steady_find m a).trans (h.find_right a).journal

theorem install {t t' : Table} (h : m.Alike m') (ht : t.entries = t'.entries) :
    Matches Alike (m.install t) (m'.install t') := by
  have hcheck : t'.check m'.banks.sizes = t.check m.banks.sizes := by
    simp only [Table.check, ht, h.banks]
  have hsize : t.size = t'.size :=
    Arena.size_eq.trans ((congrArg List.length ht).trans Arena.size_eq.symm)
  unfold MemoryMap.install
  rw [hcheck, hsize]
  refine (matches_of_eq (rfl : t.check m.banks.sizes = _)).bind fun _ _ _ => ?_
  exact (Alike.mk ht h.banks h.journal : MemoryMap.Alike ⟨t, .empty, m.banks, _, m.journal⟩
    ⟨t', .empty, m'.banks, _, m'.journal⟩).note _

theorem addBank (h : m.Alike m') (name : String) (bytes : ByteArray) :
    (m.addBank name bytes).Alike (m'.addBank name bytes) := by
  unfold MemoryMap.addBank
  rw [h.banks]
  exact (h.of_banks _).note _

theorem overwriteBank (h : m.Alike m') (i offset : Nat) (bytes : List UInt8) :
    (m.overwriteBank i offset bytes).Alike (m'.overwriteBank i offset bytes) :=
  ⟨h.entries, congrArg (·.overwriteBank i offset bytes) h.banks, h.journal⟩

theorem restore (h : m.Alike m') (s : Snapshot) : Matches Alike (m.restore s) (m'.restore s) := by
  unfold MemoryMap.restore
  rw [h.banks]
  refine (matches_of_eq (rfl : s.checkVersion = _)).bind fun _ _ _ => ?_
  refine (matches_of_eq rfl).bind fun targets _ heq => ?_
  subst heq
  exact (h.of_banks _).note _

theorem loadImage (h : m.Alike m') (i : Nat) (path : String) (file : Option ImageFile) :
    (m.loadImage i path file).1 = (m'.loadImage i path file).1 ∧
      (m.loadImage i path file).2.Alike (m'.loadImage i path file).2 := by
  unfold MemoryMap.loadImage
  rw [h.banks]
  split
  · exact ⟨rfl, h⟩
  · rename_i file
    split
    · exact ⟨rfl, h⟩
    · exact ⟨rfl, h⟩
    · split
      · exact ⟨rfl, h⟩
      · have hread := h.overwriteBank i 0 file.bytes.data.toList
        dsimp only
        split
        · exact ⟨rfl, hread⟩
        · exact ⟨rfl, hread.note _⟩

theorem writeByte (h : m.Alike m') (bank offset : Nat) (v : UInt8) :
    Matches Alike (m.writeByte bank offset v) (m'.writeByte bank offset v) := by
  unfold MemoryMap.writeByte
  rw [h.banks]
  split
  · exact h.of_banks _
  · exact rfl

theorem writeWord (h : m.Alike m') (bank offset : Nat) (v : UInt16) :
    Matches Alike (m.writeWord bank offset v) (m'.writeWord bank offset v) :=
  (h.writeByte bank offset _).bind fun _ _ h => h.writeByte bank (offset + 1) _

theorem resetStats (h : m.Alike m') : m.resetStats.Alike m'.resetStats := ⟨h.entries, h.banks, h.journal⟩

end MemoryMap.Alike

/-- Told of range `r` in state `s`, the handler looks neither at the order of the list nor at the slots nor at
the counters of map `m`: over a map that differs only in these it answers the same, and leaves a map that
differs in nothing else. -/
def Handler.Indifferent {σ : Type} (h : Handler σ) (s : σ) (r : Range) (m : MemoryMap) : Prop :=
  ∀ m', m.Alike m' →
    (h.notify s r m).accepted = (h.notify s r m').accepted ∧
      (h.notify s r m).state = (h.notify s r m').state ∧
      (h.notify s r m).map.Alike (h.notify s r m').map

end MemoryBus
