/-! A region is a stretch of bytes of fixed size in which words are stored and
from which they are loaded again. -/

namespace ExprMachine

abbrev Region := Array UInt8

namespace Region

def zeroed (size : Nat) : Region :=
  Array.replicate size 0

/-- Writes the bytes one after another from `offset`. A byte that would fall
outside the region is dropped, so the size never changes. -/
def store (region : Region) (offset : Nat) : List UInt8 → Region
  | [] => region
  | byte :: rest => store (region.setIfInBounds offset byte) (offset + 1) rest

/-- The bytes from `offset` up to `offset + size`, or up to the end of the region. -/
def load (region : Region) (offset size : Nat) : List UInt8 :=
  (region.extract offset (offset + size)).toList

@[simp] theorem size_zeroed (size : Nat) : (zeroed size).size = size := by
  simp [zeroed]

@[simp] theorem size_store (region : Region) (offset : Nat) (bytes : List UInt8) :
    (region.store offset bytes).size = region.size := by
  induction bytes generalizing region offset with
  | nil => rfl
  | cons byte rest hypothesis => simp [store, hypothesis]

theorem toList_store {region : Region} {offset : Nat} {bytes : List UInt8}
    (fits : offset + bytes.length ≤ region.size) :
    (region.store offset bytes).toList =
      region.toList.take offset ++ bytes ++ region.toList.drop (offset + bytes.length) := by
  induction bytes generalizing region offset with
  | nil => simp [store]
  | cons byte rest hypothesis =>
      simp only [List.length_cons] at fits
      have room : offset < region.toList.length := by rw [Array.length_toList]; omega
      have before : min offset region.size = offset := by omega
      rw [store, hypothesis (by rw [Array.size_setIfInBounds]; omega)]
      simp only [Array.toList_setIfInBounds, List.length_cons]
      rw [List.take_set, List.take_add_one, List.drop_set_of_lt (by omega),
        List.getElem?_eq_getElem room, List.set_append_right _ _ (List.length_take_le ..)]
      simp [before, Nat.add_comm, Nat.add_left_comm]

theorem load_eq_take_drop (region : Region) (offset size : Nat) :
    region.load offset size = (region.toList.drop offset).take size := by
  simp [load, List.extract_eq_take_drop]

end Region

end ExprMachine
