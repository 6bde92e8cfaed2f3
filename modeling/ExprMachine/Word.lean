/-! Machine words and their bytes. Bytes are listed least significant first, so
the bytes of a word are the digits of its value in base 256. -/

namespace ExprMachine

/-! ## Numbers as digits in base 256 -/

/-- The lowest `size` digits of `value`. -/
def littleEndian : (size value : Nat) → List UInt8
  | 0, _ => []
  | size + 1, value => UInt8.ofNat value :: littleEndian size (value / 256)

def ofLittleEndian : List UInt8 → Nat
  | [] => 0
  | byte :: rest => byte.toNat + 256 * ofLittleEndian rest

@[simp] theorem length_littleEndian (size value : Nat) :
    (littleEndian size value).length = size := by
  induction size generalizing value with
  | zero => rfl
  | succ size hypothesis => simp [littleEndian, hypothesis]

/-! ## Words -/

abbrev Word (size : Nat) := BitVec (8 * size)

namespace Word

def bytes {size : Nat} (word : Word size) : List UInt8 :=
  littleEndian size word.toNat

/-- The word that the bytes spell; bytes beyond the size of the word are ignored. -/
def ofBytes (size : Nat) (bytes : List UInt8) : Word size :=
  BitVec.ofNat (8 * size) (ofLittleEndian bytes)

@[simp] theorem length_bytes {size : Nat} (word : Word size) :
    (bytes word).length = size := by
  simp [bytes]

end Word

end ExprMachine
