import ExprMachine.Word
import Mathlib.Algebra.Group.Nat.Defs

/-! # Words and their bytes

A word of any size and the list of its bytes determine each other. -/

namespace ExprMachine

theorem ofLittleEndian_lt (bytes : List UInt8) :
    ofLittleEndian bytes < 256 ^ bytes.length := by
  induction bytes with
  | nil => simp [ofLittleEndian]
  | cons byte rest hypothesis =>
      have bound := byte.toNat_lt
      simp only [ofLittleEndian, List.length_cons, Nat.pow_succ]
      omega

theorem ofLittleEndian_littleEndian (size value : Nat) :
    ofLittleEndian (littleEndian size value) = value % 256 ^ size := by
  induction size generalizing value with
  | zero => simp [littleEndian, ofLittleEndian, Nat.mod_one]
  | succ size hypothesis =>
      rw [Nat.pow_succ, Nat.mul_comm, Nat.mod_mul]
      simp [littleEndian, ofLittleEndian, hypothesis]

theorem littleEndian_ofLittleEndian (bytes : List UInt8) :
    littleEndian bytes.length (ofLittleEndian bytes) = bytes := by
  induction bytes with
  | nil => rfl
  | cons byte rest hypothesis =>
      have bound := byte.toNat_lt
      have low : UInt8.ofNat (byte.toNat + 256 * ofLittleEndian rest) = byte := by
        apply UInt8.toNat_inj.mp
        simp only [UInt8.toNat_ofNat']
        omega
      have high :
          (byte.toNat + 256 * ofLittleEndian rest) / 256 = ofLittleEndian rest := by
        omega
      simp only [List.length_cons, littleEndian, ofLittleEndian, low, high, hypothesis]

namespace Word

private theorem two_pow_eight_mul (size : Nat) : 2 ^ (8 * size) = 256 ^ size := by
  rw [Nat.pow_mul]

@[simp] theorem ofBytes_bytes {size : Nat} (word : Word size) :
    ofBytes size (bytes word) = word := by
  apply BitVec.eq_of_toNat_eq
  have bound := word.isLt
  rw [two_pow_eight_mul] at bound
  simp [ofBytes, bytes, ofLittleEndian_littleEndian,
    Nat.mod_eq_of_lt bound]

theorem toNat_ofBytes {size : Nat} {list : List UInt8} (length : list.length = size) :
    (ofBytes size list).toNat = ofLittleEndian list := by
  have bound := ofLittleEndian_lt list
  rw [length, ← two_pow_eight_mul] at bound
  rw [ofBytes, BitVec.toNat_ofNat, Nat.mod_eq_of_lt bound]

theorem bytes_ofBytes {size : Nat} {list : List UInt8} (length : list.length = size) :
    bytes (ofBytes size list) = list := by
  rw [bytes, toNat_ofBytes length, ← length, littleEndian_ofLittleEndian]

end Word

end ExprMachine
