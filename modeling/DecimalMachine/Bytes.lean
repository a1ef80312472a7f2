/-
# Bytes and 16-bit words

A 16-bit word is two bytes, the low one first. A negative number takes the place of its remainder
modulo 65536.
-/

namespace DecimalMachine
namespace Bytes

/-- Number of values of two bytes. -/
def halfModulus : Nat := 65536

/-- The two bytes of a number, the low one first. Only the remainder modulo 65536 is kept. -/
def half (value : Nat) : List UInt8 := [UInt8.ofNat (value % 256), UInt8.ofNat (value / 256 % 256)]

/-- The number that two bytes write, the low one first. -/
def ofHalf (low high : UInt8) : Nat := low.toNat + 256 * high.toNat

/-- The number from 0 to 65535 that stands for a signed one. -/
def unsigned (value : Int) : Nat := (value % (halfModulus : Int)).toNat

/-- The signed number from -32768 to 32767 that a number from 0 to 65535 stands for. -/
def signed (value : Nat) : Int := if value < 32768 then value else value - (halfModulus : Int)

/-- Every full pair of bytes as a number, in order; a last single byte is left over. -/
def halves : List UInt8 → List Nat
  | low :: high :: rest => ofHalf low high :: halves rest
  | _ => []

/-- Two bytes write a number of 16 bits. -/
theorem ofHalf_lt (low high : UInt8) : ofHalf low high < halfModulus := by
  have := low.toNat_lt
  have := high.toNat_lt
  unfold ofHalf halfModulus
  omega

/-- A number gives back the two bytes that it was read from. -/
theorem half_ofHalf (low high : UInt8) : half (ofHalf low high) = [low, high] := by
  have hl := low.toNat_lt
  have hh := high.toNat_lt
  unfold half ofHalf
  rw [show (low.toNat + 256 * high.toNat) % 256 = low.toNat by omega,
    show (low.toNat + 256 * high.toNat) / 256 % 256 = high.toNat by omega]
  simp

/-- Two bytes give back the number they were made from. -/
theorem ofHalf_half {value : Nat} (h : value < halfModulus) :
    ∃ low high, half value = [low, high] ∧ ofHalf low high = value := by
  refine ⟨_, _, rfl, ?_⟩
  unfold ofHalf
  unfold halfModulus at h
  rw [UInt8.toNat_ofNat', UInt8.toNat_ofNat']
  omega

/-- What stands for a signed number has 16 bits. -/
theorem unsigned_lt (value : Int) : unsigned value < halfModulus := by
  unfold unsigned halfModulus
  omega

/-- A signed number of 16 bits comes back from what stands for it. -/
theorem signed_unsigned {value : Int} (h : -32768 ≤ value ∧ value ≤ 32767) :
    signed (unsigned value) = value := by
  unfold signed unsigned halfModulus
  split <;> omega

/-- A number of 16 bits comes back from the signed number that it stands for. -/
theorem unsigned_signed {value : Nat} (h : value < halfModulus) :
    unsigned (signed value) = value := by
  unfold signed unsigned
  unfold halfModulus at *
  split <;> omega

end Bytes
end DecimalMachine
