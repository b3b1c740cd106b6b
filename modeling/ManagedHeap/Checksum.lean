import ManagedHeap.Bytes.Transducer

/-!
# CRC-8

The checksum with the polynomial `x ^ 8 + x ^ 2 + x + 1`: it starts at 0,
takes the bits of each byte from the most significant one down, and is not
changed at the end.
-/

namespace ManagedHeap.Checksum

/-- The polynomial without its leading term. -/
def polynomial : UInt8 := 0x07

/-- Moves the remainder up by one place, and subtracts the polynomial when the
top bit leaves. -/
def shift (remainder : UInt8) : UInt8 :=
  if remainder &&& 0x80 = 0 then
    remainder <<< 1
  else
    (remainder <<< 1) ^^^ polynomial

/-- Eight shifts, one for each bit of a byte. -/
def shiftByte (remainder : UInt8) : UInt8 :=
  shift (shift (shift (shift (shift (shift (shift (shift remainder)))))))

def step (remainder byte : UInt8) : UInt8 :=
  shiftByte (remainder ^^^ byte)

def crc8 (bytes : List UInt8) : UInt8 :=
  bytes.foldl step 0

/-- The checksum of a byte sequence. -/
def crc8Bytes (bytes : Bytes) : UInt8 :=
  bytes.foldl step 0

theorem crc8Bytes_eq (bytes : Bytes) : crc8Bytes bytes = crc8 bytes.toList :=
  Bytes.foldl_eq step 0 bytes

end ManagedHeap.Checksum
