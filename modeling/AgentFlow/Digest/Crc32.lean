/-!
# CRC-32

The cyclic redundancy check of the reflected polynomial `0xEDB88320`, one bit at a time: each byte
enters with its lowest bit first, the register starts with all bits set and is complemented at the
end.
-/

namespace AgentFlow

namespace Crc32

/-- The polynomial, lowest power at the highest place. -/
def polynomial : BitVec 32 := 0xEDB88320#32

/-- Divides the register by one more power. -/
def shift (register : BitVec 32) : BitVec 32 :=
  if register.getLsbD 0 then (register >>> 1) ^^^ polynomial else register >>> 1

/-- Takes one bit of the message into the register. -/
def feedBit (register : BitVec 32) (bit : Bool) : BitVec 32 :=
  shift (if bit then register ^^^ 1#32 else register)

/-- The bits of a byte, lowest first. -/
def bitsOfByte (byte : UInt8) : List Bool := (List.range 8).map fun i ↦ byte.toNat.testBit i

/-- The register after a message, from a given start. -/
def feed (register : BitVec 32) (bytes : List UInt8) : BitVec 32 :=
  (bytes.flatMap bitsOfByte).foldl feedBit register

end Crc32

/-- The check value of a run of bytes. -/
def crc32 (bytes : List UInt8) : BitVec 32 := ~~~(Crc32.feed (BitVec.allOnes 32) bytes)

end AgentFlow
