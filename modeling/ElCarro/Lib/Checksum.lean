import Mathlib.Data.UInt

/-! # Checksums of byte sequences

CRC-32 with the Castagnoli polynomial, computed over the reflected bits, and the
base64 text of its four bytes. A checksum can be continued over the next chunk, so
reading a sequence in pieces gives the checksum of the whole.
-/

namespace Checksum

abbrev Bytes := List UInt8

def castagnoli : UInt32 := 0x82F63B78

/-- Divide out one bit. -/
def shift (crc : UInt32) : UInt32 :=
  if crc &&& 1 = 1 then (crc >>> 1) ^^^ castagnoli else crc >>> 1

def crcByte (crc : UInt32) (b : UInt8) : UInt32 := shift^[8] (crc ^^^ b.toUInt32)

/-- The checksum of more bytes, from the checksum of those before them. -/
def update (crc : UInt32) (bs : Bytes) : UInt32 := ~~~ bs.foldl crcByte (~~~ crc)

def crc32c (bs : Bytes) : UInt32 := update 0 bs

@[simp] theorem crc32c_nil : crc32c [] = 0 := by decide

theorem update_update (crc : UInt32) (bs cs : Bytes) :
    update (update crc bs) cs = update crc (bs ++ cs) := by
  simp [update, List.foldl_append]

/-- The bytes of a word, the highest first. -/
def bigEndian (crc : UInt32) : Bytes :=
  [(crc >>> 24).toUInt8, (crc >>> 16).toUInt8, (crc >>> 8).toUInt8, crc.toUInt8]

def alphabet : List Char :=
  "ABCDEFGHIJKLMNOPQRSTUVWXYZabcdefghijklmnopqrstuvwxyz0123456789+/".toList

def sextet (n : Nat) : Char := alphabet.getD (n % 64) '='

/-- Groups of three bytes become four letters; the last group is padded. -/
def base64 : Bytes → List Char
  | [] => []
  | [a] =>
    let n := a.toNat * 2 ^ 16
    [sextet (n / 2 ^ 18), sextet (n / 2 ^ 12), '=', '=']
  | [a, b] =>
    let n := a.toNat * 2 ^ 16 + b.toNat * 2 ^ 8
    [sextet (n / 2 ^ 18), sextet (n / 2 ^ 12), sextet (n / 2 ^ 6), '=']
  | a :: b :: c :: rest =>
    let n := a.toNat * 2 ^ 16 + b.toNat * 2 ^ 8 + c.toNat
    sextet (n / 2 ^ 18) :: sextet (n / 2 ^ 12) :: sextet (n / 2 ^ 6) :: sextet n :: base64 rest

/-- The text of a checksum. -/
def encode (crc : UInt32) : String := String.ofList (base64 (bigEndian crc))

example : encode (crc32c "123456789".toUTF8.toList) = "4waSgw==" := by decide +kernel

end Checksum
