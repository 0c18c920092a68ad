import DumpImport.Text.Utf8

/-!
The 32-bit cyclic redundancy check of polynomial `0x04C11DB7`, bits reversed.
-/
namespace DumpImport.Gzip

def crcBit (c : UInt32) : UInt32 := if c % 2 = 1 then (c >>> 1) ^^^ 0xEDB88320 else c >>> 1

def crcBits : Nat → UInt32 → UInt32
  | 0, c => c
  | n + 1, c => crcBits n (crcBit c)

def crcTable : Array UInt32 := ((List.range 256).map fun n => crcBits 8 (UInt32.ofNat n)).toArray

def crcStep (c : UInt32) (b : UInt8) : UInt32 :=
  crcTable.getD ((c ^^^ b.toUInt32) % 256).toNat 0 ^^^ (c >>> 8)

def crc32 (bs : Bytes) : UInt32 := bs.foldl crcStep 0xFFFFFFFF ^^^ 0xFFFFFFFF

example : crc32 (Bytes.ofText "123456789") = 0xCBF43926 := by decide +kernel

end DumpImport.Gzip
