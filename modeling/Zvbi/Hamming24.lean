import Zvbi.Hamming

/-!
# Hamming 24/18

Three bytes hold 18 data bits. The parity tables yield the syndrome, the error table
a bit to be corrected or the sign bit if the error cannot be corrected.
-/

set_option maxRecDepth 4000

namespace Hamming

/-- `_vbi_hamm24_inv_par[1]`. -/
def vbiHamm24InvPar1 : Vector UInt8 256 := #v[
  0x00, 0x29, 0x2a, 0x03, 0x2b, 0x02, 0x01, 0x28, 0x2c, 0x05, 0x06, 0x2f,
  0x07, 0x2e, 0x2d, 0x04, 0x2d, 0x04, 0x07, 0x2e, 0x06, 0x2f, 0x2c, 0x05,
  0x01, 0x28, 0x2b, 0x02, 0x2a, 0x03, 0x00, 0x29, 0x2e, 0x07, 0x04, 0x2d,
  0x05, 0x2c, 0x2f, 0x06, 0x02, 0x2b, 0x28, 0x01, 0x29, 0x00, 0x03, 0x2a,
  0x03, 0x2a, 0x29, 0x00, 0x28, 0x01, 0x02, 0x2b, 0x2f, 0x06, 0x05, 0x2c,
  0x04, 0x2d, 0x2e, 0x07, 0x2f, 0x06, 0x05, 0x2c, 0x04, 0x2d, 0x2e, 0x07,
  0x03, 0x2a, 0x29, 0x00, 0x28, 0x01, 0x02, 0x2b, 0x02, 0x2b, 0x28, 0x01,
  0x29, 0x00, 0x03, 0x2a, 0x2e, 0x07, 0x04, 0x2d, 0x05, 0x2c, 0x2f, 0x06,
  0x01, 0x28, 0x2b, 0x02, 0x2a, 0x03, 0x00, 0x29, 0x2d, 0x04, 0x07, 0x2e,
  0x06, 0x2f, 0x2c, 0x05, 0x2c, 0x05, 0x06, 0x2f, 0x07, 0x2e, 0x2d, 0x04,
  0x00, 0x29, 0x2a, 0x03, 0x2b, 0x02, 0x01, 0x28, 0x30, 0x19, 0x1a, 0x33,
  0x1b, 0x32, 0x31, 0x18, 0x1c, 0x35, 0x36, 0x1f, 0x37, 0x1e, 0x1d, 0x34,
  0x1d, 0x34, 0x37, 0x1e, 0x36, 0x1f, 0x1c, 0x35, 0x31, 0x18, 0x1b, 0x32,
  0x1a, 0x33, 0x30, 0x19, 0x1e, 0x37, 0x34, 0x1d, 0x35, 0x1c, 0x1f, 0x36,
  0x32, 0x1b, 0x18, 0x31, 0x19, 0x30, 0x33, 0x1a, 0x33, 0x1a, 0x19, 0x30,
  0x18, 0x31, 0x32, 0x1b, 0x1f, 0x36, 0x35, 0x1c, 0x34, 0x1d, 0x1e, 0x37,
  0x1f, 0x36, 0x35, 0x1c, 0x34, 0x1d, 0x1e, 0x37, 0x33, 0x1a, 0x19, 0x30,
  0x18, 0x31, 0x32, 0x1b, 0x32, 0x1b, 0x18, 0x31, 0x19, 0x30, 0x33, 0x1a,
  0x1e, 0x37, 0x34, 0x1d, 0x35, 0x1c, 0x1f, 0x36, 0x31, 0x18, 0x1b, 0x32,
  0x1a, 0x33, 0x30, 0x19, 0x1d, 0x34, 0x37, 0x1e, 0x36, 0x1f, 0x1c, 0x35,
  0x1c, 0x35, 0x36, 0x1f, 0x37, 0x1e, 0x1d, 0x34, 0x30, 0x19, 0x1a, 0x33,
  0x1b, 0x32, 0x31, 0x18]

/-- `_vbi_hamm24_inv_par[2]`. -/
def vbiHamm24InvPar2 : Vector UInt8 256 := #v[
  0x3f, 0x0e, 0x0d, 0x3c, 0x0c, 0x3d, 0x3e, 0x0f, 0x0b, 0x3a, 0x39, 0x08,
  0x38, 0x09, 0x0a, 0x3b, 0x0a, 0x3b, 0x38, 0x09, 0x39, 0x08, 0x0b, 0x3a,
  0x3e, 0x0f, 0x0c, 0x3d, 0x0d, 0x3c, 0x3f, 0x0e, 0x09, 0x38, 0x3b, 0x0a,
  0x3a, 0x0b, 0x08, 0x39, 0x3d, 0x0c, 0x0f, 0x3e, 0x0e, 0x3f, 0x3c, 0x0d,
  0x3c, 0x0d, 0x0e, 0x3f, 0x0f, 0x3e, 0x3d, 0x0c, 0x08, 0x39, 0x3a, 0x0b,
  0x3b, 0x0a, 0x09, 0x38, 0x08, 0x39, 0x3a, 0x0b, 0x3b, 0x0a, 0x09, 0x38,
  0x3c, 0x0d, 0x0e, 0x3f, 0x0f, 0x3e, 0x3d, 0x0c, 0x3d, 0x0c, 0x0f, 0x3e,
  0x0e, 0x3f, 0x3c, 0x0d, 0x09, 0x38, 0x3b, 0x0a, 0x3a, 0x0b, 0x08, 0x39,
  0x3e, 0x0f, 0x0c, 0x3d, 0x0d, 0x3c, 0x3f, 0x0e, 0x0a, 0x3b, 0x38, 0x09,
  0x39, 0x08, 0x0b, 0x3a, 0x0b, 0x3a, 0x39, 0x08, 0x38, 0x09, 0x0a, 0x3b,
  0x3f, 0x0e, 0x0d, 0x3c, 0x0c, 0x3d, 0x3e, 0x0f, 0x1f, 0x2e, 0x2d, 0x1c,
  0x2c, 0x1d, 0x1e, 0x2f, 0x2b, 0x1a, 0x19, 0x28, 0x18, 0x29, 0x2a, 0x1b,
  0x2a, 0x1b, 0x18, 0x29, 0x19, 0x28, 0x2b, 0x1a, 0x1e, 0x2f, 0x2c, 0x1d,
  0x2d, 0x1c, 0x1f, 0x2e, 0x29, 0x18, 0x1b, 0x2a, 0x1a, 0x2b, 0x28, 0x19,
  0x1d, 0x2c, 0x2f, 0x1e, 0x2e, 0x1f, 0x1c, 0x2d, 0x1c, 0x2d, 0x2e, 0x1f,
  0x2f, 0x1e, 0x1d, 0x2c, 0x28, 0x19, 0x1a, 0x2b, 0x1b, 0x2a, 0x29, 0x18,
  0x28, 0x19, 0x1a, 0x2b, 0x1b, 0x2a, 0x29, 0x18, 0x1c, 0x2d, 0x2e, 0x1f,
  0x2f, 0x1e, 0x1d, 0x2c, 0x1d, 0x2c, 0x2f, 0x1e, 0x2e, 0x1f, 0x1c, 0x2d,
  0x29, 0x18, 0x1b, 0x2a, 0x1a, 0x2b, 0x28, 0x19, 0x1e, 0x2f, 0x2c, 0x1d,
  0x2d, 0x1c, 0x1f, 0x2e, 0x2a, 0x1b, 0x18, 0x29, 0x19, 0x28, 0x2b, 0x1a,
  0x2b, 0x1a, 0x19, 0x28, 0x18, 0x29, 0x2a, 0x1b, 0x1f, 0x2e, 0x2d, 0x1c,
  0x2c, 0x1d, 0x1e, 0x2f]

def vbiHamm24InvD1D4 : Vector UInt8 64 := #v[
  0x00, 0x01, 0x00, 0x01, 0x02, 0x03, 0x02, 0x03, 0x04, 0x05, 0x04, 0x05,
  0x06, 0x07, 0x06, 0x07, 0x08, 0x09, 0x08, 0x09, 0x0a, 0x0b, 0x0a, 0x0b,
  0x0c, 0x0d, 0x0c, 0x0d, 0x0e, 0x0f, 0x0e, 0x0f, 0x00, 0x01, 0x00, 0x01,
  0x02, 0x03, 0x02, 0x03, 0x04, 0x05, 0x04, 0x05, 0x06, 0x07, 0x06, 0x07,
  0x08, 0x09, 0x08, 0x09, 0x0a, 0x0b, 0x0a, 0x0b, 0x0c, 0x0d, 0x0c, 0x0d,
  0x0e, 0x0f, 0x0e, 0x0f]

def vbiHamm24InvErr : Vector (BitVec 32) 64 := #v[
  0x00000000, 0x80000000, 0x80000000, 0x80000000, 0x80000000, 0x80000000,
  0x80000000, 0x80000000, 0x80000000, 0x80000000, 0x80000000, 0x80000000,
  0x80000000, 0x80000000, 0x80000000, 0x80000000, 0x80000000, 0x80000000,
  0x80000000, 0x80000000, 0x80000000, 0x80000000, 0x80000000, 0x80000000,
  0x80000000, 0x80000000, 0x80000000, 0x80000000, 0x80000000, 0x80000000,
  0x80000000, 0x80000000, 0x00000000, 0x00000000, 0x00000000, 0x00000001,
  0x00000000, 0x00000002, 0x00000004, 0x00000008, 0x00000000, 0x00000010,
  0x00000020, 0x00000040, 0x00000080, 0x00000100, 0x00000200, 0x00000400,
  0x00000000, 0x00000800, 0x00001000, 0x00002000, 0x00004000, 0x00008000,
  0x00010000, 0x00020000, 0x80000000, 0x80000000, 0x80000000, 0x80000000,
  0x80000000, 0x80000000, 0x80000000, 0x80000000]

/-- The six bits of `ABCDEF`. -/
def syndrome (p0 p1 p2 : UInt8) : UInt8 :=
  vbiHamm24InvPar0.get p0.toFin ^^^ vbiHamm24InvPar1.get p1.toFin ^^^
    vbiHamm24InvPar2.get p2.toFin

/-- `vbi_unham24p()`, the bits of an `int`. -/
def vbiUnham24p (p0 p1 p2 : UInt8) : BitVec 32 :=
  let d1d4 := vbiHamm24InvD1D4.get (Fin.ofNat 64 (p0.toNat >>> 2))
  let d := d1d4.toNat ||| (p1.toNat &&& 0x7f) <<< 4 ||| (p2.toNat &&& 0x7f) <<< 11
  BitVec.ofNat 32 d ^^^ vbiHamm24InvErr.get (Fin.ofNat 64 (syndrome p0 p1 p2).toNat)

end Hamming
