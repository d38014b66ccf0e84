import Rotshield.Basic

/-! Little-endian reads; a read past the end of the buffer panics. -/
namespace Rotshield.Btrfs

/-- `buf[pos .. pos + n]`. -/
def slice (buf : Bytes) (pos n : Nat) : Exec Bytes :=
  if pos + n ≤ buf.length then .ok ((buf.drop pos).take n) else .error .panic

def leNat : Bytes → Nat
  | [] => 0
  | b :: rest => b.toNat + 256 * leNat rest

def byteAt (buf : Bytes) (pos : Nat) : Exec UInt8 := do
  let b ← slice buf pos 1
  return UInt8.ofNat (leNat b)

def leU16 (buf : Bytes) (pos : Nat) : Exec UInt16 := do
  let b ← slice buf pos 2
  return UInt16.ofNat (leNat b)

def leU32 (buf : Bytes) (pos : Nat) : Exec UInt32 := do
  let b ← slice buf pos 4
  return UInt32.ofNat (leNat b)

def leU64 (buf : Bytes) (pos : Nat) : Exec UInt64 := do
  let b ← slice buf pos 8
  return UInt64.ofNat (leNat b)

/-- The `n` low bytes of a number, lowest first. -/
def toLe : Nat → Nat → Bytes
  | 0, _ => []
  | n + 1, v => UInt8.ofNat v :: toLe n (v / 256)

end Rotshield.Btrfs
