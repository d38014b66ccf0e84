import Rotshield.Btrfs.Util

/-! Checksum handling: the superblock's checksum type selects a hash. -/
namespace Rotshield.Btrfs

/-- The hash functions of the crates the program links. A parameter. -/
structure HashCrates where
  crc32c : Bytes → UInt32
  xxh64 : Bytes → UInt64
  sha256 : Bytes → Vector UInt8 32
  blake2 : Bytes → Vector UInt8 32

inductive CsumType where
  | crc32c
  | xxhash
  | sha256
  | blake2
  deriving DecidableEq, Repr

namespace CsumType

def ofU16? (v : UInt16) : Option CsumType :=
  if v = 0 then some .crc32c
  else if v = 1 then some .xxhash
  else if v = 2 then some .sha256
  else if v = 3 then some .blake2
  else none

def hashLen : CsumType → Nat
  | .crc32c => 4
  | .xxhash => 8
  | .sha256 => 32
  | .blake2 => 32

/-- The checksum as the byte sequence stored on disk. -/
def digest (crates : HashCrates) (ty : CsumType) (data : Bytes) : Bytes :=
  match ty with
  | .crc32c => toLe 4 (crates.crc32c data).toNat
  | .xxhash => toLe 8 (crates.xxh64 data).toNat
  | .sha256 => (crates.sha256 data).toList
  | .blake2 => (crates.blake2 data).toList

/-- The stored header checksum covers everything after its 32-byte field. -/
def verifyHeader (crates : HashCrates) (ty : CsumType) (nodeBuf : Bytes) : Bool :=
  if nodeBuf.length ≤ 32 then false
  else nodeBuf.take ty.hashLen == ty.digest crates (nodeBuf.drop 32)

end CsumType

/-- Checksum parameters of a filesystem. A zero sector size is refused at construction. -/
structure CsumStrategy where
  crates : HashCrates
  csumType : CsumType
  sectorSize : UInt64
  sectorSize_pos : 0 < sectorSize

namespace CsumStrategy

def hashLen (s : CsumStrategy) : Nat := s.csumType.hashLen

theorem hashLen_pos (s : CsumStrategy) : 0 < s.hashLen := by
  unfold hashLen
  cases s.csumType <;> decide

def fromSuperblock (crates : HashCrates) (csumType : UInt16) (sectorSize : UInt32) :
    Except IoError CsumStrategy :=
  match CsumType.ofU16? csumType with
  | none => .error .invalidData
  | some ty =>
      if h : 0 < sectorSize.toUInt64 then
        .ok { crates, csumType := ty, sectorSize := sectorSize.toUInt64, sectorSize_pos := h }
      else .error .invalidData

def compute (s : CsumStrategy) (data : Bytes) : Bytes := s.csumType.digest s.crates data

def verifyNodeHeader (s : CsumStrategy) (nodeBuf : Bytes) : Bool :=
  s.csumType.verifyHeader s.crates nodeBuf

end CsumStrategy
end Rotshield.Btrfs
