import Rotshield.Basic
import Mathlib.Data.List.Nodup

/-! The array layout: slots, parity disks, and per-disk rdev offsets. -/
namespace Rotshield.DiskArray

/-- Parsed array layout. The maps are the ordered maps of the source, as lists in
key order. -/
structure ArrayConfig where
  /-- Slot and raw rdev path of each data disk. -/
  dataDevs : List (Nat × Path)
  parityP : Option Path
  parityQ : Option Path
  /-- Bytes to add to array-space addresses on a raw rdev. -/
  rdevOffsets : List (Path × Nat)
  slots_sorted : (dataDevs.map Prod.fst).Pairwise (· < ·)

namespace ArrayConfig

def rawOffsetFor (config : ArrayConfig) (devPath : Path) : Nat :=
  (config.rdevOffsets.lookup devPath).getD 0

def dataDev (config : ArrayConfig) (devid : Nat) : Option Path := config.dataDevs.lookup devid

/-- Which slot owns this raw-rdev path; both sides are canonicalized. -/
def slotForRawDev (config : ArrayConfig) (canonicalize : Path → Option Path) (path : Path) :
    Option Nat :=
  let target := (canonicalize path).getD path
  (config.dataDevs.find? fun d => (canonicalize d.2).getD d.2 == target).map Prod.fst

def rawPhys (config : ArrayConfig) (slot arrayPhys : Nat) : Option Nat :=
  (config.dataDev slot).map fun dev => wadd arrayPhys (config.rawOffsetFor dev)

def slots (config : ArrayConfig) : List Nat := config.dataDevs.map Prod.fst

theorem slots_nodup (config : ArrayConfig) : config.slots.Nodup :=
  config.slots_sorted.imp fun h => Nat.ne_of_lt h

theorem dataDev_mem {config : ArrayConfig} {slot : Nat} {path : Path}
    (h : config.dataDev slot = some path) : (slot, path) ∈ config.dataDevs := by
  obtain ⟨before, after, heq, -⟩ := List.lookup_eq_some_iff.mp h
  rw [heq]
  exact List.mem_append_right before List.mem_cons_self

/-- A slot has one disk. -/
theorem slot_inj {config : ArrayConfig} {d e : Nat × Path} (hd : d ∈ config.dataDevs)
    (he : e ∈ config.dataDevs) (h : d.1 = e.1) : d = e :=
  List.inj_on_of_nodup_map config.slots_nodup hd he h

end ArrayConfig
end Rotshield.DiskArray
