import Rotshield.Btrfs.HealthyTree

/-! The csum search on a healthy CSUM_TREE. -/
namespace Rotshield.Btrfs
open Lib (Lands)

/-- How many bytes of data the checksums of a csum item stand for. -/
def csumSpan (strategy : CsumStrategy) (data : Bytes) : Nat :=
  data.length / strategy.hashLen * strategy.sectorSize.toNat

def CsumCovers (strategy : CsumStrategy) (e : Key × Bytes) (x : Nat) : Prop :=
  Covers e.1.offset.toNat (csumSpan strategy e.2) x

/-- The checksum a csum item has for a sector. -/
def hashAt (strategy : CsumStrategy) (e : Key × Bytes) (sector : UInt64) : Bytes :=
  (e.2.drop ((sector.toNat - e.1.offset.toNat) / strategy.sectorSize.toNat *
    strategy.hashLen)).take strategy.hashLen

/-- The entry holds this checksum for the sector. -/
def HoldsHash (strategy : CsumStrategy) (sector : UInt64) (stored : Bytes) (e : Key × Bytes) :
    Prop :=
  CsumCovers strategy e sector.toNat ∧ hashAt strategy e sector = stored

/-- The end of the item, as the `u64` the code computes, is above the sector. -/
def EndAbove (strategy : CsumStrategy) (sector : UInt64) (e : Key × Bytes) : Prop :=
  sector.toNat < (e.1.offset.toNat + csumSpan strategy e.2) % 2 ^ 64

/-- A healthy CSUM_TREE: aligned items with a whole number of checksums, sharing no sector. -/
structure CsumTree (reader : FsReader Exec) (chunkMap : ChunkMap) (strategy : CsumStrategy)
    (root : UInt64) extends HealthyTree reader chunkMap root where
  isCsum : ∀ e ∈ toHealthyTree.entries,
    e.1.objectid = ObjectId.extentCsum ∧ e.1.ty = KeyType.extentCsum
  aligned : ∀ e ∈ toHealthyTree.entries, strategy.sectorSize.toNat ∣ e.1.offset.toNat
  whole : ∀ e ∈ toHealthyTree.entries, strategy.hashLen ∣ e.2.length
  disjoint : toHealthyTree.entries.Pairwise fun a b =>
    ∀ x, CsumCovers strategy a x → ¬CsumCovers strategy b x

theorem endAbove_of_lt {strategy : CsumStrategy} {sector : UInt64} {e : Key × Bytes}
    (hcov : CsumCovers strategy e sector.toNat)
    (hend : e.1.offset.toNat + csumSpan strategy e.2 < 2 ^ 64) : EndAbove strategy sector e := by
  unfold EndAbove
  rw [Nat.mod_eq_of_lt hend]
  exact hcov.2

section CsumItem
variable {strategy : CsumStrategy} {sector : UInt64} {e : Key × Bytes}

theorem runEnd_toNat :
    (e.1.offset + UInt64.ofNat (e.2.length / strategy.hashLen) * strategy.sectorSize).toNat =
      (e.1.offset.toNat + csumSpan strategy e.2) % 2 ^ 64 := by
  rw [UInt64.toNat_add, UInt64.toNat_mul, UInt64.toNat_ofNat', csumSpan, Nat.add_mod_mod,
    Nat.add_mod, Nat.mod_mul_mod, ← Nat.add_mod]

theorem hashAt_inside (hwhole : strategy.hashLen ∣ e.2.length)
    (hcov : CsumCovers strategy e sector.toNat) :
    (sector.toNat - e.1.offset.toNat) / strategy.sectorSize.toNat * strategy.hashLen +
      strategy.hashLen ≤ e.2.length := by
  obtain ⟨count, hcount⟩ := hwhole
  have hsize : 0 < strategy.sectorSize.toNat := UInt64.lt_iff_toNat_lt.mp strategy.sectorSize_pos
  have hlen := strategy.hashLen_pos
  obtain ⟨hstart, hend⟩ := hcov
  have hspan : csumSpan strategy e.2 = count * strategy.sectorSize.toNat := by
    rw [csumSpan, hcount, Nat.mul_div_cancel_left _ hlen]
  have hidx : (sector.toNat - e.1.offset.toNat) / strategy.sectorSize.toNat < count := by
    rw [Nat.div_lt_iff_lt_mul hsize, ← hspan]
    omega
  calc (sector.toNat - e.1.offset.toNat) / strategy.sectorSize.toNat * strategy.hashLen +
        strategy.hashLen
      = ((sector.toNat - e.1.offset.toNat) / strategy.sectorSize.toNat + 1) * strategy.hashLen := by
        rw [Nat.succ_mul]
    _ ≤ count * strategy.hashLen := Nat.mul_le_mul_right _ hidx
    _ = e.2.length := by rw [hcount, Nat.mul_comm]

/-- What the search says about one csum item that starts at or before the sector. -/
theorem csumInItem_spec (hwhole : strategy.hashLen ∣ e.2.length)
    (hstart : e.1.offset.toNat ≤ sector.toNat) :
    ∃ live, csumInItem e.1.offset e.2 sector strategy.hashLen strategy.sectorSize = .ok live ∧
      ∀ stored, live = .some stored ↔
        HoldsHash strategy sector stored e ∧ EndAbove strategy sector e := by
  have hlen : strategy.hashLen ≠ 0 := Nat.ne_of_gt strategy.hashLen_pos
  have hmod : e.2.length % strategy.hashLen = 0 := Nat.mod_eq_zero_of_dvd hwhole
  unfold csumInItem
  rw [if_neg hlen, if_pos hmod]
  dsimp only
  have hle : e.1.offset ≤ sector := UInt64.le_iff_toNat_le.mpr hstart
  have hlt : sector < e.1.offset +
      UInt64.ofNat (e.2.length / strategy.hashLen) * strategy.sectorSize ↔
      EndAbove strategy sector e := by
    rw [UInt64.lt_iff_toNat_lt, runEnd_toNat]
    rfl
  by_cases habove : EndAbove strategy sector e
  · have hcov : CsumCovers strategy e sector.toNat :=
      ⟨hstart, Nat.lt_of_lt_of_le habove (Nat.mod_le _ _)⟩
    have hidx : ((sector - e.1.offset) / strategy.sectorSize).toNat =
        (sector.toNat - e.1.offset.toNat) / strategy.sectorSize.toNat := by
      rw [UInt64.toNat_div, UInt64.toNat_sub_of_le _ _ hle]
    rw [if_pos ⟨hle, hlt.mpr habove⟩, hidx]
    unfold slice
    rw [if_pos (hashAt_inside hwhole hcov)]
    refine ⟨_, rfl, fun stored => ?_⟩
    rw [CsumLive.some.injEq]
    constructor
    · intro h
      exact ⟨⟨hcov, h⟩, habove⟩
    · intro h
      exact h.1.2
  · rw [if_neg fun h => habove (hlt.mp h.2)]
    refine ⟨.none, rfl, fun stored => iff_of_false (by simp) ?_⟩
    rintro ⟨_, h⟩
    exact habove h

end CsumItem

theorem csum_le_target {k : Key} {sector : UInt64} (hid : k.objectid = ObjectId.extentCsum)
    (hty : k.ty = KeyType.extentCsum) : k ≤ csumTarget sector ↔ k.offset.toNat ≤ sector.toNat := by
  rw [Key.le_def]
  unfold Key.code csumTarget
  rw [hid, hty]
  dsimp only
  omega

namespace CsumTree
variable {reader : FsReader Exec} {chunkMap : ChunkMap} {strategy : CsumStrategy} {root : UInt64}
  (t : CsumTree reader chunkMap strategy root) {sector : UInt64}

/-- What the search says about the leaf it lands in. -/
theorem csumInLeaf_spec {leaf : Leaf} {pre post : List Leaf}
    (hlands : Lands Leaf.keys (csumTarget sector) t.leaves leaf pre post) :
    ∃ live, csumInLeaf leaf sector strategy.hashLen strategy.sectorSize = .ok live ∧
      ∀ stored, live = .some stored ↔ ∃ e ∈ t.entries, HoldsHash strategy sector stored e ∧
        t.IsLast (csumTarget sector) e ∧ EndAbove strategy sector e := by
  unfold csumInLeaf
  cases hlast : (slotsUpTo (csumTarget sector) leaf).getLast? with
  | none =>
      refine ⟨.none, rfl, fun stored => iff_of_false (by simp) ?_⟩
      rintro ⟨e, he, _, hIsLast, _⟩
      have hsome : ∃ k ∈ t.leaves.flatMap Leaf.keys, k ≤ csumTarget sector := by
        refine ⟨e.1, ?_, hIsLast.1⟩
        rw [t.keys_eq]
        exact List.mem_map_of_mem he
      obtain ⟨k, hk, hle⟩ := hlands.inside hsome
      obtain ⟨slot, hslot, rfl⟩ := List.mem_map.mp hk
      obtain ⟨behind, hsplit, _, hafter⟩ :=
        slotsUpTo_split (t.leaf_sorted (t.leaf_mem hlands)) (csumTarget sector)
      rw [List.getLast?_eq_none_iff.mp hlast, List.nil_append] at hsplit
      rw [hsplit] at hslot
      exact absurd hle (not_le_of_gt (hafter slot hslot))
  | some slot =>
      obtain ⟨bytes, hdata, hentry, hIsLast⟩ := t.isLast_of_getLast hlands hlast
      obtain ⟨hid, hty⟩ := t.isCsum _ hentry
      have hstart := (csum_le_target hid hty).mp hIsLast.1
      obtain ⟨live, hlive, hspec⟩ := csumInItem_spec (t.whole _ hentry) hstart
      dsimp only at hty hlive ⊢
      rw [if_pos hty, hdata]
      refine ⟨live, hlive, fun stored => ?_⟩
      rw [hspec]
      constructor
      · rintro ⟨hholds, habove⟩
        exact ⟨_, hentry, hholds, hIsLast, habove⟩
      · rintro ⟨e, _, hholds, hlast', habove⟩
        obtain rfl := hlast'.unique hIsLast
        exact ⟨hholds, habove⟩

/-- The csum search on a healthy tree finds the last item at or before the sector. -/
theorem csumAt_spec {logical : UInt64} (hsector : sectorOf strategy.sectorSize logical = sector) :
    ∃ live, csumAt reader chunkMap root logical strategy.hashLen strategy.sectorSize = .ok live ∧
      live ≠ .unreadable ∧
      ∀ stored, live = .some stored ↔ ∃ e ∈ t.entries, HoldsHash strategy sector stored e ∧
        t.IsLast (csumTarget sector) e ∧ EndAbove strategy sector e := by
  rw [csumAt_eq (sectorSize_ne_zero strategy), hsector]
  rcases t.search (csumTarget sector) with ⟨hfound, hall⟩ | ⟨leaf, pre, post, hfound, hlands⟩
  · rw [hfound]
    refine ⟨.none, rfl, by simp, fun stored => iff_of_false (by simp) ?_⟩
    rintro ⟨e, he, _, hlast, _⟩
    exact absurd hlast.1 (not_le_of_gt (hall e he))
  · obtain ⟨live, hlive, hspec⟩ := t.csumInLeaf_spec hlands
    rw [hfound]
    simp only [Except.bind, liftExec_exec]
    refine ⟨live, hlive, ?_, hspec⟩
    rintro rfl
    exact csumInLeaf_ne_unreadable _ _ _ _ hlive

end CsumTree

end Rotshield.Btrfs
