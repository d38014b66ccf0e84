import Rotshield.Btrfs.HealthyTree

/-! The extent search on a healthy EXTENT_TREE. -/
namespace Rotshield.Btrfs
open Lib (Lands)

def IsExtent (k : Key) : Prop := k.ty = KeyType.extentItem

/-- The range of an EXTENT_ITEM is in its key. -/
def ExtentCovers (k : Key) (x : Nat) : Prop :=
  IsExtent k ∧ Covers k.objectid.toNat k.offset.toNat x

/-- A healthy EXTENT_TREE: extents are non-empty, do not wrap, and share no address. -/
structure ExtentTree (reader : FsReader Exec) (chunkMap : ChunkMap) (root : UInt64) extends
    HealthyTree reader chunkMap root where
  nonempty : ∀ e ∈ toHealthyTree.entries, IsExtent e.1 → 0 < e.1.offset.toNat
  no_wrap : ∀ e ∈ toHealthyTree.entries, IsExtent e.1 →
    e.1.objectid.toNat + e.1.offset.toNat < 2 ^ 64
  disjoint : toHealthyTree.entries.Pairwise fun a b =>
    ∀ x, ExtentCovers a.1 x → ¬ExtentCovers b.1 x

theorem extent_le_target {k : Key} {logical : UInt64} (hext : IsExtent k) :
    k ≤ extentTarget logical ↔ k.objectid.toNat ≤ logical.toNat := by
  have hoffset := k.offset.toNat_lt
  rw [Key.le_def]
  unfold Key.code extentTarget
  rw [hext]
  change (k.objectid.toNat * 2 ^ 8 + 168) * 2 ^ 64 + k.offset.toNat ≤
    (logical.toNat * 2 ^ 8 + 168) * 2 ^ 64 + (2 ^ 64 - 1) ↔ _
  omega

theorem Key.objectid_le {a b : Key} (h : a ≤ b) : a.objectid.toNat ≤ b.objectid.toNat := by
  have ha := a.ty.toNat_lt
  have hb := b.ty.toNat_lt
  have ha' := a.offset.toNat_lt
  have hb' := b.offset.toNat_lt
  rw [Key.le_def] at h
  unfold Key.code at h
  omega

/-- The entry is the owner of the address, with checksums. -/
def Owner (logical : UInt64) (e : Key × Bytes) : Prop :=
  ExtentCovers e.1 logical.toNat ∧ flagsNodatasum e.2 = .ok false

namespace ExtentTree
variable {reader : FsReader Exec} {chunkMap : ChunkMap} {root : UInt64}
  (t : ExtentTree reader chunkMap root) {leaf : Leaf} {logical : UInt64}

/-- The comparison of the code is the one without wrapping. -/
theorem lt_end_iff {e : Key × Bytes} (he : e ∈ t.entries) (hext : IsExtent e.1) :
    logical < e.1.objectid + e.1.offset ↔
      logical.toNat < e.1.objectid.toNat + e.1.offset.toNat := by
  rw [UInt64.lt_iff_toNat_lt, UInt64.toNat_add, Nat.mod_eq_of_lt (t.no_wrap _ he hext)]

/-- Backwards from the target, the first EXTENT_ITEM is the one that covers it, if any does. -/
theorem eq_covering (hleaf : leaf ∈ t.leaves) {slot found : LeafItemSlot}
    (hslot : slot ∈ leaf.slots) (hcov : ExtentCovers slot.key logical.toNat)
    (hfind : (slotsUpTo (extentTarget logical) leaf).reverse.find?
      (·.key.ty == KeyType.extentItem) = some found) : found.key = slot.key := by
  have hsorted := t.leaf_sorted hleaf
  obtain ⟨post, hsplit, hupTo, hafter⟩ := slotsUpTo_split hsorted (extentTarget logical)
  obtain ⟨hty, after, before, hcut, hnone⟩ := List.find?_eq_some_iff_append.mp hfind
  have hext : IsExtent found.key := beq_iff_eq.mp hty
  have hfound : found ∈ slotsUpTo (extentTarget logical) leaf := by
    rw [← List.mem_reverse, hcut]
    exact List.mem_append_right after List.mem_cons_self
  have hfoundSlot : found ∈ leaf.slots := by
    rw [hsplit]
    exact List.mem_append_left post hfound
  have hle : slot.key ≤ extentTarget logical := (extent_le_target hcov.1).mpr hcov.2.1
  have hin : slot ∈ slotsUpTo (extentTarget logical) leaf := by
    rw [hsplit] at hslot
    rcases List.mem_append.mp hslot with h | h
    · exact h
    · exact absurd hle (not_le_of_gt (hafter slot h))
  -- The found item starts between the covering one and the target.
  have horder : slot.key ≤ found.key := by
    rw [hsplit] at hsorted
    have hrev := List.pairwise_reverse.mpr (List.pairwise_append.mp hsorted).1
    rw [hcut] at hrev
    have hmem : slot ∈ after ++ found :: before := by
      rw [← hcut]
      exact List.mem_reverse.mpr hin
    rcases List.mem_append.mp hmem with h | h
    · have hnot := hnone slot h
      rw [beq_iff_eq.mpr hcov.1] at hnot
      cases hnot
    · rcases List.mem_cons.mp h with rfl | h
      · exact le_refl _
      · exact List.rel_of_pairwise_cons (List.pairwise_append.mp hrev).2.1 h
  obtain ⟨bytes, _, hentry⟩ := t.dataOf_eq hleaf hslot
  obtain ⟨bytes', _, hentry'⟩ := t.dataOf_eq hleaf hfoundSlot
  have hpos := t.nonempty _ (t.mem_entries hleaf hentry') hext
  have hstart := Key.objectid_le horder
  have hstop : found.key.objectid.toNat ≤ logical.toNat :=
    (extent_le_target hext).mp (hupTo found hfound)
  have hcovFound : ExtentCovers found.key found.key.objectid.toNat :=
    ⟨hext, Nat.le_refl _, by dsimp only at hpos; omega⟩
  have hcovSlot : ExtentCovers slot.key found.key.objectid.toNat := by
    obtain ⟨hty, _, hlt⟩ := hcov
    exact ⟨hty, hstart, by omega⟩
  have heq := eq_of_disjoint t.disjoint (t.mem_entries hleaf hentry)
    (t.mem_entries hleaf hentry') hcovSlot hcovFound
  exact (congrArg Prod.fst heq).symm

/-- What the search says about a leaf of a healthy tree. -/
theorem extentInLeaf_spec (logical : UInt64) (hleaf : leaf ∈ t.leaves) :
    ∃ owner, extentInLeaf leaf logical = .ok owner ∧
      (owner = .live ↔ ∃ e ∈ leaf.entries, Owner logical e) := by
  unfold extentInLeaf
  cases hfind : (slotsUpTo (extentTarget logical) leaf).reverse.find?
      (·.key.ty == KeyType.extentItem) with
  | none =>
      refine ⟨.hole, rfl, iff_of_false (by simp) ?_⟩
      rintro ⟨e, he, hcov, _⟩
      obtain ⟨slot, hslot, rfl⟩ := List.mem_map.mp he
      obtain ⟨post, hsplit, _, hafter⟩ :=
        slotsUpTo_split (t.leaf_sorted hleaf) (extentTarget logical)
      rw [hsplit] at hslot
      rcases List.mem_append.mp hslot with h | h
      · have hnot := List.find?_eq_none.mp hfind slot (List.mem_reverse.mpr h)
        exact hnot (beq_iff_eq.mpr hcov.1)
      · exact absurd ((extent_le_target hcov.1).mpr hcov.2.1) (not_le_of_gt (hafter slot h))
  | some found =>
      obtain ⟨post, hsplit, hupTo, _⟩ :=
        slotsUpTo_split (t.leaf_sorted hleaf) (extentTarget logical)
      have hin : found ∈ slotsUpTo (extentTarget logical) leaf :=
        List.mem_reverse.mp (List.mem_of_find?_eq_some hfind)
      have hslot : found ∈ leaf.slots := by
        rw [hsplit]
        exact List.mem_append_left post hin
      have hty := List.find?_some hfind
      have hext : IsExtent found.key := beq_iff_eq.mp hty
      obtain ⟨bytes, hdata, hentry⟩ := t.dataOf_eq hleaf hslot
      have hall := t.mem_entries hleaf hentry
      have hstart : found.key.objectid.toNat ≤ logical.toNat :=
        (extent_le_target hext).mp (hupTo found hin)
      -- Any owner in this leaf has the key that was found, so it is the entry found.
      have howner : ∀ e ∈ leaf.entries, Owner logical e → e = (found.key, bytes) := by
        intro e he hown
        obtain ⟨slot, hmem, rfl⟩ := List.mem_map.mp he
        have hkey := t.eq_covering hleaf hmem hown.1 hfind
        have hcov : ExtentCovers found.key logical.toNat := by
          rw [hkey]
          exact hown.1
        exact eq_of_disjoint t.disjoint (t.mem_entries hleaf he) hall hown.1 hcov
      dsimp only
      by_cases hlt : logical < found.key.objectid + found.key.offset
      · have hcov : ExtentCovers found.key logical.toNat :=
          ⟨hext, hstart, (t.lt_end_iff hall hext).mp hlt⟩
        obtain ⟨flag, hflag⟩ := flagsNodatasum_ok bytes
        rw [if_pos hlt]
        unfold extentIsNodatasum
        rw [hdata]
        simp only [bind, Except.bind, hflag, pure, Except.pure]
        cases flag with
        | true =>
            refine ⟨.noDataSum, rfl, iff_of_false (by simp) ?_⟩
            rintro ⟨e, he, hown⟩
            obtain rfl := howner e he hown
            have hclear := hown.2
            rw [hflag] at hclear
            cases hclear
        | false => exact ⟨.live, rfl, iff_of_true rfl ⟨_, hentry, hcov, hflag⟩⟩
      · rw [if_neg hlt]
        refine ⟨.hole, rfl, iff_of_false (by simp) ?_⟩
        rintro ⟨e, he, hown⟩
        obtain rfl := howner e he hown
        exact hlt ((t.lt_end_iff hall hext).mpr hown.1.2.2)

/-- The extent search on a healthy tree finds an owner exactly in the leaf it lands in. -/
theorem extentCovers_spec (logical : UInt64) :
    ∃ owner, extentCovers reader chunkMap root logical = .ok owner ∧ owner ≠ .unreadable ∧
      (owner = .live ↔
        ∃ e ∈ t.entries, Owner logical e ∧ t.InLastLeaf (extentTarget logical) e) := by
  rw [extentCovers_eq]
  rcases t.search (extentTarget logical) with ⟨hfound, hall⟩ | ⟨leaf, pre, post, hfound, hlands⟩
  · rw [hfound]
    refine ⟨.hole, rfl, by simp, iff_of_false (by simp) ?_⟩
    rintro ⟨e, he, hown, _⟩
    exact absurd ((extent_le_target hown.1.1).mpr hown.1.2.1) (not_le_of_gt (hall e he))
  · have hleaf := t.leaf_mem hlands
    obtain ⟨owner, howner, hlive⟩ := t.extentInLeaf_spec logical hleaf
    rw [hfound]
    simp only [Except.bind, liftExec_exec]
    refine ⟨owner, howner, ?_, ?_⟩
    · rintro rfl
      exact extentInLeaf_ne_unreadable leaf logical howner
    · rw [hlive]
      constructor
      · rintro ⟨e, he, hown⟩
        exact ⟨e, t.mem_entries hleaf he, hown, leaf, pre, post, hlands, he⟩
      · rintro ⟨e, he, hown, leaf', pre', post', hlands', hin⟩
        have hsome : ∃ k ∈ t.leaves.flatMap Leaf.keys, k ≤ extentTarget logical := by
          refine ⟨e.1, ?_, (extent_le_target hown.1.1).mpr hown.1.2.1⟩
          rw [t.keys_eq]
          exact List.mem_map_of_mem he
        rw [hlands.unique hlands' hsome]
        exact ⟨e, hin, hown⟩

end ExtentTree

end Rotshield.Btrfs
