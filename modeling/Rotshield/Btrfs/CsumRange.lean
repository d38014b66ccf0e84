import Rotshield.Btrfs.Craft
import Rotshield.Btrfs.Csum
import Rotshield.Btrfs.CsumTree
import Rotshield.Btrfs.LiveTree

/-! The CSUM_TREE recorded at open, nodes of which are rewritten before a range of it is walked. -/
namespace Rotshield.Btrfs
open Lib (HeadsTree Leads)

/-- A csum item with a checksum for the sector. -/
def ItemHolds (strategy : CsumStrategy) (e : Key × Bytes) (sector : UInt64) : Prop :=
  e.1 = csumKey e.1.offset ∧ ∃ i < e.2.length / strategy.hashLen,
    sector.toNat = e.1.offset.toNat + i * strategy.sectorSize.toNat

/-- A failure other than a disagreement of copies has been counted. -/
def CsumTallies.Reported (t : CsumTallies) : Prop :=
  0 < t.staleBranches.count ∨ 0 < t.metadataErrors.count ∨ 0 < t.metadataReadErrors.count

theorem leafEntries_ok {strategy : CsumStrategy} {lo hi : UInt64} {leaf : Leaf}
    {found : List CsumEntry} (h : leafEntries strategy lo hi leaf = .ok found) {slot : LeafItemSlot}
    (hslot : slot ∈ leaf.slots) (hty : slot.key.ty = KeyType.extentCsum) {data : Bytes}
    (hdata : leaf.dataOf slot = .ok data) :
    ∀ e ∈ itemEntries strategy lo hi slot.key.offset data, e ∈ found := by
  have hforall : ∀ (slots : List LeafItemSlot) (parts : List (List CsumEntry)),
      slots.mapM (fun slot => (do
        return itemEntries strategy lo hi slot.key.offset (← leaf.dataOf slot) : Exec _)) = .ok parts →
      slot ∈ slots → itemEntries strategy lo hi slot.key.offset data ∈ parts := by
    intro slots
    induction slots with
    | nil => exact fun _ _ hmem => nomatch hmem
    | cons x slots ih =>
        intro parts hmap hmem
        rw [List.mapM_cons] at hmap
        cases hx : leaf.dataOf x with
        | error e => rw [hx] at hmap; cases hmap
        | ok bytes =>
            rw [hx] at hmap
            cases hrest : slots.mapM (fun slot => (do
                return itemEntries strategy lo hi slot.key.offset (← leaf.dataOf slot) : Exec _)) with
            | error e =>
                simp only [bind, Except.bind, pure, Except.pure] at hmap hrest
                rw [hrest] at hmap
                cases hmap
            | ok parts' =>
                have hparts := ih parts' hrest
                simp only [bind, Except.bind, pure, Except.pure] at hmap hrest
                rw [hrest] at hmap
                cases hmap
                rcases List.mem_cons.mp hmem with rfl | hmem
                · rw [hdata] at hx
                  cases hx
                  exact List.mem_cons_self
                · exact List.mem_cons_of_mem _ (hparts hmem)
  intro e he
  unfold leafEntries at h
  cases hmap : (leaf.slots.filter (·.key.ty == KeyType.extentCsum)).mapM (fun slot => (do
      return itemEntries strategy lo hi slot.key.offset (← leaf.dataOf slot) : Exec _)) with
  | error e => rw [hmap] at h; cases h
  | ok parts =>
      rw [hmap] at h
      cases h
      have hfilter : slot ∈ leaf.slots.filter (·.key.ty == KeyType.extentCsum) :=
        List.mem_filter.mpr ⟨hslot, beq_iff_eq.mpr hty⟩
      exact List.mem_flatten.mpr ⟨_, hforall _ parts hmap hfilter, he⟩

section Item
variable {strategy : CsumStrategy} {e : Key × Bytes} {sector lo hi : UInt64}

theorem csumSpan_ge {i : Nat} (hi : i < e.2.length / strategy.hashLen) :
    i * strategy.sectorSize.toNat + strategy.sectorSize.toNat ≤ csumSpan strategy e.2 := by
  have h := Nat.mul_le_mul_right strategy.sectorSize.toNat hi
  rw [Nat.succ_mul] at h
  exact h

/-- An item that does not reach the top of the address space gives each sector in the range. -/
theorem itemEntries_mem (hend : e.1.offset.toNat + csumSpan strategy e.2 < 2 ^ 64)
    (hholds : ItemHolds strategy e sector) (hlo : lo ≤ sector) (hhi : sector < hi) :
    ∃ entry ∈ itemEntries strategy lo hi e.1.offset e.2, entry.logical = sector := by
  obtain ⟨_, i, hi', hsector⟩ := hholds
  have hsize : 0 < strategy.sectorSize.toNat := UInt64.lt_iff_toNat_lt.mp strategy.sectorSize_pos
  have hspan := csumSpan_ge hi'
  have hend' : (e.1.offset + UInt64.ofNat (e.2.length / strategy.hashLen) *
      strategy.sectorSize).toNat = e.1.offset.toNat + csumSpan strategy e.2 := by
    rw [runEnd_toNat, Nat.mod_eq_of_lt hend]
  have hat : e.1.offset + UInt64.ofNat i * strategy.sectorSize = sector := by
    apply UInt64.toNat_inj.mp
    rw [UInt64.toNat_add, UInt64.toNat_mul, UInt64.toNat_ofNat', Nat.mod_mul_mod,
      Nat.add_mod_mod, hsector]
    exact Nat.mod_eq_of_lt (by omega)
  have hopen : ¬(e.1.offset + UInt64.ofNat (e.2.length / strategy.hashLen) * strategy.sectorSize ≤ lo
      ∨ hi ≤ e.1.offset) := by
    rw [UInt64.le_iff_toNat_le, UInt64.le_iff_toNat_le, hend']
    rw [UInt64.le_iff_toNat_le] at hlo
    rw [UInt64.lt_iff_toNat_lt] at hhi
    omega
  unfold itemEntries
  dsimp only
  rw [if_neg hopen]
  refine ⟨⟨sector, (e.2.drop (i * strategy.hashLen)).take strategy.hashLen⟩, ?_, rfl⟩
  apply List.mem_filterMap.mpr
  refine ⟨i, List.mem_range.mpr hi', ?_⟩
  have hinside : ¬(sector < lo ∨ hi ≤ sector) := by
    rw [UInt64.lt_iff_toNat_lt, UInt64.le_iff_toNat_le]
    rw [UInt64.le_iff_toNat_le] at hlo
    rw [UInt64.lt_iff_toNat_lt] at hhi
    omega
  rw [hat, if_neg hinside]

theorem maxItemSpan_toNat {nodeSize : Nat} (hnode : nodeSize < 2 ^ 32)
    (hsector : strategy.sectorSize.toNat < 2 ^ 32) :
    (maxItemSpan nodeSize strategy).toNat =
      nodeSize / strategy.hashLen * strategy.sectorSize.toNat := by
  have hlen := hashLen_le strategy
  have hdiv := Nat.div_le_self nodeSize strategy.hashLen
  have hprod : nodeSize / strategy.hashLen * strategy.sectorSize.toNat < 2 ^ 64 :=
    calc nodeSize / strategy.hashLen * strategy.sectorSize.toNat
        ≤ 2 ^ 32 * strategy.sectorSize.toNat := Nat.mul_le_mul_right _ (by omega)
      _ < 2 ^ 32 * 2 ^ 32 := Nat.mul_lt_mul_of_pos_left hsector (by decide)
      _ = 2 ^ 64 := by decide
  have hnode' : (UInt64.ofNat nodeSize).toNat = nodeSize := by
    rw [UInt64.toNat_ofNat', Nat.mod_eq_of_lt (by omega)]
  have hlen' : (UInt64.ofNat strategy.hashLen).toNat = strategy.hashLen := by
    rw [UInt64.toNat_ofNat', Nat.mod_eq_of_lt (by omega)]
  unfold maxItemSpan
  rw [UInt64.toNat_mul, UInt64.toNat_div, hnode', hlen', Nat.mod_eq_of_lt hprod]

theorem csumKey_le {a b : UInt64} : csumKey a ≤ csumKey b ↔ a.toNat ≤ b.toNat := by
  rw [Key.le_def]
  unfold Key.code csumKey
  dsimp only
  omega

theorem csumKey_lt {a b : UInt64} : csumKey a < csumKey b ↔ a.toNat < b.toNat := by
  rw [Key.lt_def]
  unfold Key.code csumKey
  dsimp only
  omega

theorem saturatingSub_toNat (a b : UInt64) : (saturatingSub a b).toNat = a.toNat - b.toNat := by
  unfold saturatingSub
  split
  case isTrue h =>
      rw [UInt64.lt_iff_toNat_lt] at h
      rw [Nat.sub_eq_zero_of_le (Nat.le_of_lt h)]
      rfl
  case isFalse h =>
      rw [UInt64.lt_iff_toNat_lt, Nat.not_lt] at h
      exact UInt64.toNat_sub_of_le _ _ (UInt64.le_iff_toNat_le.mpr h)

/-- No child that may hold the item of a sector in the range is pruned. -/
theorem item_not_pruned {nodeSize : Nat} (hnode : nodeSize < 2 ^ 32)
    (hsize : strategy.sectorSize.toNat < 2 ^ 32) (hfits : e.2.length ≤ nodeSize)
    (hholds : ItemHolds strategy e sector) (hlo : lo ≤ sector) (hhi : sector < hi)
    {childLo : Key} {childHi : Option Key} (hbelow : childLo ≤ e.1) (habove : ∀ h ∈ childHi, e.1 < h) :
    pruned (some (csumKey (saturatingSub lo (maxItemSpan nodeSize strategy)), csumKey hi))
      childLo childHi = false := by
  obtain ⟨hkey, i, hi', hsector⟩ := hholds
  rw [UInt64.le_iff_toNat_le] at hlo
  rw [UInt64.lt_iff_toNat_lt] at hhi
  have hspan := csumSpan_ge hi'
  have hmax : csumSpan strategy e.2 ≤ (maxItemSpan nodeSize strategy).toNat := by
    rw [maxItemSpan_toNat hnode hsize]
    exact Nat.mul_le_mul_right _ (Nat.div_le_div_right hfits)
  have hpos : 0 < strategy.sectorSize.toNat := UInt64.lt_iff_toNat_lt.mp strategy.sectorSize_pos
  apply pruned_eq_false
  · intro h hmem hle
    have hlt := lt_of_lt_of_le (habove h hmem) hle
    rw [hkey, csumKey_lt, saturatingSub_toNat] at hlt
    omega
  · intro hle
    have hle' := le_trans hle hbelow
    rw [hkey, csumKey_le] at hle'
    omega

end Item

section Callbacks
variable {strategy : CsumStrategy} {lo hi : UInt64}

theorem rangeCallbacks_leaf {leaf : Leaf} {s : List CsumEntry × CsumTallies}
    {v : Except IoError Unit × List CsumEntry × CsumTallies}
    (h : (rangeCallbacks strategy lo hi).onLeaf leaf s = .ok v) :
    ∃ found, leafEntries strategy lo hi leaf = .ok found ∧ v = (.ok (), (s.1 ++ found, s.2)) := by
  unfold rangeCallbacks at h
  dsimp only at h
  cases hfound : leafEntries strategy lo hi leaf with
  | error e => rw [hfound] at h; cases h
  | ok found =>
      rw [hfound] at h
      cases h
      exact ⟨found, rfl, rfl⟩

/-- The walk has counted a failure. -/
def Counted (s : List CsumEntry × CsumTallies) : Prop := s.2.Reported

/-- The walk has collected an entry for the sector. -/
def Emitted (sector : UInt64) (s : List CsumEntry × CsumTallies) : Prop :=
  ∃ e ∈ s.1, e.logical = sector

/-- A failure is counted, whatever its kind. -/
theorem rangeCallbacks_failure (kind : Failure) (addr : UInt64)
    (s : List CsumEntry × CsumTallies) :
    Counted ((rangeCallbacks strategy lo hi).onFailure kind addr s) := by
  cases kind with
  | readError => exact .inr (.inr (Tally.report_pos _ _))
  | metadataError => exact .inr (.inl (Tally.report_pos _ _))
  | stale => exact .inl (Tally.report_pos _ _)

theorem counted_keeps : (rangeCallbacks strategy lo hi).Keeps Counted where
  leaf leaf s v hs h := by
    obtain ⟨found, _, rfl⟩ := rangeCallbacks_leaf h
    exact hs
  failure kind addr s _ := rangeCallbacks_failure kind addr s
  mirrorMismatch _ _ hs := hs

theorem emitted_keeps (sector : UInt64) :
    (rangeCallbacks strategy lo hi).Keeps (Emitted sector) where
  leaf leaf s v hs h := by
    obtain ⟨found, _, rfl⟩ := rangeCallbacks_leaf h
    obtain ⟨e, he, hat⟩ := hs
    exact ⟨e, List.mem_append_left _ he, hat⟩
  failure kind addr s hs := by
    cases kind <;> exact hs
  mirrorMismatch _ _ hs := hs

end Callbacks

section Range
variable {p : LazyCsumProvider Exec} {lo hi : UInt64} {out : List CsumEntry × LazyCsumProvider Exec}

/-- A range is a complete walk: what it gives is what the walk has collected. -/
theorem range_ok (hrun : p.range lo hi = .ok out) :
    ∃ entries, walkLeavesImpl p.reader p.chunkMap p.csumRoot
        (some (csumKey (saturatingSub lo (maxItemSpan p.reader.config.nodeSize p.strategy)),
          csumKey hi))
        (rangeCallbacks p.strategy lo hi) ([], p.tallies) =
          .ok (.ok (), (entries, out.2.tallies)) ∧
      ∀ e, e ∈ out.1 ↔ e ∈ entries := by
  unfold LazyCsumProvider.range walkLeavesRange at hrun
  dsimp only at hrun
  cases hwalk : walkLeavesImpl p.reader p.chunkMap p.csumRoot
      (some (csumKey (saturatingSub lo (maxItemSpan p.reader.config.nodeSize p.strategy)),
        csumKey hi))
      (rangeCallbacks p.strategy lo hi) ([], p.tallies) with
  | error e => rw [hwalk] at hrun; cases hrun
  | ok v =>
      have hleaf : ∀ leaf s v, (rangeCallbacks p.strategy lo hi).onLeaf leaf s = .ok v →
          v.1 = .ok () := by
        intro leaf s v h
        obtain ⟨found, _, rfl⟩ := rangeCallbacks_leaf h
        rfl
      have hcomplete := walkLeavesImpl_complete hleaf hwalk
      rw [hwalk] at hrun
      obtain ⟨result, entries, tallies⟩ := v
      cases hrun
      cases hcomplete
      exact ⟨entries, rfl, fun e => List.mem_insertionSort _⟩

end Range
end Rotshield.Btrfs
