import Rotshield.Btrfs.Craft
import Rotshield.Btrfs.Extent

/-! Which nodes a re-confirmation reads, and what their failures do to its verdict. -/
namespace Rotshield.Btrfs

section Reached
variable (reader : FsReader Exec) (chunkMap : ChunkMap)

/-- What the searches read at an address: only the address and the fsid are checked. -/
def nodeAt (addr : UInt64) : Exec (Except IoError ReadNodeResult) :=
  reader.readNode chunkMap addr genDontCheck none none

/-- The node cannot be read, or no copy has a valid header checksum. -/
def Unreadable (addr : UInt64) : Prop :=
  (∃ e, nodeAt reader chunkMap addr = .ok (.error e)) ∨
    ∃ res, nodeAt reader chunkMap addr = .ok (.ok res) ∧ res.allMirrorsFailed = true

/-- Some copy has a valid header checksum, but none a valid header. -/
def StaleOnly (addr : UInt64) : Prop :=
  ∃ res, nodeAt reader chunkMap addr = .ok (.ok res) ∧ res.allMirrorsFailed = false ∧
    res.generationMismatch = true

/-- A node that no verdict may be derived from. -/
def Invalid (addr : UInt64) : Prop := Unreadable reader chunkMap addr ∨ StaleOnly reader chunkMap addr

/-- A node that is read as a leaf. -/
def LeafAt (addr : UInt64) (leaf : Leaf) : Prop :=
  ∃ res, nodeAt reader chunkMap addr = .ok (.ok res) ∧ res.allMirrorsFailed = false ∧
    res.node = some (.leaf leaf)

/-- Where a search goes from a node. -/
def childOf (target : Key) (addr : UInt64) : Option UInt64 :=
  match visit reader chunkMap target addr with
  | .ok (.inr child) => some child
  | _ => none

/-- The addresses a search reads, in order, over at most so many levels. -/
def reached (target : Key) : Nat → UInt64 → List UInt64
  | 0, _ => []
  | depth + 1, addr =>
      addr :: match childOf reader chunkMap target addr with
        | none => []
        | some child => reached target depth child

/-- The search would go below the last level it reads. -/
def TooDeep (target : Key) (depth : Nat) (root : UInt64) : Prop :=
  (reached reader chunkMap target (depth + 1) root).length = depth + 1

end Reached

section Search
variable {reader : FsReader Exec} {chunkMap : ChunkMap} {target : Key}

theorem visit_eq (addr : UInt64) :
    visit reader chunkMap target addr = (nodeAt reader chunkMap addr).bind fun got =>
      match got with
      | .error _ => .ok (.inl .unreadable)
      | .ok res =>
          if res.allMirrorsFailed then .ok (.inl .unreadable)
          else match res.node with
            | none => .error .panic
            | some (.leaf leaf) => .ok (.inl (.leaf leaf))
            | some (.internal node) =>
                match childFor target node.ptrs with
                | none => .ok (.inl .before)
                | some ptr => .ok (.inr ptr.blockptr) := rfl

theorem visit_unreadable_iff (addr : UInt64) :
    visit reader chunkMap target addr = .ok (.inl .unreadable) ↔
      Unreadable reader chunkMap addr := by
  rw [visit_eq]
  unfold Unreadable
  cases nodeAt reader chunkMap addr with
  | error h => simp [Except.bind]
  | ok got =>
      cases got with
      | error e => simp [Except.bind]
      | ok res =>
          cases hfailed : res.allMirrorsFailed with
          | true => simp [Except.bind, hfailed]
          | false =>
              simp only [Except.bind, hfailed, Bool.false_eq_true, if_false]
              split
              case h_3 => split <;> simp [hfailed]
              all_goals simp [hfailed]

theorem visit_leaf_iff (addr : UInt64) (leaf : Leaf) :
    visit reader chunkMap target addr = .ok (.inl (.leaf leaf)) ↔
      LeafAt reader chunkMap addr leaf := by
  rw [visit_eq]
  unfold LeafAt
  cases nodeAt reader chunkMap addr with
  | error h => simp [Except.bind]
  | ok got =>
      cases got with
      | error e => simp [Except.bind]
      | ok res =>
          cases hfailed : res.allMirrorsFailed with
          | true => simp [Except.bind, hfailed]
          | false =>
              simp only [Except.bind, hfailed, Bool.false_eq_true, if_false]
              split
              case h_1 hnode => simp [hnode]
              case h_2 hnode => simp [hnode, hfailed]
              case h_3 hnode => split <;> simp [hnode]

theorem visit_internal {addr : UInt64} {node : InternalNode} {mismatch mirrors : Bool}
    (h : nodeAt reader chunkMap addr = .ok (.ok ⟨some (.internal node), false, mismatch, mirrors⟩)) :
    visit reader chunkMap target addr = .ok (match childFor target node.ptrs with
      | none => .inl .before
      | some ptr => .inr ptr.blockptr) := by
  rw [visit_eq, h]
  simp only [Except.bind, Bool.false_eq_true, if_false]
  cases childFor target node.ptrs <;> rfl

/-- The rest of a search: what the visit of a node leaves to be done. -/
theorem descend_succ (depth : Nat) (addr : UInt64) :
    descend reader chunkMap target (depth + 1) addr =
      (visit reader chunkMap target addr).bind fun next =>
        match next with
        | .inl found => .ok found
        | .inr child => descend reader chunkMap target depth child := rfl

theorem descend_of_leaf {depth : Nat} {addr : UInt64} {leaf : Leaf}
    (h : LeafAt reader chunkMap addr leaf) :
    descend reader chunkMap target (depth + 1) addr = .ok (.leaf leaf) := by
  rw [descend_succ, (visit_leaf_iff addr leaf).mpr h]
  rfl

theorem descend_of_child {depth : Nat} {addr : UInt64} {node : InternalNode} {ptr : KeyPtr}
    {mismatch mirrors : Bool}
    (h : nodeAt reader chunkMap addr = .ok (.ok ⟨some (.internal node), false, mismatch, mirrors⟩))
    (hchild : childFor target node.ptrs = some ptr) :
    descend reader chunkMap target (depth + 1) addr =
      descend reader chunkMap target depth ptr.blockptr := by
  rw [descend_succ, visit_internal h, hchild]
  rfl

theorem reached_of_stop {depth : Nat} {addr : UInt64}
    (h : childOf reader chunkMap target addr = none) :
    reached reader chunkMap target (depth + 1) addr = [addr] := by
  rw [reached, h]

theorem reached_of_child {depth : Nat} {addr child : UInt64}
    (h : childOf reader chunkMap target addr = some child) :
    reached reader chunkMap target (depth + 1) addr =
      addr :: reached reader chunkMap target depth child := by
  rw [reached, h]

theorem mem_reached_self (depth : Nat) (addr : UInt64) :
    addr ∈ reached reader chunkMap target (depth + 1) addr := by
  rw [reached]
  exact List.mem_cons_self

/-- A search that stops at its first node ends unreadable exactly there. -/
theorem stop_unreadable_iff {depth : Nat} {addr : UInt64} {p : Prop}
    (hstop : childOf reader chunkMap target addr = none) (hp : p ↔ Unreadable reader chunkMap addr) :
    p ↔ (∃ a ∈ reached reader chunkMap target (depth + 1) addr, Unreadable reader chunkMap a) ∨
      TooDeep reader chunkMap target (depth + 1) addr := by
  unfold TooDeep
  rw [reached_of_stop hstop, reached_of_stop hstop, hp]
  simp

/-- A search ends unreadable exactly when it reads an unreadable node or runs out of levels. -/
theorem descend_unreadable_iff (depth : Nat) (addr : UInt64) :
    descend reader chunkMap target depth addr = .ok .unreadable ↔
      (∃ a ∈ reached reader chunkMap target depth addr, Unreadable reader chunkMap a) ∨
        TooDeep reader chunkMap target depth addr := by
  induction depth generalizing addr with
  | zero =>
      have hlen : TooDeep reader chunkMap target 0 addr := by
        unfold TooDeep reached
        cases childOf reader chunkMap target addr <;> rfl
      exact iff_of_true rfl (.inr hlen)
  | succ depth ih =>
      have hstop : visit reader chunkMap target addr = .ok (.inl .unreadable) ↔ _ :=
        visit_unreadable_iff addr
      rw [descend_succ]
      cases hvisit : visit reader chunkMap target addr with
      | error h =>
          rw [hvisit] at hstop
          apply stop_unreadable_iff (by rw [childOf, hvisit])
          simpa [Except.bind] using hstop
      | ok next =>
          rw [hvisit] at hstop
          cases next with
          | inl found =>
              apply stop_unreadable_iff (by rw [childOf, hvisit])
              simpa [Except.bind] using hstop
          | inr child =>
              have hchild : childOf reader chunkMap target addr = some child := by
                rw [childOf, hvisit]
              have hread : ¬Unreadable reader chunkMap addr := by simpa using hstop
              unfold TooDeep
              rw [reached_of_child hchild, reached_of_child hchild]
              simp only [Except.bind, ih, TooDeep, List.exists_mem_cons_iff, hread, false_or,
                List.length_cons, Nat.add_right_cancel_iff]

/-- A search ends in a leaf exactly when it reads that leaf. -/
theorem descend_leaf_iff (depth : Nat) (addr : UInt64) (leaf : Leaf) :
    descend reader chunkMap target depth addr = .ok (.leaf leaf) ↔
      ∃ a ∈ reached reader chunkMap target depth addr, LeafAt reader chunkMap a leaf := by
  induction depth generalizing addr with
  | zero => simp [descend, reached, pure, Except.pure]
  | succ depth ih =>
      have hleaf : visit reader chunkMap target addr = .ok (.inl (.leaf leaf)) ↔ _ :=
        visit_leaf_iff addr leaf
      rw [descend_succ]
      cases hvisit : visit reader chunkMap target addr with
      | error h =>
          rw [hvisit] at hleaf
          rw [reached_of_stop (by rw [childOf, hvisit])]
          simpa [Except.bind] using hleaf
      | ok next =>
          rw [hvisit] at hleaf
          cases next with
          | inl found =>
              rw [reached_of_stop (by rw [childOf, hvisit])]
              simpa [Except.bind] using hleaf
          | inr child =>
              have hinner : ¬LeafAt reader chunkMap addr leaf := by simpa using hleaf
              rw [reached_of_child (by rw [childOf, hvisit])]
              simp only [Except.bind, ih, List.exists_mem_cons_iff, hinner, false_or]

end Search

theorem flagsNodatasum_ok (data : Bytes) : ∃ b, flagsNodatasum data = .ok b := by
  unfold flagsNodatasum
  split
  case isTrue => exact ⟨_, rfl⟩
  case isFalse hlen =>
      have hslice : slice data 16 8 = .ok ((data.drop 16).take 8) := if_pos (by omega)
      unfold leU64
      rw [hslice]
      exact ⟨_, rfl⟩

/-- A leaf never makes the extent search give up. -/
theorem extentInLeaf_ne_unreadable (leaf : Leaf) (logical : UInt64) :
    extentInLeaf leaf logical ≠ .ok .unreadable := by
  unfold extentInLeaf
  split
  case h_1 => simp
  case h_2 slot _ =>
      split
      case isFalse => simp
      case isTrue =>
          cases extentIsNodatasum leaf slot with
          | error h => simp [bind, Except.bind]
          | ok flag => cases flag <;> simp [bind, Except.bind, pure, Except.pure]

theorem csumInItem_ne_unreadable (runStart : UInt64) (data : Bytes) (sector : UInt64)
    (hashLen : Nat) (sectorSize : UInt64) :
    csumInItem runStart data sector hashLen sectorSize ≠ .ok .unreadable := by
  unfold csumInItem
  split
  case isTrue => simp
  case isFalse =>
      split
      case isFalse => simp
      case isTrue =>
          dsimp only
          split
          case isFalse => simp
          case isTrue =>
              cases slice data (((sector - runStart) / sectorSize).toNat * hashLen) hashLen <;>
                simp [bind, Except.bind, pure, Except.pure]

/-- Nor the csum search. -/
theorem csumInLeaf_ne_unreadable (leaf : Leaf) (sector : UInt64) (hashLen : Nat)
    (sectorSize : UInt64) : csumInLeaf leaf sector hashLen sectorSize ≠ .ok .unreadable := by
  unfold csumInLeaf
  split
  case h_1 => simp
  case h_2 slot _ =>
      split
      case isFalse => simp
      case isTrue =>
          cases leaf.dataOf slot with
          | error h => simp [bind, Except.bind]
          | ok data => exact csumInItem_ne_unreadable _ _ _ _ _

section Verdict
variable {reader : FsReader Exec} {chunkMap : ChunkMap} {extentRoot csumRoot logical : UInt64}

theorem extentCovers_eq :
    extentCovers reader chunkMap extentRoot logical =
      (descend reader chunkMap (extentTarget logical) maxDepth extentRoot).bind fun found =>
        match found with
        | .unreadable => .ok .unreadable
        | .before => .ok .hole
        | .leaf leaf => liftExec (extentInLeaf leaf logical) := rfl

theorem liftExec_exec {α : Type} (x : Exec α) : (liftExec x : Exec α) = x := by
  cases x <;> rfl

theorem extentCovers_unreadable_iff :
    extentCovers reader chunkMap extentRoot logical = .ok .unreadable ↔
      descend reader chunkMap (extentTarget logical) maxDepth extentRoot = .ok .unreadable := by
  rw [extentCovers_eq]
  cases descend reader chunkMap (extentTarget logical) maxDepth extentRoot with
  | error h => simp [Except.bind]
  | ok found =>
      cases found with
      | unreadable => simp [Except.bind]
      | before => simp [Except.bind]
      | leaf leaf => simp [Except.bind, liftExec_exec, extentInLeaf_ne_unreadable]

theorem extentCovers_live_iff :
    extentCovers reader chunkMap extentRoot logical = .ok .live ↔
      ∃ leaf, descend reader chunkMap (extentTarget logical) maxDepth extentRoot = .ok (.leaf leaf) ∧
        extentInLeaf leaf logical = .ok .live := by
  rw [extentCovers_eq]
  cases descend reader chunkMap (extentTarget logical) maxDepth extentRoot with
  | error h => simp [Except.bind]
  | ok found =>
      cases found with
      | unreadable => simp [Except.bind]
      | before => simp [Except.bind]
      | leaf leaf => simp [Except.bind, liftExec_exec]

variable {sectorSize : UInt64} {hashLen : Nat} {stored : Bytes}

theorem csumAt_eq (hsize : sectorSize ≠ 0) :
    csumAt reader chunkMap csumRoot logical hashLen sectorSize =
      (descend reader chunkMap (csumTarget (sectorOf sectorSize logical)) maxDepth csumRoot).bind
        fun found =>
          match found with
          | .unreadable => .ok .unreadable
          | .before => .ok .none
          | .leaf leaf =>
              liftExec (csumInLeaf leaf (sectorOf sectorSize logical) hashLen sectorSize) := by
  unfold csumAt
  rw [if_neg hsize]
  rfl

theorem csumAt_unreadable_iff (hsize : sectorSize ≠ 0) :
    csumAt reader chunkMap csumRoot logical hashLen sectorSize = .ok .unreadable ↔
      descend reader chunkMap (csumTarget (sectorOf sectorSize logical)) maxDepth csumRoot =
        .ok .unreadable := by
  rw [csumAt_eq hsize]
  cases descend reader chunkMap (csumTarget (sectorOf sectorSize logical)) maxDepth csumRoot with
  | error h => simp [Except.bind]
  | ok found =>
      cases found with
      | unreadable => simp [Except.bind]
      | before => simp [Except.bind]
      | leaf leaf => simp [Except.bind, liftExec_exec, csumInLeaf_ne_unreadable]

theorem reconfirmMismatch_unverifiable :
    reconfirmMismatch reader chunkMap extentRoot csumRoot logical stored hashLen sectorSize =
        .ok .unverifiable ↔
      extentCovers reader chunkMap extentRoot logical = .ok .unreadable ∨
        extentCovers reader chunkMap extentRoot logical = .ok .live ∧
          csumAt reader chunkMap csumRoot logical hashLen sectorSize = .ok .unreadable := by
  unfold reconfirmMismatch
  cases extentCovers reader chunkMap extentRoot logical with
  | error h => simp [bind, Except.bind]
  | ok owner =>
      cases owner <;> simp [bind, Except.bind, pure, Except.pure]
      cases csumAt reader chunkMap csumRoot logical hashLen sectorSize with
      | error h => simp
      | ok live =>
          cases live with
          | some csum => by_cases heq : csum = stored <;> simp [heq]
          | none => simp
          | unreadable => simp

end Verdict

section Validity
variable (reader : FsReader Exec) (chunkMap : ChunkMap)
  (extentRoot csumRoot logical sectorSize : UInt64)

/-- The extent search reads a leaf that says the sector is owned, so the csum search follows. -/
def OwnerFound : Prop :=
  ∃ a ∈ reached reader chunkMap (extentTarget logical) maxDepth extentRoot,
    ∃ leaf, LeafAt reader chunkMap a leaf ∧ extentInLeaf leaf logical = .ok .live

/-- The addresses a re-confirmation reads. -/
def Reads (addr : UInt64) : Prop :=
  addr ∈ reached reader chunkMap (extentTarget logical) maxDepth extentRoot ∨
    OwnerFound reader chunkMap extentRoot logical ∧
      addr ∈ reached reader chunkMap (csumTarget (sectorOf sectorSize logical)) maxDepth csumRoot

/-- One of the searches it does needs more levels than the code goes through. -/
def OutOfLevels : Prop :=
  TooDeep reader chunkMap (extentTarget logical) maxDepth extentRoot ∨
    OwnerFound reader chunkMap extentRoot logical ∧
      TooDeep reader chunkMap (csumTarget (sectorOf sectorSize logical)) maxDepth csumRoot

/-- An invalid node among those read makes the verdict Unverifiable; any other verdict comes from
valid nodes only. -/
def TrustsOnlyValid (verdict : Exec Reconfirm) : Prop :=
  ((∃ a, Reads reader chunkMap extentRoot csumRoot logical sectorSize a ∧
      Invalid reader chunkMap a) → verdict = .ok .unverifiable) ∧
    ((verdict = .ok .corruption ∨ verdict = .ok .stale) →
      ∀ a, Reads reader chunkMap extentRoot csumRoot logical sectorSize a →
        ¬Invalid reader chunkMap a)

end Validity

section Verdict
variable {reader : FsReader Exec} {chunkMap : ChunkMap} {extentRoot csumRoot logical : UInt64}
  {stored : Bytes} {strategy : CsumStrategy}

theorem ownerFound_iff :
    extentCovers reader chunkMap extentRoot logical = .ok .live ↔
      OwnerFound reader chunkMap extentRoot logical := by
  rw [extentCovers_live_iff]
  simp only [descend_leaf_iff, OwnerFound]
  constructor
  · rintro ⟨leaf, ⟨a, ha, hleaf⟩, hlive⟩
    exact ⟨a, ha, leaf, hleaf, hlive⟩
  · rintro ⟨a, ha, leaf, hleaf, hlive⟩
    exact ⟨leaf, ⟨a, ha, hleaf⟩, hlive⟩

theorem sectorSize_ne_zero (strategy : CsumStrategy) : strategy.sectorSize ≠ 0 := by
  intro h
  have hpos := strategy.sectorSize_pos
  rw [h] at hpos
  exact absurd hpos (by decide)

theorem reconfirmMismatch_unverifiable_iff :
    reconfirmMismatch reader chunkMap extentRoot csumRoot logical stored strategy.hashLen
        strategy.sectorSize = .ok .unverifiable ↔
      (∃ a, Reads reader chunkMap extentRoot csumRoot logical strategy.sectorSize a ∧
        Unreadable reader chunkMap a) ∨
      OutOfLevels reader chunkMap extentRoot csumRoot logical strategy.sectorSize := by
  rw [reconfirmMismatch_unverifiable, ownerFound_iff, extentCovers_unreadable_iff,
    csumAt_unreadable_iff (sectorSize_ne_zero strategy), descend_unreadable_iff,
    descend_unreadable_iff]
  unfold Reads OutOfLevels
  constructor
  · rintro ((⟨a, ha, hbad⟩ | hdeep) | ⟨howner, ⟨a, ha, hbad⟩ | hdeep⟩)
    · exact .inl ⟨a, .inl ha, hbad⟩
    · exact .inr (.inl hdeep)
    · exact .inl ⟨a, .inr ⟨howner, ha⟩, hbad⟩
    · exact .inr (.inr ⟨howner, hdeep⟩)
  · rintro (⟨a, ha | ⟨howner, ha⟩, hbad⟩ | hdeep | ⟨howner, hdeep⟩)
    · exact .inl (.inl ⟨a, ha, hbad⟩)
    · exact .inr ⟨howner, .inl ⟨a, ha, hbad⟩⟩
    · exact .inl (.inr hdeep)
    · exact .inr ⟨howner, .inr hdeep⟩

/-- Only nodes without a single valid header go unnoticed: the searches never look at the flag
that reports them, and are right only where something else stops them. -/
theorem reconfirmMismatch_trustsOnlyValid_iff (image : Image) (config : ReaderConfig)
    (chunkMap : ChunkMap) (extentRoot csumRoot logical : UInt64) (stored : Bytes)
    (strategy : CsumStrategy) :
    TrustsOnlyValid (image.reader config) chunkMap extentRoot csumRoot logical strategy.sectorSize
        (reconfirmMismatch (image.reader config) chunkMap extentRoot csumRoot logical stored
          strategy.hashLen strategy.sectorSize) ↔
      (∀ a, Reads (image.reader config) chunkMap extentRoot csumRoot logical strategy.sectorSize a →
        ¬StaleOnly (image.reader config) chunkMap a) ∨
      (∃ a, Reads (image.reader config) chunkMap extentRoot csumRoot logical strategy.sectorSize a ∧
        Unreadable (image.reader config) chunkMap a) ∨
      OutOfLevels (image.reader config) chunkMap extentRoot csumRoot logical
        strategy.sectorSize := by
  have hverdict : reconfirmMismatch (image.reader config) chunkMap extentRoot csumRoot logical stored
      strategy.hashLen strategy.sectorSize = .ok .unverifiable ↔ _ :=
    reconfirmMismatch_unverifiable_iff
  rw [← hverdict]
  constructor
  · rintro ⟨hrejects, _⟩
    by_cases hstale : ∃ a, Reads (image.reader config) chunkMap extentRoot csumRoot logical
        strategy.sectorSize a ∧ StaleOnly (image.reader config) chunkMap a
    · obtain ⟨a, ha, hbad⟩ := hstale
      exact .inr (hrejects ⟨a, ha, .inr hbad⟩)
    · exact .inl fun a ha hbad => hstale ⟨a, ha, hbad⟩
  · intro hcond
    have hrejects : (∃ a, Reads (image.reader config) chunkMap extentRoot csumRoot logical
        strategy.sectorSize a ∧ Invalid (image.reader config) chunkMap a) →
        reconfirmMismatch (image.reader config) chunkMap extentRoot csumRoot logical stored
          strategy.hashLen strategy.sectorSize = .ok .unverifiable := by
      rintro ⟨a, ha, hbad⟩
      rcases hcond with hfresh | hunverifiable
      · rcases hbad with hunread | hstale
        · exact reconfirmMismatch_unverifiable_iff.mpr (.inl ⟨a, ha, hunread⟩)
        · exact absurd hstale (hfresh a ha)
      · exact hunverifiable
    constructor
    · exact hrejects
    · intro hverdict a ha hbad
      rw [hrejects ⟨a, ha, hbad⟩] at hverdict
      rcases hverdict with h | h <;> cases h

end Verdict

namespace Crafted

/-- The header of an empty leaf that belongs to another filesystem. -/
def foreignHeader : Header :=
  { header 0x400000 1 ObjectId.extentTree 0 0 with fsid := List.replicate 16 9 }

/-- The file that has it where the extent tree's root should be. -/
def foreignRoot : Image :=
  Image.ofRegions [(0x400000, leafBytes foreignHeader [] [])]

theorem foreignRoot_nodeAt :
    nodeAt (foreignRoot.reader config) chunkMap 0x400000 = .ok (.ok
      ⟨some (.leaf ⟨foreignHeader, [], leafBytes foreignHeader [] []⟩), false, true, false⟩) :=
  readNode_leafBytes rfl (List.pairwise_singleton _ _) (by decide) List.mem_cons_self ⟨rfl, rfl⟩
    rfl rfl (by decide) genDontCheck none none

/-- The root's header fails validation, and the verdict is Stale all the same. -/
theorem foreignRoot_not_trustsOnlyValid :
    ¬TrustsOnlyValid (foreignRoot.reader config) chunkMap 0x400000 0x500000 0x1000
      strategy.sectorSize
      (reconfirmMismatch (foreignRoot.reader config) chunkMap 0x400000 0x500000 0x1000 [1, 2, 3, 4]
        strategy.hashLen strategy.sectorSize) := by
  intro htrusts
  have hreads : Reads (foreignRoot.reader config) chunkMap 0x400000 0x500000 0x1000
      strategy.sectorSize 0x400000 := .inl (mem_reached_self 15 _)
  have hinvalid : Invalid (foreignRoot.reader config) chunkMap 0x400000 :=
    .inr ⟨_, foreignRoot_nodeAt, rfl, rfl⟩
  have hstale : reconfirmMismatch (foreignRoot.reader config) chunkMap 0x400000 0x500000 0x1000
      [1, 2, 3, 4] strategy.hashLen strategy.sectorSize = .ok .stale := by
    unfold reconfirmMismatch
    rw [extentCovers_eq, maxDepth, descend_succ, visit_eq, foreignRoot_nodeAt]
    rfl
  have hverdict := htrusts.1 ⟨_, hreads, hinvalid⟩
  rw [hstale] at hverdict
  cases hverdict

end Crafted
end Rotshield.Btrfs
