import Rotshield.Btrfs.Copies
import Rotshield.Btrfs.Tree

/-! What a walk over an unchanging file visits, reports and keeps. -/
namespace Rotshield.Btrfs
open Lib (Leads explore)

variable {S : Type}

section Refs
variable (reader : FsReader Exec) (chunkMap : ChunkMap)

/-- What the walk reads for a reference. -/
def refRead (ref : NodeRef) : Exec (Except IoError ReadNodeResult) :=
  reader.readNode chunkMap ref.logical (ref.expGen.getD genDontCheck) ref.expLevel ref.expOwner

/-- How following a reference fails. -/
inductive Failure where
  | readError
  | metadataError
  | stale
  deriving DecidableEq, Repr

/-- Following the reference fails in this way. -/
def FailsAs (ref : NodeRef) : Failure → Prop
  | .readError => ∃ e, refRead reader chunkMap ref = .ok (.error e)
  | .metadataError => ∃ res, refRead reader chunkMap ref = .ok (.ok res) ∧
      res.allMirrorsFailed = true
  | .stale => ∃ res, refRead reader chunkMap ref = .ok (.ok res) ∧ res.allMirrorsFailed = false ∧
      res.generationMismatch = true

/-- The reference leads to a valid node. -/
def GoodNode (ref : NodeRef) (node : Node) : Prop :=
  ∃ res, refRead reader chunkMap ref = .ok (.ok res) ∧ res.allMirrorsFailed = false ∧
    res.generationMismatch = false ∧ res.node = some node

/-- A valid node pushes the other reference. -/
def ChildRef (bounds : Option (Key × Key)) (ref child : NodeRef) : Prop :=
  ∃ node, GoodNode reader chunkMap ref (.internal node) ∧
    child ∈ childRefs bounds node.header node.ptrs

/-- The references a walk from this root comes to. -/
def Walked (bounds : Option (Key × Key)) (root : UInt64) (ref : NodeRef) : Prop :=
  Leads (ChildRef reader chunkMap bounds) (.root root) ref

end Refs

/-- The callback for a failure. -/
def Callbacks.onFailure (cb : Callbacks S) : Failure → UInt64 → S → S
  | .readError => cb.onReadError
  | .metadataError => cb.onMetadataError
  | .stale => cb.onStale

/-- Every callback keeps a property of the state. -/
structure Callbacks.Keeps (cb : Callbacks S) (inv : S → Prop) : Prop where
  leaf : ∀ leaf s v, inv s → cb.onLeaf leaf s = .ok v → inv v.2
  failure : ∀ kind addr s, inv s → inv (cb.onFailure kind addr s)
  mirrorMismatch : ∀ addr s, inv s → inv (cb.onMirrorMismatch addr s)

section Visit
variable {reader : FsReader Exec} {chunkMap : ChunkMap} {bounds : Option (Key × Key)}
  {cb : Callbacks S} {ref : NodeRef} {s : S}

theorem visitRef_eq : visitRef reader chunkMap bounds cb ref s =
    (refRead reader chunkMap ref).bind fun got =>
      match got with
      | .error _ => .ok (.ok [], cb.onReadError ref.logical s)
      | .ok res =>
          if res.allMirrorsFailed then .ok (.ok [], cb.onMetadataError ref.logical s)
          else if res.generationMismatch then .ok (.ok [], cb.onStale ref.logical s)
          else
            let s := if res.mirrorMismatch then cb.onMirrorMismatch ref.logical s else s
            match res.node with
            | none => .error .panic
            | some (.leaf leaf) =>
                (liftExec (cb.onLeaf leaf s) : Exec _).bind fun v =>
                  .ok (v.1.map fun _ => [], v.2)
            | some (.internal node) => .ok (.ok (childRefs bounds node.header node.ptrs), s) := rfl

/-- A failed reference calls its callback and pushes nothing. -/
theorem visitRef_failure {kind : Failure} (h : FailsAs reader chunkMap ref kind) :
    visitRef reader chunkMap bounds cb ref s = .ok (.ok [], cb.onFailure kind ref.logical s) := by
  rw [visitRef_eq]
  cases kind with
  | readError =>
      obtain ⟨e, hread⟩ := h
      rw [hread]
      rfl
  | metadataError =>
      obtain ⟨res, hread, hfailed⟩ := h
      rw [hread]
      simp only [Except.bind, hfailed, if_true]
      rfl
  | stale =>
      obtain ⟨res, hread, hfailed, hstale⟩ := h
      rw [hread]
      simp only [Except.bind, hfailed, Bool.false_eq_true, if_false, hstale, if_true]
      rfl

/-- A leaf is handed to the leaf callback. -/
theorem visitRef_leaf (bounds : Option (Key × Key)) (cb : Callbacks S) (s : S) {leaf : Leaf}
    (h : GoodNode reader chunkMap ref (.leaf leaf)) :
    ∃ s₁, (s₁ = s ∨ s₁ = cb.onMirrorMismatch ref.logical s) ∧
      visitRef reader chunkMap bounds cb ref s =
        (cb.onLeaf leaf s₁).bind fun v => .ok (v.1.map fun _ => [], v.2) := by
  obtain ⟨res, hread, hfailed, hstale, hnode⟩ := h
  refine ⟨if res.mirrorMismatch then cb.onMirrorMismatch ref.logical s else s, ?_, ?_⟩
  · cases res.mirrorMismatch
    · exact .inl rfl
    · exact .inr rfl
  · rw [visitRef_eq, hread]
    simp only [Except.bind, hfailed, Bool.false_eq_true, if_false, hstale, hnode]
    cases cb.onLeaf leaf (if res.mirrorMismatch = true then cb.onMirrorMismatch ref.logical s else s)
      <;> rfl

/-- An internal node pushes its children. -/
theorem visitRef_internal (bounds : Option (Key × Key)) (cb : Callbacks S) (s : S)
    {node : InternalNode} (h : GoodNode reader chunkMap ref (.internal node)) :
    ∃ s₁, (s₁ = s ∨ s₁ = cb.onMirrorMismatch ref.logical s) ∧
      visitRef reader chunkMap bounds cb ref s =
        .ok (.ok (childRefs bounds node.header node.ptrs), s₁) := by
  obtain ⟨res, hread, hfailed, hstale, hnode⟩ := h
  refine ⟨if res.mirrorMismatch then cb.onMirrorMismatch ref.logical s else s, ?_, ?_⟩
  · cases res.mirrorMismatch
    · exact .inl rfl
    · exact .inr rfl
  · rw [visitRef_eq, hread]
    simp only [Except.bind, hfailed, Bool.false_eq_true, if_false, hstale, hnode]

/-- Every way one round of the walk can go. -/
theorem refRead_cases (reader : FsReader Exec) (chunkMap : ChunkMap) (ref : NodeRef) :
    (∃ kind, FailsAs reader chunkMap ref kind) ∨
    (∃ leaf, GoodNode reader chunkMap ref (.leaf leaf)) ∨
    (∃ node, GoodNode reader chunkMap ref (.internal node)) ∨
    (∃ e, ∀ (bounds : Option (Key × Key)) (cb : Callbacks S) (s : S),
      visitRef reader chunkMap bounds cb ref s = .error e) := by
  cases hread : refRead reader chunkMap ref with
  | error e =>
      refine .inr (.inr (.inr ⟨e, fun bounds cb s => ?_⟩))
      rw [visitRef_eq, hread]
      rfl
  | ok got =>
      cases got with
      | error e => exact .inl ⟨.readError, e, hread⟩
      | ok res =>
          cases hfailed : res.allMirrorsFailed with
          | true => exact .inl ⟨.metadataError, res, hread, hfailed⟩
          | false =>
              cases hstale : res.generationMismatch with
              | true => exact .inl ⟨.stale, res, hread, hfailed, hstale⟩
              | false =>
                  cases hnode : res.node with
                  | none =>
                      refine .inr (.inr (.inr ⟨.panic, fun bounds cb s => ?_⟩))
                      rw [visitRef_eq, hread]
                      simp only [Except.bind, hfailed, Bool.false_eq_true, if_false, hstale, hnode]
                  | some node =>
                      cases node with
                      | leaf leaf => exact .inr (.inl ⟨leaf, res, hread, hfailed, hstale, hnode⟩)
                      | internal node =>
                          exact .inr (.inr (.inl ⟨node, res, hread, hfailed, hstale, hnode⟩))

theorem visitRef_keeps {inv : S → Prop} (hcb : cb.Keeps inv)
    {v : Except IoError (List NodeRef) × S} (hs : inv s)
    (hvisit : visitRef reader chunkMap bounds cb ref s = .ok v) : inv v.2 := by
  have hmirror : ∀ s₁, s₁ = s ∨ s₁ = cb.onMirrorMismatch ref.logical s → inv s₁ := by
    rintro s₁ (rfl | rfl)
    · exact hs
    · exact hcb.mirrorMismatch _ _ hs
  rcases refRead_cases reader chunkMap ref with
    ⟨kind, h⟩ | ⟨leaf, h⟩ | ⟨node, h⟩ | ⟨e, h⟩
  · rw [visitRef_failure h] at hvisit
    cases hvisit
    exact hcb.failure kind _ _ hs
  · obtain ⟨s₁, hs₁, heq⟩ := visitRef_leaf bounds cb s h
    rw [heq] at hvisit
    cases hleaf : cb.onLeaf leaf s₁ with
    | error e => rw [hleaf] at hvisit; cases hvisit
    | ok v₁ =>
        rw [hleaf] at hvisit
        cases hvisit
        exact hcb.leaf leaf s₁ v₁ (hmirror s₁ hs₁) hleaf
  · obtain ⟨s₁, hs₁, heq⟩ := visitRef_internal bounds cb s h
    rw [heq] at hvisit
    cases hvisit
    exact hmirror s₁ hs₁
  · rw [h] at hvisit
    cases hvisit

/-- A round that goes on pushes every child of the reference. -/
theorem visitRef_children {children : List NodeRef} {s' : S}
    (hvisit : visitRef reader chunkMap bounds cb ref s = .ok (.ok children, s')) {child : NodeRef}
    (hchild : ChildRef reader chunkMap bounds ref child) : child ∈ children := by
  obtain ⟨node, hnode, hmem⟩ := hchild
  obtain ⟨s₁, _, heq⟩ := visitRef_internal bounds cb s hnode
  rw [heq] at hvisit
  cases hvisit
  exact hmem

end Visit

theorem throw_ne_ok {α : Type} (h : Halt) (v : α) : (throw h : Exec α) ≠ .ok v := nofun

theorem nodesBelow_pos (fanout level : Nat) : 0 < nodesBelow fanout level := by
  cases level with
  | zero => exact Nat.one_pos
  | succ level =>
      rw [nodesBelow]
      omega

section Walk
variable {reader : FsReader Exec} {chunkMap : ChunkMap} {root : UInt64}
  {bounds : Option (Key × Key)} {cb : Callbacks S} {s s' : S} {inv : S → Prop}

theorem walkLeavesImpl_keeps (hcb : cb.Keeps inv) (hs : inv s) {v : Except IoError Unit × S}
    (hrun : walkLeavesImpl reader chunkMap root bounds cb s = .ok v) : inv v.2 :=
  Lib.explore_keeps (throw_ne_ok _) (fun _ _ _ => visitRef_keeps hcb) hs hrun

/-- A complete walk comes to every reference there is: what the round for one establishes, and
all callbacks keep, holds at its end. -/
theorem walkLeavesImpl_marks (hcb : cb.Keeps inv) {ref : NodeRef}
    (hwalked : Walked reader chunkMap bounds root ref)
    (hmark : ∀ s v, visitRef reader chunkMap bounds cb ref s = .ok v → inv v.2)
    (hrun : walkLeavesImpl reader chunkMap root bounds cb s = .ok (.ok (), s')) : inv s' := by
  have hkeep : ∀ r s v, inv s → visitRef reader chunkMap bounds cb r s = .ok v → inv v.2 :=
    fun _ _ _ hs hvisit => visitRef_keeps hcb hs hvisit
  have hchild : ∀ r s children s', visitRef reader chunkMap bounds cb r s = .ok (.ok children, s') →
      ∀ c, ChildRef reader chunkMap bounds r c → c ∈ children :=
    fun _ _ _ _ hvisit _ hc => visitRef_children hvisit hc
  exact Lib.explore_marks (throw_ne_ok _) hkeep hchild hmark hrun (List.mem_singleton_self _) hwalked

/-- Only an error of the leaf callback cuts a walk short. -/
theorem walkLeavesImpl_complete (hleaf : ∀ leaf s v, cb.onLeaf leaf s = .ok v → v.1 = .ok ())
    {v : Except IoError Unit × S}
    (hrun : walkLeavesImpl reader chunkMap root bounds cb s = .ok v) : v.1 = .ok () := by
  apply Lib.explore_complete (throw_ne_ok _) _ hrun
  intro ref s₁ v₁ hvisit
  rcases refRead_cases reader chunkMap ref with
    ⟨kind, h⟩ | ⟨leaf, h⟩ | ⟨node, h⟩ | ⟨e, h⟩
  · rw [visitRef_failure h] at hvisit
    cases hvisit
    exact ⟨_, rfl⟩
  · obtain ⟨s₂, _, heq⟩ := visitRef_leaf bounds cb s₁ h
    rw [heq] at hvisit
    cases hcall : cb.onLeaf leaf s₂ with
    | error e => rw [hcall] at hvisit; cases hvisit
    | ok v₂ =>
        have hok := hleaf leaf s₂ v₂ hcall
        rw [hcall] at hvisit
        cases hvisit
        exact ⟨[], by rw [hok]; rfl⟩
  · obtain ⟨s₂, _, heq⟩ := visitRef_internal bounds cb s₁ h
    rw [heq] at hvisit
    cases hvisit
    exact ⟨_, rfl⟩
  · rw [h] at hvisit
    cases hvisit

/-- A failing reference has had its callback. -/
theorem walkLeavesImpl_failure (hcb : cb.Keeps inv) {ref : NodeRef} {kind : Failure}
    (hwalked : Walked reader chunkMap bounds root ref) (hfails : FailsAs reader chunkMap ref kind)
    (hmark : ∀ s, inv (cb.onFailure kind ref.logical s))
    (hrun : walkLeavesImpl reader chunkMap root bounds cb s = .ok (.ok (), s')) : inv s' := by
  refine walkLeavesImpl_marks hcb hwalked (fun s₁ v hvisit => ?_) hrun
  rw [visitRef_failure hfails] at hvisit
  cases hvisit
  exact hmark s₁

/-- A leaf has been handed to the leaf callback. -/
theorem walkLeavesImpl_leaf (hcb : cb.Keeps inv) {ref : NodeRef} {leaf : Leaf}
    (hwalked : Walked reader chunkMap bounds root ref)
    (hleaf : GoodNode reader chunkMap ref (.leaf leaf))
    (hmark : ∀ s v, cb.onLeaf leaf s = .ok v → inv v.2)
    (hrun : walkLeavesImpl reader chunkMap root bounds cb s = .ok (.ok (), s')) : inv s' := by
  refine walkLeavesImpl_marks hcb hwalked (fun s₁ v hvisit => ?_) hrun
  obtain ⟨s₂, _, heq⟩ := visitRef_leaf bounds cb s₁ hleaf
  rw [heq] at hvisit
  cases hcall : cb.onLeaf leaf s₂ with
  | error e => rw [hcall] at hvisit; cases hvisit
  | ok v₂ =>
      rw [hcall] at hvisit
      cases hvisit
      exact hmark s₂ v₂ hcall

/-- A tree of one leaf. -/
theorem walkLeavesImpl_single (bounds : Option (Key × Key)) (s : S) {leaf : Leaf}
    (hleaf : GoodNode reader chunkMap (.root root) (.leaf leaf))
    (hcall : ∀ s₁, ∃ s', cb.onLeaf leaf s₁ = .ok (.ok (), s')) :
    ∃ s₁ s', (s₁ = s ∨ s₁ = cb.onMirrorMismatch root s) ∧ cb.onLeaf leaf s₁ = .ok (.ok (), s') ∧
      walkLeavesImpl reader chunkMap root bounds cb s = .ok (.ok (), s') := by
  obtain ⟨s₁, hs₁, hvisit⟩ := visitRef_leaf bounds cb s hleaf
  obtain ⟨s', hs'⟩ := hcall s₁
  obtain ⟨fuel, hfuel⟩ := Nat.exists_eq_succ_of_ne_zero
    (Nat.pos_iff_ne_zero.mp (nodesBelow_pos reader.config.nodeSize 255))
  refine ⟨s₁, s', hs₁, hs', ?_⟩
  unfold walkLeavesImpl walkFuel
  rw [hfuel, Lib.explore_cons, hvisit, hs']
  exact Lib.explore_nil fuel s'

end Walk

/-! The walk ends: children are one level below their parent. -/

theorem nodesBelow_mono (fanout : Nat) {a b : Nat} (h : a ≤ b) :
    nodesBelow fanout a ≤ nodesBelow fanout b := by
  induction b generalizing a with
  | zero =>
      rw [Nat.le_zero.mp h]
  | succ b ih =>
      cases a with
      | zero => exact nodesBelow_pos fanout (b + 1)
      | succ a =>
          rw [nodesBelow, nodesBelow]
          have := Nat.mul_le_mul_left fanout (ih (Nat.le_of_succ_le_succ h))
          omega

/-- The most nodes there can be under a reference. -/
def NodeRef.weight (nodeSize : Nat) (ref : NodeRef) : Nat :=
  match ref.expLevel with
  | none => nodesBelow nodeSize 255
  | some level => nodesBelow nodeSize level.toNat

theorem childRefs_weight (nodeSize : Nat) (bounds : Option (Key × Key)) (parent : Header)
    (ptrs : List KeyPtr) (hlevel : parent.level ≠ 0) :
    ((childRefs bounds parent ptrs).map (NodeRef.weight nodeSize)).sum ≤
      ptrs.length * nodesBelow nodeSize (parent.level.toNat - 1) := by
  induction ptrs with
  | nil => exact Nat.zero_le _
  | cons ptr rest ih =>
      have hweight : (NodeRef.child parent ptr).weight nodeSize =
          nodesBelow nodeSize (parent.level.toNat - 1) := by
        have hone : (1 : UInt8) ≤ parent.level := by
          rw [UInt8.le_iff_toNat_le]
          have : parent.level.toNat ≠ 0 := fun h => hlevel (UInt8.toNat_inj.mp h)
          exact Nat.one_le_iff_ne_zero.mpr this
        simp only [NodeRef.weight, NodeRef.child, if_neg hlevel]
        rw [UInt8.toNat_sub_of_le _ _ hone]
        rfl
      rw [childRefs, List.length_cons, Nat.succ_mul]
      split
      · omega
      · rw [List.map_cons, List.sum_cons, hweight]
        omega

theorem mapM_range_ok {α : Type} {f : Nat → Exec α} {n : Nat} {xs : List α}
    (h : (List.range n).mapM f = .ok xs) : xs.length = n ∧ ∀ i < n, ∃ x, f i = .ok x := by
  have hforall : ∀ (l : List Nat) (xs : List α), l.mapM f = .ok xs →
      xs.length = l.length ∧ ∀ i ∈ l, ∃ x, f i = .ok x := by
    intro l
    induction l with
    | nil =>
        intro xs h
        cases h
        exact ⟨rfl, by simp⟩
    | cons i l ih =>
        intro xs h
        rw [List.mapM_cons] at h
        cases hi : f i with
        | error e => rw [hi] at h; cases h
        | ok x =>
            rw [hi] at h
            cases hl : l.mapM f with
            | error e => rw [hl] at h; cases h
            | ok xs' =>
                rw [hl] at h
                cases h
                obtain ⟨hlen, hall⟩ := ih xs' hl
                refine ⟨by rw [List.length_cons, hlen, List.length_cons], ?_⟩
                intro j hj
                rcases List.mem_cons.mp hj with rfl | hj
                · exact ⟨x, hi⟩
                · exact hall j hj
  obtain ⟨hlen, hall⟩ := hforall _ xs h
  rw [List.length_range] at hlen
  exact ⟨hlen, fun i hi => hall i (List.mem_range.mpr hi)⟩

theorem slice_bound {buf bytes : Bytes} {pos n : Nat} (h : slice buf pos n = .ok bytes) :
    pos + n ≤ buf.length := by
  unfold slice at h
  split at h
  case isTrue hle => exact hle
  case isFalse => cases h

theorem KeyPtr.parse_bound {buf : Bytes} {pos : Nat} {p : KeyPtr}
    (h : KeyPtr.parse buf pos = .ok p) : pos < buf.length := by
  unfold KeyPtr.parse Key.parse leU64 at h
  cases hslice : slice buf pos 8 with
  | error e => rw [hslice] at h; cases h
  | ok bytes =>
      have := slice_bound hslice
      omega

/-- A parsed internal node has its header, is not of level 0, and has fewer children than bytes. -/
theorem Node.parse_internal_spec {buf : Bytes} {node : InternalNode}
    (h : Node.parse buf = .ok (.internal node)) :
    Header.parse buf = .ok node.header ∧ node.header.level ≠ 0 ∧ node.ptrs.length ≤ buf.length := by
  unfold Node.parse at h
  cases hhdr : Header.parse buf with
  | error e => rw [hhdr] at h; cases h
  | ok hdr =>
      rw [hhdr] at h
      simp only [bind, Except.bind] at h
      split at h
      case isTrue =>
          split at h
          case h_1 => cases h
          case h_2 => cases h
      case isFalse hlevel =>
          split at h
          case h_1 => cases h
          case h_2 ptrs hptrs =>
              cases h
              refine ⟨rfl, hlevel, ?_⟩
              obtain ⟨hlen, hall⟩ := mapM_range_ok hptrs
              rw [hlen]
              cases hn : hdr.nritems.toNat with
              | zero => exact Nat.zero_le _
              | succ n =>
                  obtain ⟨p, hp⟩ := hall n (by omega)
                  have hbound := KeyPtr.parse_bound hp
                  simp only [headerSize, keyptrSize] at hbound
                  omega

section Bounded
variable {image : Image} {config : ReaderConfig} {strategy : CsumStrategy} {chunkMap : ChunkMap}
  {bounds : Option (Key × Key)} {cb : Callbacks S} {ref : NodeRef}

theorem copy_length {logical : UInt64} {buf : Bytes}
    (h : .ok buf ∈ copiesOf image config chunkMap logical) : buf.length = config.nodeSize := by
  obtain ⟨stripe, _, hread⟩ := List.mem_map.mp h
  unfold Image.pread readBytes at hread
  split at hread
  case h_1 => cases hread
  case h_2 =>
      cases hread
      rw [List.length_map, List.length_range]

/-- A valid node is parsed from a copy whose header is the one that was asked for. -/
theorem goodNode_parsed (hstrategy : config.strategy = some strategy) {node : Node}
    (h : GoodNode (image.reader config) chunkMap ref node) :
    ∃ buf hdr, buf.length = config.nodeSize ∧ Node.parse buf = .ok node ∧
      Header.parse buf = .ok hdr ∧ config.validateHeader hdr ref.logical
        (ref.expGen.getD genDontCheck) ref.expLevel ref.expOwner = true := by
  obtain ⟨res, hread, hfailed, hstale, hnode⟩ := h
  have hfrom := readNode_readFrom hstrategy hread
  unfold ReadFrom at hfrom
  dsimp only at hfrom
  rw [hfailed, if_neg (by simp)] at hfrom
  obtain ⟨⟨buf, node', hmem, ⟨_, hdr, hhdr, hvalid⟩, hparse, hnode'⟩, _⟩ := hfrom
  rw [hnode] at hnode'
  cases hnode'
  rw [hstale] at hvalid
  exact ⟨buf, hdr, copy_length hmem, hparse, hhdr, hvalid⟩

theorem validateHeader_level {hdr : Header} {logical gen : UInt64} {level : Option UInt8}
    {owner : Option UInt64} (h : config.validateHeader hdr logical gen level owner = true) :
    ∀ l, level = some l → hdr.level = l := by
  rintro l rfl
  simp only [ReaderConfig.validateHeader, Option.all_some, Bool.and_eq_true, beq_iff_eq] at h
  exact h.1.1.2.symm

/-- The children of a node that was asked for weigh less than the reference to it. -/
theorem parsed_weight {node : InternalNode} {buf : Bytes} {hdr : Header} {gen : UInt64}
    (hlen : buf.length = config.nodeSize) (hparse : Node.parse buf = .ok (.internal node))
    (hhdr : Header.parse buf = .ok hdr)
    (hvalid : config.validateHeader hdr ref.logical gen ref.expLevel ref.expOwner = true) :
    ((childRefs bounds node.header node.ptrs).map (NodeRef.weight config.nodeSize)).sum <
      ref.weight config.nodeSize := by
  obtain ⟨hheader, hlevel, hptrs⟩ := Node.parse_internal_spec hparse
  rw [hhdr] at hheader
  cases hheader
  have hsum := childRefs_weight config.nodeSize bounds node.header node.ptrs hlevel
  have hfan := Nat.mul_le_mul_right (nodesBelow config.nodeSize (node.header.level.toNat - 1))
    (hlen ▸ hptrs)
  have hpos : node.header.level.toNat ≠ 0 := fun h => hlevel (UInt8.toNat_inj.mp h)
  have hunder : nodesBelow config.nodeSize node.header.level.toNat =
      1 + config.nodeSize * nodesBelow config.nodeSize (node.header.level.toNat - 1) := by
    obtain ⟨level, hsucc⟩ := Nat.exists_eq_succ_of_ne_zero hpos
    rw [hsucc]
    rfl
  have hbound := node.header.level.toNat_lt
  have hmono : nodesBelow config.nodeSize node.header.level.toNat ≤ ref.weight config.nodeSize := by
    unfold NodeRef.weight
    cases hexp : ref.expLevel with
    | none => exact nodesBelow_mono config.nodeSize (by omega)
    | some level => rw [validateHeader_level hvalid level hexp]
  omega

theorem goodNode_weight (hstrategy : config.strategy = some strategy) {node : InternalNode}
    (h : GoodNode (image.reader config) chunkMap ref (.internal node)) :
    ((childRefs bounds node.header node.ptrs).map (NodeRef.weight config.nodeSize)).sum <
      ref.weight config.nodeSize := by
  obtain ⟨buf, hdr, hlen, hparse, hhdr, hvalid⟩ := goodNode_parsed hstrategy h
  exact parsed_weight hlen hparse hhdr hvalid

theorem NodeRef.weight_pos (nodeSize : Nat) (ref : NodeRef) : 0 < ref.weight nodeSize := by
  unfold NodeRef.weight
  split <;> exact nodesBelow_pos _ _

theorem visitRef_weight (hstrategy : config.strategy = some strategy) {s s' : S}
    {children : List NodeRef}
    (hvisit : visitRef (image.reader config) chunkMap bounds cb ref s = .ok (.ok children, s')) :
    (children.map (NodeRef.weight config.nodeSize)).sum < ref.weight config.nodeSize := by
  have hpos := ref.weight_pos config.nodeSize
  rcases refRead_cases (image.reader config) chunkMap ref with
    ⟨kind, h⟩ | ⟨leaf, h⟩ | ⟨node, h⟩ | ⟨e, h⟩
  · rw [visitRef_failure h] at hvisit
    cases hvisit
    exact hpos
  · obtain ⟨s₁, _, heq⟩ := visitRef_leaf bounds cb s h
    rw [heq] at hvisit
    cases hcall : cb.onLeaf leaf s₁ with
    | error e => rw [hcall] at hvisit; cases hvisit
    | ok v =>
        obtain ⟨result, s₂⟩ := v
        rw [hcall] at hvisit
        cases result with
        | error e => cases hvisit
        | ok u =>
            cases hvisit
            exact hpos
  · obtain ⟨s₁, _, heq⟩ := visitRef_internal bounds cb s h
    rw [heq] at hvisit
    cases hvisit
    exact goodNode_weight hstrategy h
  · rw [h] at hvisit
    cases hvisit

theorem weight_root (nodeSize : Nat) (root : UInt64) :
    (NodeRef.root root).weight nodeSize = walkFuel nodeSize := rfl

end Bounded
end Rotshield.Btrfs
