import Rotshield.Btrfs.Open
import Rotshield.Btrfs.RangeExact
import Rotshield.Btrfs.WalkMap

/-! What a walk over a readable tree computes: its leaf callback, folded over the leaves. -/
namespace Rotshield.Btrfs
open Lib (HeadsTree Collects)

/-- A tree, of any height, whose every node is read and valid under the reference that leads to it,
with ascending keys and every item inside its leaf. -/
structure ReadableTree (reader : FsReader Exec) (chunkMap : ChunkMap) (root : UInt64) where
  height : Nat
  leaves : List Leaf
  heads : HeadsTree (refPage reader chunkMap) Leaf.keys height (.root root) leaves
  sorted : (leaves.flatMap Leaf.keys).Pairwise (· < ·)
  data : ∀ leaf ∈ leaves, ∀ slot ∈ leaf.slots, ∃ bytes, leaf.dataOf slot = .ok bytes

/-! ### The walk -/

section Noting
variable {S : Type}

/-- The same walk, noting the leaves it comes to. -/
def noting (cb : Callbacks S) : Callbacks (List Leaf × S) where
  onLeaf leaf s := do
    let (result, after) ← cb.onLeaf leaf s.2
    return (result, (s.1 ++ [leaf], after))
  onMetadataError a s := (s.1, cb.onMetadataError a s.2)
  onStale a s := (s.1, cb.onStale a s.2)
  onMirrorMismatch a s := (s.1, cb.onMirrorMismatch a s.2)
  onReadError a s := (s.1, cb.onReadError a s.2)

theorem noting_mapsTo (cb : Callbacks S) : (noting cb).MapsTo Prod.snd cb where
  leaf leaf s := by
    unfold noting
    dsimp only
    cases cb.onLeaf leaf s.2 with
    | error h => rfl
    | ok v => rfl
  metadataError _ _ := rfl
  stale _ _ := rfl
  mirrorMismatch _ _ := rfl
  readError _ _ := rfl

end Noting

namespace ReadableTree
variable {image : Image} {config : ReaderConfig} {chunkMap : ChunkMap} {strategy : CsumStrategy}
  {root : UInt64} (t : ReadableTree (image.reader config) chunkMap root) {T : Type}
  {onLeaf : Leaf → T → Exec (Except IoError Unit × T)} {next : T → Leaf → T}

/-- The walk comes to every leaf, in order, and to no failure. -/
theorem noted (hstrategy : config.strategy = some strategy)
    (hleaf : ∀ leaf ∈ t.leaves, ∀ s, onLeaf leaf s = .ok (.ok (), next s leaf)) (s : T)
    (errors : MetadataErrors) :
    ∃ s' errors', walkLeavesImpl (image.reader config) chunkMap root none
        (noting (openCallbacks onLeaf)) ([], s, errors) = .ok (.ok (), (t.leaves, s', errors')) ∧
      errors'.headerErrors = errors.headerErrors ∧ errors'.readErrors = errors.readErrors := by
  -- The two counters of lost nodes stand in front of the leaves that were come to.
  let collected (s : List Leaf × T × MetadataErrors) : List ((Nat × Nat) ⊕ Leaf) :=
    .inl (s.2.2.headerErrors, s.2.2.readErrors) :: s.1.map .inr
  have hcollects : Collects (refPage (image.reader config) chunkMap) Leaf.keys (pruned none)
      (visitRef (image.reader config) chunkMap none (noting (openCallbacks onLeaf))) collected
      (· ∈ t.leaves) fun leaf => [.inr leaf] := by
    have hsame : ∀ {ref : NodeRef} {s s₁ : List Leaf × T × MetadataErrors},
        s₁ = s ∨ s₁ = (noting (openCallbacks onLeaf)).onMirrorMismatch ref.logical s →
          collected s₁ = collected s := by
      rintro ref s s₁ (rfl | rfl) <;> rfl
    constructor
    · intro ref leaf s hpage hin
      obtain ⟨s₁, hs₁, hvisit⟩ := visitRef_leaf none (noting (openCallbacks onLeaf)) s
        (goodNode_leaf hpage)
      have hcall : (noting (openCallbacks onLeaf)).onLeaf leaf s₁ =
          .ok (.ok (), (s₁.1 ++ [leaf], next s₁.2.1 leaf, s₁.2.2)) := by
        unfold noting openCallbacks
        dsimp only
        rw [hleaf leaf hin]
        rfl
      refine ⟨(s₁.1 ++ [leaf], next s₁.2.1 leaf, s₁.2.2), by rw [hvisit, hcall]; rfl, ?_⟩
      rw [← hsame hs₁]
      simp [collected]
    · intro ref children s hpage
      obtain ⟨node, hgood, rfl⟩ := goodNode_inner hpage
      obtain ⟨s₁, hs₁, hvisit⟩ := visitRef_internal none (noting (openCallbacks onLeaf)) s hgood
      exact ⟨s₁, by rw [hvisit, childRefs_eq], hsame hs₁⟩
    · intro leaf lo hi hin hprune
      cases hprune
  obtain ⟨n, ⟨leaves, s', errors'⟩, hrounds, hcollected⟩ :=
    hcollects.through t.heads t.sorted (fun _ h => h) [] ([], s, errors)
  have hfuel : n ≤ walkFuel (image.reader config).config.nodeSize := by
    have hle : n ≤ ([NodeRef.root root].map (NodeRef.weight config.nodeSize)).sum :=
      hrounds.length_le fun _ _ _ _ => visitRef_weight hstrategy
    simp only [List.map_singleton, List.sum_singleton, weight_root] at hle
    exact hle
  have hflat : (t.leaves.flatMap fun leaf => [(.inr leaf : (Nat × Nat) ⊕ Leaf)]) =
      t.leaves.map .inr := List.map_eq_flatMap.symm
  rw [hflat] at hcollected
  obtain ⟨hcounts, hnoted⟩ := List.cons.inj hcollected
  obtain ⟨hheader, hread⟩ := Prod.mk.inj (Sum.inl.inj hcounts)
  have hleaves : leaves = t.leaves := List.map_injective_iff.mpr Sum.inr_injective hnoted
  subst hleaves
  refine ⟨s', errors', ?_, hheader, hread⟩
  rw [List.append_nil] at hrounds
  unfold walkLeavesImpl
  exact hrounds.explore_eq hfuel

/-- A walk over the tree folds its leaf callback over the leaves; no node is lost. -/
theorem walk (hstrategy : config.strategy = some strategy)
    (hleaf : ∀ leaf ∈ t.leaves, ∀ s, onLeaf leaf s = .ok (.ok (), next s leaf)) (s : T)
    (errors : MetadataErrors) :
    ∃ errors', walkLeaves (image.reader config) chunkMap root (openCallbacks onLeaf) (s, errors) =
        .ok (.ok (), (t.leaves.foldl next s, errors')) ∧
      errors'.headerErrors = errors.headerErrors ∧ errors'.readErrors = errors.readErrors := by
  obtain ⟨s', errors', hrun, hcounts⟩ := t.noted hstrategy hleaf s errors
  have hkeeps : (noting (openCallbacks onLeaf)).Keeps fun v =>
      (∀ leaf ∈ v.1, leaf ∈ t.leaves) → v.2.1 = v.1.foldl next s := by
    constructor
    · intro leaf v r hv hcall hin
      unfold noting openCallbacks at hcall
      dsimp only at hcall
      cases hone : onLeaf leaf v.2.1 with
      | error e => rw [hone] at hcall; cases hcall
      | ok got =>
          rw [hone] at hcall
          cases hcall
          have hgood : leaf ∈ t.leaves := hin leaf (List.mem_append_right _ List.mem_cons_self)
          rw [hleaf leaf hgood] at hone
          cases hone
          rw [List.foldl_append, ← hv fun l hl => hin l (List.mem_append_left _ hl)]
          rfl
    · intro kind addr v hv
      cases kind <;> exact hv
    · intro addr v hv
      exact hv
  have hfold := walkLeavesImpl_keeps hkeeps (fun _ => rfl) hrun fun _ h => h
  dsimp only at hfold
  subst hfold
  refine ⟨errors', ?_, hcounts⟩
  have hmap := walkLeavesImpl_map (noting_mapsTo (openCallbacks onLeaf)) (image.reader config)
    chunkMap root none ([], s, errors)
  rw [hrun] at hmap
  exact hmap.symm

end ReadableTree

/-! ### The items of a tree -/

/-- Items of one kind: the keys they have, and how one is read. -/
structure ItemKind (β : Type) where
  has : Key → Bool
  parse : Key → Bytes → Exec β

section Items
variable {β : Type} (kind : ItemKind β)

def ItemKind.read (e : Key × Bytes) : Option β :=
  if kind.has e.1 then (kind.parse e.1 e.2).toOption else none

def Leaf.items (leaf : Leaf) : List β := leaf.entries.filterMap kind.read

/-- Every item of the kind can be read. -/
structure Leaf.Holds (leaf : Leaf) : Prop where
  data : ∀ slot ∈ leaf.slots, ∃ bytes, leaf.dataOf slot = .ok bytes
  parse : ∀ e ∈ leaf.entries, kind.has e.1 = true → ∃ b, kind.parse e.1 e.2 = .ok b

variable {kind}

/-- The slots of the kind, with what each gives. -/
theorem Leaf.Holds.induct {leaf : Leaf} (h : leaf.Holds kind)
    {motive : List LeafItemSlot → List β → Prop} (nil : motive [] [])
    (skip : ∀ slot slots found, kind.has slot.key = false → motive slots found →
      motive (slot :: slots) found)
    (item : ∀ slot slots bytes b found, kind.has slot.key = true → leaf.dataOf slot = .ok bytes →
      kind.parse slot.key bytes = .ok b → motive slots found → motive (slot :: slots) (b :: found)) :
    motive leaf.slots (leaf.items kind) := by
  have hall : ∀ slots : List LeafItemSlot, (∀ slot ∈ slots, slot ∈ leaf.slots) → motive slots
      ((slots.map fun slot => (slot.key, (leaf.dataOf slot).toOption.getD [])).filterMap
        kind.read) := by
    intro slots
    induction slots with
    | nil => exact fun _ => nil
    | cons slot slots ih =>
        intro hsub
        have hrest := ih fun s hs => hsub s (List.mem_cons_of_mem slot hs)
        obtain ⟨bytes, hdata⟩ := h.data slot (hsub slot List.mem_cons_self)
        rw [List.map_cons, List.filterMap_cons, hdata]
        cases hhas : kind.has slot.key with
        | false =>
            have hnone : kind.read (slot.key, (Except.ok bytes : Exec Bytes).toOption.getD []) =
                none := by
              simp [ItemKind.read, hhas]
            rw [hnone]
            exact skip slot slots _ hhas hrest
        | true =>
            have hentry : (slot.key, bytes) ∈ leaf.entries := by
              refine List.mem_map.mpr ⟨slot, hsub slot List.mem_cons_self, ?_⟩
              rw [hdata]
              rfl
            obtain ⟨b, hb⟩ := h.parse _ hentry hhas
            dsimp only at hb
            have hsome : kind.read (slot.key, (Except.ok bytes : Exec Bytes).toOption.getD []) =
                some b := by
              simp [ItemKind.read, hhas, hb, Except.toOption]
            rw [hsome]
            exact item slot slots bytes b _ hhas hdata hb hrest
  exact hall leaf.slots fun _ h => h

theorem Leaf.Holds.mapM {leaf : Leaf} (h : leaf.Holds kind) :
    (leaf.slots.filter fun slot => kind.has slot.key).mapM (fun slot => do
      kind.parse slot.key (← leaf.dataOf slot) : LeafItemSlot → Exec β) = .ok (leaf.items kind) := by
  refine h.induct (motive := fun slots found => (slots.filter fun slot => kind.has slot.key).mapM
    (fun slot => do kind.parse slot.key (← leaf.dataOf slot) : LeafItemSlot → Exec β) =
      .ok found) rfl ?_ ?_
  · intro slot slots found hhas ih
    rw [List.filter_cons_of_neg (by simp [hhas]), ih]
  · intro slot slots bytes b found hhas hdata hb ih
    have hkeep : (slot :: slots).filter (fun slot => kind.has slot.key) =
        slot :: slots.filter fun slot => kind.has slot.key := List.filter_cons_of_pos hhas
    rw [hkeep, List.mapM_cons, ih, hdata]
    dsimp only [bind, Except.bind]
    rw [hb]
    rfl

theorem Leaf.Holds.foldlM {S : Type} {leaf : Leaf} (h : leaf.Holds kind) (add : S → β → S) (s : S) :
    (leaf.slots.filter fun slot => kind.has slot.key).foldlM (fun s slot => do
      return add s (← kind.parse slot.key (← leaf.dataOf slot)) : S → LeafItemSlot → Exec S) s =
        .ok ((leaf.items kind).foldl add s) := by
  revert s
  refine h.induct (motive := fun slots found => ∀ s,
    (slots.filter fun slot => kind.has slot.key).foldlM (fun s slot => do
      return add s (← kind.parse slot.key (← leaf.dataOf slot)) : S → LeafItemSlot → Exec S) s =
        .ok (found.foldl add s)) (fun _ => rfl) ?_ ?_
  · intro slot slots found hhas ih s
    rw [List.filter_cons_of_neg (by simp [hhas]), ih]
  · intro slot slots bytes b found hhas hdata hb ih s
    have hkeep : (slot :: slots).filter (fun slot => kind.has slot.key) =
        slot :: slots.filter fun slot => kind.has slot.key := List.filter_cons_of_pos hhas
    rw [hkeep, List.foldlM_cons, hdata]
    dsimp only [bind, Except.bind]
    rw [hb]
    exact ih _

end Items

namespace ReadableTree
variable {reader : FsReader Exec} {chunkMap : ChunkMap} {root : UInt64} {β : Type}

def entries (t : ReadableTree reader chunkMap root) : List (Key × Bytes) :=
  t.leaves.flatMap Leaf.entries

/-- The items of a kind, in order. -/
def items (t : ReadableTree reader chunkMap root) (kind : ItemKind β) : List β :=
  t.entries.filterMap kind.read

/-- Every item of the kind can be read. -/
def Parses (t : ReadableTree reader chunkMap root) (kind : ItemKind β) : Prop :=
  ∀ e ∈ t.entries, kind.has e.1 = true → ∃ b, kind.parse e.1 e.2 = .ok b

variable {t : ReadableTree reader chunkMap root} {kind : ItemKind β}

theorem Parses.holds (h : t.Parses kind) {leaf : Leaf} (hleaf : leaf ∈ t.leaves) :
    leaf.Holds kind where
  data := t.data leaf hleaf
  parse e he := h e (List.mem_flatMap.mpr ⟨leaf, hleaf, he⟩)

theorem mem_items {b : β} (h : b ∈ t.items kind) :
    ∃ e ∈ t.entries, kind.has e.1 = true ∧ kind.parse e.1 e.2 = .ok b := by
  obtain ⟨e, he, hread⟩ := List.mem_filterMap.mp h
  unfold ItemKind.read at hread
  split at hread
  · rename_i hhas
    cases hparse : kind.parse e.1 e.2 with
    | error halt => rw [hparse] at hread; cases hread
    | ok found =>
        rw [hparse] at hread
        exact ⟨e, he, hhas, hparse.trans (congrArg _ (Option.some.inj hread))⟩
  · cases hread

theorem items_eq (t : ReadableTree reader chunkMap root) (kind : ItemKind β) :
    t.items kind = t.leaves.flatMap fun leaf => leaf.items kind := by
  unfold items entries Leaf.items
  exact List.filterMap_flatMap

theorem foldl_items {S : Type} (t : ReadableTree reader chunkMap root) (kind : ItemKind β)
    (add : S → β → S) (s : S) :
    t.leaves.foldl (fun s leaf => (leaf.items kind).foldl add s) s = (t.items kind).foldl add s := by
  rw [items_eq, List.foldl_flatMap]

end ReadableTree
end Rotshield.Btrfs
