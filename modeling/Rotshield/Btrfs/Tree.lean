import Rotshield.Btrfs.Reader
import Rotshield.Lib.Worklist

/-! Iterative walks over trees: visit every leaf, optionally pruned to a key range. -/
namespace Rotshield.Btrfs
open Lib (explore)

variable {m : Type → Type} [Monad m] [MonadExceptOf Halt m] {S : Type}

/-- A child pointer awaiting descent, with the header fields it must match. -/
structure NodeRef where
  logical : UInt64
  expGen : Option UInt64
  expLevel : Option UInt8
  expOwner : Option UInt64
  deriving DecidableEq, Repr

namespace NodeRef

/-- Nothing is expected of a root. -/
def root (logical : UInt64) : NodeRef where
  logical
  expGen := none
  expLevel := none
  expOwner := none

/-- Children inherit level-1 and owner; the generation comes from the key pointer. -/
def child (parent : Header) (ptr : KeyPtr) : NodeRef where
  logical := ptr.blockptr
  expGen := some ptr.generation
  expLevel := some (if parent.level = 0 then 0 else parent.level - 1)
  expOwner := some parent.owner

end NodeRef

/-- A child whose keys lie entirely outside the bounds; `childHi` is the next child's key. -/
def pruned (bounds : Option (Key × Key)) (childLo : Key) (childHi : Option Key) : Bool :=
  match bounds with
  | none => false
  | some (keyLo, keyHi) => childHi.any (fun hi => decide (hi ≤ keyLo)) || decide (keyHi ≤ childLo)

/-- The children a walk goes into, in order. -/
def childRefs (bounds : Option (Key × Key)) (parent : Header) : List KeyPtr → List NodeRef
  | [] => []
  | ptr :: rest =>
      if pruned bounds ptr.key (rest.head?.map (·.key)) then childRefs bounds parent rest
      else .child parent ptr :: childRefs bounds parent rest

/-- What a walk does at a leaf and on each kind of failure, to a state of its own. -/
structure Callbacks (S : Type) where
  onLeaf : Leaf → S → Exec (Except IoError Unit × S)
  onMetadataError : UInt64 → S → S
  onStale : UInt64 → S → S
  onMirrorMismatch : UInt64 → S → S
  onReadError : UInt64 → S → S

/-- One round of the walk: the children that are pushed, and the state after the callbacks. -/
def visitRef (reader : FsReader m) (chunkMap : ChunkMap) (bounds : Option (Key × Key))
    (cb : Callbacks S) (ref : NodeRef) (s : S) : m (Except IoError (List NodeRef) × S) := do
  let expectedGeneration := ref.expGen.getD genDontCheck
  match ← reader.readNode chunkMap ref.logical expectedGeneration ref.expLevel ref.expOwner with
  | .error _ => return (.ok [], cb.onReadError ref.logical s)
  | .ok res =>
      if res.allMirrorsFailed then return (.ok [], cb.onMetadataError ref.logical s)
      else if res.generationMismatch then return (.ok [], cb.onStale ref.logical s)
      else
        let s := if res.mirrorMismatch then cb.onMirrorMismatch ref.logical s else s
        match res.node with
        | none => throw .panic
        | some (.leaf leaf) =>
            let (result, s) ← liftExec (cb.onLeaf leaf s)
            return (result.map fun _ => [], s)
        | some (.internal node) => return (.ok (childRefs bounds node.header node.ptrs), s)

/-- The nodes a tree can have below a node of a level, that one included. -/
def nodesBelow (fanout : Nat) : Nat → Nat
  | 0 => 1
  | level + 1 => 1 + fanout * nodesBelow fanout level

/-- Enough rounds for every tree with nodes of this size. -/
def walkFuel (nodeSize : Nat) : Nat := nodesBelow nodeSize 255

/-- Walk the tree from its root. The walk may be cut short by an error of the leaf callback. -/
def walkLeavesImpl (reader : FsReader m) (chunkMap : ChunkMap) (rootLogical : UInt64)
    (bounds : Option (Key × Key)) (cb : Callbacks S) (s : S) : m (Except IoError Unit × S) :=
  explore (throw .outOfFuel) (visitRef reader chunkMap bounds cb) (walkFuel reader.config.nodeSize)
    [NodeRef.root rootLogical] s

def walkLeaves (reader : FsReader m) (chunkMap : ChunkMap) (rootLogical : UInt64)
    (cb : Callbacks S) (s : S) : m (Except IoError Unit × S) :=
  walkLeavesImpl reader chunkMap rootLogical none cb s

def walkLeavesRange (reader : FsReader m) (chunkMap : ChunkMap) (rootLogical : UInt64)
    (keyLo keyHi : Key) (cb : Callbacks S) (s : S) : m (Except IoError Unit × S) :=
  walkLeavesImpl reader chunkMap rootLogical (some (keyLo, keyHi)) cb s

end Rotshield.Btrfs
