import Rotshield.Btrfs.Tree

/-! A walk seen through a part of its callbacks' state. -/
namespace Rotshield.Btrfs

/-- Nothing is done with the result of a computation that halts. -/
class LawfulHalt (m : Type → Type) [Monad m] [MonadExceptOf Halt m] : Prop where
  map_throw : ∀ {α β : Type} (g : α → β) (h : Halt), g <$> (throw h : m α) = throw h

instance : LawfulHalt Exec where
  map_throw _ _ := rfl

instance {σ : Type} : LawfulHalt (ExceptT Halt (StateM σ)) where
  map_throw _ _ := rfl

variable {m : Type → Type} [Monad m] [LawfulMonad m] [MonadExceptOf Halt m] [LawfulHalt m]

theorem map_liftExec {α β : Type} (g : α → β) (x : Exec α) :
    g <$> (liftExec x : m α) = liftExec (x.map g) := by
  cases x with
  | ok a => exact map_pure g a
  | error h => exact LawfulHalt.map_throw g h

section Walk
variable {S T : Type} {f : S → T} {cb : Callbacks S} {cb' : Callbacks T}

/-- The callbacks do the same to a part of the state. -/
structure Callbacks.MapsTo (f : S → T) (cb : Callbacks S) (cb' : Callbacks T) : Prop where
  leaf : ∀ leaf s, (cb.onLeaf leaf s).map (Prod.map id f) = cb'.onLeaf leaf (f s)
  metadataError : ∀ logical s, f (cb.onMetadataError logical s) = cb'.onMetadataError logical (f s)
  stale : ∀ logical s, f (cb.onStale logical s) = cb'.onStale logical (f s)
  mirrorMismatch : ∀ logical s,
    f (cb.onMirrorMismatch logical s) = cb'.onMirrorMismatch logical (f s)
  readError : ∀ logical s, f (cb.onReadError logical s) = cb'.onReadError logical (f s)

theorem visitRef_map (h : cb.MapsTo f cb') (reader : FsReader m) (chunkMap : ChunkMap)
    (bounds : Option (Key × Key)) (ref : NodeRef) (s : S) :
    Prod.map id f <$> visitRef reader chunkMap bounds cb ref s =
      visitRef reader chunkMap bounds cb' ref (f s) := by
  unfold visitRef
  rw [map_bind]
  congr 1
  funext got
  cases got with
  | error e => simp [h.readError]
  | ok res =>
      dsimp only
      split
      · simp [h.metadataError]
      · split
        · simp [h.stale]
        · have hs : f (if res.mirrorMismatch then cb.onMirrorMismatch ref.logical s else s) =
              if res.mirrorMismatch then cb'.onMirrorMismatch ref.logical (f s) else f s := by
            split
            · exact h.mirrorMismatch _ _
            · rfl
          cases res.node with
          | none => exact LawfulHalt.map_throw _ _
          | some node =>
              cases node with
              | internal node =>
                  rw [map_pure, Prod.map_apply, hs]
                  rfl
              | leaf leaf =>
                  dsimp only
                  rw [← hs, ← h.leaf, ← map_liftExec, map_bind, bind_map_left]
                  congr 1
                  funext v
                  exact map_pure _ _

/-- A walk does the same to the part as a walk with the part alone. -/
theorem walkLeavesImpl_map (h : cb.MapsTo f cb') (reader : FsReader m) (chunkMap : ChunkMap)
    (root : UInt64) (bounds : Option (Key × Key)) (s : S) :
    Prod.map id f <$> walkLeavesImpl reader chunkMap root bounds cb s =
      walkLeavesImpl reader chunkMap root bounds cb' (f s) :=
  Lib.explore_map f (LawfulHalt.map_throw _ _) (visitRef_map h reader chunkMap bounds) _ _ s

end Walk
end Rotshield.Btrfs
