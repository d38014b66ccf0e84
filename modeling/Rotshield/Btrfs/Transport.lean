import Rotshield.Btrfs.ScrubDriver
import Rotshield.Lib.MonadMap

/-! What a walk and an open do over content that stays as it is, on a device that has a state of
its own. -/
namespace Rotshield.Btrfs
open Lib (MonadMap)

/-- A map that keeps halts too. -/
structure HaltMap (m n : Type → Type) [Monad m] [Monad n] [MonadExceptOf Halt m]
    [MonadExceptOf Halt n] extends MonadMap m n where
  app_throw : ∀ {α : Type} (h : Halt), app (throw h : m α) = throw h

/-- The same computation, in a monad with a state. -/
def HaltMap.stateful (σ : Type) : HaltMap Exec (ExceptT Halt (StateM σ)) where
  app := liftExec
  app_pure _ := rfl
  app_bind x f := by
    cases x with
    | error h => rfl
    | ok a => rfl
  app_throw _ := rfl

section Maps
variable {m n : Type → Type} [Monad m] [Monad n] [MonadExceptOf Halt m] [MonadExceptOf Halt n]
  (φ : HaltMap m n)

theorem HaltMap.app_liftExec {α : Type} (x : Exec α) :
    φ.app (liftExec x : m α) = liftExec x := by
  cases x with
  | ok a => exact φ.app_pure a
  | error h => exact φ.app_throw h

def FsReader.via (reader : FsReader m) : FsReader n where
  config := reader.config
  pread offset n := φ.app (reader.pread offset n)

theorem readLogical_via (reader : FsReader m) (chunkMap : ChunkMap) (logical : UInt64) (n : Nat) :
    (reader.via φ).readLogical chunkMap logical n = φ.app (reader.readLogical chunkMap logical n) := by
  unfold FsReader.readLogical
  refine φ.bind_eq_app (φ.app_liftExec _).symm fun found => ?_
  cases found with
  | none => exact (φ.app_pure _).symm
  | some found => rfl

theorem readNode_via [LawfulMonad m] [LawfulMonad n] (reader : FsReader m) (chunkMap : ChunkMap)
    (logical expectedGeneration : UInt64) (expectedLevel : Option UInt8)
    (expectedOwner : Option UInt64) :
    (reader.via φ).readNode chunkMap logical expectedGeneration expectedLevel expectedOwner =
      φ.app (reader.readNode chunkMap logical expectedGeneration expectedLevel expectedOwner) := by
  have hconfig : (reader.via φ).config = reader.config := rfl
  unfold FsReader.readNode
  rw [hconfig]
  cases reader.config.strategy with
  | none =>
      dsimp only
      refine φ.bind_eq_app (readLogical_via ..) fun got => ?_
      cases got with
      | error e => exact (φ.app_pure _).symm
      | ok buf =>
          dsimp only
          refine φ.bind_eq_app (φ.app_liftExec _).symm fun node => ?_
          exact (φ.app_pure _).symm
  | some strategy =>
      dsimp only
      refine φ.bind_eq_app (φ.app_mapM _ _).symm fun copies => ?_
      refine φ.bind_eq_app (φ.app_liftExec _).symm fun acc => ?_
      exact (φ.app_liftExec _).symm

theorem visitRef_via [LawfulMonad m] [LawfulMonad n] {S : Type} (reader : FsReader m)
    (chunkMap : ChunkMap) (bounds : Option (Key × Key)) (cb : Callbacks S) (ref : NodeRef) (s : S) :
    visitRef (reader.via φ) chunkMap bounds cb ref s =
      φ.app (visitRef reader chunkMap bounds cb ref s) := by
  unfold visitRef
  dsimp only
  refine φ.bind_eq_app (readNode_via ..) fun got => ?_
  cases got with
  | error e => exact (φ.app_pure _).symm
  | ok res =>
      dsimp only
      split
      · exact (φ.app_pure _).symm
      · split
        · exact (φ.app_pure _).symm
        · cases res.node with
          | none => exact (φ.app_throw _).symm
          | some node =>
              cases node with
              | internal node => exact (φ.app_pure _).symm
              | leaf leaf =>
                  dsimp only
                  refine φ.bind_eq_app (φ.app_liftExec _).symm fun v => ?_
                  exact (φ.app_pure _).symm

theorem walkLeavesImpl_via [LawfulMonad m] [LawfulMonad n] {S : Type} (reader : FsReader m)
    (chunkMap : ChunkMap) (root : UInt64) (bounds : Option (Key × Key)) (cb : Callbacks S) (s : S) :
    walkLeavesImpl (reader.via φ) chunkMap root bounds cb s =
      φ.app (walkLeavesImpl reader chunkMap root bounds cb s) := by
  have hvisit : visitRef (reader.via φ) chunkMap bounds cb =
      fun ref s => φ.app (visitRef reader chunkMap bounds cb ref s) := by
    funext ref s
    exact visitRef_via φ reader chunkMap bounds cb ref s
  unfold walkLeavesImpl
  rw [φ.app_explore, φ.app_throw, hvisit]
  rfl

/-! ### The csum walks -/

def LazyCsumProvider.via (p : LazyCsumProvider m) : LazyCsumProvider n where
  reader := p.reader.via φ
  chunkMap := p.chunkMap
  strategy := p.strategy
  csumRoot := p.csumRoot
  tallies := p.tallies

theorem range_via [LawfulMonad m] [LawfulMonad n] (p : LazyCsumProvider m)
    (logicalLo logicalHi : UInt64) :
    (p.via φ).range logicalLo logicalHi =
      φ.app (do
        let (entries, p) ← p.range logicalLo logicalHi
        return (entries, p.via φ)) := by
  unfold LazyCsumProvider.range walkLeavesRange
  simp only [bind_assoc, pure_bind]
  refine φ.bind_eq_app (walkLeavesImpl_via ..) fun v => ?_
  exact (φ.app_pure _).symm

/-! ### The superblock -/

theorem readOne_via (crates : HashCrates) (pread : UInt64 → Nat → m (Except IoError Bytes))
    (offset : UInt64) :
    Superblock.readOne crates (fun offset n => φ.app (pread offset n)) offset =
      φ.app (Superblock.readOne crates pread offset) := by
  unfold Superblock.readOne
  refine φ.bind_eq_app rfl fun got => ?_
  cases got with
  | error e => exact (φ.app_pure _).symm
  | ok buf => exact (φ.app_liftExec _).symm

theorem readCopies_via (crates : HashCrates) (pread : UInt64 → Nat → m (Except IoError Bytes))
    (offset : UInt64) (offsets : List UInt64) (lastErr : Option IoError) :
    Superblock.readCopies crates (fun offset n => φ.app (pread offset n)) offset offsets lastErr =
      φ.app (Superblock.readCopies crates pread offset offsets lastErr) := by
  induction offsets generalizing lastErr with
  | nil => exact (φ.app_pure _).symm
  | cons sbOff rest ih =>
      unfold Superblock.readCopies
      refine φ.bind_eq_app (readOne_via ..) fun got => ?_
      cases got with
      | ok sb => exact (φ.app_pure _).symm
      | error e =>
          cases e with
          | unexpectedEof => exact ih lastErr
          | invalidData => exact ih _
          | invalidInput => exact ih _
          | notFound => exact ih _
          | other => exact ih _

/-! ### Open -/

def Backing.via (file : Backing m) : Backing n where
  pread offset n := φ.app (file.pread offset n)
  size := φ.app file.size
  reopen := φ.app file.reopen

def BtrfsContext.via (ctx : BtrfsContext m) : BtrfsContext n where
  reader := ctx.reader.via φ
  chunkMap := ctx.chunkMap
  superblock := ctx.superblock
  roots := ctx.roots
  strategy := ctx.strategy
  errors := ctx.errors

theorem readChunkMap_via [LawfulMonad m] [LawfulMonad n] (reader : FsReader m)
    (superblock : Superblock) (errors : MetadataErrors) :
    readChunkMap (reader.via φ) superblock errors =
      φ.app (readChunkMap reader superblock errors) := by
  unfold readChunkMap walkLeaves
  refine φ.bind_eq_app (φ.app_liftExec _).symm fun sysChunks => ?_
  dsimp only
  refine φ.bind_eq_app (walkLeavesImpl_via ..) fun v => ?_
  obtain ⟨walk, records, errors⟩ := v
  cases walk with
  | error e => exact (φ.app_pure _).symm
  | ok u =>
      dsimp only
      split <;> exact (φ.app_pure _).symm

theorem readRoots_via [LawfulMonad m] [LawfulMonad n] (reader : FsReader m) (chunkMap : ChunkMap)
    (superblock : Superblock) (errors : MetadataErrors) :
    readRoots (reader.via φ) chunkMap superblock errors =
      φ.app (readRoots reader chunkMap superblock errors) := by
  unfold readRoots walkLeaves
  refine φ.bind_eq_app (walkLeavesImpl_via ..) fun v => ?_
  obtain ⟨walk, roots, errors⟩ := v
  cases walk with
  | error e => exact (φ.app_pure _).symm
  | ok u => exact (φ.app_pure _).symm

theorem buildDevExtents_via [LawfulMonad m] [LawfulMonad n] (reader : FsReader m)
    (chunkMap : ChunkMap) (devTreeRoot devid : UInt64) (errors : MetadataErrors) :
    buildDevExtents (reader.via φ) chunkMap devTreeRoot devid errors =
      φ.app (buildDevExtents reader chunkMap devTreeRoot devid errors) := by
  unfold buildDevExtents walkLeaves
  refine φ.bind_eq_app (walkLeavesImpl_via ..) fun v => ?_
  exact (φ.app_pure _).symm

theorem openFs_via [LawfulMonad m] [LawfulMonad n] (crates : HashCrates) (file : Backing m)
    (baseOffset : UInt64) :
    openFs crates (file.via φ) baseOffset =
      φ.app (do return (← openFs crates file baseOffset).map (BtrfsContext.via φ)) := by
  unfold openFs
  simp only [bind_assoc]
  refine φ.bind_eq_app (readCopies_via ..) fun got => ?_
  cases got with
  | error e => rw [pure_bind]; exact (φ.app_pure _).symm
  | ok superblock =>
      dsimp only
      split
      · rw [pure_bind]
        exact (φ.app_pure _).symm
      · simp only [bind_assoc]
        refine φ.bind_eq_app (readOne_via ..) fun primary => ?_
        refine φ.bind_eq_app rfl fun size => ?_
        split
        · rw [pure_bind]
          exact (φ.app_pure _).symm
        · cases CsumStrategy.fromSuperblock crates superblock.csumType superblock.sectorSize with
          | error e => rw [pure_bind]; exact (φ.app_pure _).symm
          | ok strategy =>
              dsimp only
              simp only [bind_assoc]
              refine φ.bind_eq_app (readChunkMap_via φ ⟨_, file.pread⟩ superblock _) fun chunks => ?_
              obtain ⟨chunkMap, errors⟩ := chunks
              cases chunkMap with
              | error e => rw [pure_bind]; exact (φ.app_pure _).symm
              | ok chunkMap =>
                  dsimp only
                  simp only [bind_assoc]
                  refine φ.bind_eq_app (readRoots_via φ ⟨_, file.pread⟩ chunkMap superblock _)
                    fun found => ?_
                  obtain ⟨roots, errors⟩ := found
                  cases roots with
                  | error e => rw [pure_bind]; exact (φ.app_pure _).symm
                  | ok roots => rw [pure_bind]; exact (φ.app_pure _).symm

def BtrfsScrub.via (scrub : BtrfsScrub m) : BtrfsScrub n where
  reader := scrub.reader.via φ
  chunkMap := scrub.chunkMap
  csumProvider := scrub.csumProvider.via φ
  devExtents := scrub.devExtents
  strategy := scrub.strategy
  superblock := scrub.superblock
  errors := scrub.errors

theorem openScrub_via [LawfulMonad m] [LawfulMonad n] (crates : HashCrates) (file : Backing m)
    (baseOffset : UInt64) :
    BtrfsScrub.openScrub crates (file.via φ) baseOffset =
      φ.app (do return (← BtrfsScrub.openScrub crates file baseOffset).map (BtrfsScrub.via φ)) := by
  unfold BtrfsScrub.openScrub
  simp only [bind_assoc]
  rw [φ.app_bind, openFs_via, φ.app_bind, bind_assoc]
  congr 1
  funext got
  rw [φ.app_pure, pure_bind]
  cases got with
  | error e => rw [pure_bind]; exact (φ.app_pure _).symm
  | ok ctx =>
      simp only [bind_assoc, Except.map]
      refine φ.bind_eq_app rfl fun reopened => ?_
      cases reopened with
      | error e => rw [pure_bind]; exact (φ.app_pure _).symm
      | ok u =>
          dsimp only [BtrfsContext.via]
          cases ctx.roots.devTreeRoot with
          | none => rw [pure_bind]; exact (φ.app_pure _).symm
          | some devTreeRoot =>
              dsimp only
              simp only [bind_assoc]
              refine φ.bind_eq_app (buildDevExtents_via ..) fun found => ?_
              obtain ⟨devExtents, errors⟩ := found
              cases devExtents with
              | error e => rw [pure_bind]; exact (φ.app_pure _).symm
              | ok devExtents => rw [pure_bind]; exact (φ.app_pure _).symm

/-! ### A sector that is judged on the spot -/

theorem visit_via [LawfulMonad m] [LawfulMonad n] (reader : FsReader m) (chunkMap : ChunkMap)
    (target : Key) (nodeLogical : UInt64) :
    visit (reader.via φ) chunkMap target nodeLogical =
      φ.app (visit reader chunkMap target nodeLogical) := by
  unfold visit
  refine φ.bind_eq_app (readNode_via ..) fun got => ?_
  cases got with
  | error e => exact (φ.app_pure _).symm
  | ok res =>
      dsimp only
      split
      · exact (φ.app_pure _).symm
      · cases res.node with
        | none => exact (φ.app_throw _).symm
        | some node =>
            cases node with
            | leaf leaf => exact (φ.app_pure _).symm
            | internal node =>
                dsimp only
                cases childFor target node.ptrs with
                | none => exact (φ.app_pure _).symm
                | some ptr => exact (φ.app_pure _).symm

theorem descend_via [LawfulMonad m] [LawfulMonad n] (reader : FsReader m) (chunkMap : ChunkMap)
    (target : Key) (depth : Nat) (nodeLogical : UInt64) :
    descend (reader.via φ) chunkMap target depth nodeLogical =
      φ.app (descend reader chunkMap target depth nodeLogical) := by
  induction depth generalizing nodeLogical with
  | zero => exact (φ.app_pure _).symm
  | succ depth ih =>
      unfold descend
      refine φ.bind_eq_app (visit_via ..) fun found => ?_
      cases found with
      | inl found => exact (φ.app_pure _).symm
      | inr child => exact ih child

theorem extentCovers_via [LawfulMonad m] [LawfulMonad n] (reader : FsReader m)
    (chunkMap : ChunkMap) (extentRoot logical : UInt64) :
    extentCovers (reader.via φ) chunkMap extentRoot logical =
      φ.app (extentCovers reader chunkMap extentRoot logical) := by
  unfold extentCovers
  refine φ.bind_eq_app (descend_via ..) fun found => ?_
  cases found with
  | unreadable => exact (φ.app_pure _).symm
  | before => exact (φ.app_pure _).symm
  | leaf leaf => exact (φ.app_liftExec _).symm

theorem csumAt_via [LawfulMonad m] [LawfulMonad n] (reader : FsReader m) (chunkMap : ChunkMap)
    (csumRoot logical : UInt64) (hashLen : Nat) (sectorSize : UInt64) :
    csumAt (reader.via φ) chunkMap csumRoot logical hashLen sectorSize =
      φ.app (csumAt reader chunkMap csumRoot logical hashLen sectorSize) := by
  unfold csumAt
  dsimp only
  by_cases hsize : sectorSize = 0
  on_goal 1 =>
    rw [if_pos hsize, if_pos hsize]
    refine φ.bind_eq_app (φ.app_throw _).symm fun _ => ?_
  on_goal 2 => rw [if_neg hsize, if_neg hsize]
  all_goals
    refine φ.bind_eq_app (descend_via ..) fun found => ?_
    cases found with
    | unreadable => exact (φ.app_pure _).symm
    | before => exact (φ.app_pure _).symm
    | leaf leaf => exact (φ.app_liftExec _).symm

theorem reconfirmMismatch_via [LawfulMonad m] [LawfulMonad n] (reader : FsReader m)
    (chunkMap : ChunkMap) (extentRoot csumRoot logical : UInt64) (stored : Bytes) (hashLen : Nat)
    (sectorSize : UInt64) :
    reconfirmMismatch (reader.via φ) chunkMap extentRoot csumRoot logical stored hashLen sectorSize =
      φ.app (reconfirmMismatch reader chunkMap extentRoot csumRoot logical stored hashLen
        sectorSize) := by
  unfold reconfirmMismatch
  refine φ.bind_eq_app (extentCovers_via ..) fun found => ?_
  cases found with
  | hole => exact (φ.app_pure _).symm
  | noDataSum => exact (φ.app_pure _).symm
  | unreadable => exact (φ.app_pure _).symm
  | live =>
      dsimp only
      refine φ.bind_eq_app (csumAt_via ..) fun held => ?_
      cases held <;> exact (φ.app_pure _).symm

theorem readLiveSuperblock_via (crates : HashCrates) (reopen : m (Except IoError Unit))
    (reader : FsReader m) (baseOffset : UInt64) (counters : Counters) :
    readLiveSuperblock crates (φ.app reopen) (reader.via φ) baseOffset counters =
      φ.app (readLiveSuperblock crates reopen reader baseOffset counters) := by
  unfold readLiveSuperblock
  refine φ.bind_eq_app rfl fun opened => ?_
  cases opened with
  | error e => exact (φ.app_pure _).symm
  | ok u =>
      dsimp only
      refine φ.bind_eq_app (readCopies_via φ crates reader.pread ..) fun got => ?_
      cases got <;> exact (φ.app_pure _).symm

theorem resolveLiveTreeRoots_via [LawfulMonad m] [LawfulMonad n] (reader : FsReader m)
    (chunkMap : ChunkMap) (counters : Counters) (sb : Superblock) :
    resolveLiveTreeRoots (reader.via φ) chunkMap counters sb =
      φ.app (resolveLiveTreeRoots reader chunkMap counters sb) := by
  unfold resolveLiveTreeRoots walkLeaves
  refine φ.bind_eq_app (walkLeavesImpl_via ..) fun v => ?_
  obtain ⟨walk, roots, counters⟩ := v
  dsimp only
  cases roots.both with
  | some found => exact (φ.app_pure _).symm
  | none => cases walk <;> exact (φ.app_pure _).symm

theorem liveDataTreeRoots_via [LawfulMonad m] [LawfulMonad n] (crates : HashCrates)
    (reopen : m (Except IoError Unit)) (reader : FsReader m) (chunkMap : ChunkMap)
    (baseOffset : UInt64) (counters : Counters) :
    liveDataTreeRoots crates (φ.app reopen) (reader.via φ) chunkMap baseOffset counters =
      φ.app (liveDataTreeRoots crates reopen reader chunkMap baseOffset counters) := by
  unfold liveDataTreeRoots
  refine φ.bind_eq_app (readLiveSuperblock_via ..) fun live => ?_
  obtain ⟨sb, counters⟩ := live
  cases sb with
  | none => exact (φ.app_pure _).symm
  | some sb => exact resolveLiveTreeRoots_via φ reader chunkMap counters sb

theorem readPhysical_via (reader : FsReader m) (devid phys : UInt64) (len : Nat) :
    (reader.via φ).readPhysical devid phys len = φ.app (reader.readPhysical devid phys len) := by
  unfold FsReader.readPhysical
  change (if reader.config.devid.all (· == devid) then _ else _) = _
  split
  · rfl
  · exact (φ.app_pure _).symm

def ScrubContext.via (ctx : ScrubContext m) : ScrubContext n where
  reader := ctx.reader.via φ
  reopen := φ.app ctx.reopen
  chunkMap := ctx.chunkMap
  strategy := ctx.strategy
  batch := ctx.batch
  isolationLimit := ctx.isolationLimit
  isolationLimit_pos := ctx.isolationLimit_pos

theorem freshMismatch_via (ctx : ScrubContext m) (dext : DevExtent) (entry : CsumEntry) :
    freshMismatch (ctx.via φ) dext entry = φ.app (freshMismatch ctx dext entry) := by
  unfold freshMismatch
  refine φ.bind_eq_app (readPhysical_via ..) fun got => ?_
  cases got <;> exact (φ.app_pure _).symm

theorem reconfirmSector_via [LawfulMonad m] [LawfulMonad n] (ctx : ScrubContext m)
    (dext : DevExtent) (entry : CsumEntry) (actual : Bytes) (out : ScrubOut) :
    reconfirmSector (ctx.via φ) dext entry actual out =
      φ.app (reconfirmSector ctx dext entry actual out) := by
  unfold reconfirmSector
  refine φ.bind_eq_app (liveDataTreeRoots_via ..) fun live => ?_
  obtain ⟨roots, counters⟩ := live
  cases roots with
  | none => exact (φ.app_pure _).symm
  | some roots =>
      dsimp only
      refine φ.bind_eq_app (reconfirmMismatch_via ..) fun verdict => ?_
      refine φ.bind_eq_app ?_ fun isCorruption => ?_
      · split
        · exact freshMismatch_via φ ctx dext entry
        · exact (φ.app_pure _).symm
      · cases isCorruption <;> exact (φ.app_pure _).symm

/-- A sector is verified the same way in a state. -/
theorem processSector_via [LawfulMonad m] [LawfulMonad n] (ctx : ScrubContext m) (dext : DevExtent)
    (out : ScrubOut) (sector : CsumEntry × Bytes) :
    processSector (ctx.via φ) dext out sector = φ.app (processSector ctx dext out sector) := by
  unfold processSector
  dsimp only
  change (if sector.2 = sector.1.csum then _ else if ctx.batch then _ else _) = _
  split
  · exact (φ.app_pure _).symm
  · split
    · exact (φ.app_pure _).symm
    · exact reconfirmSector_via φ ctx dext sector.1 sector.2 _

end Maps
end Rotshield.Btrfs
