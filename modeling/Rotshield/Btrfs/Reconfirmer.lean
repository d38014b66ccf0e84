import Rotshield.Btrfs.CraftCommit
import Rotshield.Btrfs.Open
import Rotshield.Btrfs.Extent
import Rotshield.Btrfs.WalkMap

/-! Re-confirmation at write time keeps the live roots it resolved; the cache changes no verdict. -/
namespace Rotshield.Btrfs

variable {m : Type → Type} [Monad m] [MonadExceptOf Halt m]

/-- Re-confirms mismatched sectors against live metadata at write time. -/
structure BtrfsReconfirmer (m : Type → Type) where
  reader : FsReader m
  reopen : m (Except IoError Unit)
  chunkMap : ChunkMap
  strategy : CsumStrategy

/-- Between two calls. -/
structure ReconfirmerState where
  /-- The superblock generation, the extent root and the csum root. -/
  cachedRoots : Option (UInt64 × UInt64 × UInt64)
  counters : Counters

namespace ReconfirmerState

def new (counters : Counters) : ReconfirmerState := ⟨none, counters⟩

/-- A failure to resolve keeps what is cached. -/
def keep (s : ReconfirmerState) (generation : UInt64) (roots : Option (UInt64 × UInt64))
    (counters : Counters) : ReconfirmerState where
  cachedRoots := match roots with
    | some (ext, csum) => some (generation, ext, csum)
    | none => s.cachedRoots
  counters

end ReconfirmerState

/-- The cached roots, while the generation still matches. -/
def cachedRootsAt (cached : Option (UInt64 × UInt64 × UInt64)) (generation : UInt64) :
    Option (UInt64 × UInt64) :=
  match cached with
  | some (cachedGen, ext, csum) => if cachedGen = generation then some (ext, csum) else none
  | none => none

namespace BtrfsReconfirmer

/-- The roots for this superblock, cached or resolved. -/
def rootsFor (rc : BtrfsReconfirmer m) (sb : Superblock) (s : ReconfirmerState) :
    m (Option (UInt64 × UInt64) × ReconfirmerState) :=
  match cachedRootsAt s.cachedRoots sb.generation with
  | some roots => return (some roots, s)
  | none => do
      let (roots, counters) ← resolveLiveTreeRoots rc.reader rc.chunkMap s.counters sb
      return (roots, s.keep sb.generation roots counters)

def verdict (rc : BtrfsReconfirmer m) (req : ReconfirmRequest) :
    Option (UInt64 × UInt64) → m Reconfirm
  | none => return .unverifiable
  | some (ext, csum) => reconfirmMismatch rc.reader rc.chunkMap ext csum (.ofNat req.token)
      req.storedCsum rc.strategy.hashLen rc.strategy.sectorSize

def reconfirm (rc : BtrfsReconfirmer m) (req : ReconfirmRequest) (s : ReconfirmerState) :
    m (Reconfirm × ReconfirmerState) := do
  let (sb, counters) ← readLiveSuperblock rc.strategy.crates rc.reopen rc.reader
    rc.reader.config.baseOffset s.counters
  match sb with
  | none => return (.unverifiable, { s with counters })
  | some sb =>
      let (roots, s) ← rc.rootsFor sb { s with counters }
      return (← rc.verdict req roots, s)

end BtrfsReconfirmer

/-! ### The counters change nothing else -/

section Counters
variable [LawfulMonad m] [LawfulHalt m]

/-- The walk for the live roots without counters. -/
def rootCallbacks : Callbacks LiveRoots where
  onLeaf leaf s := liveRootSlots leaf leaf.slots s
  onMetadataError _ s := s
  onStale _ s := s
  onMirrorMismatch _ s := s
  onReadError _ s := s

theorem liveCallbacks_mapsTo : liveCallbacks.MapsTo Prod.fst rootCallbacks where
  leaf leaf s := by
    obtain ⟨roots, counters⟩ := s
    unfold liveCallbacks rootCallbacks
    dsimp only
    cases liveRootSlots leaf leaf.slots roots <;> rfl
  metadataError _ _ := rfl
  stale _ _ := rfl
  mirrorMismatch _ _ := rfl
  readError _ _ := rfl

/-- What is resolved does not depend on the counters. -/
theorem resolveLiveTreeRoots_map (reader : FsReader m) (chunkMap : ChunkMap) (counters : Counters)
    (sb : Superblock) :
    Prod.fst <$> resolveLiveTreeRoots reader chunkMap counters sb =
      (fun v => v.2.both) <$> walkLeaves reader chunkMap sb.root rootCallbacks {} := by
  have hwalk := walkLeavesImpl_map liveCallbacks_mapsTo reader chunkMap sb.root none ({}, counters)
  unfold resolveLiveTreeRoots walkLeaves
  rw [← hwalk, Functor.map_map, map_bind, ← bind_pure_comp]
  congr 1
  funext v
  obtain ⟨walk, roots, counters'⟩ := v
  dsimp only [Prod.map_apply]
  cases roots.both with
  | some found => exact map_pure _ _
  | none => cases walk <;> exact map_pure _ _

omit [LawfulHalt m] in
theorem readLiveSuperblock_map (crates : HashCrates) (reopen : m (Except IoError Unit))
    (reader : FsReader m) (baseOffset : UInt64) (counters counters' : Counters) :
    Prod.fst <$> readLiveSuperblock crates reopen reader baseOffset counters =
      Prod.fst <$> readLiveSuperblock crates reopen reader baseOffset counters' := by
  unfold readLiveSuperblock
  rw [map_bind, map_bind]
  congr 1
  funext opened
  cases opened with
  | error e => simp
  | ok _ =>
      dsimp only
      rw [map_bind, map_bind]
      congr 1
      funext sb
      cases sb <;> simp

end Counters

/-! ### Calls while the filesystem changes -/

/-- The file as one call finds it, and whether it can be opened once more. -/
structure Moment where
  image : Image
  reopens : Except IoError Unit

/-- What all calls share. -/
structure ReconfirmerConfig where
  config : ReaderConfig
  chunkMap : ChunkMap
  strategy : CsumStrategy

section Calls
variable {rc : ReconfirmerConfig} {moment : Moment} {req : ReconfirmRequest} {s s' : ReconfirmerState}

namespace ReconfirmerConfig

def during (rc : ReconfirmerConfig) (moment : Moment) : BtrfsReconfirmer Exec where
  reader := moment.image.reader rc.config
  reopen := .ok moment.reopens
  chunkMap := rc.chunkMap
  strategy := rc.strategy

/-- The live superblock at a moment. -/
def superblock (rc : ReconfirmerConfig) (moment : Moment) : Exec (Option Superblock) :=
  Prod.fst <$> readLiveSuperblock rc.strategy.crates (rc.during moment).reopen (rc.during moment).reader
    rc.config.baseOffset none

/-- What the roots resolve to at a moment. -/
def resolve (rc : ReconfirmerConfig) (moment : Moment) (sb : Superblock) :
    Exec (Option (UInt64 × UInt64)) :=
  Prod.fst <$> resolveLiveTreeRoots (rc.during moment).reader rc.chunkMap none sb

/-- The generation of the live superblock determines what the roots resolve to. -/
def Determined (rc : ReconfirmerConfig) (rootsOf : UInt64 → Exec (Option (UInt64 × UInt64)))
    (moment : Moment) : Prop :=
  ∀ sb, rc.superblock moment = .ok (some sb) → rc.resolve moment sb = rootsOf sb.generation

/-- One call after the other. -/
def calls (rc : ReconfirmerConfig) (cs : List (Moment × ReconfirmRequest)) (s : ReconfirmerState) :
    Exec ReconfirmerState :=
  cs.foldlM (fun s c => Prod.snd <$> (rc.during c.1).reconfirm c.2 s) s

end ReconfirmerConfig

/-- Cached roots are what their generation resolves to. -/
def ReconfirmerState.Fresh (rootsOf : UInt64 → Exec (Option (UInt64 × UInt64)))
    (s : ReconfirmerState) : Prop :=
  ∀ generation ext csum, s.cachedRoots = some (generation, ext, csum) →
    rootsOf generation = .ok (some (ext, csum))

theorem superblock_of_read {counters : Counters} {v : Option Superblock × Counters}
    (h : readLiveSuperblock rc.strategy.crates (rc.during moment).reopen (rc.during moment).reader
      (rc.during moment).reader.config.baseOffset counters = .ok v) : rc.superblock moment = .ok v.1 := by
  unfold ReconfirmerConfig.superblock
  rw [readLiveSuperblock_map _ _ _ _ none counters]
  have hconfig : (rc.during moment).reader.config.baseOffset = rc.config.baseOffset := rfl
  rw [hconfig] at h
  rw [h]
  rfl

theorem resolve_of_walk {counters : Counters} {sb : Superblock}
    {v : Option (UInt64 × UInt64) × Counters}
    (h : resolveLiveTreeRoots (rc.during moment).reader (rc.during moment).chunkMap counters sb = .ok v) :
    rc.resolve moment sb = .ok v.1 := by
  unfold ReconfirmerConfig.resolve
  have hchunks : (rc.during moment).chunkMap = rc.chunkMap := rfl
  rw [hchunks] at h
  rw [resolveLiveTreeRoots_map, ← resolveLiveTreeRoots_map _ _ counters, h]
  rfl

variable {rootsOf : UInt64 → Exec (Option (UInt64 × UInt64))}

/-- The roots for a superblock are what its generation resolves to, and stay so in the cache. -/
theorem rootsFor_fresh (hfresh : s.Fresh rootsOf) {sb : Superblock}
    (hresolve : rc.resolve moment sb = rootsOf sb.generation)
    {v : Option (UInt64 × UInt64) × ReconfirmerState}
    (h : (rc.during moment).rootsFor sb s = .ok v) :
    rootsOf sb.generation = .ok v.1 ∧ v.2.Fresh rootsOf := by
  unfold BtrfsReconfirmer.rootsFor at h
  split at h
  case h_1 roots hcached =>
      cases h
      refine ⟨?_, hfresh⟩
      unfold cachedRootsAt at hcached
      split at hcached
      case h_1 generation ext csum hstate =>
          split at hcached
          case isTrue hgen =>
              cases hcached
              rw [← hgen]
              exact hfresh _ _ _ hstate
          case isFalse => cases hcached
      case h_2 => cases hcached
  case h_2 =>
      cases hwalk : resolveLiveTreeRoots (rc.during moment).reader (rc.during moment).chunkMap s.counters sb with
      | error e => rw [hwalk] at h; cases h
      | ok found =>
          rw [hwalk] at h
          cases h
          have hroots := (resolve_of_walk hwalk).symm.trans hresolve
          refine ⟨hroots.symm, ?_⟩
          intro generation ext csum hcached
          unfold ReconfirmerState.keep at hcached
          split at hcached
          case h_1 ext' csum' hfound =>
              cases hcached
              rw [← hroots, hfound]
          case h_2 => exact hfresh _ _ _ hcached

/-- Cached or not, the roots are what the generation resolves to. -/
theorem rootsFor_fst (hfresh : s.Fresh rootsOf) {sb : Superblock}
    (hresolve : rc.resolve moment sb = rootsOf sb.generation) :
    Prod.fst <$> (rc.during moment).rootsFor sb s = rootsOf sb.generation := by
  cases h : (rc.during moment).rootsFor sb s with
  | ok v => exact (rootsFor_fresh hfresh hresolve h).1.symm
  | error e =>
      unfold BtrfsReconfirmer.rootsFor at h
      split at h
      case h_1 => cases h
      case h_2 =>
          rw [← hresolve]
          unfold ReconfirmerConfig.resolve
          rw [resolveLiveTreeRoots_map, ← resolveLiveTreeRoots_map _ _ s.counters]
          cases hwalk : resolveLiveTreeRoots (rc.during moment).reader (rc.during moment).chunkMap
              s.counters sb with
          | ok found => rw [hwalk] at h; cases h
          | error e' =>
              rw [hwalk] at h
              cases h
              have hchunks : (rc.during moment).chunkMap = rc.chunkMap := rfl
              rw [← hchunks, hwalk]
              rfl

/-- A call, one step after the other. -/
theorem reconfirm_eq (req : ReconfirmRequest) (s : ReconfirmerState) :
    (rc.during moment).reconfirm req s =
      (readLiveSuperblock rc.strategy.crates (rc.during moment).reopen (rc.during moment).reader
        rc.config.baseOffset s.counters).bind fun v => match v.1 with
          | none => .ok (.unverifiable, { s with counters := v.2 })
          | some sb => ((rc.during moment).rootsFor sb { s with counters := v.2 }).bind fun r =>
              ((rc.during moment).verdict req r.1).map fun verdict => (verdict, r.2) := by
  rfl

/-- A call keeps the cache fresh. -/
theorem reconfirm_fresh (hdet : rc.Determined rootsOf moment) (hfresh : s.Fresh rootsOf)
    {v : Reconfirm × ReconfirmerState} (h : (rc.during moment).reconfirm req s = .ok v) :
    v.2.Fresh rootsOf := by
  rw [reconfirm_eq] at h
  cases hread : readLiveSuperblock rc.strategy.crates (rc.during moment).reopen
      (rc.during moment).reader rc.config.baseOffset s.counters with
  | error e => rw [hread] at h; cases h
  | ok live =>
      rw [hread] at h
      obtain ⟨sb, counters⟩ := live
      cases sb with
      | none =>
          cases h
          exact hfresh
      | some sb =>
          have hresolve := hdet sb (superblock_of_read hread)
          have hfresh' : ReconfirmerState.Fresh rootsOf { s with counters } := hfresh
          dsimp only [Except.bind] at h
          cases hroots : (rc.during moment).rootsFor sb { s with counters } with
          | error e => rw [hroots] at h; cases h
          | ok r =>
              rw [hroots] at h
              dsimp only at h
              cases hverdict : (rc.during moment).verdict req r.1 with
              | error e => rw [hverdict] at h; cases h
              | ok verdict =>
                  rw [hverdict] at h
                  cases h
                  exact (rootsFor_fresh hfresh' hresolve hroots).2

/-- Given the superblock, the verdict depends on its generation and the file alone. -/
theorem reconfirm_fst (hdet : rc.Determined rootsOf moment) (hfresh : s.Fresh rootsOf) :
    Prod.fst <$> (rc.during moment).reconfirm req s =
      (rc.superblock moment).bind fun sb => match sb with
        | none => .ok .unverifiable
        | some sb => (rootsOf sb.generation).bind ((rc.during moment).verdict req) := by
  rw [reconfirm_eq]
  have hsb := readLiveSuperblock_map rc.strategy.crates (rc.during moment).reopen
    (rc.during moment).reader rc.config.baseOffset none s.counters
  cases hread : readLiveSuperblock rc.strategy.crates (rc.during moment).reopen
      (rc.during moment).reader rc.config.baseOffset s.counters with
  | error e =>
      unfold ReconfirmerConfig.superblock
      rw [hsb, hread]
      rfl
  | ok live =>
      rw [superblock_of_read hread]
      obtain ⟨sb, counters⟩ := live
      cases sb with
      | none => rfl
      | some sb =>
          have hresolve := hdet sb (superblock_of_read hread)
          have hfresh' : ReconfirmerState.Fresh rootsOf { s with counters } := hfresh
          dsimp only [Except.bind]
          rw [← rootsFor_fst hfresh' hresolve]
          cases (rc.during moment).rootsFor sb { s with counters } with
          | error e => rfl
          | ok r =>
              dsimp only [Functor.map, Except.map]
              cases (rc.during moment).verdict req r.1 <;> rfl

/-- A call gives the verdict it gives without the cache. -/
theorem reconfirm_uncached (hdet : rc.Determined rootsOf moment) (hfresh : s.Fresh rootsOf) :
    Prod.fst <$> (rc.during moment).reconfirm req s =
      Prod.fst <$> (rc.during moment).reconfirm req { s with cachedRoots := none } := by
  have hcleared : ReconfirmerState.Fresh rootsOf { s with cachedRoots := none } := by
    rintro generation ext csum ⟨⟩
  rw [reconfirm_fst hdet hfresh, reconfirm_fst hdet hcleared]

theorem new_fresh (counters : Counters) : (ReconfirmerState.new counters).Fresh rootsOf := by
  rintro generation ext csum ⟨⟩

theorem calls_fresh {cs : List (Moment × ReconfirmRequest)}
    (hdet : ∀ c ∈ cs, rc.Determined rootsOf c.1) (hfresh : s.Fresh rootsOf)
    (h : rc.calls cs s = .ok s') : s'.Fresh rootsOf := by
  induction cs generalizing s with
  | nil =>
      cases h
      exact hfresh
  | cons c cs ih =>
      unfold ReconfirmerConfig.calls at h
      rw [List.foldlM_cons] at h
      cases hcall : (rc.during c.1).reconfirm c.2 s with
      | error e => rw [hcall] at h; cases h
      | ok v =>
          rw [hcall] at h
          exact ih (fun c hc => hdet c (List.mem_cons_of_mem _ hc))
            (reconfirm_fresh (hdet c List.mem_cons_self) hfresh hcall) h

/-- After any calls, on any files in between, the cache changes no verdict. -/
theorem reconfirm_transparent {cs : List (Moment × ReconfirmRequest)} {counters : Counters}
    (hdet : ∀ c ∈ cs, rc.Determined rootsOf c.1) (hnow : rc.Determined rootsOf moment)
    (h : rc.calls cs (.new counters) = .ok s) :
    Prod.fst <$> (rc.during moment).reconfirm req s =
      Prod.fst <$> (rc.during moment).reconfirm req { s with cachedRoots := none } :=
  reconfirm_uncached hnow (calls_fresh hdet (new_fresh counters) h)

end Calls

namespace Crafted

/-! Calls before and after a commit, and one that cannot read the superblock. -/

def commitReconfirmer : ReconfirmerConfig := { config, chunkMap, strategy }

/-- The sector whose extent the commit frees. -/
def sectorReq : ReconfirmRequest := ⟨0x20000, [1, 2, 3, 4]⟩

def zeroSector : Bytes := .replicate 4096 0

def liveMoment : Moment := ⟨commitImage liveSuperblock zeroSector [1, 2, 3, 4], .ok ()⟩

def committedMoment : Moment := ⟨commitImage committedSuperblock zeroSector [1, 2, 3, 4], .ok ()⟩

/-- The file cannot be opened once more. -/
def shutMoment : Moment := { liveMoment with reopens := .error .notFound }

/-- What the roots of a generation resolve to. -/
def commitRoots (generation : UInt64) : Exec (Option (UInt64 × UInt64)) :=
  if generation = 1 then .ok (some (0x500000, 0x600000)) else .ok (some (0x501000, 0x600000))

theorem zeroSector_length : zeroSector.length = 4096 := List.length_replicate

section Returns
variable {moment : Moment} {s : ReconfirmerState} {sb : Superblock} {ext csum : UInt64}
  {verdict : Reconfirm}

/-- A call that finds the roots keeps them, with their generation. -/
theorem reconfirm_returns {rc : ReconfirmerConfig} {req : ReconfirmRequest}
    (hread : ∀ counters, readLiveSuperblock rc.strategy.crates (rc.during moment).reopen
      (rc.during moment).reader rc.config.baseOffset counters = .ok (some sb, counters))
    (hresolve : ∀ counters, ∃ counters', resolveLiveTreeRoots (rc.during moment).reader rc.chunkMap
      counters sb = .ok (some (ext, csum), counters'))
    (hverdict : (rc.during moment).verdict req (some (ext, csum)) = .ok verdict)
    (hcached : cachedRootsAt s.cachedRoots sb.generation = none ∨
      s.cachedRoots = some (sb.generation, ext, csum)) :
    ∃ s', (rc.during moment).reconfirm req s = .ok (verdict, s') ∧
      s'.cachedRoots = some (sb.generation, ext, csum) := by
  have hroots : ∃ s', (rc.during moment).rootsFor sb s = .ok (some (ext, csum), s') ∧
      s'.cachedRoots = some (sb.generation, ext, csum) := by
    unfold BtrfsReconfirmer.rootsFor
    rcases hcached with hmiss | hhit
    · obtain ⟨counters', hresolved⟩ := hresolve s.counters
      have hfound : resolveLiveTreeRoots (rc.during moment).reader (rc.during moment).chunkMap
          s.counters sb = .ok (some (ext, csum), counters') := hresolved
      rw [hmiss]
      simp only [bind, Except.bind, hfound]
      exact ⟨_, rfl, rfl⟩
    · have hhere : cachedRootsAt s.cachedRoots sb.generation = some (ext, csum) := by
        rw [hhit]
        exact if_pos rfl
      rw [hhere]
      exact ⟨s, rfl, hhit⟩
  obtain ⟨s', hroots, hkept⟩ := hroots
  refine ⟨s', ?_, hkept⟩
  rw [reconfirm_eq, hread]
  dsimp only [Except.bind]
  rw [hroots]
  dsimp only
  rw [hverdict]
  rfl

/-- The roots are determined where they are the ones that are found. -/
theorem determined_of_reads {rc : ReconfirmerConfig}
    {roots : UInt64 → Exec (Option (UInt64 × UInt64))} {found : Option (UInt64 × UInt64)}
    (hread : readLiveSuperblock rc.strategy.crates (rc.during moment).reopen
      (rc.during moment).reader rc.config.baseOffset none = .ok (some sb, none))
    (hresolve : ∃ counters, resolveLiveTreeRoots (rc.during moment).reader rc.chunkMap none sb =
      .ok (found, counters))
    (hroots : roots sb.generation = .ok found) : rc.Determined roots moment := by
  intro sb' hsb'
  have hsb : rc.superblock moment = .ok (some sb) := congrArg (Prod.fst <$> ·) hread
  obtain rfl := Option.some.inj (Except.ok.inj (hsb.symm.trans hsb'))
  obtain ⟨counters, hresolve⟩ := hresolve
  rw [hroots]
  exact congrArg (Prod.fst <$> ·) hresolve

theorem calls_cons {rc : ReconfirmerConfig} {req : ReconfirmRequest} {s' : ReconfirmerState}
    (h : (rc.during moment).reconfirm req s = .ok (verdict, s'))
    (cs : List (Moment × ReconfirmRequest)) : rc.calls ((moment, req) :: cs) s = rc.calls cs s' := by
  unfold ReconfirmerConfig.calls
  rw [List.foldlM_cons, h]
  rfl

end Returns

theorem readLive_live (counters : Counters) : readLiveSuperblock strategy.crates
    (commitReconfirmer.during liveMoment).reopen (commitReconfirmer.during liveMoment).reader 0
      counters = .ok (some liveSuperblock, counters) :=
  readLiveSuperblock_ok (commit_superblock liveSuperblock_sized zeroSector_length rfl) counters

theorem readLive_committed (counters : Counters) : readLiveSuperblock strategy.crates
    (commitReconfirmer.during committedMoment).reopen
    (commitReconfirmer.during committedMoment).reader 0 counters =
      .ok (some committedSuperblock, counters) :=
  readLiveSuperblock_ok (commit_superblock committedSuperblock_sized zeroSector_length rfl) counters

theorem liveMoment_determined : commitReconfirmer.Determined commitRoots liveMoment :=
  determined_of_reads (readLive_live none) (live_roots liveSuperblock_sized zeroSector_length none)
    rfl

theorem committedMoment_determined : commitReconfirmer.Determined commitRoots committedMoment :=
  determined_of_reads (readLive_committed none)
    (committed_roots committedSuperblock_sized zeroSector_length none) rfl

theorem shutMoment_determined : commitReconfirmer.Determined commitRoots shutMoment := by
  rintro sb ⟨⟩

theorem verdict_live : (commitReconfirmer.during liveMoment).verdict sectorReq
    (some (0x500000, 0x600000)) = .ok .corruption :=
  live_verdict liveSuperblock_sized zeroSector_length rfl

theorem verdict_committed : (commitReconfirmer.during committedMoment).verdict sectorReq
    (some (0x501000, 0x600000)) = .ok .stale :=
  committed_verdict committedSuperblock_sized zeroSector_length rfl

theorem reconfirm_live {s : ReconfirmerState}
    (hcached : cachedRootsAt s.cachedRoots 1 = none ∨
      s.cachedRoots = some (1, 0x500000, 0x600000)) :
    ∃ s', (commitReconfirmer.during liveMoment).reconfirm sectorReq s = .ok (.corruption, s') ∧
      s'.cachedRoots = some (1, 0x500000, 0x600000) :=
  reconfirm_returns readLive_live (live_roots liveSuperblock_sized zeroSector_length) verdict_live
    hcached

theorem reconfirm_committed {s : ReconfirmerState}
    (hcached : cachedRootsAt s.cachedRoots 2 = none ∨
      s.cachedRoots = some (2, 0x501000, 0x600000)) :
    ∃ s', (commitReconfirmer.during committedMoment).reconfirm sectorReq s = .ok (.stale, s') ∧
      s'.cachedRoots = some (2, 0x501000, 0x600000) :=
  reconfirm_returns readLive_committed (committed_roots committedSuperblock_sized zeroSector_length)
    verdict_committed hcached

theorem reconfirm_shut (s : ReconfirmerState) :
    ∃ s', (commitReconfirmer.during shutMoment).reconfirm sectorReq s = .ok (.unverifiable, s') ∧
      s'.cachedRoots = s.cachedRoots := by
  rw [reconfirm_eq]
  exact ⟨_, rfl, rfl⟩

def commitCalls : List (Moment × ReconfirmRequest) :=
  [(liveMoment, sectorReq), (shutMoment, sectorReq), (liveMoment, sectorReq),
    (committedMoment, sectorReq)]

/-- The roots are resolved, kept through the failure, used again, and replaced. -/
theorem commitCalls_return : ∃ s, commitReconfirmer.calls commitCalls (.new none) = .ok s ∧
    s.cachedRoots = some (2, 0x501000, 0x600000) := by
  obtain ⟨s₁, hfirst, hkept₁⟩ := reconfirm_live (s := .new none) (.inl rfl)
  obtain ⟨s₂, hsecond, hkept₂⟩ := reconfirm_shut s₁
  obtain ⟨s₃, hthird, hkept₃⟩ := reconfirm_live (.inr (hkept₂.trans hkept₁))
  obtain ⟨s₄, hfourth, hkept₄⟩ := reconfirm_committed (s := s₃) (.inl (by rw [hkept₃]; rfl))
  refine ⟨s₄, ?_, hkept₄⟩
  unfold commitCalls
  rw [calls_cons hfirst, calls_cons hsecond, calls_cons hthird, calls_cons hfourth]
  rfl

/-- The last generation is still cached, the one before it is not: both calls give the verdict of
the file as it is. -/
theorem reconfirm_transparent_commit : ∃ s,
    commitReconfirmer.calls commitCalls (.new none) = .ok s ∧
      s.cachedRoots = some (2, 0x501000, 0x600000) ∧
      (Prod.fst <$> (commitReconfirmer.during committedMoment).reconfirm sectorReq s = .ok .stale ∧
        Prod.fst <$> (commitReconfirmer.during committedMoment).reconfirm sectorReq s =
          Prod.fst <$> (commitReconfirmer.during committedMoment).reconfirm sectorReq
            { s with cachedRoots := none }) ∧
      Prod.fst <$> (commitReconfirmer.during liveMoment).reconfirm sectorReq s = .ok .corruption ∧
        Prod.fst <$> (commitReconfirmer.during liveMoment).reconfirm sectorReq s =
          Prod.fst <$> (commitReconfirmer.during liveMoment).reconfirm sectorReq
            { s with cachedRoots := none } := by
  obtain ⟨s, hcalls, hcached⟩ := commitCalls_return
  have hdet : ∀ c ∈ commitCalls, commitReconfirmer.Determined commitRoots c.1 := by
    intro c hc
    simp only [commitCalls, List.mem_cons, List.not_mem_nil, or_false] at hc
    rcases hc with rfl | rfl | rfl | rfl
    · exact liveMoment_determined
    · exact shutMoment_determined
    · exact liveMoment_determined
    · exact committedMoment_determined
  obtain ⟨_, hhit, -⟩ := reconfirm_committed (.inr hcached)
  obtain ⟨_, holder, -⟩ := reconfirm_live (s := s) (.inl (by rw [hcached]; rfl))
  refine ⟨s, hcalls, hcached, ⟨by rw [hhit]; rfl, ?_⟩, by rw [holder]; rfl, ?_⟩
  · exact reconfirm_transparent hdet committedMoment_determined hcalls
  · exact reconfirm_transparent hdet liveMoment_determined hcalls

end Crafted
end Rotshield.Btrfs
