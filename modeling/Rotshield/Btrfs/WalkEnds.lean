import Rotshield.Btrfs.Bounds
import Rotshield.Btrfs.Isolation
import Rotshield.Lib.Hoare

/-! Walks over content that changes between reads: how far they go, and when they return. -/
namespace Rotshield.Btrfs
open Lib (Rounds explore bind_of_ok bind_of_error)

variable {S σ : Type}

/-- A reader over content that may change with every read. -/
def changingReader (read : UInt64 → Nat → StateM σ (Except IoError Bytes)) (config : ReaderConfig) :
    FsReader (ExceptT Halt (StateM σ)) where
  config
  pread := plainRead read

/-- The reads of a node's copies, in the order they are tried. -/
def nodeCopies (read : UInt64 → Nat → StateM σ (Except IoError Bytes)) (config : ReaderConfig)
    (chunkMap : ChunkMap) (logical : UInt64) : StateM σ (List (Except IoError Bytes)) :=
  (FsReader.nodeStripes chunkMap logical).mapM fun s =>
    read (config.baseOffset + s.2) config.nodeSize

/-- A round once the node is read. -/
def roundOf (bounds : Option (Key × Key)) (cb : Callbacks S) (ref : NodeRef)
    (got : Except IoError ReadNodeResult) (s : S) : Exec (Except IoError (List NodeRef) × S) :=
  match got with
  | .error _ => .ok (.ok [], cb.onReadError ref.logical s)
  | .ok res =>
      if res.allMirrorsFailed then .ok (.ok [], cb.onMetadataError ref.logical s)
      else if res.generationMismatch then .ok (.ok [], cb.onStale ref.logical s)
      else
        let s := if res.mirrorMismatch then cb.onMirrorMismatch ref.logical s else s
        match res.node with
        | none => .error .panic
        | some (.leaf leaf) => (cb.onLeaf leaf s).map fun v => (v.1.map fun _ => [], v.2)
        | some (.internal node) => .ok (.ok (childRefs bounds node.header node.ptrs), s)

/-- A computation with its world as a part of the state; what halts has no world. -/
def withWorld {A : Type} (x : ExceptT Halt (StateM σ) (A × S)) (w : σ) : Exec (A × (S × σ)) :=
  match x w with
  | (.ok (a, s), w') => .ok (a, (s, w'))
  | (.error e, _) => .error e

section Run
variable {read : UInt64 → Nat → StateM σ (Except IoError Bytes)} {config : ReaderConfig}
  {chunkMap : ChunkMap} {strategy : CsumStrategy} {bounds : Option (Key × Key)}
  {cb : Callbacks S} {ref : NodeRef} {s : S} {w : σ}

theorem withWorld_ok {A : Type} {x : ExceptT Halt (StateM σ) (A × S)} {a : A} {s : S} {w w' : σ} :
    withWorld x w = .ok (a, (s, w')) ↔ x w = (.ok (a, s), w') := by
  unfold withWorld
  cases hx : x w with
  | mk result w₁ =>
      constructor
      · intro h
        cases result with
        | error e => cases h
        | ok v => cases h; rfl
      · intro h
        cases h
        rfl

theorem mapM_plainRead (stripes : List (UInt64 × UInt64)) (w : σ) :
    (stripes.mapM fun s => plainRead read (config.baseOffset + s.2) config.nodeSize :
        ExceptT Halt (StateM σ) _) w =
      (.ok ((stripes.mapM fun s => read (config.baseOffset + s.2) config.nodeSize) w).1,
        ((stripes.mapM fun s => read (config.baseOffset + s.2) config.nodeSize) w).2) := by
  induction stripes generalizing w with
  | nil => rfl
  | cons stripe stripes ih =>
      rw [List.mapM_cons, List.mapM_cons]
      rw [bind_of_ok (rfl : plainRead read (config.baseOffset + stripe.2) config.nodeSize w =
        (.ok _, _)), bind_of_ok (ih _)]
      rfl

theorem mapM_state {A B : Type} {f : A → StateM σ B} (l : List A) (w : σ) :
    (l.mapM f w).1.length = l.length ∧ ∀ b ∈ (l.mapM f w).1, ∃ a ∈ l, ∃ w w', f a w = (b, w') := by
  induction l generalizing w with
  | nil => exact ⟨rfl, nofun⟩
  | cons a l ih =>
      have hcons : ((a :: l).mapM f w).1 = (f a w).1 :: (l.mapM f (f a w).2).1 := by
        rw [List.mapM_cons]
        rfl
      obtain ⟨hlen, hall⟩ := ih (f a w).2
      rw [hcons]
      refine ⟨by rw [List.length_cons, List.length_cons, hlen], ?_⟩
      intro b hb
      rcases List.mem_cons.mp hb with rfl | hb
      · exact ⟨a, List.mem_cons_self, w, (f a w).2, rfl⟩
      · obtain ⟨a', ha', hread⟩ := hall b hb
        exact ⟨a', List.mem_cons_of_mem a ha', hread⟩

theorem liftExec_run {A : Type} (x : Exec A) (w : σ) :
    (liftExec x : ExceptT Halt (StateM σ) A) w = (x, w) := by
  cases x <;> rfl

theorem readNode_run (hstrategy : config.strategy = some strategy) (logical gen : UInt64)
    (level : Option UInt8) (owner : Option UInt64) :
    (changingReader read config).readNode chunkMap logical gen level owner w =
      (judgeCopies strategy (fun hdr => config.validateHeader hdr logical gen level owner)
        (nodeCopies read config chunkMap logical w).1, (nodeCopies read config chunkMap logical w).2) := by
  have hcopies : ((FsReader.nodeStripes chunkMap logical).mapM fun s =>
      (changingReader read config).pread ((changingReader read config).config.baseOffset + s.2)
        (changingReader read config).config.nodeSize : ExceptT Halt (StateM σ) _) w =
      (.ok (nodeCopies read config chunkMap logical w).1,
        (nodeCopies read config chunkMap logical w).2) := mapM_plainRead _ w
  have hlen : (nodeCopies read config chunkMap logical w).1.length =
      (FsReader.nodeStripes chunkMap logical).length := (mapM_state _ w).1
  have hconfig : (changingReader read config).config.strategy = some strategy := hstrategy
  unfold FsReader.readNode
  rw [hconfig]
  dsimp only
  rw [bind_of_ok hcopies]
  change ((liftExec ((nodeCopies read config chunkMap logical w).1.foldlM (scanCopy strategy
      fun hdr => config.validateHeader hdr logical gen level owner) Copies.none) >>= fun acc =>
        liftExec (selectCopy strategy (FsReader.nodeStripes chunkMap logical).length acc)) :
          ExceptT Halt (StateM σ) _) (nodeCopies read config chunkMap logical w).2 = _
  rw [judgeCopies, hlen]
  cases hscan : (nodeCopies read config chunkMap logical w).1.foldlM (scanCopy strategy
      fun hdr => config.validateHeader hdr logical gen level owner) Copies.none with
  | error e => rw [bind_of_error (liftExec_run _ _)]; rfl
  | ok acc => rw [bind_of_ok (liftExec_run _ _), liftExec_run]; rfl

/-- One round: the copies are read and judged, and the round goes on from there. -/
theorem visitRef_run (hstrategy : config.strategy = some strategy) :
    withWorld (visitRef (changingReader read config) chunkMap bounds cb ref s) w =
      ((judgeCopies strategy (ref.check config)
        (nodeCopies read config chunkMap ref.logical w).1).bind fun got =>
          (roundOf bounds cb ref got s).map fun v =>
            (v.1, (v.2, (nodeCopies read config chunkMap ref.logical w).2))) := by
  have hread : (changingReader read config).readNode chunkMap ref.logical
      (ref.expGen.getD genDontCheck) ref.expLevel ref.expOwner w =
        (judgeCopies strategy (ref.check config) (nodeCopies read config chunkMap ref.logical w).1,
          (nodeCopies read config chunkMap ref.logical w).2) := readNode_run hstrategy _ _ _ _
  unfold visitRef withWorld
  dsimp only
  cases hjudge : judgeCopies strategy (ref.check config)
      (nodeCopies read config chunkMap ref.logical w).1 with
  | error e =>
      rw [hjudge] at hread
      rw [bind_of_error hread]
      rfl
  | ok got =>
      rw [hjudge] at hread
      rw [bind_of_ok hread]
      cases got with
      | error e => rfl
      | ok res =>
          obtain ⟨node, allMirrorsFailed, generationMismatch, mirrorMismatch⟩ := res
          cases allMirrorsFailed with
          | true => rfl
          | false =>
              cases generationMismatch with
              | true => rfl
              | false =>
                  cases node with
                  | none => rfl
                  | some node =>
                      cases node with
                      | internal node => rfl
                      | leaf leaf =>
                          simp only [roundOf, Bool.false_eq_true, if_false, Except.bind]
                          generalize (if mirrorMismatch = true then
                            cb.onMirrorMismatch ref.logical s else s) = s₁
                          cases hleaf : cb.onLeaf leaf s₁ with
                          | error e => rw [bind_of_error (liftExec_run _ _)]; rfl
                          | ok v => rw [bind_of_ok (liftExec_run _ _)]; rfl

theorem withWorld_bind {A B : Type} (x : ExceptT Halt (StateM σ) (A × S))
    (k : A × S → ExceptT Halt (StateM σ) (B × S)) (w : σ) :
    withWorld (x >>= k) w = (withWorld x w).bind fun v => withWorld (k (v.1, v.2.1)) v.2.2 := by
  cases hx : x w with
  | mk result w' =>
      unfold withWorld
      cases result with
      | error e => rw [bind_of_error hx, hx]; rfl
      | ok v => rw [bind_of_ok hx, hx]; rfl

/-- The loop with its world as a part of the state. -/
theorem explore_run (e : Halt) (visit : NodeRef → S → ExceptT Halt (StateM σ)
    (Except IoError (List NodeRef) × S)) (fuel : Nat) (queue : List NodeRef) (s : S) (w : σ) :
    withWorld (explore (throw e) visit fuel queue s) w =
      explore (.error e) (fun ref sw => withWorld (visit ref sw.1) sw.2) fuel queue (s, w) := by
  induction fuel generalizing queue s w with
  | zero =>
      cases queue with
      | nil => rfl
      | cons ref queue => rfl
  | succ fuel ih =>
      cases queue with
      | nil => rfl
      | cons ref queue =>
          have hround : explore (throw e) visit (fuel + 1) (ref :: queue) s =
              visit ref s >>= fun v => match v.1 with
                | .error e => pure (.error e, v.2)
                | .ok children => explore (throw e) visit fuel (children ++ queue) v.2 := by
            conv_lhs => unfold explore
            congr 1
            funext v
            obtain ⟨next, s'⟩ := v
            cases next <;> rfl
          rw [Lib.explore_cons, hround, withWorld_bind]
          congr 1
          funext v
          obtain ⟨next, s', w'⟩ := v
          cases next with
          | error e' => rfl
          | ok children => exact ih _ s' w'

/-! ### Weights -/

/-- A round that goes on pushes less than it takes. -/
theorem roundOf_weight {copies : List (Except IoError Bytes)}
    (hlen : ∀ buf, .ok buf ∈ copies → buf.length = config.nodeSize)
    {got : Except IoError ReadNodeResult}
    (hjudge : judgeCopies strategy (ref.check config) copies = .ok got) {children : List NodeRef}
    {s' : S} (hround : roundOf bounds cb ref got s = .ok (.ok children, s')) :
    (children.map (NodeRef.weight config.nodeSize)).sum < ref.weight config.nodeSize := by
  have hpos := ref.weight_pos config.nodeSize
  have hfrom := judgeCopies_readFrom hjudge
  cases got with
  | error e =>
      cases hround
      exact hpos
  | ok res =>
      obtain ⟨node, allMirrorsFailed, generationMismatch, mirrorMismatch⟩ := res
      cases allMirrorsFailed with
      | true =>
          cases hround
          exact hpos
      | false =>
          cases generationMismatch with
          | true =>
              cases hround
              exact hpos
          | false =>
              obtain ⟨⟨buf, node', hin, ⟨-, hdr, hhdr, hvalid⟩, hparse, hnode⟩, -⟩ := hfrom
              dsimp only at hnode hvalid
              subst hnode
              cases node' with
              | leaf leaf =>
                  simp only [roundOf, Bool.false_eq_true, if_false] at hround
                  revert hround
                  generalize (if mirrorMismatch = true then
                    cb.onMirrorMismatch ref.logical s else s) = s₁
                  intro hround
                  cases hleaf : cb.onLeaf leaf s₁ with
                  | error e => rw [hleaf] at hround; cases hround
                  | ok v =>
                      obtain ⟨result, s₂⟩ := v
                      rw [hleaf] at hround
                      cases result with
                      | error e => cases hround
                      | ok _ =>
                          cases hround
                          exact hpos
              | internal node =>
                  cases hround
                  exact parsed_weight (hlen buf hin) hparse hhdr hvalid

/-- A round over copies that can be parsed returns, if its callback does. -/
theorem roundOf_returns (hleaf : ∀ leaf s, ∃ v, cb.onLeaf leaf s = .ok v)
    {valid : Header → Bool} {copies : List (Except IoError Bytes)} {got : Except IoError ReadNodeResult}
    (hjudge : judgeCopies strategy valid copies = .ok got) (s : S) :
    ∃ v, roundOf bounds cb ref got s = .ok v := by
  have hfrom := judgeCopies_readFrom hjudge
  cases got with
  | error e => exact ⟨_, rfl⟩
  | ok res =>
      obtain ⟨node, allMirrorsFailed, generationMismatch, mirrorMismatch⟩ := res
      cases allMirrorsFailed with
      | true => exact ⟨_, rfl⟩
      | false =>
          cases generationMismatch with
          | true => exact ⟨_, rfl⟩
          | false =>
              obtain ⟨⟨_, node', -, -, -, hnode⟩, -⟩ := hfrom
              dsimp only at hnode
              subst hnode
              cases node' with
              | internal node => exact ⟨_, rfl⟩
              | leaf leaf =>
                  obtain ⟨v, hv⟩ := hleaf leaf
                    (if mirrorMismatch = true then cb.onMirrorMismatch ref.logical s else s)
                  simp only [roundOf, Bool.false_eq_true, if_false, hv]
                  exact ⟨_, rfl⟩

end Run

section Walk
variable {read : UInt64 → Nat → StateM σ (Except IoError Bytes)} {config : ReaderConfig}
  {chunkMap : ChunkMap} {strategy : CsumStrategy} {cb : Callbacks S}

/-- The rounds of a walk over changing content. -/
def walkRounds (read : UInt64 → Nat → StateM σ (Except IoError Bytes)) (config : ReaderConfig)
    (chunkMap : ChunkMap) (bounds : Option (Key × Key)) (cb : Callbacks S) :
    Nat → List NodeRef → S × σ → List NodeRef → S × σ → Prop :=
  Rounds fun ref sw => withWorld (visitRef (changingReader read config) chunkMap bounds cb ref sw.1) sw.2

theorem nodeCopies_length (hread : ∀ offset n w buf w', read offset n w = (.ok buf, w') →
      buf.length = n) {logical : UInt64} {w : σ} {buf : Bytes}
    (hbuf : .ok buf ∈ (nodeCopies read config chunkMap logical w).1) :
    buf.length = config.nodeSize := by
  obtain ⟨stripe, -, w₁, w₂, hgot⟩ := (mapM_state _ w).2 _ hbuf
  exact hread _ _ _ _ _ hgot

theorem round_weight (hstrategy : config.strategy = some strategy)
    (hread : ∀ offset n w buf w', read offset n w = (.ok buf, w') → buf.length = n)
    {bounds : Option (Key × Key)} {ref : NodeRef} {sw sw' : S × σ} {children : List NodeRef}
    (hvisit : withWorld (visitRef (changingReader read config) chunkMap bounds cb ref sw.1) sw.2 =
      .ok (.ok children, sw')) :
    (children.map (NodeRef.weight config.nodeSize)).sum < ref.weight config.nodeSize := by
  rw [visitRef_run hstrategy] at hvisit
  cases hjudge : judgeCopies strategy (ref.check config)
      (nodeCopies read config chunkMap ref.logical sw.2).1 with
  | error e => rw [hjudge] at hvisit; cases hvisit
  | ok got =>
      rw [hjudge] at hvisit
      dsimp only [Except.bind] at hvisit
      cases hround : roundOf bounds cb ref got sw.1 with
      | error e => rw [hround] at hvisit; cases hvisit
      | ok v =>
          rw [hround] at hvisit
          obtain ⟨result, s'⟩ := v
          cases hvisit
          exact roundOf_weight (fun _ => nodeCopies_length hread) hjudge hround

theorem round_returns_iff (hstrategy : config.strategy = some strategy)
    (hleaf : ∀ leaf s, ∃ v, cb.onLeaf leaf s = .ok v) {bounds : Option (Key × Key)}
    (ref : NodeRef) (s : S) (w : σ) :
    (∃ v, withWorld (visitRef (changingReader read config) chunkMap bounds cb ref s) w = .ok v) ↔
      CopiesParse strategy (ref.check config) (nodeCopies read config chunkMap ref.logical w).1 := by
  rw [visitRef_run hstrategy, ← judgeCopies_returns_iff]
  cases hjudge : judgeCopies strategy (ref.check config)
      (nodeCopies read config chunkMap ref.logical w).1 with
  | error e =>
      apply iff_of_false
      · rintro ⟨v, ⟨⟩⟩
      · rintro ⟨got, ⟨⟩⟩
  | ok got =>
      have hreturns : ∃ v, roundOf bounds cb ref got s = .ok v := roundOf_returns hleaf hjudge s
      obtain ⟨v, hv⟩ := hreturns
      apply iff_of_true
      · refine ⟨(v.1, (v.2, (nodeCopies read config chunkMap ref.logical w).2)), ?_⟩
        dsimp only [Except.bind]
        rw [hv]
        rfl
      · exact ⟨got, rfl⟩

theorem root_weight (nodeSize : Nat) (root : UInt64) :
    ([NodeRef.root root].map (NodeRef.weight nodeSize)).sum = walkFuel nodeSize := by
  simp only [List.map_singleton, List.sum_singleton, weight_root]

/-- A walk returns exactly when the copies that each of its rounds reads can be parsed. -/
theorem changingWalk_returns_iff (hstrategy : config.strategy = some strategy)
    (hread : ∀ offset n w buf w', read offset n w = (.ok buf, w') → buf.length = n)
    (hleaf : ∀ leaf s, ∃ v, cb.onLeaf leaf s = .ok v) (root : UInt64)
    (bounds : Option (Key × Key)) (s : S) (w : σ) :
    (∃ v w', walkLeavesImpl (changingReader read config) chunkMap root bounds cb s w =
        (.ok v, w')) ↔
      ∀ n ref queue s' w',
        walkRounds read config chunkMap bounds cb n [.root root] (s, w) (ref :: queue) (s', w') →
          CopiesParse strategy (ref.check config)
            (nodeCopies read config chunkMap ref.logical w').1 := by
  have hrun : (∃ v w', walkLeavesImpl (changingReader read config) chunkMap root bounds cb s w =
      (.ok v, w')) ↔ ∃ v, withWorld
        (walkLeavesImpl (changingReader read config) chunkMap root bounds cb s) w = .ok v := by
    constructor
    · rintro ⟨v, w', h⟩
      exact ⟨(v.1, (v.2, w')), withWorld_ok.mpr h⟩
    · rintro ⟨⟨r, s', w'⟩, h⟩
      exact ⟨(r, s'), w', withWorld_ok.mp h⟩
  have hsize : (changingReader read config).config.nodeSize = config.nodeSize := rfl
  rw [hrun, walkLeavesImpl, hsize, explore_run, Lib.explore_returns_iff
    (fun _ _ _ _ => round_weight hstrategy hread) (NodeRef.weight_pos _)
    (Nat.le_of_eq (root_weight config.nodeSize root))]
  constructor
  · intro hall n ref queue s' w' hrounds
    exact (round_returns_iff hstrategy hleaf ref s' w').mp (hall n ref queue (s', w') hrounds)
  · rintro hall n ref queue ⟨s', w'⟩ hrounds
    exact (round_returns_iff hstrategy hleaf ref s' w').mpr (hall n ref queue s' w' hrounds)

/-- A walk makes no more rounds than nodes can be below its root, and it returns exactly when the
copies that each of its rounds reads can be parsed. -/
theorem walkLeavesImpl_ends (hstrategy : config.strategy = some strategy)
    (hread : ∀ offset n w buf w', read offset n w = (.ok buf, w') → buf.length = n)
    (hleaf : ∀ leaf s, ∃ v, cb.onLeaf leaf s = .ok v) (root : UInt64)
    (bounds : Option (Key × Key)) (s : S) (w : σ) :
    (∀ n queue sw, walkRounds read config chunkMap bounds cb n [.root root] (s, w) queue sw →
      n ≤ walkFuel config.nodeSize) ∧
    ((∃ v w', walkLeavesImpl (changingReader read config) chunkMap root bounds cb s w = (.ok v, w')) ↔
      ∀ n ref queue s' w',
        walkRounds read config chunkMap bounds cb n [.root root] (s, w) (ref :: queue) (s', w') →
          CopiesParse strategy (ref.check config)
            (nodeCopies read config chunkMap ref.logical w').1) := by
  refine ⟨?_, changingWalk_returns_iff hstrategy hread hleaf root bounds s w⟩
  intro n queue sw hrounds
  rw [← root_weight config.nodeSize root]
  exact hrounds.length_le fun _ _ _ _ => round_weight hstrategy hread

end Walk

/-! ### A walk over a node that was already wrong -/

namespace Crafted

/-- A callback that passes every leaf. -/
def ignoring : Callbacks Unit where
  onLeaf _ s := .ok (.ok (), s)
  onMetadataError _ s := s
  onStale _ s := s
  onMirrorMismatch _ s := s
  onReadError _ s := s

/-- Reads of content that stays as it is. -/
def still (image : Image) (offset : UInt64) (n : Nat) : StateM Unit (Except IoError Bytes) :=
  pure (image.pread offset n)

theorem still_length {image : Image} (offset : UInt64) (n : Nat) (w : Unit) (buf : Bytes)
    (w' : Unit) (h : still image offset n w = (.ok buf, w')) : buf.length = n := by
  have hread : image.pread offset n = .ok buf := congrArg Prod.fst h
  unfold Image.pread readBytes at hread
  split at hread
  case h_1 => cases hread
  case h_2 =>
      cases hread
      rw [List.length_map, List.length_range]

/-- A walk over the node with too many slots does not return. -/
theorem crowded_not_ended : (∀ leaf s, ∃ v, ignoring.onLeaf leaf s = .ok v) ∧
    ∀ v w', walkLeaves (changingReader (still crowdedImage) config) chunkMap 0x400000 ignoring ()
      () ≠ (.ok v, w') := by
  refine ⟨fun _ _ => ⟨_, rfl⟩, ?_⟩
  intro v w' hv
  have hstrategy : config.strategy = some strategy := rfl
  have hrounds := (changingWalk_returns_iff hstrategy still_length
    (fun _ _ => ⟨_, rfl⟩) 0x400000 none () ()).mp ⟨v, w', hv⟩
  have hparse := hrounds 0 (.root 0x400000) [] () () (.refl _ _)
  have hcopies : (nodeCopies (still crowdedImage) config chunkMap 0x400000 ()).1 =
      [.ok crowdedBytes] := by
    rw [← crowded_read]
    rfl
  have hlogical : (NodeRef.root 0x400000).logical = 0x400000 := rfl
  rw [hlogical, hcopies] at hparse
  exact crowded_outside (hparse.best crowdedBytes (by rw [bestOf, crowded_first]; rfl))

theorem walkLeavesImpl_ends_crowded :
    (∀ n queue sw, walkRounds (still crowdedImage) config chunkMap none ignoring n
      [.root 0x400000] ((), ()) queue sw → n ≤ walkFuel config.nodeSize) ∧
    ((∃ v w', walkLeavesImpl (changingReader (still crowdedImage) config) chunkMap 0x400000 none
        ignoring () () = (.ok v, w')) ↔
      ∀ n ref queue s' w', walkRounds (still crowdedImage) config chunkMap none ignoring n
          [.root 0x400000] ((), ()) (ref :: queue) (s', w') →
        CopiesParse strategy (ref.check config)
          (nodeCopies (still crowdedImage) config chunkMap ref.logical w').1) :=
  walkLeavesImpl_ends rfl still_length (fun _ _ => ⟨_, rfl⟩) 0x400000 none () ()

end Crafted
end Rotshield.Btrfs
