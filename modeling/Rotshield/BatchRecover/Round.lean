import Rotshield.BatchRecover.Disks
import Rotshield.Recovery.Accept

/-! The writer's loop among honest disks: what one round does to the disks and the accounts. -/
namespace Rotshield.BatchRecover
open DiskArray (readBlockOrZeros gatherStripe writeBlock)
open Lib (Triple)
open Recovery (recoverBlock RecoveryResult)

/-- The recoveries that have ended, newest first. -/
def settlements : List Event → List (Nat × Outcome)
  | [] => []
  | .settle arrayPhys outcome :: older => (arrayPhys, outcome) :: settlements older
  | _ :: older => settlements older

/-- Nothing was written or counted; the clock may have moved. -/
structure Still (w₀ w : WriterState Disks) : Prop where
  byte : w.world.byte = w₀.world.byte
  written : w.world.written = w₀.world.written
  stats : w.books.stats = w₀.books.stats
  settled : settlements w.books.trace = settlements w₀.books.trace

/-- Nor was anything frozen or thawed. -/
structure Quiet (w₀ w : WriterState Disks) : Prop extends Still w₀ w where
  freeze : w.books.freeze = w₀.books.freeze

theorem Quiet.refl (w : WriterState Disks) : Quiet w w := ⟨⟨rfl, rfl, rfl, rfl⟩, rfl⟩

namespace Surroundings

theorem failure_congr (s : Surroundings) {d d' : Disks} (h : d.written = d'.written) :
    s.failure d = s.failure d' := by
  funext path offset len
  unfold failure
  rw [h]

theorem snapshot_congr (s : Surroundings) {d d' : Disks} (hbyte : d.byte = d'.byte)
    (hwritten : d.written = d'.written) : s.snapshot d = s.snapshot d' := by
  unfold snapshot readExact
  rw [hbyte, s.failure_congr hwritten]

/-- What re-confirmation and the fresh read say of a candidate on these disks. -/
def confirmed (s : Surroundings) (args : WriterArgs) (d : Disks) (c : Candidate) :
    Confirmed c.blockSize :=
  match (c.reconfirm.map s.verdict).getD .corruption with
  | .stale => .stale
  | .unverifiable => .skipped
  | .corruption =>
      if c.unreadable then .corrupt (Vector.replicate c.blockSize 0) true
      else
        match s.blockAt d args.cfg c.failingDev c.arrayPhys c.blockSize with
        | .ok block => if c.verify block.toList then .stale else .corrupt block false
        | .error _ => .corrupt (Vector.replicate c.blockSize 0) true

/-- What the engine says of a candidate; `none` where the stripe cannot be gathered. -/
def rebuilt (s : Surroundings) (args : WriterArgs) (d : Disks) (c : Candidate)
    (block : Vector UInt8 c.blockSize) (unreadable : Bool) :
    Exec (Option (RecoveryResult c.blockSize)) :=
  match s.stripeAt d args.cfg args.scrubSlot c.arrayPhys c.blockSize with
  | .error _ => .ok none
  | .ok chunks => some <$> recoverBlock
      { failingSlot := args.scrubSlot
        corruptBlock := block
        unreadableSource := unreadable
        otherBlocks := chunks.otherData
        pBlock := chunks.pBlock
        qBlock := chunks.qBlock
        verifier := c.verify }

end Surroundings

section Round
variable {s : Surroundings} {args : WriterArgs} {c : Candidate} {w₀ : WriterState Disks}
  {fail : Stop → WriterState Disks → Prop}

/-- A read leaves everything as it is. -/
theorem triple_gives {α : Type} {x : ExceptT IoError (StateM Disks) α}
    (value : DiskArray.DeviceIo Id → ExceptT IoError Id α)
    (h : ∀ d, Surroundings.Gives d x (value (s.snapshot d))) :
    Triple (Quiet w₀) (attempt x)
      (fun r w => r = (value (s.snapshot w₀.world)).run.run ∧ Quiet w₀ w) fail := by
  refine Triple.conseq triple_attempt (fun w hw => ?_) fun _ _ hw => hw
  rw [h w.world, s.snapshot_congr hw.byte hw.written]
  exact ⟨rfl, hw⟩

theorem readBlock_round {path : Path} {arrayPhys blockSize : Nat} :
    Triple (Quiet w₀) (attempt (readBlockOrZeros s.env.io args.cfg path arrayPhys blockSize))
      (fun r w => r = s.blockAt w₀.world args.cfg path arrayPhys blockSize ∧ Quiet w₀ w) fail :=
  triple_gives (fun io => readBlockOrZeros io args.cfg path arrayPhys blockSize)
    fun _ => Surroundings.gives_readBlock path

theorem gatherStripe_round {arrayPhys blockSize : Nat} :
    Triple (Quiet w₀)
      (attempt (gatherStripe s.env.io args.cfg args.scrubSlot arrayPhys blockSize))
      (fun r w => r = s.stripeAt w₀.world args.cfg args.scrubSlot arrayPhys blockSize ∧ Quiet w₀ w)
      fail :=
  triple_gives (fun io => gatherStripe io args.cfg args.scrubSlot arrayPhys blockSize)
    fun _ => Surroundings.gives_gatherStripe

theorem triple_note {e : Event} (he : ∀ a o, e ≠ .settle a o) :
    Triple (Quiet w₀) (onBooks (·.note e)) (fun _ => Quiet w₀) fail := by
  refine Triple.conseq triple_onBooks (fun w hw => ?_) fun _ _ hw => hw
  refine { hw with settled := ?_ }
  rw [← hw.settled]
  cases e with
  | settle a o => exact absurd rfl (he a o)
  | _ => rfl

theorem verdictOf_round :
    Triple (Quiet w₀) (verdictOf s.env c)
      (fun v w => v = (c.reconfirm.map s.verdict).getD .corruption ∧ Quiet w₀ w) fail := by
  unfold verdictOf
  cases c.reconfirm with
  | none => exact fun w hw => ⟨rfl, hw⟩
  | some req =>
      have hask : Triple (Quiet w₀) (world (s.env.reconfirm req))
          (fun v w => v = s.verdict req ∧ Quiet w₀ w) fail := fun w hw => ⟨rfl, hw⟩
      apply hask.bind_value
      apply (triple_note (by simp)).bind
      intro _ w hw
      exact ⟨rfl, hw⟩

theorem rereadFailing_round (hflag : c.unreadable = false) :
    Triple (Quiet w₀) (rereadFailing s.env args c)
      (fun r w => (r = match s.blockAt w₀.world args.cfg c.failingDev c.arrayPhys c.blockSize with
        | .ok block => if c.verify block.toList then .stale else .corrupt block false
        | .error _ => .corrupt (Vector.replicate c.blockSize 0) true) ∧ Quiet w₀ w) fail := by
  unfold rereadFailing
  rw [if_neg (by rw [hflag]; exact Bool.false_ne_true)]
  apply readBlock_round.bind_value
  apply (triple_note (by simp)).bind
  intro _
  change Triple _ (match s.blockAt w₀.world args.cfg c.failingDev c.arrayPhys c.blockSize with
    | .ok block => _
    | .error _ => _) _ _
  cases s.blockAt w₀.world args.cfg c.failingDev c.arrayPhys c.blockSize with
  | ok block => exact fun w hw => ⟨rfl, hw⟩
  | error e => exact fun w hw => ⟨rfl, hw⟩

theorem confirm_round :
    Triple (Quiet w₀) (confirm s.env args c)
      (fun r w => r = s.confirmed args w₀.world c ∧ Quiet w₀ w) fail := by
  unfold confirm
  apply verdictOf_round.bind_value
  unfold Surroundings.confirmed
  cases (c.reconfirm.map s.verdict).getD .corruption with
  | stale => exact fun w hw => ⟨rfl, hw⟩
  | unverifiable => exact fun w hw => ⟨rfl, hw⟩
  | corruption =>
      dsimp only
      cases hflag : c.unreadable with
      | true =>
          unfold rereadFailing
          rw [hflag]
          exact fun w hw => ⟨rfl, hw⟩
      | false => exact rereadFailing_round hflag

/-- The candidate is a sector that lies inside the failing device. -/
structure OnDevice (s : Surroundings) (args : WriterArgs) (dev : Path) (c : Candidate) : Prop where
  failing : c.failingDev = dev
  nonempty : 0 < c.blockSize
  inside : ∃ size, s.size dev = .ok size ∧
    c.arrayPhys + args.cfg.rawOffsetFor dev + c.blockSize ≤ size ∧ size < 2 ^ 64

/-- Where the candidate's sector starts on the failing device. -/
def Candidate.rawStart (c : Candidate) (args : WriterArgs) : Nat :=
  wadd c.arrayPhys (args.cfg.rawOffsetFor c.failingDev)

theorem OnDevice.rawStart {dev : Path} (h : OnDevice s args dev c) :
    c.rawStart args = c.arrayPhys + args.cfg.rawOffsetFor dev := by
  obtain ⟨size, -, hin, hbound⟩ := h.inside
  unfold Candidate.rawStart
  rw [h.failing]
  exact wadd_eq (by omega)

theorem OnDevice.blockAt {dev : Path} (h : OnDevice s args dev c) (d : Disks) :
    s.blockAt d args.cfg c.failingDev c.arrayPhys c.blockSize =
      s.readExact d dev (c.rawStart args) c.blockSize := by
  obtain ⟨size, hsize, hin, hbound⟩ := h.inside
  rw [h.rawStart, h.failing]
  exact Surroundings.blockAt_inside hsize hin hbound h.nonempty

/-- The state after the candidate's sector was written. -/
def wrote (args : WriterArgs) (c : Candidate) (w : WriterState Disks)
    (block : Vector UInt8 c.blockSize) : WriterState Disks :=
  { w with world := w.world.write c.failingDev (c.rawStart args) block.toList }

/-- The bytes of a sector are those last written to it. -/
theorem readExact_wrote (d : Disks) (path : Path) (offset : Nat) {n : Nat}
    (block : Vector UInt8 n) (h : s.failure (d.write path offset block.toList) path offset n = none) :
    s.readExact (d.write path offset block.toList) path offset n = .ok block := by
  unfold Surroundings.readExact
  rw [h]
  dsimp only
  congr 1
  ext i hi
  rw [Vector.getElem_ofFn, Disks.write_inside d path (by simpa using hi)]
  simp

/-- Writes stick, and so does everything else a repair asks for. -/
structure Surroundings.Succeeds (s : Surroundings) : Prop where
  heals : s.heals = true
  thaw : ∀ n, s.thaw n = .ok ()
  dropCache : ∀ n, s.dropCache n = .ok ()

theorem OnDevice.read_back {dev : Path} (h : OnDevice s args dev c) (hs : s.Succeeds)
    (w : WriterState Disks) (block : Vector UInt8 c.blockSize) :
    s.blockAt (wrote args c w block).world args.cfg c.failingDev c.arrayPhys c.blockSize =
      .ok block := by
  rw [h.blockAt, ← h.failing]
  apply readExact_wrote
  unfold Surroundings.failure
  rw [hs.heals]
  simp [Disks.write]

theorem dropCache_round :
    Triple (Quiet w₀) (attempt (s.env.dropCache c.failingDev))
      (fun r w => (s.Succeeds → r = .ok ()) ∧ Quiet w₀ w) fail :=
  fun w hw => ⟨fun hs => hs.dropCache w.world.calls, { hw with }⟩

theorem readBack_round :
    Triple (Quiet w₀) (readBack s.env args c)
      (fun o w => (o = .recovered ∨ o = .readbackFailed) ∧
        (∀ block, s.blockAt w₀.world args.cfg c.failingDev c.arrayPhys c.blockSize = .ok block →
          c.verify block.toList = true → o = .recovered) ∧ Quiet w₀ w) fail := by
  unfold readBack
  apply readBlock_round.bind_value
  apply dropCache_round.bind
  intro _
  cases s.blockAt w₀.world args.cfg c.failingDev c.arrayPhys c.blockSize with
  | error e => exact fun w hw => ⟨.inr rfl, fun _ h => (by cases h), hw.2⟩
  | ok block =>
      dsimp only
      cases hverify : c.verify block.toList with
      | false =>
          intro w hw
          refine ⟨.inr rfl, fun b hb hv => ?_, hw.2⟩
          cases hb
          rw [hverify] at hv
          cases hv
      | true => exact fun w hw => ⟨.inl rfl, fun _ _ _ => rfl, hw.2⟩

/-- A write back puts the block where the sector is and touches nothing else. -/
theorem writeBack_round {live : Bool} {block : Vector UInt8 c.blockSize} :
    Triple (Quiet w₀) (writeBack s.env args live c block)
      (fun o w => (o = .recovered ∨ o = .readbackFailed) ∧
        (∀ dev, OnDevice s args dev c → s.Succeeds → c.verify block.toList = true →
          o = .recovered) ∧ Quiet (wrote args c w₀ block) w) fail := by
  unfold writeBack
  apply (triple_note (by simp)).bind
  intro _
  have hwrite : Triple (Quiet w₀)
      (attempt (writeBlock s.env.io args.cfg c.failingDev c.arrayPhys block.toList))
      (fun r w => r = .ok () ∧ Quiet (wrote args c w₀ block) w) fail := by
    intro w hw
    refine ⟨rfl, ⟨?_, ?_, hw.stats, hw.settled⟩, hw.freeze⟩
    · change (w.world.write _ _ _).byte = (w₀.world.write _ _ _).byte
      unfold Disks.write
      rw [hw.byte]
      rfl
    · exact congrArg ((c.failingDev, c.rawStart args, block.toList.length) :: ·) hw.written
  apply hwrite.bind_value
  have hmark : Triple (Quiet (wrote args c w₀ block))
      (onBooks fun b => if live then b.repairedWhileMounted else b)
      (fun _ => Quiet (wrote args c w₀ block)) fail := by
    intro w hw
    cases live <;> exact { hw with }
  apply hmark.bind
  intro _
  apply dropCache_round.bind
  intro flushed
  have hback : Triple (fun w => (s.Succeeds → flushed = .ok ()) ∧ Quiet (wrote args c w₀ block) w)
      (readBack s.env args c) (fun o w => (o = .recovered ∨ o = .readbackFailed) ∧
        (∀ dev, OnDevice s args dev c → s.Succeeds → c.verify block.toList = true →
          o = .recovered) ∧ Quiet (wrote args c w₀ block) w) fail := by
    refine Triple.conseq readBack_round (fun w hw => hw.2) fun o w hw => ?_
    exact ⟨hw.1, fun dev hdev hs hv => hw.2.1 block (hdev.read_back hs w₀ block) hv, hw.2.2⟩
  cases flushed with
  | ok _ => exact hback
  | error e =>
      have hask : Triple
          (fun w => (s.Succeeds → (.error e : Except IoError Unit) = .ok ()) ∧
            Quiet (wrote args c w₀ block) w)
          (world (s.env.isBlockDevice c.failingDev))
          (fun r w => r = s.isBlockDevice c.failingDev ∧
            ((s.Succeeds → (.error e : Except IoError Unit) = .ok ()) ∧
              Quiet (wrote args c w₀ block) w)) fail := fun w hw => ⟨rfl, hw⟩
      apply hask.bind_value
      cases s.isBlockDevice c.failingDev with
      | false => exact hback
      | true =>
          intro w hw
          refine ⟨.inr rfl, fun _ _ hs => ?_, { hw.2 with }⟩
          cases hw.1 hs

/-- How the recovery of a mismatch ends where writes are allowed. -/
inductive RecoverEnds (s : Surroundings) (args : WriterArgs) (c : Candidate)
    (block : Vector UInt8 c.blockSize) (unreadable : Bool) (w₀ : WriterState Disks) :
    Outcome → WriterState Disks → Prop where
  | ungathered {w} (answer : s.rebuilt args w₀.world c block unreadable = .ok none)
      (quiet : Quiet w₀ w) : RecoverEnds s args c block unreadable w₀ .failed w
  | failed {w reason}
      (answer : s.rebuilt args w₀.world c block unreadable = .ok (some (.failed reason)))
      (quiet : Quiet w₀ w) : RecoverEnds s args c block unreadable w₀ .failed w
  | notCorrupt {w} (answer : s.rebuilt args w₀.world c block unreadable = .ok (some .notCorrupt))
      (quiet : Quiet w₀ w) : RecoverEnds s args c block unreadable w₀ .notCorrupt w
  | rehearsed {w via recovered}
      (answer : s.rebuilt args w₀.world c block unreadable = .ok (some (.recovered via recovered)))
      (dry : args.dryRun = true) (quiet : Quiet w₀ w) :
      RecoverEnds s args c block unreadable w₀ .recovered w
  | written {w via recovered outcome}
      (answer : s.rebuilt args w₀.world c block unreadable = .ok (some (.recovered via recovered)))
      (repair : args.dryRun = false) (accepted : c.verify recovered.toList = true)
      (counted : outcome = .recovered ∨ outcome = .readbackFailed)
      (verified : ∀ dev, OnDevice s args dev c → s.Succeeds → outcome = .recovered)
      (quiet : Quiet (wrote args c w₀ recovered) w) :
      RecoverEnds s args c block unreadable w₀ outcome w

theorem recover_round {live : Bool} {block : Vector UInt8 c.blockSize} {unreadable : Bool} :
    Triple (Quiet w₀) (recover s.env args live true c block unreadable)
      (RecoverEnds s args c block unreadable w₀)
      (fun e w => ∃ h, e = .halt h ∧ s.rebuilt args w₀.world c block unreadable = .error h ∧
        Quiet w₀ w) := by
  unfold recover
  apply gatherStripe_round.bind_value
  cases hstripe : s.stripeAt w₀.world args.cfg args.scrubSlot c.arrayPhys c.blockSize with
  | error e =>
      have hanswer : s.rebuilt args w₀.world c block unreadable = .ok none := by
        unfold Surroundings.rebuilt
        rw [hstripe]
      exact fun w hw => .ungathered hanswer hw
  | ok chunks =>
      dsimp only
      have hanswer : s.rebuilt args w₀.world c block unreadable = some <$> recoverBlock
          { failingSlot := args.scrubSlot, corruptBlock := block, unreadableSource := unreadable,
            otherBlocks := chunks.otherData, pBlock := chunks.pBlock, qBlock := chunks.qBlock,
            verifier := c.verify } := by
        unfold Surroundings.rebuilt
        rw [hstripe]
      split
      case h_1 h hrec =>
          rw [hrec] at hanswer
          exact fun w hw => ⟨h, rfl, hanswer, hw⟩
      case h_2 via recovered hrec =>
          rw [hrec] at hanswer
          cases hdry : args.dryRun with
          | true => exact fun w hw => .rehearsed hanswer hdry hw
          | false =>
              have haccept : c.verify recovered.toList = true := Recovery.recoverBlock_accepted hrec
              refine Triple.conseq writeBack_round (fun w hw => hw) fun o w hw => ?_
              exact .written hanswer hdry haccept hw.1
                (fun dev hdev hs => hw.2.1 dev hdev hs haccept) hw.2.2
      case h_3 hrec =>
          rw [hrec] at hanswer
          exact fun w hw => .notCorrupt hanswer hw
      case h_4 reason hrec =>
          rw [hrec] at hanswer
          exact fun w hw => .failed hanswer hw

/-- The state after an entry in the books. -/
def entered (w : WriterState Disks) (f : Books → Books) : WriterState Disks :=
  { w with books := f w.books }

/-- How a round of the loop ends where writes are allowed. -/
inductive RoundEnds (s : Surroundings) (args : WriterArgs) (c : Candidate)
    (w₀ : WriterState Disks) : WriterState Disks → Prop where
  | stale {w} (found : s.confirmed args w₀.world c = .stale)
      (quiet : Quiet (entered w₀ (·.classify c.arrayPhys .stale)) w) : RoundEnds s args c w₀ w
  | skipped {w} (found : s.confirmed args w₀.world c = .skipped)
      (quiet : Quiet (entered w₀ (·.classify c.arrayPhys .skipped)) w) : RoundEnds s args c w₀ w
  | mismatch {w w₁ block unreadable outcome}
      (found : s.confirmed args w₀.world c = .corrupt block unreadable)
      (ends : RecoverEnds s args c block unreadable
        (entered w₀ (·.classify c.arrayPhys .mismatch)) outcome w₁)
      (quiet : Quiet (entered w₁ (·.settle c.arrayPhys outcome)) w) : RoundEnds s args c w₀ w

/-- An entry keeps two states alike. -/
theorem Quiet.classify {w₀ w : WriterState Disks} (h : Quiet w₀ w) (a : Nat) (stage : Stage) :
    Quiet (entered w₀ (·.classify a stage)) (entered w (·.classify a stage)) where
  byte := h.byte
  written := h.written
  stats := congrArg (BatchStats.countStage · stage) h.stats
  freeze := h.freeze
  settled := h.settled

theorem classify_round {a : Nat} {stage : Stage} :
    Triple (Quiet w₀) (onBooks (·.classify a stage))
      (fun _ => Quiet (entered w₀ (·.classify a stage))) fail :=
  fun _ hw => hw.classify a stage

/-- The engine halts on a mismatch that was found. -/
def Halts (s : Surroundings) (args : WriterArgs) (c : Candidate) (d : Disks) (h : Halt) : Prop :=
  ∃ block unreadable, s.confirmed args d c = .corrupt block unreadable ∧
    s.rebuilt args d c block unreadable = .error h

theorem processCandidate_round {live : Bool} :
    Triple (Quiet w₀) (processCandidate s.env args live true c)
      (fun _ => RoundEnds s args c w₀)
      (fun e w => ∃ h, e = .halt h ∧ Halts s args c w₀.world h ∧
        Quiet (entered w₀ (·.classify c.arrayPhys .mismatch)) w) := by
  unfold processCandidate
  apply (triple_note (by simp)).bind
  intro _
  apply confirm_round.bind_value
  cases hfound : s.confirmed args w₀.world c with
  | stale =>
      exact Triple.conseq classify_round (fun w hw => hw) fun _ w hw => .stale hfound hw
  | skipped =>
      exact Triple.conseq classify_round (fun w hw => hw) fun _ w hw => .skipped hfound hw
  | corrupt block unreadable =>
      apply classify_round.bind
      intro _
      apply (recover_round.weaken (fun w hw => hw) (fun o w hw => hw) ?_).bind
      · intro outcome w hw
        exact .mismatch hfound hw (Quiet.refl _)
      · rintro e w ⟨h, rfl, hanswer, hw⟩
        exact ⟨h, rfl, ⟨block, unreadable, hfound, hanswer⟩, hw⟩

end Round
end Rotshield.BatchRecover
