import Rotshield.BatchRecover.Flush
import Rotshield.Lib.Hoare

/-! Honest disks: a read returns the last bytes written, and fails by its device and range
alone. -/
namespace Rotshield.BatchRecover
open DiskArray (ArrayConfig DeviceIo readBlockOrZeros gatherOther gatherParity gatherStripe
  StripeChunks zeroFill zeroFill_self)
open Lib (Triple)

/-! ### Rules for the writer's actions -/

section Rules
variable {σ α : Type} {post : α → WriterState σ → Prop} {fail : Stop → WriterState σ → Prop}

theorem triple_onBooks {f : Books → Books} {post : Unit → WriterState σ → Prop} :
    Triple (fun w => post () { w with books := f w.books }) (onBooks f : WriterM σ Unit) post fail :=
  fun _ h => h

theorem triple_attempt {y : ExceptT IoError (StateM σ) α}
    {post : Except IoError α → WriterState σ → Prop} :
    Triple (fun w => post (y.run.run w.world).1 { w with world := (y.run.run w.world).2 })
      (attempt y) post fail :=
  fun _ h => h

end Rules

/-! ### The disks -/

/-- What stays as it is for a whole run. -/
structure Surroundings where
  size : Path → Except IoError Nat
  /-- The failing reads, by device, offset and length. -/
  readError : Path → Nat → Nat → Option IoError
  /-- A range that was written can be read from then on. -/
  heals : Bool
  verdict : ReconfirmRequest → Reconfirm
  isBlockDevice : Path → Bool
  /-- The clock, the thaws and the cache drops, by the number of calls so far. -/
  clock : Nat → Nat
  thaw : Nat → Except IoError Unit
  dropCache : Nat → Except IoError Unit

structure Disks where
  byte : Path → Nat → UInt8
  /-- The ranges written so far. -/
  written : List (Path × Nat × Nat)
  calls : Nat

namespace Disks

def write (d : Disks) (path : Path) (offset : Nat) (data : Bytes) : Disks :=
  { d with
    byte := fun p i => if p = path ∧ offset ≤ i ∧ i < offset + data.length then
      data.getD (i - offset) 0 else d.byte p i
    written := (path, offset, data.length) :: d.written }

def call (d : Disks) : Disks := { d with calls := d.calls + 1 }

theorem write_other (d : Disks) {path p : Path} (h : p ≠ path) (offset : Nat) (data : Bytes) :
    (d.write path offset data).byte p = d.byte p := by
  funext i
  exact if_neg fun hin => h hin.1

theorem write_outside (d : Disks) (path : Path) {offset i : Nat} {data : Bytes}
    (h : i < offset ∨ offset + data.length ≤ i) :
    (d.write path offset data).byte path i = d.byte path i := by
  apply if_neg
  omega

theorem write_inside (d : Disks) (path : Path) {offset i : Nat} {data : Bytes}
    (h : i < data.length) : (d.write path offset data).byte path (offset + i) = data[i] := by
  unfold write
  dsimp only
  rw [if_pos ⟨rfl, by omega, by omega⟩, Nat.add_sub_cancel_left, List.getD_eq_getElem?_getD,
    List.getElem?_eq_getElem h, Option.getD_some]

end Disks

namespace Surroundings

def failure (s : Surroundings) (d : Disks) (path : Path) (offset len : Nat) : Option IoError :=
  if s.heals && d.written.contains (path, offset, len) then none else s.readError path offset len

def readExact (s : Surroundings) (d : Disks) (path : Path) (offset len : Nat) :
    Except IoError (Vector UInt8 len) :=
  match s.failure d path offset len with
  | some e => .error e
  | none => .ok (Vector.ofFn fun i => d.byte path (offset + i))

def io (s : Surroundings) : DeviceIo (StateM Disks) where
  size path := ExceptT.mk fun d => (s.size path, d)
  readExact path offset len := ExceptT.mk fun d => (s.readExact d path offset len, d)
  writeAll path offset data := ExceptT.mk fun d => (.ok (), d.write path offset data)

/-- The writer among honest disks. A freeze succeeds; verdicts go by the request. -/
def env (s : Surroundings) : WriterEnv Disks where
  io := s.io
  freezePath _ := ExceptT.mk fun d => (.ok (), d)
  thawPath _ := ExceptT.mk fun d => (s.thaw d.calls, d.call)
  now := fun d => (s.clock d.calls, d.call)
  reconfirm req := fun d => (s.verdict req, d)
  dropCache _ := ExceptT.mk fun d => (s.dropCache d.calls, d.call)
  isBlockDevice path := fun d => (s.isBlockDevice path, d)

/-- Reading while nothing is written. -/
def snapshot (s : Surroundings) (d : Disks) : DeviceIo Id where
  size path := s.size path
  readExact path offset len := s.readExact d path offset len
  writeAll _ _ _ := .ok ()

def blockAt (s : Surroundings) (d : Disks) (config : ArrayConfig) (path : Path)
    (arrayPhys blockSize : Nat) : Except IoError (Vector UInt8 blockSize) :=
  (readBlockOrZeros (s.snapshot d) config path arrayPhys blockSize).run.run

def stripeAt (s : Surroundings) (d : Disks) (config : ArrayConfig)
    (failingSlot arrayPhys blockSize : Nat) : Except IoError (StripeChunks blockSize) :=
  (gatherStripe (s.snapshot d) config failingSlot arrayPhys blockSize).run.run

/-! ### Reads, against the snapshot -/

/-- A computation that gives this and leaves the disks alone. -/
def Gives {α : Type} (d : Disks) (x : ExceptT IoError (StateM Disks) α)
    (value : ExceptT IoError Id α) : Prop :=
  x.run.run d = (value.run.run, d)

namespace Gives
variable {α β : Type} {d : Disks} {x : ExceptT IoError (StateM Disks) α}
  {value : ExceptT IoError Id α}

theorem pure (a : α) : Gives d (Pure.pure a) (Pure.pure a) := rfl

theorem bind {f : α → ExceptT IoError (StateM Disks) β} {next : α → ExceptT IoError Id β}
    (hx : Gives d x value) (hf : ∀ a, Gives d (f a) (next a)) :
    Gives d (x >>= f) (value >>= next) := by
  unfold Gives at hx ⊢
  rw [ExceptT.run_bind, StateT.run_bind, hx, ExceptT.run_bind]
  cases hvalue : value.run with
  | error e => rfl
  | ok a => exact hf a

theorem map {f : α → β} (hx : Gives d x value) : Gives d (f <$> x) (f <$> value) := by
  unfold Gives at hx ⊢
  rw [ExceptT.run_map, StateT.run_map, hx, ExceptT.run_map]
  rfl

end Gives

section Reads
variable {s : Surroundings} {d : Disks} {config : ArrayConfig}
  {failingSlot arrayPhys blockSize : Nat}

theorem gives_readBlock (path : Path) :
    Gives d (readBlockOrZeros s.env.io config path arrayPhys blockSize)
      (readBlockOrZeros (s.snapshot d) config path arrayPhys blockSize) := by
  unfold readBlockOrZeros
  have hsize : Gives d (s.env.io.size path) ((s.snapshot d).size path) := rfl
  have hread (offset len : Nat) :
      Gives d (s.env.io.readExact path offset len) ((s.snapshot d).readExact path offset len) := rfl
  apply hsize.bind
  intro size
  dsimp only
  split
  · exact Gives.pure _
  · exact (hread _ _).bind fun head => Gives.pure _

theorem gives_gatherOther (devs : List (Nat × Path)) :
    Gives d (gatherOther s.env.io config failingSlot arrayPhys blockSize devs)
      (gatherOther (s.snapshot d) config failingSlot arrayPhys blockSize devs) := by
  induction devs with
  | nil => exact Gives.pure _
  | cons dev devs ih =>
      unfold gatherOther
      split
      · exact ih
      · apply (gives_readBlock _).bind
        intro block
        apply ih.bind
        intro others
        exact Gives.pure _

theorem gives_gatherParity (parity : Option Path) :
    Gives d (gatherParity s.env.io config arrayPhys blockSize parity)
      (gatherParity (s.snapshot d) config arrayPhys blockSize parity) := by
  cases parity with
  | none => exact Gives.pure _
  | some p => exact (gives_readBlock p).map

theorem gives_gatherStripe :
    Gives d (gatherStripe s.env.io config failingSlot arrayPhys blockSize)
      (gatherStripe (s.snapshot d) config failingSlot arrayPhys blockSize) := by
  unfold gatherStripe
  apply (gives_gatherOther _).bind
  intro otherData
  apply (gives_gatherParity _).bind
  intro pBlock
  apply (gives_gatherParity _).bind
  intro qBlock
  exact Gives.pure _

end Reads

/-! ### What a read depends on -/

section Agree
variable {s : Surroundings} {d d' : Disks} {config : ArrayConfig}
  {failingSlot arrayPhys blockSize : Nat}

/-- The same bytes and the same failures on a device. -/
structure Agree (s : Surroundings) (d d' : Disks) (path : Path) : Prop where
  byte : d.byte path = d'.byte path
  failure : ∀ offset len, s.failure d path offset len = s.failure d' path offset len

theorem Agree.readExact {path : Path} (h : Agree s d d' path) :
    (s.snapshot d).readExact path = (s.snapshot d').readExact path := by
  funext offset len
  change s.readExact d path offset len = s.readExact d' path offset len
  unfold Surroundings.readExact
  rw [h.byte, h.failure]

theorem Agree.readBlock {path : Path} (h : Agree s d d' path) :
    readBlockOrZeros (s.snapshot d) config path arrayPhys blockSize =
      readBlockOrZeros (s.snapshot d') config path arrayPhys blockSize := by
  unfold readBlockOrZeros
  rw [h.readExact]
  rfl

theorem gatherOther_congr {devs : List (Nat × Path)}
    (h : ∀ dev ∈ devs, dev.1 ≠ failingSlot → Agree s d d' dev.2) :
    gatherOther (s.snapshot d) config failingSlot arrayPhys blockSize devs =
      gatherOther (s.snapshot d') config failingSlot arrayPhys blockSize devs := by
  induction devs with
  | nil => rfl
  | cons dev devs ih =>
      unfold gatherOther
      rw [ih fun e he => h e (List.mem_cons_of_mem dev he)]
      split
      · rfl
      · rename_i hslot
        rw [(h dev List.mem_cons_self hslot).readBlock]

theorem gatherParity_congr {parity : Option Path} (h : ∀ p, parity = some p → Agree s d d' p) :
    gatherParity (s.snapshot d) config arrayPhys blockSize parity =
      gatherParity (s.snapshot d') config arrayPhys blockSize parity := by
  cases parity with
  | none => rfl
  | some p => exact congrArg (some <$> ·) (h p rfl).readBlock

/-- The devices a stripe is gathered from: every one but the failing slot's. -/
structure Others (config : ArrayConfig) (failingSlot : Nat) (dev : Path) : Prop where
  data : ∀ d ∈ config.dataDevs, d.1 ≠ failingSlot → d.2 ≠ dev
  parityP : ∀ p, config.parityP = some p → p ≠ dev
  parityQ : ∀ p, config.parityQ = some p → p ≠ dev

theorem stripeAt_congr {dev : Path} (hothers : Others config failingSlot dev)
    (h : ∀ path, path ≠ dev → Agree s d d' path) :
    s.stripeAt d config failingSlot arrayPhys blockSize =
      s.stripeAt d' config failingSlot arrayPhys blockSize := by
  unfold stripeAt gatherStripe
  rw [gatherOther_congr fun e he hslot => h e.2 (hothers.data e he hslot),
    gatherParity_congr fun p hp => h p (hothers.parityP p hp),
    gatherParity_congr fun p hp => h p (hothers.parityQ p hp)]

/-- A block inside the device is read whole. -/
theorem blockAt_inside {path : Path} {size : Nat} (hsize : s.size path = .ok size)
    (hin : arrayPhys + config.rawOffsetFor path + blockSize ≤ size) (hbound : size < 2 ^ 64)
    (hpos : 0 < blockSize) :
    s.blockAt d config path arrayPhys blockSize =
      s.readExact d path (arrayPhys + config.rawOffsetFor path) blockSize := by
  have hraw : wadd arrayPhys (config.rawOffsetFor path) = arrayPhys + config.rawOffsetFor path :=
    wadd_eq (by omega)
  have hfill : ∀ n, n = blockSize →
      ((do
        let head ← (s.snapshot d).readExact path (arrayPhys + config.rawOffsetFor path) n
        return zeroFill head blockSize : ExceptT IoError Id _)).run.run =
          s.readExact d path (arrayPhys + config.rawOffsetFor path) blockSize := by
    intro n hn
    subst hn
    cases hread : s.readExact d path (arrayPhys + config.rawOffsetFor path) n with
    | error e =>
        have hthrow : (s.snapshot d).readExact path (arrayPhys + config.rawOffsetFor path) n =
            throw e := hread
        rw [hthrow]
        rfl
    | ok head =>
        have hpure : (s.snapshot d).readExact path (arrayPhys + config.rawOffsetFor path) n =
            pure head := hread
        rw [hpure, pure_bind]
        exact congrArg Except.ok (zeroFill_self head)
  have hpure : (s.snapshot d).size path = pure size := hsize
  unfold blockAt readBlockOrZeros
  rw [hraw, hpure, pure_bind]
  dsimp only
  rw [if_neg (by omega)]
  exact hfill _ (by omega)

end Agree
end Surroundings
end Rotshield.BatchRecover
