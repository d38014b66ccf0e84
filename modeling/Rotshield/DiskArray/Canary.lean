import Rotshield.DiskArray.Stripe
import Rotshield.Recovery.Engine

/-! Reconstruction of a block from parity, over disks that end at different addresses. -/
namespace Rotshield.DiskArray
open Recovery (xorInplace recoverViaP)

section Source
variable {m : Type → Type} [Monad m]

/-- Reconstruct a block from the other data disks and the P disk. -/
def reconstructBlock (io : DeviceIo m) (config : ArrayConfig)
    (failingSlot arrayPhys blockSize : Nat) : ExceptT IoError m (Vector UInt8 blockSize) := do
  let chunks ← gatherStripe io config failingSlot arrayPhys blockSize
  match chunks.pBlock with
  | none => throw .notFound
  | some pBlock => return recoverViaP chunks.otherData pBlock

end Source

/-! ### Bytes past the end of a disk -/

/-- The exclusive or of some bytes. -/
def xorBytes (bytes : List UInt8) : UInt8 := bytes.foldr (· ^^^ ·) 0

theorem xorBytes_append (l l' : List UInt8) : xorBytes (l ++ l') = xorBytes l ^^^ xorBytes l' := by
  induction l with
  | nil => simp [xorBytes]
  | cons b l ih =>
      have hcons : ∀ l, xorBytes (b :: l) = b ^^^ xorBytes l := fun _ => rfl
      rw [List.cons_append, hcons, hcons, ih, UInt8.xor_assoc]

/-- What one byte leaves of the others' exclusive or. -/
theorem xorBytes_split (pre post : List UInt8) (b : UInt8) :
    xorBytes (pre ++ post) ^^^ xorBytes (pre ++ b :: post) = b := by
  have hcons : xorBytes (b :: post) = b ^^^ xorBytes post := rfl
  rw [xorBytes_append, xorBytes_append, hcons]
  generalize xorBytes pre = x
  generalize xorBytes post = y
  calc x ^^^ y ^^^ (x ^^^ (b ^^^ y))
      = (x ^^^ x) ^^^ (y ^^^ y) ^^^ b := by ac_rfl
    _ = b := by simp

/-- A disk's size and content. -/
structure Disk where
  size : Nat
  byte : Nat → UInt8

/-- The byte at a raw address: zero past the end of the disk. -/
def Disk.extended (disk : Disk) (raw : Nat) : UInt8 := if raw < disk.size then disk.byte raw else 0

/-- Every read succeeds and gives what is on the disk. -/
structure Serves {m : Type → Type} [Monad m] (io : DeviceIo m) (disks : Path → Disk) : Prop where
  size : ∀ path, io.size path = pure (disks path).size
  read : ∀ path raw len, raw + len ≤ (disks path).size →
    io.readExact path raw len = pure (Vector.ofFn fun i => (disks path).byte (raw + i))

/-- The block at an array address: the bytes from the raw address on, with zeros past the end. -/
def blockAt (disks : Path → Disk) (config : ArrayConfig) (path : Path) (arrayPhys blockSize : Nat) :
    Vector UInt8 blockSize :=
  Vector.ofFn fun i => (disks path).extended (wadd arrayPhys (config.rawOffsetFor path) + i)

/-- The data bytes at one place of a block, each at its own disk's raw address. -/
def dataBytes (disks : Path → Disk) (config : ArrayConfig) (arrayPhys i : Nat) : List UInt8 :=
  config.dataDevs.map fun d =>
    (disks d.2).extended (wadd arrayPhys (config.rawOffsetFor d.2) + i)

section Reads
variable {m : Type → Type} [Monad m] [LawfulMonad m] {io : DeviceIo m} {disks : Path → Disk}
  {config : ArrayConfig} {arrayPhys blockSize : Nat}

omit [Monad m] [LawfulMonad m] in
theorem blockAt_past {path : Path}
    (h : (disks path).size ≤ wadd arrayPhys (config.rawOffsetFor path)) :
    Vector.replicate blockSize 0 = blockAt disks config path arrayPhys blockSize := by
  apply Vector.ext
  intro i hi
  have hout : ¬wadd arrayPhys (config.rawOffsetFor path) + i < (disks path).size := by omega
  simp [blockAt, Disk.extended, hout]

omit [Monad m] [LawfulMonad m] in
theorem blockAt_head {path : Path}
    (h : ¬(disks path).size ≤ wadd arrayPhys (config.rawOffsetFor path)) :
    zeroFill (Vector.ofFn fun i : Fin (min
        ((disks path).size - wadd arrayPhys (config.rawOffsetFor path)) blockSize) =>
      (disks path).byte (wadd arrayPhys (config.rawOffsetFor path) + i)) blockSize =
        blockAt disks config path arrayPhys blockSize := by
  unfold blockAt
  generalize wadd arrayPhys (config.rawOffsetFor path) = raw at h ⊢
  apply Vector.ext
  intro i hi
  simp only [zeroFill, Vector.getElem_ofFn, Disk.extended]
  by_cases hin : raw + i < (disks path).size
  · have hhead : i < min ((disks path).size - raw) blockSize := by omega
    simp [hhead, hin]
  · have htail : ¬i < min ((disks path).size - raw) blockSize := by omega
    rw [dif_neg htail, if_neg hin]

/-- A block read is the zero-extended disk, whether it is inside, straddles the end or is past it. -/
theorem readBlockOrZeros_eq (h : Serves io disks) (path : Path) :
    readBlockOrZeros io config path arrayPhys blockSize =
      pure (blockAt disks config path arrayPhys blockSize) := by
  unfold readBlockOrZeros
  rw [h.size, pure_bind]
  by_cases hpast : (disks path).size ≤ wadd arrayPhys (config.rawOffsetFor path)
  · rw [if_pos hpast, blockAt_past hpast]
  · rw [if_neg hpast]
    dsimp only
    rw [h.read path _ _ (by omega), pure_bind, blockAt_head hpast]

theorem gatherOther_eq (h : Serves io disks) (failingSlot : Nat) (devs : List (Nat × Path)) :
    gatherOther io config failingSlot arrayPhys blockSize devs =
      pure ((devs.filter (·.1 != failingSlot)).map fun d =>
        (d.1, blockAt disks config d.2 arrayPhys blockSize)) := by
  induction devs with
  | nil => rfl
  | cons dev devs ih =>
      obtain ⟨slot, path⟩ := dev
      rw [gatherOther, List.filter_cons]
      by_cases hslot : slot = failingSlot
      · have hne : (slot != failingSlot) = false := by simp [hslot]
        rw [if_pos hslot, hne, ih]
        rfl
      · have hne : (slot != failingSlot) = true := by simp [hslot]
        rw [if_neg hslot, hne, ih, readBlockOrZeros_eq h]
        simp

theorem gatherParity_eq (h : Serves io disks) (parity : Option Path) :
    gatherParity io config arrayPhys blockSize parity =
      pure (parity.map fun path => blockAt disks config path arrayPhys blockSize) := by
  cases parity with
  | none => rfl
  | some path =>
      rw [gatherParity, readBlockOrZeros_eq h]
      simp

theorem recoverViaP_byte (others : List (Nat × Vector UInt8 blockSize))
    (p : Vector UInt8 blockSize) {i : Nat} (hi : i < blockSize) :
    (recoverViaP others p)[i] = xorBytes (others.map fun b => b.2[i]) ^^^ p[i] := by
  have hfold : ∀ acc : Vector UInt8 blockSize,
      (others.foldl (fun recovered b => xorInplace recovered b.2) acc)[i] =
        acc[i] ^^^ xorBytes (others.map fun b => b.2[i]) := by
    induction others with
    | nil =>
        intro acc
        simp [xorBytes]
    | cons b others ih =>
        intro acc
        have hcons : xorBytes ((b :: others).map fun b => b.2[i]) =
            b.2[i] ^^^ xorBytes (others.map fun b => b.2[i]) := rfl
        rw [List.foldl_cons, ih, hcons, ← UInt8.xor_assoc]
        simp [xorInplace]
  unfold recoverViaP
  simp only [xorInplace, Vector.getElem_ofFn]
  have hzero := hfold (Vector.replicate blockSize 0)
  simp only [xorInplace, Vector.getElem_replicate, UInt8.zero_xor] at hzero
  exact congrArg (· ^^^ p[i]) hzero

/-- The other disks of the array, around a data disk. -/
theorem exists_others {slot : Nat} {path : Path} (h : (slot, path) ∈ config.dataDevs) :
    ∃ pre post, config.dataDevs = pre ++ (slot, path) :: post ∧
      config.dataDevs.filter (·.1 != slot) = pre ++ post := by
  obtain ⟨pre, post, hsplit⟩ := List.append_of_mem h
  have hslots := config.slots_sorted
  rw [hsplit, List.map_append, List.map_cons] at hslots
  obtain ⟨-, hpost, hpre⟩ := List.pairwise_append.mp hslots
  have hbefore : ∀ d ∈ pre, d.1 < slot := fun d hd =>
    hpre d.1 (List.mem_map_of_mem hd) slot List.mem_cons_self
  have hafter : ∀ d ∈ post, slot < d.1 := fun d hd =>
    List.rel_of_pairwise_cons hpost (List.mem_map_of_mem hd)
  refine ⟨pre, post, hsplit, ?_⟩
  have hkeepPre : pre.filter (·.1 != slot) = pre :=
    List.filter_eq_self.mpr fun d hd => bne_iff_ne.mpr (Nat.ne_of_lt (hbefore d hd))
  have hkeepPost : post.filter (·.1 != slot) = post :=
    List.filter_eq_self.mpr fun d hd => bne_iff_ne.mpr (Nat.ne_of_gt (hafter d hd))
  rw [hsplit, List.filter_append, List.filter_cons_of_neg (by simp), hkeepPre, hkeepPost]

/-- Where the parity of a block matches its data, the block is reconstructed as it is read. -/
theorem reconstructBlock_eq (h : Serves io disks) {slot : Nat} {path p : Path}
    (hslot : (slot, path) ∈ config.dataDevs) (hp : config.parityP = some p)
    (hparity : ∀ i < blockSize, (disks p).extended (wadd arrayPhys (config.rawOffsetFor p) + i) =
      xorBytes (dataBytes disks config arrayPhys i)) :
    reconstructBlock io config slot arrayPhys blockSize =
      pure (blockAt disks config path arrayPhys blockSize) := by
  unfold reconstructBlock gatherStripe
  rw [gatherOther_eq h, pure_bind, gatherParity_eq h, pure_bind, gatherParity_eq h, pure_bind,
    pure_bind, hp]
  apply congrArg pure
  obtain ⟨pre, post, hsplit, hothers⟩ := exists_others hslot
  apply Vector.ext
  intro i hi
  rw [recoverViaP_byte _ _ hi, hothers]
  simp only [blockAt, Vector.getElem_ofFn, hparity i hi, dataBytes, hsplit, List.map_append,
    List.map_cons, List.map_map, Function.comp_def]
  exact xorBytes_split _ _ _

end Reads

/-! ### Arrays whose parity matches everywhere -/

/-- At every array address the P byte is the exclusive or of the data bytes, each disk read at its
own offset and extended with zeros. -/
def ParityMatches (disks : Path → Disk) (config : ArrayConfig) (p : Path) : Prop :=
  ∀ a, (disks p).extended (a + config.rawOffsetFor p) =
    xorBytes (config.dataDevs.map fun d => (disks d.2).extended (a + config.rawOffsetFor d.2))

/-- On every disk of the array the raw address is a `u64`. -/
def Addressable (config : ArrayConfig) (p : Path) (arrayPhys : Nat) : Prop :=
  arrayPhys + config.rawOffsetFor p < 2 ^ 64 ∧
    ∀ d ∈ config.dataDevs, arrayPhys + config.rawOffsetFor d.2 < 2 ^ 64

/-- The blocks of these lengths from an address on, reconstructed one by one. -/
def reconstructSplit {m : Type → Type} [Monad m] (io : DeviceIo m) (config : ArrayConfig)
    (failingSlot : Nat) : Nat → List Nat → ExceptT IoError m Bytes
  | _, [] => pure []
  | arrayPhys, blockSize :: rest => do
      let block ← reconstructBlock io config failingSlot arrayPhys blockSize
      let more ← reconstructSplit io config failingSlot (arrayPhys + blockSize) rest
      return block.toList ++ more

section Matches
variable {m : Type → Type} [Monad m] [LawfulMonad m] {io : DeviceIo m} {disks : Path → Disk}
  {config : ArrayConfig} {slot : Nat} {path p : Path}

theorem ParityMatches.block (h : ParityMatches disks config p) {arrayPhys : Nat}
    (haddr : Addressable config p arrayPhys) (i : Nat) :
    (disks p).extended (wadd arrayPhys (config.rawOffsetFor p) + i) =
      xorBytes (dataBytes disks config arrayPhys i) := by
  have hbytes : dataBytes disks config arrayPhys i = config.dataDevs.map fun d =>
      (disks d.2).extended (arrayPhys + i + config.rawOffsetFor d.2) := by
    apply List.map_congr_left
    intro d hd
    rw [wadd_eq (haddr.2 d hd), Nat.add_right_comm]
  rw [hbytes, wadd_eq haddr.1, Nat.add_right_comm]
  exact h (arrayPhys + i)

/-- The bytes of a range of the disk. -/
def bytesFrom (disks : Path → Disk) (config : ArrayConfig) (path : Path) (arrayPhys n : Nat) :
    Bytes :=
  (List.range n).map fun i => (disks path).extended (arrayPhys + i + config.rawOffsetFor path)

theorem bytesFrom_add (arrayPhys n n' : Nat) :
    bytesFrom disks config path arrayPhys (n + n') =
      bytesFrom disks config path arrayPhys n ++ bytesFrom disks config path (arrayPhys + n) n' := by
  unfold bytesFrom
  rw [List.range_add, List.map_append, List.map_map]
  congr 1
  apply List.map_congr_left
  intro i _
  simp only [Function.comp_apply, Nat.add_assoc]

theorem blockAt_toList {arrayPhys blockSize : Nat}
    (haddr : arrayPhys + config.rawOffsetFor path < 2 ^ 64) :
    (blockAt disks config path arrayPhys blockSize).toList =
      bytesFrom disks config path arrayPhys blockSize := by
  unfold blockAt bytesFrom
  rw [wadd_eq haddr]
  apply List.ext_getElem
  · simp
  · intro i hi _
    simp [Nat.add_right_comm]

/-- Every split of a range gives the bytes of the disk. -/
theorem reconstructSplit_eq (h : Serves io disks) (hslot : (slot, path) ∈ config.dataDevs)
    (hp : config.parityP = some p) (hparity : ParityMatches disks config p) (sizes : List Nat)
    {arrayPhys : Nat} (haddr : Addressable config p (arrayPhys + sizes.sum)) :
    reconstructSplit io config slot arrayPhys sizes =
      pure (bytesFrom disks config path arrayPhys sizes.sum) := by
  induction sizes generalizing arrayPhys with
  | nil => rfl
  | cons blockSize sizes ih =>
      rw [List.sum_cons] at haddr
      have hhere : Addressable config p arrayPhys := by
        have hfirst := haddr.1
        refine ⟨by omega, fun d hd => ?_⟩
        have hdisk := haddr.2 d hd
        omega
      have hrest : Addressable config p (arrayPhys + blockSize + sizes.sum) := by
        rw [Nat.add_assoc]
        exact haddr
      rw [reconstructSplit, reconstructBlock_eq h hslot hp fun i _ => hparity.block hhere i,
        pure_bind, ih hrest, pure_bind, blockAt_toList (hhere.2 _ hslot), ← bytesFrom_add,
        List.sum_cons]

/-- Where the parity matches the data, a lost block is reconstructed as it would be read, whichever
disks end in it or before it; and how a range is split into blocks makes no difference. -/
theorem reconstruct_exact (h : Serves io disks) (hslot : (slot, path) ∈ config.dataDevs)
    (hp : config.parityP = some p) :
    (∀ arrayPhys blockSize,
      (∀ i < blockSize, (disks p).extended (wadd arrayPhys (config.rawOffsetFor p) + i) =
        xorBytes (dataBytes disks config arrayPhys i)) →
      reconstructBlock io config slot arrayPhys blockSize =
        readBlockOrZeros io config path arrayPhys blockSize) ∧
    (ParityMatches disks config p →
      (∀ arrayPhys blockSize, Addressable config p arrayPhys →
        reconstructBlock io config slot arrayPhys blockSize =
          readBlockOrZeros io config path arrayPhys blockSize) ∧
      ∀ arrayPhys sizes, Addressable config p (arrayPhys + sizes.sum) →
        reconstructSplit io config slot arrayPhys sizes =
          Vector.toList <$> reconstructBlock io config slot arrayPhys sizes.sum) := by
  have hblock : ∀ arrayPhys blockSize,
      (∀ i < blockSize, (disks p).extended (wadd arrayPhys (config.rawOffsetFor p) + i) =
        xorBytes (dataBytes disks config arrayPhys i)) →
      reconstructBlock io config slot arrayPhys blockSize =
        readBlockOrZeros io config path arrayPhys blockSize := by
    intro arrayPhys blockSize hbytes
    rw [reconstructBlock_eq h hslot hp hbytes, readBlockOrZeros_eq h]
  refine ⟨hblock, fun hparity => ⟨?_, ?_⟩⟩
  · intro arrayPhys blockSize haddr
    exact hblock arrayPhys blockSize fun i _ => hparity.block haddr i
  · intro arrayPhys sizes haddr
    have hhere : Addressable config p arrayPhys := by
      have hfirst := haddr.1
      refine ⟨by omega, fun d hd => ?_⟩
      have hdisk := haddr.2 d hd
      omega
    rw [reconstructSplit_eq h hslot hp hparity sizes haddr,
      reconstructBlock_eq h hslot hp fun i _ => hparity.block hhere i, map_pure,
      blockAt_toList (hhere.2 _ hslot)]

end Matches

/-! ### An array of two data disks that end at different addresses -/

namespace Crafted

def firstDisk : List UInt8 := [1, 2, 3]
/-- Its first byte lies before the array. -/
def secondDisk : List UInt8 := [9, 10, 20, 30, 40]
def parityDisk : List UInt8 := [1 ^^^ 10, 2 ^^^ 20, 3 ^^^ 30, 40]

def content (path : Path) : List UInt8 :=
  if path = "d1" then firstDisk else if path = "d2" then secondDisk else parityDisk

def disks (path : Path) : Disk := ⟨(content path).length, fun i => (content path).getD i 0⟩

def deviceIo : DeviceIo Id where
  size path := pure (disks path).size
  readExact path raw len :=
    if raw + len ≤ (disks path).size then pure (Vector.ofFn fun i => (disks path).byte (raw + i))
    else throw .unexpectedEof
  writeAll _ _ _ := pure ()

theorem deviceIo_serves : Serves deviceIo disks where
  size _ := rfl
  read _ _ _ h := if_pos h

def config : ArrayConfig where
  dataDevs := [(1, "d1"), (2, "d2")]
  parityP := some "p"
  parityQ := none
  rdevOffsets := [("d2", 1)]
  slots_sorted := by decide

theorem config_matches : ParityMatches disks config "p" := by
  intro a
  change (disks "p").extended (a + 0) =
    (disks "d1").extended (a + 0) ^^^ ((disks "d2").extended (a + 1) ^^^ 0)
  rcases Nat.lt_or_ge a 4 with hlt | hge
  · have hsmall : ∀ a < 4, (disks "p").extended (a + 0) =
        (disks "d1").extended (a + 0) ^^^ ((disks "d2").extended (a + 1) ^^^ 0) := by decide
    exact hsmall a hlt
  · have hp : ¬a + 0 < (disks "p").size := Nat.not_lt.mpr hge
    have h1 : ¬a + 0 < (disks "d1").size := Nat.not_lt.mpr (Nat.le_trans (by decide) hge)
    have h2 : ¬a + 1 < (disks "d2").size := Nat.not_lt.mpr (Nat.succ_le_succ hge)
    unfold Disk.extended
    rw [if_neg hp, if_neg h1, if_neg h2]
    rfl

theorem reconstruct_exact_crafted :
    (∀ arrayPhys blockSize, Addressable config "p" arrayPhys →
      reconstructBlock deviceIo config 2 arrayPhys blockSize =
        readBlockOrZeros deviceIo config "d2" arrayPhys blockSize) ∧
    ∀ arrayPhys sizes, Addressable config "p" (arrayPhys + sizes.sum) →
      reconstructSplit deviceIo config 2 arrayPhys sizes =
        Vector.toList <$> reconstructBlock deviceIo config 2 arrayPhys sizes.sum :=
  (reconstruct_exact deviceIo_serves (List.mem_cons_of_mem _ List.mem_cons_self) rfl).2
    config_matches

end Crafted
end Rotshield.DiskArray
