import Rotshield.Btrfs.Craft
import Rotshield.CraftCorrupt.Commands
import Rotshield.Lib.Hoare

/-! Restoring after a corruption: when the array is as it was. -/
namespace Rotshield.CraftCorrupt
open DiskArray Recovery Lib

section Blocks
variable {config : ArrayConfig} {arrayPhys : Nat} {w : World} {path other : Path} {v : Block}

/-- The block of a disk at an array address. -/
def World.block (w : World) (config : ArrayConfig) (arrayPhys : Nat) (path : Path) : Block :=
  blockAt w.disks config path arrayPhys CraftCorrupt.block

/-- The world with a block written. -/
def World.put (w : World) (config : ArrayConfig) (arrayPhys : Nat) (path : Path) (data : Bytes) :
    World := w.write path (wadd arrayPhys (config.rawOffsetFor path)) data

theorem block_put_same : (w.put config arrayPhys path v.toList).block config arrayPhys path = v := by
  have hlen : v.toList.length = block := Vector.length_toList
  apply Vector.ext
  intro i hi
  have hin : wadd arrayPhys (config.rawOffsetFor path) + i <
      max (w.disks path).size (wadd arrayPhys (config.rawOffsetFor path) + v.toList.length) := by
    rw [hlen]
    omega
  simp only [World.block, blockAt, Vector.getElem_ofFn, World.put, World.write, if_true,
    overwrite, Disk.extended, if_pos hin]
  rw [if_pos ⟨Nat.le_add_right _ _, by omega⟩, Nat.add_sub_cancel_left,
    List.getD_eq_getElem?_getD, List.getElem?_eq_getElem (by omega), Option.getD_some]
  simp

theorem block_put_other (h : other ≠ path) (data : Bytes) :
    (w.put config arrayPhys path data).block config arrayPhys other =
      w.block config arrayPhys other := by
  unfold World.block blockAt World.put World.write
  simp only [if_neg h]

theorem block_save (file : FilePath) (data : Bytes) :
    (w.save file data).block config arrayPhys path = w.block config arrayPhys path := rfl

/-! ### What the commands read and write -/

theorem readBlockOrZeros_run : readBlockOrZeros deviceIo config path arrayPhys block w =
    (.ok (w.block config arrayPhys path), w) := by
  unfold readBlockOrZeros
  rw [bind_of_ok (rfl : deviceIo.size path w = (.ok (w.disks path).size, w))]
  by_cases hpast : (w.disks path).size ≤ wadd arrayPhys (config.rawOffsetFor path)
  · rw [if_pos hpast]
    exact congrArg (fun b => (Except.ok b, w)) (blockAt_past hpast)
  · rw [if_neg hpast]
    have hhead : deviceIo.readExact path (wadd arrayPhys (config.rawOffsetFor path))
        (min ((w.disks path).size - wadd arrayPhys (config.rawOffsetFor path)) block) w =
          (.ok (Vector.ofFn fun i => (w.disks path).byte
            (wadd arrayPhys (config.rawOffsetFor path) + i)), w) := if_pos (by omega)
    rw [bind_of_ok hhead]
    exact congrArg (fun b => (Except.ok b, w)) (blockAt_head hpast)

theorem liftIo_run {α : Type} {x : ExceptT IoError (StateM World) α} {a : α} {w' : World}
    (h : x w = (.ok a, w')) : liftIo x w = (.ok a, w') := by
  have hmap : liftIo x w = ((x w).1.mapError Abort.io, (x w).2) := rfl
  rw [hmap, h]
  rfl

theorem readBlock_run :
    readBlock config path arrayPhys w = (.ok (w.block config arrayPhys path), w) :=
  liftIo_run readBlockOrZeros_run

theorem putBlock_run (data : Bytes) :
    putBlock config path arrayPhys data w = (.ok (), w.put config arrayPhys path data) := rfl

theorem writeFile_run (file : FilePath) (data : Bytes) :
    writeFile file data w = (.ok (), w.save file data) := rfl

theorem readFile_run {file : FilePath} {data : Bytes} (h : w.files file = some data) :
    readFile file w = (.ok data, w) := by
  unfold readFile
  rw [bind_of_ok (rfl : (get : Cmd World) w = (.ok w, w)), h]
  rfl

theorem foldlM_run {ε σ α γ : Type} {step : γ → α → ExceptT ε (StateM σ) γ} {f : γ → α → γ} {s : σ}
    {l : List α} (h : ∀ a ∈ l, ∀ acc, step acc a s = (.ok (f acc a), s)) (init : γ) :
    l.foldlM step init s = (.ok (l.foldl f init), s) := by
  induction l generalizing init with
  | nil => rfl
  | cons a l ih =>
      rw [List.foldlM_cons, bind_of_ok (h a List.mem_cons_self init), List.foldl_cons]
      exact ih (fun b hb => h b (List.mem_cons_of_mem a hb)) _

/-- The P block of these data blocks. -/
def pOf (config : ArrayConfig) (blocks : Path → Block) : Block :=
  config.dataDevs.foldl (fun p d => xorInplace p (blocks d.2)) (Vector.replicate block 0)

/-- The Q block of these data blocks. -/
def qOf (config : ArrayConfig) (blocks : Path → Block) : Block :=
  config.dataDevs.foldl (fun q d => gfMulXorInplace q (blocks d.2) (gfExp (slotExp d.1)))
    (Vector.replicate block 0)

/-- A fold that reads a block for each disk. -/
theorem foldBlocks_run {read : Nat × Path → ExceptT IoError (StateM World) Block}
    {value : Nat × Path → Block} (hread : ∀ d, read d w = (.ok (value d), w))
    (step : Block → Nat × Path → Block → Block) (l : List (Nat × Path)) (init : Block) :
    (l.foldlM (fun acc d => do let b ← read d; return step acc d b) init) w =
      (.ok (l.foldl (fun acc d => step acc d (value d)) init), w) := by
  refine foldlM_run (f := fun acc d => step acc d (value d)) ?_ init
  intro d _ acc
  rw [bind_of_ok (hread d)]
  rfl

theorem computeP_run : liftIo (computeP deviceIo config arrayPhys block) w =
    (.ok (pOf config (w.block config arrayPhys)), w) :=
  liftIo_run (foldBlocks_run (fun _ => readBlockOrZeros_run) (fun p _ b => xorInplace p b) _ _)

theorem computeQ_run : liftIo (computeQ deviceIo config arrayPhys block) w =
    (.ok (qOf config (w.block config arrayPhys)), w) :=
  liftIo_run (foldBlocks_run (fun _ => readBlockOrZeros_run)
    (fun q d b => gfMulXorInplace q b (gfExp (slotExp d.1))) _ _)

theorem override_run (slot : Nat) (v : Block) (d : Nat × Path) :
    blockOrOverride deviceIo config slot v arrayPhys d w =
      (.ok (if d.1 = slot then v else w.block config arrayPhys d.2), w) := by
  unfold blockOrOverride
  split
  · rfl
  · exact readBlockOrZeros_run

theorem computePWithOverride_run (slot : Nat) (v : Block) :
    ∃ p, liftIo (computePWithOverride deviceIo config slot v arrayPhys) w = (.ok p, w) :=
  ⟨_, liftIo_run (foldBlocks_run (override_run slot v) (fun p _ b => xorInplace p b) _ _)⟩

theorem computeQWithOverride_run (slot : Nat) (v : Block) :
    ∃ q, liftIo (computeQWithOverride deviceIo config slot v arrayPhys) w = (.ok q, w) :=
  ⟨_, liftIo_run (foldBlocks_run (override_run slot v)
    (fun q d b => gfMulXorInplace q b (gfExp (slotExp d.1))) _ _)⟩

/-- New parity is computed without a write. -/
theorem newParity_run (config : ArrayConfig) (devid arrayPhys : Nat) (w : World) (corrupt p q : Block) (targets : Targets) :
    ∃ v, newParity config devid arrayPhys corrupt p q targets w = (.ok v, w) := by
  obtain ⟨newP, hnewP⟩ : ∃ newP, liftIo (computePWithOverride deviceIo config devid corrupt
      arrayPhys) w = (.ok newP, w) := computePWithOverride_run devid corrupt
  obtain ⟨newQ, hnewQ⟩ : ∃ newQ, liftIo (computeQWithOverride deviceIo config devid corrupt
      arrayPhys) w = (.ok newQ, w) := computeQWithOverride_run devid corrupt
  cases targets with
  | data => exact ⟨_, rfl⟩
  | bakeP => exact ⟨(newP, q), by rw [newParity, bind_of_ok hnewP]; rfl⟩
  | bakeQ => exact ⟨(p, newQ), by rw [newParity, bind_of_ok hnewQ]; rfl⟩
  | bakeBoth =>
      exact ⟨(newP, newQ), by rw [newParity, bind_of_ok hnewP, bind_of_ok hnewQ]; rfl⟩
  | twoDisk => exact ⟨_, rfl⟩

/-- The first other data disk whose block differs from the saved one. -/
def guess (config : ArrayConfig) (devid arrayPhys : Nat) (saved : Bytes) (w : World)
    (devs : List (Nat × Path)) : Option (Nat × Path) :=
  devs.find? fun d => d.1 != devid && (w.block config arrayPhys d.2).toList != saved

theorem restorePartner_run (devid : Nat) (saved : Bytes) (devs : List (Nat × Path)) :
    restorePartner config devid arrayPhys saved devs w =
      (.ok (), match guess config devid arrayPhys saved w devs with
        | none => w
        | some d => w.put config arrayPhys d.2 saved) := by
  induction devs with
  | nil => rfl
  | cons d devs ih =>
      obtain ⟨slot, path⟩ := d
      rw [restorePartner, guess, List.find?_cons]
      by_cases hslot : slot = devid
      · rw [if_pos hslot, ih]
        simp [hslot, guess]
      · have hread : (ExceptT.lift (readBlock config path arrayPhys).run : Cmd _) w =
            (.ok (.ok (w.block config arrayPhys path)), w) := by
          have hlift : (ExceptT.lift (readBlock config path arrayPhys).run : Cmd _) w =
              (.ok (readBlock config path arrayPhys w).1, (readBlock config path arrayPhys w).2) :=
            rfl
          rw [hlift, readBlock_run]
        rw [if_neg hslot, bind_of_ok hread]
        by_cases hsame : (w.block config arrayPhys path).toList = saved
        · dsimp only
          rw [if_neg (not_not.mpr hsame), ih]
          simp [guess, hsame]
        · dsimp only
          rw [if_pos hsame, putBlock_run]
          have hother : (slot != devid) = true := bne_iff_ne.mpr hslot
          have hdiffers : ((w.block config arrayPhys path).toList != saved) = true :=
            bne_iff_ne.mpr hsame
          rw [hother, hdiffers]
          rfl

end Blocks

/-! ### What a corruption leaves -/

section Corrupt
variable {crc : Bytes → UInt32} {config : ArrayConfig} {devid arrayPhys : Nat} {opts : Opts}
  {backup : FilePath} {w w' : World}

theorem okOr_inv {α : Type} {e : IoError} {x : Option α} {a : α} (h : okOr e x w = (.ok a, w')) :
    x = some a ∧ w' = w := by
  cases x with
  | none => cases h
  | some a' =>
      cases h
      exact ⟨rfl, rfl⟩

theorem flipByte_inv {buf buf' : Block} {i : Nat} {mask : UInt8}
    (h : flipByte buf i mask w = (.ok buf', w')) : w' = w := by
  unfold flipByte at h
  split at h
  · cases h
    rfl
  · cases h

theorem rejectSame_inv {original corrupt : Block}
    (h : rejectSame crc original corrupt w = (.ok (), w')) : corrupt ≠ original ∧ w' = w := by
  unfold rejectSame at h
  split at h
  case isTrue => cases h
  case isFalse hcrc =>
      cases h
      refine ⟨?_, rfl⟩
      rintro rfl
      exact hcrc rfl

/-- The partner that was corrupted, if any. -/
def Corrupted (config : ArrayConfig) (devid arrayPhys : Nat) (opts : Opts) (w : World) :
    Option Partner → Prop
  | none => opts.targets ≠ .twoDisk
  | some x => opts.targets = .twoDisk ∧ chosenSlot config devid opts = some x.slot ∧
      config.dataDev x.slot = some x.path ∧ x.corrupt ≠ w.block config arrayPhys x.path

/-- The partner's block is saved beside the backup. -/
def savedBeside (config : ArrayConfig) (arrayPhys : Nat) (backup : FilePath) (w : World) :
    Option Partner → World
  | none => w
  | some x => w.save backup.partner (w.block config arrayPhys x.path).toList

theorem choosePartner_spec (hbackup : opts.backup = some backup) {partner : Option Partner}
    (h : choosePartner crc config devid arrayPhys opts w = (.ok partner, w')) :
    Corrupted config devid arrayPhys opts w partner ∧
      w' = savedBeside config arrayPhys backup w partner := by
  unfold choosePartner at h
  by_cases htargets : opts.targets ≠ .twoDisk
  · rw [if_pos htargets] at h
    cases h
    exact ⟨htargets, rfl⟩
  · rw [if_neg htargets] at h
    obtain ⟨slot, w₁, hok, h₁⟩ := bind_ok_inv h
    obtain ⟨hslot, rfl⟩ := okOr_inv hok
    obtain ⟨path, w₂, hok', h₂⟩ := bind_ok_inv h₁
    obtain ⟨hpath, rfl⟩ := okOr_inv hok'
    rw [bind_of_ok readBlock_run] at h₂
    obtain ⟨corrupt, w₃, hcorrupt, h₃⟩ := bind_ok_inv h₂
    obtain rfl := flipByte_inv hcorrupt
    obtain ⟨⟨⟩, w₄, hreject, h₄⟩ := bind_ok_inv h₃
    obtain ⟨hdiffers, rfl⟩ := rejectSame_inv hreject
    rw [hbackup] at h₄
    cases h₄
    exact ⟨⟨not_not.mp htargets, hslot, hpath, hdiffers⟩, rfl⟩

/-- The world after a corruption: the backups are saved, the target and a partner are corrupt, and
P and Q may hold anything. -/
structure CorruptedWorld (config : ArrayConfig) (devid arrayPhys : Nat) (opts : Opts)
    (backup : FilePath) (w w' : World) (devPath p q : Path) (partner : Option Partner) : Prop where
  dev : config.dataDev devid = some devPath
  parityP : config.parityP = some p
  parityQ : config.parityQ = some q
  corrupted : Corrupted config devid arrayPhys opts w partner
  files : w'.files = ((savedBeside config arrayPhys backup w partner).save backup
    (w.block config arrayPhys devPath).toList).files
  others : ∀ path, path ≠ devPath → path ≠ p → path ≠ q →
    (∀ x, partner = some x → path ≠ x.path) →
    w'.block config arrayPhys path = w.block config arrayPhys path
  hit : ∀ x, partner = some x → w'.block config arrayPhys x.path = x.corrupt

theorem putChanged_run (config : ArrayConfig) (arrayPhys : Nat) (w : World) (path : Path) (before after : Block) :
    ∃ w', putChanged config path arrayPhys before after w = (.ok (), w') ∧ w'.files = w.files ∧
      ∀ other, other ≠ path →
        w'.block config arrayPhys other = w.block config arrayPhys other := by
  unfold putChanged
  split
  · exact ⟨_, putBlock_run _, rfl, fun other h => block_put_other h _⟩
  · exact ⟨w, rfl, rfl, fun _ _ => rfl⟩

theorem block_savedBeside (partner : Option Partner) (path : Path) :
    (savedBeside config arrayPhys backup w partner).block config arrayPhys path =
      w.block config arrayPhys path := by
  cases partner <;> rfl

theorem corruptCmd_spec (hbackup : opts.backup = some backup)
    (h : corruptCmd crc config devid arrayPhys opts w = (.ok (), w')) :
    ∃ devPath p q partner,
      CorruptedWorld config devid arrayPhys opts backup w w' devPath p q partner := by
  unfold corruptCmd at h
  obtain ⟨devPath, w₁, hok, h₁⟩ := bind_ok_inv h
  obtain ⟨hdev, rfl⟩ := okOr_inv hok
  rw [bind_of_ok readBlock_run] at h₁
  obtain ⟨p, w₂, hok', h₂⟩ := bind_ok_inv h₁
  obtain ⟨hp, rfl⟩ := okOr_inv hok'
  obtain ⟨q, w₃, hok'', h₃⟩ := bind_ok_inv h₂
  obtain ⟨hq, rfl⟩ := okOr_inv hok''
  rw [bind_of_ok readBlock_run, bind_of_ok readBlock_run, bind_of_ok computeP_run,
    bind_of_ok computeQ_run] at h₃
  obtain ⟨corrupt, w₄, hcorrupt, h₄⟩ := bind_ok_inv h₃
  obtain rfl := flipByte_inv hcorrupt
  obtain ⟨⟨⟩, w₅, hreject, h₅⟩ := bind_ok_inv h₄
  obtain ⟨-, rfl⟩ := rejectSame_inv hreject
  obtain ⟨partner, w₆, hpartner, h₆⟩ := bind_ok_inv h₅
  obtain ⟨hcorrupted, rfl⟩ := choosePartner_spec hbackup hpartner
  have hsave : saveTo (w₅.block config arrayPhys devPath) opts.backup
      (savedBeside config arrayPhys backup w₅ partner) = (.ok (),
        (savedBeside config arrayPhys backup w₅ partner).save backup
          (w₅.block config arrayPhys devPath).toList) := by
    rw [hbackup]
    exact writeFile_run _ _
  rw [bind_of_ok hsave] at h₆
  obtain ⟨parity, hparity⟩ := newParity_run config devid arrayPhys ((savedBeside config arrayPhys
    backup w₅ partner).save backup (w₅.block config arrayPhys devPath).toList) corrupt
      (w₅.block config arrayPhys p) (w₅.block config arrayPhys q) opts.targets
  rw [bind_of_ok hparity, bind_of_ok (putBlock_run _)] at h₆
  obtain ⟨wp, hputP, hfilesP, hotherP⟩ := putChanged_run config arrayPhys
    (((savedBeside config arrayPhys backup w₅ partner).save backup
      (w₅.block config arrayPhys devPath).toList).put config arrayPhys devPath corrupt.toList) p
        (w₅.block config arrayPhys p) parity.1
  obtain ⟨wq, hputQ, hfilesQ, hotherQ⟩ := putChanged_run config arrayPhys
    wp q (w₅.block config arrayPhys q) parity.2
  rw [bind_of_ok hputP, bind_of_ok hputQ] at h₆
  have hbefore : ∀ path, path ≠ devPath → path ≠ p → path ≠ q →
      wq.block config arrayPhys path = w₅.block config arrayPhys path := by
    intro path hnedev hnep hneq
    rw [hotherQ path hneq, hotherP path hnep, block_put_other hnedev, block_save,
      block_savedBeside]
  have hfiles : wq.files = ((savedBeside config arrayPhys backup w₅ partner).save backup
      (w₅.block config arrayPhys devPath).toList).files := hfilesQ.trans hfilesP
  refine ⟨devPath, p, q, partner, ?_⟩
  cases partner with
  | none =>
      cases h₆
      exact ⟨hdev, hp, hq, hcorrupted, hfiles, fun path h₁ h₂ h₃ _ => hbefore path h₁ h₂ h₃, nofun⟩
  | some x =>
      cases h₆
      refine ⟨hdev, hp, hq, hcorrupted, hfiles, ?_, ?_⟩
      · intro path hnedev hnep hneq hnex
        exact (block_put_other (hnex x rfl) _).trans (hbefore path hnedev hnep hneq)
      · rintro _ ⟨⟩
        exact block_put_same

end Corrupt

/-! ### What a restore leaves -/

section Restore
variable {config : ArrayConfig} {devid arrayPhys : Nat} {backup : FilePath} {w : World}

theorem readBackup_run {file : FilePath} {v : Block} (h : w.files file = some v.toList) :
    readBackup file w = (.ok v.toList, w) := by
  unfold readBackup
  rw [bind_of_ok (readFile_run h), if_neg (not_not.mpr Vector.length_toList)]
  rfl

/-- The world after the guessed disk is written. -/
def guessRestored (config : ArrayConfig) (devid arrayPhys : Nat) (w : World) :
    Option Block → World
  | none => w
  | some saved =>
      match guess config devid arrayPhys saved.toList w config.dataDevs with
      | none => w
      | some d => w.put config arrayPhys d.2 saved.toList

theorem restoreBeside_run {saved : Option Block}
    (h : w.files backup.partner = saved.map Vector.toList) :
    restoreBeside config devid arrayPhys backup w =
      (.ok (), guessRestored config devid arrayPhys w saved) := by
  unfold restoreBeside
  rw [bind_of_ok (rfl : (get : Cmd World) w = (.ok w, w)), h]
  cases saved with
  | none => rfl
  | some v =>
      change (readBackup backup.partner >>= fun data =>
        restorePartner config devid arrayPhys data config.dataDevs) w = _
      rw [bind_of_ok (readBackup_run h)]
      exact restorePartner_run devid v.toList config.dataDevs

/-- The world with P and Q recomputed. -/
def reparity (config : ArrayConfig) (arrayPhys : Nat) (p q : Path) (w : World) : World :=
  (w.put config arrayPhys p (pOf config (w.block config arrayPhys)).toList).put config arrayPhys q
    (qOf config (w.block config arrayPhys)).toList

theorem restoreCmd_run {devPath p q : Path} {orig : Block} {saved : Option Block}
    (hdev : config.dataDev devid = some devPath) (hp : config.parityP = some p)
    (hq : config.parityQ = some q) (horig : w.files backup = some orig.toList)
    (hsaved : w.files backup.partner = saved.map Vector.toList) :
    restoreCmd config devid arrayPhys backup w = (.ok (), reparity config arrayPhys p q
      (guessRestored config devid arrayPhys (w.put config arrayPhys devPath orig.toList) saved)) := by
  have hbeside : restoreBeside config devid arrayPhys backup
      (w.put config arrayPhys devPath orig.toList) = _ := restoreBeside_run hsaved
  unfold restoreCmd
  rw [hdev, bind_of_ok (rfl : okOr .notFound (some devPath) w = (.ok devPath, w)),
    bind_of_ok (readBackup_run horig), bind_of_ok (putBlock_run _), bind_of_ok hbeside,
    bind_of_ok computeP_run, bind_of_ok computeQ_run, hp, hq]
  rfl

end Restore

/-! ### The round trip -/

/-- No disk serves two purposes. -/
structure DistinctDisks (config : ArrayConfig) (p q : Path) : Prop where
  data : (config.dataDevs.map Prod.snd).Nodup
  parityP : config.parityP = some p
  parityQ : config.parityQ = some q
  p_data : ∀ d ∈ config.dataDevs, d.2 ≠ p
  q_data : ∀ d ∈ config.dataDevs, d.2 ≠ q
  parity : p ≠ q

/-- P and Q match the data at an array address. -/
structure ParityHolds (config : ArrayConfig) (arrayPhys : Nat) (p q : Path) (w : World) : Prop where
  parityP : w.block config arrayPhys p = pOf config (w.block config arrayPhys)
  parityQ : w.block config arrayPhys q = qOf config (w.block config arrayPhys)

/-- Every data disk, P and Q hold the same block at an array address. -/
structure SameArray (config : ArrayConfig) (arrayPhys : Nat) (p q : Path) (w w' : World) :
    Prop where
  data : ∀ d ∈ config.dataDevs, w'.block config arrayPhys d.2 = w.block config arrayPhys d.2
  parityP : w'.block config arrayPhys p = w.block config arrayPhys p
  parityQ : w'.block config arrayPhys q = w.block config arrayPhys q

/-- A restore finds the disk it has to write: the partner's block is not saved over the backup
itself, and no other disk before the partner differs from the partner's block. -/
structure GuessesRight (config : ArrayConfig) (devid arrayPhys : Nat) (opts : Opts)
    (backup : FilePath) (w : World) : Prop where
  alone : opts.targets ≠ .twoDisk → backup.partner = backup →
    ∀ t ∈ config.dataDevs, t.1 = devid → ∀ d ∈ config.dataDevs, d.1 ≠ devid →
      w.block config arrayPhys d.2 = w.block config arrayPhys t.2
  overwritten : opts.targets = .twoDisk → backup.partner = backup →
    ∀ t ∈ config.dataDevs, t.1 = devid → ∀ x ∈ config.dataDevs,
      chosenSlot config devid opts = some x.1 →
        w.block config arrayPhys x.2 = w.block config arrayPhys t.2
  earlier : opts.targets = .twoDisk → ∀ x ∈ config.dataDevs,
    chosenSlot config devid opts = some x.1 → ∀ d ∈ config.dataDevs, d.1 ≠ devid → d.1 < x.1 →
      w.block config arrayPhys d.2 = w.block config arrayPhys x.2

section RoundTrip
variable {crc : Bytes → UInt32} {config : ArrayConfig} {devid arrayPhys : Nat} {opts : Opts}
  {backup : FilePath} {w w' : World} {devPath p q : Path}

theorem find?_first {α : Type} {l : List (Nat × α)} (hsorted : (l.map Prod.fst).Pairwise (· < ·))
    {keep : Nat × α → Bool} {d : Nat × α} :
    l.find? keep = some d ↔ d ∈ l ∧ keep d = true ∧ ∀ e ∈ l, e.1 < d.1 → keep e = false := by
  induction l with
  | nil => simp
  | cons a l ih =>
      rw [List.map_cons, List.pairwise_cons] at hsorted
      have hlater : ∀ e ∈ l, a.1 < e.1 := fun e he =>
        hsorted.1 e.1 (List.mem_map_of_mem he)
      rw [List.find?_cons]
      cases hkeep : keep a with
      | true =>
          constructor
          · rintro ⟨⟩
            refine ⟨List.mem_cons_self, hkeep, ?_⟩
            intro e he hlt
            rcases List.mem_cons.mp he with rfl | hmem
            · exact absurd hlt (Nat.lt_irrefl _)
            · exact absurd hlt (Nat.lt_asymm (hlater e hmem))
          · rintro ⟨hmem, -, hfirst⟩
            rcases List.mem_cons.mp hmem with rfl | hmem
            · rfl
            · have hno := hfirst a List.mem_cons_self (hlater d hmem)
              rw [hkeep] at hno
              cases hno
      | false =>
          dsimp only
          rw [ih hsorted.2]
          constructor
          · rintro ⟨hmem, hd, hfirst⟩
            refine ⟨List.mem_cons_of_mem a hmem, hd, ?_⟩
            intro e he hlt
            rcases List.mem_cons.mp he with rfl | he
            · exact hkeep
            · exact hfirst e he hlt
          · rintro ⟨hmem, hd, hfirst⟩
            rcases List.mem_cons.mp hmem with rfl | hmem
            · rw [hkeep] at hd
              cases hd
            · exact ⟨hmem, hd, fun e he => hfirst e (List.mem_cons_of_mem a he)⟩

theorem pOf_congr {blocks blocks' : Path → Block}
    (h : ∀ d ∈ config.dataDevs, blocks d.2 = blocks' d.2) : pOf config blocks = pOf config blocks' := by
  apply List.foldl_ext
  intro acc d hd
  rw [h d hd]

theorem qOf_congr {blocks blocks' : Path → Block}
    (h : ∀ d ∈ config.dataDevs, blocks d.2 = blocks' d.2) : qOf config blocks = qOf config blocks' := by
  apply List.foldl_ext
  intro acc d hd
  rw [h d hd]

/-- The array is as it was exactly when its data is. -/
theorem sameArray_reparity_iff (hdisks : DistinctDisks config p q)
    (hparity : ParityHolds config arrayPhys p q w) :
    SameArray config arrayPhys p q w (reparity config arrayPhys p q w') ↔
      ∀ d ∈ config.dataDevs, w'.block config arrayPhys d.2 = w.block config arrayPhys d.2 := by
  have hdata : ∀ d ∈ config.dataDevs, (reparity config arrayPhys p q w').block config arrayPhys d.2 =
      w'.block config arrayPhys d.2 := fun d hd =>
    (block_put_other (hdisks.q_data d hd) _).trans (block_put_other (hdisks.p_data d hd) _)
  have hp : (reparity config arrayPhys p q w').block config arrayPhys p =
      pOf config (w'.block config arrayPhys) :=
    (block_put_other hdisks.parity _).trans block_put_same
  have hq : (reparity config arrayPhys p q w').block config arrayPhys q =
      qOf config (w'.block config arrayPhys) := block_put_same
  constructor
  · intro hsame d hd
    exact (hdata d hd).symm.trans (hsame.data d hd)
  · intro hsame
    refine ⟨fun d hd => (hdata d hd).trans (hsame d hd), ?_, ?_⟩
    · rw [hp, hparity.parityP]
      exact pOf_congr hsame
    · rw [hq, hparity.parityQ]
      exact qOf_congr hsame

theorem DistinctDisks.path_inj (hdisks : DistinctDisks config p q) {d e : Nat × Path}
    (hd : d ∈ config.dataDevs) (he : e ∈ config.dataDevs) (h : d.2 = e.2) : d = e :=
  List.inj_on_of_nodup_map hdisks.data hd he h

/-- The guess writes the first other disk that differs from the saved block. -/
theorem guess_eq_some_iff {v : Block} {d : Nat × Path} :
    guess config devid arrayPhys v.toList w config.dataDevs = some d ↔
      d ∈ config.dataDevs ∧ (d.1 ≠ devid ∧ w.block config arrayPhys d.2 ≠ v) ∧
        ∀ e ∈ config.dataDevs, e.1 < d.1 → e.1 ≠ devid → w.block config arrayPhys e.2 = v := by
  unfold guess
  rw [find?_first config.slots_sorted]
  simp only [Bool.and_eq_true, bne_iff_ne, ne_eq, Vector.toList_inj, Bool.and_eq_false_imp,
    bne_eq_false_iff_eq]

theorem guess_eq_none_iff {v : Block} :
    guess config devid arrayPhys v.toList w config.dataDevs = none ↔
      ∀ d ∈ config.dataDevs, d.1 ≠ devid → w.block config arrayPhys d.2 = v := by
  unfold guess
  rw [List.find?_eq_none]
  simp only [Bool.and_eq_true, bne_iff_ne, ne_eq, Vector.toList_inj, not_and, not_not]

/-- With no partner hit, a restore writes a disk only over blocks that are the saved one. -/
theorem guessRestored_alone_iff
    (hsame : ∀ d ∈ config.dataDevs, w'.block config arrayPhys d.2 = w.block config arrayPhys d.2)
    (saved : Option Block) :
    (∀ d ∈ config.dataDevs, (guessRestored config devid arrayPhys w' saved).block config arrayPhys
      d.2 = w.block config arrayPhys d.2) ↔
      ∀ v, saved = some v → ∀ d ∈ config.dataDevs, d.1 ≠ devid →
        w.block config arrayPhys d.2 = v := by
  cases saved with
  | none => exact ⟨fun _ => nofun, fun _ => hsame⟩
  | some v =>
      cases hguess : guess config devid arrayPhys v.toList w' config.dataDevs with
      | none =>
          have hall := guess_eq_none_iff.mp hguess
          simp only [guessRestored, hguess]
          constructor
          · rintro - _ ⟨⟩ d hd hother
            rw [← hsame d hd]
            exact hall d hd hother
          · intro _
            exact hsame
      | some d =>
          obtain ⟨hd, ⟨hother, hdiffers⟩, -⟩ := guess_eq_some_iff.mp hguess
          simp only [guessRestored, hguess]
          constructor
          · intro hagree
            have hwritten := hagree d hd
            rw [block_put_same] at hwritten
            exact absurd ((hsame d hd).trans hwritten.symm) hdiffers
          · intro hall
            exact absurd ((hsame d hd).trans (hall v rfl d hd hother)) hdiffers

/-- A partner is restored exactly when its own block was saved, and no disk before it differs. -/
theorem guessRestored_partner_iff (hdisks : DistinctDisks config p q) {x : Nat × Path}
    (hx : x ∈ config.dataDevs) (hother : x.1 ≠ devid)
    (hsame : ∀ d ∈ config.dataDevs, d ≠ x →
      w'.block config arrayPhys d.2 = w.block config arrayPhys d.2)
    (hhit : w'.block config arrayPhys x.2 ≠ w.block config arrayPhys x.2) (v : Block) :
    (∀ d ∈ config.dataDevs, (guessRestored config devid arrayPhys w' (some v)).block config
      arrayPhys d.2 = w.block config arrayPhys d.2) ↔
      v = w.block config arrayPhys x.2 ∧ ∀ d ∈ config.dataDevs, d.1 < x.1 → d.1 ≠ devid →
        w.block config arrayPhys d.2 = v := by
  have hearlier : ∀ d ∈ config.dataDevs, d.1 < x.1 →
      w'.block config arrayPhys d.2 = w.block config arrayPhys d.2 := by
    intro d hd hlt
    apply hsame d hd
    rintro rfl
    exact Nat.lt_irrefl _ hlt
  constructor
  · intro hagree
    cases hguess : guess config devid arrayPhys v.toList w' config.dataDevs with
    | none =>
        simp only [guessRestored, hguess] at hagree
        exact absurd (hagree x hx) hhit
    | some d =>
        obtain ⟨hd, -, hfirst⟩ := guess_eq_some_iff.mp hguess
        simp only [guessRestored, hguess] at hagree
        by_cases hdx : d = x
        · subst hdx
          have hwritten := hagree d hd
          rw [block_put_same] at hwritten
          refine ⟨hwritten, ?_⟩
          intro e he hlt hne
          rw [← hearlier e he hlt]
          exact hfirst e he hlt hne
        · have hpath : x.2 ≠ d.2 := fun h => hdx (hdisks.path_inj hx hd h).symm
          have hx' := hagree x hx
          rw [block_put_other hpath] at hx'
          exact absurd hx' hhit
  · rintro ⟨rfl, hfirst⟩
    have hguess : guess config devid arrayPhys (w.block config arrayPhys x.2).toList w'
        config.dataDevs = some x := by
      refine guess_eq_some_iff.mpr ⟨hx, ⟨hother, hhit⟩, ?_⟩
      intro e he hlt hne
      rw [hearlier e he hlt]
      exact hfirst e he hlt hne
    intro d hd
    simp only [guessRestored, hguess]
    by_cases hdx : d = x
    · rw [hdx]
      exact block_put_same
    · rw [block_put_other fun h => hdx (hdisks.path_inj hd hx h)]
      exact hsame d hd hdx

theorem CorruptedWorld.target_same {partner : Option Partner}
    (h : CorruptedWorld config devid arrayPhys opts backup w w' devPath p q partner)
    (hdisks : DistinctDisks config p q) {d : Nat × Path} (hd : d ∈ config.dataDevs)
    (hpartner : ∀ x, partner = some x → d.2 ≠ x.path) :
    (w'.put config arrayPhys devPath (w.block config arrayPhys devPath).toList).block config
      arrayPhys d.2 = w.block config arrayPhys d.2 := by
  by_cases htarget : d.2 = devPath
  · rw [htarget, block_put_same]
  · rw [block_put_other htarget]
    exact h.others d.2 htarget (hdisks.p_data d hd) (hdisks.q_data d hd) hpartner

theorem CorruptedWorld.backup_saved {partner : Option Partner}
    (h : CorruptedWorld config devid arrayPhys opts backup w w' devPath p q partner) :
    w'.files backup = some (w.block config arrayPhys devPath).toList := by
  rw [h.files]
  exact if_pos rfl

/-- The block a restore takes for the partner's. -/
def savedPartner (config : ArrayConfig) (arrayPhys : Nat) (backup : FilePath) (devPath : Path)
    (w : World) (partner : Option Partner) : Option Block :=
  if backup.partner = backup then some (w.block config arrayPhys devPath)
  else partner.map fun x => w.block config arrayPhys x.path

theorem CorruptedWorld.partner_saved {partner : Option Partner}
    (h : CorruptedWorld config devid arrayPhys opts backup w w' devPath p q partner)
    (hfresh : w.files backup.partner = none) : w'.files backup.partner =
      (savedPartner config arrayPhys backup devPath w partner).map Vector.toList := by
  rw [h.files, savedPartner]
  by_cases hself : backup.partner = backup
  · rw [if_pos hself, hself]
    exact if_pos rfl
  · rw [if_neg hself]
    have hkept : ∀ w' : World, ∀ data, (w'.save backup data).files backup.partner =
        w'.files backup.partner := fun w' data => if_neg hself
    rw [hkept]
    cases partner with
    | none => exact hfresh
    | some x => exact if_pos rfl

theorem chosenSlot_ne (hexplicit : opts.partnerSlot ≠ some devid) {slot : Nat}
    (h : chosenSlot config devid opts = some slot) : slot ≠ devid := by
  unfold chosenSlot at h
  cases hslot : opts.partnerSlot with
  | some named =>
      rw [hslot] at h hexplicit
      rintro rfl
      exact hexplicit h
  | none =>
      rw [hslot, Option.none_or] at h
      have hkeep := List.find?_some h
      exact bne_iff_ne.mp hkeep

theorem CorruptedWorld.guessesRight_iff {partner : Option Partner}
    (h : CorruptedWorld config devid arrayPhys opts backup w w' devPath p q partner)
    (hdisks : DistinctDisks config p q) (hexplicit : opts.partnerSlot ≠ some devid) :
    (∀ d ∈ config.dataDevs, (guessRestored config devid arrayPhys (w'.put config arrayPhys devPath
      (w.block config arrayPhys devPath).toList) (savedPartner config arrayPhys backup devPath w
        partner)).block config arrayPhys d.2 = w.block config arrayPhys d.2) ↔
      GuessesRight config devid arrayPhys opts backup w := by
  have hdev : (devid, devPath) ∈ config.dataDevs := ArrayConfig.dataDev_mem h.dev
  have htarget : ∀ t ∈ config.dataDevs, t.1 = devid → t = (devid, devPath) := fun t ht heq =>
    ArrayConfig.slot_inj ht hdev heq
  have hcorrupted := h.corrupted
  cases partner with
  | none =>
      have htargets : opts.targets ≠ .twoDisk := hcorrupted
      have hsame : ∀ d ∈ config.dataDevs, (w'.put config arrayPhys devPath
          (w.block config arrayPhys devPath).toList).block config arrayPhys d.2 =
            w.block config arrayPhys d.2 := fun d hd => h.target_same hdisks hd nofun
      rw [guessRestored_alone_iff hsame]
      unfold savedPartner
      constructor
      · intro hall
        refine ⟨?_, fun heq => absurd heq htargets, fun heq => absurd heq htargets⟩
        intro _ hself t ht heq d hd hother
        rw [if_pos hself] at hall
        rw [htarget t ht heq]
        exact hall _ rfl d hd hother
      · intro hright v hv d hd hother
        by_cases hself : backup.partner = backup
        · rw [if_pos hself] at hv
          obtain rfl := Option.some.inj hv
          exact hright.alone htargets hself _ hdev rfl d hd hother
        · rw [if_neg hself] at hv
          cases hv
  | some x =>
      obtain ⟨htargets, hchosen, hpath, hdiffers⟩ := hcorrupted
      have hx : (x.slot, x.path) ∈ config.dataDevs := ArrayConfig.dataDev_mem hpath
      have hother : x.slot ≠ devid := chosenSlot_ne hexplicit hchosen
      have hpartner : ∀ e ∈ config.dataDevs, chosenSlot config devid opts = some e.1 →
          e = (x.slot, x.path) := by
        intro e he heq
        exact ArrayConfig.slot_inj he hx (Option.some.inj (heq.symm.trans hchosen))
      have hsame : ∀ d ∈ config.dataDevs, d ≠ (x.slot, x.path) →
          (w'.put config arrayPhys devPath (w.block config arrayPhys devPath).toList).block config
            arrayPhys d.2 = w.block config arrayPhys d.2 := by
        intro d hd hne
        refine h.target_same hdisks hd ?_
        rintro _ ⟨⟩ heq
        exact hne (hdisks.path_inj hd hx heq)
      have hhit : (w'.put config arrayPhys devPath (w.block config arrayPhys devPath).toList).block
          config arrayPhys x.path ≠ w.block config arrayPhys x.path := by
        have hne : x.path ≠ devPath := fun heq =>
          hother (congrArg Prod.fst (hdisks.path_inj hx hdev heq))
        rw [block_put_other hne, h.hit x rfl]
        exact hdiffers
      have hiff := guessRestored_partner_iff hdisks hx hother hsame hhit
      unfold savedPartner
      by_cases hself : backup.partner = backup
      · rw [if_pos hself, hiff]
        constructor
        · rintro ⟨hsaved, hfirst⟩
          refine ⟨fun hne => absurd htargets hne, ?_, ?_⟩
          · intro _ _ t ht heq e he hslot
            rw [htarget t ht heq, hpartner e he hslot]
            exact hsaved.symm
          · intro _ e he hslot d hd hne hlt
            rw [hpartner e he hslot] at hlt ⊢
            exact (hfirst d hd hlt hne).trans hsaved
        · intro hright
          have hsaved := hright.overwritten htargets hself _ hdev rfl _ hx hchosen
          refine ⟨hsaved.symm, ?_⟩
          intro d hd hlt hne
          exact (hright.earlier htargets _ hx hchosen d hd hne hlt).trans hsaved
      · rw [if_neg hself, Option.map_some, hiff]
        constructor
        · rintro ⟨-, hfirst⟩
          refine ⟨fun hne => absurd htargets hne, fun _ heq => absurd heq hself, ?_⟩
          intro _ e he hslot d hd hne hlt
          rw [hpartner e he hslot] at hlt ⊢
          exact hfirst d hd hlt hne
        · intro hright
          refine ⟨rfl, ?_⟩
          intro d hd hlt hne
          exact hright.earlier htargets _ hx hchosen d hd hne hlt

theorem CorruptedWorld.restore {partner : Option Partner}
    (h : CorruptedWorld config devid arrayPhys opts backup w w' devPath p q partner)
    (hdisks : DistinctDisks config p q) (hparity : ParityHolds config arrayPhys p q w)
    (hfresh : w.files backup.partner = none) (hexplicit : opts.partnerSlot ≠ some devid) :
    ∃ w'', restoreCmd config devid arrayPhys backup w' = (.ok (), w'') ∧
      (SameArray config arrayPhys p q w w'' ↔
        GuessesRight config devid arrayPhys opts backup w) := by
  refine ⟨_, restoreCmd_run h.dev hdisks.parityP hdisks.parityQ h.backup_saved
    (h.partner_saved hfresh), ?_⟩
  rw [sameArray_reparity_iff hdisks hparity]
  exact h.guessesRight_iff hdisks hexplicit

/-- A restore after a corruption ends, and leaves the array as it was exactly when it finds the
disk it has to write. -/
theorem restore_corrupt_iff (hdisks : DistinctDisks config p q)
    (hparity : ParityHolds config arrayPhys p q w) (hbackup : opts.backup = some backup)
    (hfresh : w.files backup.partner = none) (hexplicit : opts.partnerSlot ≠ some devid)
    (hrun : corruptCmd crc config devid arrayPhys opts w = (.ok (), w')) :
    ∃ w'', restoreCmd config devid arrayPhys backup w' = (.ok (), w'') ∧
      (SameArray config arrayPhys p q w w'' ↔
        GuessesRight config devid arrayPhys opts backup w) := by
  obtain ⟨devPath, p', q', partner, hcorrupted⟩ := corruptCmd_spec hbackup hrun
  obtain rfl : p' = p := Option.some.inj (hcorrupted.parityP.symm.trans hdisks.parityP)
  obtain rfl : q' = q := Option.some.inj (hcorrupted.parityQ.symm.trans hdisks.parityQ)
  exact hcorrupted.restore hdisks hparity hfresh hexplicit

end RoundTrip

/-! ### A corruption that is carried out -/

section Returns
variable {crc : Bytes → UInt32} {config : ArrayConfig} {devid arrayPhys : Nat} {opts : Opts}
  {w : World}

def flipped (buf : Block) (i : Nat) (mask : UInt8) : Block :=
  if h : i < block then buf.set i (buf.get ⟨i, h⟩ ^^^ mask) else buf

theorem flipByte_run {buf : Block} {i : Nat} {mask : UInt8} (h : i < block) :
    flipByte buf i mask w = (.ok (flipped buf i mask), w) := by
  unfold flipByte flipped
  rw [dif_pos h, dif_pos h]
  rfl

theorem rejectSame_run {original corrupt : Block}
    (h : crc corrupt.toList ≠ crc original.toList) :
    rejectSame crc original corrupt w = (.ok (), w) := by
  unfold rejectSame
  rw [if_neg h]
  rfl

theorem saveTo_run (data : Block) (backup : Option FilePath) :
    ∃ w', saveTo data backup w = (.ok (), w') := by
  cases backup with
  | none => exact ⟨w, rfl⟩
  | some path => exact ⟨_, writeFile_run path data.toList⟩

theorem choosePartner_returns (htargets : opts.targets = .twoDisk) {slot : Nat} {path : Path}
    (hchosen : chosenSlot config devid opts = some slot) (hpath : config.dataDev slot = some path)
    (hcrc : crc (flipped (w.block config arrayPhys path) (wadd opts.byteOffset 1 % block)
      (opts.flip ^^^ 1)).toList ≠ crc (w.block config arrayPhys path).toList) :
    ∃ partner w', choosePartner crc config devid arrayPhys opts w = (.ok (some partner), w') := by
  obtain ⟨w', hsave⟩ := saveTo_run (w := w) (w.block config arrayPhys path)
    (opts.backup.map (·.partner))
  unfold choosePartner
  rw [if_neg (not_not.mpr htargets), hchosen,
    bind_of_ok (rfl : okOr .notFound (some slot) w = (.ok slot, w)), hpath,
    bind_of_ok (rfl : okOr .notFound (some path) w = (.ok path, w)), bind_of_ok readBlock_run,
    bind_of_ok (flipByte_run (Nat.mod_lt _ (by decide))), bind_of_ok (rejectSame_run hcrc),
    bind_of_ok hsave]
  exact ⟨_, _, rfl⟩

theorem corruptCmd_returns {devPath p q : Path} (hdev : config.dataDev devid = some devPath)
    (hp : config.parityP = some p) (hq : config.parityQ = some q) (hoffset : opts.byteOffset < block)
    (hcrc : crc (flipped (w.block config arrayPhys devPath) opts.byteOffset opts.flip).toList ≠
      crc (w.block config arrayPhys devPath).toList)
    {partner : Partner} {w₁ : World}
    (hpartner : choosePartner crc config devid arrayPhys opts w = (.ok (some partner), w₁)) :
    ∃ w', corruptCmd crc config devid arrayPhys opts w = (.ok (), w') := by
  obtain ⟨w₂, hsave⟩ := saveTo_run (w := w₁) (w.block config arrayPhys devPath) opts.backup
  obtain ⟨parity, hparity⟩ := newParity_run config devid arrayPhys w₂
    (flipped (w.block config arrayPhys devPath) opts.byteOffset opts.flip)
    (w.block config arrayPhys p) (w.block config arrayPhys q) opts.targets
  obtain ⟨w₃, hputP, -, -⟩ := putChanged_run config arrayPhys
    (w₂.put config arrayPhys devPath
      (flipped (w.block config arrayPhys devPath) opts.byteOffset opts.flip).toList) p
    (w.block config arrayPhys p) parity.1
  obtain ⟨w₄, hputQ, -, -⟩ := putChanged_run config arrayPhys w₃ q
    (w.block config arrayPhys q) parity.2
  unfold corruptCmd
  rw [hdev, hp, hq, bind_of_ok (rfl : okOr .notFound (some devPath) w = (.ok devPath, w)),
    bind_of_ok readBlock_run, bind_of_ok (rfl : okOr .notFound (some p) w = (.ok p, w)),
    bind_of_ok (rfl : okOr .notFound (some q) w = (.ok q, w)), bind_of_ok readBlock_run,
    bind_of_ok readBlock_run, bind_of_ok computeP_run, bind_of_ok computeQ_run,
    bind_of_ok (flipByte_run hoffset), bind_of_ok (rejectSame_run hcrc), bind_of_ok hpartner,
    bind_of_ok hsave, bind_of_ok hparity, bind_of_ok (putBlock_run _), bind_of_ok hputP,
    bind_of_ok hputQ]
  exact ⟨_, putBlock_run _⟩

end Returns

/-! ### Three disks, of which the one between the target and its partner differs from both -/

namespace Crafted

def config : ArrayConfig where
  dataDevs := [(1, "d1"), (2, "d2"), (3, "d3")]
  parityP := some "p"
  parityQ := some "q"
  rdevOffsets := []
  slots_sorted := by decide

def fill (path : Path) : UInt8 :=
  if path = "d2" ∨ path = "p" then 1 else if path = "q" then 2 else 0

def world : World := ⟨fun path => ⟨block, fun _ => fill path⟩, fun _ => none⟩

def backup : FilePath := ⟨"", "sector", some "backup"⟩

def opts : Opts := { targets := .twoDisk, partnerSlot := some 3, backup := some backup }

theorem world_block (path : Path) :
    world.block config 0 path = Vector.replicate block (fill path) := by
  apply Vector.ext
  intro i hi
  have hin : wadd 0 (config.rawOffsetFor path) + i < block := by
    have hzero : wadd 0 (config.rawOffsetFor path) = 0 := rfl
    omega
  simp only [World.block, blockAt, world, Disk.extended, Vector.getElem_ofFn,
    Vector.getElem_replicate]
  exact if_pos hin

theorem disks_distinct : DistinctDisks config "p" "q" :=
  ⟨by decide, rfl, rfl, by decide, by decide, by decide⟩

theorem config_dataDevs : config.dataDevs = [(1, "d1"), (2, "d2"), (3, "d3")] := rfl

theorem parity_holds : ParityHolds config 0 "p" "q" world := by
  constructor
  · apply Vector.ext
    intro i hi
    simp only [pOf, config_dataDevs, List.foldl, world_block, xorInplace, Vector.getElem_ofFn,
      Fin.getElem_fin, Vector.getElem_replicate]
    decide
  · apply Vector.ext
    intro i hi
    simp only [qOf, config_dataDevs, List.foldl, world_block, gfMulXorInplace,
      Vector.getElem_ofFn, Fin.getElem_fin, Vector.getElem_replicate]
    decide +kernel

/-- CRC-32C notices a flip of one byte. -/
theorem crc32c_flipped (buf : Block) {i : Nat} {mask : UInt8} (hi : i < block) (hmask : mask ≠ 0) :
    Btrfs.Crafted.crc32c (flipped buf i mask).toList ≠ Btrfs.Crafted.crc32c buf.toList := by
  have hlen : i < buf.toList.length := by
    rw [Vector.length_toList]
    exact hi
  have hbefore : buf.toList = buf.toList.take i ++ buf.get ⟨i, hi⟩ :: buf.toList.drop (i + 1) := by
    have hget : buf.get ⟨i, hi⟩ = buf.toList[i] := by simp [Vector.get]
    rw [hget, List.getElem_cons_drop, List.take_append_drop]
  have hafter : (flipped buf i mask).toList = buf.toList.take i ++
      (buf.get ⟨i, hi⟩ ^^^ mask) :: buf.toList.drop (i + 1) := by
    rw [flipped, dif_pos hi, Vector.toList_set, List.set_eq_take_append_cons_drop, if_pos hlen]
  have hne : buf.get ⟨i, hi⟩ ^^^ mask ≠ buf.get ⟨i, hi⟩ := by
    intro heq
    have hcancel : buf.get ⟨i, hi⟩ ^^^ (buf.get ⟨i, hi⟩ ^^^ mask) = 0 := by
      rw [heq, UInt8.xor_self]
    rw [← UInt8.xor_assoc, UInt8.xor_self, UInt8.zero_xor] at hcancel
    exact hmask hcancel
  rw [hafter]
  intro heq
  exact Btrfs.Crafted.crc32c_set_ne hne (heq.trans (congrArg Btrfs.Crafted.crc32c hbefore))

theorem corruptCmd_crafted :
    ∃ w, corruptCmd Btrfs.Crafted.crc32c config 1 0 opts world = (.ok (), w) := by
  obtain ⟨partner, w₁, hpartner⟩ : ∃ partner w₁, choosePartner Btrfs.Crafted.crc32c config 1 0 opts
      world = (.ok (some partner), w₁) := choosePartner_returns rfl rfl rfl
    (crc32c_flipped _ (Nat.mod_lt _ (by decide)) (by decide))
  exact corruptCmd_returns rfl rfl rfl (by decide)
    (crc32c_flipped _ (by decide) (by decide)) hpartner

/-- The disk between them differs from the partner's block. -/
theorem not_guessesRight : ¬ GuessesRight config 1 0 opts backup world := by
  intro hright
  have hblocks := hright.earlier rfl (3, "d3") (by decide) rfl (2, "d2") (by decide) (by decide)
    (by decide)
  rw [world_block, world_block] at hblocks
  have hbyte := congrArg (fun v : Block => v.get ⟨0, by decide⟩) hblocks
  simp [fill, Vector.get] at hbyte

/-- The restore overwrites an uninvolved disk. -/
theorem restore_crafted : ∃ w w', ParityHolds config 0 "p" "q" world ∧
    world.files backup.partner = none ∧ opts.partnerSlot ≠ some 1 ∧
      corruptCmd Btrfs.Crafted.crc32c config 1 0 opts world = (.ok (), w) ∧
        restoreCmd config 1 0 backup w = (.ok (), w') ∧
          ¬ SameArray config 0 "p" "q" world w' := by
  obtain ⟨w, hrun⟩ := corruptCmd_crafted
  obtain ⟨devPath, p, q, partner, hcorrupted⟩ := corruptCmd_spec rfl hrun
  obtain rfl : "p" = p := Option.some.inj hcorrupted.parityP
  obtain rfl : "q" = q := Option.some.inj hcorrupted.parityQ
  obtain ⟨w', hrestore, hiff⟩ := hcorrupted.restore disks_distinct parity_holds rfl (by decide)
  exact ⟨w, w', parity_holds, rfl, by decide, hrun, hrestore,
    fun hsame => not_guessesRight (hiff.mp hsame)⟩

theorem restore_corrupt_iff_crafted : ∃ w w',
    corruptCmd Btrfs.Crafted.crc32c config 1 0 opts world = (.ok (), w) ∧
      restoreCmd config 1 0 backup w = (.ok (), w') ∧
        (SameArray config 0 "p" "q" world w' ↔ GuessesRight config 1 0 opts backup world) := by
  obtain ⟨w, hrun⟩ := corruptCmd_crafted
  obtain ⟨w', hrestore, hiff⟩ := restore_corrupt_iff disks_distinct parity_holds rfl rfl
    (by decide) hrun
  exact ⟨w, w', hrun, hrestore, hiff⟩

end Crafted
end Rotshield.CraftCorrupt
