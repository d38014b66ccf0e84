import Rotshield.Btrfs.ScrubCount

/-! The reads of a run, and the sectors they give. -/
namespace Rotshield.Btrfs
open MonadAttach (CanReturn)

variable {σ : Type}

/-- What is at an offset of the file. -/
def Device.bytesAt (device : Device σ) (offset : UInt64) (n : Nat) : Bytes :=
  (List.range n).map fun i => device.byte (offset.toNat + i)

def Device.read (device : Device σ) (offset : UInt64) (n : Nat) : StateM σ (Except IoError Bytes) := do
  return readBytes device.byte (← device.fault offset n) offset n

/-- The reads of a run at offsets of the file: only the reader of the inline scrub checks the
device. -/
def Device.runRead (device : Device σ) (config : ReaderConfig) (threaded : Bool) (devid : UInt64)
    (offset : UInt64) (n : Nat) : StateM σ (Except IoError Bytes) :=
  if threaded || config.devid.all (· == devid) then device.read offset n
  else pure (.error .invalidInput)

theorem Device.read_ok {device : Device σ} {offset : UInt64} {n : Nat} {s s' : σ} {buf : Bytes}
    (h : device.read offset n s = (.ok buf, s')) : buf = device.bytesAt offset n := by
  obtain ⟨hbuf, -⟩ := Prod.mk.inj h
  unfold readBytes at hbuf
  split at hbuf
  · cases hbuf
  · cases hbuf
    rfl

theorem Device.runRead_ok {device : Device σ} {config : ReaderConfig} {threaded : Bool}
    {devid offset : UInt64} {n : Nat} {s s' : σ} {buf : Bytes}
    (h : device.runRead config threaded devid offset n s = (.ok buf, s')) :
    buf = device.bytesAt offset n := by
  unfold Device.runRead at h
  split at h
  · exact read_ok h
  · cases h

theorem Device.bytesAt_length (device : Device σ) (offset : UInt64) (n : Nat) :
    (device.bytesAt offset n).length = n := by
  rw [Device.bytesAt, List.length_map, List.length_range]

theorem Device.runRead_length (device : Device σ) (config : ReaderConfig) (threaded : Bool)
    (devid offset : UInt64) (n : Nat) (s : σ) (buf : Bytes) (s' : σ)
    (h : device.runRead config threaded devid offset n s = (.ok buf, s')) : buf.length = n := by
  rw [Device.runRead_ok h, Device.bytesAt_length]

/-- A part of what is at an offset. -/
theorem Device.bytesAt_slice (device : Device σ) {offset : UInt64} {len off n : Nat}
    (hinside : off + n ≤ len) (hfits : offset.toNat + len < 2 ^ 64) :
    ((device.bytesAt offset len).drop off).take n = device.bytesAt (offset + .ofNat off) n := by
  have haddr : (offset + UInt64.ofNat off).toNat = offset.toNat + off := by
    rw [UInt64.toNat_add, UInt64.toNat_ofNat', Nat.mod_eq_of_lt (by omega),
      Nat.mod_eq_of_lt (by omega)]
  unfold Device.bytesAt
  rw [haddr]
  apply List.ext_getElem
  · simp only [List.length_take, List.length_drop, List.length_map, List.length_range]
    omega
  · intro i _ _
    simp [Nat.add_assoc]

section Isolated
variable {read : UInt64 → Nat → StateM σ (Except IoError Bytes)} {sz n : Nat} {base : UInt64}
  {acc iso : Isolation} {log : List ReadCall}

/-- A successful read had these bytes. -/
def WasRead (log : List ReadCall) (offset : UInt64) (n : Nat) : Prop :=
  ∃ call ∈ log, call.failed = false ∧
    ∃ off, call.phys + UInt64.ofNat off = offset ∧ off + n ≤ call.len

theorem Isolated.partitions (h : Isolated read sz base 0 n acc iso iso.good iso.bad log)
    (hfits : base.toNat + n * sz < 2 ^ 64) {device : Device σ}
    (hread : ∀ offset n s buf s', read offset n s = (.ok buf, s') → buf = device.bytesAt offset n) :
    Partitions sz n (fun x => device.bytesAt (base + .ofNat x) sz) iso where
  covers := h.covers
  aligned r hr := ⟨(h.regions r hr).1, (h.regions r hr).2.1⟩
  inside r hr := by
    have hinside := (h.inside r hr).2
    rwa [Nat.zero_add] at hinside
  bytes r hr i hi := by
    obtain ⟨-, hwhole, hcall⟩ := h.regions r hr
    obtain ⟨-, hinside⟩ := h.inside r hr
    obtain ⟨s, s', hgot⟩ := h.genuine _ hcall
    have hsector : i * sz + sz ≤ r.2.length := by
      have hmul := Nat.mul_le_mul_right sz hi
      rwa [Nat.succ_mul, Nat.div_mul_cancel hwhole] at hmul
    have haddr : (base + UInt64.ofNat r.1).toNat = base.toNat + r.1 := by
      rw [UInt64.toNat_add, UInt64.toNat_ofNat', Nat.mod_eq_of_lt (by omega),
        Nat.mod_eq_of_lt (by omega)]
    conv_lhs => rw [hread _ _ _ _ _ hgot]
    rw [Device.bytesAt_slice device hsector (by rw [haddr]; omega), UInt64.add_assoc,
      ← UInt64.ofNat_add]

/-- Exactly the sectors that are not bad were read. -/
theorem Isolated.wasRead_iff (h : Isolated read sz base 0 n acc iso iso.good iso.bad log)
    (hsize : 0 < sz) (hfits : n * sz < 2 ^ 64) {i : Nat} (hi : i < n) :
    WasRead log (base + .ofNat (i * sz)) sz ↔ i * sz ∉ iso.bad := by
  have hsector : i * sz + sz ≤ n * sz := by
    rw [← Nat.succ_mul]
    exact Nat.mul_le_mul_right sz hi
  have hnodup := h.covers.nodup_iff.mpr (sectorOffsets_nodup hsize 0 n)
  constructor
  · rintro ⟨call, hcall, hok, off, hoff, hlen⟩
    cases hresult : call.result with
    | error e => simp [ReadCall.failed, hresult, Except.isOk, Except.toBool] at hok
    | ok buf =>
        obtain ⟨r, hr, rfl⟩ := h.delivered call hcall buf hresult
        obtain ⟨⟨a, ha⟩, ⟨k, hk⟩, -⟩ := h.regions r hr
        obtain ⟨-, hinside⟩ := h.inside r hr
        dsimp only at hoff hlen
        -- The call had the bytes at the offset of this sector in the run.
        have hat : r.1 + off = i * sz := by
          rw [UInt64.add_assoc, ← UInt64.ofNat_add, UInt64.add_right_inj] at hoff
          have hnat := congrArg UInt64.toNat hoff
          rwa [UInt64.toNat_ofNat', UInt64.toNat_ofNat', Nat.mod_eq_of_lt (by omega),
            Nat.mod_eq_of_lt (by omega)] at hnat
        have hle : a ≤ i := by
          apply Nat.le_of_mul_le_mul_right _ hsize
          rw [Nat.mul_comm a]
          omega
        have hlt : i < a + k := by
          apply Nat.lt_of_mul_lt_mul_right (a := sz)
          rw [Nat.add_mul, Nat.mul_comm a, Nat.mul_comm k]
          omega
        intro hbad
        refine (List.nodup_append.mp hnodup).2.2 (i * sz) ?_ (i * sz) hbad rfl
        refine List.mem_flatMap.mpr ⟨r, hr, mem_sectorOffsets.mpr ⟨i - a, ?_, ?_⟩⟩
        · rw [hk, Nat.mul_div_cancel_left k hsize]
          omega
        · rw [ha, Nat.mul_comm sz a, ← Nat.add_mul, Nat.add_sub_cancel' hle]
  · intro hgood
    have hin := h.covers.symm.subset (mem_sectorOffsets.mpr ⟨i, hi, (Nat.zero_add _).symm⟩)
    rcases List.mem_append.mp hin with hin | hin
    · obtain ⟨r, hr, hx⟩ := List.mem_flatMap.mp hin
      obtain ⟨-, hwhole, hcall⟩ := h.regions r hr
      obtain ⟨j, hj, hat⟩ := mem_sectorOffsets.mp hx
      refine ⟨_, hcall, rfl, j * sz, ?_, ?_⟩
      · rw [UInt64.add_assoc, ← UInt64.ofNat_add, ← hat]
      · have hmul := Nat.mul_le_mul_right sz hj
        rwa [Nat.succ_mul, Nat.div_mul_cancel hwhole] at hmul
    · exact absurd hin hgood

end Isolated
end Rotshield.Btrfs
