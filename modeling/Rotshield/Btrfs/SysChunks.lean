import Rotshield.Btrfs.Encode

/-! The system chunk array: parsing reads back what was encoded, and never past the buffer. -/
namespace Rotshield.Btrfs

structure SysStripe where
  stripe : Stripe
  uuid : Vector UInt8 16
  deriving DecidableEq

/-- The 48 bytes before the stripes, the ones the parser skips included. -/
structure SysHeader where
  length : UInt64
  owner : UInt64
  stripeLen : UInt64
  ty : UInt64
  ioAlign : UInt32
  ioWidth : UInt32
  sectorSize : UInt32
  numStripes : UInt16
  subStripes : UInt16
  deriving DecidableEq

/-- A chunk record on disk. -/
structure SysChunk where
  objectid : UInt64
  logical : UInt64
  header : SysHeader
  stripes : List SysStripe
  counted : header.numStripes.toNat = stripes.length
  deriving DecidableEq

def SysStripe.encode (s : SysStripe) : Bytes :=
  toLe 8 s.stripe.devid.toNat ++ (toLe 8 s.stripe.offset.toNat ++ s.uuid.toList)

def SysHeader.encode (h : SysHeader) : Bytes :=
  toLe 8 h.length.toNat ++ (toLe 8 h.owner.toNat ++ (toLe 8 h.stripeLen.toNat ++
    (toLe 8 h.ty.toNat ++ (toLe 4 h.ioAlign.toNat ++ (toLe 4 h.ioWidth.toNat ++
      (toLe 4 h.sectorSize.toNat ++ (toLe 2 h.numStripes.toNat ++ toLe 2 h.subStripes.toNat)))))))

namespace SysChunk

def key (c : SysChunk) : Key := ⟨c.objectid, KeyType.chunkItem, c.logical⟩

def item (c : SysChunk) : Bytes := c.header.encode ++ c.stripes.flatMap SysStripe.encode

def encode (c : SysChunk) : Bytes := c.key.encode ++ c.item

/-- What the parser keeps of it. -/
def record (c : SysChunk) : ChunkRecord where
  logical := c.logical
  chunk :=
    { length := c.header.length
      stripeLen := c.header.stripeLen
      ty := c.header.ty
      numStripes := c.header.numStripes
      stripes := c.stripes.map (·.stripe) }

end SysChunk

theorem SysStripe.encode_length (s : SysStripe) : s.encode.length = 32 := by
  simp [SysStripe.encode, toLe_length]

theorem SysHeader.encode_length (h : SysHeader) : h.encode.length = 48 := by
  simp [SysHeader.encode, toLe_length]

theorem stripes_length (stripes : List SysStripe) :
    (stripes.flatMap SysStripe.encode).length = stripes.length * 32 := by
  induction stripes with
  | nil => rfl
  | cons s stripes ih =>
      rw [List.flatMap_cons, List.length_append, ih, s.encode_length, List.length_cons,
        Nat.succ_mul, Nat.add_comm]

theorem SysChunk.item_length (c : SysChunk) :
    c.item.length = 48 + c.header.numStripes.toNat * 32 := by
  rw [SysChunk.item, List.length_append, c.header.encode_length, stripes_length, c.counted]

theorem SysChunk.encode_length (c : SysChunk) : c.encode.length = 17 + c.item.length := by
  rw [SysChunk.encode, List.length_append, Key.encode_length]

/-! ### Parsing what was encoded -/

section Parse
variable {buf rest : Bytes} {pos : Nat}

/-- The fields the parser reads. -/
structure SysHeader.ReadAt (h : SysHeader) (buf : Bytes) (pos : Nat) : Prop where
  length : leU64 buf pos = .ok h.length
  owner : leU64 buf (pos + 8) = .ok h.owner
  stripeLen : leU64 buf (pos + 16) = .ok h.stripeLen
  ty : leU64 buf (pos + 24) = .ok h.ty
  numStripes : leU16 buf (pos + 44) = .ok h.numStripes
  subStripes : leU16 buf (pos + 46) = .ok h.subStripes

theorem SysHeader.readAt {h : SysHeader} (hbuf : RestAt buf pos (h.encode ++ rest)) :
    h.ReadAt buf pos := by
  unfold SysHeader.encode at hbuf
  simp only [List.append_assoc] at hbuf
  have howner := hbuf.skip (toLe_length _ _)
  have hstripeLen := howner.skip (toLe_length _ _)
  have hty := hstripeLen.skip (toLe_length _ _)
  have hioAlign := hty.skip (toLe_length _ _)
  have hioWidth := hioAlign.skip (toLe_length _ _)
  have hsectorSize := hioWidth.skip (toLe_length _ _)
  have hnumStripes := hsectorSize.skip (toLe_length _ _)
  have hsubStripes := hnumStripes.skip (toLe_length _ _)
  exact ⟨leU64_of_restAt hbuf, leU64_of_restAt howner, leU64_of_restAt hstripeLen,
    leU64_of_restAt hty, leU16_of_restAt hnumStripes, leU16_of_restAt hsubStripes⟩

/-- The stripe entry that starts at a position. -/
def Stripe.parse (buf : Bytes) (base : Nat) : Exec Stripe := do
  let devid ← leU64 buf base
  let offset ← leU64 buf (base + 8)
  return { devid, offset : Stripe }

theorem Stripe.parse_encode {s : SysStripe} (h : RestAt buf pos (s.encode ++ rest)) :
    Stripe.parse buf pos = .ok s.stripe := by
  unfold SysStripe.encode at h
  rw [List.append_assoc, List.append_assoc] at h
  have hoffset := h.skip (toLe_length _ _)
  unfold Stripe.parse
  rw [leU64_of_restAt h, leU64_of_restAt hoffset]
  rfl

theorem ChunkItem.parse_item (c : SysChunk) : ChunkItem.parse c.item = .ok c.record.chunk := by
  have hheader : RestAt c.item 0 (c.header.encode ++ _) := .zero c.item
  have hstripes : RestAt c.item (48 + 0 * 32) (c.stripes.flatMap SysStripe.encode ++ []) := by
    rw [List.append_nil]
    have hskip := hheader.skip c.header.encode_length
    rwa [Nat.zero_add] at hskip
  have htable := mapM_parse_table SysStripe.encode_length
    (fun _ _ _ => Stripe.parse_encode) c.stripes hstripes
  rw [← List.range_eq_range', ← c.counted] at htable
  have hread := SysHeader.readAt hheader
  have hlength := hread.length
  have howner := hread.owner
  have hstripeLen := hread.stripeLen
  have hty := hread.ty
  have hnumStripes := hread.numStripes
  have hsubStripes := hread.subStripes
  simp only [Nat.zero_add] at howner hstripeLen hty hnumStripes hsubStripes
  have hparse : (fun i => Stripe.parse c.item (48 + i * 32)) = fun i => do
      let base := 48 + i * 32
      let devid ← leU64 c.item base
      let offset ← leU64 c.item (base + 8)
      return { devid, offset : Stripe } := rfl
  rw [hparse] at htable
  unfold ChunkItem.parse
  rw [hlength, howner, hstripeLen, hty, hnumStripes, hsubStripes]
  simp only [bind, Except.bind] at htable ⊢
  rw [htable]
  rfl

/-- A complete record is appended, and the loop goes on behind it. -/
theorem parseSysChunksLoop_record {c : SysChunk} (h : RestAt buf pos (c.encode ++ rest)) (fuel : Nat)
    (out : List ChunkRecord) :
    parseSysChunksLoop buf (fuel + 1) pos out =
      parseSysChunksLoop buf fuel (pos + c.encode.length) (out ++ [c.record]) := by
  have hinside : pos + c.encode.length ≤ buf.length := by
    obtain ⟨pre, rfl, rfl⟩ := h
    simp only [List.length_append]
    omega
  rw [c.encode_length, c.item_length] at hinside
  have hkey : Key.parse buf pos = .ok c.key := by
    unfold SysChunk.encode at h
    rw [List.append_assoc] at h
    exact Key.parse_encode h
  have hitem : RestAt buf (pos + 17) (c.item ++ rest) := by
    unfold SysChunk.encode at h
    rw [List.append_assoc] at h
    exact h.skip c.key.encode_length
  have hcount : leU16 buf (pos + 17 + 44) = .ok c.header.numStripes := by
    unfold SysChunk.item at hitem
    rw [List.append_assoc] at hitem
    exact (SysHeader.readAt hitem).numStripes
  have hslice := slice_of_restAt hitem c.item_length
  rw [parseSysChunksLoop, if_neg (by omega), hkey]
  simp only [bind, Except.bind]
  rw [if_neg (by exact fun hne => hne rfl), hcount]
  dsimp only
  rw [if_neg (by omega), hslice]
  dsimp only
  rw [ChunkItem.parse_item, c.encode_length, c.item_length, Nat.add_assoc pos 17]
  rfl

end Parse

/-! ### What any buffer starts with -/

theorem exists_key {buf : Bytes} (h : 17 ≤ buf.length) :
    ∃ (k : Key) (rest : Bytes), buf = k.encode ++ rest ∧ buf.length = 17 + rest.length := by
  obtain ⟨objectid, rest, rfl, hrest⟩ := exists_u64 (by omega : 8 ≤ buf.length)
  obtain ⟨ty, rest, rfl⟩ := List.exists_cons_of_length_pos (by omega : 0 < rest.length)
  rw [List.length_cons] at hrest
  obtain ⟨offset, rest, rfl, hrest'⟩ := exists_u64 (by omega : 8 ≤ rest.length)
  refine ⟨⟨objectid, ty, offset⟩, rest, ?_, by omega⟩
  simp [Key.encode]

theorem exists_sysHeader {buf : Bytes} (h : 48 ≤ buf.length) :
    ∃ (hd : SysHeader) (rest : Bytes), buf = hd.encode ++ rest ∧ buf.length = 48 + rest.length := by
  obtain ⟨length, b₁, h₁, hlen₁⟩ := exists_u64 (by omega : 8 ≤ buf.length)
  obtain ⟨owner, b₂, h₂, hlen₂⟩ := exists_u64 (by omega : 8 ≤ b₁.length)
  obtain ⟨stripeLen, b₃, h₃, hlen₃⟩ := exists_u64 (by omega : 8 ≤ b₂.length)
  obtain ⟨ty, b₄, h₄, hlen₄⟩ := exists_u64 (by omega : 8 ≤ b₃.length)
  obtain ⟨ioAlign, b₅, h₅, hlen₅⟩ := exists_u32 (by omega : 4 ≤ b₄.length)
  obtain ⟨ioWidth, b₆, h₆, hlen₆⟩ := exists_u32 (by omega : 4 ≤ b₅.length)
  obtain ⟨sectorSize, b₇, h₇, hlen₇⟩ := exists_u32 (by omega : 4 ≤ b₆.length)
  obtain ⟨numStripes, b₈, h₈, hlen₈⟩ := exists_u16 (by omega : 2 ≤ b₇.length)
  obtain ⟨subStripes, b₉, h₉, hlen₉⟩ := exists_u16 (by omega : 2 ≤ b₈.length)
  refine ⟨⟨length, owner, stripeLen, ty, ioAlign, ioWidth, sectorSize, numStripes, subStripes⟩,
    b₉, ?_, by omega⟩
  simp only [SysHeader.encode, List.append_assoc]
  rw [h₁, h₂, h₃, h₄, h₅, h₆, h₇, h₈, h₉]

theorem exists_sysStripe {buf : Bytes} (h : 32 ≤ buf.length) :
    ∃ (s : SysStripe) (rest : Bytes), buf = s.encode ++ rest ∧ buf.length = 32 + rest.length := by
  obtain ⟨devid, b₁, h₁, hlen₁⟩ := exists_u64 (by omega : 8 ≤ buf.length)
  obtain ⟨offset, b₂, h₂, hlen₂⟩ := exists_u64 (by omega : 8 ≤ b₁.length)
  have huuid : (b₂.take 16).length = 16 := List.length_take_of_le (by omega)
  refine ⟨⟨⟨devid, offset⟩, ⟨(b₂.take 16).toArray, by simpa using huuid⟩⟩, b₂.drop 16, ?_, ?_⟩
  · simp only [SysStripe.encode, List.append_assoc]
    rw [h₁, h₂]
    simp
  · rw [List.length_drop]
    omega

theorem exists_stripes (n : Nat) {buf : Bytes} (h : n * 32 ≤ buf.length) :
    ∃ (stripes : List SysStripe) (rest : Bytes), stripes.length = n ∧
      buf = stripes.flatMap SysStripe.encode ++ rest := by
  induction n generalizing buf with
  | zero => exact ⟨[], buf, rfl, rfl⟩
  | succ n ih =>
      obtain ⟨s, rest, rfl, hlen⟩ := exists_sysStripe (by omega : 32 ≤ buf.length)
      obtain ⟨stripes, rest, hcount, rfl⟩ := ih (by omega : n * 32 ≤ rest.length)
      exact ⟨s :: stripes, rest, by rw [List.length_cons, hcount], by simp⟩

/-- No complete record comes next. -/
def NoRecord (rest : Bytes) : Prop := ∀ (c : SysChunk) (tail : Bytes), rest ≠ c.encode ++ tail

/-- Without a complete record, the loop is over. -/
theorem parseSysChunksLoop_end {buf rest : Bytes} {pos : Nat} (h : RestAt buf pos rest)
    (hnone : NoRecord rest) (fuel : Nat) (out : List ChunkRecord) :
    parseSysChunksLoop buf (fuel + 1) pos out = .ok out := by
  have hlen : buf.length = pos + rest.length := by
    obtain ⟨pre, rfl, rfl⟩ := h
    exact List.length_append
  rw [parseSysChunksLoop]
  by_cases hshort : buf.length < pos + 17 + 48
  · rw [if_pos hshort]
  · rw [if_neg hshort]
    obtain ⟨k, rest₁, rfl, hrest₁⟩ := exists_key (by omega : 17 ≤ rest.length)
    obtain ⟨hd, rest₂, rfl, hrest₂⟩ := exists_sysHeader (by omega : 48 ≤ rest₁.length)
    have hheader := h.skip k.encode_length
    rw [Key.parse_encode h]
    simp only [bind, Except.bind]
    by_cases hty : k.ty ≠ KeyType.chunkItem
    · rw [if_pos hty]
      rfl
    · rw [if_neg hty, (SysHeader.readAt hheader).numStripes]
      dsimp only
      by_cases hfits : hd.numStripes.toNat * 32 ≤ rest₂.length
      · -- A record would be complete.
        obtain ⟨stripes, tail, hcount, rfl⟩ := exists_stripes _ hfits
        have hkey : k = ⟨k.objectid, KeyType.chunkItem, k.offset⟩ := by
          rw [← not_not.mp hty]
        refine absurd ?_ (hnone ⟨k.objectid, k.offset, hd, stripes, hcount.symm⟩ tail)
        rw [SysChunk.encode, SysChunk.key, ← hkey, SysChunk.item, List.append_assoc,
          List.append_assoc]
      · rw [if_pos (by omega)]
        rfl

/-! ### The whole array -/

def encodeAll (cs : List SysChunk) : Bytes := cs.flatMap SysChunk.encode

theorem parseSysChunksLoop_all (cs : List SysChunk) {buf rest : Bytes} {pos fuel : Nat}
    (h : RestAt buf pos (encodeAll cs ++ rest)) (hnone : NoRecord rest) (hfuel : cs.length < fuel)
    (out : List ChunkRecord) :
    parseSysChunksLoop buf fuel pos out = .ok (out ++ cs.map SysChunk.record) := by
  induction cs generalizing pos fuel out with
  | nil =>
      obtain ⟨fuel, rfl⟩ := Nat.exists_eq_add_of_lt hfuel
      rw [List.map_nil, List.append_nil]
      exact parseSysChunksLoop_end h hnone _ out
  | cons c cs ih =>
      obtain ⟨fuel, rfl⟩ : ∃ n, fuel = n + 1 := ⟨fuel - 1, by omega⟩
      rw [encodeAll, List.flatMap_cons, List.append_assoc] at h
      rw [parseSysChunksLoop_record h, ih (h.skip rfl) (by simpa using hfuel), List.map_cons,
        List.append_assoc, List.singleton_append]

/-- Any bytes are complete records and then something that does not start with one. -/
theorem exists_encodeAll (buf : Bytes) :
    ∃ (cs : List SysChunk) (rest : Bytes), buf = encodeAll cs ++ rest ∧ NoRecord rest := by
  induction hlen : buf.length using Nat.strongRecOn generalizing buf with
  | ind n ih =>
      by_cases hnone : NoRecord buf
      · exact ⟨[], buf, rfl, hnone⟩
      · unfold NoRecord at hnone
        push Not at hnone
        obtain ⟨c, tail, rfl⟩ := hnone
        have hshorter : tail.length < n := by
          rw [← hlen, List.length_append, c.encode_length]
          omega
        obtain ⟨cs, rest, rfl, hrest⟩ := ih _ hshorter tail rfl
        exact ⟨c :: cs, rest, by simp [encodeAll], hrest⟩

theorem encodeAll_length_le (cs : List SysChunk) : cs.length ≤ (encodeAll cs).length := by
  induction cs with
  | nil => exact Nat.zero_le _
  | cons c cs ih =>
      rw [encodeAll, List.flatMap_cons, List.length_append, c.encode_length, List.length_cons]
      have hrest : cs.length ≤ (cs.flatMap SysChunk.encode).length := ih
      omega

/-! ### An encoding can be read in one way only -/

section Unique
variable {x y : Bytes}

theorem toLe_append_inj {n a b : Nat} (ha : a < 256 ^ n) (hb : b < 256 ^ n) :
    toLe n a ++ x = toLe n b ++ y ↔ a = b ∧ x = y := by
  constructor
  · intro h
    obtain ⟨hbytes, hrest⟩ := List.append_inj h (by rw [toLe_length, toLe_length])
    have hnat := congrArg leNat hbytes
    rw [leNat_toLe, leNat_toLe, Nat.mod_eq_of_lt ha, Nat.mod_eq_of_lt hb] at hnat
    exact ⟨hnat, hrest⟩
  · rintro ⟨rfl, rfl⟩
    rfl

theorem toLe_u64_inj {a b : UInt64} :
    toLe 8 a.toNat ++ x = toLe 8 b.toNat ++ y ↔ a = b ∧ x = y := by
  rw [toLe_append_inj a.toNat_lt b.toNat_lt, UInt64.toNat_inj]

theorem toLe_u32_inj {a b : UInt32} :
    toLe 4 a.toNat ++ x = toLe 4 b.toNat ++ y ↔ a = b ∧ x = y := by
  rw [toLe_append_inj a.toNat_lt b.toNat_lt, UInt32.toNat_inj]

theorem toLe_u16_inj {a b : UInt16} :
    toLe 2 a.toNat ++ x = toLe 2 b.toNat ++ y ↔ a = b ∧ x = y := by
  rw [toLe_append_inj a.toNat_lt b.toNat_lt, UInt16.toNat_inj]

theorem SysStripe.encode_inj {s s' : SysStripe} (h : s.encode ++ x = s'.encode ++ y) :
    s = s' ∧ x = y := by
  simp only [SysStripe.encode, List.append_assoc, toLe_u64_inj] at h
  obtain ⟨hdevid, hoffset, h⟩ := h
  obtain ⟨huuid, hrest⟩ := List.append_inj h (by simp)
  obtain ⟨⟨devid, offset⟩, uuid⟩ := s
  obtain ⟨⟨devid', offset'⟩, uuid'⟩ := s'
  dsimp only at hdevid hoffset huuid
  subst hdevid hoffset
  obtain rfl := Vector.toList_inj.mp huuid
  exact ⟨rfl, hrest⟩

theorem SysHeader.encode_inj {h h' : SysHeader} (heq : h.encode ++ x = h'.encode ++ y) :
    h = h' ∧ x = y := by
  simp only [SysHeader.encode, List.append_assoc, toLe_u64_inj, toLe_u32_inj, toLe_u16_inj] at heq
  obtain ⟨h₁, h₂, h₃, h₄, h₅, h₆, h₇, h₈, h₉, hrest⟩ := heq
  cases h
  cases h'
  dsimp only at h₁ h₂ h₃ h₄ h₅ h₆ h₇ h₈ h₉
  subst h₁ h₂ h₃ h₄ h₅ h₆ h₇ h₈ h₉
  exact ⟨rfl, hrest⟩

theorem stripes_encode_inj {ss ss' : List SysStripe} (hlen : ss.length = ss'.length)
    (h : ss.flatMap SysStripe.encode ++ x = ss'.flatMap SysStripe.encode ++ y) :
    ss = ss' ∧ x = y := by
  induction ss generalizing ss' with
  | nil =>
      obtain rfl := List.length_eq_zero_iff.mp hlen.symm
      exact ⟨rfl, h⟩
  | cons s ss ih =>
      cases ss' with
      | nil => cases hlen
      | cons s' ss' =>
          rw [List.flatMap_cons, List.flatMap_cons, List.append_assoc, List.append_assoc] at h
          obtain ⟨rfl, hstripes⟩ := SysStripe.encode_inj h
          obtain ⟨rfl, hrest⟩ := ih (Nat.succ.inj hlen) hstripes
          exact ⟨rfl, hrest⟩

theorem SysChunk.encode_inj {c c' : SysChunk} (h : c.encode ++ x = c'.encode ++ y) :
    c = c' ∧ x = y := by
  obtain ⟨objectid, logical, header, stripes, counted⟩ := c
  obtain ⟨objectid', logical', header', stripes', counted'⟩ := c'
  simp only [encode, item, key, Key.encode, List.append_assoc, List.cons_append, toLe_u64_inj,
    List.cons.injEq, true_and] at h
  obtain ⟨rfl, rfl, hitem⟩ := h
  obtain ⟨rfl, hstripes⟩ := SysHeader.encode_inj hitem
  obtain ⟨rfl, hrest⟩ := stripes_encode_inj (counted.symm.trans counted') hstripes
  exact ⟨rfl, hrest⟩

/-- No complete records in front reach further than all that can be read. -/
theorem encodeAll_longest {cs cs' : List SysChunk} {rest rest' : Bytes} (hnone : NoRecord rest)
    (h : encodeAll cs ++ rest = encodeAll cs' ++ rest') : cs' <+: cs := by
  induction cs' generalizing cs with
  | nil => exact List.nil_prefix
  | cons c' cs' ih =>
      rw [encodeAll, encodeAll, List.flatMap_cons, List.append_assoc] at h
      cases cs with
      | nil => exact absurd h (hnone c' _)
      | cons c cs =>
          rw [List.flatMap_cons, List.append_assoc] at h
          obtain ⟨rfl, hrest⟩ := SysChunk.encode_inj h
          exact List.cons_prefix_cons.mpr ⟨rfl, ih hrest⟩

end Unique

/-- The parser reads back every array, and of any bytes the longest prefix of complete records. -/
theorem parseSysChunks_exact :
    (∀ cs, parseSysChunks (encodeAll cs) = .ok (cs.map SysChunk.record)) ∧
    ∀ buf, ∃ cs rest, buf = encodeAll cs ++ rest ∧
      (∀ cs' rest', buf = encodeAll cs' ++ rest' → cs' <+: cs) ∧
      parseSysChunks buf = .ok (cs.map SysChunk.record) := by
  have hparse : ∀ cs rest, NoRecord rest →
      parseSysChunks (encodeAll cs ++ rest) = .ok (cs.map SysChunk.record) := by
    intro cs rest hnone
    have hle := encodeAll_length_le cs
    unfold parseSysChunks
    rw [parseSysChunksLoop_all cs (.zero _) hnone (by rw [List.length_append]; omega)]
    rfl
  constructor
  · intro cs
    have hend : NoRecord [] := by
      intro c tail h
      have hlen := congrArg List.length h
      rw [List.length_append, c.encode_length, List.length_nil] at hlen
      omega
    have hall := hparse cs [] hend
    rwa [List.append_nil] at hall
  · intro buf
    obtain ⟨cs, rest, rfl, hnone⟩ := exists_encodeAll buf
    exact ⟨cs, rest, rfl, fun cs' rest' h => encodeAll_longest hnone h, hparse cs rest hnone⟩

end Rotshield.Btrfs
