import Rotshield.Btrfs.Reader

/-! Encoders for nodes, and that parsing reads back what they write. -/
namespace Rotshield.Btrfs

theorem toLe_length (n v : Nat) : (toLe n v).length = n := by
  induction n generalizing v with
  | zero => rfl
  | succ n ih => rw [toLe, List.length_cons, ih]

theorem leNat_toLe (n v : Nat) : leNat (toLe n v) = v % 256 ^ n := by
  induction n generalizing v with
  | zero => rw [toLe, leNat, Nat.pow_zero, Nat.mod_one]
  | succ n ih =>
      rw [toLe, leNat, ih, Nat.pow_succ', Nat.mod_mul, UInt8.toNat_ofNat']

theorem toLe_leNat (part : Bytes) : toLe part.length (leNat part) = part := by
  induction part with
  | nil => rfl
  | cons b part ih =>
      have hb := b.toNat_lt
      have hlow : UInt8.ofNat (b.toNat + 256 * leNat part) = b := by
        apply UInt8.toNat_inj.mp
        rw [UInt8.toNat_ofNat', Nat.add_mul_mod_self_left, Nat.mod_eq_of_lt hb]
      have hhigh : (b.toNat + 256 * leNat part) / 256 = leNat part := by omega
      rw [List.length_cons, leNat, toLe, hlow, hhigh, ih]

theorem leNat_lt (part : Bytes) : leNat part < 256 ^ part.length := by
  induction part with
  | nil => exact Nat.one_pos
  | cons b part ih =>
      have hb := b.toNat_lt
      rw [leNat, List.length_cons, Nat.pow_succ]
      omega

/-- Bytes are always the encoding of some number. -/
theorem exists_toLe {n : Nat} {buf : Bytes} (h : n ≤ buf.length) :
    ∃ v < 256 ^ n, ∃ rest, buf = toLe n v ++ rest ∧ buf.length = n + rest.length := by
  have hlen : (buf.take n).length = n := List.length_take_of_le h
  refine ⟨leNat (buf.take n), ?_, buf.drop n, ?_, ?_⟩
  · have hlt := leNat_lt (buf.take n)
    rwa [hlen] at hlt
  · have hbytes := toLe_leNat (buf.take n)
    rw [hlen] at hbytes
    rw [hbytes, List.take_append_drop]
  · rw [List.length_drop]
    omega

section Exists
variable {buf : Bytes}

theorem exists_u64 (h : 8 ≤ buf.length) :
    ∃ (v : UInt64) (rest : Bytes), buf = toLe 8 v.toNat ++ rest ∧ buf.length = 8 + rest.length := by
  obtain ⟨v, hv, rest, hbuf⟩ := exists_toLe h
  have hmod : v % 2 ^ 64 = v := Nat.mod_eq_of_lt hv
  refine ⟨UInt64.ofNat v, rest, ?_⟩
  rwa [UInt64.toNat_ofNat', hmod]

theorem exists_u32 (h : 4 ≤ buf.length) :
    ∃ (v : UInt32) (rest : Bytes), buf = toLe 4 v.toNat ++ rest ∧ buf.length = 4 + rest.length := by
  obtain ⟨v, hv, rest, hbuf⟩ := exists_toLe h
  have hmod : v % 2 ^ 32 = v := Nat.mod_eq_of_lt hv
  refine ⟨UInt32.ofNat v, rest, ?_⟩
  rwa [UInt32.toNat_ofNat', hmod]

theorem exists_u16 (h : 2 ≤ buf.length) :
    ∃ (v : UInt16) (rest : Bytes), buf = toLe 2 v.toNat ++ rest ∧ buf.length = 2 + rest.length := by
  obtain ⟨v, hv, rest, hbuf⟩ := exists_toLe h
  have hmod : v % 2 ^ 16 = v := Nat.mod_eq_of_lt hv
  refine ⟨UInt16.ofNat v, rest, ?_⟩
  rwa [UInt16.toNat_ofNat', hmod]

end Exists

/-- What stands in a buffer from a position on. -/
def RestAt (buf : Bytes) (pos : Nat) (rest : Bytes) : Prop :=
  ∃ pre, buf = pre ++ rest ∧ pre.length = pos

section Rest
variable {buf rest part : Bytes} {pos n : Nat}

theorem RestAt.zero (buf : Bytes) : RestAt buf 0 buf := ⟨[], rfl, rfl⟩

theorem RestAt.append (pre : Bytes) : RestAt (pre ++ rest) pre.length rest := ⟨pre, rfl, rfl⟩

/-- Past a part of known length. -/
theorem RestAt.skip (h : RestAt buf pos (part ++ rest)) (hlen : part.length = n) :
    RestAt buf (pos + n) rest := by
  obtain ⟨pre, rfl, rfl⟩ := h
  refine ⟨pre ++ part, ?_, ?_⟩
  · rw [List.append_assoc]
  · rw [List.length_append, hlen]

theorem RestAt.skip_byte {b : UInt8} (h : RestAt buf pos (b :: rest)) : RestAt buf (pos + 1) rest := by
  obtain ⟨pre, rfl, rfl⟩ := h
  exact ⟨pre ++ [b], by rw [List.append_cons], List.length_append⟩

theorem slice_of_restAt (h : RestAt buf pos (part ++ rest)) (hlen : part.length = n) :
    slice buf pos n = .ok part := by
  obtain ⟨pre, rfl, rfl⟩ := h
  unfold slice
  rw [if_pos (by simp only [List.length_append]; omega), List.drop_left, ← hlen, List.take_left]

theorem byteAt_of_restAt {b : UInt8} (h : RestAt buf pos (b :: rest)) : byteAt buf pos = .ok b := by
  have hslice := (slice_of_restAt h rfl : slice buf pos 1 = .ok [b])
  unfold byteAt
  rw [hslice]
  simp [bind, Except.bind, pure, Except.pure, leNat]

theorem leU16_of_restAt {v : UInt16} (h : RestAt buf pos (toLe 2 v.toNat ++ rest)) :
    leU16 buf pos = .ok v := by
  have hv : leNat (toLe 2 v.toNat) = v.toNat := by
    rw [leNat_toLe]
    exact Nat.mod_eq_of_lt v.toNat_lt
  unfold leU16
  rw [slice_of_restAt h (toLe_length _ _)]
  simp only [bind, Except.bind, pure, Except.pure, hv, UInt16.ofNat_toNat]

theorem leU32_of_restAt {v : UInt32} (h : RestAt buf pos (toLe 4 v.toNat ++ rest)) :
    leU32 buf pos = .ok v := by
  have hv : leNat (toLe 4 v.toNat) = v.toNat := by
    rw [leNat_toLe]
    exact Nat.mod_eq_of_lt v.toNat_lt
  unfold leU32
  rw [slice_of_restAt h (toLe_length _ _)]
  simp only [bind, Except.bind, pure, Except.pure, hv, UInt32.ofNat_toNat]

theorem leU64_of_restAt {v : UInt64} (h : RestAt buf pos (toLe 8 v.toNat ++ rest)) :
    leU64 buf pos = .ok v := by
  have hv : leNat (toLe 8 v.toNat) = v.toNat := by
    rw [leNat_toLe]
    exact Nat.mod_eq_of_lt v.toNat_lt
  unfold leU64
  rw [slice_of_restAt h (toLe_length _ _)]
  simp only [bind, Except.bind, pure, Except.pure, hv, UInt64.ofNat_toNat]

end Rest

def Key.encode (k : Key) : Bytes :=
  toLe 8 k.objectid.toNat ++ (k.ty :: toLe 8 k.offset.toNat)

def KeyPtr.encode (p : KeyPtr) : Bytes :=
  p.key.encode ++ (toLe 8 p.blockptr.toNat ++ toLe 8 p.generation.toNat)

def LeafItemSlot.encode (s : LeafItemSlot) : Bytes :=
  s.key.encode ++ (toLe 4 s.dataOffset.toNat ++ toLe 4 s.dataSize.toNat)

/-- The header after the checksum field. -/
def Header.encode (h : Header) : Bytes :=
  h.fsid ++ (toLe 8 h.bytenr.toNat ++ (toLe 8 h.flags.toNat ++ (h.chunkTreeUuid ++
    (toLe 8 h.generation.toNat ++ (toLe 8 h.owner.toNat ++ (toLe 4 h.nritems.toNat ++
      [h.level]))))))

theorem Key.encode_length (k : Key) : k.encode.length = 17 := by
  simp [Key.encode, toLe_length]

theorem KeyPtr.encode_length (p : KeyPtr) : p.encode.length = keyptrSize := by
  simp [KeyPtr.encode, Key.encode_length, toLe_length, keyptrSize]

theorem LeafItemSlot.encode_length (s : LeafItemSlot) : s.encode.length = leafItemSize := by
  simp [LeafItemSlot.encode, Key.encode_length, toLe_length, leafItemSize]

section Parse
variable {buf rest : Bytes} {pos : Nat}

theorem Key.parse_encode {k : Key} (h : RestAt buf pos (k.encode ++ rest)) :
    Key.parse buf pos = .ok k := by
  unfold Key.encode at h
  rw [List.append_assoc] at h
  have hty := h.skip (toLe_length _ _)
  have hoffset := hty.skip_byte
  unfold Key.parse
  rw [leU64_of_restAt h, byteAt_of_restAt hty, leU64_of_restAt hoffset]
  rfl

theorem KeyPtr.parse_encode {p : KeyPtr} (h : RestAt buf pos (p.encode ++ rest)) :
    KeyPtr.parse buf pos = .ok p := by
  unfold KeyPtr.encode at h
  rw [List.append_assoc, List.append_assoc] at h
  have hblockptr := h.skip p.key.encode_length
  have hgeneration := hblockptr.skip (toLe_length _ _)
  unfold KeyPtr.parse
  rw [Key.parse_encode h, leU64_of_restAt hblockptr, leU64_of_restAt hgeneration]
  rfl

theorem LeafItemSlot.parse_encode {s : LeafItemSlot} (h : RestAt buf pos (s.encode ++ rest)) :
    LeafItemSlot.parse buf pos = .ok s := by
  unfold LeafItemSlot.encode at h
  rw [List.append_assoc, List.append_assoc] at h
  have hoffset := h.skip s.key.encode_length
  have hsize := hoffset.skip (toLe_length _ _)
  unfold LeafItemSlot.parse
  rw [Key.parse_encode h, leU32_of_restAt hoffset, leU32_of_restAt hsize]
  rfl

/-- A table of equally long entries is read back entry by entry. -/
theorem mapM_parse_table {α β : Type} {encode : α → Bytes} {parse : Bytes → Nat → Exec β}
    {value : α → β} {size : Nat} (hsize : ∀ x, (encode x).length = size)
    (hparse : ∀ x pos rest, RestAt buf pos (encode x ++ rest) → parse buf pos = .ok (value x))
    (xs : List α) {first : Nat} (h : RestAt buf (pos + first * size) (xs.flatMap encode ++ rest)) :
    (List.range' first xs.length).mapM (fun i => parse buf (pos + i * size)) =
      .ok (xs.map value) := by
  induction xs generalizing first with
  | nil => rfl
  | cons x xs ih =>
      rw [List.flatMap_cons, List.append_assoc] at h
      have hnext : RestAt buf (pos + (first + 1) * size) (xs.flatMap encode ++ rest) := by
        have hskip := h.skip (hsize x)
        rw [Nat.add_assoc, ← Nat.succ_mul] at hskip
        exact hskip
      rw [List.length_cons, List.range'_succ, List.mapM_cons, hparse x _ _ h, ih hnext]
      rfl

theorem mapM_parse_encode {α : Type} {encode : α → Bytes} {parse : Bytes → Nat → Exec α}
    {size : Nat} (hsize : ∀ x, (encode x).length = size)
    (hparse : ∀ x pos rest, RestAt buf pos (encode x ++ rest) → parse buf pos = .ok x)
    (xs : List α) {first : Nat} (h : RestAt buf (pos + first * size) (xs.flatMap encode ++ rest)) :
    (List.range' first xs.length).mapM (fun i => parse buf (pos + i * size)) = .ok xs := by
  rw [mapM_parse_table hsize hparse xs h, List.map_id']

end Parse

/-- The fsid and the chunk tree's uuid have their 16 bytes. -/
structure Header.Sized (h : Header) : Prop where
  fsid : h.fsid.length = 16
  chunkTreeUuid : h.chunkTreeUuid.length = 16

theorem Header.encode_length {h : Header} (hs : h.Sized) : h.encode.length = 69 := by
  simp [Header.encode, toLe_length, hs.fsid, hs.chunkTreeUuid]

theorem Header.parse_encode {buf rest : Bytes} {h : Header} (hs : h.Sized)
    (hbuf : RestAt buf 32 (h.encode ++ rest)) : Header.parse buf = .ok h := by
  unfold Header.encode at hbuf
  simp only [List.append_assoc, List.cons_append, List.nil_append] at hbuf
  have hbytenr := hbuf.skip hs.fsid
  have hflags := hbytenr.skip (toLe_length _ _)
  have huuid := hflags.skip (toLe_length _ _)
  have hgeneration := huuid.skip hs.chunkTreeUuid
  have howner := hgeneration.skip (toLe_length _ _)
  have hnritems := howner.skip (toLe_length _ _)
  have hlevel := hnritems.skip (toLe_length _ _)
  unfold Header.parse
  rw [slice_of_restAt hbuf hs.fsid, leU64_of_restAt hbytenr, leU64_of_restAt hflags,
    slice_of_restAt huuid hs.chunkTreeUuid, leU64_of_restAt hgeneration, leU64_of_restAt howner,
    leU32_of_restAt hnritems, byteAt_of_restAt hlevel]
  rfl

/-- A node's bytes: checksum field, header, table, and whatever follows. -/
def nodeBytes (sum : Bytes) (h : Header) (table rest : Bytes) : Bytes :=
  sum ++ (h.encode ++ (table ++ rest))

section Node
variable {sum rest : Bytes} {h : Header}

theorem restAt_table (hsum : sum.length = 32) (hs : h.Sized) (table : Bytes) :
    RestAt (nodeBytes sum h table rest) headerSize (table ++ rest) := by
  have hhead : RestAt (nodeBytes sum h table rest) 32 (h.encode ++ (table ++ rest)) :=
    ⟨sum, rfl, hsum⟩
  exact hhead.skip (Header.encode_length hs)

theorem parse_header_nodeBytes (hsum : sum.length = 32) (hs : h.Sized) (table : Bytes) :
    Header.parse (nodeBytes sum h table rest) = .ok h :=
  Header.parse_encode hs ⟨sum, rfl, hsum⟩

theorem Node.parse_leaf (hsum : sum.length = 32) (hs : h.Sized) (hlevel : h.level = 0)
    (slots : List LeafItemSlot) (hn : h.nritems.toNat = slots.length) :
    Node.parse (nodeBytes sum h (slots.flatMap LeafItemSlot.encode) rest) =
      .ok (.leaf { header := h, slots,
                   buf := nodeBytes sum h (slots.flatMap LeafItemSlot.encode) rest }) := by
  have htable : RestAt (nodeBytes sum h (slots.flatMap LeafItemSlot.encode) rest) headerSize _ :=
    restAt_table hsum hs _
  rw [← Nat.add_zero headerSize, ← Nat.zero_mul leafItemSize] at htable
  have hslots := mapM_parse_encode LeafItemSlot.encode_length (fun _ _ _ => LeafItemSlot.parse_encode) slots htable
  rw [← List.range_eq_range', ← hn] at hslots
  unfold Node.parse
  rw [parse_header_nodeBytes hsum hs]
  simp only [bind, Except.bind]
  rw [if_pos hlevel, hslots]
  rfl

theorem Node.parse_internal (hsum : sum.length = 32) (hs : h.Sized) (hlevel : h.level ≠ 0)
    (ptrs : List KeyPtr) (hn : h.nritems.toNat = ptrs.length) :
    Node.parse (nodeBytes sum h (ptrs.flatMap KeyPtr.encode) rest) =
      .ok (.internal { header := h, ptrs }) := by
  have htable : RestAt (nodeBytes sum h (ptrs.flatMap KeyPtr.encode) rest) headerSize _ :=
    restAt_table hsum hs _
  rw [← Nat.add_zero headerSize, ← Nat.zero_mul keyptrSize] at htable
  have hptrs := mapM_parse_encode KeyPtr.encode_length (fun _ _ _ => KeyPtr.parse_encode) ptrs htable
  rw [← List.range_eq_range', ← hn] at hptrs
  unfold Node.parse
  rw [parse_header_nodeBytes hsum hs]
  simp only [bind, Except.bind]
  rw [if_neg hlevel, hptrs]
  rfl

end Node
end Rotshield.Btrfs
