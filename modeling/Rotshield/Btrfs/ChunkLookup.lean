import Rotshield.Btrfs.Chunk

/-! The chunk map answers for exactly the chunks that were inserted, in any order. -/
namespace Rotshield.Btrfs

/-- The range is not empty, ends inside the address space, and has a stripe. -/
structure ChunkRecord.Regular (r : ChunkRecord) : Prop where
  nonempty : 0 < r.chunk.length.toNat
  fits : r.logical.toNat + r.chunk.length.toNat < 2 ^ 64
  striped : r.chunk.stripes ≠ []

def ChunkRecord.Contains (r : ChunkRecord) (addr : UInt64) : Prop :=
  r.logical ≤ addr ∧ addr.toNat < r.logical.toNat + r.chunk.length.toNat

instance (r : ChunkRecord) (addr : UInt64) : Decidable (r.Contains addr) :=
  inferInstanceAs (Decidable (_ ∧ _))

/-- Any two of the chunks are the same record or have no address in common. -/
def Disjoint (records : List ChunkRecord) : Prop :=
  ∀ a ∈ records, ∀ b ∈ records, a = b ∨ ∀ addr, ¬(a.Contains addr ∧ b.Contains addr)

def ChunkRecord.entry (r : ChunkRecord) : MapEntry where
  start := r.logical
  stop := r.logical + r.chunk.length
  ty := r.chunk.ty
  stripes := r.chunk.stripes

/-- The map after these insertions. -/
def ChunkMap.ofRecords (records : List ChunkRecord) : ChunkMap :=
  records.foldl ChunkMap.insert .empty

theorem ChunkMap.insert_perm (map : ChunkMap) (r : ChunkRecord) :
    (map.insert r).entries.Perm (map.entries ++ [r.entry]) := List.perm_insertionSort _ _

theorem ChunkMap.foldl_insert_perm (records : List ChunkRecord) (map : ChunkMap) :
    (records.foldl ChunkMap.insert map).entries.Perm
      (map.entries ++ records.map ChunkRecord.entry) := by
  induction records generalizing map with
  | nil => rw [List.map_nil, List.append_nil, List.foldl_nil]
  | cons r records ih =>
      rw [List.foldl_cons, List.map_cons, List.append_cons]
      exact (ih _).trans ((map.insert_perm r).append_right _)

theorem ChunkMap.ofRecords_perm (records : List ChunkRecord) :
    (ofRecords records).entries.Perm (records.map ChunkRecord.entry) :=
  foldl_insert_perm records .empty

/-- An insertion sorts the entries, those that were sorted too. -/
theorem ChunkMap.foldl_insert_sorted (records : List ChunkRecord) {map : ChunkMap}
    (h : map.entries.Pairwise fun a b => a.start ≤ b.start) :
    (records.foldl ChunkMap.insert map).entries.Pairwise fun a b => a.start ≤ b.start := by
  induction records generalizing map with
  | nil => exact h
  | cons r records ih => exact ih (List.pairwise_insertionSort _ _)

theorem ChunkMap.ofRecords_sorted (records : List ChunkRecord) :
    (ofRecords records).entries.Pairwise fun a b => a.start ≤ b.start :=
  foldl_insert_sorted records .nil

section Entry
variable {r a b : ChunkRecord} {addr : UInt64}

theorem ChunkRecord.Regular.stop (h : r.Regular) :
    r.entry.stop.toNat = r.logical.toNat + r.chunk.length.toNat := by
  have hfits := h.fits
  exact (UInt64.toNat_add _ _).trans (Nat.mod_eq_of_lt hfits)

theorem compareTo_eq_iff (h : r.Regular) :
    ChunkMap.compareTo addr r.entry = .eq ↔ r.Contains addr := by
  have hstop := h.stop
  unfold ChunkMap.compareTo ChunkRecord.Contains
  simp only [UInt64.lt_iff_toNat_lt, UInt64.le_iff_toNat_le, hstop]
  rw [show r.entry.start = r.logical from rfl]
  split
  · simp only [reduceCtorEq, false_iff]
    omega
  · split
    · simp only [reduceCtorEq, false_iff]
      omega
    · simp only [true_iff]
      omega

/-- Disjoint chunks lie one before the other. -/
theorem before_of_disjoint (hb : b.Regular) (hstart : a.logical ≤ b.logical)
    (hdisjoint : ∀ addr, ¬(a.Contains addr ∧ b.Contains addr)) :
    a.logical.toNat + a.chunk.length.toNat ≤ b.logical.toNat := by
  by_contra hlt
  have hnonempty := hb.nonempty
  exact hdisjoint b.logical ⟨⟨hstart, by omega⟩, UInt64.le_refl _, by omega⟩

/-- The comparison respects the order of the entries. -/
theorem compareTo_mono (ha : a.Regular) (hb : b.Regular) (hstart : a.logical ≤ b.logical)
    (hapart : a = b ∨ ∀ addr, ¬(a.Contains addr ∧ b.Contains addr)) :
    (ChunkMap.compareTo addr b.entry = .lt → ChunkMap.compareTo addr a.entry = .lt) ∧
      (ChunkMap.compareTo addr a.entry = .gt → ChunkMap.compareTo addr b.entry = .gt) := by
  rcases hapart with rfl | hdisjoint
  · exact ⟨id, id⟩
  · have hbefore := before_of_disjoint hb hstart hdisjoint
    have hastop := ha.stop
    have hbstop := hb.stop
    have hastart : a.entry.start = a.logical := rfl
    have hbstart : b.entry.start = b.logical := rfl
    unfold ChunkMap.compareTo
    simp only [UInt64.lt_iff_toNat_lt, UInt64.le_iff_toNat_le, hastop, hbstop, hastart, hbstart]
    constructor
    · intro h
      split at h
      · cases h
      · split at h
        · rw [if_neg (by omega), if_pos (by omega)]
        · cases h
    · intro h
      split at h
      · rw [if_pos (by omega)]
      · split at h <;> cases h

end Entry

section Lookups
variable {records : List ChunkRecord} {addr : UInt64}

theorem ChunkMap.mem_ofRecords {e : MapEntry} (he : e ∈ (ofRecords records).entries) :
    ∃ r ∈ records, r.entry = e := by
  rw [(ofRecords_perm records).mem_iff] at he
  exact List.mem_map.mp he

theorem ChunkMap.ofRecords_mono (hregular : ∀ r ∈ records, r.Regular) (hdisjoint : Disjoint records) :
    (ofRecords records).entries.Pairwise fun a b =>
      (compareTo addr b = .lt → compareTo addr a = .lt) ∧
        (compareTo addr a = .gt → compareTo addr b = .gt) := by
  apply (ofRecords_sorted records).imp_of_mem
  intro x y hx hy hstart
  obtain ⟨a, ha, rfl⟩ := mem_ofRecords hx
  obtain ⟨b, hb, rfl⟩ := mem_ofRecords hy
  exact compareTo_mono (hregular a ha) (hregular b hb) hstart (hdisjoint a ha b hb)

/-- The entry of the chunk that contains the address is found. -/
theorem ChunkMap.find_ofRecords (hregular : ∀ r ∈ records, r.Regular) (hdisjoint : Disjoint records)
    {r : ChunkRecord} (hr : r ∈ records) (hcontains : r.Contains addr) :
    (ofRecords records).find addr = some r.entry := by
  unfold find
  cases hsearch : Lib.binarySearchBy (compareTo addr) (ofRecords records).entries with
  | error i =>
      have hin : r.entry ∈ (ofRecords records).entries := by
        rw [(ofRecords_perm records).mem_iff]
        exact List.mem_map_of_mem hr
      exact absurd ((compareTo_eq_iff (hregular r hr)).mpr hcontains)
        (Lib.binarySearchBy_error (ofRecords_mono hregular hdisjoint) hsearch _ hin)
  | ok i =>
      obtain ⟨e, he, heq⟩ := Lib.binarySearchBy_ok hsearch
      obtain ⟨r', hr', rfl⟩ := mem_ofRecords (List.mem_of_getElem? he)
      have hcontains' := (compareTo_eq_iff (hregular r' hr')).mp heq
      rcases hdisjoint r hr r' hr' with rfl | hnone
      · exact he
      · exact absurd ⟨hcontains, hcontains'⟩ (hnone addr)

theorem ChunkMap.find_ofRecords_none (hregular : ∀ r ∈ records, r.Regular)
    (hnone : ∀ r ∈ records, ¬r.Contains addr) : (ofRecords records).find addr = none := by
  unfold find
  cases hsearch : Lib.binarySearchBy (compareTo addr) (ofRecords records).entries with
  | error i => rfl
  | ok i =>
      obtain ⟨e, he, heq⟩ := Lib.binarySearchBy_ok hsearch
      obtain ⟨r, hr, rfl⟩ := mem_ofRecords (List.mem_of_getElem? he)
      exact absurd ((compareTo_eq_iff (hregular r hr)).mp heq) (hnone r hr)

/-- What the three lookups answer for an address of this chunk. -/
structure ChunkMap.AnswersFor (map : ChunkMap) (addr : UInt64) (r : ChunkRecord) : Prop where
  info : map.info addr = some { length := r.chunk.length, flags := r.chunk.ty }
  lookup : ∃ s rest, r.chunk.stripes = s :: rest ∧
    map.lookup addr = .ok (some (s.devid, s.offset + (addr - r.logical)))
  lookupStripes : map.lookupStripes addr =
    some (r.chunk.stripes.map fun s => (s.devid, s.offset + (addr - r.logical)))

structure ChunkMap.NoAnswer (map : ChunkMap) (addr : UInt64) : Prop where
  info : map.info addr = none
  lookup : map.lookup addr = .ok none
  lookupStripes : map.lookupStripes addr = none

theorem ChunkMap.answersFor_of_find {map : ChunkMap} {r : ChunkRecord} (hregular : r.Regular)
    (hfind : map.find addr = some r.entry) : map.AnswersFor addr r where
  info := by
    have hlength : r.entry.stop - r.entry.start = r.chunk.length := by
      change r.logical + r.chunk.length - r.logical = r.chunk.length
      grind
    rw [ChunkMap.info, hfind, Option.map_some, hlength]
    rfl
  lookup := by
    cases hstripes : r.chunk.stripes with
    | nil => exact absurd hstripes hregular.striped
    | cons s rest =>
        refine ⟨s, rest, rfl, ?_⟩
        have hentry : r.entry.stripes = s :: rest := hstripes
        rw [ChunkMap.lookup, hfind]
        dsimp only
        rw [hentry]
        rfl
  lookupStripes := by
    rw [ChunkMap.lookupStripes, hfind]
    rfl

theorem ChunkMap.noAnswer_of_find {map : ChunkMap} (hfind : map.find addr = none) :
    map.NoAnswer addr where
  info := by rw [ChunkMap.info, hfind]; rfl
  lookup := by rw [ChunkMap.lookup, hfind]
  lookupStripes := by rw [ChunkMap.lookupStripes, hfind]; rfl

/-- The lookups answer for exactly the chunks that were inserted, whatever the order of the
insertions and however often each was repeated. -/
theorem ChunkMap.lookups_exact (records : List ChunkRecord) (hregular : ∀ r ∈ records, r.Regular)
    (hdisjoint : Disjoint records) :
    (∀ addr, ∀ r ∈ records, r.Contains addr → (ofRecords records).AnswersFor addr r) ∧
    (∀ addr, (∀ r ∈ records, ¬r.Contains addr) → (ofRecords records).NoAnswer addr) ∧
    ∀ records', (∀ r, r ∈ records' ↔ r ∈ records) → ∀ addr,
      (ofRecords records').info addr = (ofRecords records).info addr ∧
      (ofRecords records').lookup addr = (ofRecords records).lookup addr ∧
      (ofRecords records').lookupStripes addr = (ofRecords records).lookupStripes addr := by
  refine ⟨?_, ?_, ?_⟩
  · intro addr r hr hcontains
    exact answersFor_of_find (hregular r hr) (find_ofRecords hregular hdisjoint hr hcontains)
  · intro addr hnone
    exact noAnswer_of_find (find_ofRecords_none hregular hnone)
  · intro records' hsame addr
    have hregular' : ∀ r ∈ records', r.Regular := fun r hr => hregular r ((hsame r).mp hr)
    have hdisjoint' : Disjoint records' := fun a ha b hb =>
      hdisjoint a ((hsame a).mp ha) b ((hsame b).mp hb)
    have hfind : (ofRecords records').find addr = (ofRecords records).find addr := by
      by_cases hsome : ∃ r ∈ records, r.Contains addr
      · obtain ⟨r, hr, hcontains⟩ := hsome
        rw [find_ofRecords hregular hdisjoint hr hcontains,
          find_ofRecords hregular' hdisjoint' ((hsame r).mpr hr) hcontains]
      · have hnone : ∀ r ∈ records, ¬r.Contains addr := fun r hr hc => hsome ⟨r, hr, hc⟩
        rw [find_ofRecords_none hregular hnone,
          find_ofRecords_none hregular' fun r hr => hnone r ((hsame r).mp hr)]
    rw [ChunkMap.info, ChunkMap.info, ChunkMap.lookup, ChunkMap.lookup, ChunkMap.lookupStripes,
      ChunkMap.lookupStripes, hfind]
    exact ⟨rfl, rfl, rfl⟩

/-- The system chunk, inserted twice, before and after a data chunk that touches it. -/
theorem ChunkMap.lookups_exact_twice :
    let system : ChunkRecord := ⟨0x100000, ⟨0x10000, 0x10000, 2, 1, [⟨1, 0x100000⟩]⟩⟩
    let data : ChunkRecord := ⟨0x110000, ⟨0x20000, 0x10000, 1, 1, [⟨1, 0x400000⟩]⟩⟩
    (ofRecords [system, data, system]).AnswersFor 0x10FFFF system ∧
      (ofRecords [system, data, system]).AnswersFor 0x110000 data ∧
      (ofRecords [system, data, system]).NoAnswer 0x130000 := by
  intro system data
  have hregular : ∀ r ∈ [system, data, system], r.Regular := by
    have hsystem : system.Regular := ⟨by decide, by decide, nofun⟩
    have hdata : data.Regular := ⟨by decide, by decide, nofun⟩
    simp [hsystem, hdata]
  have hapart : ∀ addr, ¬(system.Contains addr ∧ data.Contains addr) := by
    rintro addr ⟨⟨-, hbelow⟩, hfrom, -⟩
    exact absurd (Nat.lt_of_le_of_lt (UInt64.le_iff_toNat_le.mp hfrom) hbelow) (by decide)
  have hdisjoint : Disjoint [system, data, system] := by
    intro a ha b hb
    simp only [List.mem_cons, List.not_mem_nil, or_false] at ha hb
    rcases ha with rfl | rfl | rfl <;> rcases hb with rfl | rfl | rfl
    all_goals first
      | exact .inl rfl
      | exact .inr hapart
      | exact .inr fun addr h => hapart addr h.symm
  obtain ⟨hin, hout, -⟩ := lookups_exact [system, data, system] hregular hdisjoint
  refine ⟨hin _ system (by simp) (by decide), hin _ data (by simp) (by decide), hout _ ?_⟩
  intro r hr
  simp only [List.mem_cons, List.not_mem_nil, or_false] at hr
  rcases hr with rfl | rfl | rfl <;> decide

end Lookups
end Rotshield.Btrfs
