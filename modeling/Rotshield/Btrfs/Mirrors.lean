import Rotshield.Btrfs.Craft

/-! Which copy of a node a read chooses, and what it reports of the others. -/
namespace Rotshield.Btrfs

/-- What a copy of a node can be. -/
inductive CopyState where
  | unreadable
  /-- The header checksum does not verify. -/
  | corrupt
  /-- It verifies, but the header is not the expected one. -/
  | stale
  | valid
  deriving DecidableEq, Repr

/-- The header checksum verifies. -/
def CopyState.verified : CopyState → Bool
  | .stale => true
  | .valid => true
  | _ => false

section States
variable (strategy : CsumStrategy) (valid : Header → Bool)

/-- A verified copy whose header cannot be parsed has no state of its own: the read panics. -/
def copyState : Except IoError Bytes → CopyState
  | .error _ => .unreadable
  | .ok buf =>
      if !strategy.verifyNodeHeader buf then .corrupt
      else match Header.parse buf with
        | .ok hdr => if valid hdr then .valid else .stale
        | .error _ => .stale

/-- The bytes of a copy, if it has this state. -/
def bytesIn (st : CopyState) (c : Except IoError Bytes) : Option Bytes :=
  if copyState strategy valid c = st then c.toOption else none

/-- The first copy with this state. -/
def firstIn (st : CopyState) (copies : List (Except IoError Bytes)) : Option Bytes :=
  copies.findSome? (bytesIn strategy valid st)

/-- The copy to be parsed: a valid one, else a stale one. -/
def bestOf (copies : List (Except IoError Bytes)) : Option Bytes :=
  (firstIn strategy valid .valid copies).or (firstIn strategy valid .stale copies)

/-- The headers of the verified copies, and the copy that is chosen, have no slot outside. -/
structure CopiesParse (copies : List (Except IoError Bytes)) : Prop where
  headers : ∀ buf, .ok buf ∈ copies → strategy.verifyNodeHeader buf = true →
    ∃ hdr, Header.parse buf = .ok hdr
  best : ∀ buf, bestOf strategy valid copies = some buf → ∃ node, Node.parse buf = .ok node

/-- What a read should report. -/
structure Reports (copies : List (Except IoError Bytes)) (got : Except IoError ReadNodeResult) :
    Prop where
  good : (∃ c ∈ copies, copyState strategy valid c = .valid) →
    ∃ res, got = .ok res ∧ res.generationMismatch = false ∧ res.allMirrorsFailed = false ∧
      ∃ buf node, .ok buf ∈ copies ∧ copyState strategy valid (.ok buf) = .valid ∧
        Node.parse buf = .ok node ∧ res.node = some node
  stale : (∃ res, got = .ok res ∧ res.generationMismatch = true) ↔
    (∃ c ∈ copies, (copyState strategy valid c).verified = true) ∧
      ∀ c ∈ copies, copyState strategy valid c ≠ .valid
  failed : (∃ res, got = .ok res ∧ res.allMirrorsFailed = true) ↔
    (∃ c ∈ copies, copyState strategy valid c ≠ .unreadable) ∧
      ∀ c ∈ copies, (copyState strategy valid c).verified = false
  unread : (∃ e, got = .error e) ↔ ∀ c ∈ copies, copyState strategy valid c = .unreadable
  mismatch : (∃ c ∈ copies, copyState strategy valid c = .valid) →
    (∃ c ∈ copies, copyState strategy valid c ≠ .valid) →
      ∃ res, got = .ok res ∧ res.mirrorMismatch = true

/-- Every copy verifies, and some but not all of them have the expected header. -/
def StaleBesideValid (copies : List (Except IoError Bytes)) : Prop :=
  (∃ c ∈ copies, copyState strategy valid c = .valid) ∧
    (∃ c ∈ copies, copyState strategy valid c = .stale) ∧
      ∀ c ∈ copies, (copyState strategy valid c).verified = true

end States

section Scan
variable {strategy : CsumStrategy} {valid : Header → Bool} {copies : List (Except IoError Bytes)}
  {c : Except IoError Bytes} {buf : Bytes} {st : CopyState}

theorem bytesIn_eq_some : bytesIn strategy valid st c = some buf ↔
    c = .ok buf ∧ copyState strategy valid c = st := by
  unfold bytesIn
  cases c with
  | error e => simp [Except.toOption]
  | ok b =>
      simp only [Except.toOption, Option.ite_none_right_eq_some, Option.some.injEq, Except.ok.injEq]
      exact And.comm

theorem firstIn_some (h : firstIn strategy valid st copies = some buf) :
    .ok buf ∈ copies ∧ copyState strategy valid (.ok buf) = st := by
  obtain ⟨c, hc, hbytes⟩ := List.exists_of_findSome?_eq_some h
  obtain ⟨rfl, hstate⟩ := bytesIn_eq_some.mp hbytes
  exact ⟨hc, hstate⟩

theorem firstIn_none (h : firstIn strategy valid st copies = none) (hread : st ≠ .unreadable) :
    ∀ c ∈ copies, copyState strategy valid c ≠ st := by
  rintro c hc rfl
  have hnone := List.findSome?_eq_none_iff.mp h c hc
  cases c with
  | error e => exact hread rfl
  | ok buf => simp [bytesIn, Except.toOption] at hnone

/-- What one copy adds to those that are kept. -/
def Copies.add (strategy : CsumStrategy) (valid : Header → Bool) (acc : Copies)
    (c : Except IoError Bytes) : Copies where
  good := acc.good.or (bytesIn strategy valid .valid c)
  stale := acc.stale.or (bytesIn strategy valid .stale c)
  corrupt := acc.corrupt.or (bytesIn strategy valid .corrupt c)
  validCount := acc.validCount + if (copyState strategy valid c).verified then 1 else 0

theorem scanCopy_eq (acc : Copies) (hparse : ∀ buf, c = .ok buf →
    strategy.verifyNodeHeader buf = true → ∃ hdr, Header.parse buf = .ok hdr) :
    scanCopy strategy valid acc c = .ok (acc.add strategy valid c) := by
  cases c with
  | error e => simp [scanCopy, Copies.add, bytesIn, copyState, CopyState.verified]
  | ok buf =>
      cases hverify : strategy.verifyNodeHeader buf with
      | false =>
          simp [scanCopy, Copies.add, bytesIn, copyState, hverify, CopyState.verified,
            Except.toOption]
      | true =>
          obtain ⟨hdr, hhdr⟩ := hparse buf rfl hverify
          cases hvalid : valid hdr with
          | false =>
              simp [scanCopy, Copies.add, bytesIn, copyState, hverify, hhdr, hvalid, bind,
                Except.bind, pure, Except.pure, CopyState.verified, Except.toOption]
          | true =>
              simp [scanCopy, Copies.add, bytesIn, copyState, hverify, hhdr, hvalid, bind,
                Except.bind, pure, Except.pure, CopyState.verified, Except.toOption]

theorem scanCopy_panics (acc : Copies) (hverify : strategy.verifyNodeHeader buf = true) {e : Halt}
    (hparse : Header.parse buf = .error e) :
    scanCopy strategy valid acc (.ok buf) = .error e := by
  simp [scanCopy, hverify, hparse, bind, Except.bind]

theorem foldl_add (acc : Copies) : copies.foldl (Copies.add strategy valid) acc =
    ⟨acc.good.or (firstIn strategy valid .valid copies),
      acc.stale.or (firstIn strategy valid .stale copies),
      acc.corrupt.or (firstIn strategy valid .corrupt copies),
      acc.validCount + copies.countP fun c => (copyState strategy valid c).verified⟩ := by
  induction copies generalizing acc with
  | nil => simp [firstIn]
  | cons c copies ih =>
      have hfirst : ∀ st, firstIn strategy valid st (c :: copies) =
          (bytesIn strategy valid st c).or (firstIn strategy valid st copies) := by
        intro st
        unfold firstIn
        rw [List.findSome?_cons]
        cases bytesIn strategy valid st c <;> rfl
      rw [List.foldl_cons, ih, hfirst, hfirst, hfirst, List.countP_cons]
      simp only [Copies.add, Option.or_assoc, Nat.add_assoc, Copies.mk.injEq, true_and]
      exact congrArg _ (Nat.add_comm _ _)

/-- The scan of all copies fails at a header outside its buffer only. -/
theorem scanAll_eq (acc : Copies) (hparse : ∀ buf, .ok buf ∈ copies →
    strategy.verifyNodeHeader buf = true → ∃ hdr, Header.parse buf = .ok hdr) :
    copies.foldlM (scanCopy strategy valid) acc =
      .ok (copies.foldl (Copies.add strategy valid) acc) := by
  induction copies generalizing acc with
  | nil => rfl
  | cons c copies ih =>
      rw [List.foldlM_cons, scanCopy_eq acc fun buf hbuf =>
        hparse buf (by rw [hbuf]; exact List.mem_cons_self)]
      exact ih _ fun buf hbuf => hparse buf (List.mem_cons_of_mem c hbuf)

theorem scanAll_headers {acc acc' : Copies}
    (h : copies.foldlM (scanCopy strategy valid) acc = .ok acc') :
    ∀ buf, .ok buf ∈ copies → strategy.verifyNodeHeader buf = true →
      ∃ hdr, Header.parse buf = .ok hdr := by
  induction copies generalizing acc with
  | nil => exact nofun
  | cons c copies ih =>
      rw [List.foldlM_cons] at h
      intro buf hbuf hverify
      cases hscan : scanCopy strategy valid acc c with
      | error e => rw [hscan] at h; cases h
      | ok acc₁ =>
          rw [hscan] at h
          rcases List.mem_cons.mp hbuf with rfl | hbuf
          · cases hparse : Header.parse buf with
            | ok hdr => exact ⟨hdr, rfl⟩
            | error e =>
                rw [scanCopy_panics acc hverify hparse] at hscan
                cases hscan
          · exact ih h buf hbuf hverify

/-- The flags of a read whose choice can be parsed. -/
theorem selectCopy_best (acc : Copies) (hbest : acc.good.or acc.stale = some buf)
    (hverify : strategy.verifyNodeHeader buf = true) (mirrors : Nat) :
    selectCopy strategy mirrors acc = (Node.parse buf).map fun node => .ok
      { node := some node, allMirrorsFailed := false,
        generationMismatch := acc.good.isNone && acc.stale.isSome,
        mirrorMismatch := decide (1 < mirrors ∧ 0 < acc.validCount ∧ acc.validCount < mirrors) } := by
  unfold selectCopy
  rw [hbest, Option.some_or]
  simp only [hverify, Bool.not_true, Bool.false_eq_true, if_false]
  cases Node.parse buf <;> rfl

theorem verified_iff : st.verified = true ↔ st = .valid ∨ st = .stale := by
  cases st <;> decide

theorem verified_ok (buf : Bytes) :
    (copyState strategy valid (.ok buf)).verified = strategy.verifyNodeHeader buf := by
  cases hverify : strategy.verifyNodeHeader buf with
  | false => simp [copyState, hverify, CopyState.verified]
  | true =>
      simp only [copyState, hverify, Bool.not_true, Bool.false_eq_true, if_false]
      split
      · split <;> rfl
      · rfl

/-- Beside a valid copy, a mismatch is reported exactly when some copy does not verify. -/
theorem mirrorMismatch_iff (hvalid : ∃ c ∈ copies, copyState strategy valid c = .valid) :
    (1 < copies.length ∧ 0 < copies.countP (fun c => (copyState strategy valid c).verified) ∧
      copies.countP (fun c => (copyState strategy valid c).verified) < copies.length) ↔
        ∃ c ∈ copies, (copyState strategy valid c).verified = false := by
  obtain ⟨good, hgood, hstate⟩ := hvalid
  have hpos : 0 < copies.countP fun c => (copyState strategy valid c).verified :=
    List.countP_pos_iff.mpr ⟨good, hgood, by rw [hstate]; rfl⟩
  have hle := List.countP_le_length (p := fun c => (copyState strategy valid c).verified) (l := copies)
  have hall := List.countP_eq_length (p := fun c => (copyState strategy valid c).verified) (l := copies)
  constructor
  · rintro ⟨-, -, hlt⟩
    by_contra hnone
    have hevery : ∀ c ∈ copies, (copyState strategy valid c).verified = true := by
      simpa using hnone
    have heq := hall.mpr hevery
    omega
  · rintro ⟨c, hc, hnot⟩
    have hne : copies.countP (fun c => (copyState strategy valid c).verified) ≠ copies.length := by
      intro heq
      rw [hall.mp heq c hc] at hnot
      cases hnot
    omega

section Reports
variable {res : ReadNodeResult} {node : Node}

/-- A read that chose a valid copy reports all but a stale one beside it. -/
theorem Reports.of_valid (hin : .ok buf ∈ copies)
    (hstate : copyState strategy valid (.ok buf) = .valid) (hnode : Node.parse buf = .ok node)
    (hres : res.node = some node) (hfailed : res.allMirrorsFailed = false)
    (hgen : res.generationMismatch = false)
    (hmismatch : res.mirrorMismatch = true ↔
      ∃ c ∈ copies, (copyState strategy valid c).verified = false) :
    Reports strategy valid copies (.ok res) ↔ ¬StaleBesideValid strategy valid copies := by
  have hverified : (copyState strategy valid (.ok buf)).verified = true := by rw [hstate]; rfl
  constructor
  · rintro h ⟨hvalid, ⟨stale, hstale, hkind⟩, hall⟩
    obtain ⟨_, ⟨⟩, hreported⟩ := h.mismatch hvalid ⟨stale, hstale, by rw [hkind]; nofun⟩
    obtain ⟨c, hc, hnot⟩ := hmismatch.mp hreported
    rw [hall c hc] at hnot
    cases hnot
  · intro hnot
    constructor
    case good => exact fun _ => ⟨res, rfl, hgen, hfailed, buf, node, hin, hstate, hnode, hres⟩
    case stale =>
        constructor
        · rintro ⟨_, ⟨⟩, hstale⟩
          rw [hgen] at hstale
          cases hstale
        · rintro ⟨-, hnone⟩
          exact absurd hstate (hnone _ hin)
    case failed =>
        constructor
        · rintro ⟨_, ⟨⟩, hall⟩
          rw [hfailed] at hall
          cases hall
        · rintro ⟨-, hnone⟩
          rw [hnone _ hin] at hverified
          cases hverified
    case unread =>
        constructor
        · rintro ⟨e, ⟨⟩⟩
        · intro hnone
          rw [hnone _ hin] at hstate
          cases hstate
    case mismatch =>
        rintro hvalid ⟨c, hc, hother⟩
        refine ⟨res, rfl, hmismatch.mpr ?_⟩
        by_contra hnone
        have hevery : ∀ c ∈ copies, (copyState strategy valid c).verified = true := by
          simpa using hnone
        refine hnot ⟨hvalid, ⟨c, hc, ?_⟩, hevery⟩
        rcases verified_iff.mp (hevery c hc) with h | h
        · exact absurd h hother
        · exact h

/-- Without a valid copy, the flags say what is left. -/
theorem Reports.of_no_valid (hnone : ∀ c ∈ copies, copyState strategy valid c ≠ .valid)
    {got : Except IoError ReadNodeResult}
    (hstale : (∃ res, got = .ok res ∧ res.generationMismatch = true) ↔
      ∃ c ∈ copies, (copyState strategy valid c).verified = true)
    (hfailed : (∃ res, got = .ok res ∧ res.allMirrorsFailed = true) ↔
      (∃ c ∈ copies, copyState strategy valid c ≠ .unreadable) ∧
        ∀ c ∈ copies, (copyState strategy valid c).verified = false)
    (hunread : (∃ e, got = .error e) ↔ ∀ c ∈ copies, copyState strategy valid c = .unreadable) :
    Reports strategy valid copies got ↔ ¬StaleBesideValid strategy valid copies := by
  have hvacuous : ¬∃ c ∈ copies, copyState strategy valid c = .valid := by
    rintro ⟨c, hc, hstate⟩
    exact hnone c hc hstate
  refine iff_of_true ⟨fun h => absurd h hvacuous, ?_, hfailed, hunread,
    fun h => absurd h hvacuous⟩ fun h => hvacuous h.1
  rw [hstale]
  exact (and_iff_left hnone).symm

end Reports

theorem bestOf_verified (h : bestOf strategy valid copies = some buf) :
    strategy.verifyNodeHeader buf = true := by
  rw [← verified_ok buf, verified_iff]
  rcases Option.or_eq_some_iff.mp h with h | ⟨-, h⟩
  · exact .inl (firstIn_some h).2
  · exact .inr (firstIn_some h).2

/-- A choice that is returned was parsed. -/
theorem parse_of_selectCopy {got : Except IoError ReadNodeResult} {mirrors : Nat}
    (h : selectCopy strategy mirrors (copies.foldl (Copies.add strategy valid) Copies.none) =
      .ok got) (hbest : bestOf strategy valid copies = some buf) :
    ∃ node, Node.parse buf = .ok node := by
  have hchoice : (copies.foldl (Copies.add strategy valid) Copies.none).good.or
      (copies.foldl (Copies.add strategy valid) Copies.none).stale = some buf := by
    rw [foldl_add]
    exact hbest
  rw [selectCopy_best _ hchoice (bestOf_verified hbest)] at h
  cases hnode : Node.parse buf with
  | ok node => exact ⟨node, rfl⟩
  | error e => rw [hnode] at h; cases h

/-- What is chosen among the copies, and what is reported of them. -/
theorem selectCopy_reports_iff (hbest : ∀ buf, bestOf strategy valid copies = some buf →
    ∃ node, Node.parse buf = .ok node) :
    ∃ got, selectCopy strategy copies.length
      (copies.foldl (Copies.add strategy valid) Copies.none) = .ok got ∧
        (Reports strategy valid copies got ↔ ¬StaleBesideValid strategy valid copies) := by
  rw [foldl_add]
  simp only [Copies.none, Option.none_or, Nat.zero_add]
  cases hgood : firstIn strategy valid .valid copies with
  | some buf =>
      obtain ⟨hin, hstate⟩ := firstIn_some hgood
      obtain ⟨node, hnode⟩ := hbest buf (by rw [bestOf, hgood]; rfl)
      have hverify : strategy.verifyNodeHeader buf = true := by
        rw [← verified_ok buf, hstate]
        rfl
      have hselect := selectCopy_best ⟨some buf, firstIn strategy valid .stale copies,
        firstIn strategy valid .corrupt copies,
        copies.countP fun c => (copyState strategy valid c).verified⟩ rfl hverify copies.length
      rw [hnode] at hselect
      refine ⟨_, hselect, Reports.of_valid hin hstate hnode ?_ ?_ ?_ ?_⟩
      · rfl
      · rfl
      · rfl
      · exact (decide_eq_true_iff).trans (mirrorMismatch_iff ⟨_, hin, hstate⟩)
  | none =>
      have hnone := firstIn_none hgood (fun h => by cases h)
      cases hstale : firstIn strategy valid .stale copies with
      | some buf =>
          obtain ⟨hin, hstate⟩ := firstIn_some hstale
          obtain ⟨node, hnode⟩ := hbest buf (by rw [bestOf, hgood, hstale]; rfl)
          have hverified : (copyState strategy valid (.ok buf)).verified = true := by
            rw [hstate]
            rfl
          have hselect := selectCopy_best ⟨none, some buf, firstIn strategy valid .corrupt copies,
            copies.countP fun c => (copyState strategy valid c).verified⟩ rfl
            ((verified_ok buf).symm.trans hverified) copies.length
          rw [hnode] at hselect
          refine ⟨_, hselect, Reports.of_no_valid hnone ?_ ?_ ?_⟩
          · exact iff_of_true ⟨_, rfl, rfl⟩ ⟨_, hin, hverified⟩
          · apply iff_of_false
            · rintro ⟨_, ⟨⟩, ⟨⟩⟩
            · rintro ⟨-, h⟩
              rw [h _ hin] at hverified
              cases hverified
          · apply iff_of_false
            · rintro ⟨_, ⟨⟩⟩
            · intro h
              rw [h _ hin] at hstate
              cases hstate
      | none =>
          have hunverified : ∀ c ∈ copies, (copyState strategy valid c).verified = false := by
            intro c hc
            apply Bool.eq_false_iff.mpr
            intro hverified
            rcases verified_iff.mp hverified with h | h
            · exact hnone c hc h
            · exact firstIn_none hstale (fun h => by cases h) c hc h
          have hnever : ¬∃ c ∈ copies, (copyState strategy valid c).verified = true := by
            rintro ⟨c, hc, hverified⟩
            rw [hunverified c hc] at hverified
            cases hverified
          cases hcorrupt : firstIn strategy valid .corrupt copies with
          | some buf =>
              obtain ⟨hin, hstate⟩ := firstIn_some hcorrupt
              have hverify : strategy.verifyNodeHeader buf = false :=
                (verified_ok buf).symm.trans (hunverified _ hin)
              have hselect : ∀ n, selectCopy strategy copies.length ⟨none, none, some buf, n⟩ =
                  .ok (.ok ⟨none, true, false,
                    decide (1 < copies.length ∧ 0 < n ∧ n < copies.length)⟩) := by
                intro n
                simp [selectCopy, hverify]
              refine ⟨_, hselect _, Reports.of_no_valid hnone ?_ ?_ ?_⟩
              · exact iff_of_false (by rintro ⟨_, ⟨⟩, ⟨⟩⟩) hnever
              · exact iff_of_true ⟨_, rfl, rfl⟩ ⟨⟨_, hin, by rw [hstate]; rintro ⟨⟩⟩, hunverified⟩
              · apply iff_of_false
                · rintro ⟨_, ⟨⟩⟩
                · intro h
                  rw [h _ hin] at hstate
                  cases hstate
          | none =>
              have hunread : ∀ c ∈ copies, copyState strategy valid c = .unreadable := by
                intro c hc
                have hcorrupted := firstIn_none hcorrupt (fun h => by cases h) c hc
                have hnot := hunverified c hc
                revert hnot hcorrupted
                cases copyState strategy valid c <;> simp [CopyState.verified]
              refine ⟨_, rfl, Reports.of_no_valid hnone ?_ ?_ ?_⟩
              · exact iff_of_false (by rintro ⟨_, ⟨⟩, _⟩) hnever
              · apply iff_of_false
                · rintro ⟨_, ⟨⟩, _⟩
                · rintro ⟨⟨c, hc, hread⟩, -⟩
                  exact hread (hunread c hc)
              · exact iff_of_true ⟨_, rfl⟩ hunread

/-- What a node read makes of the copies it read. -/
def judgeCopies (strategy : CsumStrategy) (valid : Header → Bool)
    (copies : List (Except IoError Bytes)) : Exec (Except IoError ReadNodeResult) :=
  (copies.foldlM (scanCopy strategy valid) Copies.none).bind (selectCopy strategy copies.length)

theorem judgeCopies_reported (hparse : CopiesParse strategy valid copies) :
    ∃ got, judgeCopies strategy valid copies = .ok got ∧
      (Reports strategy valid copies got ↔ ¬StaleBesideValid strategy valid copies) := by
  obtain ⟨got, hgot, hiff⟩ := selectCopy_reports_iff hparse.best
  refine ⟨got, ?_, hiff⟩
  rw [judgeCopies, scanAll_eq Copies.none hparse.headers]
  exact hgot

/-- A read that returns found every header and the node it chose inside their buffers. -/
theorem judgeCopies_parses {got : Except IoError ReadNodeResult}
    (h : judgeCopies strategy valid copies = .ok got) : CopiesParse strategy valid copies := by
  unfold judgeCopies at h
  cases hscan : copies.foldlM (scanCopy strategy valid) Copies.none with
  | error e => rw [hscan] at h; cases h
  | ok acc =>
      have hheaders := scanAll_headers hscan
      have hacc : copies.foldlM (scanCopy strategy valid) Copies.none = _ :=
        scanAll_eq Copies.none hheaders
      rw [hacc] at h
      exact ⟨hheaders, fun buf => parse_of_selectCopy h⟩

theorem judgeCopies_returns_iff :
    (∃ got, judgeCopies strategy valid copies = .ok got) ↔ CopiesParse strategy valid copies := by
  constructor
  · rintro ⟨got, hgot⟩
    exact judgeCopies_parses hgot
  · intro hparse
    obtain ⟨got, hgot, -⟩ := judgeCopies_reported hparse
    exact ⟨got, hgot⟩

theorem judgeCopies_readFrom {got : Except IoError ReadNodeResult}
    (h : judgeCopies strategy valid copies = .ok got) : ReadFrom strategy valid copies got := by
  unfold judgeCopies at h
  cases hscan : copies.foldlM (scanCopy strategy valid) Copies.none with
  | error e => rw [hscan] at h; cases h
  | ok acc =>
      rw [hscan] at h
      exact selectCopy_readFrom (Copies.Of.none.scanAll hscan) h

end Scan

section Image
variable {image : Image} {config : ReaderConfig} {strategy : CsumStrategy} {chunkMap : ChunkMap}
  {logical gen : UInt64} {level : Option UInt8} {owner : Option UInt64}

theorem readNode_judged (hstrategy : config.strategy = some strategy) :
    (image.reader config).readNode chunkMap logical gen level owner =
      judgeCopies strategy (fun hdr => config.validateHeader hdr logical gen level owner)
        (copiesOf image config chunkMap logical) := readNode_eq hstrategy chunkMap logical gen level owner

/-- A read returns and reports all of its copies exactly when the headers it looks at and the node
it chooses are inside their buffers, and no copy is stale beside a valid one where all verify. -/
theorem readNode_reports_iff (hstrategy : config.strategy = some strategy) :
    (∃ got, (image.reader config).readNode chunkMap logical gen level owner = .ok got ∧
      Reports strategy (fun hdr => config.validateHeader hdr logical gen level owner)
        (copiesOf image config chunkMap logical) got) ↔
      CopiesParse strategy (fun hdr => config.validateHeader hdr logical gen level owner)
        (copiesOf image config chunkMap logical) ∧
      ¬StaleBesideValid strategy (fun hdr => config.validateHeader hdr logical gen level owner)
        (copiesOf image config chunkMap logical) := by
  rw [readNode_judged hstrategy]
  constructor
  · rintro ⟨got, hgot, hreports⟩
    have hparse := judgeCopies_parses hgot
    obtain ⟨got', hgot', hiff⟩ := judgeCopies_reported hparse
    obtain rfl := Except.ok.inj (hgot.symm.trans hgot')
    exact ⟨hparse, hiff.mp hreports⟩
  · rintro ⟨hparse, hnot⟩
    obtain ⟨got, hgot, hiff⟩ := judgeCopies_reported hparse
    exact ⟨got, hgot, hiff.mpr hnot⟩

end Image

/-! ### A copy that missed a write -/

namespace Crafted

/-- Both stripes of each address are on the device. -/
def dupMap : ChunkMap :=
  ⟨[{ start := 0, stop := 0x1000000, ty := 1, stripes := [⟨1, 0⟩, ⟨1, 0x1000000⟩] }]⟩

def written : Header := header 0x400000 2 7 0 0
def missed : Header := header 0x400000 1 7 0 0

/-- The second copy is the node before its last write. -/
def lostWrite : Image :=
  .ofRegions [(0x400000, leafBytes written [] []), (0x1400000, leafBytes missed [] [])]

theorem lostWrite_copies : copiesOf lostWrite config dupMap 0x400000 =
    [.ok (leafBytes written [] []), .ok (leafBytes missed [] [])] := by
  have hlen : ∀ h : Header, h.Sized → (leafBytes h [] []).length = 4096 := fun h hs =>
    leafBytes_length hs (by decide)
  have hwritten := hlen written (header_sized _ _ _ _ _)
  have hmissed := hlen missed (header_sized _ _ _ _ _)
  have hapart : Apart [(0x400000, leafBytes written [] []), (0x1400000, leafBytes missed [] [])] := by
    unfold Apart
    simp [hwritten]
  have hfirst : lostWrite.pread 0x400000 4096 = .ok (leafBytes written [] []) := by
    rw [← hwritten]
    exact pread_region hapart List.mem_cons_self
  have hsecond : lostWrite.pread 0x1400000 4096 = .ok (leafBytes missed [] []) := by
    rw [← hmissed]
    exact pread_region hapart (List.mem_cons_of_mem _ List.mem_cons_self)
  rw [← hfirst, ← hsecond]
  rfl

def checkWritten (hdr : Header) : Bool := config.validateHeader hdr 0x400000 2 (some 0) (some 7)

theorem empty_state {h : Header} (hs : h.Sized) (valid : Header → Bool) :
    copyState strategy valid (.ok (leafBytes h [] [])) = if valid h then .valid else .stale := by
  have hverify : strategy.verifyNodeHeader (leafBytes h [] []) = true := verifyNodeHeader_sealNode hs
  have hparse : Header.parse (leafBytes h [] []) = .ok h :=
    parse_header_nodeBytes (checksumField_length _ _) hs _
  simp [copyState, hverify, hparse]

theorem lostWrite_parse : CopiesParse strategy checkWritten
    (copiesOf lostWrite config dupMap 0x400000) := by
  have hwritten := header_sized 0x400000 2 7 0 0
  have hmissed := header_sized 0x400000 1 7 0 0
  have hparses : ∀ buf, .ok buf ∈ copiesOf lostWrite config dupMap 0x400000 →
      (∃ hdr, Header.parse buf = .ok hdr) ∧ ∃ node, Node.parse buf = .ok node := by
    rw [lostWrite_copies]
    intro buf hbuf
    simp only [List.mem_cons, Except.ok.injEq, List.not_mem_nil, or_false] at hbuf
    rcases hbuf with rfl | rfl
    · exact ⟨⟨_, parse_header_nodeBytes (checksumField_length _ _) hwritten _⟩,
        _, Node.parse_leaf (checksumField_length _ _) hwritten rfl [] rfl⟩
    · exact ⟨⟨_, parse_header_nodeBytes (checksumField_length _ _) hmissed _⟩,
        _, Node.parse_leaf (checksumField_length _ _) hmissed rfl [] rfl⟩
  refine ⟨fun buf hbuf _ => (hparses buf hbuf).1, fun buf hbuf => (hparses buf ?_).2⟩
  rcases Option.or_eq_some_iff.mp hbuf with hbuf | ⟨-, hbuf⟩
  · exact (firstIn_some hbuf).1
  · exact (firstIn_some hbuf).1

theorem lostWrite_stale : StaleBesideValid strategy checkWritten
    (copiesOf lostWrite config dupMap 0x400000) := by
  have hwritten : copyState strategy checkWritten (.ok (leafBytes written [] [])) = .valid :=
    empty_state (header_sized _ _ _ _ _) checkWritten
  have hmissed : copyState strategy checkWritten (.ok (leafBytes missed [] [])) = .stale :=
    empty_state (header_sized _ _ _ _ _) checkWritten
  rw [lostWrite_copies]
  refine ⟨⟨_, List.mem_cons_self, hwritten⟩,
    ⟨_, List.mem_cons_of_mem _ List.mem_cons_self, hmissed⟩, ?_⟩
  intro c hc
  simp only [List.mem_cons, List.not_mem_nil, or_false] at hc
  rcases hc with rfl | rfl
  · rw [hwritten]
    rfl
  · rw [hmissed]
    rfl

/-- The lost write is passed over: no mismatch is reported. -/
theorem lostWrite_not_reported : ∃ got,
    (lostWrite.reader config).readNode dupMap 0x400000 2 (some 0) (some 7) = .ok got ∧
      ¬Reports strategy checkWritten (copiesOf lostWrite config dupMap 0x400000) got := by
  obtain ⟨got, hgot, hiff⟩ := judgeCopies_reported lostWrite_parse
  refine ⟨got, (readNode_judged rfl).trans hgot, fun hreports => hiff.mp hreports lostWrite_stale⟩

theorem readNode_reports_iff_lostWrite :
    (∃ got, (lostWrite.reader config).readNode dupMap 0x400000 2 (some 0) (some 7) = .ok got ∧
      Reports strategy checkWritten (copiesOf lostWrite config dupMap 0x400000) got) ↔
      CopiesParse strategy checkWritten (copiesOf lostWrite config dupMap 0x400000) ∧
        ¬StaleBesideValid strategy checkWritten (copiesOf lostWrite config dupMap 0x400000) :=
  readNode_reports_iff rfl

end Crafted
end Rotshield.Btrfs
