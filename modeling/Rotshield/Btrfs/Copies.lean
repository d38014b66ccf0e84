import Rotshield.Btrfs.Reader

/-! What the flags of a node read say about the copies of the node. -/
namespace Rotshield.Btrfs

/-- What the reads of a node's copies give, in the order they are tried. -/
def copiesOf (image : Image) (config : ReaderConfig) (chunkMap : ChunkMap) (logical : UInt64) :
    List (Except IoError Bytes) :=
  (FsReader.nodeStripes chunkMap logical).map fun s =>
    image.pread (config.baseOffset + s.2) config.nodeSize

theorem mapM_ok {α β : Type} (f : α → β) (l : List α) :
    l.mapM (fun a => (.ok (f a) : Exec β)) = .ok (l.map f) := by
  induction l with
  | nil => rfl
  | cons a l ih =>
      rw [List.mapM_cons, ih]
      rfl

/-- With a strategy set, a node read is the scan of its copies and the choice among them. -/
theorem readNode_eq {image : Image} {config : ReaderConfig} {strategy : CsumStrategy}
    (hstrategy : config.strategy = some strategy) (chunkMap : ChunkMap) (logical gen : UInt64)
    (level : Option UInt8) (owner : Option UInt64) :
    (image.reader config).readNode chunkMap logical gen level owner =
      ((copiesOf image config chunkMap logical).foldlM
        (scanCopy strategy fun hdr => config.validateHeader hdr logical gen level owner)
          Copies.none).bind
        (selectCopy strategy (copiesOf image config chunkMap logical).length) := by
  have hconfig : (image.reader config).config.strategy = some strategy := hstrategy
  unfold FsReader.readNode
  rw [hconfig]
  have hcopies : (FsReader.nodeStripes chunkMap logical).mapM (fun s =>
      (image.reader config).pread ((image.reader config).config.baseOffset + s.2)
        (image.reader config).config.nodeSize) =
      .ok (copiesOf image config chunkMap logical) :=
    mapM_ok _ _
  dsimp only
  rw [hcopies]
  have hlen : (FsReader.nodeStripes chunkMap logical).length =
      (copiesOf image config chunkMap logical).length := by rw [copiesOf, List.length_map]
  rw [hlen]
  have hscan : (scanCopy strategy fun hdr =>
      (image.reader config).config.validateHeader hdr logical gen level owner) =
      scanCopy strategy fun hdr => config.validateHeader hdr logical gen level owner := rfl
  simp only [bind, Except.bind]
  rw [hscan]
  cases (copiesOf image config chunkMap logical).foldlM
      (scanCopy strategy fun hdr => config.validateHeader hdr logical gen level owner)
        Copies.none with
  | error h => rfl
  | ok acc =>
      have hlift : ∀ x : Exec (Except IoError ReadNodeResult), (liftExec x : Exec _) = x := by
        intro x
        cases x <;> rfl
      exact hlift _

section Scan
variable {strategy : CsumStrategy} {valid : Header → Bool}

/-- A copy with a valid header checksum and a header of this validity. -/
def Verified (strategy : CsumStrategy) (valid : Header → Bool) (isValid : Bool) (buf : Bytes) :
    Prop :=
  strategy.verifyNodeHeader buf = true ∧ ∃ hdr, Header.parse buf = .ok hdr ∧ valid hdr = isValid

/-- The kept copies are among those seen, and a kind that is not kept was not seen. -/
structure Copies.Of (strategy : CsumStrategy) (valid : Header → Bool)
    (copies : List (Except IoError Bytes)) (acc : Copies) : Prop where
  good : ∀ buf, acc.good = some buf → .ok buf ∈ copies ∧ Verified strategy valid true buf
  stale : ∀ buf, acc.stale = some buf → .ok buf ∈ copies ∧ Verified strategy valid false buf
  corrupt : ∀ buf, acc.corrupt = some buf →
    .ok buf ∈ copies ∧ strategy.verifyNodeHeader buf = false
  seen : ∀ buf, .ok buf ∈ copies →
    Verified strategy valid true buf ∧ acc.good.isSome = true ∨
    Verified strategy valid false buf ∧ acc.stale.isSome = true ∨
    strategy.verifyNodeHeader buf = false ∧ acc.corrupt.isSome = true

theorem Copies.Of.none : Copies.none.Of strategy valid [] where
  good _ h := by cases h
  stale _ h := by cases h
  corrupt _ h := by cases h
  seen _ h := by cases h

theorem or_some_eq {a : Option Bytes} {b c : Bytes} (h : a.or (some b) = some c) :
    a = some c ∨ b = c := by
  cases a with
  | none => exact .inr (Option.some.inj h)
  | some x => exact .inl h

theorem isSome_or_some (a : Option Bytes) (b : Bytes) : (a.or (some b)).isSome = true := by
  cases a <;> rfl

theorem Copies.Of.scan {copies : List (Except IoError Bytes)} {acc acc' : Copies}
    (h : acc.Of strategy valid copies) {c : Except IoError Bytes}
    (hscan : scanCopy strategy valid acc c = .ok acc') : acc'.Of strategy valid (copies ++ [c]) := by
  have hgood := fun buf hb => (h.good buf hb).imp_left (List.mem_append_left [c])
  have hstale := fun buf hb => (h.stale buf hb).imp_left (List.mem_append_left [c])
  have hcorrupt := fun buf hb => (h.corrupt buf hb).imp_left (List.mem_append_left [c])
  cases c with
  | error e =>
      cases hscan
      refine ⟨hgood, hstale, hcorrupt, fun buf hb => h.seen buf ?_⟩
      simpa using hb
  | ok new =>
      have hnew : Except.ok new ∈ copies ++ [(.ok new : Except IoError Bytes)] :=
        List.mem_append_right _ (List.mem_singleton_self _)
      have hsplit : ∀ buf, Except.ok buf ∈ copies ++ [(.ok new : Except IoError Bytes)] →
          Except.ok buf ∈ copies ∨ buf = new := by
        intro buf hb
        simpa using hb
      unfold scanCopy at hscan
      by_cases hverify : strategy.verifyNodeHeader new = true
      case neg =>
        have hbad : strategy.verifyNodeHeader new = false := Bool.eq_false_iff.mpr hverify
        simp only [hbad, Bool.not_false, if_true, Except.ok.injEq] at hscan
        subst hscan
        refine ⟨hgood, hstale, fun buf hb => ?_, fun buf hb => ?_⟩
        · rcases or_some_eq hb with hold | rfl
          · exact hcorrupt buf hold
          · exact ⟨hnew, hbad⟩
        · rcases hsplit buf hb with hold | rfl
          · rcases h.seen buf hold with hs | hs | ⟨hv, _⟩
            · exact .inl hs
            · exact .inr (.inl hs)
            · exact .inr (.inr ⟨hv, isSome_or_some _ _⟩)
          · exact .inr (.inr ⟨hbad, isSome_or_some _ _⟩)
      case pos =>
        simp only [hverify, Bool.not_true, Bool.false_eq_true, if_false, bind, Except.bind] at hscan
        cases hparse : Header.parse new with
        | error e => rw [hparse] at hscan; cases hscan
        | ok hdr =>
            rw [hparse] at hscan
            dsimp only at hscan
            cases hvalid : valid hdr with
            | false =>
                simp only [hvalid, Bool.not_false, if_true, pure, Except.pure,
                  Except.ok.injEq] at hscan
                subst hscan
                have hkind : Verified strategy valid false new := ⟨hverify, hdr, hparse, hvalid⟩
                refine ⟨hgood, fun buf hb => ?_, hcorrupt, fun buf hb => ?_⟩
                · rcases or_some_eq hb with hold | rfl
                  · exact hstale buf hold
                  · exact ⟨hnew, hkind⟩
                · rcases hsplit buf hb with hold | rfl
                  · rcases h.seen buf hold with hs | ⟨hv, _⟩ | hs
                    · exact .inl hs
                    · exact .inr (.inl ⟨hv, isSome_or_some _ _⟩)
                    · exact .inr (.inr hs)
                  · exact .inr (.inl ⟨hkind, isSome_or_some _ _⟩)
            | true =>
                simp only [hvalid, Bool.not_true, Bool.false_eq_true, if_false, pure, Except.pure,
                  Except.ok.injEq] at hscan
                subst hscan
                have hkind : Verified strategy valid true new := ⟨hverify, hdr, hparse, hvalid⟩
                refine ⟨fun buf hb => ?_, hstale, hcorrupt, fun buf hb => ?_⟩
                · rcases or_some_eq hb with hold | rfl
                  · exact hgood buf hold
                  · exact ⟨hnew, hkind⟩
                · rcases hsplit buf hb with hold | rfl
                  · rcases h.seen buf hold with ⟨hv, _⟩ | hs | hs
                    · exact .inl ⟨hv, isSome_or_some _ _⟩
                    · exact .inr (.inl hs)
                    · exact .inr (.inr hs)
                  · exact .inl ⟨hkind, isSome_or_some _ _⟩

theorem Copies.Of.scanAll {seen copies : List (Except IoError Bytes)} {acc acc' : Copies}
    (h : acc.Of strategy valid seen)
    (hscan : copies.foldlM (scanCopy strategy valid) acc = .ok acc') :
    acc'.Of strategy valid (seen ++ copies) := by
  induction copies generalizing seen acc with
  | nil =>
      cases hscan
      rw [List.append_nil]
      exact h
  | cons c copies ih =>
      rw [List.foldlM_cons] at hscan
      cases hc : scanCopy strategy valid acc c with
      | error e => rw [hc] at hscan; cases hscan
      | ok acc₁ =>
          rw [hc] at hscan
          have hrest := ih (h.scan hc) hscan
          rw [List.append_assoc] at hrest
          exact hrest

/-- What a node read says of the copies it was made from. -/
def ReadFrom (strategy : CsumStrategy) (valid : Header → Bool)
    (copies : List (Except IoError Bytes)) : Except IoError ReadNodeResult → Prop
  | .error _ => ∀ buf, .ok buf ∉ copies
  | .ok res =>
      if res.allMirrorsFailed then ∀ buf, .ok buf ∈ copies → strategy.verifyNodeHeader buf = false
      else (∃ buf node, .ok buf ∈ copies ∧ Verified strategy valid (!res.generationMismatch) buf ∧
          Node.parse buf = .ok node ∧ res.node = some node) ∧
        (res.generationMismatch = true → ∀ buf, .ok buf ∈ copies →
          ¬Verified strategy valid true buf)

theorem Verified.exclusive {b b' : Bool} {buf : Bytes} (h : Verified strategy valid b buf)
    (h' : Verified strategy valid b' buf) : b = b' := by
  obtain ⟨_, hdr, hparse, hvalid⟩ := h
  obtain ⟨_, hdr', hparse', hvalid'⟩ := h'
  rw [hparse] at hparse'
  cases hparse'
  rw [← hvalid, hvalid']

theorem selectCopy_readFrom {copies : List (Except IoError Bytes)} {acc : Copies}
    (h : acc.Of strategy valid copies) {mirrors : Nat} {got : Except IoError ReadNodeResult}
    (hselect : selectCopy strategy mirrors acc = .ok got) :
    ReadFrom strategy valid copies got := by
  unfold selectCopy at hselect
  cases hgood : acc.good with
  | some buf =>
      obtain ⟨hmem, hver⟩ := h.good buf hgood
      simp only [hgood, Option.some_or, hver.1, Bool.not_true, Bool.false_eq_true, if_false,
        Option.isNone_some, Bool.false_and, bind, Except.bind] at hselect
      cases hnode : Node.parse buf with
      | error e => rw [hnode] at hselect; cases hselect
      | ok node =>
          rw [hnode] at hselect
          cases hselect
          exact ⟨⟨buf, node, hmem, hver, hnode, rfl⟩, fun hmis => nomatch hmis⟩
  | none =>
      have hnone : ∀ buf, .ok buf ∈ copies → ¬Verified strategy valid true buf := by
        intro buf hbuf hver
        rcases h.seen buf hbuf with ⟨_, hs⟩ | ⟨hv, _⟩ | ⟨hv, _⟩
        · rw [hgood] at hs
          cases hs
        · cases hv.exclusive hver
        · rw [hver.1] at hv
          cases hv
      cases hstale : acc.stale with
      | some buf =>
          obtain ⟨hmem, hver⟩ := h.stale buf hstale
          simp only [hgood, hstale, Option.none_or, Option.some_or, hver.1, Bool.not_true,
            Bool.false_eq_true, if_false, Option.isNone_none, Option.isSome_some, Bool.true_and,
            bind, Except.bind] at hselect
          cases hnode : Node.parse buf with
          | error e => rw [hnode] at hselect; cases hselect
          | ok node =>
              rw [hnode] at hselect
              cases hselect
              exact ⟨⟨buf, node, hmem, hver, hnode, rfl⟩, fun _ => hnone⟩
      | none =>
          have hcorrupt : ∀ buf, .ok buf ∈ copies →
              strategy.verifyNodeHeader buf = false ∧ acc.corrupt.isSome = true := by
            intro buf hbuf
            rcases h.seen buf hbuf with ⟨_, hs⟩ | ⟨_, hs⟩ | hs
            · rw [hgood] at hs
              cases hs
            · rw [hstale] at hs
              cases hs
            · exact hs
          cases hcor : acc.corrupt with
          | none =>
              simp only [hgood, hstale, hcor, Option.none_or, Except.ok.injEq] at hselect
              subst hselect
              intro buf hbuf
              have hsome := (hcorrupt buf hbuf).2
              rw [hcor] at hsome
              cases hsome
          | some buf =>
              simp only [hgood, hstale, hcor, Option.none_or, (h.corrupt buf hcor).2,
                Bool.not_false, if_true, Except.ok.injEq] at hselect
              subst hselect
              exact fun buf' hbuf' => (hcorrupt buf' hbuf').1

/-- A scan over copies that all parse does not fail. -/
theorem scanAll_ok {copies : List (Except IoError Bytes)}
    (h : ∀ buf, .ok buf ∈ copies → ∃ hdr, Header.parse buf = .ok hdr) (acc : Copies) :
    ∃ acc', copies.foldlM (scanCopy strategy valid) acc = .ok acc' := by
  induction copies generalizing acc with
  | nil => exact ⟨acc, rfl⟩
  | cons c copies ih =>
      have hscan : ∃ acc₁, scanCopy strategy valid acc c = .ok acc₁ := by
        cases c with
        | error e => exact ⟨acc, rfl⟩
        | ok buf =>
            obtain ⟨hdr, hparse⟩ := h buf List.mem_cons_self
            unfold scanCopy
            simp only [hparse, bind, Except.bind, pure, Except.pure]
            split
            · exact ⟨_, rfl⟩
            · split <;> exact ⟨_, rfl⟩
      obtain ⟨acc₁, hacc₁⟩ := hscan
      rw [List.foldlM_cons, hacc₁]
      exact ih (fun buf hbuf => h buf (List.mem_cons_of_mem c hbuf)) acc₁

end Scan

section Image
variable {image : Image} {config : ReaderConfig} {strategy : CsumStrategy} {chunkMap : ChunkMap}
  {logical gen : UInt64} {level : Option UInt8} {owner : Option UInt64}

theorem readNode_readFrom (hstrategy : config.strategy = some strategy)
    {got : Except IoError ReadNodeResult}
    (h : (image.reader config).readNode chunkMap logical gen level owner = .ok got) :
    ReadFrom strategy (fun hdr => config.validateHeader hdr logical gen level owner)
      (copiesOf image config chunkMap logical) got := by
  rw [readNode_eq hstrategy] at h
  cases hscan : (copiesOf image config chunkMap logical).foldlM
      (scanCopy strategy fun hdr => config.validateHeader hdr logical gen level owner)
        Copies.none with
  | error e => rw [hscan] at h; cases h
  | ok acc =>
      rw [hscan] at h
      exact selectCopy_readFrom (Copies.Of.none.scanAll hscan) h

/-- A read of a node whose readable copies all parse returns. -/
theorem readNode_returns (hstrategy : config.strategy = some strategy)
    (h : ∀ buf, .ok buf ∈ copiesOf image config chunkMap logical →
      (∃ hdr, Header.parse buf = .ok hdr) ∧ ∃ node, Node.parse buf = .ok node) :
    ∃ got, (image.reader config).readNode chunkMap logical gen level owner = .ok got := by
  obtain ⟨acc, hacc⟩ : ∃ acc, (copiesOf image config chunkMap logical).foldlM
      (scanCopy strategy fun hdr => config.validateHeader hdr logical gen level owner)
        Copies.none = .ok acc := scanAll_ok (fun buf hbuf => (h buf hbuf).1) Copies.none
  have hof := Copies.Of.none.scanAll hacc
  have hparse : ∀ buf, (acc.good.or acc.stale).or acc.corrupt = some buf →
      ∃ node, Node.parse buf = .ok node := by
    intro buf hbuf
    have hmem : .ok buf ∈ [] ++ copiesOf image config chunkMap logical := by
      rcases Option.or_eq_some_iff.mp hbuf with hbuf | ⟨_, hbuf⟩
      · rcases Option.or_eq_some_iff.mp hbuf with hbuf | ⟨_, hbuf⟩
        · exact (hof.good buf hbuf).1
        · exact (hof.stale buf hbuf).1
      · exact (hof.corrupt buf hbuf).1
    exact (h buf hmem).2
  rw [readNode_eq hstrategy, hacc]
  dsimp only [Except.bind]
  unfold selectCopy
  cases hbest : (acc.good.or acc.stale).or acc.corrupt with
  | none => exact ⟨_, rfl⟩
  | some buf =>
      obtain ⟨node, hnode⟩ := hparse buf hbest
      dsimp only
      split
      · exact ⟨_, rfl⟩
      · rw [hnode]
        exact ⟨_, rfl⟩

/-- A node with a readable copy, all of whose readable copies verify, parse and are of one
validity, is read with that flag. -/
theorem readNode_uniform (hstrategy : config.strategy = some strategy) (gen : UInt64)
    (level : Option UInt8) (owner : Option UInt64) {isValid : Bool}
    (hreadable : ∃ buf, .ok buf ∈ copiesOf image config chunkMap logical)
    (h : ∀ buf, .ok buf ∈ copiesOf image config chunkMap logical →
      Verified strategy (fun hdr => config.validateHeader hdr logical gen level owner) isValid buf ∧
        ∃ node, Node.parse buf = .ok node) :
    ∃ res buf node, (image.reader config).readNode chunkMap logical gen level owner =
        .ok (.ok res) ∧ res.allMirrorsFailed = false ∧ res.generationMismatch = !isValid ∧
      .ok buf ∈ copiesOf image config chunkMap logical ∧ Node.parse buf = .ok node ∧
      res.node = some node := by
  obtain ⟨got, hgot⟩ : ∃ got, (image.reader config).readNode chunkMap logical gen level owner =
      .ok got := by
    apply readNode_returns hstrategy
    intro buf hbuf
    obtain ⟨⟨_, hdr, hhdr, _⟩, hnode⟩ := h buf hbuf
    exact ⟨⟨hdr, hhdr⟩, hnode⟩
  have hfrom := readNode_readFrom hstrategy hgot
  obtain ⟨first, hfirst⟩ := hreadable
  cases got with
  | error e => exact absurd hfirst (hfrom first)
  | ok res =>
      unfold ReadFrom at hfrom
      dsimp only at hfrom
      cases hfailed : res.allMirrorsFailed with
      | true =>
          rw [if_pos hfailed] at hfrom
          have hbad := hfrom first hfirst
          rw [(h first hfirst).1.1] at hbad
          cases hbad
      | false =>
          rw [if_neg (by rw [hfailed]; exact Bool.false_ne_true)] at hfrom
          obtain ⟨⟨buf, node, hmem, hver, hparse, hnode⟩, _⟩ := hfrom
          have hkind := (h buf hmem).1.exclusive hver
          exact ⟨res, buf, node, hgot, hfailed, by rw [hkind, Bool.not_not], hmem, hparse, hnode⟩

end Image
end Rotshield.Btrfs
