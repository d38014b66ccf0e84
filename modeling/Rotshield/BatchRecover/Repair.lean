import Rotshield.BatchRecover.DryRun

/-! What a repair run leaves on the disks, and that a second run changes nothing. -/
namespace Rotshield.BatchRecover
open Recovery (RecoveryResult)

/-- The bytes of the candidate's sector. -/
def Candidate.sector (c : Candidate) (args : WriterArgs) (d : Disks) : Vector UInt8 c.blockSize :=
  Vector.ofFn fun i => d.byte c.failingDev (c.rawStart args + i)

/-- The candidates: sectors of the failing device that are equal or do not overlap, where one
verifier goes with a sector. -/
structure Reports (s : Surroundings) (args : WriterArgs) (dev : Path) (all : List Candidate) :
    Prop where
  onDevice : ∀ c ∈ all, OnDevice s args dev c
  apart : ∀ c ∈ all, ∀ c' ∈ all,
    c.Apart c' ∨ c.arrayPhys = c'.arrayPhys ∧ c.blockSize = c'.blockSize
  verify : ∀ c ∈ all, ∀ c' ∈ all, c.arrayPhys = c'.arrayPhys → c.verify = c'.verify

/-- Reports of one sector get one verdict and agree on whether it could be read. -/
def Agreed (s : Surroundings) (all : List Candidate) : Prop :=
  ∀ c ∈ all, ∀ c' ∈ all, c.arrayPhys = c'.arrayPhys →
    (c.reconfirm.map s.verdict).getD .corruption = (c'.reconfirm.map s.verdict).getD .corruption ∧
      c.unreadable = c'.unreadable

/-- The disks after a run of the writer. -/
def afterRun (s : Surroundings) (args : WriterArgs) (batches : List (List Candidate))
    (mount : Option Path) (d : Disks) : Disks :=
  ((runWriter s.env args (messages batches)).run (.start d mount none)).2.world

/-- The repair of a candidate would leave its sector as it is. -/
def Settled (s : Surroundings) (args : WriterArgs) (d : Disks) (c : Candidate) : Prop :=
  ∀ block unreadable via recovered, s.confirmed args d c = .corrupt block unreadable →
    s.rebuilt args d c block unreadable = .ok (some (.recovered via recovered)) →
      c.sector args d = recovered

section Settled
variable {s : Surroundings} {args : WriterArgs} {dev : Path} {d d' : Disks} {c : Candidate}

theorem failure_fixed (hfixed : s.heals = false) (d : Disks) : s.failure d = s.readError := by
  funext path offset len
  unfold Surroundings.failure
  rw [hfixed]
  rfl

theorem rebuilt_fixed (hfixed : s.heals = false)
    (hothers : Surroundings.Others args.cfg args.scrubSlot dev)
    (hbyte : ∀ path, path ≠ dev → d'.byte path = d.byte path)
    (block : Vector UInt8 c.blockSize) (unreadable : Bool) :
    s.rebuilt args d' c block unreadable = s.rebuilt args d c block unreadable := by
  unfold Surroundings.rebuilt
  rw [Surroundings.stripeAt_congr hothers fun path hpath =>
    ⟨hbyte path hpath, fun offset len => by rw [failure_fixed hfixed, failure_fixed hfixed]⟩]

/-- What is confirmed of a candidate depends on the bytes of its sector alone. -/
theorem confirmed_sector (hfixed : s.heals = false) (hon : OnDevice s args dev c)
    (hsector : c.sector args d' = c.sector args d) :
    s.confirmed args d' c = s.confirmed args d c := by
  have hread : s.readExact d' dev (c.rawStart args) c.blockSize =
      s.readExact d dev (c.rawStart args) c.blockSize := by
    unfold Candidate.sector at hsector
    rw [hon.failing] at hsector
    unfold Surroundings.readExact
    rw [failure_fixed hfixed, failure_fixed hfixed, hsector]
  unfold Surroundings.confirmed
  rw [hon.blockAt, hon.blockAt, hread]

theorem Settled.congr (h : Settled s args d c) (hfixed : s.heals = false)
    (hon : OnDevice s args dev c) (hothers : Surroundings.Others args.cfg args.scrubSlot dev)
    (hbyte : ∀ path, path ≠ dev → d'.byte path = d.byte path)
    (hsector : c.sector args d' = c.sector args d) : Settled s args d' c := by
  intro block unreadable via recovered hfound hanswer
  rw [confirmed_sector hfixed hon hsector] at hfound
  rw [rebuilt_fixed hfixed hothers hbyte] at hanswer
  rw [hsector]
  exact h block unreadable via recovered hfound hanswer

end Settled

/-! ### What a round changes -/

section Change
variable {s : Surroundings} {args : WriterArgs} {dev : Path} {c : Candidate}
  {w w' : WriterState Disks}

/-- A round that writes nothing: its candidate is settled. -/
structure Spared (s : Surroundings) (args : WriterArgs) (c : Candidate) (w w' : WriterState Disks) :
    Prop where
  byte : w'.world.byte = w.world.byte
  written : w'.world.written = w.world.written
  recovered : ∀ a, (a, .recovered) ∈ settlements w'.books.trace →
    (a, .recovered) ∈ settlements w.books.trace
  settled : Settled s args w.world c

/-- A round that writes what the engine recovered. -/
structure Repaired (s : Surroundings) (args : WriterArgs) (c : Candidate)
    (w w' : WriterState Disks) (recovered : Vector UInt8 c.blockSize) : Prop where
  byte : w'.world.byte = (w.world.write c.failingDev (c.rawStart args) recovered.toList).byte
  written : w'.world.written = (c.failingDev, c.rawStart args, c.blockSize) :: w.world.written
  counted : ∀ a o, (a, o) ∈ settlements w'.books.trace →
    (a, o) ∈ settlements w.books.trace ∨ a = c.arrayPhys
  accepted : c.verify recovered.toList = true
  answer : ∃ block unreadable via, s.confirmed args w.world c = .corrupt block unreadable ∧
    s.rebuilt args w.world c block unreadable = .ok (some (.recovered via recovered))

theorem settled_of_found {found : Confirmed c.blockSize} (h : s.confirmed args w.world c = found)
    (hnot : ∀ block unreadable, found ≠ .corrupt block unreadable) :
    Settled s args w.world c := by
  intro block unreadable via recovered hfound
  rw [h] at hfound
  exact absurd hfound (hnot block unreadable)

theorem settled_of_answer {block : Vector UInt8 c.blockSize} {unreadable : Bool}
    {answer : Option (RecoveryResult c.blockSize)}
    (h : s.confirmed args w.world c = .corrupt block unreadable)
    (hanswer : s.rebuilt args w.world c block unreadable = .ok answer)
    (hnot : ∀ via recovered, answer ≠ some (.recovered via recovered)) :
    Settled s args w.world c := by
  intro block' unreadable' via recovered hfound hrecovered
  rw [h] at hfound
  cases hfound
  rw [hanswer] at hrecovered
  cases hrecovered
  exact absurd rfl (hnot via recovered)

theorem Quiet.spared {w₁ : WriterState Disks} {outcome : Outcome} (ho : outcome ≠ .recovered)
    (hends : Quiet (entered w (·.classify c.arrayPhys .mismatch)) w₁)
    (hquiet : Quiet (entered w₁ (·.settle c.arrayPhys outcome)) w')
    (hsettled : Settled s args w.world c) : Spared s args c w w' where
  byte := hquiet.byte.trans hends.byte
  written := hquiet.written.trans hends.written
  recovered a ha := by
    rw [hquiet.settled] at ha
    cases ha with
    | head => exact absurd rfl ho
    | tail _ ha =>
        change (a, .recovered) ∈ settlements w₁.books.trace at ha
        rw [hends.settled] at ha
        exact ha
  settled := hsettled

theorem RoundEnds.change (hrepair : args.dryRun = false) (h : RoundEnds s args c w w') :
    Spared s args c w w' ∨ ∃ recovered, Repaired s args c w w' recovered := by
  cases h with
  | stale found quiet =>
      refine .inl ⟨quiet.byte, quiet.written, fun a ha => ?_, settled_of_found found nofun⟩
      rwa [quiet.settled] at ha
  | skipped found quiet =>
      refine .inl ⟨quiet.byte, quiet.written, fun a ha => ?_, settled_of_found found nofun⟩
      rwa [quiet.settled] at ha
  | @mismatch w₁ block unreadable outcome found ends quiet =>
      cases ends with
      | ungathered answer hends =>
          exact .inl (hends.spared (by decide) quiet (settled_of_answer found answer nofun))
      | failed answer hends =>
          exact .inl (hends.spared (by decide) quiet (settled_of_answer found answer nofun))
      | notCorrupt answer hends =>
          exact .inl (hends.spared (by decide) quiet (settled_of_answer found answer nofun))
      | rehearsed answer dry =>
          rw [hrepair] at dry
          cases dry
      | @written _ via recovered _ answer _ accepted _ _ hends =>
          refine .inr ⟨recovered, quiet.byte.trans hends.byte, ?_, fun a o ha => ?_, accepted,
            block, unreadable, via, found, answer⟩
          · rw [quiet.written]
            change w₁.world.written = _
            rw [hends.written]
            change (_, _, recovered.toList.length) :: _ = _
            rw [Vector.length_toList]
            rfl
          · rw [quiet.settled] at ha
            cases ha with
            | head => exact .inr rfl
            | tail _ ha =>
                change (a, o) ∈ settlements w₁.books.trace at ha
                rw [hends.settled] at ha
                exact .inl ha

/-- The repaired sector holds what was recovered. -/
theorem Repaired.sector {recovered : Vector UInt8 c.blockSize}
    (h : Repaired s args c w w' recovered) : c.sector args w'.world = recovered := by
  unfold Candidate.sector
  rw [h.byte]
  ext i hi
  rw [Vector.getElem_ofFn, Disks.write_inside w.world c.failingDev (by simpa using hi)]
  simp

/-- After its round a candidate is settled: it reads what was accepted, or the engine gets the
same input again. -/
theorem Repaired.settled {recovered : Vector UInt8 c.blockSize} (hfixed : s.heals = false)
    (hon : OnDevice s args dev c) (hothers : Surroundings.Others args.cfg args.scrubSlot dev)
    (h : Repaired s args c w w' recovered) : Settled s args w'.world c := by
  obtain ⟨block, unreadable, via, hfound, hanswer⟩ := h.answer
  have hothersEq : ∀ path, path ≠ dev → w'.world.byte path = w.world.byte path := by
    intro path hpath
    rw [h.byte, hon.failing]
    exact Disks.write_other _ hpath _ _
  intro block' unreadable' via' recovered' hfound' hanswer'
  rw [rebuilt_fixed hfixed hothers hothersEq] at hanswer'
  have hsame : s.confirmed args w'.world c = .stale ∨
      s.confirmed args w'.world c = .corrupt block unreadable := by
    unfold Surroundings.confirmed at hfound ⊢
    cases hverdict : (c.reconfirm.map s.verdict).getD .corruption with
    | stale =>
        rw [hverdict] at hfound
        cases hfound
    | unverifiable =>
        rw [hverdict] at hfound
        cases hfound
    | corruption =>
        rw [hverdict] at hfound
        dsimp only at hfound ⊢
        cases hflag : c.unreadable with
        | true =>
            rw [hflag] at hfound
            exact .inr hfound
        | false =>
            rw [hflag] at hfound
            rw [if_neg Bool.false_ne_true] at hfound ⊢
            have hsector := h.sector
            unfold Candidate.sector at hsector
            rw [hon.failing] at hsector
            rw [hon.blockAt] at hfound ⊢
            unfold Surroundings.readExact at hfound ⊢
            rw [failure_fixed hfixed] at hfound ⊢
            cases hread : s.readError dev (c.rawStart args) c.blockSize with
            | some e =>
                rw [hread] at hfound
                exact .inr hfound
            | none =>
                dsimp only
                rw [hsector, if_pos h.accepted]
                exact .inl rfl
  rcases hsame with hsame | hsame
  · rw [hsame] at hfound'
    cases hfound'
  · rw [hsame] at hfound'
    cases hfound'
    rw [hanswer] at hanswer'
    cases hanswer'
    exact h.sector

end Change

/-! ### The invariant of a repair run -/

section Twins
variable {s : Surroundings} {args : WriterArgs} {dev : Path} {all : List Candidate}
  {c c' : Candidate} {d : Disks}

theorem sector_toList (hdev : c.failingDev = c'.failingDev) (harray : c.arrayPhys = c'.arrayPhys)
    (hsize : c.blockSize = c'.blockSize) (d : Disks) :
    (c.sector args d).toList = (c'.sector args d).toList := by
  obtain ⟨a, n, v, r, f, q, u⟩ := c
  obtain ⟨a', n', v', r', f', q', u'⟩ := c'
  cases hdev
  cases harray
  cases hsize
  rfl

/-- What a repair would do depends on the sector, the verifier, the verdict and the flag. -/
theorem Settled.twin (h : Settled s args d c) (hdev : c.failingDev = c'.failingDev)
    (harray : c.arrayPhys = c'.arrayPhys) (hsize : c.blockSize = c'.blockSize)
    (hverify : c.verify = c'.verify) (hflag : c.unreadable = c'.unreadable)
    (hverdict : (c.reconfirm.map s.verdict).getD .corruption =
      (c'.reconfirm.map s.verdict).getD .corruption) : Settled s args d c' := by
  obtain ⟨a, n, v, r, f, q, u⟩ := c
  obtain ⟨a', n', v', r', f', q', u'⟩ := c'
  cases hdev
  cases harray
  cases hsize
  cases hverify
  cases hflag
  unfold Settled Surroundings.confirmed Surroundings.rebuilt at h ⊢
  dsimp only at h hverdict ⊢
  rw [hverdict] at h
  -- The two matches carry their candidate along, so each is reduced before they are compared.
  revert h
  cases (q'.map s.verdict).getD .corruption with
  | stale => exact fun _ _ _ _ _ hfound => (by cases hfound)
  | unverifiable => exact fun _ _ _ _ _ hfound => (by cases hfound)
  | corruption =>
      cases s.stripeAt d args.cfg args.scrubSlot a n with
      | error e => exact fun _ _ _ _ _ _ hanswer => (by cases hanswer)
      | ok chunks =>
          cases u with
          | true => exact id
          | false =>
              cases s.blockAt d args.cfg f a n with
              | error e => exact id
              | ok block => exact id

theorem sector_apart (hon : OnDevice s args dev c) (hon' : OnDevice s args dev c')
    (hapart : c.Apart c') (block : Vector UInt8 c'.blockSize) (d : Disks) :
    c.sector args (d.write c'.failingDev (c'.rawStart args) block.toList) = c.sector args d := by
  unfold Candidate.sector
  congr 1
  funext i
  rw [hon.failing, hon'.failing, Disks.write_outside d dev]
  have hi := i.isLt
  rw [hon.rawStart, hon'.rawStart, Vector.length_toList]
  unfold Candidate.Apart at hapart
  omega

end Twins

/-- What holds after the candidates taken up so far. -/
structure Mended (s : Surroundings) (args : WriterArgs) (dev : Path) (d₀ : Disks)
    (all done : List Candidate) (w : WriterState Disks) : Prop where
  others : ∀ path, path ≠ dev → w.world.byte path = d₀.byte path
  outside : ∀ i, (∀ r ∈ w.world.written, i < r.2.1 ∨ r.2.1 + r.2.2 ≤ i) →
    w.world.byte dev i = d₀.byte dev i
  written : ∀ r ∈ w.world.written, ∃ c ∈ all, r = (dev, c.rawStart args, c.blockSize)
  accepted : ∀ c ∈ all, (dev, c.rawStart args, c.blockSize) ∈ w.world.written →
    c.verify (c.sector args w.world).toList = true
  counted : ∀ a, (a, .recovered) ∈ settlements w.books.trace →
    ∃ c ∈ all, c.arrayPhys = a ∧ (dev, c.rawStart args, c.blockSize) ∈ w.world.written
  settled : Agreed s all → ∀ c ∈ done, Settled s args w.world c

section Mended
variable {s : Surroundings} {args : WriterArgs} {dev : Path} {d₀ : Disks}
  {all done : List Candidate} {c : Candidate} {w w' : WriterState Disks}

theorem Mended.still (hfixed : s.heals = false) (hreports : Reports s args dev all)
    (hothers : Surroundings.Others args.cfg args.scrubSlot dev) (hdone : ∀ c ∈ done, c ∈ all)
    (h : Mended s args dev d₀ all done w) (hbyte : w'.world.byte = w.world.byte)
    (hwritten : w'.world.written = w.world.written)
    (hcounted : ∀ a, (a, .recovered) ∈ settlements w'.books.trace →
      (a, .recovered) ∈ settlements w.books.trace) : Mended s args dev d₀ all done w' where
  others := hbyte ▸ h.others
  outside := by
    rw [hbyte, hwritten]
    exact h.outside
  written := hwritten ▸ h.written
  accepted c hc hmem := by
    have hsector : c.sector args w'.world = c.sector args w.world := by
      unfold Candidate.sector
      rw [hbyte]
    rw [hsector]
    exact h.accepted c hc (hwritten ▸ hmem)
  counted a ha := by
    rw [hwritten]
    exact h.counted a (hcounted a ha)
  settled hagreed c hc := by
    apply (h.settled hagreed c hc).congr hfixed (hreports.onDevice c (hdone c hc)) hothers
    · intro path _
      rw [hbyte]
    · unfold Candidate.sector
      rw [hbyte]

theorem Mended.spared (hfixed : s.heals = false) (hreports : Reports s args dev all)
    (hothers : Surroundings.Others args.cfg args.scrubSlot dev) (hdone : ∀ c ∈ done, c ∈ all)
    (hc : c ∈ all) (h : Mended s args dev d₀ all done w) (hround : Spared s args c w w') :
    Mended s args dev d₀ all (done ++ [c]) w' := by
  refine { h.still hfixed hreports hothers hdone hround.byte hround.written hround.recovered with
    settled := fun hagreed c' hc' => ?_ }
  have hold : Settled s args w.world c' := by
    rcases List.mem_append.mp hc' with hc' | hc'
    · exact h.settled hagreed c' hc'
    · rw [List.mem_singleton.mp hc']
      exact hround.settled
  have hin : c' ∈ all := by
    rcases List.mem_append.mp hc' with hc' | hc'
    · exact hdone c' hc'
    · rw [List.mem_singleton.mp hc']
      exact hc
  apply hold.congr hfixed (hreports.onDevice c' hin) hothers
  · intro path _
    rw [hround.byte]
  · unfold Candidate.sector
    rw [hround.byte]

theorem Mended.repaired (hfixed : s.heals = false) (hreports : Reports s args dev all)
    (hothers : Surroundings.Others args.cfg args.scrubSlot dev) (hdone : ∀ c ∈ done, c ∈ all)
    (hc : c ∈ all) (h : Mended s args dev d₀ all done w) {recovered : Vector UInt8 c.blockSize}
    (hround : Repaired s args c w w' recovered) : Mended s args dev d₀ all (done ++ [c]) w' := by
  have hon := hreports.onDevice c hc
  have hbyte : ∀ path, path ≠ dev → w'.world.byte path = w.world.byte path := by
    intro path hpath
    rw [hround.byte, hon.failing]
    exact Disks.write_other _ hpath _ _
  have hapart : ∀ c' ∈ all, c'.Apart c → c'.sector args w'.world = c'.sector args w.world := by
    intro c' hc' hapart
    rw [← sector_apart (hreports.onDevice c' hc') hon hapart recovered w.world]
    unfold Candidate.sector
    rw [hround.byte]
  have hrange : ∀ r ∈ w'.world.written,
      r = (dev, c.rawStart args, c.blockSize) ∨ r ∈ w.world.written := by
    intro r hr
    rw [hround.written, hon.failing] at hr
    exact List.mem_cons.mp hr
  have hnew : (dev, c.rawStart args, c.blockSize) ∈ w'.world.written := by
    rw [hround.written, hon.failing]
    exact List.mem_cons_self
  have hkept : ∀ r ∈ w.world.written, r ∈ w'.world.written := by
    intro r hr
    rw [hround.written]
    exact List.mem_cons_of_mem _ hr
  constructor
  · intro path hpath
    rw [hbyte path hpath]
    exact h.others path hpath
  · intro i hi
    rw [hround.byte, hon.failing, Disks.write_outside]
    · exact h.outside i fun r hr => hi r (hkept r hr)
    · rw [Vector.length_toList]
      exact hi _ hnew
  · intro r hr
    rcases hrange r hr with rfl | hr
    · exact ⟨c, hc, rfl⟩
    · exact h.written r hr
  · intro c' hc' hmem
    rcases hreports.apart c' hc' c hc with hdisjoint | ⟨harray, hsize⟩
    · rw [hapart c' hc' hdisjoint]
      apply h.accepted c' hc'
      rcases hrange _ hmem with heq | hmem
      · obtain ⟨hstart, -⟩ := Prod.mk.inj (Prod.mk.inj heq).2
        have hon' := hreports.onDevice c' hc'
        have hpos := hon.nonempty
        have hpos' := hon'.nonempty
        rw [hon.rawStart, hon'.rawStart] at hstart
        unfold Candidate.Apart at hdisjoint
        omega
      · exact hmem
    · have hdevs := (hreports.onDevice c' hc').failing.trans hon.failing.symm
      rw [hreports.verify c' hc' c hc harray, sector_toList hdevs harray hsize, hround.sector]
      exact hround.accepted
  · intro a ha
    rcases hround.counted a _ ha with hold | rfl
    · obtain ⟨c', hc', heq, hmem⟩ := h.counted a hold
      exact ⟨c', hc', heq, hkept _ hmem⟩
    · exact ⟨c, hc, rfl, hnew⟩
  · intro hagreed c' hc'
    have hmine := hround.settled hfixed hon hothers
    rcases List.mem_append.mp hc' with hc' | hc'
    · have hin := hdone c' hc'
      rcases hreports.apart c' hin c hc with hdisjoint | ⟨harray, hsize⟩
      · exact (h.settled hagreed c' hc').congr hfixed (hreports.onDevice c' hin) hothers hbyte
          (hapart c' hin hdisjoint)
      · obtain ⟨hverdict, hflag⟩ := hagreed c hc c' hin harray.symm
        exact hmine.twin (hon.failing.trans (hreports.onDevice c' hin).failing.symm) harray.symm
          hsize.symm (hreports.verify c hc c' hin harray.symm) hflag hverdict
    · rw [List.mem_singleton.mp hc']
      exact hmine

theorem mended_keeps (hfixed : s.heals = false) (hrepair : args.dryRun = false)
    (hreports : Reports s args dev all)
    (hothers : Surroundings.Others args.cfg args.scrubSlot dev) :
    Keeps s args all
      (fun done w => (∀ c ∈ done, c ∈ all) ∧ Mended s args dev d₀ all done w)
      (fun _ w => ∃ done, Mended s args dev d₀ all done w) where
  still h hstill := by
    refine ⟨h.1, h.2.still hfixed hreports hothers h.1 hstill.byte hstill.written fun a ha => ?_⟩
    rwa [hstill.settled] at ha
  dedup _ h := ⟨h.1, h.2.still hfixed hreports hothers h.1 rfl rfl fun _ ha => ha⟩
  round hpart h hends := by
    have hc := hpart.subset (List.mem_append_right _ List.mem_cons_self)
    refine ⟨fun c' hc' => hpart.subset hc', ?_⟩
    rcases hends.change hrepair with hspared | ⟨recovered, hrepaired⟩
    · exact h.2.spared hfixed hreports hothers h.1 hc hspared
    · exact h.2.repaired hfixed hreports hothers h.1 hc hrepaired
  halt _ h _ hquiet := by
    refine ⟨_, h.2.still hfixed hreports hothers h.1 hquiet.byte hquiet.written fun a ha => ?_⟩
    rwa [hquiet.settled] at ha
  thawFails h _ := ⟨_, h.2⟩

/-! ### A second run -/

/-- A write of the bytes that are there changes none. -/
theorem write_sector {d : Disks} {block : Vector UInt8 c.blockSize}
    (h : c.sector args d = block) :
    (d.write c.failingDev (c.rawStart args) block.toList).byte = d.byte := by
  subst h
  funext path i
  by_cases hin : path = c.failingDev ∧ c.rawStart args ≤ i ∧ i < c.rawStart args + c.blockSize
  · obtain ⟨rfl, hlow, hhigh⟩ := hin
    have hoffset : i = c.rawStart args + (i - c.rawStart args) := by omega
    have hlen : i - c.rawStart args < (c.sector args d).toList.length := by
      rw [Vector.length_toList]
      omega
    rw [hoffset, Disks.write_inside d c.failingDev hlen]
    simp [Candidate.sector]
  · apply if_neg
    rwa [Vector.length_toList]

theorem settled_keeps {d₁ : Disks} (hfixed : s.heals = false) (hrepair : args.dryRun = false)
    (honDevice : ∀ c ∈ all, OnDevice s args dev c)
    (hothers : Surroundings.Others args.cfg args.scrubSlot dev)
    (hsettled : ∀ c ∈ all, Settled s args d₁ c) :
    Keeps s args all (fun _ w => w.world.byte = d₁.byte) (fun _ w => w.world.byte = d₁.byte) where
  still h hstill := hstill.byte.trans h
  dedup _ h := h
  round hpart h hends := by
    rcases hends.change hrepair with hspared | ⟨recovered, hrepaired⟩
    · exact hspared.byte.trans h
    · have hc := hpart.subset (List.mem_append_right _ List.mem_cons_self)
      obtain ⟨block, unreadable, via, hfound, hanswer⟩ := hrepaired.answer
      have hnow := (hsettled _ hc).congr hfixed (honDevice _ hc) hothers
        (fun path _ => congrFun h path) (by unfold Candidate.sector; rw [h])
      rw [hrepaired.byte, write_sector (hnow block unreadable via recovered hfound hanswer)]
      exact h
  halt _ h _ hquiet := hquiet.byte.trans h
  thawFails h _ := h

end Mended

/-- Another time: another clock, other outcomes of thaws and cache drops. -/
def Surroundings.later (s : Surroundings) (clock : Nat → Nat)
    (thaw dropCache : Nat → Except IoError Unit) : Surroundings :=
  { s with clock, thaw, dropCache }

theorem Settled.later {s : Surroundings} {args : WriterArgs} {d : Disks} {c : Candidate}
    (h : Settled s args d c) (clock : Nat → Nat) (thaw dropCache : Nat → Except IoError Unit) :
    Settled (s.later clock thaw dropCache) args d c := by
  intro block unreadable via recovered hfound hanswer
  exact h block unreadable via recovered hfound hanswer

/-- What a repair run leaves on the disks. -/
structure PostState (args : WriterArgs) (dev : Path) (d₀ : Disks) (all : List Candidate)
    (w : WriterState Disks) : Prop where
  recovered : ∀ c ∈ all, (c.arrayPhys, .recovered) ∈ settlements w.books.trace →
    c.verify (c.sector args w.world).toList = true
  others : ∀ path, path ≠ dev → w.world.byte path = d₀.byte path
  written : ∀ r ∈ w.world.written, ∃ c ∈ all, r = (dev, c.rawStart args, c.blockSize)
  outside : ∀ i, (∀ r ∈ w.world.written, i < r.2.1 ∨ r.2.1 + r.2.2 ≤ i) →
    w.world.byte dev i = d₀.byte dev i

theorem Mended.postState {s : Surroundings} {args : WriterArgs} {dev : Path} {d₀ : Disks}
    {all done : List Candidate} {w : WriterState Disks} (h : Mended s args dev d₀ all done w)
    (hreports : Reports s args dev all) : PostState args dev d₀ all w where
  recovered c hc ha := by
    obtain ⟨c', hc', heq, hmem⟩ := h.counted c.arrayPhys ha
    have hon := hreports.onDevice c hc
    have hon' := hreports.onDevice c' hc'
    rcases hreports.apart c hc c' hc' with hapart | ⟨harray, hsize⟩
    · have hpos := hon.nonempty
      have hpos' := hon'.nonempty
      unfold Candidate.Apart at hapart
      omega
    · rw [hreports.verify c hc c' hc' harray,
        sector_toList (hon.failing.trans hon'.failing.symm) harray hsize]
      exact h.accepted c' hc' hmem
  others := h.others
  written := h.written
  outside := h.outside

/-- A repair run leaves good sectors and nothing else changed; where reports of one sector agree,
a second run over the same candidates leaves every byte as it is. -/
theorem repair_idempotent (s : Surroundings) (hfixed : s.heals = false) (args : WriterArgs)
    (hrepair : args.dryRun = false) (dev : Path) (d₀ : Disks) (hfresh : d₀.written = [])
    (hdev : args.cfg.dataDev args.scrubSlot = some dev) (hdistinct : (devices args.cfg).Nodup)
    (batches : List (List Candidate)) (hreports : Reports s args dev batches.flatten)
    (mount : Option Path) (counters : Option StatusCounters) {result : Except Stop BatchStats}
    {w : WriterState Disks} (hrun : (runWriter s.env args (messages batches)).run
      (.start d₀ mount counters) = (result, w)) :
    PostState args dev d₀ batches.flatten w ∧
    ∀ stats, result = .ok stats → Agreed s batches.flatten →
      ∀ again mount' clock thaw dropCache, again.flatten.Perm batches.flatten →
        (afterRun (s.later clock thaw dropCache) args again mount' w.world).byte =
          w.world.byte := by
  have hothers := others_of_nodup hdev hdistinct
  have hstart : (∀ c ∈ ([] : List Candidate), c ∈ batches.flatten) ∧
      Mended s args dev d₀ batches.flatten [] (.start d₀ mount counters) := by
    refine ⟨nofun, ⟨fun _ _ => rfl, fun _ _ => rfl, fun r hr => ?_, fun c _ hr => ?_, nofun, nofun⟩⟩
    · change r ∈ d₀.written at hr
      rw [hfresh] at hr
      cases hr
    · change _ ∈ d₀.written at hr
      rw [hfresh] at hr
      cases hr
  have hend := (mended_keeps hfixed hrepair hreports hothers).run hstart
  rw [hrun] at hend
  cases result with
  | error e =>
      obtain ⟨w', ⟨done, hmended⟩, hstill⟩ := hend
      have hpost := hmended.postState hreports
      refine ⟨⟨?_, ?_, ?_, ?_⟩, nofun⟩
      · intro c hc ha
        rw [hstill.settled] at ha
        unfold Candidate.sector
        rw [hstill.byte]
        exact hpost.recovered c hc ha
      · rw [hstill.byte]
        exact hpost.others
      · rw [hstill.written]
        exact hpost.written
      · rw [hstill.byte, hstill.written]
        exact hpost.outside
  | ok stats =>
      obtain ⟨⟨done, hahead, hdone, hmended⟩, -⟩ := hend
      refine ⟨hmended.postState hreports, ?_⟩
      rintro - - hagreed again mount' clock thaw dropCache hperm
      have hsettled : ∀ c ∈ again.flatten, Settled (s.later clock thaw dropCache) args w.world c := by
        intro c hc
        have hin := hperm.mem_iff.mp hc
        obtain ⟨c', hc', heq⟩ := hahead.covers c hin
        have hin' := hdone c' hc'
        have hon := hreports.onDevice c hin
        have hon' := hreports.onDevice c' hin'
        have hsize : c'.blockSize = c.blockSize := by
          rcases hreports.apart c' hin' c hin with hapart | ⟨-, hsize⟩
          · have hpos := hon.nonempty
            have hpos' := hon'.nonempty
            unfold Candidate.Apart at hapart
            omega
          · exact hsize
        obtain ⟨hverdict, hflag⟩ := hagreed c' hin' c hin heq
        exact ((hmended.settled hagreed c' hc').twin (hon'.failing.trans hon.failing.symm) heq hsize
          (hreports.verify c' hin' c hin heq) hflag hverdict).later clock thaw dropCache
      have hfixed' : (s.later clock thaw dropCache).heals = false := hfixed
      have honDevice : ∀ c ∈ again.flatten, OnDevice (s.later clock thaw dropCache) args dev c := by
        intro c hc
        have hon := hreports.onDevice c (hperm.mem_iff.mp hc)
        exact ⟨hon.failing, hon.nonempty, hon.inside⟩
      have hkeeps := settled_keeps hfixed' hrepair honDevice hothers hsettled
      have hfrom : (WriterState.start w.world mount' none).world.byte = w.world.byte := rfl
      have hagain := hkeeps.run hfrom
      unfold afterRun
      rcases hsecond : (runWriter (s.later clock thaw dropCache).env args (messages again)).run
        (.start w.world mount' none) with ⟨e | stats, w'⟩
      · rw [hsecond] at hagain
        obtain ⟨w'', hbyte, hstill⟩ := hagain
        exact hstill.byte.trans hbyte
      · rw [hsecond] at hagain
        obtain ⟨⟨-, -, hbyte⟩, -⟩ := hagain
        exact hbyte

/-! Over the mirror of one sector, with failures that stay. -/

def fixedMirror : Surroundings :=
  { mirror with heals := false, verdict := fun req => if req.token = 0 then .stale else .corruption }

theorem fixedMirror_reports {all : List Candidate} (verify : SectorVerifier)
    (h : ∀ c ∈ all, c.arrayPhys = 0 ∧ c.blockSize = 1 ∧ c.verify = verify ∧ c.failingDev = "nmd1") :
    Reports fixedMirror mirrorArgs "nmd1" all where
  onDevice c hc := by
    obtain ⟨hphys, hsize, -, hdev⟩ := h c hc
    refine ⟨hdev, by rw [hsize]; exact Nat.one_pos, 1, rfl, ?_, by decide⟩
    rw [hphys, hsize]
    decide
  apart c hc c' hc' := by
    obtain ⟨hphys, hsize, -⟩ := h c hc
    obtain ⟨hphys', hsize', -⟩ := h c' hc'
    exact .inr ⟨hphys.trans hphys'.symm, hsize.trans hsize'.symm⟩
  verify c hc c' hc' _ := (h c hc).2.2.1.trans (h c' hc').2.2.1.symm

theorem repair_idempotent_mirror :
    (afterRun fixedMirror mirrorArgs [[mirrorCandidate], [mirrorCandidate]] none
      ((runWriter fixedMirror.env mirrorArgs (messages [[mirrorCandidate, mirrorCandidate]])).run
        (.start mirrorDisks none none)).2.world).byte "nmd1" 0 = 0x22 := by
  have hall : ∀ c ∈ [[mirrorCandidate, mirrorCandidate]].flatten, c = mirrorCandidate := by
    intro c hc
    simpa using hc
  have hreports : Reports fixedMirror mirrorArgs "nmd1"
      [[mirrorCandidate, mirrorCandidate]].flatten :=
    fixedMirror_reports mirrorCandidate.verify fun c hc => by
      rw [hall c hc]
      exact ⟨rfl, rfl, rfl, rfl⟩
  have hagreed : Agreed fixedMirror [[mirrorCandidate, mirrorCandidate]].flatten := by
    intro c hc c' hc' _
    rw [hall c hc, hall c' hc']
    exact ⟨rfl, rfl⟩
  have hidem := (repair_idempotent fixedMirror rfl mirrorArgs rfl "nmd1" mirrorDisks rfl rfl
    (by decide) [[mirrorCandidate, mirrorCandidate]] hreports none none rfl).2 _ rfl hagreed
    [[mirrorCandidate], [mirrorCandidate]] none (fun _ => 0) (fun _ => .ok ()) (fun _ => .ok ())
    (.refl _)
  exact (congrFun (congrFun hidem "nmd1") 0).trans rfl

/-- Two reports of one sector: the live metadata calls the first stale and stands by the second. -/
def rewritten : List Candidate :=
  [{ mirrorCandidate with reconfirm := some { token := 0, storedCsum := [] } },
   { mirrorCandidate with reconfirm := some { token := 1, storedCsum := [] } }]

/-- Two reports of one sector, only the first flagged unreadable; its verifier takes the bytes
there are and the bytes that parity gives. -/
def ambiguous : List Candidate :=
  [{ mirrorCandidate with verify := fun b => b == [0x22] || b == [0xff], unreadable := true },
   { mirrorCandidate with verify := fun b => b == [0x22] || b == [0xff] }]

/-- A second run may take up the report that the first dropped as a duplicate. -/
theorem not_repair_idempotent :
    (Reports fixedMirror mirrorArgs "nmd1" rewritten ∧
      (afterRun fixedMirror mirrorArgs [rewritten.reverse] none
        (afterRun fixedMirror mirrorArgs [rewritten] none mirrorDisks)).byte ≠
          (afterRun fixedMirror mirrorArgs [rewritten] none mirrorDisks).byte) ∧
    Reports fixedMirror mirrorArgs "nmd1" ambiguous ∧
      (afterRun fixedMirror mirrorArgs [ambiguous] none
        (afterRun fixedMirror mirrorArgs [ambiguous.reverse] none mirrorDisks)).byte ≠
          (afterRun fixedMirror mirrorArgs [ambiguous.reverse] none mirrorDisks).byte := by
  refine ⟨⟨?_, fun h => ?_⟩, ?_, fun h => ?_⟩
  · apply fixedMirror_reports mirrorCandidate.verify
    intro c hc
    simp only [rewritten, List.mem_cons, List.not_mem_nil, or_false] at hc
    rcases hc with rfl | rfl <;> exact ⟨rfl, rfl, rfl, rfl⟩
  · exact absurd (congrFun (congrFun h "nmd1") 0) (by decide)
  · apply fixedMirror_reports fun b => b == [0x22] || b == [0xff]
    intro c hc
    simp only [ambiguous, List.mem_cons, List.not_mem_nil, or_false] at hc
    rcases hc with rfl | rfl <;> exact ⟨rfl, rfl, rfl, rfl⟩
  · exact absurd (congrFun (congrFun h "nmd1") 0) (by decide)

end Rotshield.BatchRecover
