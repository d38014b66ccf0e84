import Rotshield.Btrfs.IsolateReads

/-! What the isolation of a run finds, for any read whose successes have the requested length. -/
namespace Rotshield.Btrfs

structure ReadCall where
  phys : UInt64
  len : Nat
  result : Except IoError Bytes

def ReadCall.failed (c : ReadCall) : Bool := !c.result.isOk

def failures (calls : List ReadCall) : Nat := calls.countP ReadCall.failed

/-- The read with a log of its calls. -/
def loggedRead {σ : Type} (read : UInt64 → Nat → StateM σ (Except IoError Bytes)) (phys : UInt64)
    (len : Nat) : ExceptT Halt (StateM (σ × List ReadCall)) (Except IoError Bytes) :=
  fun s => (.ok (read phys len s.1).1,
    ((read phys len s.1).2, s.2 ++ [⟨phys, len, (read phys len s.1).1⟩]))

/-- The read without a log. -/
def plainRead {σ : Type} (read : UInt64 → Nat → StateM σ (Except IoError Bytes)) (phys : UInt64)
    (len : Nat) : ExceptT Halt (StateM σ) (Except IoError Bytes) :=
  fun s => (.ok (read phys len s).1, (read phys len s).2)

theorem sectorOffsets_add (sz start a b : Nat) :
    sectorOffsets sz start (a + b) =
      sectorOffsets sz start a ++ sectorOffsets sz (start + a * sz) b := by
  unfold sectorOffsets
  rw [List.range_add, List.map_append, List.map_map]
  congr 1
  apply List.map_congr_left
  intro i _
  rw [Function.comp, Nat.add_mul, Nat.add_assoc]

theorem pieceSectors_sum (nsec : Nat) : (pieceSectors nsec).sum = nsec := by
  have hsum : ∀ k q r, ((List.range k).map fun i => q + if i < r then 1 else 0).sum =
      k * q + min r k := by
    intro k q r
    induction k with
    | zero => simp
    | succ k ih =>
        rw [List.range_succ, List.map_append, List.sum_append, ih, List.map_singleton,
          List.sum_singleton, Nat.succ_mul]
        split <;> omega
  unfold pieceSectors
  dsimp only
  rw [hsum]
  rcases Nat.eq_zero_or_pos nsec with rfl | hpos
  · simp
  · have hk : 0 < min eioSplitFactor nsec := Nat.lt_min.mpr ⟨by decide, hpos⟩
    rw [Nat.min_eq_left (Nat.mod_lt _ hk).le, Nat.div_add_mod]

theorem pieceSectors_lt {nsec : Nat} (h : 2 ≤ nsec) : ∀ p ∈ pieceSectors nsec, p < nsec := by
  intro p hp
  obtain ⟨i, hi, rfl⟩ := List.mem_map.mp hp
  have hk : 2 ≤ min eioSplitFactor nsec := Nat.le_min.mpr ⟨by decide, h⟩
  have hdiv : nsec / min eioSplitFactor nsec ≤ nsec / 2 := Nat.div_le_div_left hk (by decide)
  have hmod := Nat.div_add_mod nsec (min eioSplitFactor nsec)
  have hle : 2 * (nsec / min eioSplitFactor nsec) ≤
      min eioSplitFactor nsec * (nsec / min eioSplitFactor nsec) := Nat.mul_le_mul_right _ hk
  split <;> omega

/-- The sectors a region holds. -/
def regionSectors (sz : Nat) (r : Nat × Bytes) : List Nat :=
  sectorOffsets sz r.1 (r.2.length / sz)

/-- What one call of the isolation adds, for the sectors of a range; offset `x` is read at
`base + x`. -/
structure Isolated {σ : Type} (read : UInt64 → Nat → StateM σ (Except IoError Bytes)) (sz : Nat)
    (base : UInt64) (start n : Nat) (acc acc' : Isolation) (good : List (Nat × Bytes))
    (bad : List Nat) (calls : List ReadCall) : Prop where
  good_eq : acc'.good = acc.good ++ good
  bad_eq : acc'.bad = acc.bad ++ bad
  covers : (good.flatMap (regionSectors sz) ++ bad).Perm (sectorOffsets sz start n)
  regions : ∀ r ∈ good, sz ∣ r.1 ∧ sz ∣ r.2.length ∧
    ⟨base + UInt64.ofNat r.1, r.2.length, .ok r.2⟩ ∈ calls
  inside : ∀ r ∈ good, start ≤ r.1 ∧ r.1 + r.2.length ≤ start + n * sz
  delivered : ∀ c ∈ calls, ∀ buf, c.result = .ok buf →
    ∃ r ∈ good, c = ⟨base + UInt64.ofNat r.1, r.2.length, .ok r.2⟩
  budget : acc'.budget.remaining + failures calls = acc.budget.remaining
  flag : acc'.budget.exhausted = true ↔ acc'.budget.remaining = 0
  issued : ∀ pre c post, calls = pre ++ c :: post → failures pre < acc.budget.remaining
  probed : acc'.budget.exhausted = false → ∀ x ∈ bad, ∃ e,
    ⟨base + UInt64.ofNat x, sz, .error e⟩ ∈ calls
  single : ∀ c ∈ calls, c.len = sz → c.failed = true → ∃ x ∈ bad, c.phys = base + UInt64.ofNat x
  genuine : ∀ c ∈ calls, ∃ s s', read c.phys c.len s = (c.result, s')

namespace Isolated
variable {σ : Type} {read : UInt64 → Nat → StateM σ (Except IoError Bytes)} {sz : Nat}
  {base : UInt64} {start n : Nat} {acc acc' : Isolation} {good : List (Nat × Bytes)}
  {bad : List Nat} {calls : List ReadCall}

/-- No call, and everything marked: nothing to do, or no budget to do it with. -/
theorem unread (hflag : acc.budget.exhausted = true ↔ acc.budget.remaining = 0)
    (h : n = 0 ∨ acc.budget.exhausted = true) :
    Isolated read sz base start n acc (acc.pushBad (sectorOffsets sz start n)) []
      (sectorOffsets sz start n) [] where
  good_eq := (List.append_nil _).symm
  bad_eq := rfl
  covers := List.Perm.refl _
  regions := by simp
  inside := by simp
  delivered := by simp
  budget := rfl
  flag := hflag
  issued := by simp
  probed := by
    intro hopen x hx
    rcases h with rfl | h
    · cases hx
    · have hopen' : acc.budget.exhausted = false := hopen
      rw [h] at hopen'
      cases hopen'
  single := by simp
  genuine := by simp

/-- One call that succeeds. -/
theorem readOk (hsize : 0 < sz) (hstart : sz ∣ start)
    (hflag : acc.budget.exhausted = true ↔ acc.budget.remaining = 0)
    (hopen : acc.budget.exhausted = false) {buf : Bytes} (hlen : buf.length = n * sz) {s s' : σ}
    (hread : read (base + UInt64.ofNat start) (n * sz) s = (.ok buf, s')) :
    Isolated read sz base start n acc (acc.pushGood start buf) [(start, buf)] []
      [⟨base + UInt64.ofNat start, n * sz, .ok buf⟩] where
  good_eq := rfl
  bad_eq := (List.append_nil _).symm
  covers := by
    rw [List.flatMap_singleton, List.append_nil, regionSectors, hlen, Nat.mul_div_cancel n hsize]
  regions := by
    intro r hr
    obtain rfl := List.mem_singleton.mp hr
    rw [hlen]
    exact ⟨hstart, Nat.dvd_mul_left sz n, List.mem_singleton_self _⟩
  inside := by
    intro r hr
    obtain rfl := List.mem_singleton.mp hr
    exact ⟨Nat.le_refl _, by rw [hlen]⟩
  delivered := by
    intro c hc _ _
    obtain rfl := List.mem_singleton.mp hc
    exact ⟨(start, buf), List.mem_singleton_self _, by rw [hlen]⟩
  budget := rfl
  flag := hflag
  issued := by
    intro pre c post h
    have hpre : pre = [] := by
      cases pre with
      | nil => rfl
      | cons x pre =>
          have hlen := congrArg List.length h
          simp at hlen
    rw [hpre]
    apply Nat.pos_of_ne_zero
    intro hzero
    rw [hflag.mpr hzero] at hopen
    cases hopen
  probed _ x hx := by cases hx
  single := by
    intro c hc _ hfailed
    obtain rfl := List.mem_singleton.mp hc
    cases hfailed
  genuine := by
    intro c hc
    obtain rfl := List.mem_singleton.mp hc
    exact ⟨s, s', hread⟩

/-- Adjacent ranges one after the other. -/
theorem append {k : Nat} {acc₁ acc₂ : Isolation} {good₁ good₂ : List (Nat × Bytes)}
    {bad₁ bad₂ : List Nat} {calls₁ calls₂ : List ReadCall}
    (h₁ : Isolated read sz base start n acc acc₁ good₁ bad₁ calls₁)
    (h₂ : Isolated read sz base (start + n * sz) k acc₁ acc₂ good₂ bad₂ calls₂) :
    Isolated read sz base start (n + k) acc acc₂ (good₁ ++ good₂) (bad₁ ++ bad₂)
      (calls₁ ++ calls₂) where
  good_eq := by rw [h₂.good_eq, h₁.good_eq, List.append_assoc]
  bad_eq := by rw [h₂.bad_eq, h₁.bad_eq, List.append_assoc]
  covers := by
    rw [sectorOffsets_add, List.flatMap_append]
    have hswap : (good₁.flatMap (regionSectors sz) ++ good₂.flatMap (regionSectors sz) ++
        (bad₁ ++ bad₂)).Perm (good₁.flatMap (regionSectors sz) ++ bad₁ ++
          (good₂.flatMap (regionSectors sz) ++ bad₂)) := by
      rw [List.append_assoc, List.append_assoc]
      apply List.Perm.append_left
      rw [← List.append_assoc, ← List.append_assoc]
      exact List.perm_append_comm.append_right bad₂
    exact hswap.trans (h₁.covers.append h₂.covers)
  regions := by
    intro r hr
    rcases List.mem_append.mp hr with hr | hr
    · obtain ⟨hstart, hlen, hcall⟩ := h₁.regions r hr
      exact ⟨hstart, hlen, List.mem_append_left _ hcall⟩
    · obtain ⟨hstart, hlen, hcall⟩ := h₂.regions r hr
      exact ⟨hstart, hlen, List.mem_append_right _ hcall⟩
  inside := by
    intro r hr
    rw [Nat.add_mul, ← Nat.add_assoc]
    rcases List.mem_append.mp hr with hr | hr
    · obtain ⟨hlo, hhi⟩ := h₁.inside r hr
      exact ⟨hlo, hhi.trans (Nat.le_add_right _ _)⟩
    · obtain ⟨hlo, hhi⟩ := h₂.inside r hr
      exact ⟨(Nat.le_add_right _ _).trans hlo, hhi⟩
  delivered := by
    intro c hc buf hok
    rcases List.mem_append.mp hc with hc | hc
    · obtain ⟨r, hr, hat⟩ := h₁.delivered c hc buf hok
      exact ⟨r, List.mem_append_left _ hr, hat⟩
    · obtain ⟨r, hr, hat⟩ := h₂.delivered c hc buf hok
      exact ⟨r, List.mem_append_right _ hr, hat⟩
  budget := by
    have hb₁ := h₁.budget
    have hb₂ := h₂.budget
    unfold failures at hb₁ hb₂ ⊢
    rw [List.countP_append]
    omega
  flag := h₂.flag
  issued := by
    intro pre c post h
    have hb₁ := h₁.budget
    rcases List.append_eq_append_iff.mp h with ⟨mid, rfl, hmid⟩ | ⟨mid, hpre, hmid⟩
    · have hlt := h₂.issued mid c post hmid
      unfold failures at hlt hb₁ ⊢
      rw [List.countP_append]
      omega
    · cases mid with
      | nil =>
          rw [List.append_nil] at hpre
          have hlt := h₂.issued [] c post hmid.symm
          rw [← hpre]
          unfold failures at hlt hb₁ ⊢
          rw [List.countP_nil] at hlt
          omega
      | cons x mid =>
          obtain ⟨rfl, _⟩ := List.cons.inj hmid
          exact h₁.issued pre c mid hpre
  probed := by
    intro hopen x hx
    have hopen₁ : acc₁.budget.exhausted = false := by
      rw [← Bool.not_eq_true] at hopen ⊢
      intro hspent
      have hzero := h₁.flag.mp hspent
      have hb₂ := h₂.budget
      exact hopen (h₂.flag.mpr (by omega))
    rcases List.mem_append.mp hx with hx | hx
    · obtain ⟨e, hcall⟩ := h₁.probed hopen₁ x hx
      exact ⟨e, List.mem_append_left _ hcall⟩
    · obtain ⟨e, hcall⟩ := h₂.probed hopen x hx
      exact ⟨e, List.mem_append_right _ hcall⟩
  single := by
    intro c hc hlen hfailed
    rcases List.mem_append.mp hc with hc | hc
    · obtain ⟨x, hx, hat⟩ := h₁.single c hc hlen hfailed
      exact ⟨x, List.mem_append_left _ hx, hat⟩
    · obtain ⟨x, hx, hat⟩ := h₂.single c hc hlen hfailed
      exact ⟨x, List.mem_append_right _ hx, hat⟩
  genuine := by
    intro c hc
    rcases List.mem_append.mp hc with hc | hc
    · exact h₁.genuine c hc
    · exact h₂.genuine c hc

end Isolated

section Budget
variable {acc : Isolation}

theorem spend_flag (hflag : acc.budget.exhausted = true ↔ acc.budget.remaining = 0) :
    acc.spend.budget.exhausted = true ↔ acc.spend.budget.remaining = 0 := by
  unfold Isolation.spend IsolationBudget.spend
  simp only [Bool.or_eq_true, beq_iff_eq]
  constructor
  · rintro (h | h)
    · have := hflag.mp h
      omega
    · exact h
  · exact .inr

theorem spend_remaining (hflag : acc.budget.exhausted = true ↔ acc.budget.remaining = 0)
    (hopen : acc.budget.exhausted = false) :
    acc.spend.budget.remaining + 1 = acc.budget.remaining := by
  have hne : acc.budget.remaining ≠ 0 := fun hzero => by
    rw [hflag.mpr hzero] at hopen
    cases hopen
  unfold Isolation.spend IsolationBudget.spend
  dsimp only
  omega

end Budget

namespace Isolated
variable {σ : Type} {read : UInt64 → Nat → StateM σ (Except IoError Bytes)} {sz : Nat}
  {base : UInt64} {start n : Nat} {acc acc' : Isolation} {good : List (Nat × Bytes)}
  {bad : List Nat} {calls : List ReadCall}

/-- A failing call for one sector. -/
theorem readError (hflag : acc.budget.exhausted = true ↔ acc.budget.remaining = 0)
    (hopen : acc.budget.exhausted = false) {e : IoError} {s s' : σ}
    (hread : read (base + UInt64.ofNat start) sz s = (.error e, s')) :
    Isolated read sz base start 1 acc (acc.spend.pushBad [start]) [] [start]
      [⟨base + UInt64.ofNat start, sz, .error e⟩] where
  good_eq := (List.append_nil _).symm
  bad_eq := rfl
  covers := by
    rw [List.flatMap_nil, List.nil_append, sectorOffsets, List.range_one, List.map_singleton,
      Nat.zero_mul, Nat.add_zero]
  regions := by simp
  inside := by simp
  delivered := by
    intro c hc buf hok
    obtain rfl := List.mem_singleton.mp hc
    cases hok
  budget := spend_remaining hflag hopen
  flag := spend_flag hflag
  issued := by
    intro pre c post heq
    have hspend := spend_remaining hflag hopen
    cases pre with
    | nil =>
        unfold failures
        rw [List.countP_nil]
        omega
    | cons x pre =>
        have hlen := congrArg List.length heq
        simp at hlen
  probed := by
    intro _ x hx
    obtain rfl := List.mem_singleton.mp hx
    exact ⟨e, List.mem_singleton_self _⟩
  single := by
    intro c hc _ _
    obtain rfl := List.mem_singleton.mp hc
    exact ⟨start, List.mem_singleton_self _, rfl⟩
  genuine := by
    intro c hc
    obtain rfl := List.mem_singleton.mp hc
    exact ⟨s, s', hread⟩

/-- A failing call for several sectors, then what the isolation does about it. -/
theorem afterFailure (hflag : acc.budget.exhausted = true ↔ acc.budget.remaining = 0)
    (hopen : acc.budget.exhausted = false) (hlong : n * sz ≠ sz)
    (h : Isolated read sz base start n acc.spend acc' good bad calls) {e : IoError} {s s' : σ}
    (hread : read (base + UInt64.ofNat start) (n * sz) s = (.error e, s')) :
    Isolated read sz base start n acc acc' good bad
      (⟨base + UInt64.ofNat start, n * sz, .error e⟩ :: calls) where
  good_eq := h.good_eq
  bad_eq := h.bad_eq
  covers := h.covers
  regions := by
    intro r hr
    obtain ⟨hstart, hlen, hcall⟩ := h.regions r hr
    exact ⟨hstart, hlen, List.mem_cons_of_mem _ hcall⟩
  inside := h.inside
  delivered := by
    intro c hc buf hok
    rcases List.mem_cons.mp hc with rfl | hc
    · cases hok
    · exact h.delivered c hc buf hok
  budget := by
    have hb := h.budget
    have hspend := spend_remaining hflag hopen
    unfold failures at hb ⊢
    rw [List.countP_cons_of_pos (by rfl)]
    omega
  flag := h.flag
  issued := by
    intro pre c post heq
    have hspend := spend_remaining hflag hopen
    cases pre with
    | nil =>
        unfold failures
        rw [List.countP_nil]
        omega
    | cons x pre =>
        obtain ⟨rfl, hrest⟩ := List.cons.inj heq
        have hlt := h.issued pre c post hrest
        unfold failures at hlt ⊢
        rw [List.countP_cons_of_pos (by rfl)]
        omega
  probed := by
    intro hopen' x hx
    obtain ⟨e', hcall⟩ := h.probed hopen' x hx
    exact ⟨e', List.mem_cons_of_mem _ hcall⟩
  single := by
    intro c hc hlen hfailed
    rcases List.mem_cons.mp hc with rfl | hc
    · exact absurd hlen hlong
    · exact h.single c hc hlen hfailed
  genuine := by
    intro c hc
    rcases List.mem_cons.mp hc with rfl | hc
    · exact ⟨s, s', hread⟩
    · exact h.genuine c hc

end Isolated

section Run
variable {σ : Type} {read : UInt64 → Nat → StateM σ (Except IoError Bytes)} {sectorSize : UInt64}
  {base : UInt64}

/-- A call that returns, with what it adds. -/
def Returns (read : UInt64 → Nat → StateM σ (Except IoError Bytes)) (sz : Nat) (base : UInt64)
    (start n : Nat) (acc : Isolation)
    (run : ExceptT Halt (StateM (σ × List ReadCall)) Isolation) : Prop :=
  ∀ s log, ∃ acc' s' good bad calls, run (s, log) = (.ok acc', (s', log ++ calls)) ∧
    Isolated read sz base start n acc acc' good bad calls

theorem returns_pure {sz start n : Nat} {acc acc' : Isolation} {good : List (Nat × Bytes)}
    {bad : List Nat} (h : Isolated read sz base start n acc acc' good bad []) :
    Returns read sz base start n acc (pure acc') := by
  intro s log
  refine ⟨acc', s, good, bad, [], ?_, h⟩
  rw [List.append_nil]
  rfl

/-- The pieces return where each does. -/
theorem isolatePieces_returns {sz fuel : Nat}
    {run : UInt64 → Nat → Nat → Isolation → ExceptT Halt (StateM (σ × List ReadCall)) Isolation}
    (hrun : ∀ start n acc, sz ∣ start → n * sz < fuel →
      (acc.budget.exhausted = true ↔ acc.budget.remaining = 0) →
        Returns read sz base start n acc (run (base + UInt64.ofNat start) start (n * sz) acc))
    {start : Nat} (hstart : sz ∣ start) {pieces : List Nat} (hpieces : ∀ p ∈ pieces, p * sz < fuel)
    {off : Nat} (hoff : sz ∣ off) {acc : Isolation}
    (hflag : acc.budget.exhausted = true ↔ acc.budget.remaining = 0) :
    Returns read sz base (start + off) pieces.sum acc
      (isolatePieces run sz (base + UInt64.ofNat start) start off pieces acc) := by
  induction pieces generalizing off acc with
  | nil =>
      have h : Isolated read sz base (start + off) 0 acc
          (acc.pushBad (sectorOffsets sz (start + off) 0)) [] _ [] := .unread hflag (.inl rfl)
      have hnil : acc.pushBad (sectorOffsets sz (start + off) 0) = acc := by
        unfold Isolation.pushBad sectorOffsets
        simp
      rw [hnil] at h
      exact returns_pure h
  | cons p pieces ih =>
      intro s log
      have hphys : base + UInt64.ofNat start + UInt64.ofNat off =
          base + UInt64.ofNat (start + off) := by
        rw [UInt64.ofNat_add, ← UInt64.add_assoc]
      obtain ⟨acc₁, s₁, good₁, bad₁, calls₁, heq₁, h₁⟩ := hrun (start + off) p acc
        (Nat.dvd_add hstart hoff) (hpieces p List.mem_cons_self) hflag s log
      have hoff' : sz ∣ off + p * sz := Nat.dvd_add hoff (Nat.dvd_mul_left sz p)
      obtain ⟨acc₂, s₂, good₂, bad₂, calls₂, heq₂, h₂⟩ :=
        ih (fun x hx => hpieces x (List.mem_cons_of_mem p hx)) hoff' h₁.flag s₁ (log ++ calls₁)
      rw [← Nat.add_assoc] at h₂
      refine ⟨acc₂, s₂, good₁ ++ good₂, bad₁ ++ bad₂, calls₁ ++ calls₂, ?_, ?_⟩
      · rw [isolatePieces, hphys]
        simp only [bind, ExceptT.bind, ExceptT.mk, StateT.bind, ExceptT.bindCont, heq₁]
        rw [← List.append_assoc]
        exact heq₂
      · rw [List.sum_cons]
        exact h₁.append h₂

/-- A read, then a computation that depends on what it gave. -/
theorem run_read {phys : UInt64} {len : Nat} {got : Except IoError Bytes} {s s' : σ}
    (hread : read phys len s = (got, s'))
    (k : Except IoError Bytes → ExceptT Halt (StateM (σ × List ReadCall)) Isolation)
    (log : List ReadCall) :
    (loggedRead read phys len >>= k) (s, log) = k got (s', log ++ [⟨phys, len, got⟩]) := by
  simp only [bind, ExceptT.bind, ExceptT.mk, StateT.bind, loggedRead, hread, ExceptT.bindCont]

/-- Every call with enough fuel returns, and the sectors of its range are in one place each. -/
theorem isolateLoop_returns
    (hread : ∀ phys len s buf s', read phys len s = (.ok buf, s') → buf.length = len)
    (hsize : 0 < sectorSize.toNat) {fuel start n : Nat} {acc : Isolation}
    (hfuel : n * sectorSize.toNat < fuel) (hstart : sectorSize.toNat ∣ start)
    (hflag : acc.budget.exhausted = true ↔ acc.budget.remaining = 0) :
    Returns read sectorSize.toNat base start n acc
      (isolateLoop (loggedRead read) sectorSize fuel (base + UInt64.ofNat start) start
        (n * sectorSize.toNat) acc) := by
  generalize hsz : sectorSize.toNat = sz at hsize hfuel hstart ⊢
  induction fuel generalizing start n acc with
  | zero => exact absurd hfuel (Nat.not_lt_zero _)
  | succ fuel ih =>
      have hnsec : n * sz / sz = n := Nat.mul_div_cancel n hsize
      rw [isolateLoop]
      dsimp only
      rw [hsz, hnsec]
      -- The sectors are marked without a read: there are none, or the budget is spent.
      by_cases hlen : n * sz = 0
      · have hn : n = 0 := (Nat.mul_eq_zero.mp hlen).resolve_right (Nat.ne_of_gt hsize)
        subst hn
        have h : Isolated read sz base start 0 acc (acc.pushBad (sectorOffsets sz start 0)) [] _ [] :=
          .unread hflag (.inl rfl)
        have hnil : acc.pushBad (sectorOffsets sz start 0) = acc := by
          unfold Isolation.pushBad sectorOffsets
          simp
        rw [hnil] at h
        rw [if_pos hlen]
        exact returns_pure h
      rw [if_neg hlen]
      by_cases hspent : acc.budget.exhausted = true
      · rw [if_pos hspent]
        exact returns_pure (.unread hflag (.inr hspent))
      rw [if_neg hspent]
      rw [Bool.not_eq_true] at hspent
      have hn : n ≠ 0 := fun h => hlen (by rw [h, Nat.zero_mul])
      intro s log
      by_cases hone : n * sz ≤ sz
      · have hn1 : n = 1 := by
          have hle : n * sz ≤ 1 * sz := by rwa [Nat.one_mul]
          have := Nat.le_of_mul_le_mul_right hle hsize
          omega
        subst hn1
        rw [if_pos hone, Nat.one_mul]
        cases hgot : read (base + UInt64.ofNat start) sz s with
        | mk got s' =>
            rw [run_read hgot]
            cases got with
            | ok buf =>
                have hbuf : buf.length = 1 * sz := by rw [Nat.one_mul, hread _ _ _ _ _ hgot]
                have hgot' : read (base + UInt64.ofNat start) (1 * sz) s = (.ok buf, s') := by
                  rw [Nat.one_mul, hgot]
                have h := Isolated.readOk hsize hstart hflag hspent hbuf hgot'
                rw [Nat.one_mul] at h
                exact ⟨_, s', _, _, _, rfl, h⟩
            | error e => exact ⟨_, s', _, _, _, rfl, .readError hflag hspent hgot⟩
      rw [if_neg hone]
      have hlong : n * sz ≠ sz := fun h => hone (Nat.le_of_eq h)
      have htwo : 2 ≤ n := by
        by_contra hlt
        have hn1 : n = 1 := by omega
        rw [hn1, Nat.one_mul] at hlong
        exact hlong rfl
      cases hgot : read (base + UInt64.ofNat start) (n * sz) s with
      | mk got s' =>
          rw [run_read hgot]
          cases got with
          | ok buf =>
              have hbuf := hread _ _ _ _ _ hgot
              dsimp only
              rw [if_pos ⟨Nat.mod_eq_zero_of_dvd hstart, Nat.mul_mod_left n sz⟩]
              exact ⟨_, s', _, _, _, rfl, .readOk hsize hstart hflag hspent hbuf hgot⟩
          | error e =>
              dsimp only
              by_cases hzero : acc.spend.budget.remaining = 0
              · rw [if_pos hzero]
                have hnow := (spend_flag hflag).mpr hzero
                have h : Isolated read sz base start n acc.spend
                    (acc.spend.pushBad (sectorOffsets sz start n)) [] _ [] :=
                  .unread (spend_flag hflag) (.inr hnow)
                exact ⟨_, s', _, _, _, rfl, h.afterFailure hflag hspent hlong hgot⟩
              · rw [if_neg hzero]
                have hshort : ∀ p ∈ pieceSectors n, p * sz < fuel := by
                  intro p hp
                  have hlt := pieceSectors_lt htwo p hp
                  have hmul := Nat.mul_lt_mul_of_pos_right hlt hsize
                  omega
                have hpieces := isolatePieces_returns
                  (fun start n acc hstart hn hflag => ih hflag hn hstart) hstart hshort
                  (Nat.dvd_zero sz) (spend_flag hflag)
                rw [pieceSectors_sum, Nat.add_zero] at hpieces
                obtain ⟨acc', s'', good, bad, calls, heq, h⟩ :=
                  hpieces s' (log ++ [⟨base + UInt64.ofNat start, n * sz, .error e⟩])
                refine ⟨acc', s'', good, bad, _ :: calls, ?_,
                  h.afterFailure hflag hspent hlong hgot⟩
                rw [heq, List.append_assoc]
                rfl

/-- The one run is the other with a log. -/
def Forgets {α : Type} (logged : ExceptT Halt (StateM (σ × List ReadCall)) α)
    (plain : ExceptT Halt (StateM σ) α) : Prop :=
  ∀ s log, ∃ calls, logged (s, log) = ((plain s).1, ((plain s).2, log ++ calls))

theorem Forgets.pure {α : Type} (a : α) :
    @Forgets σ α (Pure.pure a) (Pure.pure a) := by
  intro s log
  exact ⟨[], by rw [List.append_nil]; rfl⟩

theorem Forgets.bind {α β : Type} {logged : ExceptT Halt (StateM (σ × List ReadCall)) α}
    {plain : ExceptT Halt (StateM σ) α} (h : Forgets logged plain)
    {k : α → ExceptT Halt (StateM (σ × List ReadCall)) β} {k' : α → ExceptT Halt (StateM σ) β}
    (hk : ∀ a, Forgets (k a) (k' a)) : Forgets (logged >>= k) (plain >>= k') := by
  intro s log
  obtain ⟨calls, heq⟩ := h s log
  simp only [Bind.bind, ExceptT.bind, ExceptT.mk, StateT.bind, heq]
  cases hplain : plain s with
  | mk got s' =>
      cases got with
      | error e => exact ⟨calls, rfl⟩
      | ok a =>
          obtain ⟨calls', heq'⟩ := hk a s' (log ++ calls)
          exact ⟨calls ++ calls', by rw [← List.append_assoc]; exact heq'⟩

theorem Forgets.call (phys : UInt64) (len : Nat) :
    Forgets (loggedRead read phys len) (plainRead read phys len) := fun _ _ => ⟨_, rfl⟩

theorem Forgets.relates : Relates fun α => @Forgets σ α where
  pure := .pure
  bind hx hf := hx.bind hf
  throw _ := fun _ _ => ⟨[], by rw [List.append_nil]; rfl⟩

theorem isolateLoop_forgets (fuel : Nat) (phys : UInt64) (start len : Nat) (acc : Isolation) :
    Forgets (isolateLoop (loggedRead read) sectorSize fuel phys start len acc)
      (isolateLoop (plainRead read) sectorSize fuel phys start len acc) :=
  isolateLoop_related Forgets.relates Forgets.call fuel phys start len acc

end Run

/-- The isolation of a run of so many sectors. -/
structure IsolatesRun (sz n budget : Nat) (phys : UInt64) (iso : Isolation) (log : List ReadCall) :
    Prop where
  /-- Every sector of the run is in one good region, or is a bad one, once. -/
  covers : (iso.good.flatMap (regionSectors sz) ++ iso.bad).Perm (sectorOffsets sz 0 n)
  regions : ∀ r ∈ iso.good, sz ∣ r.1 ∧ sz ∣ r.2.length ∧
    ⟨phys + UInt64.ofNat r.1, r.2.length, .ok r.2⟩ ∈ log
  failures_le : failures log ≤ budget
  /-- No read is issued once the budget is spent. -/
  issued : ∀ pre c post, log = pre ++ c :: post → failures pre < budget
  exhausted_iff : iso.budget.exhausted = true ↔ failures log = budget
  bad_iff : iso.budget.exhausted = false → ∀ x ∈ sectorOffsets sz 0 n,
    x ∈ iso.bad ↔ ∃ e, ⟨phys + UInt64.ofNat x, sz, .error e⟩ ∈ log

theorem sectorOffsets_nodup {sz : Nat} (hsize : 0 < sz) (start n : Nat) :
    (sectorOffsets sz start n).Nodup := by
  unfold sectorOffsets
  apply List.Nodup.map _ List.nodup_range
  intro i j h
  dsimp only at h
  exact Nat.eq_of_mul_eq_mul_right hsize (by omega)

theorem mem_sectorOffsets {sz start n x : Nat} :
    x ∈ sectorOffsets sz start n ↔ ∃ i < n, x = start + i * sz := by
  unfold sectorOffsets
  simp only [List.mem_map, List.mem_range, eq_comm]

/-- The isolation of a whole run returns, with a log and without. -/
theorem isolateRun_isolated {σ : Type} {read : UInt64 → Nat → StateM σ (Except IoError Bytes)}
    (hread : ∀ phys len s buf s', read phys len s = (.ok buf, s') → buf.length = len)
    {sectorSize : UInt64} (hsize : 0 < sectorSize.toNat) (phys : UInt64) (n : Nat) {budget : Nat}
    (hbudget : 1 ≤ budget) (s : σ) : ∃ iso s' log,
      isolateRun (plainRead read) phys 0 (n * sectorSize.toNat) sectorSize (.new budget) s =
        (.ok iso, s') ∧
      isolateRun (loggedRead read) phys 0 (n * sectorSize.toNat) sectorSize (.new budget) (s, []) =
        (.ok iso, (s', log)) ∧
      Isolated read sectorSize.toNat phys 0 n (.new budget) iso iso.good iso.bad log := by
  have hflag : (Isolation.new budget).budget.exhausted = true ↔
      (Isolation.new budget).budget.remaining = 0 := by
    unfold Isolation.new
    dsimp only
    constructor
    · exact nofun
    · omega
  have hphys : phys + UInt64.ofNat 0 = phys := UInt64.add_zero phys
  obtain ⟨iso, s', good, bad, calls, hrun, h⟩ := isolateLoop_returns hread hsize
    (Nat.lt_succ_self (n * sectorSize.toNat)) (Nat.dvd_zero _) hflag s []
  rw [hphys, List.nil_append] at hrun
  obtain ⟨calls', hplain⟩ := isolateLoop_forgets (n * sectorSize.toNat + 1) phys 0
    (n * sectorSize.toNat) (Isolation.new budget) s []
  rw [hrun] at hplain
  have hgood : iso.good = good := h.good_eq
  have hbad : iso.bad = bad := h.bad_eq
  subst hgood hbad
  refine ⟨iso, s', calls, ?_, hrun, h⟩
  obtain ⟨hgot, hstate⟩ := Prod.mk.inj hplain
  obtain ⟨hstate, _⟩ := Prod.mk.inj hstate
  exact Prod.ext hgot.symm hstate.symm

/-- The isolation returns, partitions the run, and keeps to its budget; over faulty bytes that stay
the same it finds exactly the sectors that touch them. -/
theorem isolateRun_partition {σ : Type}
    (read : UInt64 → Nat → StateM σ (Except IoError Bytes))
    (hread : ∀ phys len s buf s', read phys len s = (.ok buf, s') → buf.length = len)
    (sectorSize : UInt64) (hsize : 0 < sectorSize.toNat) (phys : UInt64) (n budget : Nat)
    (hbudget : 1 ≤ budget) (hlen : n * sectorSize.toNat < 2 ^ 64) (s : σ) :
    ∃ iso s' log,
      isolateRun (plainRead read) phys 0 (n * sectorSize.toNat) sectorSize (.new budget) s =
        (.ok iso, s') ∧
      isolateRun (loggedRead read) phys 0 (n * sectorSize.toNat) sectorSize (.new budget) (s, []) =
        (.ok iso, (s', log)) ∧
      IsolatesRun sectorSize.toNat n budget phys iso log ∧
      ∀ faulty : UInt64 → Prop,
        (∀ phys len s, (∃ e s', read phys len s = (.error e, s')) ↔
          ∃ k < len, faulty (phys + UInt64.ofNat k)) →
        iso.budget.exhausted = false → ∀ x ∈ sectorOffsets sectorSize.toNat 0 n,
          x ∈ iso.bad ↔ ∃ k < sectorSize.toNat, faulty (phys + UInt64.ofNat (x + k)) := by
  obtain ⟨iso, s', calls, hplain, hrun, h⟩ := isolateRun_isolated hread hsize phys n hbudget s
  have hfail : iso.budget.remaining + failures calls = budget := h.budget
  have hflag' := h.flag
  have hspent : iso.budget.exhausted = true ↔ failures calls = budget := by
    rw [hflag']
    omega
  have hbadIff : iso.budget.exhausted = false → ∀ x ∈ sectorOffsets sectorSize.toNat 0 n,
      x ∈ iso.bad ↔ ∃ e, ⟨phys + UInt64.ofNat x, sectorSize.toNat, .error e⟩ ∈ calls := by
    intro hopen x hx
    constructor
    · exact h.probed hopen x
    · rintro ⟨e, hcall⟩
      obtain ⟨y, hy, hat⟩ := h.single _ hcall rfl rfl
      have hyIn : y ∈ sectorOffsets sectorSize.toNat 0 n :=
        h.covers.subset (List.mem_append_right _ hy)
      obtain ⟨i, hi, rfl⟩ := mem_sectorOffsets.mp hx
      obtain ⟨j, hj, rfl⟩ := mem_sectorOffsets.mp hyIn
      have hi' := Nat.mul_le_mul_right sectorSize.toNat hi
      have hj' := Nat.mul_le_mul_right sectorSize.toNat hj
      rw [Nat.succ_mul] at hi' hj'
      have hoffset := congrArg UInt64.toNat (UInt64.add_right_inj phys |>.mp hat)
      rw [UInt64.toNat_ofNat', UInt64.toNat_ofNat', Nat.mod_eq_of_lt (by omega),
        Nat.mod_eq_of_lt (by omega)] at hoffset
      rw [hoffset]
      exact hy
  refine ⟨iso, s', calls, hplain, hrun, ⟨h.covers, h.regions, by omega, h.issued,
    hspent, hbadIff⟩, ?_⟩
  · intro faulty hfaulty hopen x hx
    have haddr : ∀ a b : Nat, phys + UInt64.ofNat a + UInt64.ofNat b =
        phys + UInt64.ofNat (a + b) := by
      intro a b
      rw [UInt64.ofNat_add, UInt64.add_assoc]
    constructor
    · intro hin
      obtain ⟨e, hcall⟩ := (hbadIff hopen x hx).mp hin
      obtain ⟨s₁, s₂, hgot⟩ := h.genuine _ hcall
      obtain ⟨k, hk, hbyte⟩ := (hfaulty _ _ s₁).mp ⟨e, s₂, hgot⟩
      rw [haddr] at hbyte
      exact ⟨k, hk, hbyte⟩
    · rintro ⟨k, hk, hbyte⟩
      rcases List.mem_append.mp (h.covers.symm.subset hx) with hin | hin
      case inr => exact hin
      -- A good region with the sector in it was read although it touches the faulty byte.
      obtain ⟨r, hr, hxr⟩ := List.mem_flatMap.mp hin
      obtain ⟨_, hwhole, hcall⟩ := h.regions r hr
      obtain ⟨s₁, s₂, hgot⟩ := h.genuine _ hcall
      obtain ⟨i, hi, rfl⟩ := mem_sectorOffsets.mp hxr
      have hinside : i * sectorSize.toNat + sectorSize.toNat ≤ r.2.length := by
        have hmul := Nat.mul_le_mul_right sectorSize.toNat hi
        rw [Nat.succ_mul, Nat.div_mul_cancel hwhole] at hmul
        exact hmul
      have hfails : ∃ j < r.2.length, faulty (phys + UInt64.ofNat r.1 + UInt64.ofNat j) := by
        refine ⟨i * sectorSize.toNat + k, by omega, ?_⟩
        rw [haddr, ← Nat.add_assoc]
        exact hbyte
      obtain ⟨e, s₃, herr⟩ := (hfaulty _ _ s₁).mpr hfails
      rw [hgot] at herr
      cases herr

/-- Reads fail that touch the byte at address 5. -/
def oneFault (phys : UInt64) (len : Nat) : StateM Unit (Except IoError Bytes) :=
  if phys.toNat ≤ 5 ∧ 5 < phys.toNat + len then pure (.error .other)
  else pure (.ok (List.replicate len 0))

theorem oneFault_length (phys : UInt64) (len : Nat) (s : Unit) (buf : Bytes) (s' : Unit)
    (h : oneFault phys len s = (.ok buf, s')) : buf.length = len := by
  unfold oneFault at h
  split at h
  · cases h
  · cases h
    exact List.length_replicate

theorem isolateRun_partition_oneFault : ∃ iso s' log,
    isolateRun (plainRead oneFault) 0 0 (3 * (4 : UInt64).toNat) 4 (.new 64) () = (.ok iso, s') ∧
      IsolatesRun (4 : UInt64).toNat 3 64 0 iso log := by
  obtain ⟨iso, s', log, hrun, _, hiso, _⟩ := isolateRun_partition oneFault oneFault_length 4
    (by decide) 0 3 64 (by decide) (by decide) ()
  exact ⟨iso, s', log, hrun, hiso⟩

example : isolateRun (plainRead oneFault) 0 0 12 4 (.new 64) () =
    (.ok ⟨⟨62, false⟩, [(0, [0, 0, 0, 0]), (8, [0, 0, 0, 0])], [4]⟩, ()) := by rfl

end Rotshield.Btrfs
