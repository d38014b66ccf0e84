import Rotshield.Btrfs.ScrubRun
import Rotshield.Lib.Channel
import Rotshield.Lib.Transition

/-! The scrub with a reader thread: commands go out ahead of the responses that are verified. -/
namespace Rotshield.Btrfs
open MonadAttach (CanReturn)
open Lib (Channel)

variable {m : Type → Type} [Monad m] [MonadExceptOf Halt m] {P : Type}

inductive MainPhase where
  /-- Between two commands. -/
  | walking
  /-- As many commands are in flight as may be. -/
  | receiving
  /-- No more commands. -/
  | draining
  | joining
  | returned
  deriving DecidableEq, Repr

/-- The command sender is dropped. -/
def MainPhase.closed : MainPhase → Bool
  | .walking => false
  | .receiving => false
  | .draining => true
  | .joining => true
  | .returned => true

inductive ReaderPhase where
  | idle
  | holding (rsp : ReadCmd × Isolation)
  | stopped
  | panicked

def ReaderPhase.held : ReaderPhase → List (ReadCmd × Isolation)
  | .holding rsp => [rsp]
  | _ => []

/-- The two threads and the channels between them. -/
structure Prefetch (P : Type) where
  extents : List DevExtent
  /-- The runs of the current extent that were not sent. -/
  cmds : List ReadCmd
  provider : P
  out : ScrubOut
  inflight : Nat
  /-- The reader thread died; the remaining work is skipped. -/
  failed : Bool
  main : MainPhase
  cmd : Channel ReadCmd
  rsp : Channel (ReadCmd × Isolation)
  reader : ReaderPhase

namespace Prefetch

def start (depth : Nat) (p : P) (devExtents : List DevExtent) (counters : Counters) : Prefetch P where
  extents := devExtents
  cmds := []
  provider := p
  out := .start counters
  inflight := 0
  failed := false
  main := .walking
  cmd := .new depth
  rsp := .new depth
  reader := .idle

def fail (s : Prefetch P) : Prefetch P :=
  { s with extents := [], cmds := [], failed := true, main := .walking }

/-- A response was verified. -/
def verified (s : Prefetch P) (rsp : Channel (ReadCmd × Isolation)) (out : ScrubOut)
    (main : MainPhase) : Prefetch P :=
  { s with rsp, out, inflight := s.inflight - 1, main }

/-- The reader thread ends, and with it its ends of the channels. -/
def endReader (s : Prefetch P) (reader : ReaderPhase) : Prefetch P :=
  { s with reader, cmd := s.cmd.dropReceiver, rsp := s.rsp.dropSender }

/-- The totals; a scrub that failed returns none. -/
def result (src : CsumSource m P) (s : Prefetch P) : Option ScrubOut :=
  if s.main = .returned ∧ s.failed = false then some (s.out.finish src s.provider) else none

end Prefetch

section Steps
variable [MonadAttach m]

inductive PrefetchStep (ctx : ScrubContext m) (src : CsumSource m P) (depth : Nat) :
    Prefetch P → Prefetch P → Prop where
  /-- Not a data extent of a known chunk. -/
  | skip {s dext rest} (at_ : s.main = .walking) (cmds : s.cmds = []) (extents : s.extents = dext :: rest)
      (scrubs : ctx.scrubs dext = false) : PrefetchStep ctx src depth s { s with extents := rest }
  | walk {s dext rest entries p} (at_ : s.main = .walking) (cmds : s.cmds = [])
      (extents : s.extents = dext :: rest) (scrubs : ctx.scrubs dext = true)
      (stream : CanReturn (src.extentRange dext s.provider) (entries, p)) :
      PrefetchStep ctx src depth s { s with
        extents := rest, cmds := extentCmds ctx dext entries, provider := p,
        out := s.out.walked src s.provider p }
  | send {s c rest ch} (at_ : s.main = .walking) (cmds : s.cmds = c :: rest)
      (sent : s.cmd.send c = .sent ch) :
      PrefetchStep ctx src depth s { s with
        cmds := rest, cmd := ch, inflight := s.inflight + 1,
        main := if depth ≤ s.inflight + 1 then .receiving else .walking }
  | refused {s c rest} (at_ : s.main = .walking) (cmds : s.cmds = c :: rest)
      (refused : s.cmd.send c = .refused) : PrefetchStep ctx src depth s s.fail
  | verify {s rsp ch out} (at_ : s.main = .receiving) (got : s.rsp.recv = .received rsp ch)
      (processed : CanReturn (processRsp ctx s.out rsp) out) :
      PrefetchStep ctx src depth s (s.verified ch out .walking)
  | lost {s} (at_ : s.main = .receiving) (lost : s.rsp.recv = .disconnected) :
      PrefetchStep ctx src depth s s.fail
  | close {s} (at_ : s.main = .walking) (cmds : s.cmds = []) (extents : s.extents = []) :
      PrefetchStep ctx src depth s { s with cmd := s.cmd.dropSender, main := .draining }
  | drain {s rsp ch out} (at_ : s.main = .draining) (inflight : 0 < s.inflight)
      (got : s.rsp.recv = .received rsp ch) (processed : CanReturn (processRsp ctx s.out rsp) out) :
      PrefetchStep ctx src depth s (s.verified ch out .draining)
  | drainLost {s} (at_ : s.main = .draining) (inflight : 0 < s.inflight)
      (lost : s.rsp.recv = .disconnected) :
      PrefetchStep ctx src depth s { s with failed := true, main := .joining }
  | drained {s} (at_ : s.main = .draining) (inflight : s.inflight = 0) :
      PrefetchStep ctx src depth s { s with main := .joining }
  | join {s} (at_ : s.main = .joining) (reader : s.reader = .stopped) :
      PrefetchStep ctx src depth s { s with main := .returned }
  | joinPanicked {s} (at_ : s.main = .joining) (reader : s.reader = .panicked) :
      PrefetchStep ctx src depth s { s with failed := true, main := .returned }
  | read {s c ch iso} (at_ : s.reader = .idle) (got : s.cmd.recv = .received c ch)
      (isolated : CanReturn (isolateRunRead ctx c) iso) :
      PrefetchStep ctx src depth s { s with cmd := ch, reader := .holding (c, iso) }
  | stop {s} (at_ : s.reader = .idle) (ended : s.cmd.recv = .disconnected) :
      PrefetchStep ctx src depth s (s.endReader .stopped)
  | reply {s rsp ch} (at_ : s.reader = .holding rsp) (sent : s.rsp.send rsp = .sent ch) :
      PrefetchStep ctx src depth s { s with rsp := ch, reader := .idle }
  | unheard {s rsp} (at_ : s.reader = .holding rsp) (refused : s.rsp.send rsp = .refused) :
      PrefetchStep ctx src depth s (s.endReader .stopped)

/-- The reader thread dies between two steps of its own. -/
inductive ReaderDies : Prefetch P → Prefetch P → Prop where
  | idle {s} (at_ : s.reader = .idle) : ReaderDies s (s.endReader .panicked)
  | holding {s rsp} (at_ : s.reader = .holding rsp) : ReaderDies s (s.endReader .panicked)

/-- `scrub_dev_tree` once the reader's handle is duplicated, the reader thread alive. -/
def prefetch (ctx : ScrubContext m) (src : CsumSource m P) (depth : Nat) (p : P)
    (devExtents : List DevExtent) (counters : Counters) : Lib.Transition (Prefetch P) where
  init s := s = .start depth p devExtents counters
  step := PrefetchStep ctx src depth

/-- The same with a reader thread that may die. -/
def mortalPrefetch (ctx : ScrubContext m) (src : CsumSource m P) (depth : Nat) (p : P)
    (devExtents : List DevExtent) (counters : Counters) : Lib.Transition (Prefetch P) where
  init s := s = .start depth p devExtents counters
  step s s' := PrefetchStep ctx src depth s s' ∨ ReaderDies s s'

/-! ### What a run has done -/

namespace Prefetch

/-- Isolated and not verified, oldest first. -/
def read (s : Prefetch P) : List (ReadCmd × Isolation) := s.rsp.queue ++ s.reader.held

/-- Sent and not verified. -/
def pending (s : Prefetch P) : List ReadCmd := s.read.map (·.1) ++ s.cmd.queue

/-- The streams of the extents walked so far, and the responses verified. A scrub that has not
failed has lost nothing in between. -/
structure Follows (ctx : ScrubContext m) (src : CsumSource m P) (p : P)
    (devExtents : List DevExtent) (first : ScrubOut) (work : List Streamed)
    (rsps : List (ReadCmd × Isolation)) (s : Prefetch P) : Prop where
  walks : s.failed = false →
    ∃ done, devExtents = done ++ s.extents ∧ Walks ctx src p done work s.provider
  order : s.failed = false → s.reader ≠ .panicked →
    runCmds (runsOf ctx.strategy.sectorSize) work = rsps.map (·.1) ++ s.pending ++ s.cmds
  count : s.failed = false → s.reader ≠ .panicked → s.inflight = s.pending.length
  isolated : ∀ r ∈ rsps ++ s.read, CanReturn (isolateRunRead ctx r.1) r.2
  verified : VerifiedRuns ctx first rsps s.out
  closed : s.main.closed = true → s.cmds = [] ∧ s.extents = []
  drained : s.failed = false → s.main = .joining ∨ s.main = .returned → s.inflight = 0
  joined : s.failed = false → s.main = .returned → s.reader = .stopped
  listening : s.rsp.receiver = true

section Follows
variable {ctx : ScrubContext m} {src : CsumSource m P} {depth : Nat} {p : P}
  {devExtents : List DevExtent} {first : ScrubOut} {work : List Streamed}
  {rsps : List (ReadCmd × Isolation)} {s s' : Prefetch P} {counters : Counters}

theorem start_follows : (start depth p devExtents counters).Follows ctx src p devExtents
    (.start counters) [] [] where
  walks _ := ⟨[], rfl, .nil⟩
  order _ _ := rfl
  count _ _ := rfl
  isolated := nofun
  verified := .start
  closed := nofun
  drained := by
    rintro - (h | h)
    · cases h
    · cases h
  joined _ h := by cases h
  listening := rfl

namespace Follows

/-- A step that gives up. -/
theorem fail (h : s.Follows ctx src p devExtents first work rsps) :
    s.fail.Follows ctx src p devExtents first work rsps where
  walks hok := by cases hok
  order hok := by cases hok
  count hok := by cases hok
  isolated := h.isolated
  verified := h.verified
  closed := nofun
  drained hok := by cases hok
  joined hok := by cases hok
  listening := h.listening

theorem endReader (h : s.Follows ctx src p devExtents first work rsps) {reader : ReaderPhase}
    (hover : reader = .stopped ∧ s.reader = .idle ∧ s.cmd.queue = [] ∨ reader = .panicked)
    (hjoined : s.main = .returned → s.failed = false → reader = .stopped) :
    (s.endReader reader).Follows ctx src p devExtents first work rsps where
  walks := h.walks
  order hok halive := by
    rcases hover with ⟨rfl, hidle, hqueue⟩ | rfl
    · have horder := h.order hok (by rw [hidle]; nofun)
      unfold pending read at horder ⊢
      rw [hidle, hqueue] at horder
      exact horder
    · exact absurd rfl halive
  count hok halive := by
    rcases hover with ⟨rfl, hidle, hqueue⟩ | rfl
    · have hcount := h.count hok (by rw [hidle]; nofun)
      unfold pending read at hcount ⊢
      rw [hidle, hqueue] at hcount
      exact hcount
    · exact absurd rfl halive
  isolated r hr := by
    apply h.isolated r
    have hheld : (s.endReader reader).read = s.rsp.queue := by
      rcases hover with ⟨rfl, -, -⟩ | rfl <;> exact List.append_nil _
    rw [hheld] at hr
    rcases List.mem_append.mp hr with hr | hr
    · exact List.mem_append_left _ hr
    · exact List.mem_append_right _ (List.mem_append_left _ hr)
  verified := h.verified
  closed := h.closed
  drained := h.drained
  joined hok hmain := hjoined hmain hok
  listening := h.listening

/-- The oldest response is verified. -/
theorem verify (h : s.Follows ctx src p devExtents first work rsps) {rsp : ReadCmd × Isolation}
    {ch : Channel (ReadCmd × Isolation)} {out : ScrubOut} {main : MainPhase}
    (hmain : main = .walking ∨ main = .draining ∧ s.main = .draining)
    (got : s.rsp.recv = .received rsp ch) (processed : CanReturn (processRsp ctx s.out rsp) out) :
    (s.verified ch out main).Follows ctx src p devExtents first work (rsps ++ [rsp]) := by
  obtain ⟨rest, hqueue, rfl⟩ := Channel.recv_received got
  have hread : s.read = rsp :: (s.verified { s.rsp with queue := rest } out main).read := by
    unfold Prefetch.read
    rw [hqueue]
    rfl
  have hpending : s.pending =
      rsp.1 :: (s.verified { s.rsp with queue := rest } out main).pending := by
    unfold pending
    rw [hread]
    rfl
  constructor
  case walks => exact h.walks
  case order =>
      intro hok halive
      rw [h.order hok halive, hpending]
      simp [Prefetch.verified]
  case count =>
      intro hok halive
      have hcount := h.count hok halive
      rw [hpending, List.length_cons] at hcount
      exact Nat.sub_eq_of_eq_add hcount
  case isolated =>
      intro r hr
      apply h.isolated r
      rw [hread]
      simpa using hr
  case verified => exact h.verified.rsp processed
  case closed =>
      intro hclosed
      rcases hmain with rfl | ⟨rfl, hdraining⟩
      · cases hclosed
      · exact h.closed (by rw [hdraining]; rfl)
  case drained =>
      intro _ hend
      rcases hmain with rfl | ⟨rfl, -⟩ <;> rcases hend with hend | hend <;> cases hend
  case joined =>
      intro _ hend
      rcases hmain with rfl | ⟨rfl, -⟩ <;> cases hend
  case listening => exact h.listening

/-- Neither the channels nor the reader thread changes. -/
theorem moveMain (h : s.Follows ctx src p devExtents first work rsps) {main : MainPhase}
    (hclosed : main.closed = true → s.cmds = [] ∧ s.extents = [])
    (hdrained : s.failed = false → main = .joining ∨ main = .returned → s.inflight = 0)
    (hjoined : s.failed = false → main = .returned → s.reader = .stopped) :
    Follows ctx src p devExtents first work rsps { s with main } :=
  { h with closed := hclosed, drained := hdrained, joined := hjoined }

/-- Once it has failed, a scrub only has to end. -/
theorem moveFailed (h : s.Follows ctx src p devExtents first work rsps) {main : MainPhase}
    (hclosed : main.closed = true → s.cmds = [] ∧ s.extents = []) :
    Follows ctx src p devExtents first work rsps { s with failed := true, main } where
  walks hok := by cases hok
  order hok := by cases hok
  count hok := by cases hok
  isolated := h.isolated
  verified := h.verified
  closed := hclosed
  drained hok := by cases hok
  joined hok := by cases hok
  listening := h.listening

theorem step (h : s.Follows ctx src p devExtents first work rsps)
    (hstep : PrefetchStep ctx src depth s s') :
    ∃ work rsps, s'.Follows ctx src p devExtents first work rsps := by
  cases hstep with
  | @skip dext rest at_ cmds extents scrubs =>
      refine ⟨work, rsps, { h with walks := ?_, closed := ?_ }⟩
      · intro hok
        obtain ⟨done, hdone, hwalks⟩ := h.walks hok
        refine ⟨done ++ [dext], ?_, hwalks.snoc_skip scrubs⟩
        rw [hdone, extents, List.append_assoc, List.singleton_append]
      · intro hclosed
        rw [at_] at hclosed
        cases hclosed
  | @walk dext rest entries p at_ cmds extents scrubs stream =>
      refine ⟨work ++ [(dext, entries)], rsps,
        { h with walks := ?_, order := ?_, verified := h.verified.counters _, closed := ?_ }⟩
      · intro hok
        obtain ⟨done, hdone, hwalks⟩ := h.walks hok
        refine ⟨done ++ [dext], ?_, hwalks.snoc_walk scrubs stream⟩
        rw [hdone, extents, List.append_assoc, List.singleton_append]
      · intro hok halive
        rw [runCmds_snoc, h.order hok halive, cmds, List.append_nil]
        rfl
      · intro hclosed
        rw [at_] at hclosed
        cases hclosed
  | @send c rest ch at_ cmds sent =>
      obtain ⟨rfl, -, -⟩ := Channel.send_sent sent
      refine ⟨work, rsps, { h with order := ?_, count := ?_, closed := ?_, drained := ?_, joined := ?_ }⟩
      · intro hok halive
        rw [h.order hok halive, cmds]
        simp [pending, Prefetch.read, Channel.push]
      · intro hok halive
        change s.inflight + 1 = _
        rw [h.count hok halive]
        simp [pending, Prefetch.read, Channel.push, Nat.add_assoc]
      · intro hclosed
        dsimp only at hclosed
        split at hclosed <;> cases hclosed
      · intro _ hend
        dsimp only at hend
        split at hend <;> rcases hend with hend | hend <;> cases hend
      · intro _ hend
        dsimp only at hend
        split at hend <;> cases hend
  | refused => exact ⟨work, rsps, h.fail⟩
  | verify at_ got processed => exact ⟨work, _, h.verify (.inl rfl) got processed⟩
  | lost => exact ⟨work, rsps, h.fail⟩
  | close at_ cmds extents =>
      refine ⟨work, rsps, { h with closed := fun _ => ⟨cmds, extents⟩, drained := ?_, joined := ?_ }⟩
      · rintro - (hend | hend) <;> cases hend
      · intro _ hend
        cases hend
  | drain at_ inflight got processed =>
      exact ⟨work, _, h.verify (.inr ⟨rfl, at_⟩) got processed⟩
  | drainLost at_ =>
      exact ⟨work, rsps, h.moveFailed fun _ => h.closed (by rw [at_]; rfl)⟩
  | drained at_ inflight =>
      refine ⟨work, rsps, h.moveMain (fun _ => h.closed (by rw [at_]; rfl)) (fun _ _ => inflight) ?_⟩
      intro _ hend
      cases hend
  | join at_ reader =>
      exact ⟨work, rsps, h.moveMain (fun _ => h.closed (by rw [at_]; rfl))
        (fun hok _ => h.drained hok (.inl at_)) fun _ _ => reader⟩
  | joinPanicked at_ =>
      exact ⟨work, rsps, h.moveFailed fun _ => h.closed (by rw [at_]; rfl)⟩
  | @read c ch iso at_ got isolated =>
      obtain ⟨rest, hqueue, rfl⟩ := Channel.recv_received got
      have halive : s.reader ≠ .panicked := by rw [at_]; rintro ⟨⟩
      refine ⟨work, rsps, { h with order := ?_, count := ?_, isolated := ?_, joined := ?_ }⟩
      · intro hok _
        rw [h.order hok halive]
        simp [pending, Prefetch.read, ReaderPhase.held, at_, hqueue]
      · intro hok _
        change s.inflight = _
        rw [h.count hok halive]
        simp [pending, Prefetch.read, ReaderPhase.held, at_, hqueue]
      · intro r hr
        have hold := h.isolated r
        simp only [Prefetch.read, ReaderPhase.held, at_, List.mem_append, List.mem_singleton,
          List.not_mem_nil, or_false] at hr hold
        rcases hr with hr | hr | rfl
        · exact hold (.inl hr)
        · exact hold (.inr hr)
        · exact isolated
      · intro hok hend
        have hstopped := h.joined hok hend
        rw [at_] at hstopped
        cases hstopped
  | stop at_ ended =>
      obtain ⟨hqueue, -⟩ := Channel.recv_disconnected ended
      exact ⟨work, rsps, h.endReader (.inl ⟨rfl, at_, hqueue⟩) fun _ _ => rfl⟩
  | @reply rsp ch at_ sent =>
      obtain ⟨rfl, -, -⟩ := Channel.send_sent sent
      have halive : s.reader ≠ .panicked := by rw [at_]; rintro ⟨⟩
      have hread : s.read = Prefetch.read { s with rsp := s.rsp.push rsp, reader := .idle } := by
        simp [Prefetch.read, ReaderPhase.held, at_, Channel.push]
      refine ⟨work, rsps, { h with order := ?_, count := ?_, isolated := ?_, joined := ?_ }⟩
      · intro hok _
        rw [h.order hok halive, pending, pending, hread]
      · intro hok _
        refine (h.count hok halive).trans ?_
        rw [pending, pending, hread]
      · rw [← hread]
        exact h.isolated
      · intro hok hend
        have hstopped := h.joined hok hend
        rw [at_] at hstopped
        cases hstopped
  | unheard at_ refused =>
      have hgone := Channel.send_refused refused
      rw [h.listening] at hgone
      cases hgone

theorem dies (h : s.Follows ctx src p devExtents first work rsps) (hdies : ReaderDies s s') :
    s'.Follows ctx src p devExtents first work rsps := by
  have hend : ∀ {r : ReaderPhase}, s.reader = r → r ≠ .stopped →
      (s.endReader .panicked).Follows ctx src p devExtents first work rsps := by
    intro r hr hne
    apply h.endReader (.inr rfl)
    intro hmain hok
    exact absurd (hr.symm.trans (h.joined hok hmain)) hne
  cases hdies with
  | idle at_ => exact hend at_ nofun
  | holding at_ => exact hend at_ nofun

end Follows

theorem reachable_follows (h : (mortalPrefetch ctx src depth p devExtents counters).Reachable s) :
    ∃ work rsps, s.Follows ctx src p devExtents (.start counters) work rsps := by
  apply h.invariant
  · rintro s rfl
    exact ⟨[], [], start_follows⟩
  · rintro s s' ⟨work, rsps, hs⟩ (hstep | hdies)
    · exact hs.step hstep
    · exact ⟨work, rsps, hs.dies hdies⟩

/-- A scrub that returns has verified every run of every extent, in order. -/
theorem result_scrubbed {out : ScrubOut}
    (h : (mortalPrefetch ctx src depth p devExtents counters).Reachable s)
    (hresult : s.result src = some out) :
    ∃ work rsps out₁ p', Scrubbed ctx src (runsOf ctx.strategy.sectorSize) (isolateRunRead ctx) p
      devExtents (.start counters) work rsps out₁ p' ∧ out = out₁.finish src p' := by
  obtain ⟨work, rsps, hs⟩ := reachable_follows h
  unfold result at hresult
  split at hresult
  case isFalse => cases hresult
  case isTrue hend =>
      obtain ⟨hmain, hok⟩ := hend
      cases hresult
      obtain ⟨hcmds, hextents⟩ := hs.closed (by rw [hmain]; rfl)
      have halive : s.reader ≠ .panicked := by rw [hs.joined hok hmain]; nofun
      have hpending : s.pending = [] := by
        apply List.length_eq_zero_iff.mp
        rw [← hs.count hok halive, hs.drained hok (.inr hmain)]
      obtain ⟨done, hdone, hwalks⟩ := hs.walks hok
      rw [hextents, List.append_nil] at hdone
      subst hdone
      refine ⟨work, rsps, s.out, s.provider, ⟨hwalks, ?_, ?_, hs.verified⟩, rfl⟩
      · rw [hs.order hok halive, hpending, hcmds, List.append_nil, List.append_nil]
      · intro r hr
        exact hs.isolated r (List.mem_append_left _ hr)

end Follows
end Prefetch
end Steps
end Rotshield.Btrfs
