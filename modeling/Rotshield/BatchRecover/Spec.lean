import Rotshield.BatchRecover.Flush
import Rotshield.Lib.Hoare
import Rotshield.Recovery.Accept

/-! Triples over what the writer keeps: no action on the world touches it. -/
namespace Rotshield.BatchRecover
open Lib (Triple)

variable {σ α β : Type}

/-- A triple about the books alone; `fail` holds of them when the writer stops. -/
def Spec (pre : Books → Prop) (x : WriterM σ α) (post : α → Books → Prop)
    (fail : Stop → Books → Prop) : Prop :=
  Triple (fun s => pre s.books) x (fun a s => post a s.books) (fun e s => fail e s.books)

namespace Spec
variable {pre pre' : Books → Prop} {post post' : α → Books → Prop} {fail : Stop → Books → Prop}
  {x : WriterM σ α}

theorem pure {a : α} (h : ∀ b, pre b → post a b) : Spec pre (Pure.pure a : WriterM σ α) post fail :=
  fun s hs => h s.books hs

theorem throw {e : Stop} (h : ∀ b, pre b → fail e b) :
    Spec pre (throw e : WriterM σ α) post fail :=
  fun s hs => h s.books hs

theorem bind {f : α → WriterM σ β} (mid : α → Books → Prop) {post : β → Books → Prop}
    (hx : Spec pre x mid fail) (hf : ∀ a, Spec (mid a) (f a) post fail) :
    Spec pre (x >>= f) post fail :=
  Triple.bind hx hf

theorem conseq (h : Spec pre x post fail) (hpre : ∀ b, pre' b → pre b)
    (hpost : ∀ a b, post a b → post' a b) : Spec pre' x post' fail :=
  Triple.conseq h (fun s => hpre s.books) fun a s => hpost a s.books

theorem weaken_fail {fail' : Stop → Books → Prop} (h : Spec pre x post fail)
    (hfail : ∀ e b, fail e b → fail' e b) : Spec pre x post fail' :=
  Triple.weaken h (fun _ hs => hs) (fun _ _ ha => ha) fun e s => hfail e s.books

theorem of_forall (h : ∀ b₀, pre b₀ → Spec (fun b => b = b₀) x post fail) :
    Spec pre x post fail :=
  fun s hs => h s.books hs s rfl

theorem and {fail' : Stop → Books → Prop} (h : Spec pre x post fail) (h' : Spec pre' x post' fail') :
    Spec (fun b => pre b ∧ pre' b) x (fun a b => post a b ∧ post' a b)
      fun e b => fail e b ∧ fail' e b := by
  intro s hs
  have hend := h s hs.1
  have hend' := h' s hs.2
  rcases hrun : x.run.run s with ⟨e | a, s'⟩
  · rw [hrun] at hend hend'
    exact ⟨hend, hend'⟩
  · rw [hrun] at hend hend'
    exact ⟨hend, hend'⟩

/-- What both ends promise holds of the state a run leaves. -/
theorem run_state {post : Books → Prop} (h : Spec pre x (fun _ => post) fail)
    (hfail : ∀ e b, fail e b → post b) {s : WriterState σ} (hs : pre s.books) :
    post (x.run.run s).2.books := by
  have hend := h s hs
  rcases hrun : x.run.run s with ⟨e | a, s'⟩
  · rw [hrun] at hend
    exact hfail e _ hend
  · rw [hrun] at hend
    exact hend

theorem onBooks {f : Books → Books} {post : Unit → Books → Prop} (h : ∀ b, pre b → post () (f b)) :
    Spec pre (onBooks f : WriterM σ Unit) post fail :=
  fun s hs => h s.books hs

theorem books (post : Books → Books → Prop) (h : ∀ b, pre b → post b b) :
    Spec pre (books : WriterM σ Books) post fail :=
  fun s hs => h s.books hs

theorem world {y : StateM σ α} (post : α → Books → Prop) (h : ∀ a b, pre b → post a b) :
    Spec pre (world y) post fail :=
  fun s hs => h (y.run s.world).1 s.books hs

theorem attempt {y : ExceptT IoError (StateM σ) α} {post : Except IoError α → Books → Prop}
    (h : ∀ a b, pre b → post a b) : Spec pre (attempt y) post fail :=
  world _ h

/-- Then an action on the world, whose result does not matter. -/
theorem attempt_bind {y : ExceptT IoError (StateM σ) α} {f : Except IoError α → WriterM σ β}
    {post : β → Books → Prop} (h : ∀ a, Spec pre (f a) post fail) :
    Spec pre (BatchRecover.attempt y >>= f) post fail :=
  bind _ (attempt fun _ _ hb => hb) h

end Spec

/-! One rule for each function of the writer: what it can leave in the books. -/

section Rules
variable {pre : Books → Prop} {fail : Stop → Books → Prop} {env : WriterEnv σ} {args : WriterArgs}
  {cand : Candidate}

theorem spec_guard {post : Except IoError Bool → Books → Prop}
    (hoffline : ∀ b, pre b → b.freeze.mountpoint = none → post (.ok false) b)
    (hfroze : ∀ b, pre b → b.freeze.mountpoint.isSome →
      post (.ok true) ((b.setFreeze b.freeze.froze).note (.freeze true)))
    (hfailed : ∀ b e, pre b → b.freeze.mountpoint.isSome →
      post (.error e) (b.note (.freeze false))) :
    Spec pre (guard env) post fail := by
  refine Spec.of_forall fun b₀ hpre => ?_
  unfold guard
  refine Spec.bind _ (Spec.books (fun a b => a = b₀ ∧ b = b₀) fun b hb => ⟨hb, hb⟩) ?_
  intro a
  refine Spec.of_forall fun b₁ hb => ?_
  obtain ⟨rfl, rfl⟩ := hb
  cases hmount : b₁.freeze.mountpoint with
  | none => exact Spec.pure fun b hb => hb ▸ hoffline _ hpre hmount
  | some mountpoint =>
      have hsome : b₁.freeze.mountpoint.isSome := by rw [hmount]; rfl
      refine Spec.attempt_bind fun r => ?_
      cases r with
      | ok _ =>
          refine Spec.bind (fun _ b =>
            b = (b₁.setFreeze b₁.freeze.froze).note (.freeze true)) ?_ fun _ => ?_
          · exact Spec.onBooks fun b hb => by rw [hb]
          · exact Spec.pure fun b hb => hb ▸ hfroze _ hpre hsome
      | error e =>
          refine Spec.bind (fun _ b => b = b₁.note (.freeze false)) ?_ fun _ => ?_
          · exact Spec.onBooks fun b hb => by rw [hb]
          · exact Spec.pure fun b hb => hb ▸ hfailed _ e hpre hsome

theorem spec_thaw {post : Unit → Books → Prop}
    (hidle : ∀ b, pre b → b.freeze.frozen = false → post () b)
    (hoffline : ∀ b, pre b → b.freeze.mountpoint = none →
      post () (b.setFreeze b.freeze.released))
    (hthaw : ∀ b r, pre b → b.freeze.frozen = true → b.freeze.mountpoint.isSome →
      post () ((b.setFreeze (b.freeze.thawed r)).note (.thaw r.isOk))) :
    Spec pre (thaw env) post fail := by
  refine Spec.of_forall fun b₀ hpre => ?_
  unfold thaw
  refine Spec.bind _ (Spec.books (fun a b => a = b₀ ∧ b = b₀) fun b hb => ⟨hb, hb⟩) ?_
  intro a
  refine Spec.of_forall fun b₁ hb => ?_
  obtain ⟨rfl, rfl⟩ := hb
  dsimp only
  split
  case isFalse hfrozen => exact Spec.pure fun b hb => hb ▸ hidle _ hpre (by simpa using hfrozen)
  case isTrue hfrozen =>
      cases hmount : b₁.freeze.mountpoint with
      | none => exact Spec.onBooks fun b hb => by rw [hb]; exact hoffline _ hpre hmount
      | some mountpoint =>
          refine Spec.attempt_bind fun r => ?_
          exact Spec.onBooks fun b hb => by
            rw [hb]; exact hthaw _ r hpre hfrozen (by rw [hmount]; rfl)

theorem spec_takeThawError {post : Option IoError → Books → Prop}
    (h : ∀ b, pre b → post b.freeze.lastThawError
      (b.setFreeze b.freeze.clearThawError)) :
    Spec pre (takeThawError : WriterM σ _) post fail := by
  refine Spec.of_forall fun b₀ hpre => ?_
  unfold takeThawError
  refine Spec.bind _ (Spec.books (fun a b => a = b₀ ∧ b = b₀) fun b hb => ⟨hb, hb⟩) ?_
  intro a
  refine Spec.of_forall fun b₁ hb => ?_
  obtain ⟨rfl, rfl⟩ := hb
  refine Spec.bind (fun _ b =>
    b = b₁.setFreeze b₁.freeze.clearThawError) ?_ fun _ => ?_
  · exact Spec.onBooks fun b hb => by rw [hb]
  · exact Spec.pure fun b hb => hb ▸ h _ hpre

theorem spec_verdictOf {post : Reconfirm → Books → Prop}
    (hnone : ∀ b, pre b → cand.reconfirm = none → post .corruption b)
    (hask : ∀ b req v, pre b → cand.reconfirm = some req → post v (b.note (.reconfirm req v))) :
    Spec pre (verdictOf env cand) post fail := by
  unfold verdictOf
  cases hreq : cand.reconfirm with
  | none => exact Spec.pure fun b hb => hnone b hb hreq
  | some req =>
      refine Spec.bind _ (Spec.world (fun _ => pre) fun _ _ hb => hb) fun v => ?_
      refine Spec.bind (fun _ b => post v b) ?_ fun _ => Spec.pure fun _ hb => hb
      exact Spec.onBooks fun b hb => hask b req v hb hreq

theorem spec_rereadFailing {post : Confirmed cand.blockSize → Books → Prop}
    (hunread : ∀ b, pre b → cand.unreadable = true →
      post (.corrupt (Vector.replicate cand.blockSize 0) true) b)
    (hread : ∀ b (block : Vector UInt8 cand.blockSize), pre b → cand.unreadable = false →
      post (if cand.verify block.toList then .stale else .corrupt block false)
        (b.note (.reread cand.failingDev cand.arrayPhys (some block.toList))))
    (herror : ∀ b, pre b → cand.unreadable = false →
      post (.corrupt (Vector.replicate cand.blockSize 0) true)
        (b.note (.reread cand.failingDev cand.arrayPhys none))) :
    Spec pre (rereadFailing env args cand) post fail := by
  unfold rereadFailing
  cases hflag : cand.unreadable with
  | true => exact Spec.pure fun b hb => hunread b hb hflag
  | false =>
      refine Spec.attempt_bind fun got => ?_
      cases got with
      | ok block =>
          refine Spec.bind (fun _ b =>
            post (if cand.verify block.toList then .stale else .corrupt block false) b) ?_
            fun _ => Spec.pure fun _ hb => hb
          exact Spec.onBooks fun b hb => hread b block hb hflag
      | error e =>
          refine Spec.bind (fun _ b =>
            post (.corrupt (Vector.replicate cand.blockSize 0) true) b) ?_
            fun _ => Spec.pure fun _ hb => hb
          exact Spec.onBooks fun b hb => herror b hb hflag

theorem spec_readBack {post : Outcome → Books → Prop} (h : ∀ b o, pre b → post o b) :
    Spec pre (readBack env args cand) post fail := by
  unfold readBack
  refine Spec.attempt_bind fun reread => Spec.attempt_bind fun _ => ?_
  cases reread with
  | ok block => exact Spec.pure fun b hb => h b _ hb
  | error e => exact Spec.pure fun b hb => h b _ hb

/-- The write is issued once; afterwards only the shared counters may change. -/
theorem spec_writeBack {hasLiveMount : Bool} {block : Vector UInt8 cand.blockSize}
    {written : Books → Prop} {post : Outcome → Books → Prop}
    (hwrite : ∀ b, pre b → written (b.note (.write cand.failingDev cand.arrayPhys block.toList)))
    (hrepaired : ∀ b, written b → written b.repairedWhileMounted)
    (hpost : ∀ b o, written b → post o b) :
    Spec pre (writeBack env args hasLiveMount cand block) post fail := by
  unfold writeBack
  refine Spec.bind (fun _ => written) (Spec.onBooks hwrite) fun _ => ?_
  refine Spec.attempt_bind fun done => ?_
  cases done with
  | error e => exact Spec.pure fun b hb => hpost b _ hb
  | ok _ =>
      refine Spec.bind (fun _ => written) (Spec.onBooks fun b hb => ?_) fun _ => ?_
      · split
        · exact hrepaired b hb
        · exact hb
      · refine Spec.attempt_bind fun flushed => ?_
        cases flushed with
        | ok _ => exact spec_readBack hpost
        | error e =>
            refine Spec.bind _ (Spec.world (fun _ => written) fun _ _ hb => hb) fun isBlock => ?_
            cases isBlock with
            | true => exact Spec.attempt_bind fun _ => Spec.pure fun b hb => hpost b _ hb
            | false => exact spec_readBack hpost

/-- A write is issued only in a repair run that may write, with accepted bytes; without one, only
a dry run calls the candidate recovered. -/
theorem spec_recover_ends {hasLiveMount writesAllowed : Bool} {block : Vector UInt8 cand.blockSize}
    {unreadable : Bool} {written : Books → Prop} {post : Outcome → Books → Prop}
    (hfail : ∀ b h, pre b → fail (.halt h) b)
    (hend : ∀ b o, pre b → (o = .recovered → args.dryRun = true) → post o b)
    (hwrite : ∀ b (bytes : Vector UInt8 cand.blockSize), pre b → args.dryRun = false →
      writesAllowed = true → cand.verify bytes.toList = true →
      written (b.note (.write cand.failingDev cand.arrayPhys bytes.toList)))
    (hrepaired : ∀ b, written b → written b.repairedWhileMounted)
    (hpost : ∀ b o, written b → post o b) :
    Spec pre (recover env args hasLiveMount writesAllowed cand block unreadable) post fail := by
  unfold recover
  refine Spec.attempt_bind fun gathered => ?_
  cases gathered with
  | error e => exact Spec.pure fun b hb => hend b _ hb nofun
  | ok chunks =>
      dsimp only
      split
      case h_1 h _ => exact Spec.throw fun b hb => hfail b h hb
      case h_2 via recovered hrec =>
          have hverify : cand.verify recovered.toList = true := Recovery.recoverBlock_accepted hrec
          split
          case isTrue hassess =>
              refine Spec.pure fun b hb => hend b _ hb fun hrecovered => ?_
              cases writesAllowed with
              | true => simpa using hassess
              | false => cases hrecovered
          case isFalse hallowed =>
              simp only [Bool.or_eq_true, Bool.not_eq_true', not_or, Bool.not_eq_true,
                Bool.not_eq_false] at hallowed
              exact spec_writeBack (fun b hb => hwrite b recovered hb hallowed.1 hallowed.2 hverify)
                hrepaired hpost
      case h_3 => exact Spec.pure fun b hb => hend b _ hb nofun
      case h_4 => exact Spec.pure fun b hb => hend b _ hb nofun

theorem spec_recover {hasLiveMount writesAllowed : Bool} {block : Vector UInt8 cand.blockSize}
    {unreadable : Bool} {written : Books → Prop} {post : Outcome → Books → Prop}
    (hfail : ∀ b h, pre b → fail (.halt h) b)
    (hend : ∀ b o, pre b → post o b)
    (hwrite : ∀ b (bytes : Vector UInt8 cand.blockSize), pre b → args.dryRun = false →
      writesAllowed = true → cand.verify bytes.toList = true →
      written (b.note (.write cand.failingDev cand.arrayPhys bytes.toList)))
    (hrepaired : ∀ b, written b → written b.repairedWhileMounted)
    (hpost : ∀ b o, written b → post o b) :
    Spec pre (recover env args hasLiveMount writesAllowed cand block unreadable) post fail :=
  spec_recover_ends hfail (fun b o hb _ => hend b o hb) hwrite hrepaired hpost

end Rules
end Rotshield.BatchRecover
