import VizGateway.Sample

/-!
# No second live release signature

The gate replaces a release only when the node calls it expired and not landed, and it takes any
failed lookup for "not landed". While the node reveals what landed, every body signed before
another one is dead; a node that errors on a landed transaction lets a second one through.
-/

namespace VizGateway

open Checks Text Runs

section

variable {L : Libs}

/-- A request for the id proposes a release, and the node reveals the one it would replace. -/
def RevealedRelease (L : Libs) (id : String) (s : SignerWorld) : SignerEvent → Prop
  | .approve view req => ∀ action row, actionFromWire req.action = some action → action.id = id →
      proposalKey L req.proposal = .ok row →
      VizShaped req.proposal ∧ hasGrapheneTime req.proposal
        ∧ ∀ prev, s.ledger id = some prev → prev.key ≠ row.key → s.Reveals L view prev
  | _ => True

/-- A release signed for the id leaves every other body signed for it before neither landed nor
able to land. -/
def SignsSafely (R : ReleaseChain L) (cfg : SignerConfig) (id : String) (s : SignerWorld) :
    SignerEvent → Prop
  | .approve view req => ∀ a bytes, (approve L cfg view s.ledger req).1 = .ok a →
      a.actionId = id → a.effect = .vizRelease bytes →
      ∀ e ∈ s.authorised, e.actionId = id → ∀ other, e.effect = .vizRelease other →
        other ≠ bytes → s.Dead R other
  | _ => True

variable {R : ReleaseChain L} {cfg : SignerConfig} {id : String} {s : SignerWorld}

theorem RevealedRelease.meets {e : SignerEvent} (h : RevealedRelease L id s e) :
    RequestMeets L id s e := by
  cases e with
  | approve view req =>
    intro action row haction hid hrow
    obtain ⟨hshape, htime, hrev⟩ := h action row haction hid hrow
    exact ⟨shapeFits_of_vizShaped hshape, fun _ => htime, hrev⟩
  | land bytes => trivial
  | advance ms => trivial

theorem signsSafely_of_revealed (htrx : Function.Injective L.trxHash) (hs : Keyed R s id)
    {e : SignerEvent} (h : RevealedRelease L id s e) : SignsSafely R cfg id s e := by
  cases e with
  | land bytes => trivial
  | advance ms => trivial
  | approve view req =>
    intro a bytes hok haid heff old hold hoid other hother hne
    obtain ⟨action, row, haction, hrow, hgate, hid, hroute⟩ :=
      approve_eq_ok hok
    rw [haid] at hid
    obtain ⟨hshape, -, hrev⟩ := h action row haction hid.symm hrow
    rw [← hid] at hgate
    have hkey := effectKeyed_of_route hrow (shapeFits_of_vizShaped hshape) hroute
    rw [heff] at hkey
    rcases runGate_eq_ok hgate with ⟨hnone, -⟩ | ⟨prev, hprev, hk, -⟩ | ⟨prev, hprev, hrep, -⟩
    · obtain ⟨r, hr, -⟩ := hs.effect hold hoid
      simp [hnone] at hr
    · -- the row is this release's, so the other body is not the row's
      obtain ⟨r, hr, hkeyed | ⟨c, hc, hdead⟩⟩ := hs.effect hold hoid
      · rw [hprev, Option.some.injEq] at hr
        subst hr
        rw [hother] at hkeyed
        exact absurd (releaseKey_injective htrx (hkeyed.symm.trans (hk.trans hkey))) hne
      · rw [hother, Effect.vizRelease.injEq] at hc
        exact hc ▸ hdead
    · obtain ⟨c, hc, hdead⟩ := dead_of_replaceable hs hprev hrep (hrev prev hprev hrep.ne) hold hoid
      rw [hother, Effect.vizRelease.injEq] at hc
      exact hc ▸ hdead

/-- In a run whose requests for the id are revealed releases, no release is signed for it while
another body signed before has landed or can still land. -/
theorem no_second_live_signature (htrx : Function.Injective L.trxHash)
    {landed : List (List UInt8)} {headMs : ℤ} {es : List SignerEvent}
    (h : Meets (SignerWorld.step R cfg) (RevealedRelease L id) (.init landed headMs) es) :
    ∀ pre e post, es = pre ++ e :: post →
      SignsSafely R cfg id (run (SignerWorld.step R cfg) (.init landed headMs) pre) e := by
  rintro pre e post rfl
  have hstep : ∀ s e, Keyed R s id → RevealedRelease L id s e → Keyed R (s.step R cfg e) id :=
    fun s e hs he => hs.step htrx e he.meets
  obtain ⟨hinv, he⟩ := run_inv_at hstep (keyed_init landed headMs) h
  exact signsSafely_of_revealed htrx hinv he

end

/-! ## On the sample nodes -/

/-- A release is signed and lands, its node forgets it, its expiration passes. -/
def forgottenRun : List SignerEvent :=
  [.approve (sampleRequestView ["carol"]) (sampleReleaseRequest 1), .land (sampleReleaseBytes 1),
    .advance 1767225900000]

def forgottenWorld : SignerWorld :=
  run (SignerWorld.step sampleChain sampleConfig) (.init [] 1767225600000) forgottenRun

/-- Then another body is signed though the first has landed. -/
theorem secondSignature_afterLanding :
    sampleReleaseBytes 1 ∈ forgottenWorld.landed
      ∧ (⟨sampleBurnHash, .vizRelease (sampleReleaseBytes 1), 120000⟩ : Authorised)
          ∈ forgottenWorld.authorised
      ∧ (approve sampleLibs sampleConfig sampleLaterView forgottenWorld.ledger
          (sampleReleaseRequest 2)).1
        = .ok ⟨sampleBurnHash, "op1", .vizRelease (sampleReleaseBytes 2)⟩
      ∧ sampleReleaseBytes 1 ≠ sampleReleaseBytes 2 := by
  decide +kernel

/-- Signed once, never landed, expired. -/
def expiredRun : List SignerEvent :=
  [.approve (sampleRequestView ["carol"]) (sampleReleaseRequest 1), .advance 1767225900000]

theorem sampleRelease_time (n : ℕ) : hasGrapheneTime (sampleRelease n) :=
  ⟨"2026-01-01T00:01:00", rfl, by decide⟩

/-- With the same answers, and the first body dead, the second one is signed safely. -/
theorem no_second_live_signature_expired :
    SignsSafely sampleChain sampleConfig sampleBurnHash
      (run (SignerWorld.step sampleChain sampleConfig) (.init [] 1767225600000) expiredRun)
      (.approve sampleLaterView (sampleReleaseRequest 2)) := by
  have hfirst : RevealedRelease sampleLibs sampleBurnHash (.init [] 1767225600000)
      (.approve (sampleRequestView ["carol"]) (sampleReleaseRequest 1)) := by
    refine fun action row _ _ _ => ⟨by decide, sampleRelease_time 1, fun prev hprev => ?_⟩
    simp [SignerWorld.init] at hprev
  have hsecond : RevealedRelease sampleLibs sampleBurnHash
      (run (SignerWorld.step sampleChain sampleConfig) (.init [] 1767225600000) expiredRun)
      (.approve sampleLaterView (sampleReleaseRequest 2)) := by
    refine fun action row _ _ _ => ⟨by decide, sampleRelease_time 2, fun prev hprev _ ms _ _ => ?_⟩
    have hrow : (run (SignerWorld.step sampleChain sampleConfig) (.init [] 1767225600000)
        expiredRun).ledger sampleBurnHash
          = some ⟨releaseKey sampleLibs (sampleReleaseBytes 1), 1767225660000⟩ := by decide +kernel
    have hp := hrow.symm.trans hprev
    rw [Option.some.injEq] at hp
    subst hp
    exact ⟨by decide +kernel, fun bytes hb => absurd hb List.not_mem_nil⟩
  have hmeets : Meets (SignerWorld.step sampleChain sampleConfig)
      (RevealedRelease sampleLibs sampleBurnHash) (.init [] 1767225600000)
      (expiredRun ++ [.approve sampleLaterView (sampleReleaseRequest 2)]) :=
    ⟨hfirst, trivial, hsecond, trivial⟩
  exact no_second_live_signature sampleLibs_trxHash hmeets expiredRun _ [] rfl

end VizGateway
