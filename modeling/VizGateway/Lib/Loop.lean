import VizGateway.Lib.Prog
import VizGateway.Lib.Runs

/-!
# A process that turns a loop

A process starts with a program that reads its memory back, then turns a loop, each turn a program
from the memory the last one left. It dies at any await and is started again; its memory is then
what the start reads. The state is shared with an outside that acts on its own.
-/

/-- What a process runs: its start, one turn of its loop, how an operation is carried out, and what
the outside does. -/
structure LoopSystem (Op : Type) (Ans : Op → Type) (ε σ κ ι μ : Type) where
  boot : Prog Op Ans ε κ
  turn : κ → Prog Op Ans ε κ
  exec : (o : Op) → ι → σ → σ × Except ε (Ans o)
  act : μ → σ → σ

inductive LoopEvent (ι μ : Type)
  | start
  | turn
  | await (i : ι)
  | crash
  | act (m : μ)

/-- The process: down, between two turns with its memory, or at an operation. -/
inductive LoopProc (Op : Type) (Ans : Op → Type) (ε κ : Type)
  | down
  | idle (c : κ)
  | running (p : Prog Op Ans ε κ)

/-- A program run on: ended, its outcome is the memory; thrown out of, the process is gone. -/
def LoopProc.ofProg {Op : Type} {Ans : Op → Type} {ε κ : Type} :
    Prog Op Ans ε κ → LoopProc Op Ans ε κ
  | .ret c => .idle c
  | .throw _ => .down
  | .call o k => .running (.call o k)

structure LoopWorld (Op : Type) (Ans : Op → Type) (ε σ κ : Type) where
  shared : σ
  proc : LoopProc Op Ans ε κ

namespace LoopWorld

variable {Op : Type} {Ans : Op → Type} {ε σ κ ι μ : Type}

def step (S : LoopSystem Op Ans ε σ κ ι μ) (w : LoopWorld Op Ans ε σ κ) :
    LoopEvent ι μ → LoopWorld Op Ans ε σ κ
  | .start =>
    match w.proc with
    | .down => { w with proc := .ofProg S.boot }
    | _ => w
  | .turn =>
    match w.proc with
    | .idle c => { w with proc := .ofProg (S.turn c) }
    | _ => w
  | .await i =>
    match w.proc with
    | .running (.call o k) =>
      { shared := (S.exec o i w.shared).1, proc := .ofProg (k (S.exec o i w.shared).2) }
    | _ => w
  | .crash => { w with proc := .down }
  | .act m => { w with shared := S.act m w.shared }

/-- The operation the process stands at. -/
def standsAt (w : LoopWorld Op Ans ε σ κ) : Option Op :=
  match w.proc with
  | .running (.call o _) => some o
  | _ => none

/-! ## The invariant rule -/

variable (C : Prog.Contract Op Ans ε σ ι) (I : σ → Prop) (M : κ → σ → Prop)

/-- What a process promises: its memory between turns, a safe program during one. -/
def ProcOk (s : σ) : LoopProc Op Ans ε κ → Prop
  | .down => True
  | .idle c => M c s
  | .running p => Prog.Safe C M (fun _ _ => True) p s

/-- The state's invariant, with the promise of the process. -/
structure Inv (w : LoopWorld Op Ans ε σ κ) : Prop where
  state : I w.shared
  proc : ProcOk C M w.shared w.proc

variable {C I M} {S : LoopSystem Op Ans ε σ κ ι μ} {w : LoopWorld Op Ans ε σ κ}

theorem Inv.idle {c : κ} (h : Inv C I M w) (hc : w.proc = .idle c) : M c w.shared := by
  have hp := h.proc
  rwa [hc] at hp

/-- What the process stands at, it may do. -/
theorem Inv.point {o : Op} (h : Inv C I M w) (ho : w.standsAt = some o) : C.point o w.shared := by
  have hp := h.proc
  unfold standsAt at ho
  cases hproc : w.proc with
  | running p =>
    rw [hproc] at ho hp
    cases p with
    | call o' k =>
      obtain rfl : o' = o := by simpa using ho
      exact Prog.Safe.point (C := C) hp
    | _ => cases ho
  | _ =>
    rw [hproc] at ho
    cases ho

theorem procOk_ofProg {p : Prog Op Ans ε κ} {s : σ}
    (h : Prog.Safe C M (fun _ _ => True) p s) : ProcOk C M s (.ofProg p) := by
  cases p with
  | ret c => exact h
  | throw e => trivial
  | call o k => exact h

theorem inv_start (h : Inv C I M w)
    (hboot : Prog.Safe C M (fun _ _ => True) S.boot w.shared) :
    Inv C I M (w.step S .start) := by
  simp only [step]
  split
  · exact ⟨h.state, procOk_ofProg hboot⟩
  · exact h

theorem inv_turn (h : Inv C I M w)
    (hturn : ∀ c, M c w.shared → Prog.Safe C M (fun _ _ => True) (S.turn c) w.shared) :
    Inv C I M (w.step S .turn) := by
  simp only [step]
  split
  · next c hc =>
    have hp := h.proc
    rw [hc] at hp
    exact ⟨h.state, procOk_ofProg (hturn c hp)⟩
  · exact h

theorem inv_crash (h : Inv C I M w) : Inv C I M (w.step S .crash) := ⟨h.state, trivial⟩

theorem inv_act {m : μ} (h : Inv C I M w) (hI : I (S.act m w.shared))
    (hrely : C.rely w.shared (S.act m w.shared))
    (hM : ∀ c s t, C.rely s t → M c s → M c t) : Inv C I M (w.step S (.act m)) := by
  refine ⟨hI, ?_⟩
  have hp := h.proc
  simp only [step]
  cases hproc : w.proc with
  | down => trivial
  | idle c =>
    rw [hproc] at hp
    exact hM c _ _ hrely hp
  | running p =>
    rw [hproc] at hp
    exact Prog.Safe.stable hM (fun _ _ _ _ h => h) hp hrely

/-- One await: allowed at its point, it keeps the state's invariant. -/
theorem inv_await {i : ι} (h : Inv C I M w) (hexec : ∀ o i s, S.exec o i s = C.exec o i s)
    (hself : ∀ o, w.standsAt = some o → C.point o w.shared →
      C.allowed o i w.shared ∧ I (S.exec o i w.shared).1) :
    Inv C I M (w.step S (.await i)) := by
  simp only [step]
  split
  · next o k hproc =>
    have hp := h.proc
    rw [hproc] at hp
    have hsafe : Prog.Safe C M (fun _ _ => True) (.call o k) w.shared := hp
    obtain ⟨hallowed, hI⟩ := hself o (by simp [standsAt, hproc]) hsafe.point
    refine ⟨hI, procOk_ofProg ?_⟩
    rw [hexec]
    exact hsafe.step hallowed
  · exact h

end LoopWorld
