import SpokeSensor.Lib.Transition

/-!
# Programs that ask a world that acts by itself

- `Prog`: a program is done, or asks a question and goes on with the answer. It is a
  monad, so programs are written with `do`.
- `World`: answers questions, where a choice that is not the client's may come in, and
  may act at any time by itself.
- `system`: one client runs programs one after the other, and the world acts at any
  time between two questions.
- `Assertion`, `Assertion.Stable`: an assertion for the idle client and one for each
  program still to be run, which survive every answer, every return and every act of
  the world.
- `invariant`, `world_invariant`: these hold on every run.
-/

namespace Interaction

variable {W Q R A C X E : Type}

/-- A program that asks questions `Q`, is given answers `R` and returns an `A`. -/
inductive Prog (Q R : Type) (A : Type) where
  | done (a : A)
  | ask (q : Q) (next : R → Prog Q R A)

namespace Prog

/-- One question. -/
def request (q : Q) : Prog Q R R := .ask q .done

/-- One program after the other. -/
def bind {B : Type} : Prog Q R A → (A → Prog Q R B) → Prog Q R B
  | done a, f => f a
  | ask q next, f => ask q fun r => (next r).bind f

instance : Monad (Prog Q R) where
  pure := .done
  bind := .bind

@[simp] theorem pure_eq (a : A) : (pure a : Prog Q R A) = .done a := rfl

@[simp] theorem done_bind {B : Type} (a : A) (f : A → Prog Q R B) :
    (.done a : Prog Q R A) >>= f = f a := rfl

@[simp] theorem ask_bind {B : Type} (q : Q) (next : R → Prog Q R A) (f : A → Prog Q R B) :
    (.ask q next) >>= f = .ask q fun r => next r >>= f := rfl

theorem bind_done (p : Prog Q R A) : (p >>= fun a => .done a) = p := by
  induction p with
  | done a => rfl
  | ask q next ih => exact congrArg (ask q) (funext ih)

theorem bind_bind {B C : Type} (p : Prog Q R A) (f : A → Prog Q R B) (g : B → Prog Q R C) :
    p >>= f >>= g = p >>= fun a => f a >>= g := by
  induction p with
  | done a => rfl
  | ask q next ih => exact congrArg (ask q) (funext ih)

instance : LawfulMonad (Prog Q R) :=
  LawfulMonad.mk' _ bind_done (fun _ _ => rfl) bind_bind

end Prog

/-- How the world answers, where the choice `X` is not the client's, and how it acts. -/
structure World (W Q R X E : Type) where
  answer : W → Q → X → W × R
  act : W → E → Option W

/-- The client calls, its question is answered, its program returns, or the world acts. -/
inductive Label (C X E : Type) where
  | call (c : C)
  | answer (x : X)
  | ret
  | act (e : E)

/-- The world, the program that is being run for a call, and what has been returned. -/
structure Session (W Q R A C : Type) where
  world : W
  running : Option (C × Prog Q R A)
  results : List (C × A)

variable (world : World W Q R X E) (body : C → Prog Q R A)

/-- One step, where it can come. -/
def step (s : Session W Q R A C) : Label C X E → Option (Session W Q R A C)
  | .call c => if s.running.isNone then some { s with running := some (c, body c) } else none
  | .answer x =>
    match s.running with
    | some (c, .ask q next) =>
      some { s with world := (world.answer s.world q x).1
                    running := some (c, next (world.answer s.world q x).2) }
    | _ => none
  | .ret =>
    match s.running with
    | some (c, .done a) => some { s with running := none, results := s.results ++ [(c, a)] }
    | _ => none
  | .act e => (world.act s.world e).map fun w => { s with world := w }

/-- Calls of `body`, one after the other, on a world that starts as `start`. -/
def system (start : W) : Transition.System (Session W Q R A C) (Label C X E) where
  init := { world := start, running := none, results := [] }
  step := step world body

/-- An assertion about the world and the results, for the idle client and for each
program that is left to be run. -/
structure Assertion (W Q R A C : Type) where
  idle : W → List (C × A) → Prop
  busy : C → Prog Q R A → W → List (C × A) → Prop

/-- The assertion holds of a session. -/
def Assertion.Holds (I : Assertion W Q R A C) (s : Session W Q R A C) : Prop :=
  match s.running with
  | none => I.idle s.world s.results
  | some (c, p) => I.busy c p s.world s.results

/-- The assertion survives everything that can happen. -/
structure Assertion.Stable (I : Assertion W Q R A C) (world : World W Q R X E)
    (body : C → Prog Q R A) : Prop where
  call : ∀ {c w rs}, I.idle w rs → I.busy c (body c) w rs
  answer : ∀ {c q next w rs} (x : X), I.busy c (.ask q next) w rs →
    I.busy c (next (world.answer w q x).2) (world.answer w q x).1 rs
  ret : ∀ {c a w rs}, I.busy c (.done a) w rs → I.idle w (rs ++ [(c, a)])
  actIdle : ∀ {e w v rs}, world.act w e = some v → I.idle w rs → I.idle v rs
  actBusy : ∀ {c p e w v rs}, world.act w e = some v → I.busy c p w rs → I.busy c p v rs

variable {world body} {I : Assertion W Q R A C}

theorem Assertion.Stable.step (h : I.Stable world body) {s t : Session W Q R A C} {l : Label C X E}
    (hs : I.Holds s) (hstep : step world body s l = some t) : I.Holds t := by
  obtain ⟨w, running, rs⟩ := s
  cases l with
  | call c =>
    cases running with
    | none =>
      cases hstep
      exact h.call hs
    | some cp => cases hstep
  | answer x =>
    match running, hstep, hs with
    | some (c, .ask q next), hstep, hs =>
      cases hstep
      exact h.answer x hs
  | ret =>
    match running, hstep, hs with
    | some (c, .done a), hstep, hs =>
      cases hstep
      exact h.ret hs
  | act e =>
    obtain ⟨v, hv, rfl⟩ := Option.map_eq_some_iff.mp hstep
    cases running with
    | none => exact h.actIdle hv hs
    | some cp => exact h.actBusy hv hs

/-- A stable assertion that holds of the idle client at the start holds on every run. -/
theorem invariant {start : W} (h : I.Stable world body) (hstart : I.idle start [])
    {ls : List (Label C X E)} {s : Session W Q R A C}
    (hrun : (system world body start).run ls = some s) : I.Holds s := by
  have hinit : I.Holds (system world body start).init := hstart
  exact Transition.System.invariant (P := fun _ => I.Holds) hinit
    (fun _ _ _ _ hs hstep => h.step hs hstep) hrun

/-- What survives every answer and every act of the world holds of it on every run. -/
theorem world_invariant {P : W → Prop} (hanswer : ∀ w q x, P w → P (world.answer w q x).1)
    (hact : ∀ w e v, world.act w e = some v → P w → P v) {start : W} (hstart : P start)
    {ls : List (Label C X E)} {s : Session W Q R A C}
    (hrun : (system world body start).run ls = some s) : P s.world := by
  let I : Assertion W Q R A C := { idle := fun w _ => P w, busy := fun _ _ w _ => P w }
  have hstable : I.Stable world body :=
    { call := id, answer := fun x h => hanswer _ _ x h, ret := id,
      actIdle := fun h hw => hact _ _ _ h hw, actBusy := fun h hw => hact _ _ _ h hw }
  have hholds : I.Holds s := invariant hstable hstart hrun
  obtain ⟨w, running, rs⟩ := s
  cases running with
  | none => exact hholds
  | some cp => exact hholds

end Interaction
