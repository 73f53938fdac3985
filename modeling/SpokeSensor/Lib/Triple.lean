import Mathlib.Logic.Relation
import SpokeSensor.Lib.Interaction

/-!
# Rules for programs on a world that acts by itself

`p.Upholds world inv post w` says of a program `p` that is run from `w`: whatever it
is answered and however the world acts in between, `inv` holds all along, and once the
program has returned, `post` holds of what it has returned. It is defined by recursion
on the program, and so are its rules.

- `Upholds.of_done`, `Upholds.bind`, `Upholds.imp`: a program that is done, one
  program after the other, and a weaker condition.
- `Upholds.of_stable`: an assertion that every answer and every act keep.
- `Upholds.sound`: what it says of every execution.
- `Within`: the program returns after at most `n` answers, whatever they are
  (`Within.bind`, `Within.sound`).
-/

namespace Interaction

variable {W Q R A B X E : Type}

/-- What the world may come to by itself. -/
def World.Later (world : World W Q R X E) : W → W → Prop :=
  Relation.ReflTransGen fun w v => ∃ e, world.act w e = some v

/-- A program run from a world: a question is answered, or the world acts. -/
def execution (world : World W Q R X E) (p : Prog Q R A) (w : W) :
    Transition.System (Prog Q R A × W) (X ⊕ E) where
  init := (p, w)
  step s l :=
    match s.1, l with
    | .ask q next, .inl x =>
      some (next (world.answer s.2 q x).2, (world.answer s.2 q x).1)
    | .done _, .inl _ => none
    | _, .inr e => (world.act s.2 e).map fun v => (s.1, v)

namespace Prog

/-- `inv` holds as long as the program is run, and `post` of what it returns. -/
def Upholds (world : World W Q R X E) (inv : W → Prop) (post : A → W → Prop) :
    Prog Q R A → W → Prop
  | .done a, w => ∀ v, world.Later w v → inv v ∧ post a v
  | .ask q next, w => ∀ v, world.Later w v → inv v ∧
      ∀ x, Upholds world inv post (next (world.answer v q x).2) (world.answer v q x).1

namespace Upholds

variable {world : World W Q R X E} {inv inv' : W → Prop} {post : A → W → Prop}
  {post' : B → W → Prop} {p : Prog Q R A} {w v : W}

/-- The world may act before the program goes on. -/
theorem later (h : p.Upholds world inv post w) (hlater : world.Later w v) :
    p.Upholds world inv post v := by
  cases p with
  | done a => exact fun u hu => h u (hlater.trans hu)
  | ask q next => exact fun u hu => h u (hlater.trans hu)

/-- The invariant holds at the start. -/
theorem holds (h : p.Upholds world inv post w) : inv w := by
  cases p with
  | done a => exact (h w .refl).1
  | ask q next => exact (h w .refl).1

/-- What the acts of the world keep holds of a program that is done. -/
theorem of_done {a : A} (hact : ∀ w v e, world.act w e = some v → inv w ∧ post a w →
    inv v ∧ post a v) (hinv : inv w) (hpost : post a w) :
    (Prog.done a : Prog Q R A).Upholds world inv post w := by
  intro v hv
  induction hv with
  | refl => exact ⟨hinv, hpost⟩
  | tail _ hstep ih =>
    obtain ⟨e, he⟩ := hstep
    exact hact _ _ e he ih

/-- One program after the other. -/
theorem bind {f : A → Prog Q R B}
    (h : p.Upholds world inv (fun a v => (f a).Upholds world inv post' v) w) :
    (p >>= f).Upholds world inv post' w := by
  induction p generalizing w with
  | done a => exact (h w .refl).2
  | ask q next ih =>
    intro v hv
    obtain ⟨hinv, hnext⟩ := h v hv
    exact ⟨hinv, fun x => ih _ (hnext x)⟩

/-- A weaker invariant and a weaker postcondition. -/
theorem imp {post₂ : A → W → Prop} (h : p.Upholds world inv post w) (hinv : ∀ v, inv v → inv' v)
    (hpost : ∀ a v, inv v → post a v → post₂ a v) : p.Upholds world inv' post₂ w := by
  induction p generalizing w with
  | done a => exact fun v hv => ⟨hinv v (h v hv).1, hpost a v (h v hv).1 (h v hv).2⟩
  | ask q next ih => exact fun v hv => ⟨hinv v (h v hv).1, fun x => ih _ ((h v hv).2 x)⟩

/-- An assertion about the program and the world that every answer and every act keep. -/
theorem of_stable {I : Prog Q R A → W → Prop}
    (hanswer : ∀ q next w x, I (.ask q next) w →
      I (next (world.answer w q x).2) (world.answer w q x).1)
    (hact : ∀ p w v e, world.act w e = some v → I p w → I p v) (h : I p w) :
    p.Upholds world (fun v => ∃ p', I p' v) (fun a v => I (.done a) v) w := by
  have hlater : ∀ (p : Prog Q R A) w v, world.Later w v → I p w → I p v := by
    intro p w v hv hp
    induction hv with
    | refl => exact hp
    | tail _ hstep ih =>
      obtain ⟨e, he⟩ := hstep
      exact hact p _ _ e he ih
  induction p generalizing w with
  | done a => exact fun v hv => ⟨⟨_, hlater _ w v hv h⟩, hlater _ w v hv h⟩
  | ask q next ih =>
    intro v hv
    have hkept := hlater _ w v hv h
    exact ⟨⟨_, hkept⟩, fun x => ih _ (hanswer q next v x hkept)⟩

theorem step {l : X ⊕ E} {s : Prog Q R A × W} (h : s.1.Upholds world inv post s.2)
    {p₀ : Prog Q R A} {w₀ : W} {t : Prog Q R A × W}
    (hstep : (execution world p₀ w₀).step s l = some t) : t.1.Upholds world inv post t.2 := by
  obtain ⟨p, w⟩ := s
  cases l with
  | inl x =>
    cases p with
    | done a => cases hstep
    | ask q next =>
      cases hstep
      exact (h w .refl).2 x
  | inr e =>
    have hact : (world.act w e).map (fun v => (p, v)) = some t := by
      cases p <;> exact hstep
    obtain ⟨v, hv, rfl⟩ := Option.map_eq_some_iff.mp hact
    exact h.later (.single ⟨e, hv⟩)

/-- The invariant holds all along every execution, and the postcondition at its end. -/
theorem sound (h : p.Upholds world inv post w) {ls : List (X ⊕ E)} {p' : Prog Q R A} {v : W}
    (hrun : (execution world p w).run ls = some (p', v)) :
    inv v ∧ ∀ a, p' = .done a → post a v := by
  have hall : p'.Upholds world inv post v :=
    Transition.System.invariant
      (P := fun _ (s : Prog Q R A × W) => s.1.Upholds world inv post s.2)
      h (fun _ _ _ _ hs hstep => hs.step hstep) hrun
  refine ⟨hall.holds, ?_⟩
  rintro a rfl
  exact (hall v .refl).2

end Upholds

/-! ## How many answers it takes -/

/-- The program returns after at most `n` answers. -/
def Within : ℕ → Prog Q R A → Prop
  | _, .done _ => True
  | 0, .ask _ _ => False
  | n + 1, .ask _ next => ∀ r, Within n (next r)

namespace Within

variable {world : World W Q R X E} {p : Prog Q R A} {n m : ℕ}

theorem mono (h : p.Within n) (hle : n ≤ m) : p.Within m := by
  induction p generalizing n m with
  | done a =>
    cases m with
    | zero => trivial
    | succ m => trivial
  | ask q next ih =>
    cases n with
    | zero => exact h.elim
    | succ n =>
      cases m with
      | zero => exact absurd hle (Nat.not_succ_le_zero n)
      | succ m => exact fun r => ih r (h r) (Nat.le_of_succ_le_succ hle)

/-- One program after the other takes as many answers as both. -/
theorem bind {f : A → Prog Q R B} (h : p.Within n) (hf : ∀ a, (f a).Within m) :
    (p >>= f).Within (n + m) := by
  induction p generalizing n with
  | done a => exact (hf a).mono (Nat.le_add_left m n)
  | ask q next ih =>
    cases n with
    | zero => exact h.elim
    | succ n =>
      rw [ask_bind, Nat.succ_add]
      exact fun r => ih r (h r)

/-- No execution answers more often. -/
theorem sound {w : W} (h : p.Within n) {ls : List (X ⊕ E)} {p' : Prog Q R A} {v : W}
    (hrun : (execution world p w).run ls = some (p', v)) : ls.countP Sum.isLeft ≤ n := by
  have hall : ∃ k, ls.countP Sum.isLeft + k = n ∧ p'.Within k := by
    refine Transition.System.invariant
      (P := fun ls (s : Prog Q R A × W) => ∃ k, ls.countP Sum.isLeft + k = n ∧ s.1.Within k)
      ⟨n, Nat.zero_add n, h⟩ (fun ls s l t hs hstep => ?_) hrun
    obtain ⟨k, hk, hwithin⟩ := hs
    obtain ⟨q, w⟩ := s
    rw [List.countP_append]
    cases l with
    | inl x =>
      cases q with
      | done a => cases hstep
      | ask q next =>
        cases hstep
        cases k with
        | zero => exact hwithin.elim
        | succ k =>
          refine ⟨k, ?_, hwithin _⟩
          show ls.countP Sum.isLeft + 1 + k = n
          omega
    | inr e =>
      have hact : (world.act w e).map (fun v => (q, v)) = some t := by
        cases q <;> exact hstep
      obtain ⟨v, -, rfl⟩ := Option.map_eq_some_iff.mp hact
      exact ⟨k, hk, hwithin⟩
  obtain ⟨k, hk, -⟩ := hall
  omega

end Within

end Prog

end Interaction
