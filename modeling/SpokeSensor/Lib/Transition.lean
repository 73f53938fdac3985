import Mathlib.Data.List.Induction
import Mathlib.Data.List.Infix
import Mathlib.Tactic.SplitIfs

/-!
# Guarded transition systems

A step function that answers `none` where a label is not enabled, and its runs over lists of
labels.

- `System.invariant`: the one induction used on runs. A property of a run and the state it ends
  in that holds of the empty run and survives every enabled step holds of every run.
- `System.run_of_simulation`: a system whose steps are steps of another one, or nothing there,
  has its runs there.
- `System.restrict`: the steps that meet a condition on the state before them. Its runs are the
  runs in which every step does (`System.run_restrict_eq_some`).
-/

namespace Transition

universe u v

/-- An initial state and the enabled steps. -/
structure System (S : Type u) (L : Type v) where
  init : S
  step : S → L → Option S

namespace System

variable {S : Type u} {L : Type v} (sys : System S L)

/-- The state after a run, if every label was enabled where it came. -/
def run (ls : List L) : Option S :=
  ls.foldl (fun s l => s.bind (sys.step · l)) (some sys.init)

@[simp] theorem run_nil : sys.run [] = some sys.init := rfl

theorem run_concat (ls : List L) (l : L) :
    sys.run (ls ++ [l]) = (sys.run ls).bind (sys.step · l) := by
  rw [run, List.foldl_append]
  rfl

/-- A run goes on from the state it has come to. -/
theorem run_append (ls ms : List L) :
    sys.run (ls ++ ms) = (sys.run ls).bind fun s => run ⟨s, sys.step⟩ ms := by
  rw [run, List.foldl_append]
  show ms.foldl _ (sys.run ls) = _
  cases sys.run ls with
  | none =>
    rw [Option.bind_none]
    induction ms with
    | nil => rfl
    | cons m ms ih => exact ih
  | some s => rfl

variable {sys}

/-- The last step of a run. -/
theorem run_concat_eq_some {ls : List L} {l : L} {s : S} (h : sys.run (ls ++ [l]) = some s) :
    ∃ t, sys.run ls = some t ∧ sys.step t l = some s := by
  rw [run_concat] at h
  exact Option.bind_eq_some_iff.mp h

/-- What holds at the start and survives every enabled step holds of every run. -/
theorem invariant {P : List L → S → Prop} (hinit : P [] sys.init)
    (hstep : ∀ ls s l t, P ls s → sys.step s l = some t → P (ls ++ [l]) t) :
    ∀ {ls s}, sys.run ls = some s → P ls s := by
  intro ls
  induction ls using List.reverseRecOn with
  | nil =>
    intro s hs
    cases hs
    exact hinit
  | append_singleton ls l ih =>
    intro s hs
    obtain ⟨t, ht, hl⟩ := run_concat_eq_some hs
    exact hstep ls t l s (ih ht) hl

/-- A step of a run in two parts is one of the first part or one of the second. -/
theorem prefix_concat_append {before ls ms : List L} {l : L} (h : before ++ [l] <+: ls ++ ms) :
    before ++ [l] <+: ls ∨ ∃ rest, before = ls ++ rest ∧ rest ++ [l] <+: ms := by
  rcases List.prefix_or_prefix_of_prefix h (List.prefix_append ls ms) with hfirst | hsecond
  · exact .inl hfirst
  · rcases List.prefix_concat_iff.mp hsecond with rfl | ⟨rest, rfl⟩
    · exact .inl List.prefix_rfl
    · rw [List.append_assoc] at h
      exact .inr ⟨rest, rfl, (List.prefix_append_right_inj ls).mp h⟩

/-- Where every step is one of another system, or is not to be seen in its state, a run is
a run of the other. -/
theorem run_of_simulation {S' : Type*} {L' : Type*} {sys' : System S' L'} (f : S → S')
    (g : L → Option L') (hinit : f sys.init = sys'.init)
    (hsome : ∀ s l t l', sys.step s l = some t → g l = some l' → sys'.step (f s) l' = some (f t))
    (hnone : ∀ s l t, sys.step s l = some t → g l = none → f t = f s) {ls : List L} {s : S}
    (h : sys.run ls = some s) : sys'.run (ls.filterMap g) = some (f s) := by
  refine invariant (P := fun ls s => sys'.run (ls.filterMap g) = some (f s))
    (congrArg some hinit.symm) (fun ls s l t hs hstep => ?_) h
  rw [List.filterMap_append]
  cases hl : g l with
  | none =>
    rw [List.filterMap_cons_none hl, List.filterMap_nil, List.append_nil, hs,
      hnone s l t hstep hl]
  | some l' =>
    rw [List.filterMap_cons_some hl, List.filterMap_nil, run_concat, hs]
    exact hsome s l t l' hstep hl

/-- The steps that meet a condition on the state before them. -/
def restrict (sys : System S L) (ok : S → L → Prop) [∀ s l, Decidable (ok s l)] : System S L where
  init := sys.init
  step s l := if ok s l then sys.step s l else none

variable {ok : S → L → Prop} [∀ s l, Decidable (ok s l)]

theorem step_restrict_eq_some {s t : S} {l : L} :
    (sys.restrict ok).step s l = some t ↔ ok s l ∧ sys.step s l = some t := by
  rw [restrict]
  dsimp only
  split_ifs with h
  · exact (and_iff_right h).symm
  · exact iff_of_false nofun fun ht => h ht.1

/-- A run of the restriction is a run in which every step meets the condition. -/
theorem run_restrict_eq_some {ls : List L} {s : S} :
    (sys.restrict ok).run ls = some s ↔ sys.run ls = some s ∧
      ∀ before l t, before ++ [l] <+: ls → sys.run before = some t → ok t l := by
  induction ls using List.reverseRecOn generalizing s with
  | nil =>
    refine ⟨fun h => ⟨h, fun before l t hinit => ?_⟩, And.left⟩
    exact absurd (List.prefix_nil.mp hinit) (by simp)
  | append_singleton ls l ih =>
    constructor
    · intro h
      obtain ⟨t, ht, hl⟩ := run_concat_eq_some h
      obtain ⟨hok, hstep⟩ := step_restrict_eq_some.mp hl
      obtain ⟨hrun, hall⟩ := ih.mp ht
      refine ⟨by rw [run_concat, hrun]; exact hstep, fun before k u hinit hu => ?_⟩
      -- the last step, or one before it
      rcases List.prefix_concat_iff.mp hinit with heq | hbefore
      · obtain ⟨rfl, hk⟩ := List.append_inj' heq rfl
        obtain rfl := Option.some.inj (hrun.symm.trans hu)
        rw [List.singleton_inj.mp hk]
        exact hok
      · exact hall before k u hbefore hu
    · rintro ⟨hrun, hall⟩
      obtain ⟨t, ht, hstep⟩ := run_concat_eq_some hrun
      have hbefore : (sys.restrict ok).run ls = some t :=
        ih.mpr ⟨ht, fun before k u hinit hu =>
          hall before k u (hinit.trans (List.prefix_append ..)) hu⟩
      rw [run_concat, hbefore]
      exact step_restrict_eq_some.mpr ⟨hall ls l t List.prefix_rfl ht, hstep⟩

end System

end Transition
