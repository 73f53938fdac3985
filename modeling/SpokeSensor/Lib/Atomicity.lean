import SpokeSensor.Lib.Interaction
import Mathlib.Data.List.Basic

/-!
# Programs that appear atomic

The client of an `Interaction.system` is interrupted by the acts of the world. This
module says when that makes no difference.

- `World.Mover`: a question for which it makes no difference whether the world acts
  before or after it.
- `Prog.Asks`, `Prog.Atomic`: every question of a program is a mover, or all but one
  at most. `Prog.Atomic.bind` puts programs together, as long as the one that may not
  be a mover comes first.
- `serial`: whole calls and acts, one after the other.
- `Matched`: what an interleaved run and its serial counterpart have in common. The
  call that is being run is still to come in the counterpart, or has been made and the
  rest of its program asks only movers; `Matched.step` keeps this.
- `exists_serial`: whatever the interleaving, there is a run of whole calls and acts
  with the same calls, the same acts, the same results and the same world.
-/

namespace Interaction

variable {W Q R A B C E : Type}

/-- What can be observed of a call from outside: it is made, and it returns. -/
def Label.called {X : Type} : Label C X E → Option C
  | .call c => some c
  | _ => none

/-- The act of the world, if it is one. -/
def Label.acted {X : Type} : Label C X E → Option E
  | .act e => some e
  | _ => none

/-! ## Programs on their own

Questions of which all, or all but one, commute with what others do in between.
-/

/-- A program that is not interrupted. -/
def Prog.exec (world : World W Q R Unit E) : Prog Q R A → W → W × A
  | .done a, w => (w, a)
  | .ask q next, w => (next (world.answer w q ()).2).exec world (world.answer w q ()).1

@[simp] theorem Prog.exec_done (world : World W Q R Unit E) (a : A) (w : W) :
    (Prog.done a : Prog Q R A).exec world w = (w, a) := rfl

@[simp] theorem Prog.exec_ask (world : World W Q R Unit E) (q : Q) (next : R → Prog Q R A) (w : W) :
    (Prog.ask q next).exec world w
      = (next (world.answer w q ()).2).exec world (world.answer w q ()).1 := rfl

/-- One program after the other. -/
theorem Prog.exec_bind (world : World W Q R Unit E) (p : Prog Q R A) (f : A → Prog Q R B) (w : W) :
    (p >>= f).exec world w = (f (p.exec world w).2).exec world (p.exec world w).1 := by
  induction p generalizing w with
  | done a => rfl
  | ask q next ih => exact ih _ _

/-- Every question that can come meets `P`. -/
def Prog.Asks (P : Q → Prop) : Prog Q R A → Prop
  | .done _ => True
  | .ask q next => P q ∧ ∀ r, (next r).Asks P

/-- At most one question fails `P`. -/
def Prog.Atomic (P : Q → Prop) : Prog Q R A → Prop
  | .done _ => True
  | .ask q next => (∀ r, (next r).Asks P) ∨ P q ∧ ∀ r, (next r).Atomic P

section

variable {P : Q → Prop} {p : Prog Q R A} {f : A → Prog Q R B}

theorem Prog.Asks.atomic (h : p.Asks P) : p.Atomic P := by
  cases p with
  | done a => trivial
  | ask q next => exact .inl h.2

theorem Prog.Asks.bind (hp : p.Asks P) (hf : ∀ a, (f a).Asks P) : (p >>= f).Asks P := by
  induction p with
  | done a => exact hf a
  | ask q next ih => exact ⟨hp.1, fun r => ih r (hp.2 r)⟩

/-- Movers after it. -/
theorem Prog.Atomic.bind (hp : p.Atomic P) (hf : ∀ a, (f a).Asks P) : (p >>= f).Atomic P := by
  induction p with
  | done a => exact (hf a).atomic
  | ask q next ih =>
    rcases hp with hrest | ⟨hq, hrest⟩
    · exact .inl fun r => (hrest r).bind hf
    · exact .inr ⟨hq, fun r => ih r (hrest r)⟩

end

/-! ## Movers

A question is a mover if it can change places with every act of the world, with the
same answer and the same world after both.
-/

/-- The act is possible after the answer exactly if it is before, and the two commute. -/
def World.Mover (world : World W Q R Unit E) (q : Q) : Prop :=
  ∀ w e, world.act (world.answer w q ()).1 e
      = (world.act w e).map (fun v => (world.answer v q ()).1) ∧
    ∀ v, world.act w e = some v → (world.answer v q ()).2 = (world.answer w q ()).2

/-- A sequence of acts. -/
def World.actAll (world : World W Q R Unit E) : W → List E → Option W
  | w, [] => some w
  | w, e :: es => (world.act w e).bind (world.actAll · es)

variable {world : World W Q R Unit E} {body : C → Prog Q R A}

/-- A mover commutes with a sequence of acts. -/
theorem World.Mover.actAll {q : Q} (h : world.Mover q) {w v : W} {es : List E}
    (hact : world.actAll (world.answer w q ()).1 es = some v) :
    ∃ u, world.actAll w es = some u ∧ world.answer u q () = (v, (world.answer w q ()).2) := by
  induction es generalizing w with
  | nil =>
    cases hact
    exact ⟨w, rfl, rfl⟩
  | cons e es ih =>
    obtain ⟨v₁, hv₁, hrest⟩ := Option.bind_eq_some_iff.mp hact
    rw [(h w e).1] at hv₁
    obtain ⟨u₁, hu₁, rfl⟩ := Option.map_eq_some_iff.mp hv₁
    obtain ⟨u, hu, hanswer⟩ := ih hrest
    refine ⟨u, Option.bind_eq_some_iff.mpr ⟨u₁, hu₁, hu⟩, ?_⟩
    rw [hanswer, (h w e).2 u₁ hu₁]

/-- An act during a program of movers might as well come after it. -/
theorem Prog.Asks.exec_act {p : Prog Q R A} (hp : p.Asks world.Mover) {w v : W} {e : E}
    (hact : world.act w e = some v) :
    world.act (p.exec world w).1 e = some (p.exec world v).1 ∧
      (p.exec world v).2 = (p.exec world w).2 := by
  induction p generalizing w v with
  | done a => exact ⟨hact, rfl⟩
  | ask q next ih =>
    obtain ⟨hmap, hreply⟩ := hp.1 w e
    have hact' : world.act (world.answer w q ()).1 e = some (world.answer v q ()).1 := by
      rw [hmap, hact]
      rfl
    rw [Prog.exec_ask, Prog.exec_ask, hreply v hact]
    exact ih _ (hp.2 _) hact'

/-! ## Serial runs

In a serial run calls are not interrupted. The counterpart of an interleaved run is
built step by step, the call that is being run at its one question that need not be a
mover.
-/

/-- A whole call, or an act of the world. -/
inductive Turn (C E : Type) where
  | call (c : C)
  | act (e : E)

def Turn.called : Turn C E → Option C
  | .call c => some c
  | .act _ => none

def Turn.acted : Turn C E → Option E
  | .act e => some e
  | .call _ => none

/-- Whole calls and acts, one after the other: the world, and what has been returned. -/
def serial (world : World W Q R Unit E) (body : C → Prog Q R A) (start : W) :
    Transition.System (W × List (C × A)) (Turn C E) where
  init := (start, [])
  step s
    | .call c => some (((body c).exec world s.1).1, s.2 ++ [(c, ((body c).exec world s.1).2)])
    | .act e => (world.act s.1 e).map fun w => (w, s.2)

/-- The program `p`, left of the body of `c`, has asked only movers: after any further
acts it comes to what the whole body would after the same acts on `t`. -/
def Before (world : World W Q R Unit E) (body : C → Prog Q R A) (c : C) (p : Prog Q R A)
    (w t : W) : Prop :=
  p.Atomic world.Mover ∧ ∀ es v, world.actAll w es = some v →
    ∃ u, world.actAll t es = some u ∧ p.exec world v = (body c).exec world u

section

variable {c : C} {p : Prog Q R A} {w v t : W}

theorem Before.exec (h : Before world body c p w t) : p.exec world w = (body c).exec world t := by
  obtain ⟨u, hu, heq⟩ := h.2 [] w rfl
  cases hu
  exact heq

/-- The world acts before the question that is no mover. -/
theorem Before.act {e : E} (h : Before world body c p w t) (hact : world.act w e = some v) :
    ∃ u, world.act t e = some u ∧ Before world body c p v u := by
  obtain ⟨u, hu, -⟩ := h.2 [e] v (by rw [World.actAll, hact]; rfl)
  obtain ⟨u', hu', -⟩ := Option.bind_eq_some_iff.mp hu
  refine ⟨u', hu', h.1, fun es v₁ hv₁ => ?_⟩
  obtain ⟨t₁, ht₁, heq⟩ := h.2 (e :: es) v₁ (by rw [World.actAll, hact]; exact hv₁)
  rw [World.actAll, hu'] at ht₁
  exact ⟨t₁, ht₁, heq⟩

/-- A mover is answered. -/
theorem Before.answer {q : Q} {next : R → Prog Q R A} (h : Before world body c (.ask q next) w t)
    (hq : world.Mover q) (hnext : ∀ r, (next r).Atomic world.Mover) :
    Before world body c (next (world.answer w q ()).2) (world.answer w q ()).1 t := by
  refine ⟨hnext _, fun es v hv => ?_⟩
  obtain ⟨u, hu, hanswer⟩ := hq.actAll hv
  obtain ⟨t₁, ht₁, heq⟩ := h.2 es u hu
  rw [Prog.exec_ask, hanswer] at heq
  exact ⟨t₁, ht₁, heq⟩

end

/-- How the serial run stands to the interleaved one while `c` is being run: the call is
still to come, or it has been made and the rest of its program asks only movers. -/
inductive Pending (world : World W Q R Unit E) (body : C → Prog Q R A) (c : C) (p : Prog Q R A)
    (w : W) (rs : List (C × A)) (cs : List C) : W × List (C × A) → List C → Prop
  | before {t : W} (h : Before world body c p w t) : Pending world body c p w rs cs (t, rs) cs
  | after (h : p.Asks world.Mover) :
      Pending world body c p w rs cs ((p.exec world w).1, rs ++ [(c, (p.exec world w).2)])
        (cs ++ [c])

/-- A serial run that has made the calls `cs` and the acts `es`. -/
def Reaches (world : World W Q R Unit E) (body : C → Prog Q R A) (start : W)
    (σ : W × List (C × A)) (cs : List C) (es : List E) : Prop :=
  ∃ ts, (serial world body start).run ts = some σ ∧ ts.filterMap Turn.called = cs ∧
    ts.filterMap Turn.acted = es

section

variable {start : W} {σ : W × List (C × A)} {cs : List C} {es : List E}

theorem Reaches.call (h : Reaches world body start σ cs es) (c : C) :
    Reaches world body start
      (((body c).exec world σ.1).1, σ.2 ++ [(c, ((body c).exec world σ.1).2)]) (cs ++ [c]) es := by
  obtain ⟨ts, hrun, rfl, rfl⟩ := h
  refine ⟨ts ++ [.call c], ?_, ?_, ?_⟩
  · rw [Transition.System.run_concat, hrun]
    rfl
  · rw [List.filterMap_append]
    rfl
  · rw [List.filterMap_append]
    exact List.append_nil _

theorem Reaches.act (h : Reaches world body start σ cs es) {e : E} {w : W}
    (hact : world.act σ.1 e = some w) : Reaches world body start (w, σ.2) cs (es ++ [e]) := by
  obtain ⟨ts, hrun, rfl, rfl⟩ := h
  refine ⟨ts ++ [.act e], ?_, ?_, ?_⟩
  · rw [Transition.System.run_concat, hrun]
    show (world.act σ.1 e).map _ = _
    rw [hact]
    rfl
  · rw [List.filterMap_append]
    exact List.append_nil _
  · rw [List.filterMap_append]
    rfl

end

/-- What an interleaved run and its serial counterpart have in common: `cs` are the calls
that have returned, and the one that is being run comes after them. -/
def Matched (world : World W Q R Unit E) (body : C → Prog Q R A) (start : W)
    (s : Session W Q R A C) (called : List C) (acted : List E) : Prop :=
  match s.running with
  | none => Reaches world body start (s.world, s.results) called acted
  | some (c, p) => ∃ σ cs cs', called = cs ++ [c] ∧
      Pending world body c p s.world s.results cs σ cs' ∧ Reaches world body start σ cs' acted

variable {start : W}

/-- One step of the interleaved run. -/
theorem Matched.step {s t : Session W Q R A C} {l : Label C Unit E} {called : List C}
    {acted : List E} (h : Matched world body start s called acted)
    (hatomic : ∀ c, l = .call c → (body c).Atomic world.Mover)
    (hstep : Interaction.step world body s l = some t) :
    Matched world body start t (called ++ l.called.toList) (acted ++ l.acted.toList) := by
  obtain ⟨w, running, rs⟩ := s
  cases l with
  | call c =>
    cases running with
    | some cp => cases hstep
    | none =>
      cases hstep
      refine ⟨(w, rs), called, called, rfl, .before ⟨hatomic c rfl, fun es v hv => ?_⟩, ?_⟩
      · exact ⟨v, hv, rfl⟩
      · have hreach : Reaches world body start (w, rs) called acted := h
        simpa [Label.acted] using hreach
  | answer x =>
    match running, hstep, h with
    | some (c, .ask q next), hstep, ⟨σ, cs, cs', hcalled, hpending, hreach⟩ =>
      cases hstep
      have hcalled' : called ++ (Label.answer x : Label C Unit E).called.toList = cs ++ [c] := by
        simpa [Label.called] using hcalled
      have hreach' : Reaches world body start σ cs'
          (acted ++ (Label.answer x : Label C Unit E).acted.toList) := by
        simpa [Label.acted] using hreach
      cases hpending with
      | after hasks => exact ⟨_, cs, _, hcalled', .after (hasks.2 _), hreach'⟩
      | before hbefore =>
        rcases hbefore.1 with hrest | ⟨hq, hrest⟩
        · -- the one question that is no mover: here the call takes place
          have hexec := hbefore.exec
          have hcall := hreach'.call c
          rw [← hexec] at hcall
          exact ⟨_, cs, _, hcalled', .after (hrest _), hcall⟩
        · exact ⟨_, cs, _, hcalled', .before (hbefore.answer hq hrest), hreach'⟩
  | ret =>
    match running, hstep, h with
    | some (c, .done a), hstep, ⟨σ, cs, cs', hcalled, hpending, hreach⟩ =>
      cases hstep
      show Reaches world body start (w, rs ++ [(c, a)]) _ _
      have hcalled' : called ++ (Label.ret : Label C Unit E).called.toList = cs ++ [c] := by
        simpa [Label.called] using hcalled
      have hreach' : Reaches world body start σ cs'
          (acted ++ (Label.ret : Label C Unit E).acted.toList) := by
        simpa [Label.acted] using hreach
      rw [hcalled']
      cases hpending with
      | after => exact hreach'
      | before hbefore =>
        have hcall := hreach'.call c
        rw [← hbefore.exec] at hcall
        exact hcall
  | act e =>
    obtain ⟨v, hv, rfl⟩ := Option.map_eq_some_iff.mp hstep
    cases running with
    | none =>
      show Reaches world body start (v, rs) _ _
      have hact := Reaches.act (σ := (w, rs)) h hv
      simpa [Label.called, Label.acted] using hact
    | some cp =>
      obtain ⟨c, p⟩ := cp
      obtain ⟨σ, cs, cs', hcalled, hpending, hreach⟩ := h
      have hcalled' : called ++ (Label.act e : Label C Unit E).called.toList = cs ++ [c] := by
        simpa [Label.called] using hcalled
      cases hpending with
      | before hbefore =>
        obtain ⟨u, hu, hnext⟩ := hbefore.act hv
        exact ⟨_, cs, _, hcalled', .before hnext, hreach.act hu⟩
      | after hasks =>
        obtain ⟨hact, hresult⟩ := hasks.exec_act hv
        have hreach' := hreach.act hact
        rw [← hresult] at hreach'
        exact ⟨_, cs, _, hcalled', .after hasks, hreach'⟩

theorem matched {ls : List (Label C Unit E)} {s : Session W Q R A C}
    (hrun : (system world body start).run ls = some s)
    (hatomic : ∀ c, .call c ∈ ls → (body c).Atomic world.Mover) :
    Matched world body start s (ls.filterMap Label.called) (ls.filterMap Label.acted) := by
  revert hatomic
  have hinit : (∀ c, .call c ∈ ([] : List (Label C Unit E)) → (body c).Atomic world.Mover) →
      Matched world body start (system world body start).init [] [] :=
    fun _ => ⟨[], rfl, rfl, rfl⟩
  refine Transition.System.invariant
    (P := fun ls s => (∀ c, .call c ∈ ls → (body c).Atomic world.Mover) →
      Matched world body start s (ls.filterMap Label.called) (ls.filterMap Label.acted))
    hinit (fun ls s l t h hstep hatomic => ?_) hrun
  have hbefore := h fun c hc => hatomic c (List.mem_append_left _ hc)
  have hmatched := hbefore.step (fun c hc => hatomic c (by simp [hc])) hstep
  rw [List.filterMap_append, List.filterMap_append]
  have hsingle : ∀ {D : Type} (g : Label C Unit E → Option D), [l].filterMap g = (g l).toList := by
    intro D g
    cases hg : g l <;> simp [hg]
  rw [hsingle, hsingle]
  exact hmatched

/-- An interleaved run that ends between two calls has a serial counterpart: the same
calls and acts, each in the same order, the same results and the same world. -/
theorem exists_serial {ls : List (Label C Unit E)} {s : Session W Q R A C}
    (hrun : (system world body start).run ls = some s) (hidle : s.running = none)
    (hatomic : ∀ c, .call c ∈ ls → (body c).Atomic world.Mover) :
    ∃ ts, (serial world body start).run ts = some (s.world, s.results) ∧
      ts.filterMap Turn.called = ls.filterMap Label.called ∧
      ts.filterMap Turn.acted = ls.filterMap Label.acted := by
  have hmatched := matched hrun hatomic
  rw [Matched, hidle] at hmatched
  exact hmatched

end Interaction
