import SpokeSensor.Lib.Interaction

/-!
# Programs among others

Rules of rely and guarantee for the programs of `Interaction`.

- `Terms`: what others may do to the world, what the program may do to it, which
  choices the world makes, and whether the program may end with an error.
- `Safe`: while others change the world as its rely permits, each question of a
  program changes the world as its guarantee says, and its result meets a
  postcondition. As the world may answer with a failure at any question, that covers a
  program that is cut short.
- `Safe.bind`, `Safe.andThen`, `Safe.mono`, `Safe.of_rely`: the rules; the second is
  for programs that may raise.
- `Keeps`: every call is safe, and an assertion survives what both sides may do.
- `Keeps.run`, `Holds.guarantee`, `Holds.returned`: then all of this holds on every
  run in which the others keep to what is relied on (`Permitted`).
-/

namespace RelyGuarantee

open Interaction Transition

variable {W Q R A B C X E ε : Type}

/-- What others may do to the world, what the program may do to it, which choices the world
makes, and whether the program may end with an error. -/
structure Terms (W X : Type) where
  rely : W → W → Prop
  guarantee : W → W → Prop
  choice : X → Prop
  failure : Prop

/-- Others may do nothing, or one thing after the other. -/
structure Terms.Lawful (terms : Terms W X) : Prop where
  refl : ∀ w, terms.rely w w
  trans : ∀ {u v w}, terms.rely u v → terms.rely v w → terms.rely u w

variable (answer : W → Q → X → W × R) (terms : Terms W X)

/-- Every answer keeps the guarantee, and the result meets the postcondition. -/
def Safe (post : A → W → Prop) : Prog Q R A → W → Prop
  | .done a, w => ∀ v, terms.rely w v → post a v
  | .ask q next, w => ∀ v, terms.rely w v → ∀ x, terms.choice x →
      terms.guarantee v (answer v q x).1 ∧ Safe post (next (answer v q x).2) (answer v q x).1

/-- A postcondition for a program that may raise. -/
def Ends (post : A → W → Prop) : Except ε A → W → Prop
  | .ok a, w => post a w
  | .error _, _ => terms.failure

variable {answer terms} {post : A → W → Prop} {w v : W}

/-- What others do meanwhile does no harm. -/
theorem Safe.of_rely (hlaw : terms.Lawful) {p : Prog Q R A} (h : Safe answer terms post p w)
    (hrely : terms.rely w v) : Safe answer terms post p v := by
  cases p with
  | done a => exact fun u hu => h u (hlaw.trans hrely hu)
  | ask q next => exact fun u hu => h u (hlaw.trans hrely hu)

theorem Safe.mono {post' : A → W → Prop} (hpost : ∀ a w, post a w → post' a w) {p : Prog Q R A}
    (h : Safe answer terms post p w) : Safe answer terms post' p w := by
  induction p generalizing w with
  | done a => exact fun v hv => hpost a v (h v hv)
  | ask q next ih =>
    intro v hv x hx
    obtain ⟨hguarantee, hnext⟩ := h v hv x hx
    exact ⟨hguarantee, ih _ hnext⟩

theorem Safe.bind (hlaw : terms.Lawful) {post : B → W → Prop} {f : A → Prog Q R B}
    {p : Prog Q R A} (h : Safe answer terms (fun a v => Safe answer terms post (f a) v) p w) :
    Safe answer terms post (p >>= f) w := by
  induction p generalizing w with
  | done a => exact h w (hlaw.refl w)
  | ask q next ih =>
    intro v hv x hx
    obtain ⟨hguarantee, hnext⟩ := h v hv x hx
    exact ⟨hguarantee, ih _ hnext⟩

/-- The result of a program that may raise. -/
theorem safe_pure {a : A} (h : ∀ v, terms.rely w v → post a v) :
    Safe answer terms (Ends terms post) (pure a : ExceptT ε (Prog Q R) A).run w := h

theorem safe_throw {e : ε} (h : terms.failure) :
    Safe answer terms (Ends terms post) (throw e : ExceptT ε (Prog Q R) A).run w := fun _ _ => h

/-- One program after another, where the first may raise. -/
theorem Safe.andThen (hlaw : terms.Lawful) {post : B → W → Prop} {f : A → ExceptT ε (Prog Q R) B}
    {x : ExceptT ε (Prog Q R) A}
    (h : Safe answer terms (Ends terms fun a v => Safe answer terms (Ends terms post) (f a).run v)
      x.run w) : Safe answer terms (Ends terms post) (x >>= f).run w := by
  rw [ExceptT.run_bind]
  refine Safe.bind hlaw (h.mono fun r v hr => ?_)
  cases r with
  | ok a => exact hr
  | error e => exact fun u hu => hr

/-! ## Runs

Programs one after the other, among the acts of others: what each of them guarantees
becomes an invariant of the run.
-/

variable (world : World W Q R X E) (body : C → Prog Q R A) (terms : C → Terms W X)
  (assertion : W → Prop) (post : C → A → W → Prop)

/-- Every call is safe, and the assertion survives what both sides may do. -/
structure Keeps : Prop where
  lawful : ∀ c, (terms c).Lawful
  body : ∀ {c w}, assertion w → Safe world.answer (terms c) (post c) (body c) w
  rely : ∀ {c v w}, assertion v → (terms c).rely v w → assertion w
  guarantee : ∀ {c v w}, assertion v → (terms c).guarantee v w → assertion w

/-- The world chooses and acts as is relied on. -/
def Permitted (s : Session W Q R A C) : Label C X E → Prop
  | .call _ => True
  | .answer x => ∀ c p, s.running = some (c, p) → (terms c).choice x
  | .ret => True
  | .act e => ∀ v, world.act s.world e = some v →
      match s.running with
      | none => assertion s.world → assertion v
      | some (c, _) => (terms c).rely s.world v

/-- The assertion holds, and what is left to be run is safe. -/
structure Holds (s : Session W Q R A C) : Prop where
  asserted : assertion s.world
  safe : ∀ c p, s.running = some (c, p) → Safe world.answer (terms c) (post c) p s.world

variable {world body terms assertion post} {s t : Session W Q R A C} {l : Label C X E}

theorem Keeps.step (h : Keeps world body terms assertion post)
    (hs : Holds world terms assertion post s) (hpermitted : Permitted world terms assertion s l)
    (hstep : step world body s l = some t) : Holds world terms assertion post t := by
  obtain ⟨w, running, rs⟩ := s
  obtain ⟨hw, hrunning⟩ := hs
  cases l with
  | call c =>
    cases running with
    | some cp => cases hstep
    | none =>
      cases hstep
      refine ⟨hw, ?_⟩
      rintro _ _ ⟨⟩
      exact h.body hw
  | answer x =>
    match running, hstep with
    | some (c, .ask q next), hstep =>
      cases hstep
      obtain ⟨hguarantee, hnext⟩ :=
        hrunning c _ rfl w ((h.lawful c).refl w) x (hpermitted c _ rfl)
      refine ⟨h.guarantee hw hguarantee, ?_⟩
      rintro _ _ ⟨⟩
      exact hnext
  | ret =>
    match running, hstep with
    | some (c, .done a), hstep =>
      cases hstep
      exact ⟨hw, nofun⟩
  | act e =>
    obtain ⟨v, hv, rfl⟩ := Option.map_eq_some_iff.mp hstep
    have hact := hpermitted v hv
    cases running with
    | none => exact ⟨hact hw, nofun⟩
    | some cp =>
      refine ⟨h.rely hw hact, ?_⟩
      rintro c p ⟨⟩
      exact (hrunning c p rfl).of_rely (h.lawful c) hact

open Classical in
/-- On every run the assertion holds, and what is left to be run is safe. -/
theorem Keeps.run (h : Keeps world body terms assertion post) {start : W} (hstart : assertion start)
    {ls : List (Label C X E)} (hrun : (system world body start).run ls = some s)
    (hpermitted : ∀ before l t, before ++ [l] <+: ls →
      (system world body start).run before = some t → Permitted world terms assertion t l) :
    Holds world terms assertion post s := by
  have hrestricted := System.run_restrict_eq_some.mpr ⟨hrun, hpermitted⟩
  refine System.invariant (P := fun _ => Holds world terms assertion post) ⟨hstart, ?_⟩
    (fun _ s l t hs hstep => ?_) hrestricted
  · rintro c p ⟨⟩
  · obtain ⟨hl, hstep⟩ := System.step_restrict_eq_some.mp hstep
    exact h.step hs hl hstep

/-- What a question has changed is guaranteed. -/
theorem Holds.guarantee (hlaw : ∀ c, (terms c).Lawful) (hs : Holds world terms assertion post s)
    {x : X} (hstep : step world body s (.answer x) = some t)
    (hchoice : ∀ c p, s.running = some (c, p) → (terms c).choice x) :
    ∃ c q next p, s.running = some (c, .ask q next) ∧ t.running = some (c, p) ∧
      (terms c).guarantee s.world t.world := by
  obtain ⟨w, running, rs⟩ := s
  match running, hstep with
  | some (c, .ask q next), hstep =>
    cases hstep
    exact ⟨c, q, next, _, rfl, rfl,
      (hs.safe c _ rfl w ((hlaw c).refl w) x (hchoice c _ rfl)).1⟩

/-- What is returned meets the postcondition. -/
theorem Holds.returned (hlaw : ∀ c, (terms c).Lawful) (hs : Holds world terms assertion post s)
    (hstep : step world body s .ret = some t) :
    ∃ c a, t = ⟨s.world, none, s.results ++ [(c, a)]⟩ ∧ post c a s.world := by
  obtain ⟨w, running, rs⟩ := s
  match running, hstep with
  | some (c, .done a), hstep =>
    cases hstep
    exact ⟨c, a, rfl, hs.safe c _ rfl w ((hlaw c).refl w)⟩

/-- A call that is answered and not interfered with. -/
theorem Safe.answers {terms : Terms W X} (hlaw : terms.Lawful) {post : A → W → Prop} {w : W} {c : C}
    {p : Prog Q R A} {rs : List (C × A)} (hsafe : Safe world.answer terms post p w)
    {ls : List (Label C X E)} (hls : ∀ l ∈ ls, ∃ x, l = .answer x ∧ terms.choice x)
    (hrun : System.run ⟨⟨w, some (c, p), rs⟩, step world body⟩ ls = some s) :
    ∃ q, s.running = some (c, q) ∧ Safe world.answer terms post q s.world := by
  induction ls using List.reverseRecOn generalizing s with
  | nil =>
    cases hrun
    exact ⟨p, rfl, hsafe⟩
  | append_singleton ls l ih =>
    obtain ⟨u, hu, hstep⟩ := System.run_concat_eq_some hrun
    obtain ⟨q, hrunning, hq⟩ := ih (fun l hl => hls l (List.mem_append_left _ hl)) hu
    obtain ⟨x, rfl, hx⟩ := hls l (List.mem_append_right _ (List.mem_singleton_self l))
    obtain ⟨v, running, us⟩ := u
    cases hrunning
    cases q with
    | done a => cases hstep
    | ask q next =>
      cases hstep
      exact ⟨_, rfl, (hq v (hlaw.refl v) x hx).2⟩

end RelyGuarantee
