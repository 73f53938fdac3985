import SpokeSensor.Lib.RelyGuarantee

/-!
# Scripts on files

A script reads, writes and replaces files and runs tools that read them.

- `Request`, `Outcome`, `answer`: one file is read or written at once. A write that
  fails leaves the file as it was or any beginning of what it was to hold (`torn`); a
  replacement comes as a whole or not at all (`move`).
- `Script`: a program of requests that raises the errors it is answered.
- `Obeys`: a script that keeps to terms of rely and guarantee. For each operation
  there is one rule, for the operation with all that comes after it.
-/

namespace FileStore

open Interaction RelyGuarantee

variable {P T E ε A B : Type} [DecidableEq P]

/-- What is at each path. -/
abbrev Files (P : Type) : Type := P → Option ByteArray

inductive Request (P T : Type) where
  | look (path : P)
  | write (path : P) (content : ByteArray)
  | replace (source target : P)
  | run (tool : T)

/-- Whether an operation completes; `written` says how much of a write that fails has come. -/
inductive Outcome (E ε : Type) where
  | completes (environment : E)
  | fails (error : ε) (written : Option ℕ)

/-- The errors for missing files, and what the tools make of the files. -/
structure Host (P T E ε : Type) where
  notFound : P → ε
  tool : T → E → Files P → Except ε (Option ByteArray)

/-- The beginning of a content that a failed write has left. -/
def torn (files : Files P) (path : P) (content : ByteArray) : Option ℕ → Files P
  | none => files
  | some n => Function.update files path (some (content.extract 0 n))

namespace Host

variable (host : Host P T E ε)

/-- `os.replace` -/
def move (files : Files P) (source target : P) : Files P × Except ε (Option ByteArray) :=
  match files source with
  | none => (files, .error (host.notFound source))
  | some content =>
    (Function.update (Function.update files source none) target (some content), .ok none)

def answer (files : Files P) : Request P T → Outcome E ε → Files P × Except ε (Option ByteArray)
  | .look path, .completes _ => (files, .ok (files path))
  | .write path content, .completes _ => (Function.update files path (some content), .ok none)
  | .replace source target, .completes _ => host.move files source target
  | .run tool, .completes environment => (files, host.tool tool environment files)
  | .write path content, .fails error written => (torn files path content written, .error error)
  | _, .fails error _ => (files, .error error)

end Host

/-! ## The operations

Each of them is one request to the host, which may complete it, fail, or fail having
written a part.
-/

/-- A program that raises the errors it is answered. -/
abbrev Script (P T ε A : Type) : Type :=
  ExceptT ε (Prog (Request P T) (Except ε (Option ByteArray))) A

def ask (q : Request P T) : Script P T ε (Option ByteArray) := ExceptT.mk (Prog.request q)

/-- The content, if there is one. -/
def look (path : P) : Script P T ε (Option ByteArray) := ask (.look path)

/-- `path.is_file()` -/
def isFile (path : P) : Script P T ε Bool := do
  return (← look path).isSome

/-- `path.write_bytes(content)` -/
def write (path : P) (content : ByteArray) : Script P T ε (Option ByteArray) :=
  ask (.write path content)

/-- `os.replace(source, target)` -/
def replace (source target : P) : Script P T ε (Option ByteArray) := ask (.replace source target)

/-- What a tool prints or writes to a file of its own. -/
def run (tool : T) : Script P T ε (Option ByteArray) := ask (.run tool)

/-- A computation that may raise. -/
def orRaise (x : Except ε A) : Script P T ε A := ExceptT.mk (.done x)

/-- `path.read_bytes()` -/
def readBytes (notFound : P → ε) (path : P) : Script P T ε ByteArray := do
  match ← look path with
  | none => throw (notFound path)
  | some content => return content

/-- `shutil.copyfile(source, target)` -/
def copyFile (notFound : P → ε) (source target : P) : Script P T ε (Option ByteArray) := do
  let content ← readBytes notFound source
  write target content

/-! ## The rules

One rule for each operation, with what comes after it as the last premise: what the
operation finds may have been changed by others since.
-/

/-- Terms on which a script may read, and may end with an error where an operation can fail. -/
structure Working (terms : Terms (Files P) (Outcome E ε)) : Prop extends terms.Lawful where
  still : ∀ files, terms.guarantee files files
  fails : ∀ error written, terms.choice (.fails error written) → terms.failure

/-- A script that obeys its terms on a host, and meets the postcondition if it succeeds. -/
abbrev Obeys (host : Host P T E ε) (terms : Terms (Files P) (Outcome E ε))
    (post : B → Files P → Prop) (script : Script P T ε B) (files : Files P) : Prop :=
  Safe host.answer terms (Ends terms post) script.run files

variable {host : Host P T E ε} {terms : Terms (Files P) (Outcome E ε)} {post : B → Files P → Prop}
  {files : Files P} {path source target : P} {content : ByteArray}

theorem safe_look (hterms : Working terms) {f : Option ByteArray → Script P T ε B}
    (h : ∀ v, terms.rely files v →
      Obeys host terms post (f (v path)) v) :
    Obeys host terms post (look path >>= f) files := by
  intro v hv x hx
  refine ⟨?_, ?_⟩
  · cases x <;> exact hterms.still v
  · cases x with
    | completes environment => exact h v hv
    | fails error written => exact fun _ _ => hterms.fails error written hx

theorem safe_isFile (hterms : Working terms) {f : Bool → Script P T ε B}
    (h : ∀ v, terms.rely files v →
      Obeys host terms post (f (v path).isSome) v) :
    Obeys host terms post (isFile path >>= f) files := by
  refine Safe.andThen hterms.toLawful (safe_look hterms fun v hv => ?_)
  exact safe_pure fun u hu => (h v hv).of_rely hterms.toLawful hu

theorem safe_orRaise {x : Except ε A} {f : A → Script P T ε B}
    (herror : ∀ e, x = .error e → terms.failure)
    (h : ∀ a, x = .ok a → Obeys host terms post (f a) files) :
    Obeys host terms post (orRaise x >>= f) files := by
  cases x with
  | error e => exact fun _ _ => herror e rfl
  | ok a => exact h a rfl

theorem safe_readBytes (hterms : Working terms) {notFound : P → ε}
    {f : ByteArray → Script P T ε B}
    (hmissing : ∀ v, terms.rely files v → v path = none → terms.failure)
    (h : ∀ v content, terms.rely files v → v path = some content →
      Obeys host terms post (f content) v) :
    Obeys host terms post (readBytes notFound path >>= f) files := by
  refine Safe.andThen hterms.toLawful (safe_look hterms fun v hv => ?_)
  cases hcontent : v path with
  | none => exact safe_throw (hmissing v hv hcontent)
  | some content =>
    exact safe_pure fun u hu => (h v content hv hcontent).of_rely hterms.toLawful hu

theorem safe_write (hterms : Working terms) {f : Option ByteArray → Script P T ε B}
    (htorn : ∀ v error written, terms.rely files v → terms.choice (.fails error written) →
      terms.guarantee v (torn v path content written))
    (hwritten : ∀ v, terms.rely files v →
      terms.guarantee v (Function.update v path (some content)))
    (h : ∀ v, terms.rely files v → Obeys host terms post
      (f none) (Function.update v path (some content))) :
    Obeys host terms post (write path content >>= f) files := by
  intro v hv x hx
  cases x with
  | completes environment => exact ⟨hwritten v hv, h v hv⟩
  | fails error written =>
    exact ⟨htorn v error written hv hx, fun _ _ => hterms.fails error written hx⟩

theorem safe_copyFile (hterms : Working terms) {notFound : P → ε}
    {f : Option ByteArray → Script P T ε B}
    (hmissing : ∀ v, terms.rely files v → v source = none → terms.failure)
    (htorn : ∀ u v content error written, terms.rely files u → u source = some content →
      terms.rely u v → terms.choice (.fails error written) →
      terms.guarantee v (torn v target content written))
    (hwritten : ∀ u v content, terms.rely files u → u source = some content → terms.rely u v →
      terms.guarantee v (Function.update v target (some content)))
    (h : ∀ u v content, terms.rely files u → u source = some content → terms.rely u v →
      Obeys host terms post (f none) (Function.update v target (some content))) :
    Obeys host terms post (copyFile notFound source target >>= f) files := by
  rw [copyFile, bind_assoc]
  refine safe_readBytes hterms hmissing fun u content hu hcontent => ?_
  exact safe_write hterms (fun v error written hv => htorn u v content error written hu hcontent hv)
    (fun v hv => hwritten u v content hu hcontent hv) fun v hv => h u v content hu hcontent hv

theorem safe_replace (hterms : Working terms) {f : Option ByteArray → Script P T ε B}
    (hmissing : ∀ v, terms.rely files v → v source = none → terms.failure)
    (hmoved : ∀ v content, terms.rely files v → v source = some content → terms.guarantee v
      (Function.update (Function.update v source none) target (some content)))
    (h : ∀ v content, terms.rely files v → v source = some content →
      Obeys host terms post
        (f none) (Function.update (Function.update v source none) target (some content))) :
    Obeys host terms post (replace source target >>= f) files := by
  intro v hv x hx
  cases x with
  | fails error written =>
    exact ⟨hterms.still v, fun _ _ => hterms.fails error written hx⟩
  | completes environment =>
    show terms.guarantee v (host.move v source target).1 ∧ Safe host.answer terms (Ends terms post)
      (ExceptT.bindCont f (host.move v source target).2) (host.move v source target).1
    rw [Host.move]
    cases hcontent : v source with
    | none => exact ⟨hterms.still v, fun _ _ => hmissing v hv hcontent⟩
    | some content => exact ⟨hmoved v content hv hcontent, h v content hv hcontent⟩

theorem safe_run (hterms : Working terms) {tool : T} {f : Option ByteArray → Script P T ε B}
    (herror : ∀ v environment e, terms.rely files v → terms.choice (.completes environment) →
      host.tool tool environment v = .error e → terms.failure)
    (h : ∀ v environment output, terms.rely files v →
      host.tool tool environment v = .ok output →
      Obeys host terms post (f output) v) :
    Obeys host terms post (run tool >>= f) files := by
  intro v hv x hx
  cases x with
  | fails error written =>
    exact ⟨hterms.still v, fun _ _ => hterms.fails error written hx⟩
  | completes environment =>
    refine ⟨hterms.still v, ?_⟩
    show Safe host.answer terms (Ends terms post)
      (ExceptT.bindCont f (host.tool tool environment v)) v
    cases houtput : host.tool tool environment v with
    | error e => exact fun _ _ => herror v environment e hv hx houtput
    | ok output => exact h v environment output hv houtput

end FileStore
