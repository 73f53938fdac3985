import SpokeSensor.Lib.Transition
import SpokeSensor.Tools.GenerateConnectivity
import Mathlib.Logic.Function.Basic

/-!
# The connectivity guard (`simulation/connectivity_guard.py:25–52`)

Every simulation first calls `validate_simulation_connectivity`. It checks the
manifest and its digest in the generated text each time (27–38), and asks KiCad only
if one of the three files has a modification time other than at the last check that
passed (39–51). The server simulates in threads, which share `_validated_key`, while
the files are edited, generated and removed.

- `guard`: the call without the cache, on files that stay as they are.
- `Stage`, `advance`: the call as it is, access by access; `system` interleaves the
  calls of any number of threads with the edits.
- `Vouches`: what a key that was stored says about the files; `Known` and `Coherent`
  are what a call knows of them on its way.
- `Quiet`: no modification time that a key holds comes back, and the text is not
  rewritten between the moment a call reads it (34) and the moment that call takes its
  modification time (42).
- `guard_transparent`: on quiet runs a call that no edit disturbs answers as `guard`
  would. `rewritten_passes` is a run that is not quiet.
- `passes_iff_generated`: where the text comes from `generate` only, such a call
  passes exactly if the text is what `generate` would write now.
-/

namespace SpokeSensor.ConnectivityGuard

open Transition GenerateConnectivity Occurrence LocalServer Connectivity
open KicadNetlist (NetElement)

/-! ## The files

The guard reads three files, and looks at their modification times instead of reading
one again. An edit is a new content with a new modification time; that these are
different ones is not assumed here, but asked for by `Quiet` below.
-/

/-- A file with its `st_mtime_ns`. -/
structure File (α : Type) where
  content : α
  mtimeNs : ℤ

/-- `KICAD_MANIFEST_PATH`, which is also the manifest of the generator, `SCHEMATIC` and
`OUTPUT_PATH`. -/
structure Files (C S : Type) where
  manifest : File C
  schematic : File S
  output : Option (File (List Char))

/-- `key` -/
structure Key where
  manifest : ℤ
  schematic : ℤ
  output : ℤ
  deriving DecidableEq, Repr

variable {C S ι : Type} (tools : Tools C S)

/-! ## `validate_simulation_connectivity`

`guard` is the function without its cache, on files that stay as they are; `advance`
is the function as it runs (`connectivity_guard.py:25–52`), one access to a file or to
`_validated_key` at a time, so that another thread or an edit may come between any
two.
-/

def missingOutput : PyError :=
  .other "RuntimeError"
    "generated SPICE connectivity is missing; run tools/generate_connectivity.py"

def staleManifest : PyError :=
  .other "RuntimeError" "SPICE connectivity is stale relative to hardware/connectivity.json"

def staleNetlist : PyError :=
  .other "RuntimeError"
    "SPICE connectivity is stale relative to KiCad's native schematic endpoint netlist"

/-- The file is gone since `is_file`. -/
def fileNotFound : PyError := .other "FileNotFoundError" "simulation/generated_connectivity.inc"

/-- The digest of a manifest that passes `validate_manifest`. -/
def checkedDigest (manifest : C) : Except PyError (List Char) := do
  let (m, digest) ← canonicalManifest tools manifest
  validateManifest m
  return digest

/-- `OUTPUT_PATH.is_file()` and `OUTPUT_PATH.read_text` -/
def readOutput : Option (File (List Char)) → Except PyError (List Char)
  | none => .error missingOutput
  | some output => .ok output.content

/-- The call without `_validated_key` (27–38, 45–50, 52), on files that stay as they
are. -/
def guard (files : Files C S) : Except PyError (List Char) := do
  let digest ← checkedDigest tools files.manifest.content
  let generated ← readOutput files.output
  raiseIf (occursIn (manifestHeader ++ digest) generated = false) staleManifest
  let endpoints ← validateKicadNetlist tools files.schematic.content files.manifest.content
  raiseIf (occursIn (endpointHeader ++ endpoints) generated = false) staleNetlist
  return digest

/-- How far a call has come, with its variables. -/
inductive Stage where
  | idle
  | called
  | manifestRead (digest : List Char)
  | outputSeen (digest : List Char)
  | outputRead (digest generated : List Char)
  | manifestStat (digest generated : List Char) (manifest : ℤ)
  | schematicStat (digest generated : List Char) (manifest schematic : ℤ)
  | keyed (digest generated : List Char) (key : Key)
  | checking (digest generated : List Char) (key : Key)
  | exported (digest generated : List Char) (key : Key) (nets : List NetElement)
  | checked (digest generated : List Char) (key : Key)
  | done (result : Except PyError (List Char))

/-- The call goes on, or raises. -/
def orRaise {α : Type} (x : Except PyError α) (next : α → Stage) : Stage :=
  match x with
  | .error e => .done (.error e)
  | .ok a => next a

/-- The next access of a call to a file or to `_validated_key`, and what it computes of it.
In one stage the model reads less often than the source: after the export `validate` reads the
manifest for the expected endpoints, and then again for the components, once for every
exported pin (`validate_kicad_netlist.py:98, 110–118`), where `.exported` reads it once. -/
def advance (files : Files C S) (validated : Option Key) : Stage → Option (Stage × Option Key)
  | .idle => none
  | .called =>
    some (orRaise (checkedDigest tools files.manifest.content) .manifestRead, validated)
  | .manifestRead digest =>
    match files.output with
    | none => some (.done (.error missingOutput), validated)
    | some _ => some (.outputSeen digest, validated)
  | .outputSeen digest =>
    match files.output with
    | none => some (.done (.error fileNotFound), validated)
    | some output =>
      if occursIn (manifestHeader ++ digest) output.content = false then
        some (.done (.error staleManifest), validated)
      else some (.outputRead digest output.content, validated)
  | .outputRead digest generated =>
    some (.manifestStat digest generated files.manifest.mtimeNs, validated)
  | .manifestStat digest generated manifest =>
    some (.schematicStat digest generated manifest files.schematic.mtimeNs, validated)
  | .schematicStat digest generated manifest schematic =>
    match files.output with
    | none => some (.done (.error fileNotFound), validated)
    | some output =>
      some (.keyed digest generated ⟨manifest, schematic, output.mtimeNs⟩, validated)
  | .keyed digest generated key =>
    if some key ≠ validated then some (.checking digest generated key, validated)
    else some (.done (.ok digest), validated)
  | .checking digest generated key =>
    some (orRaise (loadNetlist tools files.schematic.content) (.exported digest generated key),
      validated)
  | .exported digest generated key nets =>
    some (orRaise (endpointDigest tools nets files.manifest.content) fun endpoints =>
      if occursIn (endpointHeader ++ endpoints) generated = false then .done (.error staleNetlist)
      else .checked digest generated key, validated)
  | .checked digest _ key => some (.done (.ok digest), some key)
  | .done _ => none

/-! ## Threads and edits

Every thread that simulates runs the guard on its own; they share the files and the
cached key. Nothing is locked, so the accesses of the threads and the edits come in
any order.
-/

/-- The files, `_validated_key`, and the call of each thread. -/
structure State (ι C S : Type) where
  files : Files C S
  validated : Option Key
  calls : ι → Stage

/-- An edit, a step of a thread, or a new process. -/
inductive Label (ι C S : Type) where
  | writeManifest (content : C) (mtimeNs : ℤ)
  | writeSchematic (content : S) (mtimeNs : ℤ)
  | writeOutput (text : List Char) (mtimeNs : ℤ)
  | removeOutput
  | call (i : ι)
  | advance (i : ι)
  | restart

/-- A thread calls again when its last call has ended. -/
def Stage.free : Stage → Bool
  | .idle => true
  | .done _ => true
  | _ => false

/-- What a label does, if it can come. -/
def step [DecidableEq ι] (s : State ι C S) : Label ι C S → Option (State ι C S)
  | .writeManifest content mtimeNs =>
    some { s with files := { s.files with manifest := ⟨content, mtimeNs⟩ } }
  | .writeSchematic content mtimeNs =>
    some { s with files := { s.files with schematic := ⟨content, mtimeNs⟩ } }
  | .writeOutput text mtimeNs =>
    some { s with files := { s.files with output := some ⟨text, mtimeNs⟩ } }
  | .removeOutput => some { s with files := { s.files with output := none } }
  | .call i =>
    if (s.calls i).free then some { s with calls := Function.update s.calls i .called } else none
  | .advance i =>
    (advance tools s.files s.validated (s.calls i)).map fun next =>
      { s with validated := next.2, calls := Function.update s.calls i next.1 }
  | .restart => some { s with validated := none, calls := fun _ => .idle }

/-- A process that has just started, on these files. -/
def init (files : Files C S) : State ι C S := ⟨files, none, fun _ => .idle⟩

/-- The threads and the edits, in any order. -/
def system [DecidableEq ι] (files : Files C S) : System (State ι C S) (Label ι C S) where
  init := init files
  step := step tools

/-- The key of a call that may still become `_validated_key`. -/
def Stage.key? : Stage → Option Key
  | .keyed _ _ key => some key
  | .checking _ _ key => some key
  | .exported _ _ key _ => some key
  | .checked _ _ key => some key
  | _ => none

/-- The text has been read and its modification time has not been taken. -/
def Stage.inWindow : Stage → Bool
  | .outputRead _ _ => true
  | .manifestStat _ _ _ => true
  | .schematicStat _ _ _ _ => true
  | _ => false

/-- The keys that are or may become `_validated_key`. -/
def State.Holds (s : State ι C S) (key : Key) : Prop :=
  s.validated = some key ∨ ∃ i, (s.calls i).key? = some key

/-- An edit gives a modification time that no key holds, and one of the text comes while no
call has read the text but not yet taken its modification time. -/
def Quiet (s : State ι C S) : Label ι C S → Prop
  | .writeManifest _ mtimeNs => ∀ key, s.Holds key → mtimeNs ≠ key.manifest
  | .writeSchematic _ mtimeNs => ∀ key, s.Holds key → mtimeNs ≠ key.schematic
  | .writeOutput _ mtimeNs =>
    (∀ key, s.Holds key → mtimeNs ≠ key.output) ∧ ∀ i, (s.calls i).inWindow = false
  | _ => True

/-- The label changes a file. -/
def Label.edits : Label ι C S → Bool
  | .writeManifest _ _ => true
  | .writeSchematic _ _ => true
  | .writeOutput _ _ => true
  | .removeOutput => true
  | _ => false

/-- No file has been changed since the last call of the thread. -/
def Undisturbed (i : ι) (labels : List (Label ι C S)) : Prop :=
  ∃ before after, labels = before ++ .call i :: after ∧ ∀ label ∈ after, label.edits = false

/-! ## What a key vouches for

The key consists of three modification times (`connectivity_guard.py:39–43`). What was
checked with KiCad was checked on the contents of that moment, so the invariant is
about times: whatever file still has the time of the key still has the content that
was checked.
-/

/-- A file with this modification time has this content. -/
def File.Noted {α : Type} (f : File α) (mtimeNs : ℤ) (content : α) : Prop :=
  f.mtimeNs = mtimeNs → f.content = content

/-- A file with another modification time is not concerned. -/
theorem File.noted_of_ne {α : Type} {f : File α} {mtimeNs : ℤ} {content : α}
    (h : f.mtimeNs ≠ mtimeNs) : f.Noted mtimeNs content := fun heq => absurd heq h

/-- The same of a file that may be missing. -/
def NotedOutput (output : Option (File (List Char))) (mtimeNs : ℤ) (generated : List Char) : Prop :=
  ∀ f ∈ output, f.Noted mtimeNs generated

/-- The netlist of the schematic agrees with the manifest, and its digest is in the text. -/
def EndpointsMatch (schematic : S) (manifest : C) (generated : List Char) : Prop :=
  ∃ endpoints, validateKicadNetlist tools schematic manifest = .ok endpoints ∧
    occursIn (endpointHeader ++ endpoints) generated = true

/-- What KiCad would find of files with these modification times. The contents that
were checked need not be there any more; but if a file has the modification time of
the key, it has the content that was checked. -/
def Vouches (files : Files C S) (key : Key) : Prop :=
  ∃ manifest schematic generated, files.manifest.Noted key.manifest manifest ∧
    files.schematic.Noted key.schematic schematic ∧
    NotedOutput files.output key.output generated ∧
    EndpointsMatch tools schematic manifest generated

/-- What a call knows of files that may be edited meanwhile: the text that it has read
has not been replaced by another one until its modification time is taken, and the
netlist that it has exported is one of a schematic with the modification time of the
key. -/
def Known (files : Files C S) : Stage → Prop
  | .outputRead _ generated => ∀ f ∈ files.output, f.content = generated
  | .manifestStat _ generated _ => ∀ f ∈ files.output, f.content = generated
  | .schematicStat _ generated _ _ => ∀ f ∈ files.output, f.content = generated
  | .keyed _ generated key => NotedOutput files.output key.output generated
  | .checking _ generated key => NotedOutput files.output key.output generated
  | .exported _ generated key nets => NotedOutput files.output key.output generated ∧
    ∃ schematic, loadNetlist tools schematic = .ok nets ∧
      files.schematic.Noted key.schematic schematic
  | .checked _ _ key => Vouches tools files key
  | _ => True

/-- The invariant of quiet runs: the key that is stored vouches, and each call knows
what it should at its stage. -/
structure Inv (s : State ι C S) : Prop where
  validated : ∀ key, s.validated = some key → Vouches tools s.files key
  calls : ∀ i, Known tools s.files (s.calls i)

variable {tools} {s t : State ι C S} {files : Files C S}

/-- A process that has just started has no key. -/
theorem inv_init (files : Files C S) : Inv tools (init files : State ι C S) where
  validated _ h := by cases h
  calls _ := trivial

/-- An edit that keeps what has been noted for the keys that are held. It gives a new
modification time, or the content that was noted. -/
theorem Inv.of_edit (h : Inv tools s)
    (hmanifest : ∀ key, s.Holds key → ∀ c, s.files.manifest.Noted key.manifest c →
      files.manifest.Noted key.manifest c)
    (hschematic : ∀ key, s.Holds key → ∀ c, s.files.schematic.Noted key.schematic c →
      files.schematic.Noted key.schematic c)
    (houtput : ∀ key, s.Holds key → ∀ text, NotedOutput s.files.output key.output text →
      NotedOutput files.output key.output text)
    (hwindow : ∀ i, (s.calls i).inWindow = true → ∀ f ∈ files.output, f ∈ s.files.output) :
    Inv tools { s with files := files } := by
  have hvouches : ∀ key, s.Holds key → Vouches tools s.files key → Vouches tools files key := by
    rintro key hkey ⟨manifest, schematic, generated, hm, hs, ho, hmatch⟩
    exact ⟨manifest, schematic, generated, hmanifest key hkey _ hm, hschematic key hkey _ hs,
      houtput key hkey _ ho, hmatch⟩
  refine ⟨fun key hkey => hvouches key (.inl hkey) (h.validated key hkey), fun i => ?_⟩
  have hknown := h.calls i
  have hopen := hwindow i
  have hheld : ∀ key, (s.calls i).key? = some key → s.Holds key := fun key hkey => .inr ⟨i, hkey⟩
  show Known tools files (s.calls i)
  cases hstage : s.calls i with
  | idle => trivial
  | called => trivial
  | manifestRead digest => trivial
  | outputSeen digest => trivial
  | done result => trivial
  | outputRead digest generated =>
    rw [hstage] at hknown hopen
    exact fun f hf => hknown f (hopen rfl f hf)
  | manifestStat digest generated manifest =>
    rw [hstage] at hknown hopen
    exact fun f hf => hknown f (hopen rfl f hf)
  | schematicStat digest generated manifest schematic =>
    rw [hstage] at hknown hopen
    exact fun f hf => hknown f (hopen rfl f hf)
  | keyed digest generated key =>
    rw [hstage] at hknown hheld
    exact houtput key (hheld key rfl) _ hknown
  | checking digest generated key =>
    rw [hstage] at hknown hheld
    exact houtput key (hheld key rfl) _ hknown
  | exported digest generated key nets =>
    rw [hstage] at hknown hheld
    obtain ⟨hnoted, schematic, hload, hs⟩ := hknown
    exact ⟨houtput key (hheld key rfl) _ hnoted, schematic, hload,
      hschematic key (hheld key rfl) _ hs⟩
  | checked digest generated key =>
    rw [hstage] at hknown hheld
    exact hvouches key (hheld key rfl) hknown

/-- A step of a thread. -/
theorem Inv.of_call [DecidableEq ι] (h : Inv tools s) {i : ι} {stage : Stage}
    {validated : Option Key} (hvalidated : ∀ key, validated = some key →
      s.validated = some key ∨ Vouches tools s.files key)
    (hstage : Known tools s.files stage) :
    Inv tools { s with validated := validated, calls := Function.update s.calls i stage } where
  validated key hkey := (hvalidated key hkey).elim (h.validated key) id
  calls j := by
    show Known tools s.files (Function.update s.calls i stage j)
    by_cases hj : j = i
    · rw [hj, Function.update_self]
      exact hstage
    · rw [Function.update_of_ne hj]
      exact h.calls j

/-- The call goes on with the value, or has raised. -/
theorem orRaise_eq {α : Type} (x : Except PyError α) (next : α → Stage) :
    (∃ e, x = .error e ∧ orRaise x next = .done (.error e)) ∨
      ∃ a, x = .ok a ∧ orRaise x next = next a := by
  cases x with
  | error e => exact .inl ⟨e, rfl, rfl⟩
  | ok a => exact .inr ⟨a, rfl, rfl⟩

/-- What a call knows after its next access, and what it vouches for. -/
theorem known_advance {stage stage' : Stage} {validated validated' : Option Key}
    (h : Known tools files stage)
    (hadvance : advance tools files validated stage = some (stage', validated')) :
    Known tools files stage' ∧
      ∀ key, validated' = some key → validated = some key ∨ Vouches tools files key := by
  have hsame : ∀ key, validated = some key → validated = some key ∨ Vouches tools files key :=
    fun key => .inl
  cases stage with
  | idle => cases hadvance
  | done result => cases hadvance
  | called =>
    cases hadvance
    refine ⟨?_, hsame⟩
    rcases orRaise_eq (checkedDigest tools files.manifest.content) .manifestRead with
      ⟨e, -, heq⟩ | ⟨digest, -, heq⟩ <;> rw [heq] <;> trivial
  | manifestRead digest =>
    rw [advance] at hadvance
    cases houtput : files.output <;> rw [houtput] at hadvance <;> cases hadvance
    · exact ⟨trivial, hsame⟩
    · exact ⟨trivial, hsame⟩
  | outputSeen digest =>
    rw [advance] at hadvance
    cases houtput : files.output with
    | none =>
      rw [houtput] at hadvance
      cases hadvance
      exact ⟨trivial, hsame⟩
    | some output =>
      rw [houtput] at hadvance
      dsimp only at hadvance
      split_ifs at hadvance <;> cases hadvance
      · exact ⟨trivial, hsame⟩
      · refine ⟨fun f hf => ?_, hsame⟩
        rw [houtput, Option.mem_some_iff] at hf
        rw [hf]
  | outputRead digest generated =>
    cases hadvance
    exact ⟨h, hsame⟩
  | manifestStat digest generated manifest =>
    cases hadvance
    exact ⟨h, hsame⟩
  | schematicStat digest generated manifest schematic =>
    rw [advance] at hadvance
    cases houtput : files.output with
    | none =>
      rw [houtput] at hadvance
      cases hadvance
      exact ⟨trivial, hsame⟩
    | some output =>
      rw [houtput] at hadvance
      cases hadvance
      exact ⟨fun f hf _ => h f hf, hsame⟩
  | keyed digest generated key =>
    rw [advance] at hadvance
    split_ifs at hadvance <;> cases hadvance
    · exact ⟨h, hsame⟩
    · exact ⟨trivial, hsame⟩
  | checking digest generated key =>
    cases hadvance
    refine ⟨?_, hsame⟩
    rcases orRaise_eq (loadNetlist tools files.schematic.content) (.exported digest generated key)
      with ⟨e, -, heq⟩ | ⟨nets, hnets, heq⟩ <;> rw [heq]
    · trivial
    · exact ⟨h, files.schematic.content, hnets, fun _ => rfl⟩
  | exported digest generated key nets =>
    obtain ⟨hnoted, schematic, hload, hschematic⟩ := h
    cases hadvance
    refine ⟨?_, hsame⟩
    cases hendpoints : endpointDigest tools nets files.manifest.content with
    | error e => trivial
    | ok endpoints =>
      show Known tools files (if occursIn (endpointHeader ++ endpoints) generated = false
        then .done (.error staleNetlist) else .checked digest generated key)
      split_ifs with hstale
      · trivial
      · refine ⟨files.manifest.content, schematic, generated, fun _ => rfl, hschematic, hnoted,
          endpoints, ?_, by simpa using hstale⟩
        rw [validateKicadNetlist, hload]
        exact hendpoints
  | checked digest generated key =>
    cases hadvance
    refine ⟨trivial, ?_⟩
    rintro _ ⟨⟩
    exact .inr h

/-- A step of the system. -/
theorem Inv.step [DecidableEq ι] (h : Inv tools s) {label : Label ι C S} (hquiet : Quiet s label)
    (hstep : ConnectivityGuard.step tools s label = some t) : Inv tools t := by
  cases label with
  | writeManifest content mtimeNs =>
    cases hstep
    exact h.of_edit (fun key hkey _ _ => File.noted_of_ne (hquiet key hkey)) (fun _ _ _ => id)
      (fun _ _ _ => id) fun _ _ _ => id
  | writeSchematic content mtimeNs =>
    cases hstep
    exact h.of_edit (fun _ _ _ => id) (fun key hkey _ _ => File.noted_of_ne (hquiet key hkey))
      (fun _ _ _ => id) fun _ _ _ => id
  | writeOutput text mtimeNs =>
    cases hstep
    refine h.of_edit (fun _ _ _ => id) (fun _ _ _ => id) (fun key hkey _ _ f hf => ?_)
      fun i hopen => absurd hopen (by rw [hquiet.2 i]; decide)
    rw [Option.mem_some_iff] at hf
    rw [← hf]
    exact File.noted_of_ne (hquiet.1 key hkey)
  | removeOutput =>
    cases hstep
    exact h.of_edit (fun _ _ _ => id) (fun _ _ _ => id)
      (fun _ _ _ _ f hf => absurd hf (Option.not_mem_none f))
      fun _ _ f hf => absurd hf (Option.not_mem_none f)
  | call i =>
    rw [ConnectivityGuard.step] at hstep
    split_ifs at hstep
    cases hstep
    exact h.of_call (fun _ => .inl) trivial
  | advance i =>
    rw [ConnectivityGuard.step, Option.map_eq_some_iff] at hstep
    obtain ⟨⟨stage, validated⟩, hadvance, rfl⟩ := hstep
    obtain ⟨hknown, hvalidated⟩ := known_advance (h.calls i) hadvance
    exact h.of_call hvalidated hknown
  | restart =>
    cases hstep
    exact ⟨fun _ hkey => (by cases hkey), fun _ => trivial⟩

/-! ## A call that is not disturbed

What such a call reads in its first accesses is still there in its last one, so it
answers as `guard` would on the files as they are. The one thing that it may take from
earlier is the key.
-/

/-- What has been read is what the files hold. -/
structure Read (tools : Tools C S) (files : Files C S) (digest generated : List Char) : Prop where
  manifest : checkedDigest tools files.manifest.content = .ok digest
  output : ∃ f, files.output = some f ∧ f.content = generated
  stamp : occursIn (manifestHeader ++ digest) generated = true

/-- The key is that of the files. -/
structure Current (files : Files C S) (key : Key) : Prop where
  manifest : key.manifest = files.manifest.mtimeNs
  schematic : key.schematic = files.schematic.mtimeNs
  output : ∀ f ∈ files.output, key.output = f.mtimeNs

/-- What a call knows of files that have not been edited since it began: what it has
read so far is what the files hold. -/
def Coherent (tools : Tools C S) (files : Files C S) : Stage → Prop
  | .idle => True
  | .called => True
  | .manifestRead digest => checkedDigest tools files.manifest.content = .ok digest
  | .outputSeen digest =>
    checkedDigest tools files.manifest.content = .ok digest ∧ ∃ f, files.output = some f
  | .outputRead digest generated => Read tools files digest generated
  | .manifestStat digest generated manifest =>
    Read tools files digest generated ∧ manifest = files.manifest.mtimeNs
  | .schematicStat digest generated manifest schematic =>
    Read tools files digest generated ∧ manifest = files.manifest.mtimeNs ∧
      schematic = files.schematic.mtimeNs
  | .keyed digest generated key => Read tools files digest generated ∧ Current files key
  | .checking digest generated _ => Read tools files digest generated
  | .exported digest generated _ nets =>
    Read tools files digest generated ∧ loadNetlist tools files.schematic.content = .ok nets
  | .checked digest generated _ =>
    Read tools files digest generated ∧
      EndpointsMatch tools files.schematic.content files.manifest.content generated
  | .done result => result = guard tools files

/-- The call from the netlist on. -/
theorem Read.guard_eq {digest generated : List Char} (h : Read tools files digest generated) :
    guard tools files = (do
      let endpoints ← validateKicadNetlist tools files.schematic.content files.manifest.content
      raiseIf (occursIn (endpointHeader ++ endpoints) generated = false) staleNetlist
      return digest) := by
  obtain ⟨f, hf, rfl⟩ := h.output
  rw [guard, h.manifest, hf]
  show raiseIf (occursIn (manifestHeader ++ digest) f.content = false) staleManifest >>= _ = _
  rw [h.stamp]
  rfl

/-- If the netlist matches, the answer is the digest of the manifest. -/
theorem Read.guard_of_match {digest generated : List Char} (h : Read tools files digest generated)
    (hmatch : EndpointsMatch tools files.schematic.content files.manifest.content generated) :
    guard tools files = .ok digest := by
  obtain ⟨endpoints, hendpoints, hstamp⟩ := hmatch
  rw [h.guard_eq, hendpoints]
  show raiseIf (occursIn (endpointHeader ++ endpoints) generated = false) staleNetlist >>= _ = _
  rw [hstamp]
  rfl

/-- A key that vouches, of files that have its modification times. -/
theorem Vouches.endpointsMatch {key : Key} (h : Vouches tools files key)
    (hcurrent : Current files key) {f : File (List Char)} (hf : files.output = some f) :
    EndpointsMatch tools files.schematic.content files.manifest.content f.content := by
  obtain ⟨manifest, schematic, generated, hm, hs, ho, hmatch⟩ := h
  rw [hm hcurrent.manifest.symm, hs hcurrent.schematic.symm,
    ho f (Option.mem_def.mpr hf) (hcurrent.output f (Option.mem_def.mpr hf)).symm]
  exact hmatch

/-- The next access of such a call, while `_validated_key` vouches. -/
theorem coherent_advance {stage stage' : Stage} {validated validated' : Option Key}
    (h : Coherent tools files stage)
    (hvalidated : ∀ key, validated = some key → Vouches tools files key)
    (hadvance : advance tools files validated stage = some (stage', validated')) :
    Coherent tools files stage' := by
  cases stage with
  | idle => cases hadvance
  | done result => cases hadvance
  | called =>
    cases hadvance
    rcases orRaise_eq (checkedDigest tools files.manifest.content) .manifestRead with
      ⟨e, hdigest, heq⟩ | ⟨digest, hdigest, heq⟩ <;> rw [heq]
    · show .error e = guard tools files
      rw [guard, hdigest]
      rfl
    · exact hdigest
  | manifestRead digest =>
    rw [advance] at hadvance
    cases houtput : files.output with
    | none =>
      rw [houtput] at hadvance
      cases hadvance
      show .error missingOutput = guard tools files
      rw [guard, show checkedDigest tools files.manifest.content = .ok digest from h, houtput]
      rfl
    | some output =>
      rw [houtput] at hadvance
      cases hadvance
      exact ⟨h, output, houtput⟩
  | outputSeen digest =>
    obtain ⟨hdigest, output, houtput⟩ := h
    rw [advance, houtput] at hadvance
    dsimp only at hadvance
    split_ifs at hadvance with hstale <;> cases hadvance
    · show .error staleManifest = guard tools files
      rw [guard, hdigest, houtput]
      show _ = raiseIf (occursIn (manifestHeader ++ digest) output.content = false) staleManifest
        >>= _
      rw [raiseIf, if_pos hstale]
      rfl
    · exact ⟨hdigest, ⟨output, houtput, rfl⟩, by simpa using hstale⟩
  | outputRead digest generated =>
    cases hadvance
    exact ⟨h, rfl⟩
  | manifestStat digest generated manifest =>
    cases hadvance
    exact ⟨h.1, h.2, rfl⟩
  | schematicStat digest generated manifest schematic =>
    obtain ⟨hread, hmanifest, hschematic⟩ := h
    obtain ⟨output, houtput, -⟩ := hread.output
    rw [advance, houtput] at hadvance
    cases hadvance
    refine ⟨hread, hmanifest, hschematic, fun f hf => ?_⟩
    rw [houtput, Option.mem_some_iff] at hf
    rw [hf]
  | keyed digest generated key =>
    obtain ⟨hread, hcurrent⟩ := h
    rw [advance] at hadvance
    split_ifs at hadvance with hmiss <;> cases hadvance
    · exact hread
    · -- the key is the cached one
      obtain ⟨f, hf, rfl⟩ := hread.output
      have hvouches := hvalidated key (not_not.mp hmiss).symm
      exact (hread.guard_of_match (hvouches.endpointsMatch hcurrent hf)).symm
  | checking digest generated key =>
    cases hadvance
    rcases orRaise_eq (loadNetlist tools files.schematic.content) (.exported digest generated key)
      with ⟨e, hnets, heq⟩ | ⟨nets, hnets, heq⟩ <;> rw [heq]
    · show .error e = guard tools files
      rw [Read.guard_eq h, validateKicadNetlist, hnets]
      rfl
    · exact ⟨h, hnets⟩
  | exported digest generated key nets =>
    obtain ⟨hread, hnets⟩ := h
    cases hadvance
    have hvalidate : validateKicadNetlist tools files.schematic.content files.manifest.content
        = endpointDigest tools nets files.manifest.content := by
      rw [validateKicadNetlist, hnets]
      rfl
    cases hendpoints : endpointDigest tools nets files.manifest.content with
    | error e =>
      show .error e = guard tools files
      rw [hread.guard_eq, hvalidate, hendpoints]
      rfl
    | ok endpoints =>
      show Coherent tools files (if occursIn (endpointHeader ++ endpoints) generated = false
        then .done (.error staleNetlist) else .checked digest generated key)
      split_ifs with hstale
      · show .error staleNetlist = guard tools files
        rw [hread.guard_eq, hvalidate, hendpoints]
        show _ = raiseIf (occursIn (endpointHeader ++ endpoints) generated = false) staleNetlist
          >>= _
        rw [raiseIf, if_pos hstale]
        rfl
      · exact ⟨hread, endpoints, hvalidate.trans hendpoints, by simpa using hstale⟩
  | checked digest generated key =>
    cases hadvance
    exact (h.1.guard_of_match h.2).symm

/-- The last step is the call itself, or it changes no file. -/
theorem undisturbed_concat {i : ι} {labels : List (Label ι C S)} {label : Label ι C S}
    (h : Undisturbed i (labels ++ [label])) :
    label = .call i ∨ (Undisturbed i labels ∧ label.edits = false) := by
  obtain ⟨before, after, heq, hafter⟩ := h
  rcases List.eq_nil_or_concat after with rfl | ⟨after, last, rfl⟩
  · exact .inl (List.singleton_inj.mp (List.append_inj' heq rfl).2)
  · rw [List.concat_eq_append, ← List.cons_append, ← List.append_assoc] at heq
    rw [List.concat_eq_append, List.forall_mem_append] at hafter
    obtain ⟨hlabels, hlast⟩ := List.append_inj' heq rfl
    rw [List.singleton_inj.mp hlast]
    exact .inr ⟨⟨before, after, hlabels, hafter.1⟩, hafter.2 last (List.mem_singleton_self last)⟩

/-- A step that changes no file. -/
theorem coherent_step [DecidableEq ι] (h : Inv tools s) {label : Label ι C S}
    (hedits : label.edits = false) (hstep : ConnectivityGuard.step tools s label = some t) {i : ι}
    (hcoherent : Coherent tools s.files (s.calls i)) : Coherent tools t.files (t.calls i) := by
  have hother : ∀ j stage, i ≠ j → Coherent tools s.files (Function.update s.calls j stage i) := by
    intro j stage hij
    rw [Function.update_of_ne hij]
    exact hcoherent
  cases label with
  | writeManifest content mtimeNs => cases hedits
  | writeSchematic content mtimeNs => cases hedits
  | writeOutput text mtimeNs => cases hedits
  | removeOutput => cases hedits
  | call j =>
    rw [ConnectivityGuard.step] at hstep
    split_ifs at hstep
    cases hstep
    by_cases hij : i = j
    · show Coherent tools s.files (Function.update s.calls j .called i)
      rw [hij, Function.update_self]
      trivial
    · exact hother j .called hij
  | advance j =>
    rw [ConnectivityGuard.step, Option.map_eq_some_iff] at hstep
    obtain ⟨⟨stage, validated⟩, hadvance, rfl⟩ := hstep
    by_cases hij : i = j
    · rw [hij] at hcoherent ⊢
      show Coherent tools s.files (Function.update s.calls j stage j)
      rw [Function.update_self]
      exact coherent_advance hcoherent h.validated hadvance
    · exact hother j stage hij
  | restart =>
    cases hstep
    trivial

/-- What holds of a quiet run. -/
theorem quiet_run [DecidableEq ι] {labels : List (Label ι C S)}
    (hrun : (system tools files : System (State ι C S) _).run labels = some s)
    (hquiet : ∀ before label t, before ++ [label] <+: labels →
      (system tools files : System (State ι C S) _).run before = some t → Quiet t label) :
    Inv tools s ∧ ∀ i, Undisturbed i labels → Coherent tools s.files (s.calls i) := by
  classical
  refine System.invariant
    (P := fun labels s =>
      Inv tools s ∧ ∀ i, Undisturbed i labels → Coherent tools s.files (s.calls i))
    ⟨inv_init files, ?_⟩ (fun labels s label t h hstep => ?_)
    (System.run_restrict_eq_some.mpr ⟨hrun, hquiet⟩)
  · rintro i ⟨before, after, heq, -⟩
    cases before <;> cases heq
  · obtain ⟨hok, hstep⟩ := System.step_restrict_eq_some.mp hstep
    refine ⟨h.1.step hok hstep, fun i hi => ?_⟩
    rcases undisturbed_concat hi with rfl | ⟨hbefore, hedits⟩
    · replace hstep : ConnectivityGuard.step tools s (.call i) = some t := hstep
      rw [ConnectivityGuard.step] at hstep
      split_ifs at hstep
      cases hstep
      show Coherent tools s.files (Function.update s.calls i .called i)
      rw [Function.update_self]
      trivial
    · exact coherent_step h.1 hedits hstep (h.2 i hbefore)

/-- A call that no edit disturbs answers as one without a cache would. If it finds the
key of an earlier call, that key vouches for the files as they are, so the netlist
would pass again; otherwise it asks KiCad itself. -/
theorem guard_transparent [DecidableEq ι] {labels : List (Label ι C S)}
    (hrun : (system tools files : System (State ι C S) _).run labels = some s)
    (hquiet : ∀ before label t, before ++ [label] <+: labels →
      (system tools files : System (State ι C S) _).run before = some t → Quiet t label)
    {i : ι} (hundisturbed : Undisturbed i labels) {result : Except PyError (List Char)}
    (hdone : s.calls i = .done result) : result = guard tools s.files := by
  have hcoherent := (quiet_run hrun hquiet).2 i hundisturbed
  rw [hdone] at hcoherent
  exact hcoherent

/-! ## Two simulations of the panel

A run in which the second of two threads finds the key of the first one, so that it
passes without asking KiCad; and one in which the text is rewritten in the window
between line 34 and line 42, which the cache then lets pass.
-/

/-- The panel before its text is generated. -/
def panelFiles : Files Unit Unit := ⟨⟨(), 1⟩, ⟨(), 2⟩, none⟩

/-- Two calls, of which the second finds its key. -/
def panelCalls : List (Label ℕ Unit Unit) :=
  .call 0 :: List.replicate 10 (.advance 0) ++ .call 1 :: List.replicate 7 (.advance 1)

/-- The text is generated, and two threads simulate. -/
def panelLabels : List (Label ℕ Unit Unit) := .writeOutput panelText 3 :: panelCalls

/-- What a call has returned. -/
def Stage.result? : Stage → Option (Except PyError (List Char))
  | .done result => some result
  | _ => none

theorem done_of_result {stage : Stage} {result : Except PyError (List Char)}
    (h : stage.result? = some result) : stage = .done result := by
  cases stage <;> cases h
  rfl

theorem panel_run : ∃ s, (system panelTools panelFiles).run panelLabels = some s ∧
    s.calls 1 = .done (.ok panelDigest) := by
  have hresult : ((system panelTools panelFiles).run panelLabels).map
      (fun s => (s.calls 1).result?) = some (some (.ok panelDigest)) := by decide +kernel
  obtain ⟨s, hrun, hcall⟩ := Option.map_eq_some_iff.mp hresult
  exact ⟨s, hrun, done_of_result hcall⟩

theorem quiet_of_edits {label : Label ι C S} (h : label.edits = false) : Quiet s label := by
  cases label <;> trivial

/-- The only edit comes before the calls. -/
theorem panel_quiet (before : List (Label ℕ Unit Unit)) (label : Label ℕ Unit Unit)
    (t : State ℕ Unit Unit) (hlabels : before ++ [label] <+: panelLabels)
    (ht : (system panelTools panelFiles).run before = some t) : Quiet t label := by
  have hcalls : ∀ label ∈ panelCalls, label.edits = false := by decide
  cases before with
  | nil =>
    obtain ⟨rfl, -⟩ := List.cons_prefix_cons.mp hlabels
    cases ht
    refine ⟨?_, fun _ => rfl⟩
    rintro key (hkey | ⟨i, hkey⟩) <;> cases hkey
  | cons first before =>
    obtain ⟨-, hlabels⟩ := List.cons_prefix_cons.mp hlabels
    have hmem : label ∈ panelCalls :=
      hlabels.subset (List.mem_append_right _ (List.mem_singleton_self label))
    exact quiet_of_edits (hcalls label hmem)

theorem panel_undisturbed : Undisturbed 1 panelLabels :=
  ⟨.writeOutput panelText 3 :: .call 0 :: List.replicate 10 (.advance 0),
    List.replicate 7 (.advance 1), rfl, by decide⟩

theorem panel_transparent : ∃ s, (system panelTools panelFiles).run panelLabels = some s ∧
    s.calls 1 = .done (.ok panelDigest) ∧ Except.ok panelDigest = guard panelTools s.files := by
  obtain ⟨s, hrun, hdone⟩ := panel_run
  exact ⟨s, hrun, hdone, guard_transparent hrun panel_quiet panel_undisturbed hdone⟩

/-- The stamp of the manifest alone. -/
def strippedText : List Char := manifestHeader ++ panelDigest

/-- The text is rewritten after a call has read it; the next call finds the key of that call. -/
def rewrittenLabels : List (Label ℕ Unit Unit) :=
  .writeOutput panelText 3 :: .call 0 :: List.replicate 3 (.advance 0)
    ++ .writeOutput strippedText 4 :: List.replicate 7 (.advance 0)
    ++ .call 1 :: List.replicate 7 (.advance 1)

/-- Then a text passes that a call without the cache refuses. -/
theorem rewritten_passes : ∃ s, (system panelTools panelFiles).run rewrittenLabels = some s ∧
    s.calls 1 = .done (.ok panelDigest) ∧ guard panelTools s.files = .error staleNetlist := by
  have hresult : ((system panelTools panelFiles).run rewrittenLabels).map
      (fun s => ((s.calls 1).result?, guard panelTools s.files))
        = some (some (.ok panelDigest), .error staleNetlist) := by decide +kernel
  obtain ⟨s, hrun, hpair⟩ := Option.map_eq_some_iff.mp hresult
  exact ⟨s, hrun, done_of_result (congrArg Prod.fst hpair), congrArg Prod.snd hpair⟩

/-! ## Generated texts

So far a text is anything with two digests in it. If it comes from `generate`,
whenever and of whatever manifest, then the two digests in it are all that `generate`
could have written differently, as long as digests tell manifests apart.
-/

/-- Manifests that their digests tell apart, without `=` in the names of nets. -/
structure Distinct (tools : Tools C S) (manifests : Set C) : Prop where
  digest : ∀ c ∈ manifests, ∀ c' ∈ manifests,
    tools.manifestDigest c = tools.manifestDigest c' → tools.loads c = tools.loads c'
  plain : ∀ c ∈ manifests, ∀ m, tools.loads c = .ok m → PlainNets m

/-- Both digests are written in hexadecimal. -/
structure HexDigests (tools : Tools C S) : Prop where
  manifest : ∀ c, HexDigest (tools.manifestDigest c)
  endpoints : ∀ items, HexDigest (tools.endpointsDigest items)

/-- `generate` has written this text, of whatever it read at its three accesses. -/
def Written (tools : Tools C S) (manifests : Set C) (text : List Char) : Prop :=
  ∃ schematic first second digest, second ∈ manifests ∧
    generate tools schematic first second = .ok (digest, text)

/-- The manifest is one of these, and the text is generated. -/
structure Sourced (tools : Tools C S) (manifests : Set C) (files : Files C S) : Prop where
  manifest : files.manifest.content ∈ manifests
  output : ∀ f ∈ files.output, Written tools manifests f.content

/-- The same of an edit. -/
def Label.Sourced (tools : Tools C S) (manifests : Set C) : Label ι C S → Prop
  | .writeManifest content _ => content ∈ manifests
  | .writeOutput text _ => Written tools manifests text
  | _ => True

/-- Every step keeps the files among those that were named. -/
theorem Sourced.step [DecidableEq ι] {manifests : Set C} (h : Sourced tools manifests s.files)
    {label : Label ι C S} (hlabel : label.Sourced tools manifests)
    (hstep : ConnectivityGuard.step tools s label = some t) : Sourced tools manifests t.files := by
  cases label with
  | writeManifest content mtimeNs =>
    cases hstep
    exact ⟨hlabel, h.output⟩
  | writeSchematic content mtimeNs =>
    cases hstep
    exact ⟨h.manifest, h.output⟩
  | writeOutput text mtimeNs =>
    cases hstep
    refine ⟨h.manifest, fun f hf => ?_⟩
    rw [Option.mem_some_iff] at hf
    rw [← hf]
    exact hlabel
  | removeOutput =>
    cases hstep
    exact ⟨h.manifest, fun f hf => absurd hf (Option.not_mem_none f)⟩
  | call i =>
    rw [ConnectivityGuard.step] at hstep
    split_ifs at hstep
    cases hstep
    exact h
  | advance i =>
    rw [ConnectivityGuard.step, Option.map_eq_some_iff] at hstep
    obtain ⟨next, -, rfl⟩ := hstep
    exact h
  | restart =>
    cases hstep
    exact h

/-- So does every run. -/
theorem sourced_run [DecidableEq ι] {manifests : Set C} (hfiles : Sourced tools manifests files)
    {labels : List (Label ι C S)}
    (hrun : (system tools files : System (State ι C S) _).run labels = some s)
    (hlabels : ∀ label ∈ labels, label.Sourced tools manifests) :
    Sourced tools manifests s.files := by
  refine System.invariant
    (P := fun labels s => (∀ label ∈ labels, label.Sourced tools manifests) →
      Sourced tools manifests s.files) (fun _ => hfiles) (fun labels s label t h hstep hall => ?_)
    hrun hlabels
  rw [List.forall_mem_append] at hall
  exact (h hall.1).step (hall.2 label (List.mem_singleton_self label)) hstep

/-- What `generate` has computed on the way. -/
theorem generate_eq_ok {schematic : S} {first second : C} {digest text : List Char} :
    generate tools schematic first second = .ok (digest, text) ↔
      ∃ endpoints m, validateKicadNetlist tools schematic first = .ok endpoints ∧
        tools.loads second = .ok m ∧ digest = tools.manifestDigest second ∧
        validateManifest m = .ok () ∧ spiceText m digest endpoints = .ok text := by
  rw [generate, canonicalManifest]
  constructor
  · intro h
    obtain ⟨endpoints, hendpoints, h⟩ := bind_eq_ok.mp h
    obtain ⟨⟨m, d⟩, hcanonical, h⟩ := bind_eq_ok.mp h
    obtain ⟨loaded, hloads, hpair⟩ := bind_eq_ok.mp hcanonical
    cases hpair
    obtain ⟨⟨⟩, hvalidate, h⟩ := bind_eq_ok.mp h
    obtain ⟨spice, hspice, h⟩ := bind_eq_ok.mp h
    cases h
    exact ⟨endpoints, m, hendpoints, hloads, rfl, hvalidate, hspice⟩
  · rintro ⟨endpoints, m, hendpoints, hloads, rfl, hvalidate, hspice⟩
    rw [hendpoints, hloads]
    show validateManifest m >>= _ = _
    rw [hvalidate]
    show spiceText m (tools.manifestDigest second) endpoints >>= _ = _
    rw [hspice]
    rfl

/-- The manifest is valid and this is its digest. -/
theorem checkedDigest_eq_ok {manifest : C} {digest : List Char} :
    checkedDigest tools manifest = .ok digest ↔ ∃ m, tools.loads manifest = .ok m ∧
      digest = tools.manifestDigest manifest ∧ validateManifest m = .ok () := by
  rw [checkedDigest, canonicalManifest]
  constructor
  · intro h
    obtain ⟨⟨m, d⟩, hcanonical, h⟩ := bind_eq_ok.mp h
    obtain ⟨loaded, hloads, hpair⟩ := bind_eq_ok.mp hcanonical
    cases hpair
    obtain ⟨⟨⟩, hvalidate, h⟩ := bind_eq_ok.mp h
    cases h
    exact ⟨m, hloads, rfl, hvalidate⟩
  · rintro ⟨m, hloads, rfl, hvalidate⟩
    rw [hloads]
    show validateManifest m >>= _ = _
    rw [hvalidate]
    rfl

/-- The call passes if what it reads passes each of its checks. -/
theorem guard_eq_ok {digest : List Char} :
    guard tools files = .ok digest ↔ ∃ f, Read tools files digest f.content ∧
      files.output = some f ∧
      EndpointsMatch tools files.schematic.content files.manifest.content f.content := by
  constructor
  · intro h
    rw [guard] at h
    obtain ⟨d, hdigest, h⟩ := bind_eq_ok.mp h
    obtain ⟨generated, hgenerated, h⟩ := bind_eq_ok.mp h
    obtain ⟨⟨⟩, hstamp, h⟩ := bind_eq_ok.mp h
    obtain ⟨endpoints, hendpoints, h⟩ := bind_eq_ok.mp h
    obtain ⟨⟨⟩, hmatch, h⟩ := bind_eq_ok.mp h
    cases h
    cases houtput : files.output with
    | none =>
      rw [houtput] at hgenerated
      cases hgenerated
    | some f =>
      rw [houtput] at hgenerated
      cases hgenerated
      have hread : Read tools files digest f.content :=
        ⟨hdigest, ⟨f, houtput, rfl⟩, by simpa using raiseIf_eq_ok.mp hstamp⟩
      exact ⟨f, hread, rfl, endpoints, hendpoints, by simpa using raiseIf_eq_ok.mp hmatch⟩
  · rintro ⟨f, hread, -, hmatch⟩
    exact hread.guard_of_match hmatch

/-- On generated texts, the checks pass exactly if `generate` would write the text now. -/
theorem guard_ok_iff {manifests : Set C} (hmanifests : Distinct tools manifests)
    (hhex : HexDigests tools) (hfiles : Sourced tools manifests files)
    {digest : List Char} :
    guard tools files = .ok digest ↔ ∃ f, files.output = some f ∧
      generate tools files.schematic.content files.manifest.content files.manifest.content
        = .ok (digest, f.content) := by
  have hdigest : ∀ {schematic : S} {manifest : C} {endpoints : List Char},
      validateKicadNetlist tools schematic manifest = .ok endpoints → HexDigest endpoints := by
    intro schematic manifest endpoints h
    obtain ⟨nets, -, h⟩ := bind_eq_ok.mp h
    obtain ⟨m, -, h⟩ := bind_eq_ok.mp h
    obtain ⟨items, -, h⟩ := bind_eq_ok.mp h
    cases h
    exact hhex.endpoints items
  rw [guard_eq_ok]
  constructor
  · rintro ⟨f, hread, hf, endpoints, hendpoints, hmatch⟩
    obtain ⟨schematic, first, second, written, hsecond, hgenerate⟩ :=
      hfiles.output f (Option.mem_def.mpr hf)
    obtain ⟨endpoints₀, m₀, hendpoints₀, hloads₀, rfl, -, htext⟩ := generate_eq_ok.mp hgenerate
    obtain ⟨m, hloads, rfl, hvalidate⟩ := checkedDigest_eq_ok.mp hread.manifest
    have hplain := hmanifests.plain second hsecond m₀ hloads₀
    -- both stamps of the text are those of the files
    have hsame := (manifestStamp_iff hplain (hhex.manifest _) (hdigest hendpoints₀)
      (hhex.manifest _) htext).mp
      hread.stamp
    have hendpoint := (endpointStamp_iff hplain (hhex.manifest _) (hdigest hendpoints₀)
      (hdigest hendpoints) htext).mp hmatch
    have hm : m = m₀ := by
      have hloaded := hmanifests.digest _ hfiles.manifest second hsecond hsame
      rw [hloads, hloads₀] at hloaded
      exact Except.ok.inj hloaded
    refine ⟨f, hf, generate_eq_ok.mpr ⟨endpoints, m, hendpoints, hloads, rfl, hvalidate, ?_⟩⟩
    rw [hm, hsame, hendpoint]
    exact htext
  · rintro ⟨f, hf, hgenerate⟩
    obtain ⟨endpoints, m, hendpoints, hloads, rfl, hvalidate, htext⟩ := generate_eq_ok.mp hgenerate
    have hplain := hmanifests.plain _ hfiles.manifest m hloads
    refine ⟨f, ⟨checkedDigest_eq_ok.mpr ⟨m, hloads, rfl, hvalidate⟩, ⟨f, hf, rfl⟩, ?_⟩, hf,
      endpoints, hendpoints, ?_⟩
    · exact (manifestStamp_iff hplain (hhex.manifest _) (hdigest hendpoints) (hhex.manifest _)
        htext).mpr rfl
    · exact (endpointStamp_iff hplain (hhex.manifest _) (hdigest hendpoints) (hdigest hendpoints)
        htext).mpr rfl

/-- Where all texts are generated, a call that no edit disturbs passes exactly if the
text is what `generate` would write now, and returns the digest that `generate` would
return. The run is quiet, as for `guard_transparent`: the call may rest on the key of
an earlier one. -/
theorem passes_iff_generated [DecidableEq ι] {manifests : Set C}
    (hmanifests : Distinct tools manifests) (hhex : HexDigests tools)
    (hfiles : Sourced tools manifests files) {labels : List (Label ι C S)}
    (hrun : (system tools files : System (State ι C S) _).run labels = some s)
    (hlabels : ∀ label ∈ labels, label.Sourced tools manifests)
    (hquiet : ∀ before label t, before ++ [label] <+: labels →
      (system tools files : System (State ι C S) _).run before = some t → Quiet t label)
    {i : ι} (hundisturbed : Undisturbed i labels) {result : Except PyError (List Char)}
    (hdone : s.calls i = .done result) (digest : List Char) :
    result = .ok digest ↔ ∃ f, s.files.output = some f ∧
      generate tools s.files.schematic.content s.files.manifest.content s.files.manifest.content
        = .ok (digest, f.content) := by
  have hcoherent := (quiet_run hrun hquiet).2 i hundisturbed
  rw [hdone] at hcoherent
  rw [show result = guard tools s.files from hcoherent]
  exact guard_ok_iff hmanifests hhex (sourced_run hfiles hrun hlabels)

theorem panel_generated : ∃ s, (system panelTools panelFiles).run panelLabels = some s ∧
    s.calls 1 = .done (.ok panelDigest) ∧ ∃ f, s.files.output = some f ∧
      generate panelTools s.files.schematic.content s.files.manifest.content
        s.files.manifest.content = .ok (panelDigest, f.content) := by
  have hmanifests : Distinct panelTools Set.univ := by
    refine ⟨fun _ _ _ _ _ => rfl, fun _ _ m hm => ?_⟩
    rw [← Except.ok.inj hm]
    exact panel_plain
  have hhex : HexDigests panelTools :=
    ⟨fun _ => panelDigest_hex, fun _ => panelEndpoints_hex⟩
  have hfiles : Sourced panelTools Set.univ panelFiles :=
    ⟨Set.mem_univ _, fun f hf => absurd hf (Option.not_mem_none f)⟩
  have hlabels : ∀ label ∈ panelLabels, label.Sourced panelTools Set.univ := by
    have hcalls : ∀ label ∈ panelCalls, label.edits = false := by decide
    rw [panelLabels, List.forall_mem_cons]
    refine ⟨⟨(), (), (), panelDigest, Set.mem_univ _, panel_generate⟩, fun label hlabel => ?_⟩
    have hedits := hcalls label hlabel
    cases label <;> trivial
  obtain ⟨s, hrun, hdone⟩ := panel_run
  exact ⟨s, hrun, hdone, (passes_iff_generated hmanifests hhex hfiles hrun hlabels panel_quiet
    panel_undisturbed hdone panelDigest).mp rfl⟩

end SpokeSensor.ConnectivityGuard
