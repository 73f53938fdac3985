import SpokeSensor.Lib.Transition
import Mathlib.Data.Int.Notation
import Mathlib.Logic.Function.Basic

/-!
# The interactive BOM (`tools/interactive_bom.py`)

`generate` lets an external generator read the PCB and write the page
(`interactive_bom.py:87`), then hashes the PCB and the page (94–96), then writes the
manifest (99–101). `serve` does that once (243) and starts `watch`, which polls the
modification time and generates again when it changes (214–227). An editor saves the
PCB at any time. So the PCB that is hashed need not be the one the generator has read,
and the modification time that `watch` starts from (215) need not be that of the PCB
it was generated from.

- `Progress`, `Stage`, `Checker`: how far the process and `check` (109–132) have come;
  one file access is one step of `step`.
- `Manifest.Matches`: what `check` compares.
- `Quiet`: a save outside the two windows, with a modification time that `watch` does
  not hold.
- `Inv`: what the process knows of the files on a quiet run, stage by stage;
  `Inv.step` keeps it.
- `page_current`: on quiet runs a page that `check` passes, and one that a poll takes
  for current, has been generated from the PCB. `save_lost` are two runs that are not
  quiet.

One process runs at a time, and `check` runs beside it. The text of the page is taken
with its line ends made uniform, as it is hashed (56–60).
-/

namespace SpokeSensor.InteractiveBom

open Transition

/-- The generator and the hashes, where the generator may take in more than the PCB. -/
structure Tools (C E T H : Type) where
  generator : E → C → T
  sha256 : C → H
  textSha256 : T → H

/-! ## The files

The board, the page and its manifest, with the digests as parameters.
-/

/-- `TOOL_VERSION` -/
def toolVersion : String := "v2.11.2"

/-- `TOOL_COMMIT` -/
def toolCommit : String := "de7fad7ead9b73cea7eb17afa02c6ce9ce17a6ab"

/-- `PCB`, relative to `ROOT` -/
def pcbPath : String := "hardware/ir_spoke_link/ir_spoke_link.kicad_pcb"

/-- `OUTPUT`, relative to `ROOT` -/
def outputPath : String := "docs/interactive_bom.html"

/-- `GENERATOR_OPTIONS` -/
def generatorOptions : List String :=
  ["--dark-mode", "--show-fabrication", "--highlight-pin1", "selected", "--checkboxes",
    "Sourced,Placed,Inspected", "--mark-when-checked", "Placed", "--bom-view", "top-bottom",
    "--layer-view", "F", "--include-tracks", "--include-nets", "--extra-fields",
    "Manufacturer,MPN,LCSC,JLCPCB", "--no-browser"]

/-- The PCB file. -/
structure Pcb (C : Type) where
  content : C
  mtime : ℤ

/-- The manifest. -/
structure Manifest (H : Type) where
  schemaVersion : ℕ
  generator : String
  generatorVersion : String
  generatorCommit : String
  source : String
  sourceSha256 : H
  output : String
  outputSha256 : H
  options : List String

/-- `metadata` of `generate` (88–98) -/
def metadata {H : Type} (sourceHash outputHash : H) : Manifest H where
  schemaVersion := 1
  generator := "openscopeproject/InteractiveHtmlBom"
  generatorVersion := toolVersion
  generatorCommit := toolCommit
  source := pcbPath
  sourceSha256 := sourceHash
  output := outputPath
  outputSha256 := outputHash
  options := generatorOptions

/-- `check` finds no mismatch between a manifest and the hashes it takes. -/
structure Manifest.Matches {H : Type} (m : Manifest H) (sourceHash outputHash : H) : Prop where
  generatorVersion : m.generatorVersion = toolVersion
  generatorCommit : m.generatorCommit = toolCommit
  source : m.source = pcbPath
  sourceSha256 : m.sourceSha256 = sourceHash
  output : m.output = outputPath
  outputSha256 : m.outputSha256 = outputHash
  options : m.options = generatorOptions

/-! ## The processes

`generate`, `check` and the loop of `watch` as steps between two accesses to a file,
so that an editor may save in between.
-/

/-- Who has called `generate`; `watch` holds its two variables. -/
inductive Caller where
  | command
  | serve
  | watch (lastMtime current : ℤ)

/-- How far `generate` has come. -/
inductive Progress (C H : Type) where
  | called
  | read (content : C)
  | written
  | pcbHashed (source : H)
  | outputHashed (source output : H)
  | done (metadata : Manifest H)

/-- What the process is at. -/
inductive Stage (C H : Type) where
  | idle
  | generating (caller : Caller) (progress : Progress C H)
  | watchStarted
  | sleeping (lastMtime : ℤ)

/-- How far `check` has come. -/
inductive Checker (H : Type) where
  | idle
  | manifestRead (m : Manifest H)
  | pcbHashed (m : Manifest H) (source : H)

/-- The files, the process with its `LiveState`, and `check`. -/
structure State (C T H : Type) where
  pcb : Pcb C
  output : Option T
  manifest : Option (Manifest H)
  stage : Stage C H
  version : Option H
  lastError : String
  checker : Checker H

/-- One step of the editor, of the process or of `check`. -/
inductive Label (C E T : Type) where
  | save (content : C) (mtime : ℤ)
  | runCommand
  | runServe
  | generatorReads
  | generatorWrites (environment : E)
  | generatorFails (left : Option T) (message : String)
  | hashPcb
  | hashOutput
  | writeManifest
  | raises (message : String)
  | returns
  | firstStat
  | poll
  | stop
  | checkReadsManifest
  | checkHashesPcb
  | checkHashesOutput

variable {C E T H : Type}

/-- An exception leaves `generate`: `watch` notes it and goes on with the modification
time it had (225–227), the others end. -/
def raised (s : State C T H) (caller : Caller) (message : String) : State C T H :=
  match caller with
  | .watch lastMtime _ => { s with stage := .sleeping lastMtime, lastError := message }
  | _ => { s with stage := .idle }

/-- `generate` returns: `serve` starts `watch` (244–249), and `watch` updates the live
state and its modification time (223–224). -/
def returned (tools : Tools C E T H) (s : State C T H) (m : Manifest H) : Caller →
    Option (State C T H)
  | .command => some { s with stage := .idle }
  | .serve =>
    some { s with stage := .watchStarted, version := some m.outputSha256, lastError := "" }
  | .watch _ current => s.output.map fun page =>
    { s with stage := .sleeping current, version := some (tools.textSha256 page), lastError := "" }

/-- What a label does, if it can come. -/
def step [DecidableEq C] (tools : Tools C E T H) (s : State C T H) :
    Label C E T → Option (State C T H)
  | .save content mtime =>
    if content = s.pcb.content ∨ mtime = s.pcb.mtime then none
    else some { s with pcb := ⟨content, mtime⟩ }
  | .runCommand =>
    match s.stage with
    | .idle => some { s with stage := .generating .command .called }
    | _ => none
  | .runServe =>
    match s.stage with
    | .idle => some { s with stage := .generating .serve .called }
    | _ => none
  | .generatorReads =>
    match s.stage with
    | .generating caller .called =>
      some { s with stage := .generating caller (.read s.pcb.content) }
    | _ => none
  | .generatorWrites environment =>
    match s.stage with
    | .generating caller (.read content) =>
      some { s with
        output := some (tools.generator environment content)
        stage := .generating caller .written }
    | _ => none
  | .generatorFails left message =>
    match s.stage with
    | .generating caller .called => some (raised { s with output := left } caller message)
    | .generating caller (.read _) => some (raised { s with output := left } caller message)
    | _ => none
  | .hashPcb =>
    match s.stage with
    | .generating caller .written =>
      some { s with stage := .generating caller (.pcbHashed (tools.sha256 s.pcb.content)) }
    | _ => none
  | .hashOutput =>
    match s.stage, s.output with
    | .generating caller (.pcbHashed source), some page =>
      some { s with stage := .generating caller (.outputHashed source (tools.textSha256 page)) }
    | _, _ => none
  | .writeManifest =>
    match s.stage with
    | .generating caller (.outputHashed source output) =>
      some { s with
        manifest := some (metadata source output)
        stage := .generating caller (.done (metadata source output)) }
    | _ => none
  | .raises message =>
    match s.stage with
    | .generating caller _ => some (raised s caller message)
    | _ => none
  | .returns =>
    match s.stage with
    | .generating caller (.done m) => returned tools s m caller
    | _ => none
  | .firstStat =>
    match s.stage with
    | .watchStarted => some { s with stage := .sleeping s.pcb.mtime }
    | _ => none
  | .poll =>
    match s.stage with
    | .sleeping lastMtime =>
      if s.pcb.mtime = lastMtime then some s
      else some { s with stage := .generating (.watch lastMtime s.pcb.mtime) .called }
    | _ => none
  | .stop => some { s with stage := .idle }
  | .checkReadsManifest =>
    match s.manifest, s.output with
    | some m, some _ => some { s with checker := .manifestRead m }
    | _, _ => none
  | .checkHashesPcb =>
    match s.checker with
    | .manifestRead m => some { s with checker := .pcbHashed m (tools.sha256 s.pcb.content) }
    | _ => none
  | .checkHashesOutput =>
    match s.checker with
    | .pcbHashed _ _ => some { s with checker := .idle }
    | _ => none

/-- No process has run yet; there may be a page without a manifest. -/
def init (pcb : Pcb C) (output : Option T) : State C T H where
  pcb := pcb
  output := output
  manifest := none
  stage := .idle
  version := none
  lastError := ""
  checker := .idle

/-- The editor, the process and `check` in any order. -/
def system [DecidableEq C] (tools : Tools C E T H) (pcb : Pcb C) (output : Option T) :
    System (State C T H) (Label C E T) where
  init := init pcb output
  step := step tools

/-! ## What is to hold of a run

A page that `check` passes, and one that a poll takes for current, has been made of
the board as it is.
-/

/-- The generator makes this page of this PCB. -/
def Generated (tools : Tools C E T H) (content : C) (page : T) : Prop :=
  ∃ environment, tools.generator environment content = page

/-- The page has been generated from the PCB as it is. -/
def PageCurrent (tools : Tools C E T H) (s : State C T H) : Prop :=
  ∃ page, s.output = some page ∧ Generated tools s.pcb.content page

/-- `check` has read this manifest and passes on this page. -/
def CheckPasses (tools : Tools C E T H) (s : State C T H) (m : Manifest H) (page : T) : Prop :=
  ∃ source, s.checker = .pcbHashed m source ∧ s.output = some page ∧
    m.Matches source (tools.textSha256 page)

/-- A poll now would find the modification time as it was, with no error pending. -/
def PollUnchanged (s : State C T H) : Prop :=
  s.stage = .sleeping s.pcb.mtime ∧ s.lastError = ""

/-- Between the moment the PCB is read by the generator and the moment it is hashed, or,
in `serve`, until `watch` first reads its modification time. -/
def Stage.inWindow : Stage C H → Bool
  | .generating _ (.read _) => true
  | .generating _ .written => true
  | .generating .serve .called => false
  | .generating .serve _ => true
  | .watchStarted => true
  | _ => false

/-- The modification times that `watch` holds. -/
def Stage.holds : Stage C H → ℤ → Bool
  | .generating (.watch lastMtime current) _, mtime => mtime == lastMtime || mtime == current
  | .sleeping lastMtime, mtime => mtime == lastMtime
  | _, _ => false

/-- A save outside the windows, with a modification time that `watch` does not hold. -/
def Quiet (s : State C T H) : Label C E T → Prop
  | .save _ mtime => s.stage.inWindow = false ∧ s.stage.holds mtime = false
  | _ => True

instance (s : State C T H) : (label : Label C E T) → Decidable (Quiet s label)
  | .save _ mtime =>
    inferInstanceAs (Decidable (s.stage.inWindow = false ∧ s.stage.holds mtime = false))
  | .runCommand | .runServe | .generatorReads | .generatorWrites _ | .generatorFails _ _
  | .hashPcb | .hashOutput | .writeManifest | .raises _ | .returns | .firstStat | .poll | .stop
  | .checkReadsManifest | .checkHashesPcb | .checkHashesOutput => inferInstanceAs (Decidable True)

/-! ## What the process knows

The content that has been hashed is that of the page being made, as long as nothing
has been saved in the window in which it is read twice.
-/

variable {tools : Tools C E T H} {s t : State C T H}

/-- A manifest holds the hashes of a PCB and of a page that was made of it. -/
def Recorded (tools : Tools C E T H) (m : Manifest H) : Prop :=
  ∃ content page, m.sourceSha256 = tools.sha256 content ∧
    m.outputSha256 = tools.textSha256 page ∧ Generated tools content page

/-- While it generates, `watch` has seen a modification time other than the last one. -/
def Behind (s : State C T H) : Caller → Prop
  | .watch lastMtime _ => s.pcb.mtime ≠ lastMtime
  | _ => True

/-- Once the PCB has been hashed: the page is current for `serve`, which has still to
start `watch`, and for `watch` if no save has come since the poll. -/
def Follows (tools : Tools C E T H) (s : State C T H) : Caller → Prop
  | .command => True
  | .serve => PageCurrent tools s
  | .watch lastMtime current =>
    s.pcb.mtime ≠ lastMtime ∧ (s.pcb.mtime = current → PageCurrent tools s)

/-- What holds at each stage of the process. The windows are the stages at which it
relies on the PCB as it is: from the read of the generator to the hash
(`interactive_bom.py:87–94`), and in `serve` to the first reading of the modification
time (215). -/
def StageInv (tools : Tools C E T H) (s : State C T H) : Stage C H → Prop
  | .idle => True
  | .generating caller .called => Behind s caller
  | .generating caller (.read content) => content = s.pcb.content ∧ Behind s caller
  | .generating caller .written => PageCurrent tools s ∧ Behind s caller
  | .generating caller (.pcbHashed source) =>
    (∃ content page, s.output = some page ∧ Generated tools content page ∧
      source = tools.sha256 content) ∧ Follows tools s caller
  | .generating caller (.outputHashed source output) =>
    (∃ content page, Generated tools content page ∧ source = tools.sha256 content ∧
      output = tools.textSha256 page) ∧ Follows tools s caller
  | .generating caller (.done _) => Follows tools s caller
  | .watchStarted => PageCurrent tools s
  | .sleeping lastMtime => s.pcb.mtime = lastMtime → PageCurrent tools s

/-- The invariant of quiet runs. -/
structure Inv (tools : Tools C E T H) (s : State C T H) : Prop where
  manifest : ∀ m, s.manifest = some m → Recorded tools m
  checkerRead : ∀ m, s.checker = .manifestRead m → Recorded tools m
  checkerHashed : ∀ m source, s.checker = .pcbHashed m source → Recorded tools m
  stage : StageInv tools s s.stage

theorem inv_init (tools : Tools C E T H) (pcb : Pcb C) (output : Option T) :
    Inv tools (init pcb output : State C T H) where
  manifest _ h := nomatch h
  checkerRead _ h := nomatch h
  checkerHashed _ _ h := nomatch h
  stage := trivial

/-- `watch` is behind from its poll to its return. -/
theorem StageInv.behind {caller : Caller} {progress : Progress C H}
    (h : StageInv tools s (.generating caller progress)) : Behind s caller := by
  have hfollows : ∀ {caller}, Follows tools s caller → Behind s caller := by
    intro caller h
    cases caller with
    | command => trivial
    | serve => trivial
    | watch lastMtime current => exact h.1
  cases progress with
  | called => exact h
  | read content => exact h.2
  | written => exact h.2
  | pcbHashed source => exact hfollows h.2
  | outputHashed source output => exact hfollows h.2
  | done m => exact hfollows h

/-- A step that leaves the manifest and `check` alone. -/
theorem Inv.of_stage (h : Inv tools s) (hmanifest : t.manifest = s.manifest)
    (hchecker : t.checker = s.checker) (hstage : StageInv tools t t.stage) : Inv tools t where
  manifest := by rw [hmanifest]; exact h.manifest
  checkerRead := by rw [hchecker]; exact h.checkerRead
  checkerHashed := by rw [hchecker]; exact h.checkerHashed
  stage := hstage

theorem Inv.stageAt (h : Inv tools s) {stage : Stage C H} (heq : s.stage = stage) :
    StageInv tools s stage := heq ▸ h.stage

/-- `watch` holds no modification time that the quiet save gives. -/
theorem not_holds_watch {lastMtime current mtime : ℤ} {progress : Progress C H}
    (h : (Stage.generating (.watch lastMtime current) progress).holds mtime = false) :
    mtime ≠ lastMtime ∧ mtime ≠ current := by
  simpa [Stage.holds] using h

/-- A quiet save changes nothing that the process relies on. -/
theorem Inv.save (h : Inv tools s) {content : C} {mtime : ℤ}
    (hwindow : s.stage.inWindow = false) (hholds : s.stage.holds mtime = false) :
    Inv tools { s with pcb := ⟨content, mtime⟩ } := by
  refine h.of_stage rfl rfl ?_
  have hstage := h.stage
  show StageInv tools { s with pcb := ⟨content, mtime⟩ } s.stage
  generalize s.stage = stage at hstage hwindow hholds
  cases stage with
  | idle => trivial
  | watchStarted => cases hwindow
  | sleeping lastMtime =>
    have hne : mtime ≠ lastMtime := by simpa [Stage.holds] using hholds
    exact fun heq => absurd heq hne
  | generating caller progress =>
    have hbehind : Behind { s with pcb := ⟨content, mtime⟩ } caller := by
      cases caller with
      | command => trivial
      | serve => trivial
      | watch lastMtime current => exact (not_holds_watch hholds).1
    -- past the window only `serve` would need the page to be current
    have hfollows : (Stage.generating caller progress).inWindow = false → progress ≠ .called →
        Follows tools { s with pcb := ⟨content, mtime⟩ } caller := by
      intro hoff hcalled
      cases caller with
      | command => trivial
      | serve => cases progress <;> first | exact absurd rfl hcalled | cases hoff
      | watch lastMtime current =>
        exact ⟨(not_holds_watch hholds).1, fun heq => absurd heq (not_holds_watch hholds).2⟩
    cases progress with
    | called => exact hbehind
    | read content => cases hwindow
    | written => cases hwindow
    | pcbHashed source => exact ⟨hstage.1, hfollows hwindow nofun⟩
    | outputHashed source output => exact ⟨hstage.1, hfollows hwindow nofun⟩
    | done m => exact hfollows hwindow nofun

/-- An exception leaves `watch` with a modification time that is not that of the PCB. -/
theorem Inv.raised (h : Inv tools s) {caller : Caller} (hbehind : Behind s caller)
    (left : Option T) (message : String) :
    Inv tools (InteractiveBom.raised { s with output := left } caller message) := by
  cases caller with
  | command => exact h.of_stage rfl rfl trivial
  | serve => exact h.of_stage rfl rfl trivial
  | watch lastMtime current => exact h.of_stage rfl rfl fun heq => absurd heq hbehind

theorem Inv.returned (h : Inv tools s) {caller : Caller} {m : Manifest H}
    (hfollows : Follows tools s caller)
    (hstep : InteractiveBom.returned tools s m caller = some t) : Inv tools t := by
  cases caller with
  | command =>
    obtain rfl := Option.some.inj hstep
    exact h.of_stage rfl rfl trivial
  | serve =>
    obtain rfl := Option.some.inj hstep
    exact h.of_stage rfl rfl hfollows
  | watch lastMtime current =>
    obtain ⟨page, -, rfl⟩ := Option.map_eq_some_iff.mp hstep
    exact h.of_stage rfl rfl hfollows.2

/-- The page is written of the PCB as it is. -/
theorem Inv.generatorWrites (h : Inv tools s) {caller : Caller} {content : C}
    (heq : s.stage = .generating caller (.read content)) (environment : E) :
    Inv tools { s with
      output := some (tools.generator environment content)
      stage := .generating caller .written } := by
  obtain ⟨rfl, hbehind⟩ := h.stageAt heq
  exact h.of_stage rfl rfl ⟨⟨_, rfl, environment, rfl⟩, hbehind⟩

/-- The PCB that is hashed is that of the page, which `serve` and `watch` rely on from
here on. -/
theorem Inv.hashPcb (h : Inv tools s) {caller : Caller}
    (heq : s.stage = .generating caller .written) :
    Inv tools { s with stage := .generating caller (.pcbHashed (tools.sha256 s.pcb.content)) } := by
  obtain ⟨⟨page, hpage, hgenerated⟩, hbehind⟩ := h.stageAt heq
  refine h.of_stage rfl rfl ⟨⟨_, page, hpage, hgenerated, rfl⟩, ?_⟩
  cases caller with
  | command => trivial
  | serve => exact ⟨page, hpage, hgenerated⟩
  | watch lastMtime current => exact ⟨hbehind, fun _ => ⟨page, hpage, hgenerated⟩⟩

theorem Inv.hashOutput (h : Inv tools s) {caller : Caller} {source : H} {page : T}
    (heq : s.stage = .generating caller (.pcbHashed source)) (hpage : s.output = some page) :
    Inv tools { s with
      stage := .generating caller (.outputHashed source (tools.textSha256 page)) } := by
  obtain ⟨⟨content, page', hpage', hgenerated, hsource⟩, hfollows⟩ := h.stageAt heq
  obtain rfl := Option.some.inj (hpage.symm.trans hpage')
  exact h.of_stage rfl rfl ⟨⟨content, page, hgenerated, hsource, rfl⟩, hfollows⟩

theorem Inv.writeManifest (h : Inv tools s) {caller : Caller} {source output : H}
    (heq : s.stage = .generating caller (.outputHashed source output)) :
    Inv tools { s with
      manifest := some (metadata source output)
      stage := .generating caller (.done (metadata source output)) } := by
  obtain ⟨⟨content, page, hgenerated, hsource, houtput⟩, hfollows⟩ := h.stageAt heq
  constructor
  · intro m hm
    obtain rfl := Option.some.inj hm
    exact ⟨content, page, hsource, houtput, hgenerated⟩
  · exact h.checkerRead
  · exact h.checkerHashed
  · exact hfollows

/-- A step of `check`, which keeps what it knows of the manifest. -/
theorem Inv.of_checker (h : Inv tools s) {checker : Checker H}
    (hread : ∀ m, checker = .manifestRead m → Recorded tools m)
    (hhashed : ∀ m source, checker = .pcbHashed m source → Recorded tools m) :
    Inv tools { s with checker := checker } := ⟨h.manifest, hread, hhashed, h.stage⟩

/-- One quiet step. -/
theorem Inv.step [DecidableEq C] (h : Inv tools s) {label : Label C E T}
    (hquiet : Quiet s label) (hstep : InteractiveBom.step tools s label = some t) :
    Inv tools t := by
  cases label with
  | save content mtime =>
    rw [InteractiveBom.step] at hstep
    split_ifs at hstep with hsame
    obtain rfl := Option.some.inj hstep
    exact h.save hquiet.1 hquiet.2
  | runCommand =>
    simp only [InteractiveBom.step] at hstep
    split at hstep <;> cases hstep
    exact h.of_stage rfl rfl trivial
  | runServe =>
    simp only [InteractiveBom.step] at hstep
    split at hstep <;> cases hstep
    exact h.of_stage rfl rfl trivial
  | generatorReads =>
    simp only [InteractiveBom.step] at hstep
    split at hstep <;> cases hstep
    next caller heq => exact h.of_stage rfl rfl ⟨rfl, h.stageAt heq⟩
  | generatorWrites environment =>
    simp only [InteractiveBom.step] at hstep
    split at hstep <;> cases hstep
    next caller content heq => exact h.generatorWrites heq environment
  | generatorFails left message =>
    simp only [InteractiveBom.step] at hstep
    split at hstep <;> cases hstep
    next caller heq => exact h.raised (h.stageAt heq).behind left message
    next caller content heq => exact h.raised (h.stageAt heq).behind left message
  | hashPcb =>
    simp only [InteractiveBom.step] at hstep
    split at hstep <;> cases hstep
    next caller heq => exact h.hashPcb heq
  | hashOutput =>
    simp only [InteractiveBom.step] at hstep
    split at hstep <;> cases hstep
    next caller source page heq hpage => exact h.hashOutput heq hpage
  | writeManifest =>
    simp only [InteractiveBom.step] at hstep
    split at hstep <;> cases hstep
    next caller source output heq => exact h.writeManifest heq
  | raises message =>
    simp only [InteractiveBom.step] at hstep
    split at hstep <;> cases hstep
    next caller progress heq => exact h.raised (h.stageAt heq).behind s.output message
  | returns =>
    simp only [InteractiveBom.step] at hstep
    split at hstep
    next caller m heq => exact h.returned (h.stageAt heq) hstep
    next => cases hstep
  | firstStat =>
    simp only [InteractiveBom.step] at hstep
    split at hstep <;> cases hstep
    next heq => exact h.of_stage rfl rfl fun _ => h.stageAt heq
  | poll =>
    simp only [InteractiveBom.step] at hstep
    split at hstep
    next lastMtime heq =>
      split_ifs at hstep with hsame <;> cases hstep
      · exact h
      · exact h.of_stage rfl rfl hsame
    next => cases hstep
  | stop =>
    cases hstep
    exact h.of_stage rfl rfl trivial
  | checkReadsManifest =>
    simp only [InteractiveBom.step] at hstep
    split at hstep <;> cases hstep
    next m page hm hpage =>
      refine h.of_checker (fun m' hm' => ?_) nofun
      cases hm'
      exact h.manifest m hm
  | checkHashesPcb =>
    simp only [InteractiveBom.step] at hstep
    split at hstep <;> cases hstep
    next m hm =>
      refine h.of_checker nofun fun m' source hm' => ?_
      cases hm'
      exact h.checkerRead m hm
  | checkHashesOutput =>
    simp only [InteractiveBom.step] at hstep
    split at hstep <;> cases hstep
    exact h.of_checker nofun nofun

/-- Every state of a quiet run. -/
theorem inv_run [DecidableEq C] {pcb : Pcb C} {output : Option T} {labels : List (Label C E T)}
    (hrun : ((system tools pcb output : System (State C T H) _).restrict Quiet).run labels
      = some s) : Inv tools s :=
  System.invariant (P := fun _ s => Inv tools s) (inv_init tools pcb output)
    (fun _ _ _ _ h hstep =>
      h.step (System.step_restrict_eq_some.mp hstep).1 (System.step_restrict_eq_some.mp hstep).2)
    hrun

/-- In a run of quiet steps, whenever `check` passes the page has been generated from
a PCB with the recorded hash, and whenever a poll finds the modification time
unchanged the page has been generated from the PCB as it is. By induction on the run
(`inv_run`), whose steps are all quiet. -/
theorem page_current [DecidableEq C] (htext : Function.Injective tools.textSha256) {pcb : Pcb C}
    {output : Option T} {labels : List (Label C E T)}
    (hrun : (system tools pcb output : System (State C T H) _).run labels = some s)
    (hquiet : ∀ before label t, before ++ [label] <+: labels →
      (system tools pcb output : System (State C T H) _).run before = some t → Quiet t label) :
    (∀ m page, CheckPasses tools s m page →
      ∃ content, tools.sha256 content = m.sourceSha256 ∧ Generated tools content page) ∧
    (PollUnchanged s → PageCurrent tools s) := by
  have hinv : Inv tools s := inv_run (System.run_restrict_eq_some.mpr ⟨hrun, hquiet⟩)
  constructor
  · rintro m page ⟨source, hchecker, -, hmatches⟩
    obtain ⟨content, page', hsource, houtput, hgenerated⟩ := hinv.checkerHashed m source hchecker
    obtain rfl := htext (hmatches.outputSha256.symm.trans houtput)
    exact ⟨content, hsource.symm, hgenerated⟩
  · rintro ⟨hsleeping, -⟩
    have hstage := hinv.stage
    rw [hsleeping] at hstage
    exact hstage rfl

/-! ## Two boards

A run in which nothing is lost, and two in which a save is: one while the generator
works, one before the loop has looked at the board for the first time.
-/

/-- A generator that copies the PCB, and hashes that keep everything. -/
def copyTools : Tools String Unit String String := ⟨fun _ content => "page of " ++ content, id, id⟩

/-- One call of `generate`, undisturbed. -/
def generateLabels : List (Label String Unit String) :=
  [.generatorReads, .generatorWrites (), .hashPcb, .hashOutput, .writeManifest]

/-- A save between two polls, and `check` after the second. -/
def servedLabels : List (Label String Unit String) :=
  .runServe :: generateLabels ++ [.returns, .firstStat, .save "B" 2, .poll] ++ generateLabels
    ++ [.returns, .checkReadsManifest, .checkHashesPcb]

/-- The state after these steps. -/
def servedState : State String String String where
  pcb := ⟨"B", 2⟩
  output := some "page of B"
  manifest := some (metadata "B" "page of B")
  stage := .sleeping 2
  version := some "page of B"
  lastError := ""
  checker := .pcbHashed (metadata "B" "page of B") "B"

theorem served_current :
    ((system copyTools ⟨"A", 1⟩ none).run servedLabels = some servedState ∧
      CheckPasses copyTools servedState (metadata "B" "page of B") "page of B" ∧
      PollUnchanged servedState) ∧
    (∃ content, copyTools.sha256 content = "B" ∧ Generated copyTools content "page of B") ∧
    PageCurrent copyTools servedState := by
  have hquiet : ((system copyTools ⟨"A", 1⟩ none).restrict Quiet).run servedLabels
      = some servedState := rfl
  obtain ⟨hrun, hlabels⟩ := System.run_restrict_eq_some.mp hquiet
  have hcheck : CheckPasses copyTools servedState (metadata "B" "page of B") "page of B" :=
    ⟨"B", rfl, rfl, rfl, rfl, rfl, rfl, rfl, rfl, rfl⟩
  have hpoll : PollUnchanged servedState := ⟨rfl, rfl⟩
  have hcurrent := page_current Function.injective_id hrun hlabels
  exact ⟨⟨hrun, hcheck, hpoll⟩, hcurrent.1 _ _ hcheck, hcurrent.2 hpoll⟩

/-- A save while the generator works on the page. -/
def overtakenLabels : List (Label String Unit String) :=
  [.runCommand, .generatorReads, .save "B" 2, .generatorWrites (), .hashPcb, .hashOutput,
    .writeManifest, .returns, .checkReadsManifest, .checkHashesPcb]

/-- A save before `watch` has read the modification time for the first time. -/
def unseenLabels : List (Label String Unit String) :=
  .runServe :: generateLabels ++ [.returns, .save "B" 2, .firstStat]

/-- The manifest has the hash of the PCB that was saved, and the page is that of the old one. -/
def overtakenState : State String String String where
  pcb := ⟨"B", 2⟩
  output := some "page of A"
  manifest := some (metadata "B" "page of A")
  stage := .idle
  version := none
  lastError := ""
  checker := .pcbHashed (metadata "B" "page of A") "B"

/-- `watch` starts from the modification time of the PCB that was saved. -/
def unseenState : State String String String where
  pcb := ⟨"B", 2⟩
  output := some "page of A"
  manifest := some (metadata "A" "page of A")
  stage := .sleeping 2
  version := some "page of A"
  lastError := ""
  checker := .idle

/-- `check` passes on a page of the old PCB, and a poll takes such a page for current. -/
theorem save_lost :
    ((system copyTools ⟨"A", 1⟩ none).run overtakenLabels = some overtakenState ∧
      CheckPasses copyTools overtakenState (metadata "B" "page of A") "page of A" ∧
      ¬ ∃ content, copyTools.sha256 content = "B" ∧ Generated copyTools content "page of A") ∧
    (system copyTools ⟨"A", 1⟩ none).run unseenLabels = some unseenState ∧
      PollUnchanged unseenState ∧ ¬ PageCurrent copyTools unseenState := by
  have hpages : "page of B" ≠ "page of A" := by decide
  refine ⟨⟨rfl, ⟨"B", rfl, rfl, rfl, rfl, rfl, rfl, rfl, rfl, rfl⟩, ?_⟩, rfl, ⟨rfl, rfl⟩, ?_⟩
  · rintro ⟨content, rfl, environment, hpage⟩
    exact hpages hpage
  · rintro ⟨page, hpage, environment, hgenerated⟩
    obtain rfl := Option.some.inj hpage
    exact hpages hgenerated

end SpokeSensor.InteractiveBom
