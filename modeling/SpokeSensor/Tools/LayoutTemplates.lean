import SpokeSensor.Lib.FileStore
import SpokeSensor.Tools.GenerateConnectivity
import SpokeSensor.Tools.LayoutIntegrity

/-!
# Capturing and restoring the layout (`hardware/ir_spoke_link/capture_layout.py`)

`capture_layout.py` checks the board and the schematic, copies them and the preferences to
templates, and writes a manifest with the digests of the copies. `generate_pcb.py` and
`generate_schematic.py` compare the templates with the manifest and put them back, each through
a temporary file that replaces the old one.

- `capture` (`capture_layout.py:75–175`): the locks, the two signatures of the routing, KiCad's
  reports, `validate_kicad_netlist.py`, and then `copyTemplates` (135–174).
- `restorePcb` (`generate_pcb.py:62–91`), `restoreSchematic` (`generate_schematic.py:22–36`): the
  comparison with the manifest, `install` by way of a temporary, and the comparison again.
- `system`: the scripts run one at a time, in any order. Any operation may fail, and a write that
  fails may leave a part of what it was to write. Between any two operations someone else may
  save or delete any file of the directory (`Edit`); the results say what they need of that.
- `Authentic`, `Checked`, `Recorded`: what the manifest promises of a file, what a capture asks of
  a board and a schematic, and that the manifest is that of a capture.

What is read or written of one file is read or written at once; that it fails stands for every
way in which a script may end before its time. The entries of the manifest that are the same in
every capture are left to `dumps`, and what `copy2` adds to a copy is not modelled.
-/

namespace SpokeSensor.LayoutTemplates

open Interaction Transition RelyGuarantee FileStore LocalServer Occurrence

/-! ## The files

The files of the directory that the scripts read or write, by name; anything else is
out of their reach.
-/

/-- The editors' lock files, by what is being edited. -/
inductive Lock where
  | schematic
  | board
  | schematicTemplate
  | boardTemplate
  deriving DecidableEq, Repr

/-- The files of the project directory; a temporary is named after the file it replaces. -/
inductive Path where
  | schematic
  | board
  | preferences
  | schematicTemplate
  | boardTemplate
  | preferencesTemplate
  | manifest
  | schematicTemporary
  | boardTemporary
  | preferencesTemporary
  | lock (edited : Lock)
  deriving DecidableEq, Repr

def Lock.name : Lock → String
  | schematic => "~ir_spoke_link.kicad_sch.lck"
  | board => "~ir_spoke_link.kicad_pcb.lck"
  | schematicTemplate => "~ir_spoke_link.layout.kicad_sch.lck"
  | boardTemplate => "~ir_spoke_link.layout.kicad_pcb.lck"

def Path.name : Path → String
  | schematic => "ir_spoke_link.kicad_sch"
  | board => "ir_spoke_link.kicad_pcb"
  | preferences => "ir_spoke_link.kicad_prl"
  | schematicTemplate => "ir_spoke_link.layout.kicad_sch"
  | boardTemplate => "ir_spoke_link.layout.kicad_pcb"
  | preferencesTemplate => "ir_spoke_link.layout.kicad_prl"
  | manifest => "layout_manifest.json"
  | schematicTemporary => "ir_spoke_link.kicad_sch.tmp"
  | boardTemporary => "ir_spoke_link.kicad_pcb.tmp"
  | preferencesTemporary => "ir_spoke_link.kicad_prl.tmp"
  | lock edited => edited.name

/-- `required_drc` -/
structure RequiredDrc where
  violations : ℕ
  unconnectedPads : ℕ
  fabricationReady : Bool
  deriving DecidableEq, Repr

/-- `manifest`, without its entries that are the same in every capture. -/
structure Manifest (D : Type) where
  capturedUtc : String
  schematicSha256 : D
  pcbSha256 : D
  routingSha256 : D
  routeTextSha256 : D
  preferencesSha256 : D
  requiredDrc : RequiredDrc

/-- The digests, by their keys. -/
def Manifest.digests {D : Type} (m : Manifest D) : String → Option D
  | "schematic_sha256" => some m.schematicSha256
  | "pcb_sha256" => some m.pcbSha256
  | "routing_sha256" => some m.routingSha256
  | "route_text_sha256" => some m.routeTextSha256
  | "preferences_sha256" => some m.preferencesSha256
  | _ => none

/-- SHA-256, what `pcbnew` makes of the routing, KiCad's reports, the decimal digits, and JSON
with the text around it. `E` is whatever else the tools depend on. -/
structure Tools (E D : Type) where
  sha256 : ByteArray → D
  routingSignature : ByteArray → Option D
  drcReport : E → ByteArray → Option ByteArray
  ercReport : E → ByteArray → Option ByteArray
  connectivity : E → ByteArray
  kicad : GenerateConnectivity.Tools ByteArray ByteArray
  decimal : Char → Option ℕ
  dumps : Manifest D → ByteArray
  loads : ByteArray → Except PyError (String → Option D)

/-! ## Errors and texts

What the scripts raise and what they search the reports for.
-/

def systemExit (message : String) : PyError := .other "SystemExit" message

def notFound (path : Path) : PyError := .other "FileNotFoundError" path.name

/-- A tool has ended with an exit status other than zero. -/
def calledProcessError : PyError := .other "CalledProcessError" ""

/-- The line ends of `read_text` -/
def universalNewlines : List Char → List Char
  | '\r' :: '\n' :: text => '\n' :: universalNewlines text
  | '\r' :: text => '\n' :: universalNewlines text
  | c :: text => c :: universalNewlines text
  | [] => []

/-- `read_text(encoding="utf-8")` -/
def readText (content : ByteArray) : Except PyError (List Char) :=
  match String.fromUTF8? content with
  | none => .error (.other "UnicodeDecodeError" "")
  | some text => .ok (universalNewlines text.toList)

variable {E D : Type} (tools : Tools E D)

/-- `re.match(r"\*\* Found (\d+)" + after, text)`, the number of which `int` is taken. -/
def matchCount (after text : List Char) : Option ℕ :=
  let opening := "** Found ".toList
  let digits := (text.drop opening.length).takeWhile fun c => (tools.decimal c).isSome
  let rest := text.drop (opening.length + digits.length)
  if opening.isPrefixOf text ∧ digits ≠ [] ∧ after.isPrefixOf rest then
    some (digits.foldl (fun n c => 10 * n + (tools.decimal c).getD 0) 0)
  else none

/-- `re.search` for the same -/
def searchCount (after : List Char) : List Char → Option ℕ
  | [] => none
  | c :: text => (matchCount tools after (c :: text)).orElse fun _ => searchCount after text

/-- `hard_fail_types` -/
def hardFailTypes : List String :=
  ["[shorting_items]", "[clearance]", "[hole_clearance]", "[copper_edge_clearance]",
    "[courtyards_overlap]"]

/-- What `main` makes of `drc_text`: `violation_count` and `unconnected_count`. -/
def checkDrc (drcText : List Char) : Except PyError (ℕ × ℕ) :=
  match searchCount tools " DRC violations **".toList drcText,
    searchCount tools " unconnected pads **".toList drcText with
  | some violationCount, some unconnectedCount => do
    raiseIf (hardFailTypes.any fun kind => occursIn kind.toList drcText)
      (systemExit "PCB capture refused: electrical/mechanical DRC errors remain")
    raiseIf (violationCount ≠ 0 ∨ unconnectedCount ≠ 0)
      (systemExit "PCB capture refused: DRC or unrouted items remain")
    return (violationCount, unconnectedCount)
  | _, _ => .error (systemExit "PCB capture refused: unrecognized DRC report")

/-- What `main` makes of `erc_text`. -/
def checkErc (ercText : List Char) : Except PyError Unit :=
  raiseIf (occursIn "Errors 0".toList ercText = false)
    (systemExit "Schematic capture refused: ERC errors remain")

/-- `route_text_signature` in a process of its own -/
def routeText (content : ByteArray) : Option D :=
  match readText content with
  | .error _ => none
  | .ok text =>
    match LayoutIntegrity.routeTextSignature tools.sha256 (text.length + 1) text with
    | some (.ok d) => some d
    | _ => none

/-! ## The scripts

Programs over requests to the host (`FileStore`): each request reads, writes, renames
or runs something, and may fail.
-/

/-- The tools that read files of the project and change none of them. -/
inductive Tool where
  | drc
  | erc
  | validateNetlist
  deriving DecidableEq, Repr

/-- A tool that is given a file that is not there, or that fails. -/
def required (output : Option ByteArray) : Except PyError (Option ByteArray) :=
  match output with
  | none => .error calledProcessError
  | some report => .ok (some report)

/-- What the tools make of the files. -/
def runTool (tool : Tool) (environment : E) (files : Files Path) :
    Except PyError (Option ByteArray) :=
  match tool with
  | .drc => required ((files .board).bind (tools.drcReport environment))
  | .erc => required ((files .schematic).bind (tools.ercReport environment))
  | .validateNetlist =>
    match files .schematic with
    | none => .error calledProcessError
    | some schematic =>
      match GenerateConnectivity.validateKicadNetlist tools.kicad schematic
        (tools.connectivity environment) with
      | .error _ => .error calledProcessError
      | .ok _ => .ok none

/-- The directory and the tools. -/
def host : Host Path Tool E PyError where
  notFound := notFound
  tool := runTool tools

abbrev Script (A : Type) : Type := FileStore.Script Path Tool PyError A

/-- What `f` makes of the content of a file, where `error` is raised if it makes nothing. -/
def digestOf (f : ByteArray → Option D) (error : PyError) (path : Path) : Script D := do
  match (← look path).bind f with
  | none => throw error
  | some d => return d

/-- `sha256` -/
def sha256 (path : Path) : Script D :=
  digestOf (fun content => some (tools.sha256 content)) (notFound path) path

/-- `routing_signature` -/
def routingSignature (path : Path) : Script D :=
  digestOf tools.routingSignature calledProcessError path

/-- `route_text_signature` -/
def routeTextSignature (path : Path) : Script D :=
  digestOf (routeText tools) calledProcessError path

/-- The text of a report that a tool writes to the temporary directory. -/
def report (tool : Tool) (path : String) : Script (List Char) := do
  match ← run tool with
  | none => throw (.other "FileNotFoundError" path)
  | some content => orRaise (readText content)

/-- `locks`, from these on -/
def locked : List Lock → Script (List Lock)
  | [] => return []
  | edited :: rest => do
    let found ← isFile (.lock edited)
    let others ← locked rest
    return if found then edited :: others else others

/-- `shutil.copyfile` or `shutil.copy2` -/
def copy (source target : Path) : Script (Option ByteArray) := copyFile notFound source target

/-- `capture_layout.py`, from the copies on -/
def copyTemplates (capturedUtc : String) (route routeText : D) (counts : ℕ × ℕ) :
    Script Unit := do
  let _ ← copy .schematic .schematicTemplate
  let _ ← copy .board .boardTemplate
  let _ ← copy .preferences .preferencesTemplate
  let schematicSha256 ← sha256 tools .schematicTemplate
  let pcbSha256 ← sha256 tools .boardTemplate
  let preferencesSha256 ← sha256 tools .preferencesTemplate
  let _ ← write .manifest (tools.dumps
    { capturedUtc := capturedUtc
      schematicSha256 := schematicSha256
      pcbSha256 := pcbSha256
      routingSha256 := route
      routeTextSha256 := routeText
      preferencesSha256 := preferencesSha256
      requiredDrc :=
        { violations := counts.1
          unconnectedPads := counts.2
          fabricationReady := decide (counts.1 = 0 ∧ counts.2 = 0) } })

/-- `main` of `capture_layout.py`, where the clock shows `capturedUtc`. -/
def capture (capturedUtc : String) : Script Unit := do
  let locks ← locked [.schematic, .board, .schematicTemplate, .boardTemplate]
  orRaise (raiseIf (locks ≠ []) (systemExit ("Close KiCad editors before capturing layout: "
    ++ ", ".intercalate (locks.map Lock.name))))
  let route ← routingSignature tools .board
  let routeText ← routeTextSignature tools .board
  let drcText ← report .drc "drc.rpt"
  let counts ← orRaise (checkDrc tools drcText)
  let ercText ← report .erc "erc.rpt"
  orRaise (checkErc ercText)
  let _ ← run .validateNetlist
  copyTemplates tools capturedUtc route routeText counts

/-- `all(path.is_file() for path in paths)` -/
def allFiles : List Path → Script Bool
  | [] => return true
  | path :: rest => do
    if ← isFile path then allFiles rest else return false

/-- `manifest[key]` -/
def getEntry (manifest : String → Option D) (key : String) : Except PyError D :=
  match manifest key with
  | none => .error (.other "KeyError" key)
  | some d => .ok d

/-- `if actual != manifest[key]: raise SystemExit(message)` -/
def require [DecidableEq D] (actual : Script D) (manifest : String → Option D)
    (key message : String) : Script Unit := do
  let d ← actual
  let expected ← orRaise (getEntry manifest key)
  orRaise (raiseIf (d ≠ expected) (systemExit message))

/-- `json.loads(MANIFEST.read_text(encoding="utf-8"))` -/
def loadManifest : Script (String → Option D) := do
  let content ← readBytes notFound .manifest
  orRaise (tools.loads content)

/-- A copy under a temporary name, which then replaces the file. -/
def install (source temporary target : Path) : Script (Option ByteArray) := do
  let _ ← copy source temporary
  replace temporary target

/-- The checks of `generate_pcb.py` after the board and the preferences have been replaced. -/
def checkBoard [DecidableEq D] (manifest : String → Option D) : Script Unit := do
  require (sha256 tools .board) manifest "pcb_sha256"
    "Generated PCB is not byte-identical to routed template"
  require (routingSignature tools .board) manifest "routing_sha256"
    "Generated PCB routing does not match manifest"
  require (routeTextSignature tools .board) manifest "route_text_sha256"
    "Generated raw segment/via/arc text does not match manifest"

/-- `generate_pcb.py` -/
def restorePcb [DecidableEq D] : Script Unit := do
  let present ← allFiles [.boardTemplate, .preferencesTemplate, .manifest]
  orRaise (raiseIf (present = false) (systemExit ("Captured PCB layout is missing. "
    ++ "Run capture_layout.py after saving and closing KiCad.")))
  let manifest ← loadManifest tools
  require (sha256 tools .boardTemplate) manifest "pcb_sha256"
    "Captured PCB template hash does not match manifest"
  require (sha256 tools .preferencesTemplate) manifest "preferences_sha256"
    "Captured PCB preferences hash does not match manifest"
  require (routingSignature tools .boardTemplate) manifest "routing_sha256"
    "Captured PCB routing does not match manifest"
  require (routeTextSignature tools .boardTemplate) manifest "route_text_sha256"
    "Captured raw segment/via/arc text does not match manifest"
  let _ ← install .boardTemplate .boardTemporary .board
  let _ ← install .preferencesTemplate .preferencesTemporary .preferences
  checkBoard tools manifest

/-- `generate_schematic.py` -/
def restoreSchematic [DecidableEq D] : Script Unit := do
  let present ← allFiles [.schematicTemplate, .manifest]
  orRaise (raiseIf (present = false) (systemExit ("Captured schematic layout is missing. "
    ++ "Run capture_layout.py after saving and closing KiCad.")))
  let manifest ← loadManifest tools
  require (sha256 tools .schematicTemplate) manifest "schematic_sha256"
    "Captured schematic template hash does not match manifest"
  let _ ← install .schematicTemplate .schematicTemporary .schematic
  require (sha256 tools .schematic) manifest "schematic_sha256"
    "Generated schematic is not byte-identical to template"

/-! ## Runs

The scripts run one at a time. Between two operations someone else may save or delete
a file.
-/

inductive Command where
  | capture (capturedUtc : String)
  | restorePcb
  | restoreSchematic
  deriving DecidableEq, Repr

namespace Command

def script [DecidableEq D] : Command → Script Unit
  | capture capturedUtc => LayoutTemplates.capture tools capturedUtc
  | restorePcb => LayoutTemplates.restorePcb tools
  | restoreSchematic => LayoutTemplates.restoreSchematic tools

end Command

/-- The files that are edited and captured. -/
def Path.working : List Path := [.schematic, .board, .preferences]

namespace Command

/-- The files that are put back. -/
def installs : Command → List Path
  | capture _ => []
  | restorePcb => [.board, .preferences]
  | restoreSchematic => [.schematic]

/-- The files that are those of the manifest when the script has succeeded. -/
def secures : Command → List Path
  | capture _ => Path.working
  | c => c.installs

end Command

/-- What a capture leaves, and a restore reads. -/
def Path.stored : List Path :=
  [.schematicTemplate, .boardTemplate, .preferencesTemplate, .manifest]

def Path.isLock : Path → Bool
  | lock _ => true
  | _ => false

/-- The captured copy of a file. -/
def Path.template : Path → Path
  | schematic => schematicTemplate
  | board => boardTemplate
  | preferences => preferencesTemplate
  | path => path

/-- Someone else saves or deletes a file: an editor the board, its preferences or the schematic,
or one of the templates, for which `capture_layout.py` looks for locks as well
(`capture_layout.py:79–82`); a user the manifest or what a script that was cut short has left; an
editor puts or takes a lock. -/
structure Edit where
  path : Path
  content : Option ByteArray

def Edit.apply (files : Files Path) (edit : Edit) : Files Path :=
  Function.update files edit.path edit.content

def world : World (Files Path) (Request Path Tool) (Except PyError (Option ByteArray))
    (Outcome E PyError) Edit where
  answer := (host tools).answer
  act files edit := some (edit.apply files)

/-- The files, the script that is being run, and what the scripts have ended with. -/
abbrev State : Type := Interaction.Session (Files Path) (Request Path Tool)
  (Except PyError (Option ByteArray)) (Except PyError Unit) Command

abbrev Step (E : Type) : Type := Label Command (Outcome E PyError) Edit

/-- Scripts, one after the other, and editors. -/
def system [DecidableEq D] (start : Files Path) := Interaction.system (world tools)
  (fun c : Command => (c.script tools).run) start

/-- The name under which a copy is made before it replaces a file. -/
def Path.temporary : Path → Path
  | schematic => schematicTemporary
  | board => boardTemporary
  | preferences => preferencesTemporary
  | path => path

/-- The digests that the manifest has of a file. -/
def checks : Path → List (String × (ByteArray → Option D))
  | .schematic => [("schematic_sha256", fun content => some (tools.sha256 content))]
  | .board =>
    [("pcb_sha256", fun content => some (tools.sha256 content)),
      ("routing_sha256", tools.routingSignature), ("route_text_sha256", routeText tools)]
  | .preferences => [("preferences_sha256", fun content => some (tools.sha256 content))]
  | _ => []

/-- The manifest has this digest of a content. -/
def Meets (manifest : String → Option D) (content : ByteArray)
    (check : String × (ByteArray → Option D)) : Prop :=
  ∃ d, check.2 content = some d ∧ manifest check.1 = some d

/-- The template of a file holds this content, of which the manifest has the digests. -/
structure Stored (files : Files Path) (path : Path) (content : ByteArray) : Prop where
  template : files path.template = some content
  manifest : ∃ text manifest, files .manifest = some text ∧ tools.loads text = .ok manifest ∧
    ∀ check ∈ checks tools path, Meets manifest content check

/-- A file is a whole copy of its template and has the digests of the manifest. -/
def Authentic (files : Files Path) (path : Path) : Prop :=
  ∃ content, files path = some content ∧ Stored tools files path content

/-- What `capture_layout.py` asks of a board and a schematic, and of KiCad. -/
structure Checked (board schematic : ByteArray) : Prop where
  drc : ∃ environment content text, tools.drcReport environment board = some content ∧
    readText content = .ok text ∧ checkDrc tools text = .ok (0, 0)
  erc : ∃ environment content text, tools.ercReport environment schematic = some content ∧
    readText content = .ok text ∧ checkErc text = .ok ()
  netlist : ∃ environment endpoints, GenerateConnectivity.validateKicadNetlist tools.kicad schematic
    (tools.connectivity environment) = .ok endpoints

/-- A manifest of files that have passed the checks together. -/
structure Records (m : Manifest D) (schematic board preferences : ByteArray) : Prop where
  checked : Checked tools board schematic
  schematicSha256 : m.schematicSha256 = tools.sha256 schematic
  pcbSha256 : m.pcbSha256 = tools.sha256 board
  routingSha256 : tools.routingSignature board = some m.routingSha256
  routeTextSha256 : routeText tools board = some m.routeTextSha256
  preferencesSha256 : m.preferencesSha256 = tools.sha256 preferences
  requiredDrc : m.requiredDrc = ⟨0, 0, true⟩

/-- What can be read of the manifest has been written by a capture that passed its checks. -/
def Recorded (contents : Set ByteArray) (files : Files Path) : Prop :=
  ∀ text manifest, files .manifest = some text → tools.loads text = .ok manifest →
    ∃ m schematic board preferences, Records tools m schematic board preferences ∧
      schematic ∈ contents ∧ board ∈ contents ∧ manifest = m.digests

/-- What is read of a manifest is what has been written; the beginning of one is the whole but
for its last line end, or is not read. -/
structure Codec : Prop where
  whole : ∀ m, tools.loads (tools.dumps m) = .ok m.digests
  torn : ∀ m n manifest, tools.loads ((tools.dumps m).extract 0 n) = .ok manifest →
    manifest = m.digests

end SpokeSensor.LayoutTemplates
