import SpokeSensor.Lib.Occurrence
import SpokeSensor.Tools.Connectivity
import SpokeSensor.Tools.GenerateConstants

/-!
# The generated SPICE connectivity (`tools/generate_connectivity.py:71–152`)

`generate` checks the schematic against the manifest through KiCad's netlist (72),
checks the manifest (73–74), and writes the SPICE elements with the nets of the
manifest, after two comments that hold the digests of the manifest and of the netlist
(86–87).

- `Tools`: what comes from JSON, from SHA-256 and from KiCad.
- `validateKicadNetlist`, `canonicalManifest`: the two digests, with what may be
  raised on the way.
- `Piece`, `driverLines`, `receiverLines`: the text (84–150), as parts that are fixed
  and parts that are nets.
- `PlainNets`: no net of the manifest has `=` in its name.
- `manifestStamp_iff`, `endpointStamp_iff`: the simulations look for the two comments
  anywhere in the text (`connectivity_guard.py:35, 46`). With plain nets they find the
  two digests and no other.

Texts are lists of characters. The `{..}` in them are parameters of SPICE.
-/

namespace SpokeSensor.GenerateConnectivity

open KicadNetlist Connectivity LocalServer Occurrence

/-- What the tools get from JSON, from SHA-256 and from KiCad. The digest of a manifest is of all
that its file holds, with sorted keys. -/
structure Tools (C S : Type) where
  loads : C → Except PyError ConnectivityManifest
  manifestDigest : C → List Char
  endpointsDigest : List (Endpoint × String) → List Char
  exportNetlist : S → Except PyError (List NetElement)

variable {C S : Type} (tools : Tools C S)

/-- The exception, by its name. -/
def ofFailure {α : Type} : Except Failure α → Except PyError α
  | .ok a => .ok a
  | .error (.valueError message) => .error (.valueError message)
  | .error (.systemExit message) => .error (.other "SystemExit" message)

/-! ## The two digests

Both digests stand at the head of the text (`generate_connectivity.py:84–88`): of the
manifest, and of the endpoints that KiCad has found in the schematic.
-/

/-- `export_netlist` and `load_actual`; what they pass on is the exported netlist. -/
def loadNetlist (schematic : S) : Except PyError (List NetElement) := do
  let nets ← tools.exportNetlist schematic
  let _ ← ofFailure (loadActual [] nets)
  return nets

/-- `validate` of `validate_kicad_netlist.py` from there on. -/
def endpointDigest (nets : List NetElement) (manifest : C) : Except PyError (List Char) := do
  let m ← tools.loads manifest
  let items ← ofFailure (validate m.boards nets)
  return tools.endpointsDigest items

/-- `validate_kicad_netlist` -/
def validateKicadNetlist (schematic : S) (manifest : C) : Except PyError (List Char) := do
  let nets ← loadNetlist tools schematic
  endpointDigest tools nets manifest

/-- `canonical_manifest` -/
def canonicalManifest (manifest : C) : Except PyError (ConnectivityManifest × List Char) := do
  let m ← tools.loads manifest
  return (m, tools.manifestDigest manifest)

/-! ## The text

The lines of the text (`generate_connectivity.py:89–149`), with the places for net
names as pieces. Every net is looked up in the manifest, and a missing one raises.
-/

/-- A part of a line: text, or the net of a pin of one of the boards. -/
inductive Piece where
  | text (s : String)
  | main (ref : String) (pin : ℕ)
  | remote (ref : String) (pin : ℕ)

/-- `n` (78–79): the net of a pin, where the component or the pin may be missing. -/
def n (board : Dict (Dict String)) (ref : String) (pin : ℕ) : Except PyError String := do
  let pins ← getItem board ref
  getItem pins (toString pin)

/-- The supply, the driver of the emitter and its loads. -/
def driverLines : List (List Piece) :=
  [[.text "* Supply and RMT-controlled low-side emitter driver."],
    [.text "V3V3 ", .main "J2" 5, .text " ", .main "J2" 6, .text " {VSUP}"],
    [.text "VTX ", .main "J1" 1, .text " ", .main "J2" 6,
      .text " PULSE(0 {VSUP} {SUPPLY_RISE} 2n 2n {DUTY/FCARRIER} {1/FCARRIER})"],
    [.text "BESP ", .main "J2" 5, .text " ", .main "J2" 6,
      .text " I=ternary_fcn(abs(time-{TRAN_STOP}/2)<{TRAN_STOP}*{WIFI_TX_DUTY}/2,",
      .text "{IESP_WIFI},{IESP_COMPUTE})"],
    [.text "BCAN ", .main "J2" 5, .text " ", .main "J2" 6,
      .text " I={CAN_ENABLE}*({ICAN_IDLE}+ternary_fcn(",
      .text "abs(time-{TRAN_STOP}/2)<{TRAN_STOP}*{CAN_BUS_DUTY}/2,",
      .text "{ICAN_DOMINANT_EXTRA},0))"],
    [.text "IAFE ", .main "U1" 8, .text " ", .main "U1" 4, .text " {IAFE_QUIESCENT}"],
    [.text "RBASE ", .main "R2" 1, .text " ", .main "R2" 2, .text " 1k"],
    [.text "QTX ", .main "Q1" 2, .text " ", .main "Q1" 1, .text " ", .main "Q1" 3,
      .text " S8050"]]

/-- The emitter, the receiver, the comparator and the bypassing. -/
def receiverLines : List (List Piece) :=
  [[.text "RLED ", .remote "R1" 1, .text " ", .remote "R1" 2, .text " 39"],
    [.text "DLED ", .remote "D1" 2, .text " ", .remote "D1" 1, .text " IRLED"],
    [],
    [.text "* Reference, PIN photodiode and two TLV9062 channels."],
    [.text "RVR_TOP ", .main "R3" 1, .text " ", .main "R3" 2, .text " 10k"],
    [.text "RVR_BOT ", .main "R4" 1, .text " ", .main "R4" 2, .text " 10k"],
    [.text "CVREF ", .main "C1" 1, .text " ", .main "C1" 2, .text " 1u"],
    [.text "BPHOTO ", .main "D2" 1, .text " ", .main "D2" 3,
      .text " I={IPHOTO_AMBIENT}+{IPHOTO_SIGNAL}*V(CARRIER)*V(SPOKE)"],
    [.text "IDARK ", .main "D2" 1, .text " ", .main "D2" 3, .text " DC 1n"],
    [.text "CPD ", .main "D2" 3, .text " ", .main "D2" 1, .text " 3.3p"],
    [.text "XU1A ", .main "U1" 1, .text " ", .main "U1" 3, .text " ", .main "U1" 2, .text " ",
      .main "U1" 8, .text " ", .main "U1" 4, .text " TLV9062_TYP"],
    [.text "RF_TIA ", .main "R5" 1, .text " ", .main "R5" 2, .text " {RF_TIA}"],
    [.text "CF_TIA ", .main "C2" 1, .text " ", .main "C2" 2, .text " {CF_TIA}"],
    [.text "CAC ", .main "C3" 1, .text " ", .main "C3" 2, .text " {C_AC}"],
    [.text "RAC ", .main "R6" 1, .text " ", .main "R6" 2, .text " {R_AC}"],
    [.text "XU1B ", .main "U1" 7, .text " ", .main "U1" 5, .text " ", .main "U1" 6, .text " ",
      .main "U1" 8, .text " ", .main "U1" 4, .text " TLV9062_TYP"],
    [.text "RG ", .main "R7" 1, .text " ", .main "R7" 2, .text " {RG_GAIN}"],
    [.text "RF ", .main "R8" 1, .text " ", .main "R8" 2, .text " {RF_GAIN}"],
    [.text "CF ", .main "C4" 1, .text " ", .main "C4" 2, .text " {CF_GAIN}"],
    [],
    [.text "* Comparator, hysteresis, GPIO isolation and local bypassing."],
    [.text "RCOMP_IN ", .main "R9" 1, .text " ", .main "R9" 2, .text " {R_COMP_IN}"],
    [.text "RHYST ", .main "R10" 1, .text " ", .main "R10" 2, .text " {R_HYST}"],
    [.text "BCOMP COMP_IDEAL ", .main "U2" 2, .text " V={VSUP}/2*(1+tanh(350*(V(",
      .main "U2" 3, .text ")-V(", .main "U2" 4, .text "))))"],
    [.text "RDELAY COMP_IDEAL ", .main "U2" 1, .text " 1k"],
    [.text "CDELAY ", .main "U2" 1, .text " ", .main "U2" 2, .text " {TPD_COMP/1000}"],
    [.text "RGPIO ", .main "R11" 1, .text " ", .main "R11" 2, .text " 100"],
    [.text "CDEC_U1 ", .main "C5" 1, .text " ", .main "C5" 2, .text " 100n"],
    [.text "CDEC_U2 ", .main "C6" 1, .text " ", .main "C6" 2, .text " 100n"],
    []]

/-- The text of a part. -/
def Piece.render (main remote : Dict (Dict String)) : Piece → Except PyError (List Char)
  | .text s => .ok s.toList
  | .main ref pin => String.toList <$> n main ref pin
  | .remote ref pin => String.toList <$> n remote ref pin

/-- The text of a line. -/
def renderLine (main remote : Dict (Dict String)) (line : List Piece) :
    Except PyError (List Char) :=
  List.flatten <$> line.mapM (Piece.render main remote)

/-- `links[name]`, where the last link of a name counts. -/
def findLink (m : ConnectivityManifest) (name : String) : Except PyError HarnessLink :=
  match m.harnessLinks.reverse.find? (·.name = name) with
  | some link => .ok link
  | none => .error (.other "KeyError" (KicadNetlist.repr (some name)))

/-- The net at one end of a link. -/
def endNet (m : ConnectivityManifest) (item : LinkEnd) : Except PyError String := do
  let components ← getItem m.boards item.board
  let pins ← getItem components item.ref
  getItem pins item.pin.str

/-- The resistor of a link. -/
def harnessLine (m : ConnectivityManifest) (name : String) : Except PyError (List Char) := do
  let link ← findLink m name
  let a ← endNet m link.start
  let b ← endNet m link.stop
  let ohm ← GenerateConstants.f link.seriesOhm
  return [['R'], name.toList, [' '], a.toList, [' '], b.toList, [' '], ohm].flatten

def generatedBy : List Char :=
  "* AUTO-GENERATED by tools/generate_connectivity.py. Do not edit.".toList

/-- What the guard looks for, before the digest of the manifest. -/
def manifestHeader : List Char := "CONNECTIVITY_SHA256=".toList

/-- What the guard looks for, before the digest of the netlist. -/
def endpointHeader : List Char := "KICAD_ENDPOINT_SHA256=".toList

/-- `text` -/
def spiceText (m : ConnectivityManifest) (digest endpoints : List Char) :
    Except PyError (List Char) := do
  let main ← getItem m.boards "main"
  let remote ← getItem m.boards "remote"
  let driver ← driverLines.mapM (renderLine main remote)
  let harness ← ["HARNESS_K", "HARNESS_3V3"].mapM (harnessLine m)
  let receiver ← receiverLines.mapM (renderLine main remote)
  return ['\n'].intercalate (generatedBy :: ("* ".toList ++ (manifestHeader ++ digest))
    :: ("* ".toList ++ (endpointHeader ++ endpoints)) :: (driver ++ harness ++ receiver))

/-- `generate`: the digest and the text that is written. The manifest is read once for the
netlist and once more for the text. -/
def generate (schematic : S) (first second : C) : Except PyError (List Char × List Char) := do
  let endpoints ← validateKicadNetlist tools schematic first
  let (m, digest) ← canonicalManifest tools second
  validateManifest m
  let text ← spiceText m digest endpoints
  return (digest, text)

/-! ## What the guard finds in the text

The guard looks for a digest with its heading anywhere in the text
(`connectivity_guard.py:35, 46`). It is found at the head; that it is found nowhere
else needs that no net name and no number can look like a heading, which is what
`Clear` says piece by piece.
-/

/-- No net of the manifest has `=` in its name. -/
def PlainNets (m : ConnectivityManifest) : Prop :=
  ∀ board ∈ m.boards.items, ∀ component ∈ board.2.items, ∀ pin ∈ component.2.items,
    '=' ∉ pin.2.toList

/-- A part of a line in which, and before which, no `=` follows a `6`. -/
structure Clear (piece : List Char) : Prop where
  pair : ¬ ['6', '='] <:+: piece
  head : piece.head? ≠ some '='

/-- A piece without `=` is clear. -/
theorem clear_of_notMem {piece : List Char} (h : '=' ∉ piece) : Clear piece where
  pair := not_pair_of_notMem h
  head := by
    intro hhead
    exact h (List.mem_of_mem_head? hhead)

/-- Clear pieces together are clear. -/
theorem clear_flatten {pieces : List (List Char)} (h : ∀ piece ∈ pieces, Clear piece) :
    Clear pieces.flatten :=
  have hflatten := not_pair_flatten (fun p hp => (h p hp).pair) fun p hp => (h p hp).head
  ⟨hflatten.1, hflatten.2⟩

theorem mem_of_getItem {α : Type} {d : Dict α} {key : String} {value : α}
    (h : getItem d key = .ok value) : (key, value) ∈ d.items := by
  rw [getItem] at h
  cases hlookup : d.items.lookup key with
  | none =>
    rw [hlookup] at h
    cases h
  | some found =>
    rw [hlookup] at h
    cases h
    obtain ⟨before, after, heq, -⟩ := List.lookup_eq_some_iff.mp hlookup
    rw [heq]
    exact List.mem_append_right _ (List.mem_cons_self ..)

/-- What a loop that raises nothing has made of each element. -/
theorem forall_of_mapM {α β : Type} {f : α → Except PyError β} {P : β → Prop} {l : List α}
    {r : List β} (hf : ∀ a ∈ l, ∀ b, f a = .ok b → P b) (h : l.mapM f = .ok r) : ∀ b ∈ r, P b := by
  induction l generalizing r with
  | nil =>
    rw [List.mapM_nil] at h
    cases h
    exact fun b hb => absurd hb List.not_mem_nil
  | cons a l ih =>
    rw [List.mapM_cons] at h
    obtain ⟨b, hb, h⟩ := bind_eq_ok.mp h
    obtain ⟨rest, hrest, h⟩ := bind_eq_ok.mp h
    cases h
    intro c hc
    rcases List.mem_cons.mp hc with rfl | hc
    · exact hf a (List.mem_cons_self ..) c hb
    · exact ih (fun a ha => hf a (List.mem_cons_of_mem _ ha)) hrest c hc

/-- No net of the board has `=` in its name. -/
def PlainBoard (board : Dict (Dict String)) : Prop :=
  ∀ component ∈ board.items, ∀ pin ∈ component.2.items, '=' ∉ pin.2.toList

theorem PlainNets.board {m : ConnectivityManifest} (h : PlainNets m) {name : String}
    {board : Dict (Dict String)} (hboard : getItem m.boards name = .ok board) : PlainBoard board :=
  h (name, board) (mem_of_getItem hboard)

theorem PlainBoard.net {board : Dict (Dict String)} (h : PlainBoard board) {ref pin net : String}
    {pins : Dict String} (hpins : getItem board ref = .ok pins)
    (hnet : getItem pins pin = .ok net) : '=' ∉ net.toList :=
  h (ref, pins) (mem_of_getItem hpins) (pin, net) (mem_of_getItem hnet)

instance (piece : List Char) : Decidable (Clear piece) :=
  decidable_of_iff (occursIn ['6', '='] piece = false ∧ piece.head? ≠ some '=') (by
    rw [← Bool.not_eq_true, occursIn_iff]
    exact ⟨fun h => ⟨h.1, h.2⟩, fun h => ⟨h.pair, h.head⟩⟩)

/-- The text of a part is clear; of the nets this is assumed. -/
def Piece.IsClear : Piece → Prop
  | .text s => Clear s.toList
  | .main _ _ => True
  | .remote _ _ => True

instance : (piece : Piece) → Decidable piece.IsClear
  | .text s => inferInstanceAs (Decidable (Clear s.toList))
  | .main _ _ => inferInstanceAs (Decidable True)
  | .remote _ _ => inferInstanceAs (Decidable True)

theorem driverLines_clear : ∀ line ∈ driverLines, ∀ piece ∈ line, piece.IsClear := by
  decide +kernel

theorem receiverLines_clear : ∀ line ∈ receiverLines, ∀ piece ∈ line, piece.IsClear := by
  decide +kernel

/-- The net of a pin is clear if the nets of the board are plain. -/
theorem n_clear {board : Dict (Dict String)} (h : PlainBoard board) {ref : String} {pin : ℕ}
    {chars : List Char} (hn : String.toList <$> n board ref pin = .ok chars) : Clear chars := by
  cases hnet : n board ref pin with
  | error e =>
    rw [hnet] at hn
    cases hn
  | ok net =>
    rw [hnet] at hn
    cases hn
    obtain ⟨pins, hpins, hnet⟩ := bind_eq_ok.mp hnet
    exact clear_of_notMem (h.net hpins hnet)

section

variable {main remote : Dict (Dict String)} {m : ConnectivityManifest} {line : List Char}

/-- A line of clear pieces is clear. -/
theorem renderLine_clear (hmain : PlainBoard main) (hremote : PlainBoard remote)
    {pieces : List Piece} (hpieces : ∀ piece ∈ pieces, piece.IsClear)
    (h : renderLine main remote pieces = .ok line) : Clear line := by
  rw [renderLine] at h
  cases hrender : pieces.mapM (Piece.render main remote) with
  | error e =>
    rw [hrender] at h
    cases h
  | ok rendered =>
    rw [hrender] at h
    cases h
    refine clear_flatten (forall_of_mapM (fun piece hpiece chars hchars => ?_) hrender)
    cases piece with
    | text s =>
      cases hchars
      exact hpieces _ hpiece
    | main ref pin => exact n_clear hmain hchars
    | remote ref pin => exact n_clear hremote hchars

/-- A number of nine digits has no `=`. -/
theorem format9g_clear (x : Double) : Clear (GenerateConstants.format9g x) := by
  cases x with
  | finite x =>
    refine clear_of_notMem fun h => ?_
    rcases DecimalText.mem_general h with hdigit | hmem
    · exact absurd hdigit (by decide)
    · exact absurd hmem (by decide)
  | inf negative => cases negative <;> decide
  | nan => decide

theorem harnessLine_clear (hplain : PlainNets m) {name : String} (hname : Clear name.toList)
    (h : harnessLine m name = .ok line) : Clear line := by
  rw [harnessLine] at h
  obtain ⟨link, -, h⟩ := bind_eq_ok.mp h
  obtain ⟨a, ha, h⟩ := bind_eq_ok.mp h
  obtain ⟨b, hb, h⟩ := bind_eq_ok.mp h
  obtain ⟨ohm, hohm, h⟩ := bind_eq_ok.mp h
  cases h
  have hend : ∀ {item : LinkEnd} {net : String}, endNet m item = .ok net → Clear net.toList := by
    intro item net hnet
    obtain ⟨components, hcomponents, hnet⟩ := bind_eq_ok.mp hnet
    obtain ⟨pins, hpins, hnet⟩ := bind_eq_ok.mp hnet
    exact clear_of_notMem ((hplain.board hcomponents).net hpins hnet)
  have hohm : Clear ohm := by
    obtain ⟨x, -, hx⟩ := bind_eq_ok.mp hohm
    cases hx
    exact format9g_clear x
  refine clear_flatten ?_
  simp only [List.forall_mem_cons, List.not_mem_nil, false_implies, implies_true, and_true]
  exact ⟨by decide, hname, by decide, hend ha, by decide, hend hb, by decide, hohm⟩

end

/-- What `hexdigest` of a SHA-256 gives. -/
structure HexDigest (d : List Char) : Prop where
  length : d.length = 64
  hex : ∀ c ∈ d, c ∈ "0123456789abcdef".toList

/-- The lines of the text. -/
theorem spiceText_lines {m : ConnectivityManifest} (hplain : PlainNets m)
    {digest endpoints text : List Char} (h : spiceText m digest endpoints = .ok text) :
    ∃ rest : List (List Char), (∀ line ∈ rest, Clear line) ∧
      text = ['\n'].intercalate (generatedBy :: ("* ".toList ++ (manifestHeader ++ digest))
        :: ("* ".toList ++ (endpointHeader ++ endpoints)) :: rest) := by
  rw [spiceText] at h
  obtain ⟨main, hmain, h⟩ := bind_eq_ok.mp h
  obtain ⟨remote, hremote, h⟩ := bind_eq_ok.mp h
  obtain ⟨driver, hdriver, h⟩ := bind_eq_ok.mp h
  obtain ⟨harness, hharness, h⟩ := bind_eq_ok.mp h
  obtain ⟨receiver, hreceiver, h⟩ := bind_eq_ok.mp h
  cases h
  refine ⟨_, ?_, rfl⟩
  have hrender : ∀ (lines : List (List Piece)) rendered,
      (∀ line ∈ lines, ∀ piece ∈ line, piece.IsClear) →
      lines.mapM (renderLine main remote) = .ok rendered → ∀ line ∈ rendered, Clear line := by
    intro lines rendered hclear
    exact forall_of_mapM fun line hline chars =>
      renderLine_clear (hplain.board hmain) (hplain.board hremote) (hclear line hline)
  have hnames : ∀ name ∈ ["HARNESS_K", "HARNESS_3V3"], Clear name.toList := by decide
  simp only [List.forall_mem_append]
  refine ⟨⟨hrender _ _ driverLines_clear hdriver, ?_⟩, hrender _ _ receiverLines_clear hreceiver⟩
  exact forall_of_mapM (fun name hname line => harnessLine_clear hplain (hnames name hname))
    hharness

theorem HexDigest.notMem {d : List Char} (h : HexDigest d) {c : Char}
    (hc : c ∉ "0123456789abcdef".toList) {header : List Char} (hheader : c ∉ header) :
    c ∉ header ++ d := by
  rw [List.mem_append, not_or]
  exact ⟨hheader, fun hmem => hc (h.hex c hmem)⟩

section

variable {m : ConnectivityManifest} {digest endpoints text d : List Char}

/-- A clear line does not contain a heading. -/
theorem not_infix_of_clear {line header : List Char} (h : Clear line)
    (hheader : ['6', '='] <:+: header) : ¬ header <:+: line :=
  fun hinfix => h.pair (hheader.trans hinfix)

/-- The guard finds the digest of the manifest, and no other. -/
theorem manifestStamp_iff (hplain : PlainNets m) (hdigest : HexDigest digest)
    (hendpoints : HexDigest endpoints) (hd : HexDigest d)
    (h : spiceText m digest endpoints = .ok text) :
    occursIn (manifestHeader ++ d) text = true ↔ d = digest := by
  obtain ⟨rest, hrest, rfl⟩ := spiceText_lines hplain h
  have hpair : ['6', '='] <:+: manifestHeader := occursIn_iff.mp (by decide)
  have hbefore : 'C' ∉ "* ".toList := by decide
  rw [occursIn_iff]
  refine stamp_iff rfl hbefore (hd.notMem (by decide) (by decide))
    (hd.length.trans hdigest.length.symm) (List.mem_cons_of_mem _ (List.mem_cons_self ..)) ?_
  simp only [List.forall_mem_cons]
  refine ⟨.inr (not_infix_of_clear (by decide) hpair), .inl trivial, .inr fun hinfix => ?_,
    fun line hline => .inr (not_infix_of_clear (hrest line hline) hpair)⟩
  -- the other comment has no `Y`
  have hmem : 'Y' ∈ ("* ".toList ++ endpointHeader) ++ endpoints := by
    rw [List.append_assoc]
    exact hinfix.subset (by decide)
  exact hendpoints.notMem (by decide) (by decide) hmem

/-- The guard finds the digest of the netlist, and no other. -/
theorem endpointStamp_iff (hplain : PlainNets m) (hdigest : HexDigest digest)
    (hendpoints : HexDigest endpoints) (hd : HexDigest d)
    (h : spiceText m digest endpoints = .ok text) :
    occursIn (endpointHeader ++ d) text = true ↔ d = endpoints := by
  obtain ⟨rest, hrest, rfl⟩ := spiceText_lines hplain h
  have hpair : ['6', '='] <:+: endpointHeader := occursIn_iff.mp (by decide)
  have hbefore : 'K' ∉ "* ".toList := by decide
  rw [occursIn_iff]
  refine stamp_iff rfl hbefore (hd.notMem (by decide) (by decide))
    (hd.length.trans hendpoints.length.symm)
    (List.mem_cons_of_mem _ (List.mem_cons_of_mem _ (List.mem_cons_self ..))) ?_
  simp only [List.forall_mem_cons]
  refine ⟨.inr (not_infix_of_clear (by decide) hpair), .inr fun hinfix => ?_, .inl trivial,
    fun line hline => .inr (not_infix_of_clear (hrest line hline) hpair)⟩
  -- the other comment has no `K`
  have hmem : 'K' ∈ ("* ".toList ++ manifestHeader) ++ digest := by
    rw [List.append_assoc]
    exact hinfix.subset (by decide)
  exact hdigest.notMem (by decide) (by decide) hmem

end

/-! ## The panel

The manifest of the repository and the nets of its schematic, on which `generate` is
evaluated.
-/

theorem toString_injective : Function.Injective (toString : ℕ → String) := by
  intro a b h
  have hdigits : Nat.toDigits 10 a = Nat.toDigits 10 b := by
    rw [← Nat.toList_repr, ← Nat.toList_repr]
    exact congrArg String.toList h
  rw [← Nat.ofDigitChars_ten_toDigits (n := a), hdigits, Nat.ofDigitChars_ten_toDigits]

/-- The nets of pins that are numbered from one. -/
def numbered (nets : List String) : Dict String where
  items := nets.zipIdx.map fun net => (toString (net.2 + 1), net.1)
  nodup := by
    rw [List.map_map]
    have hindex : (nets.zipIdx.map Prod.snd).Nodup := by
      rw [List.zipIdx_map_snd]
      exact List.nodup_range'
    refine (hindex.of_map _).map_on fun p hp r hr heq => ?_
    have hsnd : p.2 = r.2 := Nat.succ.inj (toString_injective heq)
    exact List.inj_on_of_nodup_map hindex hp hr hsnd

def mainBoard : Dict (Dict String) where
  items :=
    [("J1", numbered
        ["TX_CARRIER_GPIO1", "RX_RMT_GPIO2", "XIAO_D2", "XIAO_D3", "XIAO_D4", "XIAO_D5",
          "XIAO_D6"]),
      ("J2", numbered ["XIAO_D10", "XIAO_D9", "XIAO_D8", "XIAO_D7", "+3V3", "GND", "+5V_USB"]),
      ("D2", numbered ["+3V3", "NC_MECHANICAL", "PD_ANODE"]),
      ("U1", numbered
        ["TIA_OUT", "PD_ANODE", "VREF", "GND", "BP_IN", "BP_NEG", "BANDPASS", "+3V3"]),
      ("U2", numbered ["COMP_OUT", "GND", "COMP_PLUS", "VREF", "+3V3"]),
      ("J3", numbered ["LED_K_SWITCHED", "+3V3"]),
      ("Q1", numbered ["Q_BASE", "LED_K_SWITCHED", "GND"]),
      ("R2", numbered ["TX_CARRIER_GPIO1", "Q_BASE"]),
      ("R3", numbered ["+3V3", "VREF"]),
      ("R4", numbered ["VREF", "GND"]),
      ("C1", numbered ["VREF", "GND"]),
      ("R5", numbered ["TIA_OUT", "PD_ANODE"]),
      ("C2", numbered ["TIA_OUT", "PD_ANODE"]),
      ("C3", numbered ["TIA_OUT", "BP_IN"]),
      ("R6", numbered ["BP_IN", "VREF"]),
      ("R7", numbered ["BP_NEG", "VREF"]),
      ("R8", numbered ["BANDPASS", "BP_NEG"]),
      ("C4", numbered ["BANDPASS", "BP_NEG"]),
      ("R9", numbered ["BANDPASS", "COMP_PLUS"]),
      ("R10", numbered ["COMP_OUT", "COMP_PLUS"]),
      ("R11", numbered ["COMP_OUT", "RX_RMT_GPIO2"]),
      ("C5", numbered ["+3V3", "GND"]),
      ("C6", numbered ["+3V3", "GND"]),
      ("TP1", numbered ["GND"]),
      ("TP2", numbered ["+3V3"]),
      ("TP3", numbered ["VREF"]),
      ("TP4", numbered ["TX_CARRIER_GPIO1"]),
      ("TP5", numbered ["TIA_OUT"]),
      ("TP6", numbered ["BANDPASS"]),
      ("TP7", numbered ["COMP_OUT"]),
      ("TP8", numbered ["RX_RMT_GPIO2"])]
  nodup := by decide

def remoteBoard : Dict (Dict String) where
  items :=
    [("J4", numbered ["LED_K_REMOTE", "+3V3_LED"]),
      ("R1", numbered ["+3V3_LED", "LED_A"]),
      ("D1", numbered ["LED_K_REMOTE", "LED_A"])]
  nodup := by decide

/-- `hardware/connectivity.json` -/
def panel : ConnectivityManifest where
  boards := ⟨[("main", mainBoard), ("remote", remoteBoard)], by decide⟩
  harnessLinks :=
    [⟨"HARNESS_K", ⟨"main", "J3", .text "1"⟩, ⟨"remote", "J4", .text "1"⟩,
        .float (.ofRat Ieee.binary64 (99 / 625))⟩,
      ⟨"HARNESS_3V3", ⟨"main", "J3", .text "2"⟩, ⟨"remote", "J4", .text "2"⟩,
        .float (.ofRat Ieee.binary64 (99 / 625))⟩]
  simulation :=
    { requiredSignalNets :=
        ["+3V3", "GND", "TX_CARRIER_GPIO1", "Q_BASE", "LED_K_SWITCHED", "+3V3_LED", "LED_A",
        "LED_K_REMOTE", "PD_ANODE", "VREF", "TIA_OUT", "BP_IN", "BP_NEG", "BANDPASS",
        "COMP_PLUS", "COMP_OUT", "RX_RMT_GPIO2"]
      probeNets :=
        ["+3V3", "VREF", "TX_CARRIER_GPIO1", "TIA_OUT", "BANDPASS", "COMP_OUT", "RX_RMT_GPIO2"] }

/-- The nets of the schematic, by its labels. -/
def panelNets : List NetElement :=
  [⟨"/TX_CARRIER", [⟨"J1", "1"⟩, ⟨"R2", "1"⟩, ⟨"TP4", "1"⟩]⟩,
    ⟨"/RMT_RX", [⟨"J1", "2"⟩, ⟨"R11", "2"⟩, ⟨"TP8", "1"⟩]⟩,
    ⟨"/+3V3",
      [⟨"J2", "5"⟩, ⟨"D2", "1"⟩, ⟨"U1", "8"⟩, ⟨"U2", "5"⟩, ⟨"J3", "2"⟩, ⟨"R3", "1"⟩, ⟨"C5", "1"⟩,
      ⟨"C6", "1"⟩, ⟨"TP2", "1"⟩]⟩,
    ⟨"/GND",
      [⟨"J2", "6"⟩, ⟨"U1", "4"⟩, ⟨"U2", "2"⟩, ⟨"Q1", "3"⟩, ⟨"R4", "2"⟩, ⟨"C1", "2"⟩, ⟨"C5", "2"⟩,
      ⟨"C6", "2"⟩, ⟨"TP1", "1"⟩]⟩,
    ⟨"/PD_ANODE", [⟨"D2", "3"⟩, ⟨"U1", "2"⟩, ⟨"R5", "2"⟩, ⟨"C2", "2"⟩]⟩,
    ⟨"/TIA_OUT", [⟨"U1", "1"⟩, ⟨"R5", "1"⟩, ⟨"C2", "1"⟩, ⟨"C3", "1"⟩, ⟨"TP5", "1"⟩]⟩,
    ⟨"/VREF",
      [⟨"U1", "3"⟩, ⟨"U2", "4"⟩, ⟨"R3", "2"⟩, ⟨"R4", "1"⟩, ⟨"C1", "1"⟩, ⟨"R6", "2"⟩, ⟨"R7", "2"⟩,
      ⟨"TP3", "1"⟩]⟩,
    ⟨"/BP_IN", [⟨"U1", "5"⟩, ⟨"C3", "2"⟩, ⟨"R6", "1"⟩]⟩,
    ⟨"/BP_NEG", [⟨"U1", "6"⟩, ⟨"R7", "1"⟩, ⟨"R8", "2"⟩, ⟨"C4", "2"⟩]⟩,
    ⟨"/BANDPASS", [⟨"U1", "7"⟩, ⟨"R8", "1"⟩, ⟨"C4", "1"⟩, ⟨"R9", "1"⟩, ⟨"TP6", "1"⟩]⟩,
    ⟨"/COMP_OUT", [⟨"U2", "1"⟩, ⟨"R10", "1"⟩, ⟨"R11", "1"⟩, ⟨"TP7", "1"⟩]⟩,
    ⟨"/COMP_PLUS", [⟨"U2", "3"⟩, ⟨"R9", "2"⟩, ⟨"R10", "2"⟩]⟩,
    ⟨"/LED_K", [⟨"J3", "1"⟩, ⟨"Q1", "2"⟩]⟩,
    ⟨"/Q_BASE", [⟨"Q1", "1"⟩, ⟨"R2", "2"⟩]⟩,
    ⟨"/LED_K_REMOTE", [⟨"J4", "1"⟩, ⟨"D1", "1"⟩]⟩,
    ⟨"/+3V3_LED", [⟨"J4", "2"⟩, ⟨"R1", "1"⟩]⟩,
    ⟨"/LED_A", [⟨"R1", "2"⟩, ⟨"D1", "2"⟩]⟩]

/-- The digest of this manifest. -/
def panelDigest : List Char :=
  "d13e825ff8974e6b20e1ac9a9226f993307376337d7be4e2c34ad87381212739".toList

/-- The digest of the pins of the panel with their nets. -/
def panelEndpoints : List Char :=
  "5c4c5236bcbccc4b56747ac95a52d39df47d0db434a9f67fe2ea545befa9f680".toList

/-- One manifest and one schematic. -/
def panelTools : Tools Unit Unit where
  loads _ := .ok panel
  manifestDigest _ := panelDigest
  endpointsDigest _ := panelEndpoints
  exportNetlist _ := .ok panelNets

/-- The text that `generate` returns, or nothing. -/
def textOf : Except PyError (List Char × List Char) → List Char
  | .ok (_, text) => text
  | .error _ => []

theorem eq_textOf {result : Except PyError (List Char × List Char)} {digest : List Char}
    (h : Prod.fst <$> result = .ok digest) : result = .ok (digest, textOf result) := by
  cases result with
  | error e => cases h
  | ok pair =>
    cases h
    rfl

/-- `simulation/generated_connectivity.inc` -/
def panelText : List Char := textOf (generate panelTools () () ())

theorem panel_generate : generate panelTools () () () = .ok (panelDigest, panelText) := by
  have hdigest : Prod.fst <$> generate panelTools () () () = .ok panelDigest := by decide +kernel
  exact eq_textOf hdigest

theorem panel_plain : PlainNets panel := by
  unfold PlainNets
  decide +kernel

theorem hexDigest_of_all {d : List Char} (hlength : d.length = 64)
    (hall : d.all ("0123456789abcdef".toList.contains ·) = true) : HexDigest d where
  length := hlength
  hex c hc := List.contains_iff_mem.mp (List.all_eq_true.mp hall c hc)

theorem panelDigest_hex : HexDigest panelDigest := hexDigest_of_all rfl (by decide +kernel)

theorem panelEndpoints_hex : HexDigest panelEndpoints := hexDigest_of_all rfl (by decide +kernel)

end SpokeSensor.GenerateConnectivity
