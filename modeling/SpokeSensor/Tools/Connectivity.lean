import SpokeSensor.Lib.LabelledPaths
import SpokeSensor.Server.PyNumber
import SpokeSensor.Tools.KicadNetlist

/-!
# The connectivity manifest (`tools/generate_connectivity.py`)

- `validateManifest` (25–68): each harness link is checked on its own; both ends exist and lie on
  nets of different names.
- `ConnectivityManifest.Path`: the generated netlist knows a net by its name alone, on whichever
  board it is. A path walks that graph, through the links and through the components.
- `Separate`: no component has pins on a net of each board.
- `harness_crossed_iff`: on accepted manifests every path between the two boards passes a link
  exactly when the components are separate. `sharedSupply_bypassed` is an accepted manifest with a
  capacitor across the harness.

A JSON object is the list of its items, as in the netlist gate, and a pin of a link may be
a text or a number.
-/

namespace SpokeSensor.Connectivity

open KicadNetlist LocalServer

/-! ## The manifest

The parts of `connectivity.json` that are read, as dictionaries in their order.
-/

/-- The value under `"pin"`. -/
inductive Pin where
  | text (s : String)
  | number (n : ℤ)

/-- `str(pin)` -/
def Pin.str : Pin → String
  | .text s => s
  | .number n => toString n

/-- One end of a harness link. -/
structure LinkEnd where
  board : String
  ref : String
  pin : Pin

/-- An element of `harness_links`. -/
structure HarnessLink where
  name : String
  start : LinkEnd
  stop : LinkEnd
  seriesOhm : PyNumber

/-- The entries of `simulation` that are checked. -/
structure SimulationNets where
  requiredSignalNets : List String
  probeNets : List String

/-- The manifest, with the components of each board by reference and their nets by pin. -/
structure ConnectivityManifest where
  boards : Dict (Dict (Dict String))
  harnessLinks : List HarnessLink
  simulation : SimulationNets

/-! ## `validate_manifest`

In the order of the source (`generate_connectivity.py:25–68`), so that the first fault
raises.
-/

/-- A pin on a board. -/
structure BoardPin where
  board : String
  ref : String
  pin : String
  deriving DecidableEq

/-- `repr` of the tuple -/
def BoardPin.repr (p : BoardPin) : String :=
  "(" ++ KicadNetlist.repr (some p.board) ++ ", " ++ KicadNetlist.repr (some p.ref) ++ ", "
    ++ KicadNetlist.repr (some p.pin) ++ ")"

/-- `repr(sorted(s))` of a set of names, given with or without repetitions. -/
def reprSorted (s : List String) : String :=
  "[" ++ ", ".intercalate ((s.dedup.insertionSort (· ≤ ·)).map fun net =>
    KicadNetlist.repr (some net)) ++ "]"

/-- `d[key]` -/
def getItem {α : Type} (d : Dict α) (key : String) : Except PyError α :=
  match d.items.lookup key with
  | some value => .ok value
  | none => .error (.other "KeyError" (KicadNetlist.repr (some key)))

/-- `endpoints` and `all_nets`, as they are filled. -/
structure Collected where
  endpoints : List BoardPin
  allNets : List String

/-- The loop over the pins of one component. -/
def collectPins (board ref : String) (acc : Collected) (pins : Dict String) :
    Except PyError Collected := do
  raiseIf (pins.items = []) (.valueError (board ++ ":" ++ ref ++ " has no pins"))
  pins.items.foldlM (fun acc item => do
    let endpoint : BoardPin := ⟨board, ref, item.1⟩
    raiseIf (endpoint ∈ acc.endpoints) (.valueError ("duplicate endpoint " ++ endpoint.repr))
    return ⟨acc.endpoints ++ [endpoint], acc.allNets ++ [item.2]⟩) acc

/-- The loops over the boards and their components. -/
def collect (boards : Dict (Dict (Dict String))) : Except PyError Collected :=
  boards.items.foldlM (fun acc board =>
    board.2.items.foldlM (fun acc component => collectPins board.1 component.1 acc component.2)
      acc) ⟨[], []⟩

/-- The net at one end of a link. -/
def linkedNet (boards : Dict (Dict (Dict String))) (endpoints : List BoardPin) (name : String)
    (item : LinkEnd) : Except PyError String := do
  let endpoint : BoardPin := ⟨item.board, item.ref, item.pin.str⟩
  raiseIf (endpoint ∉ endpoints) (.valueError (name ++ " references missing " ++ endpoint.repr))
  let components ← getItem boards item.board
  let pins ← getItem components item.ref
  getItem pins item.pin.str

/-- The checks of one link. -/
def checkLink (boards : Dict (Dict (Dict String))) (endpoints : List BoardPin)
    (link : HarnessLink) : Except PyError Unit := do
  let first ← linkedNet boards endpoints link.name link.start
  let second ← linkedNet boards endpoints link.name link.stop
  raiseIf (first = second) (.valueError (link.name
    ++ " must join distinct board nets so cable resistance cannot be bypassed"))
  let ohm ← link.seriesOhm.toFloat
  raiseIf (ohm ≤ .finite 0) (.valueError (link.name ++ " resistance must be positive"))

/-- `tp_nets` -/
def tpNets (components : Dict (Dict String)) : List String :=
  (components.items.filter fun component => startsWith component.1 "TP").filterMap fun component =>
    component.2.items.head?.map Prod.snd

/-- `validate_manifest` -/
def validateManifest (m : ConnectivityManifest) : Except PyError Unit := do
  let collected ← collect m.boards
  m.harnessLinks.forM (checkLink m.boards collected.endpoints)
  let missing := m.simulation.requiredSignalNets.filter (· ∉ collected.allNets)
  raiseIf (missing ≠ [])
    (.valueError ("simulation nets absent from boards: " ++ reprSorted missing))
  let components ← getItem m.boards "main"
  let absent := m.simulation.probeNets.filter (· ∉ tpNets components)
  raiseIf (absent ≠ []) (.valueError ("missing physical probes for " ++ reprSorted absent))

/-- A manifest that `validate_manifest` lets pass. -/
structure AcceptedManifest extends ConnectivityManifest where
  accepted : validateManifest toConnectivityManifest = .ok ()

/-! ## The graph of the nets

Two nets are joined by a component with pins on both, or by a link of the harness. A
path from one board to the other is what the harness is to carry.
-/

/-- A component with its pins. -/
structure Component where
  board : String
  ref : String
  pins : Dict String

/-- The nets that a component uses. -/
def Component.nets (c : Component) : List String := c.pins.items.map Prod.snd

namespace ConnectivityManifest

/-- The components of all boards. -/
def components (m : ConnectivityManifest) : List Component :=
  m.boards.items.flatMap fun board => board.2.items.map fun component =>
    ⟨board.1, component.1, component.2⟩

/-- The nets that the components of a board use. -/
def netsOf (m : ConnectivityManifest) (board : String) : List String :=
  (m.components.filter (·.board = board)).flatMap Component.nets

/-- The net at one end of a link. -/
def netAt (m : ConnectivityManifest) (item : LinkEnd) : Option String := do
  let components ← m.boards.items.lookup item.board
  let pins ← components.items.lookup item.ref
  pins.items.lookup item.pin.str

/-- The name is that of a net of one of the two boards. -/
def IsNet (m : ConnectivityManifest) (net : String) : Prop :=
  net ∈ m.netsOf "main" ∨ net ∈ m.netsOf "remote"

end ConnectivityManifest

/-- What a step of a path goes through. -/
inductive Edge where
  | link (link : HarnessLink)
  | component (component : Component)

/-- A link joins the nets of its ends, a component any two of its nets. -/
inductive ConnectivityManifest.Joins (m : ConnectivityManifest) : String → Edge → String → Prop
    where
  | forth {link : HarnessLink} {a b : String} : link ∈ m.harnessLinks →
      m.netAt link.start = some a → m.netAt link.stop = some b → m.Joins a (.link link) b
  | back {link : HarnessLink} {a b : String} : link ∈ m.harnessLinks →
      m.netAt link.start = some a → m.netAt link.stop = some b → m.Joins b (.link link) a
  | component {c : Component} {a b : String} : c ∈ m.components → a ∈ c.nets → b ∈ c.nets →
      m.Joins a (.component c) b

namespace ConnectivityManifest

/-- A step between nets of the two boards. -/
def Step (m : ConnectivityManifest) (a : String) (e : Edge) (b : String) : Prop :=
  m.Joins a e b ∧ m.IsNet a ∧ m.IsNet b

/-- A path, with the edges it crosses. -/
abbrev Path (m : ConnectivityManifest) : String → List Edge → String → Prop :=
  LabelledPaths.Path m.Step

/-- No component has a pin on a net of the main board and a pin on a net of the remote
board, which may be the same pin. -/
def Separate (m : ConnectivityManifest) : Prop :=
  ∀ c ∈ m.components, ∀ a ∈ c.nets, ∀ b ∈ c.nets, a ∈ m.netsOf "main" → b ∉ m.netsOf "remote"

instance (m : ConnectivityManifest) : Decidable m.Separate :=
  inferInstanceAs (Decidable (∀ c ∈ m.components, ∀ a ∈ c.nets, ∀ b ∈ c.nets,
    a ∈ m.netsOf "main" → b ∉ m.netsOf "remote"))

theorem mem_netsOf {m : ConnectivityManifest} {board net : String} :
    net ∈ m.netsOf board ↔ ∃ c ∈ m.components, c.board = board ∧ net ∈ c.nets := by
  simp [netsOf, and_assoc]

/-- On two boards the components stay apart when the boards share no name. -/
theorem separate_iff_of_two_boards {m : ConnectivityManifest}
    (hboards : ∀ c ∈ m.components, c.board = "main" ∨ c.board = "remote") :
    m.Separate ↔ ∀ net ∈ m.netsOf "main", net ∉ m.netsOf "remote" := by
  constructor
  · intro h net hmain hremote
    obtain ⟨c, hc, -, hnet⟩ := mem_netsOf.mp hmain
    exact h c hc net hnet net hnet hmain hremote
  · intro h c hc a ha b hb hmain hremote
    -- the board of the component uses both of its nets
    rcases hboards c hc with hboard | hboard
    · exact h b (mem_netsOf.mpr ⟨c, hc, hboard, hb⟩) hremote
    · exact h a hmain (mem_netsOf.mpr ⟨c, hc, hboard, ha⟩)

end ConnectivityManifest

/-- A link, not a component. -/
def Edge.IsLink (e : Edge) : Prop := ∃ link, e = .link link

/-- In an accepted manifest every path from a net of the main board to a net of the
remote board crosses a harness link, if and only if no component lies on nets of both.
Every net is on one of the boards, so a path that crosses none has a single step from
one to the other (`every_path_crosses_iff`), which is a component. -/
theorem harness_crossed_iff (m : AcceptedManifest) :
    (∀ a b es, a ∈ m.netsOf "main" → b ∈ m.netsOf "remote" → m.Path a es b →
        ∃ e ∈ es, e.IsLink) ↔ m.Separate := by
  rw [LabelledPaths.every_path_crosses_iff (A := (· ∈ m.netsOf "main"))
    (B := (· ∈ m.netsOf "remote")) fun a e b h => h.2.2]
  constructor
  · rintro ⟨-, hsteps⟩ c hc a ha b hb hmain hremote
    have hno : ¬ (Edge.component c).IsLink := nofun
    exact hsteps a (.component c) b ⟨.component hc ha hb, .inl hmain, .inr hremote⟩ hno hmain
      hremote
  · intro h
    constructor
    · intro net hmain hremote
      obtain ⟨c, hc, -, hnet⟩ := ConnectivityManifest.mem_netsOf.mp hmain
      exact h c hc net hnet net hnet hmain hremote
    · rintro a e b ⟨hjoins, -, -⟩ hno hmain
      cases hjoins with
      | forth hlink hstart hstop => exact absurd ⟨_, rfl⟩ hno
      | back hlink hstart hstop => exact absurd ⟨_, rfl⟩ hno
      | component hc ha hb => exact h _ hc a ha b hb hmain

/-- A capacitor between the supplies of the two boards. -/
def bridgingCapacitor : Component :=
  ⟨"remote", "C9", ⟨[("1", "+3V3"), ("2", "+3V3_LED")], by decide⟩⟩

/-- Both conductors of the harness, and on the remote board a capacitor on the supply of
the main board. -/
def sharedSupply : ConnectivityManifest where
  boards := {
    items := [
      ("main", {
        items := [("J3", ⟨[("1", "LED_K_SWITCHED"), ("2", "+3V3")], by decide⟩),
          ("TP1", ⟨[("1", "+3V3")], by decide⟩)]
        nodup := by decide }),
      ("remote", {
        items := [("J4", ⟨[("1", "LED_K_REMOTE"), ("2", "+3V3_LED")], by decide⟩),
          (bridgingCapacitor.ref, bridgingCapacitor.pins)]
        nodup := by decide })]
    nodup := by decide }
  harnessLinks := [
    ⟨"HARNESS_K", ⟨"main", "J3", .text "1"⟩, ⟨"remote", "J4", .text "1"⟩,
      .float (.finite 1)⟩,
    ⟨"HARNESS_3V3", ⟨"main", "J3", .text "2"⟩, ⟨"remote", "J4", .text "2"⟩,
      .float (.finite 1)⟩]
  simulation := ⟨["+3V3", "LED_K_REMOTE"], ["+3V3"]⟩

/-- The harness without the capacitor. -/
def panel : AcceptedManifest where
  toConnectivityManifest := { sharedSupply with
    boards := {
      items := [
        ("main", {
          items := [("J3", ⟨[("1", "LED_K_SWITCHED"), ("2", "+3V3")], by decide⟩),
            ("TP1", ⟨[("1", "+3V3")], by decide⟩)]
          nodup := by decide }),
        ("remote", {
          items := [("J4", ⟨[("1", "LED_K_REMOTE"), ("2", "+3V3_LED")], by decide⟩),
            ("D1", ⟨[("1", "LED_K_REMOTE"), ("2", "+3V3_LED")], by decide⟩)]
          nodup := by decide })]
      nodup := by decide } }
  accepted := by decide

/-- From one pin of the connector to the other, and through the supply conductor to the LED. -/
theorem harness_crossed_panel : ∃ es, panel.Path "LED_K_SWITCHED" es "+3V3_LED" ∧
    ∃ e ∈ es, e.IsLink := by
  have hcrossed := (harness_crossed_iff panel).mpr (by decide)
  have hmain : "LED_K_SWITCHED" ∈ panel.netsOf "main" ∧ "+3V3" ∈ panel.netsOf "main" := by decide
  have hremote : "+3V3_LED" ∈ panel.netsOf "remote" := by decide
  have hconnector : panel.Joins "LED_K_SWITCHED"
      (.component ⟨"main", "J3", ⟨[("1", "LED_K_SWITCHED"), ("2", "+3V3")], by decide⟩⟩) "+3V3" :=
    .component (List.mem_of_getElem? (i := 0) rfl) (by decide) (by decide)
  have hconductor : panel.Joins "+3V3" (.link ⟨"HARNESS_3V3", ⟨"main", "J3", .text "2"⟩,
      ⟨"remote", "J4", .text "2"⟩, .float (.finite 1)⟩) "+3V3_LED" :=
    .forth (List.mem_of_getElem? (i := 1) rfl) rfl rfl
  have hpath : panel.Path "LED_K_SWITCHED" [_, _] "+3V3_LED" :=
    .cons ⟨hconnector, .inl hmain.1, .inl hmain.2⟩
      (.single ⟨hconductor, .inl hmain.2, .inr hremote⟩)
  exact ⟨_, hpath, hcrossed _ _ _ hmain.1 hremote hpath⟩

/-- The capacitor leads from one end of the supply conductor to the other. -/
theorem sharedSupply_bypassed :
    validateManifest sharedSupply = .ok () ∧ "+3V3" ∈ sharedSupply.netsOf "main" ∧
      "+3V3_LED" ∈ sharedSupply.netsOf "remote" ∧
      ∃ es, sharedSupply.Path "+3V3" es "+3V3_LED" ∧ ∀ e ∈ es, ¬ e.IsLink := by
  have hmain : "+3V3" ∈ sharedSupply.netsOf "main" := by decide
  have hremote : "+3V3_LED" ∈ sharedSupply.netsOf "remote" := by decide
  have hjoins : sharedSupply.Joins "+3V3" (.component bridgingCapacitor) "+3V3_LED" :=
    .component (List.mem_of_getElem? (i := 3) rfl) (by decide) (by decide)
  refine ⟨by decide, hmain, hremote, [.component bridgingCapacitor],
    .single ⟨hjoins, .inl hmain, .inr hremote⟩, fun e he => ?_⟩
  rw [List.mem_singleton.mp he]
  exact nofun

end SpokeSensor.Connectivity
