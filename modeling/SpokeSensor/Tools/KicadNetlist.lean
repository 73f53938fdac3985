import Mathlib.Data.List.Sort
import Mathlib.Data.List.Nodup
import SpokeSensor.Lib.LabelledBlocks

/-!
# The netlist gate (`tools/validate_kicad_netlist.py`)

`validate` compares the net of every pin in the connectivity manifest with the net
that KiCad exported for it, by name.

- `normalizeNet` (`validate_kicad_netlist.py:39–41`), `loadActual` (64–76): the
  exported netlist. A net is known by its normalised name from here on; nets of
  unconnected pins are passed over.
- `expectedEndpoints` (79–90): the manifest. Nets that KiCad does not export are left
  out.
- `validate` (93–145): the disagreements, and the exported pins that the manifest does
  not connect.
- `validate_ok`: what has been compared when nothing is raised.
- `SplitNet`, `MixedNet`: two elements of one name that hold pins apart, and an
  element that is passed over and holds pins of different nets.
- `same_net_iff_same_name`: these apart, two checked pins share an element exactly
  when the manifest names their nets alike. `split_net_passes` is a netlist with a
  local and a global net of one name.

A dictionary that the source fills in a loop is the list of its items, and the digest
of the result (131–140) is left to the caller: `validate` returns the items it is
taken of.
-/

namespace SpokeSensor.KicadNetlist

/-! ## Python strings

Prefixes, and `repr` of what the messages quote.
-/

/-- `s.startswith(p)` -/
def startsWith (s p : String) : Bool := p.toList.isPrefixOf s.toList

/-- `s.removeprefix(p)` -/
def removePrefixOf (p s : String) : String :=
  if startsWith s p then String.ofList (s.toList.drop p.length) else s

/-- `repr` of a string without quotes and control characters, or of `None`. -/
def repr : Option String → String
  | none => "None"
  | some s => "'" ++ s ++ "'"

/-! ## The two inputs

The manifest as it is loaded, and the nets of the exported netlist in the order of the
file.
-/

/-- A reference designator with a pin. -/
structure Endpoint where
  ref : String
  pin : String
  deriving DecidableEq

/-- The order of tuples. -/
def Endpoint.le (a b : Endpoint) : Prop := a.ref < b.ref ∨ (a.ref = b.ref ∧ a.pin ≤ b.pin)

instance : DecidableRel Endpoint.le := fun a b =>
  inferInstanceAs (Decidable (a.ref < b.ref ∨ (a.ref = b.ref ∧ a.pin ≤ b.pin)))

/-- A JSON object. -/
structure Dict (α : Type) where
  items : List (String × α)
  nodup : (items.map Prod.fst).Nodup

/-- The manifest: boards by name, components by reference, nets by pin. -/
abbrev Manifest := Dict (Dict (Dict String))

/-- A `<net>` element: its name and its nodes. -/
structure NetElement where
  name : String
  nodes : List Endpoint
  deriving DecidableEq

/-- The exceptions that leave `validate`. -/
inductive Failure where
  | valueError (message : String)
  | systemExit (message : String)
  deriving DecidableEq

/-! ## `load_actual`

Pins of the nets that are not skipped, by normalised name; a pin that comes twice
raises (`validate_kicad_netlist.py:64–76`).
-/

/-- `SHORT_TO_CANONICAL` -/
def shortToCanonical : List (String × String) :=
  [("TX_CARRIER", "TX_CARRIER_GPIO1"), ("RMT_RX", "RX_RMT_GPIO2"), ("LED_K", "LED_K_SWITCHED"),
    ("D10", "XIAO_D10"), ("D9", "XIAO_D9"), ("D8", "XIAO_D8"), ("D7", "XIAO_D7"),
    ("D6", "XIAO_D6"), ("D5", "XIAO_D5"), ("D4", "XIAO_D4"), ("D3", "XIAO_D3"),
    ("D2_GPIO", "XIAO_D2")]

/-- `normalize_net` (39–41): a leading slash is dropped, and a few short names are
spelled out. -/
def normalizeNet (name : String) : String :=
  let name := removePrefixOf "/" name
  (shortToCanonical.lookup name).getD name

/-- The elements that `load_actual` passes over. -/
def NetElement.skipped (net : NetElement) : Bool :=
  startsWith (normalizeNet net.name) "unconnected-"

/-- The inner loop of `load_actual`. -/
def loadNodes (name : String) (actual : List (Endpoint × String)) :
    List Endpoint → Except Failure (List (Endpoint × String))
  | [] => .ok actual
  | endpoint :: nodes =>
    if endpoint ∈ actual.map Prod.fst then
      .error (.valueError ("KiCad endpoint appears twice: (" ++ repr (some endpoint.ref) ++ ", "
        ++ repr (some endpoint.pin) ++ ")"))
    else loadNodes name (actual ++ [(endpoint, name)]) nodes

/-- `load_actual` (64–76), from the dictionary filled so far. -/
def loadActual (actual : List (Endpoint × String)) :
    List NetElement → Except Failure (List (Endpoint × String))
  | [] => .ok actual
  | net :: nets =>
    if net.skipped then loadActual actual nets
    else do
      let actual ← loadNodes (normalizeNet net.name) actual net.nodes
      loadActual actual nets

/-! ## `expected_endpoints`

Pins of the manifest, without the excluded nets (`validate_kicad_netlist.py:79–90`).
-/

/-- The nets that are not compared. -/
def excluded (net : String) : Bool :=
  startsWith net "XIAO_D" || net == "+5V_USB" || net == "NC_MECHANICAL"

/-- The components of all boards. -/
def Manifest.components (m : Manifest) : List (String × Dict String) :=
  m.items.flatMap fun board => board.2.items

/-- The pins of all boards with their nets. -/
def Manifest.pins (m : Manifest) : List (Endpoint × String) :=
  m.components.flatMap fun component =>
    component.2.items.map fun pin => (⟨component.1, pin.1⟩, pin.2)

/-- `d[key] = value` -/
def setItem (d : List (Endpoint × String)) (key : Endpoint) (value : String) :
    List (Endpoint × String) :=
  if key ∈ d.map Prod.fst then
    d.map fun item => if item.1 = key then (key, value) else item
  else d ++ [(key, value)]

/-- `expected_endpoints` (79–90) -/
def expectedEndpoints (m : Manifest) : List (Endpoint × String) :=
  m.pins.foldl
    (fun expected pin => if excluded pin.2 then expected else setItem expected pin.1 pin.2) []

/-! ## `validate`

The comparison of both, pin by pin (`validate_kicad_netlist.py:93–145`).
-/

/-- `sorted(d.items())`: the keys of a dictionary are distinct, so they alone decide. -/
def sortedItems (items : List (Endpoint × String)) : List (Endpoint × String) :=
  items.insertionSort fun a b => a.1.le b.1

/-- The pins whose exported net is not the expected one. -/
def disagreements (expected actual : List (Endpoint × String)) : List String :=
  (sortedItems expected).filterMap fun item =>
    let actualNet := actual.lookup item.1
    if actualNet ≠ some item.2 then
      some (item.1.ref ++ "." ++ item.1.pin ++ " expected " ++ item.2 ++ ", KiCad exported "
        ++ repr actualNet)
    else none

/-- The exported pins of known components that the manifest does not connect. -/
def unexpected (m : Manifest) (expected actual : List (Endpoint × String)) : List String :=
  (sortedItems (actual.filter fun item =>
      item.1.ref ∈ m.components.map Prod.fst && item.1 ∉ expected.map Prod.fst
        && !excluded item.2)).map fun item =>
    item.1.ref ++ "." ++ item.1.pin ++ " unexpectedly connected to " ++ item.2

/-- `validate` (93–145), from the exported netlist on. The manifest is read once here. -/
def validate (m : Manifest) (nets : List NetElement) :
    Except Failure (List (Endpoint × String)) := do
  let actual ← loadActual [] nets
  let expected := expectedEndpoints m
  let errors := disagreements expected actual ++ unexpected m expected actual
  if errors ≠ [] then
    .error (.systemExit ("KiCad schematic netlist disagrees with hardware/connectivity.json:\n  - "
      ++ "\n  - ".intercalate errors))
  else .ok (sortedItems (actual.filter fun item => item.1 ∈ expected.map Prod.fst))

/-! ## What the loops compute

Dictionaries as lists with distinct keys: what is in them after the loops, whatever
the order.
-/

/-- The inspected nodes with their normalised nets, element by element. -/
def netPins (nets : List NetElement) : List (Endpoint × String) :=
  nets.flatMap fun net =>
    if net.skipped then [] else net.nodes.map fun node => (node, normalizeNet net.name)

/-- Nodes are appended as long as no endpoint comes twice. -/
theorem loadNodes_ok {name : String} {actual r : List (Endpoint × String)} {nodes : List Endpoint}
    (hactual : (actual.map Prod.fst).Nodup) (h : loadNodes name actual nodes = .ok r) :
    r = actual ++ nodes.map (fun node => (node, name)) ∧ (r.map Prod.fst).Nodup := by
  induction nodes generalizing actual with
  | nil =>
    cases h
    exact ⟨(List.append_nil _).symm, hactual⟩
  | cons node nodes ih =>
    rw [loadNodes] at h
    split_ifs at h with htwice
    have hnext : ((actual ++ [(node, name)]).map Prod.fst).Nodup := by
      rw [List.map_append, List.nodup_append_comm]
      exact List.nodup_cons.mpr ⟨htwice, hactual⟩
    obtain ⟨rfl, hnodup⟩ := ih hnext h
    exact ⟨by simp, hnodup⟩

theorem loadActual_ok {actual r : List (Endpoint × String)} {nets : List NetElement}
    (hactual : (actual.map Prod.fst).Nodup) (h : loadActual actual nets = .ok r) :
    r = actual ++ netPins nets ∧ (r.map Prod.fst).Nodup := by
  induction nets generalizing actual with
  | nil =>
    cases h
    exact ⟨(List.append_nil _).symm, hactual⟩
  | cons net nets ih =>
    rw [loadActual] at h
    rw [netPins, List.flatMap_cons]
    cases hskip : net.skipped with
    | true =>
      rw [hskip, if_pos rfl] at h
      exact ih hactual h
    | false =>
      rw [hskip, if_neg Bool.false_ne_true] at h
      cases hload : loadNodes (normalizeNet net.name) actual net.nodes with
      | error e =>
        rw [hload] at h
        cases h
      | ok next =>
        rw [hload] at h
        obtain ⟨rfl, hnext⟩ := loadNodes_ok hactual hload
        obtain ⟨rfl, hnodup⟩ := ih hnext h
        exact ⟨by simp [netPins], hnodup⟩

/-- With distinct references every pin is its own key. -/
theorem Manifest.nodup_pins {m : Manifest} (hrefs : (m.components.map Prod.fst).Nodup) :
    (m.pins.map Prod.fst).Nodup := by
  rw [Manifest.pins, List.map_flatMap, List.nodup_flatMap]
  constructor
  · intro component _
    rw [List.map_map]
    refine (component.2.nodup.of_map _).map_on ?_
    intro p hp q hq heq
    exact List.inj_on_of_nodup_map component.2.nodup hp hq (congrArg Endpoint.pin heq)
  · refine (List.pairwise_map.mp hrefs).imp ?_
    intro c d hne endpoint hc hd
    simp only [List.map_map, List.mem_map, Function.comp_apply] at hc hd
    obtain ⟨p, -, rfl⟩ := hc
    obtain ⟨q, -, heq⟩ := hd
    exact hne (congrArg Endpoint.ref heq).symm

/-- Distinct keys are never overwritten. -/
theorem foldl_setItem {acc pins : List (Endpoint × String)}
    (h : ((acc ++ pins).map Prod.fst).Nodup) :
    pins.foldl (fun expected pin =>
        if excluded pin.2 then expected else setItem expected pin.1 pin.2) acc
      = acc ++ pins.filter fun pin => !excluded pin.2 := by
  induction pins generalizing acc with
  | nil => exact (List.append_nil acc).symm
  | cons pin pins ih =>
    rw [List.foldl_cons, List.filter_cons]
    cases hexcluded : excluded pin.2 with
    | true =>
      rw [if_pos rfl]
      refine ih (h.sublist ?_)
      exact (List.sublist_cons_self ..).append_left acc |>.map _
    | false =>
      have hfresh : pin.1 ∉ acc.map Prod.fst := by
        intro hmem
        rw [List.map_append] at h
        exact List.disjoint_of_nodup_append h hmem (List.mem_cons_self ..)
      rw [if_neg Bool.false_ne_true, setItem, if_neg hfresh, ih (by simpa using h)]
      simp

/-- The checked pins of the manifest. -/
theorem expectedEndpoints_eq {m : Manifest} (hrefs : (m.components.map Prod.fst).Nodup) :
    expectedEndpoints m = m.pins.filter fun pin => !excluded pin.2 := by
  rw [expectedEndpoints, foldl_setItem, List.nil_append]
  exact m.nodup_pins hrefs

/-- When nothing is raised, every checked pin is an inspected node under its own net, and
no endpoint is inspected twice. -/
theorem validate_ok {m : Manifest} {nets : List NetElement} {r : List (Endpoint × String)}
    (hrefs : (m.components.map Prod.fst).Nodup) (h : validate m nets = .ok r) :
    ((netPins nets).map Prod.fst).Nodup ∧
      ∀ pin ∈ m.pins, excluded pin.2 = false → pin ∈ netPins nets := by
  rw [validate] at h
  cases hload : loadActual [] nets with
  | error e =>
    rw [hload] at h
    cases h
  | ok actual =>
    rw [hload] at h
    have hempty : (([] : List (Endpoint × String)).map Prod.fst).Nodup := List.nodup_nil
    obtain ⟨rfl, hnodup⟩ := loadActual_ok hempty hload
    refine ⟨hnodup, ?_⟩
    intro pin hpin hexcluded
    have herrors : disagreements (expectedEndpoints m) (netPins nets) = [] := by
      by_contra hne
      dsimp only [bind, Except.bind] at h
      rw [if_pos (by simp [hne])] at h
      cases h
    rw [disagreements, List.filterMap_eq_nil_iff] at herrors
    have hmem : pin ∈ sortedItems (expectedEndpoints m) := by
      rw [sortedItems, List.mem_insertionSort, expectedEndpoints_eq hrefs, List.mem_filter]
      exact ⟨hpin, by rw [hexcluded]; rfl⟩
    have hlookup : (netPins nets).lookup pin.1 = some pin.2 := by
      by_contra hne
      have hnone := herrors pin hmem
      dsimp only at hnone
      rw [if_pos hne] at hnone
      cases hnone
    obtain ⟨before, after, heq, -⟩ := List.lookup_eq_some_iff.mp hlookup
    rw [heq]
    exact List.mem_append_right _ (List.mem_cons_self ..)

/-! ## Names and nets

Names are compared, and not nets: two nets with one normalised name pass for one.
-/

/-- The element at an index holds an endpoint. -/
def Holds (nets : List NetElement) (i : Fin nets.length) (pin : Endpoint × String) : Prop :=
  pin.1 ∈ nets[i].nodes

/-- The element at an index is not passed over. -/
def Inspected (nets : List NetElement) (i : Fin nets.length) : Prop := nets[i].skipped = false

/-- The name under which an element is compared. -/
def label (nets : List NetElement) (i : Fin nets.length) : String := normalizeNet nets[i].name

/-- The pins of the manifest that are not on an excluded net. -/
def Checked (m : Manifest) (pin : Endpoint × String) : Prop :=
  pin ∈ m.pins ∧ excluded pin.2 = false

/-- Two different inspected elements with the same normalised name hold checked pins,
and no skipped element holds these two pins together. `normalize_net` makes such
elements of `/VREF` and `VREF` (`validate_kicad_netlist.py:40`). -/
def SplitNet (m : Manifest) (nets : List NetElement) : Prop :=
  LabelledBlocks.Split (Holds nets) (Inspected nets) (label nets) (Checked m)

/-- A skipped element holds checked pins of different nets. -/
def MixedNet (m : Manifest) (nets : List NetElement) : Prop :=
  LabelledBlocks.Mixed (Holds nets) (Inspected nets) (Checked m) Prod.snd

/-- The inspected elements cover the checked pins once each, by name. -/
theorem labelled_of_validate {m : Manifest} {nets : List NetElement}
    {r : List (Endpoint × String)} (hrefs : (m.components.map Prod.fst).Nodup)
    (h : validate m nets = .ok r) :
    LabelledBlocks.Labelled (Holds nets) (Inspected nets) (label nets) (Checked m) Prod.snd := by
  obtain ⟨hnodup, hcover⟩ := validate_ok hrefs h
  constructor
  · rintro pin ⟨hpin, hexcluded⟩
    obtain ⟨net, hnet, hmem⟩ := List.mem_flatMap.mp (hcover pin hpin hexcluded)
    obtain ⟨i, rfl⟩ := List.get_of_mem hnet
    cases hskip : (nets.get i).skipped with
    | true =>
      rw [hskip, if_pos rfl] at hmem
      exact absurd hmem List.not_mem_nil
    | false =>
      rw [hskip, if_neg Bool.false_ne_true] at hmem
      obtain ⟨node, hnode, rfl⟩ := List.mem_map.mp hmem
      exact ⟨i, hskip, hnode, rfl⟩
  · intro pin i j hi hj hpi hpj
    rw [netPins, List.map_flatMap, List.nodup_flatMap] at hnodup
    have hnode : ∀ k : Fin nets.length, Inspected nets k → Holds nets k pin →
        pin.1 ∈ (if nets[k].skipped then [] else
          nets[k].nodes.map fun node => (node, normalizeNet nets[k].name)).map Prod.fst := by
      intro k hk hhold
      rw [hk, if_neg Bool.false_ne_true, List.map_map]
      exact List.mem_map.mpr ⟨pin.1, hhold, rfl⟩
    -- the nodes of two different elements are disjoint
    by_contra hij
    rcases lt_or_gt_of_ne hij with hlt | hlt
    · exact List.pairwise_iff_getElem.mp hnodup.2 i j i.2 j.2 hlt (hnode i hi hpi) (hnode j hj hpj)
    · exact List.pairwise_iff_getElem.mp hnodup.2 j i j.2 i.2 hlt (hnode j hj hpj) (hnode i hi hpi)

/-- When the gate passes, two checked pins share an element exactly when the manifest
names their nets alike, unless a net is split or a skipped element mixes nets. What
the gate has compared are names (`labelled_of_validate`); that this is not the same is
`LabelledBlocks.Labelled.together_iff`. -/
theorem same_net_iff_same_name {m : Manifest} {nets : List NetElement}
    {r : List (Endpoint × String)} (hrefs : (m.components.map Prod.fst).Nodup)
    (h : validate m nets = .ok r) :
    (∀ p q, Checked m p → Checked m q →
        ((∃ net ∈ nets, p.1 ∈ net.nodes ∧ q.1 ∈ net.nodes) ↔ p.2 = q.2)) ↔
      ¬ SplitNet m nets ∧ ¬ MixedNet m nets := by
  have htogether : ∀ p q : Endpoint × String,
      (∃ net ∈ nets, p.1 ∈ net.nodes ∧ q.1 ∈ net.nodes) ↔
        LabelledBlocks.Together (Holds nets) p q := by
    intro p q
    constructor
    · rintro ⟨net, hnet, hp, hq⟩
      obtain ⟨i, rfl⟩ := List.get_of_mem hnet
      exact ⟨i, hp, hq⟩
    · rintro ⟨i, hp, hq⟩
      exact ⟨nets[i], List.getElem_mem .., hp, hq⟩
  simp only [htogether]
  exact (labelled_of_validate hrefs h).together_iff

/-- One board with two resistors on the reference voltage. -/
def vrefManifest : Manifest where
  items := [("main", {
    items := [("R3", ⟨[("2", "VREF")], by decide⟩), ("R4", ⟨[("1", "VREF")], by decide⟩)]
    nodup := by decide })]
  nodup := by decide

/-- A netlist with both resistors on one net. -/
def vrefNets : List NetElement := [⟨"/VREF", [⟨"R3", "2"⟩, ⟨"R4", "1"⟩]⟩]

/-- A netlist with a local net `/VREF` and a global net `VREF`. -/
def splitNets : List NetElement := [⟨"/VREF", [⟨"R3", "2"⟩]⟩, ⟨"VREF", [⟨"R4", "1"⟩]⟩]

theorem same_net_iff_same_name_vref :
    (∀ p q, Checked vrefManifest p → Checked vrefManifest q →
        ((∃ net ∈ vrefNets, p.1 ∈ net.nodes ∧ q.1 ∈ net.nodes) ↔ p.2 = q.2)) ↔
      ¬ SplitNet vrefManifest vrefNets ∧ ¬ MixedNet vrefManifest vrefNets :=
  same_net_iff_same_name (by decide)
    (show validate vrefManifest vrefNets
      = .ok [(⟨"R3", "2"⟩, "VREF"), (⟨"R4", "1"⟩, "VREF")] by decide)

/-- The two nets pass as one, although nothing connects the resistors. -/
theorem split_net_passes :
    (vrefManifest.components.map Prod.fst).Nodup ∧
      validate vrefManifest splitNets = .ok [(⟨"R3", "2"⟩, "VREF"), (⟨"R4", "1"⟩, "VREF")] ∧
      Checked vrefManifest (⟨"R3", "2"⟩, "VREF") ∧ Checked vrefManifest (⟨"R4", "1"⟩, "VREF") ∧
      ¬ ∃ net ∈ splitNets, ⟨"R3", "2"⟩ ∈ net.nodes ∧ ⟨"R4", "1"⟩ ∈ net.nodes :=
  ⟨by decide, by decide, ⟨by decide, by decide⟩, ⟨by decide, by decide⟩, by decide⟩

end SpokeSensor.KicadNetlist
