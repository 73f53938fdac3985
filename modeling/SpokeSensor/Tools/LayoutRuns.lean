import SpokeSensor.Tools.LayoutScripts

/-!
# Runs of the layout scripts

From the rules for one script (`LayoutScripts`) to sequences of captures and restores,
with editors that save files between any two operations.

- `changed_authentic`: a script changes the files in use only to a whole copy of a
  template with the digests of the manifest. Templates and manifest may be saved
  between the scripts, but not while one runs (`Undisturbed`): a template that is
  saved between the comparison and the copy (`generate_pcb.py:70–80`) is put back as
  it is.
- `restored_checked`: if no file is saved while a script runs (`Quiet`), and nobody
  but a capture writes the manifest, the board that a restore leaves has passed the
  checks of a capture, and so has the schematic with it.
- `capture_restore`: what has been captured can be restored until the next capture,
  whatever has failed since, and whatever has been saved since but for the templates
  and the manifest.

The run lemmas (`any_holds`, `quiet_holds`, `sameStore_run`) are
`RelyGuarantee.Keeps.run` at the terms of the scripts. `segmentTools` is a small
instance on which the results are applied: a board with one segment.
-/

namespace SpokeSensor.LayoutTemplates

open Interaction Transition RelyGuarantee FileStore LocalServer

variable {E D : Type} {tools : Tools E D} {quiet failure : Prop} {contents : Set ByteArray}
  {choice : Outcome E PyError → Prop} {c : Command} {files v w : Files Path}

/-! ## Every run

A run is a sequence of steps of the current script, of files that are saved, and of
scripts that are started. The rules of `LayoutScripts` are about one script; what they
keep between the scripts is `Sound`, and `RelyGuarantee.Keeps` makes of both an
invariant of the runs.
-/

/-- What the scripts keep. -/
structure Sound (tools : Tools E D) (quiet : Prop) (contents : Set ByteArray)
    (files : Files Path) : Prop where
  recorded : quiet → Recorded tools contents files
  known : Known contents files

/-- The editors do not touch the manifest while a script runs. -/
theorem Rely.recorded (h : Rely quiet contents v w) (hv : Recorded tools contents v) :
    Recorded tools contents w :=
  fun text manifest htext => hv text manifest (h.sameStore.manifest ▸ htext)

/-- Saving a known content keeps the contents known, whatever the file. -/
theorem Known.edit (h : Known contents files) {edit : Edit}
    (hcontent : ∀ content, edit.content = some content → content ∈ contents) :
    Known contents (edit.apply files) := by
  intro path hpath content hc
  rw [Edit.apply] at hc
  by_cases heq : path = edit.path
  · subst heq
    rw [Function.update_self] at hc
    exact hcontent content hc
  · rw [Function.update_of_ne heq] at hc
    exact h path hpath content hc

/-- What the scripts rely on is reflexive and transitive. -/
theorem lawful (c : Command) : (terms tools quiet contents choice True c).Lawful :=
  (working_terms fun _ _ _ => trivial).toLawful

/-- What the scripts keep does not depend on what they rely on. -/
theorem Sound.of_rely (h : Sound tools quiet contents v) {quiet' : Prop}
    (hrely : Rely quiet' contents v w) : Sound tools quiet contents w :=
  ⟨fun hquiet => hrely.recorded (h.recorded hquiet), hrely.known h.known⟩

/-- Every one of the three scripts keeps its terms and leaves what it secures. -/
theorem safe_script [DecidableEq D]
    (hclosed : ∀ content ∈ contents, ∀ n, content.extract 0 n ∈ contents)
    (hcodec : quiet → Codec tools) (hknown : Known contents files) (c : Command) :
    Obeys (host tools) (terms tools quiet contents (fun _ => True) True c)
      (fun _ => Secured tools quiet c) (c.script tools) files := by
  have hterms : Working (terms tools quiet contents (fun _ => True) True c) :=
    working_terms fun _ _ _ => trivial
  cases c with
  | capture capturedUtc => exact safe_capture hterms hclosed trivial hcodec hknown
  | restorePcb => exact safe_restorePcb hterms hclosed hknown (.inl trivial)
  | restoreSchematic => exact safe_restoreSchematic hterms hclosed hknown (.inl trivial)

/-- The scripts one after the other: each leaves the files as the next one may find
them. -/
theorem keeps [DecidableEq D]
    (hclosed : ∀ content ∈ contents, ∀ n, content.extract 0 n ∈ contents)
    (hcodec : quiet → Codec tools) :
    Keeps (world tools) (fun c : Command => (c.script tools).run)
      (terms tools quiet contents (fun _ => True) True) (Sound tools quiet contents)
      (fun c => Ends (terms tools quiet contents (fun _ => True) True c)
        fun _ => Secured tools quiet c) where
  lawful := lawful
  body h := safe_script hclosed hcodec h.known _
  rely h hrely := h.of_rely hrely
  guarantee h hguarantee :=
    ⟨fun hquiet => hguarantee.recorded hquiet (h.recorded hquiet), hguarantee.known h.known⟩

/-- What is saved while a script runs is one of the files in use, or a lock. Templates
and manifest are saved by editors too, but not then; `capture_layout.py` looks for the
locks of these editors before it starts (76–90). -/
def Undisturbed (s : State) : Step E → Prop
  | .act edit => s.running = none ∨ edit.path ∈ Path.working ∨ edit.path.isLock = true
  | _ => True

/-- No file is saved while a script runs. -/
def Quiet (s : State) : Step E → Prop
  | .act edit => s.running = none ∨ edit.path.isLock = true
  | _ => True

/-- A quiet step is undisturbed. -/
theorem Quiet.undisturbed {s : State} {label : Step E} (h : Quiet s label) :
    Undisturbed s label := by
  cases label with
  | act edit => exact h.imp_right .inr
  | _ => trivial

/-- An edit changes one file. -/
theorem Edit.apply_of_ne (edit : Edit) {path : Path} (h : path ≠ edit.path) :
    edit.apply files path = files path :=
  Function.update_of_ne h _ _

/-- An edit of a file in use, or of a lock. -/
theorem Edit.rely (edit : Edit) (hsaved : edit.path ∈ Path.working ∨ edit.path.isLock = true)
    (hquiet : quiet → edit.path.isLock = true)
    (hcontent : ∀ content, edit.content = some content → content ∈ contents) :
    Rely quiet contents files (edit.apply files) where
  kept path hworking hlock := by
    refine edit.apply_of_ne fun heq => ?_
    subst heq
    rcases hsaved with h | h
    · exact hworking h
    · rw [hlock] at h
      cases h
  quiet hq path hlock := by
    refine edit.apply_of_ne fun heq => ?_
    subst heq
    rw [hquiet hq] at hlock
    cases hlock
  known hknown := hknown.edit hcontent

/-- What edits are permitted when. -/
theorem permitted [DecidableEq D] {assertion : Files Path → Prop} {s : State} {label : Step E}
    (hassertion : ∀ edit, label = .act edit → assertion s.world → assertion (edit.apply s.world))
    (hundisturbed : Undisturbed s label)
    (hquiet : ∀ edit, label = .act edit → quiet → s.running ≠ none → edit.path.isLock = true)
    (hcontent : ∀ edit, label = .act edit → ∀ content, edit.content = some content →
      content ∈ contents) :
    Permitted (world tools) (terms tools quiet contents (fun _ => True) True) assertion s
      label := by
  cases label with
  | call c => trivial
  | answer x => exact fun _ _ _ => trivial
  | ret => trivial
  | act edit =>
    rintro v ⟨⟩
    cases hrunning : s.running with
    | none => exact hassertion edit rfl
    | some cp =>
      have hrun : s.running ≠ none := by
        rw [hrunning]
        nofun
      exact edit.rely (hundisturbed.resolve_left hrun) (fun hq => hquiet edit rfl hq hrun)
        (hcontent edit rfl)

/-- What any run keeps in which only files in use are saved while a script runs: known
contents, and at every step the terms of the script that takes it. By the run rule of
`RelyGuarantee`. -/
theorem any_holds [DecidableEq D] {start : Files Path} {labels : List (Step E)} {s : State}
    (hrun : (system tools start).run labels = some s)
    (hundisturbed : ∀ before label t, before ++ [label] <+: labels →
      (system tools start).run before = some t → Undisturbed t label) :
    Holds (world tools) (terms tools False Set.univ (fun _ => True) True)
      (Sound tools False Set.univ)
      (fun c => Ends (terms tools False Set.univ (fun _ => True) True c)
        fun _ => Secured tools False c) s := by
  have hsound : ∀ files, Sound tools False Set.univ files :=
    fun _ => ⟨False.elim, fun _ _ _ _ => trivial⟩
  refine (keeps (fun _ _ _ => Set.mem_univ _) False.elim).run (hsound start) hrun
    fun before label t hinit ht => ?_
  exact permitted (fun _ _ _ => hsound _) (hundisturbed before label t hinit ht)
    (fun _ _ h => h.elim) fun _ _ _ _ => trivial

/-! ## A board with one segment

A board small enough to be followed through a capture and a restore by evaluation, on
which the witnesses below run. A digest is the length of the file, so only the
beginnings of this board are told apart (`segment_distinct`), and KiCad reports no
errors.
-/

/-- A board with one segment. -/
def segmentBoard : ByteArray := "(kicad_pcb\n\t(segment\n\t)\n)".toUTF8

/-- The entries of a manifest, one byte each. -/
def readEntries (content : ByteArray) : Manifest UInt8 where
  capturedUtc := ""
  schematicSha256 := content.get! 0
  pcbSha256 := content.get! 1
  routingSha256 := content.get! 2
  routeTextSha256 := content.get! 3
  preferencesSha256 := content.get! 4
  requiredDrc := ⟨0, 0, true⟩

/-- Files that differ in their lengths, and reports without errors. -/
def segmentTools : Tools Unit UInt8 where
  sha256 content := content.size.toUInt8
  routingSignature _ := some 0
  drcReport _ _ :=
    some "** Found 0 DRC violations **\n** Found 0 unconnected pads **\n".toUTF8
  ercReport _ _ := some " ** ERC messages: 3  Errors 0  Warnings 3\n".toUTF8
  connectivity _ := ByteArray.empty
  kicad :=
    { loads := fun _ => .ok ⟨KicadNetlist.vrefManifest, [], ⟨[], []⟩⟩
      manifestDigest := fun _ => []
      endpointsDigest := fun _ => []
      exportNetlist := fun _ => .ok KicadNetlist.vrefNets }
  decimal c := if c.isDigit then some (c.toNat - 48) else none
  dumps m :=
    ⟨#[m.schematicSha256, m.pcbSha256, m.routingSha256, m.routeTextSha256, m.preferencesSha256]⟩
  loads content :=
    if content.size = 5 then .ok (readEntries content).digests
    else .error (.valueError "Expecting value")

/-- The beginning of a content that is not shorter is the content. -/
theorem extract_of_size_le {content : ByteArray} {n : ℕ} (h : content.size ≤ n) :
    content.extract 0 n = content := by
  rw [← Nat.max_eq_left h]
  exact ByteArray.extract_zero_max_size

/-- The manifest is read as it was written, and a beginning of it as nothing. -/
theorem segment_codec : Codec segmentTools where
  whole m := rfl
  torn m n manifest h := by
    have hsize : (segmentTools.dumps m).size = 5 := rfl
    have hloads : ∀ content, segmentTools.loads content = .ok manifest → content.size = 5 := by
      intro content hcontent
      by_contra hne
      have herror : segmentTools.loads content = .error (.valueError "Expecting value") :=
        if_neg hne
      rw [herror] at hcontent
      cases hcontent
    have hle := hloads _ h
    rw [ByteArray.size_extract, hsize] at hle
    rw [extract_of_size_le (by omega)] at h
    exact (Except.ok.inj h).symm

/-- The beginnings of the board. -/
def segmentContents : Set ByteArray := { content | ∃ n, segmentBoard.extract 0 n = content }

/-- A beginning of a beginning is one of the board. -/
theorem segment_closed :
    ∀ content ∈ segmentContents, ∀ n, content.extract 0 n ∈ segmentContents := by
  rintro _ ⟨m, rfl⟩ n
  rw [ByteArray.extract_extract]
  exact ⟨_, rfl⟩

/-- Beginnings of the same length are the same. -/
theorem segment_distinct : Set.InjOn segmentTools.sha256 segmentContents := by
  rintro _ ⟨m, rfl⟩ _ ⟨n, rfl⟩ h
  have hsize : segmentBoard.size = 25 := by decide +kernel
  have hmin : min m 25 = min n 25 := by
    have hm : (segmentBoard.extract 0 m).size = min m 25 := by
      rw [ByteArray.size_extract, hsize, Nat.sub_zero]
    have hn : (segmentBoard.extract 0 n).size = min n 25 := by
      rw [ByteArray.size_extract, hsize, Nat.sub_zero]
    have hbytes : (min m 25).toUInt8 = (min n 25).toUInt8 := by
      rw [← hm, ← hn]
      exact h
    have hnat := congrArg UInt8.toNat hbytes
    simp only [Nat.toUInt8_eq, UInt8.toNat_ofNat'] at hnat
    omega
  by_cases hm : 25 ≤ m
  · rw [extract_of_size_le (hsize ▸ hm), extract_of_size_le (by omega)]
  · rw [show m = n by omega]

/-- The board has not been saved yet. -/
def segmentFiles : Files Path
  | .schematic => some (segmentBoard.extract 0 3)
  | .preferences => some (segmentBoard.extract 0 2)
  | _ => none

/-- So many operations that complete. -/
def completed (n : ℕ) : List (Step Unit) := List.replicate n (.answer (.completes ()))

/-- Saved are the board and, by an editor that has it open, the template of the board, which the
capture then replaces. -/
def saveLabels : List (Step Unit) :=
  [.act ⟨.board, some segmentBoard⟩, .act ⟨.boardTemplate, some (segmentBoard.extract 0 10)⟩]

/-- The board is saved and captured. -/
def captureLabels : List (Step Unit) :=
  saveLabels ++ .call (.capture "2026-07-30T06:13:09+00:00") :: completed 19

/-- The board is edited. -/
def editLabels : List (Step Unit) := [.ret, .act ⟨.board, some (segmentBoard.extract 0 20)⟩]

/-- What the script has ended with. -/
def ended (s : State) : Option (Command × Except PyError Unit) :=
  match s.running with
  | some (c, .done result) => some (c, result)
  | _ => none

/-- The script that has ended is the one that runs. -/
theorem running_of_ended {s : State} {c : Command} {result : Except PyError Unit}
    (h : ended s = some (c, result)) : s.running = some (c, .done result) := by
  rw [ended] at h
  split at h
  · next hrunning =>
    cases h
    exact hrunning
  · cases h

/-- The capture succeeds. -/
theorem segment_captured : ∃ s, (system segmentTools segmentFiles).run captureLabels = some s ∧
    s.running = some (.capture "2026-07-30T06:13:09+00:00", .done (.ok ())) := by
  have hended : ((system segmentTools segmentFiles).run captureLabels).map ended
      = some (some (.capture "2026-07-30T06:13:09+00:00", .ok ())) := by
    decide +kernel
  obtain ⟨s, hrun, hs⟩ := Option.map_eq_some_iff.mp hended
  exact ⟨s, hrun, running_of_ended hs⟩

/-- An answer or a call is quiet, and so is what is saved while no script runs. -/
theorem segment_quiet (before : List (Step Unit)) (label : Step Unit) (t : State)
    (hlabels : before ++ [label] <+: captureLabels)
    (ht : (system segmentTools segmentFiles).run before = some t) : Quiet t label := by
  rcases System.prefix_concat_append hlabels with hsave | ⟨rest, rfl, hrest⟩
  · match before, hsave with
    | [], hsave =>
      obtain ⟨rfl, -⟩ := List.cons_prefix_cons.mp hsave
      cases ht
      exact .inl rfl
    | [first], hsave =>
      obtain ⟨rfl, hlast⟩ := List.cons_prefix_cons.mp hsave
      obtain ⟨rfl, -⟩ := List.cons_prefix_cons.mp hlast
      cases ht
      exact .inl rfl
    | first :: second :: before, hsave =>
      have hlength := hsave.length_le
      simp [saveLabels] at hlength
  · have hmem := hrest.subset (List.mem_append_right _ (List.mem_singleton_self label))
    rcases List.mem_cons.mp hmem with rfl | hmem
    · trivial
    · rw [List.eq_of_mem_replicate hmem]
      trivial

/-- The board may be saved at any time, and all the rest are answers and calls. -/
theorem edit_undisturbed {n : ℕ} {before : List (Step Unit)} {label : Step Unit} {t : State}
    (hlabels : before ++ [label] <+: editLabels ++ .call .restorePcb :: completed n) :
    Undisturbed t label := by
  have hmem := hlabels.subset (List.mem_append_right _ (List.mem_singleton_self label))
  cases label with
  | act edit =>
    obtain rfl : edit = ⟨.board, some (segmentBoard.extract 0 20)⟩ := by
      simpa [editLabels, completed] using hmem
    exact .inr (.inl (by decide))
  | _ => trivial

/-! ## What the files hold

The first result is about any run in which no template or manifest is saved during a
script: whatever fails, no file in use is ever replaced by anything but what the
manifest vouches for. The second is about quiet runs, where what has been put in place
is still there when the script ends.
-/

/-- A step that is not an edit changes a file in use only to a whole copy of its template that
has the digests of the manifest, whatever fails, whatever is saved between the scripts, and
whatever is saved in the files in use while a script runs. A template that is saved while
`generate_pcb.py` runs, between its comparison with the manifest and the copy
(`generate_pcb.py:70–80`), would be put in the place of the board as it is. -/
theorem changed_authentic [DecidableEq D] {start : Files Path}
    {labels : List (Step E)} {label}
    {s t : State}
    (hrun : (system tools start).run labels = some s)
    (hundisturbed : ∀ before label t, before ++ [label] <+: labels →
      (system tools start).run before = some t → Undisturbed t label)
    (hstep : (system tools start).step s label = some t) {path : Path}
    (hpath : path ∈ Path.working) (hchanged : t.world path ≠ s.world path) :
    (∃ edit, label = .act edit) ∨ Authentic tools t.world path := by
  have hholds := any_holds hrun hundisturbed
  have hstep : Interaction.step (world tools) (fun c : Command => (c.script tools).run) s label
    = some t := hstep
  cases label with
  | act edit => exact .inl ⟨edit, rfl⟩
  | call c =>
    refine absurd ?_ hchanged
    obtain ⟨w, running, rs⟩ := s
    cases running with
    | none => cases hstep; rfl
    | some cp => cases hstep
  | ret =>
    obtain ⟨c, a, rfl, -⟩ := hholds.returned lawful hstep
    exact absurd rfl hchanged
  | answer x =>
    obtain ⟨c, q, next, p, -, -, hguarantee⟩ :=
      hholds.guarantee lawful hstep fun _ _ _ => trivial
    exact .inr (hguarantee.working path hpath hchanged).2

/-- The restore of the edited board, up to the replacement. -/
theorem changed_authentic_segment : ∃ s t,
    (system segmentTools segmentFiles).run
      (captureLabels ++ (editLabels ++ .call .restorePcb :: completed 10)) = some s ∧
    (system segmentTools segmentFiles).step s (.answer (.completes ())) = some t ∧
    t.world .board ≠ s.world .board ∧ Authentic segmentTools t.world .board := by
  have hboards : ((system segmentTools segmentFiles).run
      (captureLabels ++ (editLabels ++ .call .restorePcb :: completed 10))).bind (fun s =>
        ((system segmentTools segmentFiles).step s (.answer (.completes ()))).map fun t =>
          decide (t.world .board ≠ s.world .board)) = some true := by
    decide +kernel
  obtain ⟨s, hrun, hs⟩ := Option.bind_eq_some_iff.mp hboards
  obtain ⟨t, hstep, ht⟩ := Option.map_eq_some_iff.mp hs
  have hchanged := of_decide_eq_true ht
  refine ⟨s, t, hrun, hstep, hchanged, ?_⟩
  have hundisturbed : ∀ before label t,
      before ++ [label] <+: captureLabels ++ (editLabels ++ .call .restorePcb :: completed 10) →
      (system segmentTools segmentFiles).run before = some t → Undisturbed t label := by
    intro before label t hlabels ht
    rcases System.prefix_concat_append hlabels with hcapture | ⟨rest, rfl, hrest⟩
    · exact (segment_quiet before label t hcapture ht).undisturbed
    · exact edit_undisturbed hrest
  refine (changed_authentic hrun hundisturbed hstep (by decide) hchanged).resolve_left ?_
  rintro ⟨edit, hlabel⟩
  cases hlabel

/-- What a run keeps that is quiet and whose manifest only captures write. -/
theorem quiet_holds [DecidableEq D] (hcodec : Codec tools)
    (hclosed : ∀ content ∈ contents, ∀ n, content.extract 0 n ∈ contents) {start : Files Path}
    (hstart : Recorded tools contents start) (hknown : Known contents start)
    {labels : List (Step E)}
    {s : State}
    (hrun : (system tools start).run labels = some s)
    (hmanifest : ∀ edit, .act edit ∈ labels → edit.path ≠ .manifest)
    (hsaved : ∀ edit, .act edit ∈ labels → ∀ content, edit.content = some content →
      content ∈ contents)
    (hquiet : ∀ before label t, before ++ [label] <+: labels →
      (system tools start).run before = some t → Quiet t label) :
    Holds (world tools) (terms tools True contents (fun _ => True) True)
      (Sound tools True contents) (fun c => Ends (terms tools True contents (fun _ => True) True c)
        fun _ => Secured tools True c) s := by
  refine (keeps hclosed fun _ => hcodec).run ⟨fun _ => hstart, hknown⟩ hrun
    fun before label t hinit ht => ?_
  have hmem : label ∈ labels := hinit.subset (List.mem_append_right _ List.mem_cons_self)
  have hq := hquiet before label t hinit ht
  refine permitted (fun edit hlabel h => ⟨fun hquiet => ?_, ?_⟩) hq.undisturbed
    (fun edit hlabel _ hrunning => ?_) fun edit hlabel content hcontent => ?_ <;> subst hlabel
  · intro text manifest htext
    rw [edit.apply_of_ne (hmanifest edit hmem).symm] at htext
    exact h.recorded hquiet text manifest htext
  · exact h.known.edit (hsaved edit hmem)
  · exact hq.resolve_left hrunning
  · exact hsaved edit hmem content hcontent

/-- A script that succeeds on a quiet run leaves files that are those of the manifest, and those
of the board and the schematic that are have passed the checks of one capture together. The
manifest at the start is a capture's, or there is none; between the scripts anything but the
manifest may be saved. -/
theorem restored_checked [DecidableEq D] (hcodec : Codec tools)
    (hclosed : ∀ content ∈ contents, ∀ n, content.extract 0 n ∈ contents)
    (hdistinct : Set.InjOn tools.sha256 contents) {start : Files Path}
    (hstart : Recorded tools contents start) (hknown : Known contents start)
    {labels : List (Step E)}
    {s : State}
    (hrun : (system tools start).run labels = some s)
    (hmanifest : ∀ edit, .act edit ∈ labels → edit.path ≠ .manifest)
    (hsaved : ∀ edit, .act edit ∈ labels → ∀ content, edit.content = some content →
      content ∈ contents)
    (hquiet : ∀ before label t, before ++ [label] <+: labels →
      (system tools start).run before = some t → Quiet t label)
    {c : Command} (hreturns : s.running = some (c, .done (.ok ()))) :
    (∀ path ∈ c.secures, Authentic tools s.world path) ∧
      ∃ board schematic, Checked tools board schematic ∧
        (Authentic tools s.world .board → s.world .board = some board) ∧
          (Authentic tools s.world .schematic → s.world .schematic = some schematic) := by
  have hholds := quiet_holds hcodec hclosed hstart hknown hrun hmanifest hsaved hquiet
  have hsecured : ∀ path ∈ c.secures, Authentic tools s.world path :=
    hholds.safe c _ hreturns s.world (rely_refl _) trivial
  refine ⟨hsecured, ?_⟩
  obtain ⟨path, hpath⟩ : ∃ path, path ∈ c.secures := by
    cases c with
    | capture capturedUtc => exact ⟨_, List.mem_cons_self⟩
    | restorePcb => exact ⟨_, List.mem_cons_self⟩
    | restoreSchematic => exact ⟨_, List.mem_cons_self⟩
  obtain ⟨_, _, -, text, manifest, htext, hloads, -⟩ := hsecured path hpath
  obtain ⟨m, schematic, board, preferences, hrecords, hschematic, hboard, rfl⟩ :=
    hholds.asserted.recorded trivial text manifest htext hloads
  refine ⟨board, schematic, hrecords.checked, ?_, ?_⟩
  · rintro ⟨content, hcontent, hstored⟩
    obtain ⟨d, hd, hentry⟩ := hstored.meets htext hloads _ List.mem_cons_self
    have hsame : tools.sha256 content = tools.sha256 board := by
      rw [← hrecords.pcbSha256]
      exact Option.some.inj (hd.trans hentry.symm)
    have hmem := hholds.asserted.known _ (by decide) content hcontent
    rw [hcontent, hdistinct hmem hboard hsame]
  · rintro ⟨content, hcontent, hstored⟩
    obtain ⟨d, hd, hentry⟩ := hstored.meets htext hloads _ List.mem_cons_self
    have hsame : tools.sha256 content = tools.sha256 schematic := by
      rw [← hrecords.schematicSha256]
      exact Option.some.inj (hd.trans hentry.symm)
    have hmem := hholds.asserted.known _ (by decide) content hcontent
    rw [hcontent, hdistinct hmem hschematic hsame]

/-- The board and its preferences are captured, and restored after an edit. -/
theorem restored_checked_segment : ∃ s,
    (system segmentTools segmentFiles).run captureLabels = some s ∧
    (∀ path ∈ Path.working, Authentic segmentTools s.world path) ∧
      ∃ board schematic, Checked segmentTools board schematic ∧
        (Authentic segmentTools s.world .board → s.world .board = some board) ∧
          (Authentic segmentTools s.world .schematic → s.world .schematic = some schematic) := by
  obtain ⟨s, hrun, hreturns⟩ := segment_captured
  have hstart : Recorded segmentTools segmentContents segmentFiles := by
    rintro text manifest ⟨⟩
  have hknown : Known segmentContents segmentFiles := by
    intro path _ content hcontent
    cases path <;> cases hcontent <;> exact ⟨_, rfl⟩
  have hedits : ∀ edit, .act edit ∈ captureLabels →
      edit = ⟨.board, some segmentBoard⟩
        ∨ edit = ⟨.boardTemplate, some (segmentBoard.extract 0 10)⟩ := by
    intro edit hedit
    simpa [captureLabels, saveLabels, completed] using hedit
  have hmanifest : ∀ edit, .act edit ∈ captureLabels → edit.path ≠ .manifest := by
    intro edit hedit
    rcases hedits edit hedit with rfl | rfl <;> decide
  have hsaved : ∀ edit, .act edit ∈ captureLabels → ∀ content, edit.content = some content →
      content ∈ segmentContents := by
    intro edit hedit content hcontent
    rcases hedits edit hedit with rfl | rfl <;> cases hcontent
    · exact ⟨_, ByteArray.extract_zero_size⟩
    · exact ⟨_, rfl⟩
  exact ⟨s, hrun, restored_checked segment_codec segment_closed segment_distinct hstart hknown hrun
    hmanifest hsaved segment_quiet hreturns⟩

/-! ## From a capture to a restore

A capture fixes what a later restore brings back, provided that the templates and the
manifest stay in between. They are changed by captures only (`sameStore_run`), so what
counts is that no capture comes between and that no editor saves one of them.
-/

/-- An edit of another file. -/
theorem sameStore_edit {edit : Edit} (hkept : edit.path ∉ Path.stored) :
    SameStore files (edit.apply files) := by
  have hstored : ∀ path ∈ Path.working, path.template ∈ Path.stored := by decide
  refine ⟨fun path hpath => edit.apply_of_ne fun heq => hkept ?_,
    edit.apply_of_ne fun heq => hkept ?_⟩
  · exact heq ▸ hstored path hpath
  · exact heq ▸ (by decide : Path.manifest ∈ Path.stored)

/-- Only a capture changes the templates and the manifest, where nobody else does. -/
theorem sameStore_run [DecidableEq D] {start : Files Path} {labels after : List (Step E)}
    {s t : State} (hrun : (system tools start).run labels = some s)
    (hundisturbed : ∀ before label t, before ++ [label] <+: labels ++ after →
      (system tools start).run before = some t → Undisturbed t label)
    (hkept : ∀ edit, .act edit ∈ after → edit.path ∉ Path.stored)
    (hdone : ∀ capturedUtc p, s.running = some (.capture capturedUtc, p) → ∃ a, p = .done a)
    (hafter : ∀ capturedUtc, .call (.capture capturedUtc) ∉ after)
    (ht : (system tools start).run (labels ++ after) = some t) :
    SameStore s.world t.world ∧
      ∀ capturedUtc p, t.running = some (.capture capturedUtc, p) → ∃ a, p = .done a := by
  induction after using List.reverseRecOn generalizing t with
  | nil =>
    rw [List.append_nil, hrun] at ht
    cases ht
    exact ⟨⟨fun _ _ => rfl, rfl⟩, hdone⟩
  | append_singleton after label ih =>
    rw [← List.append_assoc] at ht hundisturbed
    have hbefore := fun before label t (h : before ++ [label] <+: labels ++ after) =>
      hundisturbed before label t (h.trans (List.prefix_append ..))
    obtain ⟨u, hu, hstep⟩ := System.run_concat_eq_some ht
    obtain ⟨hsame, hdone'⟩ := ih hbefore (fun edit h => hkept edit (List.mem_append_left _ h))
      (fun capturedUtc h => hafter capturedUtc (List.mem_append_left _ h)) hu
    have hlabel := fun capturedUtc h => hafter capturedUtc (List.mem_append_right _ h)
    have hholds := any_holds hu hbefore
    have hstep : Interaction.step (world tools) (fun c : Command => (c.script tools).run) u label
      = some t := hstep
    cases label with
    | call c =>
      obtain ⟨w, running, rs⟩ := u
      cases running with
      | some cp => cases hstep
      | none =>
        cases hstep
        refine ⟨hsame, ?_⟩
        rintro capturedUtc p ⟨⟩
        exact absurd (List.mem_singleton_self _) (hlabel capturedUtc)
    | ret =>
      obtain ⟨c, a, rfl, -⟩ := hholds.returned lawful hstep
      exact ⟨hsame, nofun⟩
    | act edit =>
      cases hstep
      have hother := hkept edit (List.mem_append_right _ (List.mem_singleton_self _))
      exact ⟨hsame.trans (sameStore_edit hother), hdone'⟩
    | answer x =>
      obtain ⟨c, q, next, p, hrunning, hnext, hguarantee⟩ :=
        hholds.guarantee lawful hstep fun _ _ _ => trivial
      have hc : ∀ capturedUtc, c ≠ .capture capturedUtc := by
        rintro capturedUtc rfl
        obtain ⟨a, ha⟩ := hdone' capturedUtc _ hrunning
        cases ha
      obtain ⟨htemplate, hmanifest⟩ := hguarantee.stored hc
      refine ⟨hsame.trans ⟨htemplate, hmanifest⟩, fun capturedUtc p' hp' => ?_⟩
      rw [hnext] at hp'
      cases hp'
      exact absurd rfl (hc capturedUtc)

/-- The operation completes. -/
def Completes (x : Outcome E PyError) : Prop := ∃ environment, x = .completes environment

/-- The terms of a script none of whose operations fails. -/
theorem working_completes : Working (terms tools True Set.univ Completes False c) := by
  refine working_terms fun error written => ?_
  rintro ⟨environment, h⟩
  cases h

/-- A restore that nothing disturbs, where what it needs is there. -/
theorem safe_restore [DecidableEq D] (hc : ∀ capturedUtc, c ≠ .capture capturedUtc)
    (hstored : ∀ path ∈ c.installs, ∃ content, Stored tools files path content) :
    Obeys (host tools) (terms tools True Set.univ Completes False c)
      (fun _ => Secured tools True c) (c.script tools) files := by
  have hclosed : ∀ content ∈ (Set.univ : Set ByteArray), ∀ n, content.extract 0 n ∈ Set.univ :=
    fun _ _ _ => Set.mem_univ _
  have hknown : Known Set.univ files := fun _ _ _ _ => Set.mem_univ _
  cases c with
  | capture capturedUtc => exact absurd rfl (hc capturedUtc)
  | restorePcb =>
    exact safe_restorePcb working_completes hclosed hknown (.inr ⟨trivial, hstored⟩)
  | restoreSchematic =>
    exact safe_restoreSchematic working_completes hclosed hknown (.inr ⟨trivial, hstored⟩)

/-- A capture that succeeds on a quiet run leaves the files in use in the templates. -/
theorem captured_authentic [DecidableEq D] (hcodec : Codec tools) {start : Files Path}
    {labels : List (Step E)} {s : State} (hrun : (system tools start).run labels = some s)
    (hquiet : ∀ before label t, before ++ [label] <+: labels →
      (system tools start).run before = some t → Quiet t label)
    (hreturns : s.running = some (c, .done (.ok ()))) :
    ∀ path ∈ c.secures, Authentic tools s.world path := by
  have hclosed : ∀ content ∈ (Set.univ : Set ByteArray), ∀ n, content.extract 0 n ∈ Set.univ :=
    fun _ _ _ => Set.mem_univ _
  have hkeeps : Keeps (world tools) (fun c : Command => (c.script tools).run)
      (terms tools True Set.univ (fun _ => True) True) (fun _ => True)
      (fun c => Ends (terms tools True Set.univ (fun _ => True) True c)
        fun _ => Secured tools True c) := by
    refine ⟨lawful, fun _ => ?_, fun _ _ => trivial, fun _ _ => trivial⟩
    exact safe_script hclosed (fun _ => hcodec) (fun _ _ _ _ => Set.mem_univ _) _
  have hholds := hkeeps.run trivial hrun fun before label t hinit ht =>
    permitted (fun _ _ _ => trivial) (hquiet before label t hinit ht).undisturbed
      (fun edit hlabel _ hrunning => by
        subst hlabel
        exact (hquiet before _ t hinit ht).resolve_left hrunning) fun _ _ _ _ => Set.mem_univ _
  exact hholds.safe c _ hreturns s.world (rely_refl _) trivial

theorem Command.installs_working (hc : ∀ capturedUtc, c ≠ .capture capturedUtc) :
    ∀ path ∈ c.installs, path ∈ Path.working := by
  cases c with
  | capture capturedUtc => exact absurd rfl (hc capturedUtc)
  | restorePcb => decide
  | restoreSchematic => decide

/-- A restore secures what it installs. -/
theorem Command.installs_secures (hc : ∀ capturedUtc, c ≠ .capture capturedUtc) :
    ∀ path ∈ c.installs, path ∈ c.secures := by
  cases c with
  | capture capturedUtc => exact absurd rfl (hc capturedUtc)
  | restorePcb => exact fun _ h => h
  | restoreSchematic => exact fun _ h => h

/-- The steps of a restore whose operations complete and that nothing disturbs. -/
theorem restore_steps {answers : List (Step E)}
    (hanswers : ∀ label ∈ answers, ∃ environment, label = .answer (.completes environment)) :
    ∀ label ∈ Label.call c :: answers,
      label = .call c ∨ ∃ environment, label = .answer (.completes environment) := by
  intro label hlabel
  rcases List.mem_cons.mp hlabel with rfl | hmem
  · exact .inl rfl
  · exact .inr (hanswers label hmem)

/-- Such a restore succeeds where what it needs is there, and leaves what it secures. -/
theorem restore_secures [DecidableEq D] {start : Files Path} {labels answers : List (Step E)}
    {t u : State} (ht : (system tools start).run labels = some t)
    (hc : ∀ capturedUtc, c ≠ .capture capturedUtc)
    (hstored : ∀ path ∈ c.installs, ∃ content, Stored tools t.world path content)
    (hanswers : ∀ label ∈ answers, ∃ environment, label = .answer (.completes environment))
    (hu : (system tools start).run (labels ++ .call c :: answers) = some u)
    {result : Except PyError Unit} (hreturns : u.running = some (c, .done result)) :
    result = .ok () ∧ Secured tools True c u.world := by
  have hanswered : ∃ q, u.running = some (c, q) ∧ Safe (host tools).answer
      (terms tools True Set.univ Completes False c)
      (Ends (terms tools True Set.univ Completes False c) fun _ => Secured tools True c)
      q u.world := by
    rw [← List.singleton_append, System.run_append, ht, Option.bind_some, System.run_append] at hu
    obtain ⟨t', ht', hlast⟩ := Option.bind_eq_some_iff.mp hu
    have hcall : Interaction.step (world tools) (fun c : Command => (c.script tools).run) t
      (.call c) = some t' := ht'
    obtain ⟨w, running, rs⟩ := t
    cases running with
    | some cp => cases hcall
    | none =>
      cases hcall
      refine (safe_restore hc hstored).answers working_completes.toLawful (fun label hlabel => ?_)
        hlast
      obtain ⟨environment, rfl⟩ := hanswers label hlabel
      exact ⟨_, rfl, environment, rfl⟩
  obtain ⟨q, hq, hsafe⟩ := hanswered
  rw [hreturns] at hq
  cases hq
  have hends := hsafe u.world (rely_refl _)
  cases result with
  | error e => exact hends.elim
  | ok _ => exact ⟨rfl, hends⟩

/-- What a quiet capture has captured is put back by a restore whose operations complete and that
nothing disturbs, whatever has failed since, and whatever has been saved since but for the
templates and the manifest. -/
theorem capture_restore [DecidableEq D] (hcodec : Codec tools) {start : Files Path}
    {labels between answers : List (Step E)} {s t u : State}
    (hcapture : (system tools start).run labels = some s)
    (hquiet : ∀ before label t, before ++ [label] <+: labels →
      (system tools start).run before = some t → Quiet t label)
    {capturedUtc : String} (hcaptured : s.running = some (.capture capturedUtc, .done (.ok ())))
    (hbetween : (system tools start).run (labels ++ between) = some t)
    (hundisturbed : ∀ before label t, before ++ [label] <+: between →
      (system tools start).run (labels ++ before) = some t → Undisturbed t label)
    (hkept : ∀ edit, .act edit ∈ between → edit.path ∉ Path.stored)
    (hnone : ∀ capturedUtc, .call (.capture capturedUtc) ∉ between)
    (hc : ∀ capturedUtc, c ≠ .capture capturedUtc)
    (hanswers : ∀ label ∈ answers, ∃ environment, label = .answer (.completes environment))
    (hrestore : (system tools start).run (labels ++ (between ++ .call c :: answers)) = some u)
    {result : Except PyError Unit} (hreturns : u.running = some (c, .done result)) :
    result = .ok () ∧ ∀ path ∈ c.installs, u.world path = s.world path := by
  have hauthentic := captured_authentic hcodec hcapture hquiet hcaptured
  have hdone : ∀ capturedUtc p, s.running = some (.capture capturedUtc, p) → ∃ a, p = .done a := by
    intro utc p hp
    rw [hcaptured] at hp
    cases hp
    exact ⟨_, rfl⟩
  have hsince : ∀ before label t, before ++ [label] <+: labels ++ between →
      (system tools start).run before = some t → Undisturbed t label := by
    intro before label t hinit ht
    rcases System.prefix_concat_append hinit with hfirst | ⟨rest, rfl, hrest⟩
    · exact (hquiet before label t hfirst ht).undisturbed
    · exact hundisturbed rest label t hrest ht
  -- from the capture to the restore, and on to its end
  obtain ⟨hsame, hdone'⟩ := sameStore_run hcapture hsince hkept hdone hnone hbetween
  rw [← List.append_assoc] at hrestore
  have hsteps := restore_steps (c := c) hanswers
  obtain ⟨hsame', -⟩ := sameStore_run hbetween (fun before label t hinit ht => by
      rcases System.prefix_concat_append hinit with hfirst | ⟨rest, rfl, hrest⟩
      · exact hsince before label t hfirst ht
      · have hmem := hrest.subset (List.mem_append_right _ (List.mem_singleton_self _))
        obtain rfl | ⟨environment, rfl⟩ := hsteps label hmem <;> trivial)
    (fun edit hmem => by obtain h | ⟨environment, h⟩ := hsteps _ hmem <;> cases h) hdone'
    (fun utc hmem => by
      obtain h | ⟨environment, h⟩ := hsteps _ hmem <;> cases h
      exact hc utc rfl) hrestore
  have hstore := hsame.trans hsame'
  have hstored : ∀ path ∈ c.installs, ∃ content, Stored tools t.world path content := by
    intro path hpath
    have hmem := Command.installs_working hc path hpath
    obtain ⟨content, -, hstored⟩ := hauthentic path hmem
    exact ⟨content, hstored.of_same hmem hsame⟩
  obtain ⟨rfl, hsecured⟩ := restore_secures hbetween hc hstored hanswers hrestore hreturns
  refine ⟨rfl, fun path hpath => ?_⟩
  have hmem := Command.installs_working hc path hpath
  obtain ⟨content, hcontent, hstored⟩ := hauthentic path hmem
  obtain ⟨content', hcontent', hstored'⟩ :=
    hsecured trivial path (Command.installs_secures hc path hpath)
  have htemplate := (hstore.template path hmem).trans hstored.template
  rw [hstored'.template] at htemplate
  rw [hcontent, hcontent', htemplate]

/-- The board is captured, edited and restored: it is the one that was captured. -/
theorem capture_restore_segment : ∃ s u,
    (system segmentTools segmentFiles).run captureLabels = some s ∧
    (system segmentTools segmentFiles).run
      (captureLabels ++ (editLabels ++ .call .restorePcb :: completed 17)) = some u ∧
    ∀ path ∈ [Path.board, .preferences], u.world path = s.world path := by
  obtain ⟨s, hrun, hcaptured⟩ := segment_captured
  have hended : ((system segmentTools segmentFiles).run
      (captureLabels ++ (editLabels ++ .call .restorePcb :: completed 17))).map ended
      = some (some (.restorePcb, .ok ())) := by
    decide +kernel
  obtain ⟨u, hu, hended⟩ := Option.map_eq_some_iff.mp hended
  obtain ⟨t, ht, -⟩ := Option.bind_eq_some_iff.mp
    ((System.run_append ..).symm.trans ((congrArg _ (List.append_assoc ..)).trans hu))
  have hnone : ∀ capturedUtc, .call (.capture capturedUtc) ∉ editLabels := by
    intro capturedUtc h
    simp only [editLabels, List.mem_cons, List.not_mem_nil, or_false] at h
    rcases h with h | h <;> cases h
  have hanswers : ∀ label ∈ completed 17, ∃ environment,
      label = .answer (.completes environment) :=
    fun label hlabel => ⟨(), List.eq_of_mem_replicate hlabel⟩
  have hc : ∀ capturedUtc, Command.restorePcb ≠ .capture capturedUtc := by
    intro capturedUtc h
    cases h
  have hkept : ∀ edit, .act edit ∈ editLabels → edit.path ∉ Path.stored := by
    intro edit hedit
    obtain rfl : edit = ⟨.board, some (segmentBoard.extract 0 20)⟩ := by
      simpa [editLabels] using hedit
    decide
  exact ⟨s, u, hrun, hu, (capture_restore segment_codec hrun segment_quiet hcaptured ht
    (fun before label t hinit _ => edit_undisturbed (n := 0) (hinit.trans (List.prefix_append ..)))
    hkept hnone hc hanswers hu (running_of_ended hended)).2⟩

end SpokeSensor.LayoutTemplates
