import SpokeSensor.Tools.LayoutTemplates

/-!
# The layout scripts among editors

What each operation of `capture_layout.py`, `generate_pcb.py` and
`generate_schematic.py` does while others save files of the directory, as rules of
rely and guarantee (`RelyGuarantee`, `FileStore`).

- `Rely`: what a script may count on of the others: while it runs they change the
  files in use and the locks at most, and on a quiet run only the locks.
- `Guarantee`: what an operation of a script does itself. A file in use is replaced
  only by a whole copy of its template that has the digests of the manifest, and only
  a capture writes the templates and the manifest.
- `safe_install` (`generate_pcb.py:79–84`): a temporary copy is made, which then
  replaces the file. It may fail in between, and the file is as it was.
- `safe_restorePcb`, `safe_restoreSchematic`: the whole of a restore. What it has
  compared with the manifest is what it puts back, as long as the templates stay.
- `safe_copyTemplates`, `safe_capture` (`capture_layout.py:76–174`): the whole of a
  capture. When it succeeds, the templates and the manifest are those of files that
  have passed the checks together.
- `Secured`: what a script that has succeeded leaves on a quiet run.

Each rule takes what comes after the operation as its last premise, so a script is
proved from its end.
-/

namespace SpokeSensor.LayoutTemplates

open Interaction Transition RelyGuarantee FileStore LocalServer

variable {E D : Type} (tools : Tools E D)

/-! ## What the scripts and the editors rely on

The three scripts share their files with KiCad and with each other's leftovers. What
one of them may count on is `Rely`, and what each of its operations does to the files
is `Guarantee`; both are relations between the files before and after, closed under
repetition, as the rules of `RelyGuarantee` ask for.
-/

/-- Every file but the manifest holds one of these contents. Digests need to tell
contents apart only within such a set, and it is closed under what the scripts do. -/
def Known (contents : Set ByteArray) (files : Files Path) : Prop :=
  ∀ path, path ≠ .manifest → ∀ content, files path = some content → content ∈ contents

/-- What happens while a script runs: at most the files in use and the locks change,
on a quiet run only the locks, and the contents stay known. -/
structure Rely (quiet : Prop) (contents : Set ByteArray) (v w : Files Path) : Prop where
  kept : ∀ path, path ∉ Path.working → path.isLock = false → w path = v path
  quiet : quiet → ∀ path, path.isLock = false → w path = v path
  known : Known contents v → Known contents w

/-- What an operation of a script does: a file in use changes only to an authentic
copy, a restore leaves the templates and the manifest alone, and on a quiet run the
manifest stays that of a capture. -/
structure Guarantee (quiet : Prop) (contents : Set ByteArray) (c : Command) (v w : Files Path) :
    Prop where
  working : ∀ path ∈ Path.working, w path ≠ v path → path ∈ c.installs ∧ Authentic tools w path
  stored : (∀ capturedUtc, c ≠ .capture capturedUtc) →
    (∀ path ∈ Path.working, w path.template = v path.template) ∧ w .manifest = v .manifest
  recorded : quiet → Recorded tools contents v → Recorded tools contents w
  known : Known contents v → Known contents w

/-- The terms of a script: on quiet runs or on all, with contents that are closed
under beginnings (a write may be cut short), and with operations that may fail or not. -/
def terms (quiet : Prop) (contents : Set ByteArray) (choice : Outcome E PyError → Prop)
    (failure : Prop) (c : Command) : Terms (Files Path) (Outcome E PyError) where
  rely := Rely quiet contents
  guarantee := Guarantee tools quiet contents c
  choice := choice
  failure := failure

variable {tools} {quiet failure : Prop} {contents : Set ByteArray}
  {choice : Outcome E PyError → Prop} {c : Command} {files v w : Files Path}

/-- Nothing at all may happen between two operations. -/
theorem rely_refl (files : Files Path) : Rely quiet contents files files :=
  ⟨fun _ _ _ => rfl, fun _ _ _ => rfl, id⟩

/-- What happens in two stretches has happened in one. -/
theorem Rely.trans {u : Files Path} (h : Rely quiet contents u v) (h' : Rely quiet contents v w) :
    Rely quiet contents u w where
  kept path hworking hlock := (h'.kept path hworking hlock).trans (h.kept path hworking hlock)
  quiet hquiet path hlock := (h'.quiet hquiet path hlock).trans (h.quiet hquiet path hlock)
  known hknown := h'.known (h.known hknown)

theorem guarantee_refl (files : Files Path) : Guarantee tools quiet contents c files files :=
  ⟨fun _ _ h => absurd rfl h, fun _ => ⟨fun _ _ => rfl, rfl⟩, fun _ => id, id⟩

/-- The terms are those of a working script: they are closed, an operation may leave
the files alone, and one that fails is a failure that the terms allow. -/
theorem working_terms (hchoice : ∀ error written, choice (.fails error written) → failure) :
    Working (terms tools quiet contents choice failure c) :=
  ⟨⟨rely_refl, Rely.trans⟩, guarantee_refl, hchoice⟩

/-- A copy that is neither of the files in use nor, in a restore, of the templates. -/
def Path.Spare (c : Command) (target : Path) : Prop :=
  target ∉ Path.working ∧ target ≠ .manifest ∧ target.isLock = false ∧
    ((∀ capturedUtc, c ≠ .capture capturedUtc) → ∀ path ∈ Path.working, path.template ≠ target)

/-- A copy into a spare file keeps the guarantee: it touches no file in use, no
template that a restore reads, and not the manifest. -/
theorem guarantee_copy {target : Path} {content : ByteArray} (htarget : target.Spare c)
    (hcontent : content ∈ contents) :
    Guarantee tools quiet contents c files (Function.update files target (some content)) := by
  obtain ⟨hworking, hmanifest, -, htemplate⟩ := htarget
  have hother : ∀ path, path ≠ target →
      Function.update files target (some content) path = files path :=
    fun path hpath => Function.update_of_ne hpath _ _
  refine ⟨fun path hpath hne => ?_, fun hc => ⟨fun path hpath => ?_, ?_⟩, fun _ h => ?_,
    fun hknown path hpath content' hcontent' => ?_⟩
  · exact absurd (hother path fun h => hworking (h ▸ hpath)) hne
  · exact hother _ (htemplate hc path hpath)
  · exact hother _ hmanifest.symm
  · intro text manifest htext
    exact h text manifest ((hother _ hmanifest.symm).symm.trans htext)
  · by_cases heq : path = target
    · subst heq
      rw [Function.update_self] at hcontent'
      exact Option.some.inj hcontent' ▸ hcontent
    · exact hknown path hpath content' ((hother path heq).symm.trans hcontent')

/-- So does a copy that is cut short, since beginnings of known contents are known. -/
theorem guarantee_torn (hclosed : ∀ content ∈ contents, ∀ n, content.extract 0 n ∈ contents)
    {target : Path} {content : ByteArray} (htarget : target.Spare c) (hcontent : content ∈ contents)
    (written : Option ℕ) :
    Guarantee tools quiet contents c files (torn files target content written) := by
  cases written with
  | none => exact guarantee_refl files
  | some n => exact guarantee_copy htarget (hclosed content hcontent n)

/-! ## The rules of the parts

One rule for each helper of the scripts, in the order in which they are used. `g` is
what comes after it in the script, and each rule asks for what `g` needs of the files
that it finds, which others may have saved in between.
-/

section Rules

variable {A B : Type} {post : B → Files Path → Prop}
  (hterms : Working (terms tools quiet contents choice failure c))
include hterms

/-- The digest of a file (`sha256`, `routing_signature`, `route_text_signature`): it
fails where there is no file or no signature of it, and says something about the
content that was read, which need not be there any longer. -/
theorem safe_digestOf {f : ByteArray → Option D} {error : PyError} {path : Path} {g : D → Script B}
    (hfail : ∀ v, Rely quiet contents files v → (v path).bind f = none → failure)
    (h : ∀ v content d, Rely quiet contents files v → v path = some content → f content = some d →
      Obeys (host tools) (terms tools quiet contents choice failure c) post (g d) v) :
    Obeys (host tools) (terms tools quiet contents choice failure c) post
      (digestOf f error path >>= g) files := by
  refine Safe.andThen hterms.toLawful (safe_look hterms fun v hv => ?_)
  cases hd : (v path).bind f with
  | none => exact safe_throw (hfail v hv hd)
  | some d =>
    obtain ⟨content, hcontent, hf⟩ := Option.bind_eq_some_iff.mp hd
    exact safe_pure fun u hu => (h v content d hv hcontent hf).of_rely hterms.toLawful hu

/-- A comparison with the manifest (`generate_pcb.py:70–77, 85–90`,
`generate_schematic.py:28, 34`): the script goes on only if the file that was read has
the digest of the entry. -/
theorem safe_require [DecidableEq D] {f : ByteArray → Option D} {error : PyError} {path : Path}
    {manifest : String → Option D} {key message : String} {g : Unit → Script B}
    (hfail : ∀ v, Rely quiet contents files v →
      (¬ ∃ content, v path = some content ∧ Meets manifest content (key, f)) → failure)
    (h : ∀ v content, Rely quiet contents files v → v path = some content →
      Meets manifest content (key, f) →
      Obeys (host tools) (terms tools quiet contents choice failure c) post (g ()) v) :
    Obeys (host tools) (terms tools quiet contents choice failure c) post
      (require (digestOf f error path) manifest key message >>= g) files := by
  refine Safe.andThen hterms.toLawful (safe_digestOf hterms (fun v hv hnone => ?_)
    fun v content d hv hcontent hd => safe_orRaise (fun e he => ?_) fun expected hexpected => ?_)
  · refine hfail v hv ?_
    rintro ⟨content, hcontent, d, hd : f content = some d, -⟩
    rw [hcontent, Option.bind_some, hd] at hnone
    cases hnone
  · refine hfail v hv ?_
    rintro ⟨content', hcontent', d', hd', hentry : manifest key = some d'⟩
    rw [getEntry, hentry] at he
    cases he
  · have hentry : manifest key = some expected := by
      rw [getEntry] at hexpected
      cases hkey : manifest key with
      | none => rw [hkey] at hexpected; cases hexpected
      | some d' => rw [hkey] at hexpected; cases hexpected; rfl
    by_cases hne : d = expected
    · subst hne
      rw [raiseIf, if_neg (not_not.mpr rfl)]
      exact fun u hu => (h v content hv hcontent ⟨d, hd, hentry⟩).of_rely hterms.toLawful hu
    · rw [raiseIf, if_pos hne]
      refine fun u hu => hfail v hv ?_
      rintro ⟨content', hcontent', d', hd' : f content' = some d', hentry' : manifest key = some d'⟩
      rw [hcontent] at hcontent'
      cases hcontent'
      rw [hd] at hd'
      rw [hentry] at hentry'
      exact hne (Option.some.inj (hd'.trans hentry'.symm))

/-- A run of KiCad with a report that is read (`capture_layout.py:99–131`). It may
fail for its own reasons, so failures must be allowed. -/
theorem safe_report {tool : Tool} {path : String} {g : List Char → Script B} (hfailure : failure)
    (h : ∀ v environment content text, Rely quiet contents files v →
      runTool tools tool environment v = .ok (some content) → readText content = .ok text →
      Obeys (host tools) (terms tools quiet contents choice failure c) post (g text) v) :
    Obeys (host tools) (terms tools quiet contents choice failure c) post
      (report tool path >>= g) files := by
  rw [report, bind_assoc]
  refine safe_run hterms (fun _ _ _ _ _ _ => hfailure) fun v environment output hv houtput => ?_
  cases output with
  | none => exact Safe.andThen hterms.toLawful (safe_throw hfailure)
  | some content =>
    exact safe_orRaise (fun _ _ => hfailure) fun text htext =>
      h v environment content text hv houtput htext

/-- Looking for locks changes nothing and can find anything
(`capture_layout.py:76–85`). -/
theorem safe_locked {locks : List Lock} {g : List Lock → Script B}
    (h : ∀ v found, Rely quiet contents files v →
      Obeys (host tools) (terms tools quiet contents choice failure c) post (g found) v) :
    Obeys (host tools) (terms tools quiet contents choice failure c) post
      (locked locks >>= g) files := by
  induction locks generalizing files g with
  | nil =>
    rw [locked, pure_bind]
    exact h files [] (rely_refl files)
  | cons edited rest ih =>
    rw [locked, bind_assoc]
    refine safe_isFile hterms fun v hv => ?_
    rw [bind_assoc]
    refine ih fun u others hu => ?_
    rw [pure_bind]
    exact h u _ (hv.trans hu)

/-- The test that all files are there, one after the other (`generate_pcb.py:62–64`).
It may be out of date when it ends. -/
theorem safe_allFiles {paths : List Path} {g : Bool → Script B}
    (hmissing : ∀ v, Rely quiet contents files v → (∃ path ∈ paths, v path = none) →
      Obeys (host tools) (terms tools quiet contents choice failure c) post (g false) v)
    (h : ∀ v, Rely quiet contents files v →
      Obeys (host tools) (terms tools quiet contents choice failure c) post (g true) v) :
    Obeys (host tools) (terms tools quiet contents choice failure c) post
      (allFiles paths >>= g) files := by
  induction paths generalizing files with
  | nil =>
    rw [allFiles, pure_bind]
    exact h files (rely_refl files)
  | cons path rest ih =>
    rw [allFiles, bind_assoc]
    refine safe_isFile hterms fun v hv => ?_
    cases hcontent : v path with
    | none =>
      show Safe _ _ _ ((pure false : Script Bool) >>= g).run v
      rw [pure_bind]
      exact hmissing v hv ⟨path, List.mem_cons_self, hcontent⟩
    | some content =>
      refine ih (fun u hu => ?_) fun u hu => h u (hv.trans hu)
      rintro ⟨path', hpath', hnone⟩
      exact hmissing u (hv.trans hu) ⟨path', List.mem_cons_of_mem _ hpath', hnone⟩

/-- Reading the manifest and decoding it. -/
theorem safe_loadManifest {g : (String → Option D) → Script B}
    (hfail : ∀ v, Rely quiet contents files v →
      (¬ ∃ text manifest, v .manifest = some text ∧ tools.loads text = .ok manifest) → failure)
    (h : ∀ v text manifest, Rely quiet contents files v → v .manifest = some text →
      tools.loads text = .ok manifest →
      Obeys (host tools) (terms tools quiet contents choice failure c) post (g manifest) v) :
    Obeys (host tools) (terms tools quiet contents choice failure c) post
      (loadManifest tools >>= g) files := by
  rw [loadManifest, bind_assoc]
  refine safe_readBytes hterms (fun v hv hnone => ?_) fun v text hv htext =>
    safe_orRaise (fun e he => ?_) fun manifest hmanifest => h v text manifest hv htext hmanifest
  · refine hfail v hv ?_
    rintro ⟨text, manifest, htext, -⟩
    rw [hnone] at htext
    cases htext
  · refine hfail v hv ?_
    rintro ⟨text', manifest, htext', hmanifest⟩
    rw [htext] at htext'
    cases htext'
    rw [he] at hmanifest
    cases hmanifest

/-- One copy into a spare file. The content is read at one moment and written at a
later one (`u`, `v`), so what is copied is known although the source may have been
saved meanwhile. -/
theorem safe_copy (hclosed : ∀ content ∈ contents, ∀ n, content.extract 0 n ∈ contents)
    (hknown : Known contents files) {source target : Path} (hsource : source ≠ .manifest)
    (htarget : target.Spare c) {g : Option ByteArray → Script B}
    (hmissing : ∀ v, Rely quiet contents files v → v source = none → failure)
    (h : ∀ u v content, Rely quiet contents files u → u source = some content →
      Rely quiet contents u v → Known contents (Function.update v target (some content)) →
      Obeys (host tools) (terms tools quiet contents choice failure c) post
        (g none) (Function.update v target (some content))) :
    Obeys (host tools) (terms tools quiet contents choice failure c) post
      (copy source target >>= g) files := by
  have hmem : ∀ u content, Rely quiet contents files u → u source = some content →
      content ∈ contents := fun u content hu hcontent =>
    hu.known hknown source hsource content hcontent
  refine safe_copyFile hterms hmissing (fun u v content error written hu hcontent hv _ => ?_)
    (fun u v content hu hcontent hv => ?_) fun u v content hu hcontent hv => ?_
  · exact guarantee_torn hclosed htarget (hmem u content hu hcontent) written
  · exact guarantee_copy htarget (hmem u content hu hcontent)
  · refine h u v content hu hcontent hv ?_
    have hguarantee : Guarantee tools quiet contents c v
        (Function.update v target (some content)) :=
      guarantee_copy htarget (hmem u content hu hcontent)
    exact hguarantee.known (hv.known (hu.known hknown))

end Rules

/-! ## Restoring

A restore compares the templates with the manifest, copies each to a temporary name,
and renames it over the file in use. Nothing that the editors may save on the way
touches what it compares and copies (`Rely.sameStore`), so the content it installs is
the one it has checked (`Stored.of_same`).
-/

/-- The names are those of different files. -/
theorem names_apart : ∀ path ∈ Path.working, path.temporary ∉ Path.working ∧
    path.template ∉ Path.working ∧ path.template ≠ .manifest ∧ path.temporary ≠ .manifest ∧
      path ≠ .manifest ∧ path.isLock = false ∧ path.template.isLock = false ∧
        path.temporary.isLock = false ∧
          ∀ other ∈ Path.working, other.template ≠ path.temporary := by
  decide

/-- Different files in use have different templates. -/
theorem templates_apart : ∀ path ∈ Path.working, ∀ other ∈ Path.working, path ≠ other →
    path.template ≠ other.template := by
  decide

/-- The temporary name of a file in use is spare. -/
theorem spare_temporary {path : Path} (hpath : path ∈ Path.working) : path.temporary.Spare c := by
  obtain ⟨hworking, -, -, hmanifest, -, -, -, hlock, hother⟩ := names_apart path hpath
  exact ⟨hworking, hmanifest, hlock, fun _ => hother⟩

/-- The templates and the manifest are as they were. -/
structure SameStore (v w : Files Path) : Prop where
  template : ∀ path ∈ Path.working, w path.template = v path.template
  manifest : w .manifest = v .manifest

theorem SameStore.trans {u : Files Path} (h : SameStore u v) (h' : SameStore v w) :
    SameStore u w :=
  ⟨fun path hpath => (h'.template path hpath).trans (h.template path hpath),
    h'.manifest.trans h.manifest⟩

/-- The editors leave the templates and the manifest alone while a script runs. -/
theorem Rely.sameStore (h : Rely quiet contents v w) : SameStore v w := by
  refine ⟨fun path hpath => ?_, h.kept _ (by decide) rfl⟩
  obtain ⟨-, hworking, -, -, -, -, hlock, -, -⟩ := names_apart path hpath
  exact h.kept _ hworking hlock

/-- What is stored for a file does not depend on anything but the templates and the
manifest. -/
theorem Stored.of_same {path : Path} {content : ByteArray} (hpath : path ∈ Path.working)
    (h : Stored tools v path content) (hsame : SameStore v w) : Stored tools w path content := by
  obtain ⟨htemplate, text, manifest, htext, hrest⟩ := h
  exact ⟨(hsame.template path hpath).trans htemplate, text, manifest,
    hsame.manifest.trans htext, hrest⟩

/-- A file has been replaced by its template, and the template is still there. On a
quiet run the other files in use are as they were. -/
structure Installed (quiet : Prop) (contents : Set ByteArray) (path : Path) (content : ByteArray)
    (v w : Files Path) : Prop where
  same : SameStore v w
  content : w path = some content
  other : quiet → ∀ other ∈ Path.working, other ≠ path → w other = v other
  known : Known contents w

/-- The replacement itself. -/
theorem installed_update {path : Path} (hpath : path ∈ Path.working) {content : ByteArray}
    (hcontent : content ∈ contents) (hknown : Known contents files) :
    Installed quiet contents path content files
      (Function.update (Function.update files path.temporary none) path (some content)) := by
  obtain ⟨hworking, htemplate, hmanifest, htemporary, hpathManifest, -, -, -, hother⟩ :=
    names_apart path hpath
  have hkept : ∀ other, other ≠ path → other ≠ path.temporary →
      Function.update (Function.update files path.temporary none) path (some content) other
        = files other := by
    intro other hne hne'
    rw [Function.update_of_ne hne, Function.update_of_ne hne']
  refine ⟨⟨fun other h => ?_, ?_⟩, Function.update_self .., fun _ other h hne => ?_,
    fun other hne content' hcontent' => ?_⟩
  · exact hkept _ (fun heq => (names_apart other h).2.1 (heq ▸ hpath)) (hother other h)
  · exact hkept _ hpathManifest.symm htemporary.symm
  · exact hkept _ hne fun heq => hworking (heq ▸ h)
  · by_cases heq : other = path
    · subst heq
      rw [Function.update_self] at hcontent'
      exact Option.some.inj hcontent' ▸ hcontent
    · by_cases heq' : other = path.temporary
      · subst heq'
        rw [Function.update_of_ne heq, Function.update_self] at hcontent'
        cases hcontent'
      · exact hknown other hne content' ((hkept other heq heq').symm.trans hcontent')

/-- The replacement keeps the guarantee: what is put in place is stored, and stored is
what the manifest has the digests of. -/
theorem Installed.guarantee {path : Path} {content : ByteArray} (hpath : path ∈ Path.working)
    (hinstalls : path ∈ c.installs) (hstored : Stored tools v path content)
    (h : Installed True contents path content v w) : Guarantee tools quiet contents c v w where
  working other hother hne := by
    by_cases heq : other = path
    · subst heq
      exact ⟨hinstalls, content, h.content, hstored.of_same hother h.same⟩
    · exact absurd (h.other trivial other hother heq) hne
  stored _ := ⟨h.same.template, h.same.manifest⟩
  recorded _ hrecorded text manifest htext := hrecorded text manifest (h.same.manifest ▸ htext)
  known _ := h.known

/-- A temporary copy leaves the templates and the manifest alone. -/
theorem sameStore_update {path : Path} (hpath : path ∈ Path.working) {content : Option ByteArray} :
    SameStore files (Function.update files path.temporary content) := by
  obtain ⟨-, -, -, htemporary, -, -, -, -, hother⟩ := names_apart path hpath
  exact ⟨fun other h => Function.update_of_ne (hother other h) _ _,
    Function.update_of_ne htemporary.symm _ _⟩

/-- `copyfile` to the temporary name and `os.replace` (`generate_pcb.py:79–84`,
`generate_schematic.py:31–33`). Only the second touches the file in use, and it is a
single rename, so an installation that fails leaves the file as it was. -/
theorem safe_install {B : Type} {post : B → Files Path → Prop}
    (hterms : Working (terms tools quiet contents choice failure c))
    (hclosed : ∀ content ∈ contents, ∀ n, content.extract 0 n ∈ contents)
    (hknown : Known contents files) {path : Path} (hpath : path ∈ Path.working)
    (hinstalls : path ∈ c.installs) {content : ByteArray}
    (hstored : Stored tools files path content) {g : Option ByteArray → Script B}
    (h : ∀ v, Installed quiet contents path content files v →
      Obeys (host tools) (terms tools quiet contents choice failure c) post (g none) v) :
    Obeys (host tools) (terms tools quiet contents choice failure c) post
      (install path.template path.temporary path >>= g) files := by
  obtain ⟨hworking, htemplate, hmanifest, -, -, -, hlock, htemporary, hother⟩ :=
    names_apart path hpath
  rw [install, bind_assoc]
  refine safe_copy hterms hclosed hknown hmanifest (spare_temporary hpath) (fun v hv hnone => ?_)
    fun u v content' hu hcontent' hv hknown' => ?_
  · rw [hv.kept _ htemplate hlock, hstored.template] at hnone
    cases hnone
  · rw [hu.kept _ htemplate hlock, hstored.template] at hcontent'
    cases hcontent'
    have hmem : content ∈ contents := hknown _ hmanifest content hstored.template
    have hcopied : SameStore v (Function.update v path.temporary (some content)) :=
      sameStore_update hpath
    have hsame : SameStore files (Function.update v path.temporary (some content)) :=
      (hu.sameStore.trans hv.sameStore).trans hcopied
    refine safe_replace hterms (fun t ht hnone => ?_) (fun t content' ht hcontent' => ?_)
      fun t content' ht hcontent' => ?_
    · rw [ht.kept _ hworking htemporary, Function.update_self] at hnone
      cases hnone
    all_goals
      rw [ht.kept _ hworking htemporary, Function.update_self] at hcontent'
      cases hcontent'
    · exact (installed_update hpath hmem (ht.known hknown')).guarantee hpath hinstalls
        (hstored.of_same hpath (hsame.trans ht.sameStore))
    · have hinstalled : Installed True contents path content t
          (Function.update (Function.update t path.temporary none) path (some content)) :=
        installed_update hpath hmem (ht.known hknown')
      refine h _ ⟨(hsame.trans ht.sameStore).trans hinstalled.same, hinstalled.content,
        fun hquiet other hother hne => ?_, hinstalled.known⟩
      obtain ⟨-, -, -, -, -, hotherLock, -, -, -⟩ := names_apart other hother
      have hapart : other ≠ path.temporary := fun heq => hworking (heq ▸ hother)
      rw [hinstalled.other trivial other hother hne, ht.quiet hquiet other hotherLock,
        Function.update_of_ne hapart, hv.quiet hquiet other hotherLock,
        hu.quiet hquiet other hotherLock]

/-- The manifest that is read has the digests of what is stored. -/
theorem Stored.meets {path : Path} {content text : ByteArray} {manifest : String → Option D}
    (h : Stored tools files path content) (htext : files .manifest = some text)
    (hmanifest : tools.loads text = .ok manifest) :
    ∀ check ∈ checks tools path, Meets manifest content check := by
  obtain ⟨-, text', manifest', htext', hmanifest', hmeets⟩ := h
  rw [htext] at htext'
  cases htext'
  rw [hmanifest] at hmanifest'
  cases hmanifest'
  exact hmeets

variable (tools) in
/-- A restore may end with an error, or all that it needs is there and nothing is
saved while it runs. The rules of a restore are proved once, for both readings. -/
def Ready (quiet failure : Prop) (c : Command) (files : Files Path) : Prop :=
  failure ∨ quiet ∧ ∀ path ∈ c.installs, ∃ content, Stored tools files path content

namespace Ready

variable {path : Path} (h : Ready tools quiet failure c files) (hinstalls : path ∈ c.installs)
  (hpath : path ∈ Path.working) (hsame : SameStore files v)
include h hinstalls hpath hsame

/-- Where errors are excluded the templates are there. -/
theorem template (hnone : v path.template = none) : failure := by
  obtain h | ⟨-, hall⟩ := h
  · exact h
  · obtain ⟨content, hstored⟩ := hall path hinstalls
    rw [hsame.template path hpath, hstored.template] at hnone
    cases hnone

/-- So is the manifest, and it reads. -/
theorem manifest
    (hnone : ¬ ∃ text manifest, v .manifest = some text ∧ tools.loads text = .ok manifest) :
    failure := by
  obtain h | ⟨-, hall⟩ := h
  · exact h
  · obtain ⟨content, hstored⟩ := hall path hinstalls
    obtain ⟨text, manifest, htext, hmanifest, -⟩ := (hstored.of_same hpath hsame).manifest
    exact absurd ⟨text, manifest, htext, hmanifest⟩ hnone

/-- And each template meets each of its checks. -/
theorem meets {text : ByteArray} {manifest : String → Option D}
    (htext : v .manifest = some text) (hmanifest : tools.loads text = .ok manifest)
    {check : String × (ByteArray → Option D)} (hcheck : check ∈ checks tools path)
    (hnone : ¬ ∃ content, v path.template = some content ∧ Meets manifest content check) :
    failure := by
  obtain h | ⟨-, hall⟩ := h
  · exact h
  · obtain ⟨content, hstored⟩ := hall path hinstalls
    have hkept := hstored.of_same hpath hsame
    exact absurd ⟨content, hkept.template, hkept.meets htext hmanifest check hcheck⟩ hnone

end Ready

/-- What has been installed is still there and meets the checks, or failures are allowed. -/
theorem Ready.installed {path : Path} {manifest : String → Option D} {content : ByteArray}
    (h : Ready tools quiet failure c files)
    (hcontent : quiet → v path = some content)
    {check : String × (ByteArray → Option D)} (hmeets : Meets manifest content check)
    (hnone : ¬ ∃ content, v path = some content ∧ Meets manifest content check) : failure := by
  obtain h | ⟨hquiet, -⟩ := h
  · exact h
  · exact absurd ⟨content, hcontent hquiet, hmeets⟩ hnone

/-- The test for missing files. -/
theorem safe_present {B : Type} {post : B → Files Path → Prop}
    (hterms : Working (terms tools quiet contents choice failure c))
    (hready : Ready tools quiet failure c files) {paths : List Path} {installed : Path}
    (hinstalled : installed ∈ Path.working ∧ installed ∈ c.installs)
    (hpaths : ∀ path ∈ paths, path = .manifest ∨
      ∃ target ∈ Path.working, target ∈ c.installs ∧ path = target.template)
    {e : PyError} {g : Unit → Script B}
    (h : ∀ v, Rely quiet contents files v →
      Obeys (host tools) (terms tools quiet contents choice failure c) post (g ()) v) :
    Obeys (host tools) (terms tools quiet contents choice failure c) post (do
        let present ← allFiles paths
        let u ← orRaise (raiseIf (present = false) e)
        g u : Script B) files := by
  refine safe_allFiles hterms (fun v hv hmissing => ?_) fun v hv => ?_
  · refine safe_orRaise (fun _ _ => ?_) fun _ ha => absurd rfl (raiseIf_eq_ok.mp ha)
    obtain ⟨missing, hmem, hnone⟩ := hmissing
    obtain rfl | ⟨target, hpath, hinstalls, rfl⟩ := hpaths missing hmem
    · refine hready.manifest hinstalled.2 hinstalled.1 hv.sameStore ?_
      rintro ⟨text, manifest, htext, -⟩
      rw [hnone] at htext
      cases htext
    · exact hready.template hinstalls hpath hv.sameStore hnone
  · exact safe_orRaise (fun e he => by cases he) fun _ _ => h v hv

/-- The comparison of a template with the manifest. -/
theorem safe_requireTemplate [DecidableEq D] {B : Type} {post : B → Files Path → Prop}
    (hterms : Working (terms tools quiet contents choice failure c))
    (hready : Ready tools quiet failure c files) {path : Path} (hpath : path ∈ Path.working)
    (hinstalls : path ∈ c.installs) (hsame : SameStore files v) {text : ByteArray}
    {manifest : String → Option D} (htext : v .manifest = some text)
    (hmanifest : tools.loads text = .ok manifest) {key : String} {f : ByteArray → Option D}
    (hcheck : (key, f) ∈ checks tools path) {error : PyError} {message : String}
    {g : Unit → Script B}
    (h : ∀ u, Rely quiet contents v u → (∀ content, u path.template = some content →
        Meets manifest content (key, f)) → (∃ content, u path.template = some content) →
      Obeys (host tools) (terms tools quiet contents choice failure c) post (g ()) u) :
    Obeys (host tools) (terms tools quiet contents choice failure c) post
      (require (digestOf f error path.template) manifest key message >>= g) v := by
  refine safe_require hterms (fun u hu => hready.meets hinstalls hpath
    (hsame.trans hu.sameStore) (hu.sameStore.manifest.trans htext) hmanifest hcheck)
    fun u content hu hcontent hmeets => h u hu (fun content' hcontent' => ?_) ⟨content, hcontent⟩
  rw [hcontent] at hcontent'
  cases hcontent'
  exact hmeets

variable (tools) in
/-- What a script that has succeeded leaves on a quiet run. -/
def Secured (quiet : Prop) (c : Command) (files : Files Path) : Prop :=
  quiet → ∀ path ∈ c.secures, Authentic tools files path

/-- `generate_schematic.py` (22–36): the template is compared with the manifest and
put in place. -/
theorem safe_restoreSchematic [DecidableEq D]
    (hterms : Working (terms tools quiet contents choice failure .restoreSchematic))
    (hclosed : ∀ content ∈ contents, ∀ n, content.extract 0 n ∈ contents)
    (hknown : Known contents files)
    (hready : Ready tools quiet failure .restoreSchematic files) :
    Obeys (host tools) (terms tools quiet contents choice failure .restoreSchematic)
      (fun _ => Secured tools quiet .restoreSchematic) (restoreSchematic tools) files := by
  have hpath : Path.schematic ∈ Path.working := by decide
  have hinstalls : Path.schematic ∈ Command.restoreSchematic.installs := by decide
  rw [restoreSchematic]
  refine safe_present hterms hready ⟨hpath, hinstalls⟩ (by decide) fun v hv => ?_
  refine safe_loadManifest hterms (fun u hu => hready.manifest hinstalls hpath
    (hv.trans hu).sameStore) fun u text manifest hu htext hmanifest => ?_
  have hcheck : ("schematic_sha256", fun content => some (tools.sha256 content)) ∈
      checks tools .schematic := List.mem_cons_self
  refine safe_require hterms (fun t ht => hready.meets hinstalls hpath
    (hv.trans (hu.trans ht)).sameStore (ht.sameStore.manifest.trans htext) hmanifest hcheck)
    fun t content ht hcontent hmeets => ?_
  have hstored : Stored tools t .schematic content := by
    refine ⟨hcontent, text, manifest, ht.sameStore.manifest.trans htext, hmanifest, ?_⟩
    exact List.forall_mem_singleton.mpr hmeets
  have hknown' := (hv.trans (hu.trans ht)).known hknown
  refine safe_install hterms hclosed hknown' hpath hinstalls hstored fun x hx => ?_
  rw [← bind_pure (require _ _ _ _)]
  refine safe_require hterms (fun y hy => hready.installed
    (fun hquiet => (hy.quiet hquiet _ rfl).trans hx.content) hmeets) fun y _ hy _ _ => ?_
  refine safe_pure fun z hz hquiet path hmem => ?_
  obtain rfl := List.mem_singleton.mp hmem
  have hcontent' : z .schematic = some content :=
    ((hy.trans hz).quiet hquiet _ rfl).trans hx.content
  exact ⟨content, hcontent', hstored.of_same hpath (hx.same.trans (hy.trans hz).sameStore)⟩

/-- `generate_pcb.py` (62–91): the board and the preferences are put back one after
the other, and compared again at the end. Each of the three digests of the board is
taken of the template before the copy and of the board after it. -/
theorem safe_restorePcb [DecidableEq D]
    (hterms : Working (terms tools quiet contents choice failure .restorePcb))
    (hclosed : ∀ content ∈ contents, ∀ n, content.extract 0 n ∈ contents)
    (hknown : Known contents files)
    (hready : Ready tools quiet failure .restorePcb files) :
    Obeys (host tools) (terms tools quiet contents choice failure .restorePcb)
      (fun _ => Secured tools quiet .restorePcb) (restorePcb tools) files := by
  have hboard : Path.board ∈ Path.working := by decide
  have hinstallsBoard : Path.board ∈ Command.restorePcb.installs := by decide
  have hpreferences : Path.preferences ∈ Path.working := by decide
  have hinstallsPreferences : Path.preferences ∈ Command.restorePcb.installs := by decide
  rw [restorePcb]
  refine safe_present hterms hready ⟨hboard, hinstallsBoard⟩ (by decide) fun v hv => ?_
  refine safe_loadManifest hterms (fun u hu => hready.manifest hinstallsBoard hboard
    (hv.trans hu).sameStore) fun u text manifest hu htext hmanifest => ?_
  have hsha : ("pcb_sha256", fun content => some (tools.sha256 content)) ∈
      checks tools .board := List.mem_cons_self
  have hrouting : ("routing_sha256", tools.routingSignature) ∈ checks tools .board :=
    List.mem_cons_of_mem _ List.mem_cons_self
  have hrouteText : ("route_text_sha256", routeText tools) ∈ checks tools .board :=
    List.mem_cons_of_mem _ (List.mem_cons_of_mem _ List.mem_cons_self)
  have hpreferencesSha : ("preferences_sha256", fun content => some (tools.sha256 content)) ∈
      checks tools .preferences := List.mem_cons_self
  have hsame := (hv.trans hu).sameStore
  refine safe_requireTemplate hterms hready hboard hinstallsBoard hsame htext hmanifest hsha
    fun u₁ hu₁ hmeets₁ _ => ?_
  have htext₁ := hu₁.sameStore.manifest.trans htext
  have hsame₁ := hsame.trans hu₁.sameStore
  refine safe_requireTemplate hterms hready hpreferences hinstallsPreferences hsame₁ htext₁
    hmanifest hpreferencesSha fun u₂ hu₂ hmeets₂ hsome₂ => ?_
  have htext₂ := hu₂.sameStore.manifest.trans htext₁
  have hsame₂ := hsame₁.trans hu₂.sameStore
  refine safe_requireTemplate hterms hready hboard hinstallsBoard hsame₂ htext₂ hmanifest hrouting
    fun u₃ hu₃ hmeets₃ _ => ?_
  have htext₃ := hu₃.sameStore.manifest.trans htext₂
  have hsame₃ := hsame₂.trans hu₃.sameStore
  refine safe_requireTemplate hterms hready hboard hinstallsBoard hsame₃ htext₃ hmanifest
    hrouteText fun u₄ hu₄ hmeets₄ hsome₄ => ?_
  have htext₄ := hu₄.sameStore.manifest.trans htext₃
  -- what the templates hold has met all the checks
  obtain ⟨board, hboardContent⟩ := hsome₄
  obtain ⟨preferences, hpreferencesContent⟩ := hsome₂
  have htemplate : ∀ path ∈ Path.working, u₄ path.template = u₁ path.template := fun path hpath =>
    ((hu₂.trans (hu₃.trans hu₄)).sameStore).template path hpath
  have hmeets : ∀ check ∈ checks tools .board, Meets manifest board check := by
    have h₁ := hmeets₁ board ((htemplate _ hboard).symm.trans hboardContent)
    have h₃ := hmeets₃ board ((hu₄.sameStore.template _ hboard).symm.trans hboardContent)
    have h₄ := hmeets₄ board hboardContent
    simp only [checks, List.mem_cons, List.not_mem_nil, or_false]
    rintro check (rfl | rfl | rfl)
    · exact h₁
    · exact h₃
    · exact h₄
  have hstored : Stored tools u₄ .board board :=
    ⟨hboardContent, text, manifest, htext₄, hmanifest, hmeets⟩
  have hstored' : Stored tools u₄ .preferences preferences := by
    refine ⟨(((hu₃.trans hu₄).sameStore).template _ hpreferences).trans hpreferencesContent, text,
      manifest, htext₄, hmanifest, ?_⟩
    exact List.forall_mem_singleton.mpr (hmeets₂ preferences hpreferencesContent)
  have hknown₄ := (hv.trans (hu.trans (hu₁.trans (hu₂.trans (hu₃.trans hu₄))))).known hknown
  refine safe_install hterms hclosed hknown₄ hboard hinstallsBoard hstored fun x hx => ?_
  refine safe_install hterms hclosed hx.known hpreferences hinstallsPreferences
    (hstored'.of_same hpreferences hx.same) fun y hy => ?_
  have hkept : quiet → y .board = some board := fun hquiet =>
    (hy.other hquiet _ hboard (by decide)).trans hx.content
  rw [checkBoard, ← bind_pure (require (routeTextSignature tools .board) _ _ _)]
  refine safe_require hterms (fun z hz => hready.installed
    (fun hquiet => (hz.quiet hquiet _ rfl).trans (hkept hquiet)) (hmeets _ hsha))
    fun z₁ _ hz₁ _ _ => ?_
  refine safe_require hterms (fun z hz => hready.installed
    (fun hquiet => ((hz₁.trans hz).quiet hquiet _ rfl).trans (hkept hquiet)) (hmeets _ hrouting))
    fun z₂ _ hz₂ _ _ => ?_
  refine safe_require hterms (fun z hz => hready.installed
    (fun hquiet => ((hz₁.trans (hz₂.trans hz)).quiet hquiet _ rfl).trans (hkept hquiet))
    (hmeets _ hrouteText)) fun z₃ _ hz₃ _ _ => ?_
  have hz := hz₁.trans (hz₂.trans hz₃)
  refine safe_pure fun z hz₄ hquiet path hmem => ?_
  have hlast := hz.trans hz₄
  simp only [Command.secures, Command.installs, List.mem_cons, List.not_mem_nil, or_false] at hmem
  obtain rfl | rfl := hmem
  · exact ⟨board, (hlast.quiet hquiet _ rfl).trans (hkept hquiet),
      hstored.of_same hboard ((hx.same.trans hy.same).trans hlast.sameStore)⟩
  · exact ⟨preferences, (hlast.quiet hquiet _ rfl).trans hy.content,
      hstored'.of_same hpreferences ((hx.same.trans hy.same).trans hlast.sameStore)⟩

/-! ## Capturing

A capture reads the two files in use several times: for the digests, in KiCad for the
two reports, in the connectivity check, and for the copies. On a quiet run all of
these have read the same contents (`Passed`), so what is written to the manifest is
about one board and one schematic.
-/

/-- A design-rule report that passes counts no violation and no unconnected item
(`capture_layout.py:104–123`). -/
theorem checkDrc_ok {drcText : List Char} {counts : ℕ × ℕ}
    (h : checkDrc tools drcText = .ok counts) : counts = (0, 0) := by
  rw [checkDrc] at h
  split at h
  · obtain ⟨_, _, h⟩ := bind_eq_ok.mp h
    obtain ⟨_, hzero, h⟩ := bind_eq_ok.mp h
    cases h
    have hcounts := raiseIf_eq_ok.mp hzero
    push Not at hcounts
    exact Prod.ext hcounts.1 hcounts.2
  · cases h

/-- The digests of files that have been recorded together. -/
theorem Records.meets {m : Manifest D} {schematic board preferences : ByteArray}
    (h : Records tools m schematic board preferences) :
    (∀ check ∈ checks tools .schematic, Meets m.digests schematic check) ∧
      (∀ check ∈ checks tools .board, Meets m.digests board check) ∧
        ∀ check ∈ checks tools .preferences, Meets m.digests preferences check := by
  refine ⟨?_, ?_, ?_⟩
  · exact List.forall_mem_singleton.mpr ⟨_, rfl, congrArg some h.schematicSha256⟩
  · simp only [checks, List.mem_cons, List.not_mem_nil, or_false]
    rintro check (rfl | rfl | rfl)
    · exact ⟨_, rfl, congrArg some h.pcbSha256⟩
    · exact ⟨_, h.routingSha256, rfl⟩
    · exact ⟨_, h.routeTextSha256, rfl⟩
  · exact List.forall_mem_singleton.mpr ⟨_, rfl, congrArg some h.preferencesSha256⟩

/-- The manifest that is written reads as one of checked files. Where it is cut short
it reads as nothing, which `Codec` asks of the encoding. -/
theorem guarantee_manifest {capturedUtc : String} {m : Manifest D}
    (hrecords : quiet → ∃ schematic board preferences,
      Records tools m schematic board preferences ∧ schematic ∈ contents ∧ board ∈ contents)
    {text : ByteArray}
    (htext : quiet → ∀ manifest, tools.loads text = .ok manifest → manifest = m.digests) :
    Guarantee tools quiet contents (.capture capturedUtc) files
      (Function.update files .manifest (some text)) := by
  have hother : ∀ path, path ≠ .manifest →
      Function.update files .manifest (some text) path = files path :=
    fun path hpath => Function.update_of_ne hpath _ _
  refine ⟨fun path hpath hne => ?_, fun hc => absurd rfl (hc capturedUtc), fun hquiet _ => ?_,
    fun hknown path hpath => ?_⟩
  · obtain ⟨-, -, -, -, hmanifest, -⟩ := names_apart path hpath
    exact absurd (hother path hmanifest) hne
  · intro text' manifest htext' hmanifest
    rw [Function.update_self] at htext'
    cases htext'
    obtain ⟨schematic, board, preferences, h, hs, hb⟩ := hrecords hquiet
    exact ⟨m, schematic, board, preferences, h, hs, hb, htext hquiet manifest hmanifest⟩
  · rw [hother path hpath]
    exact hknown path hpath

/-- On a quiet run the files in use are as they were, and these have been copied. -/
def Copied (quiet : Prop) (files v : Files Path) (copied : List Path) : Prop :=
  quiet → (∀ path ∈ Path.working, v path = files path) ∧
    ∀ path ∈ copied, path ∈ Path.working ∧ v path.template = files path

/-- On a quiet run this lasts. -/
theorem Copied.of_rely {copied : List Path} (h : Copied quiet files v copied)
    (hrely : Rely quiet contents v w) : Copied quiet files w copied := by
  intro hquiet
  obtain ⟨hworking, htemplates⟩ := h hquiet
  refine ⟨fun path hpath => ?_, fun path hpath => ?_⟩
  · obtain ⟨-, -, -, -, -, hlock, -⟩ := names_apart path hpath
    exact (hrely.quiet hquiet path hlock).trans (hworking path hpath)
  · obtain ⟨hmem, htemplate⟩ := htemplates path hpath
    obtain ⟨-, -, -, -, -, -, hlock, -⟩ := names_apart path hmem
    exact ⟨hmem, (hrely.quiet hquiet _ hlock).trans htemplate⟩

/-- One template is written (`capture_layout.py:135–137`); those before it stay as
they are. -/
theorem safe_copyTemplate {capturedUtc : String} {B : Type} {post : B → Files Path → Prop}
    (hterms : Working (terms tools quiet contents choice failure (.capture capturedUtc)))
    (hclosed : ∀ content ∈ contents, ∀ n, content.extract 0 n ∈ contents) (hfailure : failure)
    {start : Files Path} {copied : List Path} (hcopied : Copied quiet start files copied)
    (hknown : Known contents files) {path : Path} (hpath : path ∈ Path.working)
    {g : Option ByteArray → Script B}
    (h : ∀ v, Copied quiet start v (path :: copied) → Known contents v →
      Obeys (host tools) (terms tools quiet contents choice failure (.capture capturedUtc)) post
        (g none) v) :
    Obeys (host tools) (terms tools quiet contents choice failure (.capture capturedUtc)) post
      (copy path path.template >>= g) files := by
  obtain ⟨hworking, htemplate, hmanifest, -, hpathManifest, hlock, htemplateLock, -⟩ :=
    names_apart path hpath
  have hspare : path.template.Spare (.capture capturedUtc) :=
    ⟨htemplate, hmanifest, htemplateLock, fun hc => absurd rfl (hc capturedUtc)⟩
  refine safe_copy hterms hclosed hknown hpathManifest hspare (fun _ _ _ => hfailure)
    fun u v content hu hcontent hv hknown' => h _ (fun hquiet => ?_) hknown'
  obtain ⟨hfiles, htemplates⟩ := hcopied.of_rely (hu.trans hv) hquiet
  have hsource : start path = some content := by
    rw [← (hcopied.of_rely hu hquiet).1 path hpath]
    exact hcontent
  refine ⟨fun other hother => ?_, fun other hother => ?_⟩
  · have hapart : other ≠ path.template := fun heq => htemplate (heq ▸ hother)
    rw [Function.update_of_ne hapart]
    exact hfiles other hother
  · by_cases heq : other = path
    · subst heq
      rw [Function.update_self]
      exact ⟨hpath, hsource.symm⟩
    · obtain ⟨hmem, hkept⟩ := htemplates other (List.mem_of_ne_of_mem heq hother)
      rw [Function.update_of_ne (templates_apart other hmem path hpath heq)]
      exact ⟨hmem, hkept⟩

/-- What the checks have found, of the files as they are on a quiet run. -/
def Passed (tools : Tools E D) (quiet : Prop) (files : Files Path) (route routeText : D)
    (counts : ℕ × ℕ) : Prop :=
  quiet → ∃ schematic board, files .schematic = some schematic ∧ files .board = some board ∧
    Checked tools board schematic ∧ tools.routingSignature board = some route ∧
      LayoutTemplates.routeText tools board = some routeText ∧ counts = (0, 0)

/-- The copies and the manifest (`capture_layout.py:135–174`). The digests are taken
of the copies, so on a quiet run they are those of the files that were checked. -/
theorem safe_copyTemplates {capturedUtc : String}
    (hterms : Working (terms tools quiet contents choice failure (.capture capturedUtc)))
    (hclosed : ∀ content ∈ contents, ∀ n, content.extract 0 n ∈ contents) (hfailure : failure)
    (hcodec : quiet → Codec tools) (hknown : Known contents files) {route routeText : D}
    {counts : ℕ × ℕ} (hpassed : Passed tools quiet files route routeText counts) :
    Obeys (host tools) (terms tools quiet contents choice failure (.capture capturedUtc))
      (fun _ => Secured tools quiet (.capture capturedUtc))
      (copyTemplates tools capturedUtc route routeText counts) files := by
  have hstart : Copied quiet files files [] := fun _ => ⟨fun _ _ => rfl, by simp⟩
  rw [copyTemplates]
  have hfirst : Path.schematic ∈ Path.working := by decide
  have hsecond : Path.board ∈ Path.working := by decide
  have hthird : Path.preferences ∈ Path.working := by decide
  refine safe_copyTemplate hterms hclosed hfailure hstart hknown hfirst
    fun v₁ hcopied₁ hknown₁ => ?_
  refine safe_copyTemplate hterms hclosed hfailure hcopied₁ hknown₁ hsecond
    fun v₂ hcopied₂ hknown₂ => ?_
  refine safe_copyTemplate hterms hclosed hfailure hcopied₂ hknown₂ hthird
    fun v hcopied hknown' => ?_
  refine safe_digestOf hterms (fun _ _ _ => hfailure) fun u₁ schematic schematicSha hu₁ hschematic
    hschematicSha => ?_
  refine safe_digestOf hterms (fun _ _ _ => hfailure) fun u₂ board boardSha hu₂ hboard
    hboardSha => ?_
  refine safe_digestOf hterms (fun _ _ _ => hfailure) fun u preferences preferencesSha hu₃
    hpreferences hpreferencesSha => ?_
  cases hschematicSha
  cases hboardSha
  cases hpreferencesSha
  have hu := hu₁.trans (hu₂.trans hu₃)
  generalize hm : ({ capturedUtc := capturedUtc, schematicSha256 := tools.sha256 schematic, .. } :
    Manifest D) = m
  -- on a quiet run the templates are the files that have been checked
  have hsource : quiet → files .schematic = some schematic ∧ files .board = some board ∧
      files .preferences = some preferences := by
    intro hquiet
    have h₁ := ((hcopied.of_rely hu₁ hquiet).2 .schematic (by simp)).2
    have h₂ := ((hcopied.of_rely (hu₁.trans hu₂) hquiet).2 .board (by simp)).2
    have h₃ := ((hcopied.of_rely hu hquiet).2 .preferences (by simp)).2
    exact ⟨h₁.symm.trans hschematic, h₂.symm.trans hboard, h₃.symm.trans hpreferences⟩
  have hrecords : quiet → Records tools m schematic board preferences := by
    intro hquiet
    obtain ⟨hs, hb, hp⟩ := hsource hquiet
    obtain ⟨schematic', board', hs', hb', hchecked, hroute, hrouteText, rfl⟩ := hpassed hquiet
    rw [hs] at hs'
    rw [hb] at hb'
    cases hs'
    cases hb'
    subst hm
    exact ⟨hchecked, rfl, rfl, hroute, hrouteText, rfl, rfl⟩
  have hguarantee : ∀ v text, (quiet → ∀ manifest, tools.loads text = .ok manifest →
      manifest = m.digests) → Guarantee tools quiet contents (.capture capturedUtc) v
        (Function.update v .manifest (some text)) := fun v text =>
    guarantee_manifest fun hquiet => ⟨schematic, board, preferences, hrecords hquiet,
      hknown _ (by decide) _ (hsource hquiet).1, hknown _ (by decide) _ (hsource hquiet).2.1⟩
  refine safe_write hterms (fun v _ written _ _ => ?_) (fun v _ => ?_) fun w hw => ?_
  · cases written with
    | none => exact guarantee_refl v
    | some n => exact hguarantee v _ fun hquiet => (hcodec hquiet).torn m n
  · refine hguarantee v _ fun hquiet manifest h => ?_
    rw [(hcodec hquiet).whole] at h
    exact (Except.ok.inj h).symm
  refine safe_pure fun t ht hquiet path hpath => ?_
  obtain ⟨hs, hb, hp⟩ := hsource hquiet
  obtain ⟨hmeetsSchematic, hmeetsBoard, hmeetsPreferences⟩ := (hrecords hquiet).meets
  have hall : ∀ path ∈ Path.working, ∃ content, files path = some content ∧
      ∀ check ∈ checks tools path, Meets m.digests content check := by
    simp only [Path.working, List.mem_cons, List.not_mem_nil, or_false]
    rintro path (rfl | rfl | rfl)
    · exact ⟨schematic, hs, hmeetsSchematic⟩
    · exact ⟨board, hb, hmeetsBoard⟩
    · exact ⟨preferences, hp, hmeetsPreferences⟩
  obtain ⟨content, hcontent, hmeets⟩ := hall path hpath
  obtain ⟨-, -, htemplateManifest, -, hpathManifest, hlock, htemplateLock, -⟩ :=
    names_apart path hpath
  obtain ⟨hworking, htemplates⟩ := hcopied.of_rely (hu.trans hw) hquiet
  have hlisted : ∀ path ∈ Path.working, path ∈ [Path.preferences, .board, .schematic] := by decide
  refine ⟨content, ?_, ?_, tools.dumps m, m.digests, ?_, (hcodec hquiet).whole m, hmeets⟩
  · rw [ht.quiet hquiet path hlock, Function.update_of_ne hpathManifest, hworking path hpath,
      hcontent]
  · rw [ht.quiet hquiet _ htemplateLock, Function.update_of_ne htemplateManifest,
      (htemplates path (hlisted path hpath)).2, hcontent]
  · rw [ht.quiet hquiet .manifest rfl, Function.update_self]

/-- A report is of a file that is there. -/
theorem required_bind {f : ByteArray → Option ByteArray} {file : Option ByteArray}
    {content : ByteArray} (h : required (file.bind f) = .ok (some content)) :
    ∃ input, file = some input ∧ f input = some content := by
  cases hfile : file.bind f with
  | none => rw [hfile] at h; cases h
  | some output =>
    rw [hfile] at h
    cases h
    exact Option.bind_eq_some_iff.mp hfile

/-- The connectivity check has read the schematic that is there. -/
theorem validated {environment : E} {output : Option ByteArray}
    (h : runTool tools .validateNetlist environment files = .ok output) :
    ∃ schematic endpoints, files .schematic = some schematic ∧
      GenerateConnectivity.validateKicadNetlist tools.kicad schematic
        (tools.connectivity environment) = .ok endpoints := by
  rw [runTool] at h
  cases hschematic : files .schematic with
  | none => rw [hschematic] at h; cases h
  | some schematic =>
    rw [hschematic] at h
    cases hendpoints : GenerateConnectivity.validateKicadNetlist tools.kicad schematic
        (tools.connectivity environment) with
    | error e => simp only [hendpoints] at h; cases h
    | ok endpoints => exact ⟨schematic, endpoints, rfl, hendpoints⟩

/-- `main` of `capture_layout.py` (75–175): the locks, the signatures of the routing,
the two reports, the netlist, and the copies. -/
theorem safe_capture {capturedUtc : String}
    (hterms : Working (terms tools quiet contents choice failure (.capture capturedUtc)))
    (hclosed : ∀ content ∈ contents, ∀ n, content.extract 0 n ∈ contents) (hfailure : failure)
    (hcodec : quiet → Codec tools) (hknown : Known contents files) :
    Obeys (host tools) (terms tools quiet contents choice failure (.capture capturedUtc))
      (fun _ => Secured tools quiet (.capture capturedUtc)) (capture tools capturedUtc) files := by
  rw [capture]
  refine safe_locked hterms fun v _ hv => safe_orRaise (fun _ _ => hfailure) fun _ _ => ?_
  refine safe_digestOf hterms (fun _ _ _ => hfailure) fun u₁ board route hu₁ hboard hroute => ?_
  refine safe_digestOf hterms (fun _ _ _ => hfailure) fun u₂ board₂ routeText hu₂ hboard₂
    hrouteText => ?_
  refine safe_report hterms hfailure fun u₃ drcEnvironment drcReport drcText hu₃ hdrc hdrcText =>
    safe_orRaise (fun _ _ => hfailure) fun counts hcounts => ?_
  refine safe_report hterms hfailure fun u₄ ercEnvironment ercReport ercText hu₄ herc hercText =>
    safe_orRaise (fun _ _ => hfailure) fun _ herrors => ?_
  refine safe_run hterms (fun _ _ _ _ _ _ => hfailure) fun u₅ environment _ hu₅ hnetlist => ?_
  have hall := hv.trans (hu₁.trans (hu₂.trans (hu₃.trans (hu₄.trans hu₅))))
  refine safe_copyTemplates hterms hclosed hfailure hcodec (hall.known hknown) fun hquiet => ?_
  -- every check has read the same two files
  obtain ⟨board₃, hboard₃, hdrcReport⟩ := required_bind hdrc
  obtain ⟨schematic, hschematic, hercReport⟩ := required_bind herc
  obtain ⟨schematic₅, endpoints, hschematic₅, hendpoints⟩ := validated hnetlist
  rw [hu₂.quiet hquiet _ rfl, hboard] at hboard₂
  cases hboard₂
  rw [(hu₂.trans hu₃).quiet hquiet _ rfl, hboard] at hboard₃
  cases hboard₃
  rw [hu₅.quiet hquiet _ rfl, hschematic] at hschematic₅
  cases hschematic₅
  have hzero := checkDrc_ok hcounts
  subst hzero
  refine ⟨schematic, board, ?_, ?_, ⟨?_, ?_, ⟨environment, endpoints, hendpoints⟩⟩, hroute,
    hrouteText, rfl⟩
  · rw [hu₅.quiet hquiet _ rfl, hschematic]
  · rw [(hu₂.trans (hu₃.trans (hu₄.trans hu₅))).quiet hquiet _ rfl, hboard]
  · exact ⟨drcEnvironment, drcReport, drcText, hdrcReport, hdrcText, hcounts⟩
  · exact ⟨ercEnvironment, ercReport, ercText, hercReport, hercText, herrors⟩

end SpokeSensor.LayoutTemplates
