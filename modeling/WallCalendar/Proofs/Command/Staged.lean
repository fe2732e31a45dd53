import WallCalendar.Command.Run
import WallCalendar.Proofs.Agenda.Merge

/-!
Commands on documents that were merged before.

A merged document is read back as what was merged, so a command finds the same agenda in it as in
the documents it was made of. Whatever documents are merged in groups first, the text that a command
makes of the results, or its failure, is the one it makes of all documents at once.
-/

namespace WallCalendar

/-! ### Loading -/

variable {read read' : Reader} {path : String} {files : List String} {a : Agenda}

theorem loadAgenda_eq_ok_iff :
    loadAgenda read path = .ok a ↔ ∃ text, read path = .ok text ∧ Agenda.ofText text = .ok a := by
  unfold loadAgenda
  cases read path with
  | error fault => simp
  | ok text => cases h : Agenda.ofText text <;> simp [Except.mapError, h]

/-- What is loaded is in normal form. -/
theorem normal_of_loadAgenda (h : loadAgenda read path = .ok a) : a.normal = a := by
  obtain ⟨text, -, htext⟩ := loadAgenda_eq_ok_iff.mp h
  exact Agenda.normal_of_ofText htext

/-- The documents of a list of files say just these agendas. -/
def Loads (read : Reader) (files : List String) (agendas : List Agenda) : Prop :=
  List.Forall₂ (fun path a => loadAgenda read path = .ok a) files agendas

theorem Loads.loadMerged {agendas : List Agenda} (h : Loads read files agendas)
    (name : Option String) : loadMerged read files name = .ok (.merge name agendas) := by
  rw [WallCalendar.loadMerged, mapM_eq_ok_iff.mpr h]
  rfl

theorem Loads.normal {agendas : List Agenda} (h : Loads read files agendas) :
    ∀ a ∈ agendas, a.normal = a := by
  induction h with
  | nil => simp
  | cons ha _ ih => exact List.forall_mem_cons.mpr ⟨normal_of_loadAgenda ha, ih⟩

theorem exists_loads (h : ∀ path ∈ files, ∃ a, loadAgenda read path = .ok a) :
    ∃ agendas, Loads read files agendas := by
  induction files with
  | nil => exact ⟨[], .nil⟩
  | cons path files ih =>
    obtain ⟨⟨a, ha⟩, hfiles⟩ := List.forall_mem_cons.mp h
    obtain ⟨agendas, hagendas⟩ := ih hfiles
    exact ⟨a :: agendas, .cons ha hagendas⟩

/-! ### Stages -/

/-- The request to merge files under the names they have. -/
def MergeRequest.plain (files : List String) : MergeRequest := { files }

theorem Loads.document {agendas : List Agenda} (h : Loads read files agendas) :
    (MergeRequest.plain files).document read = .ok ((Agenda.merge none agendas).text ++ "\n") := by
  rw [MergeRequest.document, MergeRequest.plain, h.loadMerged]
  rfl

/-- A merged document is read back as what was merged. -/
theorem Loads.loadAgenda_document {agendas : List Agenda} (h : Loads read files agendas)
    (hpath : ∀ text, (MergeRequest.plain files).document read = .ok text → read' path = .ok text) :
    loadAgenda read' path = .ok (.merge none agendas) := by
  have hbreak : ∀ c ∈ "\n".toList, Json.isSpace c = true := fun c hc => by
    rw [List.mem_singleton.mp hc]; rfl
  refine loadAgenda_eq_ok_iff.mpr ⟨_, hpath _ h.document, ?_⟩
  rw [Agenda.ofText_text_append _ hbreak, Agenda.normal_merge h.normal]

/-- The second reader finds, path by path, the document that the files of a group are merged to
under the first. -/
def Staged (read read' : Reader) (groups : List (List String)) (paths : List String) : Prop :=
  List.Forall₂ (fun group path => ∀ text, (MergeRequest.plain group).document read = .ok text →
    read' path = .ok text) groups paths

variable {groups : List (List String)} {paths : List String}

/-- The documents of a stage say what the groups they were made of are merged to. -/
theorem Staged.exists_loads (h : Staged read read' groups paths)
    (hparse : ∀ path ∈ groups.flatten, ∃ a, loadAgenda read path = .ok a) :
    ∃ agendas : List (List Agenda), Loads read groups.flatten agendas.flatten ∧
      Loads read' paths (agendas.map (.merge none)) := by
  induction h with
  | nil => exact ⟨[], .nil, .nil⟩
  | @cons group path groups paths hpath _ ih =>
    rw [List.flatten_cons, List.forall_mem_append] at hparse
    obtain ⟨loaded, hloaded⟩ := WallCalendar.exists_loads hparse.1
    obtain ⟨agendas, hfiles, hpaths⟩ := ih hparse.2
    refine ⟨loaded :: agendas, ?_, .cons (hloaded.loadAgenda_document hpath) hpaths⟩
    exact List.rel_append hloaded hfiles

theorem Staged.loadMerged (h : Staged read read' groups paths)
    (hparse : ∀ path ∈ groups.flatten, ∃ a, loadAgenda read path = .ok a) :
    loadMerged read' paths none = loadMerged read groups.flatten none := by
  obtain ⟨agendas, hfiles, hpaths⟩ := h.exists_loads hparse
  rw [hfiles.loadMerged, hpaths.loadMerged, Agenda.merge_map_merge]

/-! ### Commands -/

namespace Command

/-- The command on other files. -/
def withFiles (c : Command) (files : List String) : Command :=
  match c with
  | render request => render { request with files }
  | merge request => merge { request with files }
  | layout request => layout { request with files }

/-- The name that a command gives to what it merges, if it gives one. -/
def name? : Command → Option String
  | render request => request.name
  | merge request => request.name
  | layout _ => none

/-- The template that a command reads. -/
def template? (c : Command) (settings : Settings) : Option String :=
  match c with
  | render request => request.template <|> settings.template
  | merge _ => none
  | layout _ => none

/-- A command that gives no name of its own only looks at what its files are merged to. -/
theorem text_congr {c : Command} {settings : Settings} (defaults : Defaults)
    (hname : c.name? = none)
    (htemplate : ∀ path, c.template? settings = some path → read' path = read path)
    (hfiles : loadMerged read' paths none = loadMerged read files none) :
    (c.withFiles paths).text read' settings defaults =
      (c.withFiles files).text read settings defaults := by
  cases c with
  | render request =>
    have hload : loadTemplate read' (request.template <|> settings.template) =
        loadTemplate read (request.template <|> settings.template) := by
      cases h : (request.template <|> settings.template) with
      | none => rfl
      | some path => rw [loadTemplate, loadTemplate, htemplate path h]
    rw [name?] at hname
    simp only [withFiles, text, RenderRequest.page, hname, hload, hfiles]
  | merge request =>
    rw [name?] at hname
    simp only [withFiles, text, MergeRequest.document, hname, hfiles]
  | layout request => simp only [withFiles, text, LayoutRequest.report, hfiles]

/-- Documents that can all be read can be merged in groups, and a command that gives no name of its
own makes of the merged documents what it makes of all documents at once, or fails like that. -/
theorem text_staged (hstaged : Staged read read' groups paths)
    (hparse : ∀ path ∈ groups.flatten, ∃ a, loadAgenda read path = .ok a) :
    (∀ group ∈ groups, ∃ text, (MergeRequest.plain group).document read = .ok text) ∧
    ∀ (c : Command) (settings : Settings) (defaults : Defaults), c.name? = none →
      (∀ path, c.template? settings = some path → read' path = read path) →
      (c.withFiles paths).text read' settings defaults =
        (c.withFiles groups.flatten).text read settings defaults := by
  constructor
  · intro group hgroup
    obtain ⟨agendas, hagendas⟩ := exists_loads fun path hpath =>
      hparse path (List.mem_flatten.mpr ⟨group, hgroup, hpath⟩)
    exact ⟨_, hagendas.document⟩
  · intro c settings defaults hname htemplate
    exact text_congr defaults hname htemplate (hstaged.loadMerged hparse)

/-- Agendas named after their paths, but for one with a blank name, each with an entry that has a
blank description. -/
def sampleAgenda (path : String) : Agenda where
  name := if path = "b" then " " else path
  entries := [{
    title := path, startAt := "2025-03-10", endAt := "2025-03-11"
    description := some " ", categories := ["trip", ""] }]

/-- The documents of these agendas, and a template. -/
def sampleFiles : Reader := fun path =>
  .ok (if path = "t" then "\x7b\x7bname\x7d\x7d\x7b\x7bcontent\x7d\x7d"
    else (sampleAgenda path).text)

/-- The first two documents merged, the third merged by itself, and the template. -/
def sampleStage : Reader := fun path =>
  if path = "t" then sampleFiles path
  else ((MergeRequest.plain (if path = "ab" then ["a", "b"] else ["c"])).document
    sampleFiles).mapError fun _ => ⟨"no such document"⟩

/-- What the entry of a document is after reading. -/
def sampleEntry (title : String) : Entry where
  title
  startAt := "2025-03-10"
  endAt := "2025-03-11"
  categories := ["trip"]

/-- A page is the same from two stages, and both stages together are named after the two documents
that have a name and hold the entries of all three. -/
theorem text_staged_sample :
    (render { files := ["ab", "d"], template := some "t" }).text sampleStage {} ⟨2025, .utc⟩ =
      (render { files := ["a", "b", "c"], template := some "t" }).text sampleFiles {}
        ⟨2025, .utc⟩ ∧
    (merge { files := ["ab", "d"] }).text sampleStage {} ⟨2025, .utc⟩ =
      .ok (Agenda.text ⟨"a + c", [sampleEntry "a", sampleEntry "b", sampleEntry "c"]⟩ ++ "\n") := by
  have hstaged : Staged sampleFiles sampleStage [["a", "b"], ["c"]] ["ab", "d"] := by
    refine .cons ?_ (.cons ?_ .nil)
    · exact fun text htext => congrArg (Except.mapError _) htext
    · exact fun text htext => congrArg (Except.mapError _) htext
  have hload : ∀ path, path ≠ "t" →
      loadAgenda sampleFiles path = .ok (sampleAgenda path).normal := fun path ht =>
    loadAgenda_eq_ok_iff.mpr ⟨_, by rw [sampleFiles, if_neg ht], Agenda.ofText_text _⟩
  have hloads : Loads sampleFiles ["a", "b", "c"]
      [⟨"a", [sampleEntry "a"]⟩, ⟨" ", [sampleEntry "b"]⟩, ⟨"c", [sampleEntry "c"]⟩] :=
    .cons (hload "a" (by decide)) <| .cons (hload "b" (by decide)) <|
      .cons (hload "c" (by decide)) .nil
  have hparse : ∀ path ∈ ["a", "b", "c"], ∃ a, loadAgenda sampleFiles path = .ok a := by
    intro path hpath
    refine ⟨_, hload path ?_⟩
    rintro rfl
    revert hpath
    decide
  have htemplate : ∀ path, some "t" = some path → sampleStage path = sampleFiles path := by
    rintro _ ⟨⟩
    rfl
  have hsame := (text_staged hstaged hparse).2
  refine ⟨hsame (.render { files := [], template := some "t" }) _ _ rfl htemplate, ?_⟩
  refine (hsame (.merge { files := [] }) {} ⟨2025, .utc⟩ rfl (by simp [template?])).trans ?_
  have hmerge : Agenda.merge none
      [⟨"a", [sampleEntry "a"]⟩, ⟨" ", [sampleEntry "b"]⟩, ⟨"c", [sampleEntry "c"]⟩] =
      ⟨"a + c", [sampleEntry "a", sampleEntry "b", sampleEntry "c"]⟩ := by decide
  have hdocument := hloads.document
  rw [hmerge] at hdocument
  exact hdocument

end Command

end WallCalendar
