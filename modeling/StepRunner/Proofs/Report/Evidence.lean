import StepRunner.CommandLine.Command
import StepRunner.Proofs.Files.Room
import StepRunner.Proofs.Report.Rows

/-!
# The evidence of a report

The row of a failed case links to a file with its screenshot. The file has its name from the case's id, but
not every id has a name of its own, and not every name is one of a file: `evidence_kept_iff` tells when all
links of a report lead to what was captured.

* `fileName_eq_iff`, `isName_fileName`: the names of screenshot files;
* `writeImages_ready`: writing screenshots, of which the last one of a name stays (`fileAfter`);
* `kept_of_plain`: different ids of plain characters that are short enough keep the evidence.
-/

namespace StepRunner

open Files Number Text

namespace Report

variable {run : Run} {now : Instant} {c c' : TestCase} {r : CaseResult} {bytes : List UInt8}
  {report : Report} {t t' : Tree} {folder : Path} {p : Place} {name id id' : String}
  {images : List (String × List UInt8)}

/-! ## 1. Names -/

theorem nameFrom_eq_self {cs : List Char} (h : ∀ ch ∈ cs, isNameChar ch = true) (inRun : Bool) :
    nameFrom inRun cs = cs := by
  induction cs generalizing inRun with
  | nil => rfl
  | cons ch cs ih =>
      rw [List.forall_mem_cons] at h
      rw [nameFrom, if_pos h.1, ih h.2]

/-- An id of characters that a file name keeps stands for itself. -/
theorem safeName_eq_self (hne : id ≠ "") (h : ∀ ch ∈ id.toList, isNameChar ch = true) : safeName id = id := by
  rw [safeName, if_neg hne, nameFrom_eq_self h, String.ofList_toList]

/-- **Two cases have one file** if the same text stands for their ids. -/
theorem fileName_eq_iff : fileName id = fileName id' ↔ safeName id = safeName id' := by
  unfold fileName
  constructor
  · intro h
    have hlist := congrArg String.toList h
    rw [String.toList_append, String.toList_append] at hlist
    exact String.toList_inj.mp (List.append_cancel_right hlist)
  · intro h
    rw [h]

/-- The file of a case has the name of a file, if it is not too long. -/
theorem isName_fileName (h : (fileName id).utf8ByteSize ≤ nameLimit) : IsName (fileName id) where
  not_up hup := by
    have hlength := congrArg (fun name => name.toList.length) hup
    simp [fileName] at hlength
  fits := h
  no_zero := fun hzero => absurd (isNameChar_fileName id _ hzero) (by decide)

theorem isName_imageFolder : IsName imageFolder := ⟨by decide, by decide, by decide⟩

theorem isName_textFile : IsName textFile := ⟨by decide, by decide, by decide⟩

/-! ## 2. Writing -/

/-- The folder is there, and nothing in it is in the way of a report. -/
structure Ready (t : Tree) (folder : Path) (p : Place) : Prop where
  found : find t folder = .ok (p, .folder)
  images : ∀ content, t.entry (p ++ [imageFolder]) ≠ .file content
  image : ∀ name, t.entry (p ++ [imageFolder] ++ [name]) ≠ .folder
  text : t.entry (p ++ [textFile]) ≠ .folder

theorem find_folder_of_folders (hg : ∀ q, t.entry q = .folder → t'.entry q = .folder)
    (h : find t folder = .ok (p, .folder)) : find t' folder = .ok (p, .folder) := by
  rw [find_of_folders hg h, hg p (entry_of_find h).symm]

/-- Writing a file elsewhere than in place of the screenshots' folder. -/
theorem Ready.addFile {place : Place} (content : Content) (h : Ready t folder p)
    (hplace : place ≠ p ++ [imageFolder]) : Ready (t.addFile place content) folder p := by
  have hfolder (q : Place) : (t.addFile place content).entry q = .folder ↔ t.entry q = .folder := by
    rw [Tree.entry_eq_folder_iff, Tree.entry_eq_folder_iff]
    rfl
  refine ⟨find_folder_of_folders (fun q hq => (hfolder q).mpr hq) h.found, fun content' => ?_, fun name => ?_, ?_⟩
  · rw [Tree.entry_addFile_of_ne hplace.symm]
    exact h.images content'
  · exact mt (hfolder _).mp (h.image name)
  · exact mt (hfolder _).mp h.text

/-- The folder of the screenshots is made, unless it is there. -/
theorem Ready.makeImages (h : Ready t folder p) : ∃ t',
    makeFolders t (folder.child imageFolder) = (.ok (), t') ∧ Ready t' folder p ∧
      t'.entry (p ++ [imageFolder]) = .folder ∧
      ∀ name, t'.entry (p ++ [imageFolder] ++ [name]) = t.entry (p ++ [imageFolder] ++ [name]) := by
  have hmade := makeFolders_of_makeFolder (makeFolder_child h.found isName_imageFolder h.images)
  refine ⟨_, hmade, ?_⟩
  cases he : t.entry (p ++ [imageFolder]) with
  | folder =>
      rw [if_pos rfl]
      exact ⟨h, he, fun _ => rfl⟩
  | file content => exact absurd he (h.images content)
  | nothing =>
      rw [if_neg nofun]
      have hother {q : Place} (hq : q ≠ p ++ [imageFolder]) :
          (t.addFolder (p ++ [imageFolder])).entry q = t.entry q := Tree.entry_addFolder_of_ne hq
      have hbelow (name : String) : p ++ [imageFolder] ++ [name] ≠ p ++ [imageFolder] := by simp
      have hgrow := (Tree.keeps_addFolder [] he).folders
      refine ⟨⟨find_folder_of_folders hgrow h.found, ?_, fun name => ?_, ?_⟩, entry_addFolder_self,
        fun name => hother (hbelow name)⟩
      · rw [entry_addFolder_self]
        exact nofun
      · rw [hother (hbelow name)]
        exact h.image name
      · rw [hother (by simp [textFile, imageFolder])]
        exact h.text

/-- One screenshot is written into the folder. -/
theorem Ready.writeImage (bytes : List UInt8) (h : Ready t folder p) (hq : t.entry (p ++ [imageFolder]) = .folder)
    (hn : IsName name) : ∃ t',
    write t ((folder.child imageFolder).child name) (.bytes bytes) = .ok t' ∧ Ready t' folder p ∧
      t'.entry (p ++ [imageFolder]) = .folder ∧
      ∀ name', t'.entry (p ++ [imageFolder] ++ [name']) =
        if name' = name then .file (.bytes bytes) else t.entry (p ++ [imageFolder] ++ [name']) := by
  have hfound : find t (folder.child imageFolder) = .ok (p ++ [imageFolder], .folder) := by
    rw [find_child h.found isName_imageFolder, hq]
  refine ⟨_, write_child hfound hn (h.image name), h.addFile _ (by simp), Tree.folder_addFile hq, fun name' => ?_⟩
  split
  · rename_i heq
    rw [heq]
    exact Tree.entry_addFile_self (h.image name)
  · rename_i hne
    exact Tree.entry_addFile_of_ne (by simpa using hne)

/-- What stands under a name after screenshots were written. -/
def fileAfter (name : String) (old : Entry) (images : List (String × List UInt8)) : Entry :=
  images.foldl (fun e image => if name = image.1 then .file (.bytes image.2) else e) old

theorem fileAfter_cons {image : String × List UInt8} {old : Entry} : fileAfter name old (image :: images) =
    fileAfter name (if name = image.1 then .file (.bytes image.2) else old) images := rfl

/-- **Writing screenshots** into a folder that is ready for them. -/
theorem writeImages_ready (h : Ready t folder p) (hnames : ∀ image ∈ images, IsName image.1) : ∃ t',
    CommandLine.writeImages folder t images = (.ok (), t') ∧ Ready t' folder p ∧
      (images ≠ [] → t'.entry (p ++ [imageFolder]) = .folder) ∧
      ∀ name, t'.entry (p ++ [imageFolder] ++ [name]) =
        fileAfter name (t.entry (p ++ [imageFolder] ++ [name])) images := by
  induction images generalizing t with
  | nil => exact ⟨t, rfl, h, fun hne => absurd rfl hne, fun _ => rfl⟩
  | cons image images ih =>
      rw [List.forall_mem_cons] at hnames
      obtain ⟨t₁, hmake, hready, hfolder, hsame⟩ := h.makeImages
      obtain ⟨t₂, hwrite, hready, hfolder, hentry⟩ :=
        hready.writeImage image.2 hfolder hnames.1
      obtain ⟨t', hrest, hready, hfolder', hafter⟩ := ih hready hnames.2
      refine ⟨t', ?_, hready, fun _ => ?_, fun name => ?_⟩
      · rw [CommandLine.writeImages, hmake]
        dsimp only
        rw [hwrite]
        exact hrest
      · cases images with
        | nil =>
            cases hrest
            exact hfolder
        | cons => exact hfolder' nofun
      · rw [hafter name, fileAfter_cons, hentry name, hsame name]

/-- **Writing a report** into a folder that is ready for it: what can be read under the name of a screenshot
    is what stays under it. -/
theorem writeReport_ready (h : Ready t folder p) (hnames : ∀ image ∈ report.screenshots, IsName image.1) :
    ∃ t', CommandLine.writeReport folder t report = (.ok (), t') ∧
      ∀ image ∈ report.screenshots, ∀ content,
        Files.read t' ((folder.child imageFolder).child image.1) = .ok content ↔
          fileAfter image.1 (t.entry (p ++ [imageFolder] ++ [image.1])) report.screenshots = .file content := by
  obtain ⟨t₁, himages, hready, hfolder, hafter⟩ := writeImages_ready h hnames
  have htext := write_child (c := .text report.text) hready.found isName_textFile hready.text
  have hready' := hready.addFile (.text report.text)
    (show p ++ [textFile] ≠ p ++ [imageFolder] by simp [textFile, imageFolder])
  refine ⟨_, by rw [CommandLine.writeReport, himages]; dsimp only; rw [htext], fun image hmem content => ?_⟩
  have hfound : find (t₁.addFile (p ++ [textFile]) (.text report.text)) (folder.child imageFolder) =
      .ok (p ++ [imageFolder], .folder) := by
    rw [find_child hready'.found isName_imageFolder]
    exact congrArg (fun e => Except.ok (_, e)) (Tree.folder_addFile (hfolder (List.ne_nil_of_mem hmem)))
  have hother : p ++ [imageFolder] ++ [image.1] ≠ p ++ [textFile] := by simp
  unfold Files.read
  rw [find_child hfound (hnames image hmem), Tree.entry_addFile_of_ne hother, hafter image.1]
  cases fileAfter image.1 (t.entry (p ++ [imageFolder] ++ [image.1])) report.screenshots with
  | folder | nothing => exact ⟨nofun, nofun⟩
  | file content' =>
      rw [Except.ok.injEq, Entry.file.injEq]

/-- No part of a path that leads somewhere is too long. -/
theorem fits_of_walk {names : List String} {place : Place} {found : Place × Entry}
    (h : walk t place names = .ok found) : ∀ name ∈ names, name.utf8ByteSize ≤ nameLimit := by
  induction names generalizing place with
  | nil => exact nofun
  | cons name rest ih =>
      rw [walk.eq_2] at h
      split at h
      · cases h
      · rename_i hfits
        refine List.forall_mem_cons.mpr ⟨Nat.not_lt.mp hfits, ?_⟩
        dsimp only at h
        split at h
        · exact ih h
        · split at h
          · rename_i hlast
            rw [List.isEmpty_iff.mp hlast]
            exact nofun
          · cases h
        · split at h
          · rename_i hlast
            rw [List.isEmpty_iff.mp hlast]
            exact nofun
          · cases h

/-- The names of screenshots that could be written fit. -/
theorem fits_of_writeImages (h : (CommandLine.writeImages folder t images).1 = .ok ()) :
    ∀ image ∈ images, image.1.utf8ByteSize ≤ nameLimit := by
  induction images generalizing t with
  | nil => exact nofun
  | cons image images ih =>
      rw [CommandLine.writeImages] at h
      split at h
      · cases h
      · split at h
        · cases h
        · rename_i hwrite
          obtain ⟨q, e, hfind, -, -⟩ := write_eq_ok hwrite
          refine List.forall_mem_cons.mpr ⟨?_, ih h⟩
          exact fits_of_walk (find_eq_ok_iff.mp hfind).2 _ (List.mem_append_right _ List.mem_cons_self)

theorem fits_of_writeReport (h : (CommandLine.writeReport folder t report).1 = .ok ()) :
    ∀ image ∈ report.screenshots, image.1.utf8ByteSize ≤ nameLimit := by
  rw [CommandLine.writeReport] at h
  split at h
  · cases h
  · rename_i himages
    exact fits_of_writeImages (congrArg Prod.fst himages)

/-! ## 3. Names that are not apart -/

theorem fileAfter_of_absent {old : Entry} (h : ∀ image ∈ images, name ≠ image.1) :
    fileAfter name old images = old := by
  induction images generalizing old with
  | nil => rfl
  | cons image images ih =>
      rw [List.forall_mem_cons] at h
      rw [fileAfter_cons, if_neg h.1, ih h.2]

/-- Under the name of a screenshot is one of that name. -/
theorem exists_fileAfter (old : Entry) (h : ∃ image ∈ images, name = image.1) :
    ∃ image ∈ images, name = image.1 ∧ fileAfter name old images = .file (.bytes image.2) := by
  induction images generalizing old with
  | nil => obtain ⟨image, ⟨⟩, -⟩ := h
  | cons image images ih =>
      rw [fileAfter_cons]
      by_cases hlater : ∃ image ∈ images, name = image.1
      · obtain ⟨image', hmem, hname, hafter⟩ := ih _ hlater
        exact ⟨image', List.mem_cons_of_mem _ hmem, hname, hafter⟩
      · have habsent : ∀ image ∈ images, name ≠ image.1 := fun image hmem heq => hlater ⟨image, hmem, heq⟩
        obtain ⟨image', hmem, hname⟩ := h
        rcases List.mem_cons.mp hmem with rfl | hmem
        · exact ⟨image', List.mem_cons_self, hname, by rw [fileAfter_of_absent habsent, if_pos hname]⟩
        · exact absurd hname (habsent image' hmem)

/-- **Every screenshot stays** under its name if all of that name are the same, and not otherwise. -/
theorem fileAfter_iff (old : String → Entry) :
    (∀ image ∈ images, fileAfter image.1 (old image.1) images = .file (.bytes image.2)) ↔
      ∀ image ∈ images, ∀ image' ∈ images, image.1 = image'.1 → image.2 = image'.2 := by
  constructor
  · intro h image hmem image' hmem' heq
    have hone := h image hmem
    rw [heq, h image' hmem'] at hone
    exact (Content.bytes.inj (Entry.file.inj hone)).symm
  · intro h image hmem
    obtain ⟨image', hmem', heq, hafter⟩ := exists_fileAfter (old image.1) ⟨image, hmem, rfl⟩
    rw [hafter, h image hmem image' hmem' heq]

/-! ## 4. Evidence -/

/-- The case failed, and its screenshot was captured from the bytes. -/
def Documented (run : Run) (c : TestCase) (bytes : List UInt8) : Prop :=
  ∃ r, run.caseResults.result? c.id = some r ∧ r.passed = false ∧ Captured c r bytes

/-- The report has a row for the failed case, with a link to a file among its screenshots. -/
def LinksTo (report : Report) (c : TestCase) (r : CaseResult) (name : String) : Prop :=
  ∃ time, report.HasLine (rowOf [idCell c.id, cell (some c.title), time, cell r.error, cell r.message,
    "[png](screenshots/" ++ name ++ ")"])

/-- The report is made and written into the folder, and the row of every failed case links to a file with
    exactly what was captured for it. -/
def EvidenceKept (t : Tree) (folder : Path) (run : Run) (now : Instant) : Prop :=
  ∃ report t', ofRun run now = .ok report ∧ CommandLine.writeReport folder t report = (.ok (), t') ∧
    ∀ c ∈ run.testCases, ∀ bytes, Documented run c bytes → ∃ r, run.caseResults.result? c.id = some r ∧
      LinksTo report c r (fileName c.id) ∧
      Files.read t' ((folder.child imageFolder).child (fileName c.id)) = .ok (.bytes bytes)

/-- Every failed case has a screenshot that was captured. -/
def AllCaptured (run : Run) : Prop :=
  ∀ c ∈ run.testCases, ∀ r, run.caseResults.result? c.id = some r → r.passed = false →
    ∃ bytes, Captured c r bytes

/-- The folder is there and is empty. -/
structure Vacant (t : Tree) (folder : Path) (p : Place) : Prop where
  found : find t folder = .ok (p, .folder)
  empty : ∀ more, more ≠ [] → t.entry (p ++ more) = .nothing

theorem Vacant.ready (h : Vacant t folder p) : Ready t folder p := by
  have hempty (more : List String) (hne : more ≠ []) (e : Entry) (he : e ≠ .nothing) : t.entry (p ++ more) ≠ e := by
    rw [h.empty more hne]
    exact he.symm
  refine ⟨h.found, fun content => hempty _ (by simp) _ nofun, fun name => ?_, hempty _ (by simp) _ nofun⟩
  rw [List.append_assoc]
  exact hempty _ (by simp) _ nofun

theorem imageFile?_of_captured (h : Captured c r bytes) : imageFile? c r = some (fileName c.id, bytes) := by
  rw [imageFile?, imageBytes?_of_captured h]
  rfl

theorem imageOf?_of_documented (h : Documented run c bytes) : imageOf? run c = some (fileName c.id, bytes) := by
  obtain ⟨r, hr, hfailed, hcaptured⟩ := h
  rw [imageOf?, hr, Option.bind_some, if_neg (by simp [hfailed]), imageFile?_of_captured hcaptured]

/-- What is written for a case whose failures were all captured is what was captured for it. -/
theorem documented_of_imageOf? (hall : AllCaptured run) (hc : c ∈ run.testCases)
    {image : String × List UInt8} (h : imageOf? run c = some image) :
    Documented run c image.2 ∧ image.1 = fileName c.id := by
  obtain ⟨r, hr, himage⟩ := Option.bind_eq_some_iff.mp h
  split at himage
  · cases himage
  · rename_i hfailed
    obtain ⟨bytes, hcaptured⟩ := hall c hc r hr (by simpa using hfailed)
    rw [imageFile?_of_captured hcaptured] at himage
    cases himage
    exact ⟨⟨r, hr, by simpa using hfailed, hcaptured⟩, rfl⟩

/-- The files of a run whose failures were all captured. -/
theorem mem_images (hall : AllCaptured run) {image : String × List UInt8} :
    image ∈ run.testCases.filterMap (imageOf? run) ↔
      ∃ c ∈ run.testCases, Documented run c image.2 ∧ image.1 = fileName c.id := by
  rw [List.mem_filterMap]
  constructor
  · rintro ⟨c, hc, h⟩
    exact ⟨c, hc, documented_of_imageOf? hall hc h⟩
  · rintro ⟨c, hc, hdocumented, hname⟩
    exact ⟨c, hc, by rw [imageOf?_of_documented hdocumented, ← hname]⟩

/-- The names of all screenshot files fit. -/
def NamesFit (run : Run) : Prop :=
  ∀ c ∈ run.testCases, ∀ bytes, Documented run c bytes → (fileName c.id).utf8ByteSize ≤ nameLimit

/-- Failed cases for whose ids the same text stands have the same screenshot. -/
def NamesAgree (run : Run) : Prop :=
  ∀ c ∈ run.testCases, ∀ c' ∈ run.testCases, ∀ bytes bytes', Documented run c bytes →
    Documented run c' bytes' → safeName c.id = safeName c'.id → bytes = bytes'

/-- The files agree as the names do. -/
theorem namesAgree_iff (hall : AllCaptured run) : NamesAgree run ↔
    ∀ image ∈ run.testCases.filterMap (imageOf? run), ∀ image' ∈ run.testCases.filterMap (imageOf? run),
      image.1 = image'.1 → image.2 = image'.2 := by
  constructor
  · intro h image hmem image' hmem' heq
    obtain ⟨c, hc, hdocumented, hname⟩ := (mem_images hall).mp hmem
    obtain ⟨c', hc', hdocumented', hname'⟩ := (mem_images hall).mp hmem'
    rw [hname, hname', fileName_eq_iff] at heq
    exact h c hc c' hc' _ _ hdocumented hdocumented' heq
  · intro h c hc c' hc' bytes bytes' hdocumented hdocumented' heq
    exact h (fileName c.id, bytes) ((mem_images hall).mpr ⟨c, hc, hdocumented, rfl⟩) (fileName c'.id, bytes')
      ((mem_images hall).mpr ⟨c', hc', hdocumented', rfl⟩) (fileName_eq_iff.mpr heq)

theorem linksTo_of_ofRun (h : ofRun run now = .ok report) (hc : c ∈ run.testCases)
    (hdocumented : Documented run c bytes) :
    ∃ r, run.caseResults.result? c.id = some r ∧ LinksTo report c r (fileName c.id) := by
  obtain ⟨r, hr, hfailed, hcaptured⟩ := hdocumented
  obtain ⟨time, hline⟩ := hasLine_of_failed h hc hr hfailed
  refine ⟨r, hr, time, ?_⟩
  rw [failedRow, imageFile?_of_captured hcaptured] at hline
  exact hline

/-- A report whose names fit and agree keeps its evidence. -/
theorem kept_of_names (hready : Ready t folder p) (hall : AllCaptured run) (hshown : Shown run)
    (hfit : NamesFit run) (hagree : NamesAgree run) : EvidenceKept t folder run now := by
  obtain ⟨report, hreport⟩ := exists_ofRun_iff.mpr hshown
  have hscreenshots := screenshots_of_ofRun hreport
  have hnames : ∀ image ∈ report.screenshots, IsName image.1 := by
    intro image hmem
    rw [hscreenshots] at hmem
    obtain ⟨c, hc, hdocumented, hname⟩ := (mem_images hall).mp hmem
    rw [hname]
    exact isName_fileName (hfit c hc _ hdocumented)
  obtain ⟨t', hwrite, hread⟩ := writeReport_ready hready hnames
  refine ⟨report, t', hreport, hwrite, fun c hc bytes hdocumented => ?_⟩
  obtain ⟨r, hr, hlinks⟩ := linksTo_of_ofRun hreport hc hdocumented
  have hmem : (fileName c.id, bytes) ∈ report.screenshots := by
    rw [hscreenshots]
    exact (mem_images hall).mpr ⟨c, hc, hdocumented, rfl⟩
  refine ⟨r, hr, hlinks, (hread _ hmem _).mpr ?_⟩
  rw [namesAgree_iff hall, ← hscreenshots] at hagree
  exact (fileAfter_iff fun name => t.entry (p ++ [imageFolder] ++ [name])).mpr hagree _ hmem

/-- A report that keeps its evidence has names that fit and agree. -/
theorem names_of_kept (hready : Ready t folder p) (hall : AllCaptured run) (h : EvidenceKept t folder run now) :
    Shown run ∧ NamesFit run ∧ NamesAgree run := by
  obtain ⟨report, t', hreport, hwrite, hkept⟩ := h
  have hscreenshots := screenshots_of_ofRun hreport
  have hmem {c : TestCase} {bytes : List UInt8} (hc : c ∈ run.testCases) (h : Documented run c bytes) :
      (fileName c.id, bytes) ∈ report.screenshots := by
    rw [hscreenshots]
    exact (mem_images hall).mpr ⟨c, hc, h, rfl⟩
  have hfits := fits_of_writeReport (congrArg Prod.fst hwrite)
  have hnames : ∀ image ∈ report.screenshots, IsName image.1 := by
    intro image himage
    have hfit := hfits image himage
    rw [hscreenshots] at himage
    obtain ⟨c, hc, -, hname⟩ := (mem_images hall).mp himage
    rw [hname] at hfit ⊢
    exact isName_fileName hfit
  obtain ⟨t'', hwrite', hread⟩ := writeReport_ready hready hnames
  rw [hwrite] at hwrite'
  cases hwrite'
  refine ⟨exists_ofRun_iff.mp ⟨report, hreport⟩, fun c hc bytes h => hfits _ (hmem hc h), ?_⟩
  rw [namesAgree_iff hall, ← hscreenshots]
  refine (fileAfter_iff fun name => t.entry (p ++ [imageFolder] ++ [name])).mp fun image himage => ?_
  refine (hread image himage _).mp ?_
  rw [hscreenshots] at himage
  obtain ⟨c, hc, hdocumented, hname⟩ := (mem_images hall).mp himage
  obtain ⟨r, -, -, hbytes⟩ := hkept c hc _ hdocumented
  rw [hname]
  exact hbytes

/-- Different ids of plain characters that are not too long keep the evidence. -/
theorem kept_of_plain (hvacant : Vacant t folder p) (hall : AllCaptured run) (hshown : Shown run)
    (hplain : ∀ c ∈ run.testCases, c.id ≠ "" ∧ (∀ ch ∈ c.id.toList, isNameChar ch = true) ∧
      c.id.utf8ByteSize + 4 ≤ nameLimit) : EvidenceKept t folder run now := by
  refine kept_of_names hvacant.ready hall hshown ?_ ?_
  · intro c hc bytes hdocumented
    obtain ⟨hne, hchars, hfits⟩ := hplain c hc
    rw [fileName, safeName_eq_self hne hchars, String.utf8ByteSize_append]
    exact hfits
  · intro c hc c' hc' bytes bytes' hdocumented hdocumented' heq
    obtain ⟨hne, hchars, -⟩ := hplain c hc
    obtain ⟨hne', hchars', -⟩ := hplain c' hc'
    rw [safeName_eq_self hne hchars, safeName_eq_self hne' hchars'] at heq
    have hone := imageOf?_of_documented hdocumented
    have hsame : imageOf? run c = imageOf? run c' := by
      unfold imageOf? imageFile?
      rw [heq]
    rw [hsame, imageOf?_of_documented hdocumented'] at hone
    exact (Prod.mk.inj (Option.some.inj hone)).2.symm

/-! ## 5. A name for two cases -/

/-- A browser whose page is empty, and looks like this. -/
def camera (image : List UInt8) : Browser Unit where
  respond _ c := match c with
    | .screenshot => ({ outcome := .ok (.image image) }, ())
    | .waitFor _ _ _ => ({ outcome := .error (.refused "nothing there") }, ())
    | _ => ({}, ())

/-- A case that looks in vain for something to click. -/
def lookingFor (id : String) : TestCase := { id, title := "Save", steps := ["Click 'Save'"] }

/-- What the camera shows of a case is captured for it. -/
theorem captured_camera {image : List UInt8} {d d' : Drive Unit}
    (h : (runCaseBy {} (camera image) .browser c).run d = (.ok r, d')) (hfresh : d.trace = [])
    (hshot : .screenshot ∈ d'.trace) : Captured c r image := by
  obtain ⟨xs, htalk, -⟩ := Case.doesShow_runCaseBy {} (camera image) c d
  rw [h] at htalk
  refine ⟨Unit, {}, camera image, d, d', xs, h, htalk, ?_⟩
  have hcamera := htalk.answers.forall_mem
    (p := fun x => x.call = .screenshot → x.outcome = .ok (.image image)) fun s call => by rintro ⟨⟩; rfl
  rw [htalk.trace, hfresh, List.nil_append] at hshot
  obtain ⟨⟨call, outcome⟩, hmem, hcall⟩ := List.mem_map.mp hshot
  cases hcall
  cases hcamera _ hmem rfl
  exact hmem

theorem exists_captured {image : List UInt8} {d : Drive Unit} (hfresh : d.trace = [])
    (h : ((runCaseBy {} (camera image) .browser c).run d).1.toOption.map CaseResult.passed = some false ∧
      .screenshot ∈ ((runCaseBy {} (camera image) .browser c).run d).2.trace) :
    ∃ r, r.passed = false ∧ Captured c r image := by
  generalize hrun : (runCaseBy {} (camera image) .browser c).run d = ran at h
  obtain ⟨o, d'⟩ := ran
  obtain ⟨hfailed, hshot⟩ := h
  cases o with
  | error f => cases hfailed
  | ok r => exact ⟨r, Option.some.inj hfailed, captured_camera hrun hfresh hshot⟩

/-- A run of two cases that failed with these results. -/
def twoFailures (id id' : String) (r r' : CaseResult) : Run where
  id := "10101T000000Z_00000001"
  project := "shop"
  testCases := [lookingFor id, lookingFor id']
  config := {}
  status := .completed
  counts := { total := 2, failed := 2 }
  caseResults := [(id, some r), (id', some r')]
  createdAt := ⟨0⟩

/-- The folder from which all paths start. -/
def topFolder : Path := { root := "", parts := [] }

theorem vacant_topFolder : Vacant {} topFolder [] where
  found := find_eq_ok_iff.mpr ⟨by rw [← Bool.not_eq_true, hasZero_iff]; simp [topFolder], rfl⟩
  empty more hne := Tree.entry_eq_nothing_iff.mpr ⟨by simp [hne], rfl⟩

end Report

end StepRunner
