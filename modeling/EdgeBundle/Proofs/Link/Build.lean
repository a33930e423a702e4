import EdgeBundle.Build
import EdgeBundle.Proofs.Bundle.Frame
import EdgeBundle.Proofs.Files.Atomic
import EdgeBundle.Proofs.Files.Collection
import EdgeBundle.Proofs.Link.Success
import EdgeBundle.Proofs.Text.ByteOrder

/-!
# Builds on a disk

Nothing is written before a link has succeeded: collecting and linking only read, so a build that
fails there leaves the disk as it is. After a build there is the bundle on the disk, and the report
says what it is.

## Main definitions

* `linkCollected`: what a link makes of the collected files.

## Main statements

* `reads_linkBy`: a link only reads.
* `run_buildBy`: a build is a link and, if that succeeds, the writing of a file.
* `build_writes_only_bundle`: what a build leaves on the disk.
-/

namespace EdgeBundle

open Collect

variable {σ ε ε' α β : Type} {s : σ} {disk after : Disk} {home : Option String}
  {path out content : String}

/-! ## Linking -/

theorem Reads.mapError {x : LoggedT ε (StateM σ) α} {log : Logged ε α} (h : Reads s x.run log)
    (f : ε → ε') : Reads s (x.mapError f).run (log.mapError f) :=
  Reads.bind h (.pure _)

theorem run_bind_logged (x : LoggedT ε (StateM σ) α) (f : α → LoggedT ε (StateM σ) β) (s : σ) :
    (x >>= f).run.run s = match (x.run.run s).1.result with
      | .ok a => (⟨((f a).run.run (x.run.run s).2).1.result,
          (x.run.run s).1.warnings ++ ((f a).run.run (x.run.run s).2).1.warnings⟩,
          ((f a).run.run (x.run.run s).2).2)
      | .error e => (⟨.error e, (x.run.run s).1.warnings⟩, (x.run.run s).2) := by
  change StateT.run (LoggedT.bind x f) s = _
  rw [LoggedT.bind, run_bind]
  generalize x.run.run s = first
  obtain ⟨⟨result, warnings⟩, s'⟩ := first
  cases result <;> rfl

theorem run_pure_logged (a : α) (s : σ) :
    (pure a : LoggedT ε (StateM σ) α).run.run s = (⟨.ok a, []⟩, s) := rfl

theorem run_ofResult (x : StateM σ (Except ε α)) (s : σ) :
    (LoggedT.ofResult x).run.run s = (⟨(x.run s).1, []⟩, (x.run s).2) := rfl

namespace Disk

/-- Asking leaves a disk as it is. -/
theorem keepsAsking (P : Disk → Prop) : KeepsAsking P where
  readBytes _ _ hdisk := hdisk
  listFolder _ _ hdisk := hdisk
  kindOf _ _ hdisk := hdisk
  realPath _ _ hdisk := hdisk
  depthLimit _ hdisk := hdisk

end Disk

variable {collect : List (Logged Error LinkedModule) → Logged Error (List LinkedModule)}

/-- What a link makes of the collected files. -/
def linkCollected
    (collect : List (Logged Error LinkedModule) → Logged Error (List LinkedModule))
    (config : Config) (collected : Logged FileError (List Record)) : Logged Error LinkOutput := do
  Logged.ofExcept config.validate
  let records ← collected.mapError Error.ofFile
  LinkOutput.ofRecordsBy collect config records

/-- A link collects the files and makes its output of them, and it only reads. -/
theorem reads_linkBy
    (collect : List (Logged Error LinkedModule) → Logged Error (List LinkedModule))
    (disk : Disk) (config : Config) :
    ∃ collected,
      Reads disk (collectInputs config.serverDir config.publicDir).run collected ∧
      Reads disk (linkBy collect config).run (linkCollected collect config collected) := by
  obtain ⟨collected, hcollected⟩ :=
    ((Disk.keepsAsking (· = disk)).collectInputs config.serverDir config.publicDir).exists_reads
  refine ⟨collected, hcollected, ?_⟩
  exact .bind_logged (.ofLogged _) fun _ _ =>
    .bind_logged (hcollected.mapError _) fun _ _ => .ofLogged _

/-! ## Writing the bundle -/

/-- A build is a link and, if that succeeds, the writing of the bundle. -/
theorem run_buildBy {linked : Logged Error LinkOutput} (hash : ByteArray → String)
    (home : Option String) (config : Config) (h : Reads disk (linkBy collect config).run linked) :
    (buildBy collect hash home config : LoggedT Error (StateM Disk) _).run.run disk =
      match linked.result with
      | .ok output =>
        let (written, after) :=
          (writeAtomic home config.output output.bundle.text : StateM Disk _).run disk
        (⟨written.map (output.report hash), linked.warnings⟩, after)
      | .error e => (⟨.error e, linked.warnings⟩, disk) := by
  rw [buildBy, run_bind_logged, h]
  obtain ⟨result, warnings⟩ := linked
  cases result with
  | error e => rfl
  | ok output =>
    simp only [run_bind_logged, run_ofResult]
    generalize (writeAtomic home config.output output.bundle.text : StateM Disk _).run disk = ended
    obtain ⟨written, after⟩ := ended
    -- writing has no warnings
    cases written with
    | error e =>
      simp only [List.append_nil]
      rfl
    | ok out =>
      simp only [run_pure_logged, List.append_nil]
      rfl

theorem toByteArray_encode (s : String) : ⟨(Utf8.encode s).toArray⟩ = s.toUTF8 := by
  rw [Utf8.encode, ← utf8Bytes_eq, utf8Bytes]

theorem length_encode (s : String) : (Utf8.encode s).length = s.utf8ByteSize := by
  rw [Utf8.encode, ← utf8Bytes_eq, utf8Bytes, Array.length_toList]
  rfl

/-- On a disk without links a build whose link fails leaves the disk as it is; what fails may be the
configuration, the collection of the files or what is made of them. After a build that succeeds, the
bundle is read under the path of the report, and the report has the size and the digest of what is
there and the counts of the link. It makes no difference how the modules are gathered and what the
digest of bytes is. -/
theorem build_writes_only_bundle
    (collect : List (Logged Error LinkedModule) → Logged Error (List LinkedModule))
    (hash : ByteArray → String) (htree : disk.IsTree) (hlinks : disk.LinkFree)
    (home : Option String) (config : Config) :
    ∃ collected,
      Reads disk (collectInputs config.serverDir config.publicDir).run collected ∧
      Reads disk (linkBy collect config).run (linkCollected collect config collected) ∧
      (∀ e, (linkCollected collect config collected).result = .error e →
        (buildBy collect hash home config : LoggedT Error (StateM Disk) _).run.run disk =
          (⟨.error e, (linkCollected collect config collected).warnings⟩, disk)) ∧
      ∀ report warnings after,
        (buildBy collect hash home config : LoggedT Error (StateM Disk) _).run.run disk =
          (⟨.ok report, warnings⟩, after) →
        ∃ output bytes, (linkCollected collect config collected).result = .ok output ∧
          expandTilde home config.output = .ok report.output ∧
          bytes = Utf8.encode output.bundle.text ∧
          after.readBytes report.output = .ok bytes ∧
          report =
            { output := report.output
              filesDiscovered := output.filesDiscovered
              modulesBundled := output.modules.length
              staticFiles := output.vfs.size
              droppedClientAssets := output.dropped.length
              patchesApplied := (output.bundle.patches.filter PatchOutcome.isApplied).length
              bytes := bytes.length
              digest := hash ⟨bytes.toArray⟩ } := by
  obtain ⟨collected, hcollected, hlink⟩ := reads_linkBy collect disk config
  refine ⟨collected, hcollected, hlink, fun e he => ?_, fun report warnings after h => ?_⟩
  · rw [run_buildBy hash home config hlink, he]
  rw [run_buildBy hash home config hlink] at h
  split at h
  -- the link has gone well, and writing is the only change of the disk
  next output houtput =>
    generalize hwrite :
      (writeAtomic home config.output output.bundle.text : StateM Disk _).run disk = ended at h
    obtain ⟨written, after'⟩ := ended
    cases written with
    | error e => cases h
    | ok out =>
      cases h
      obtain ⟨hout, hread⟩ := readBytes_of_writeAtomic htree hlinks hwrite
      refine ⟨output, _, houtput, hout, rfl, hread, ?_⟩
      rw [length_encode, toByteArray_encode]
      rfl
  next => cases h

section Sample

/-- A module with a line for the patches. -/
def smallModule : String := "trapUnhandledErrors();\nexport default 1;"

/-- A server tree with a module and a client script. -/
def smallServer : FileTree :=
  .folder [("main.mjs", .file (Utf8.encode smallModule)),
    ("public", .folder [("assets", .folder [("c.js", .file [])])])]

/-- A public tree with an image. -/
def smallAssets : FileTree :=
  .folder [("é.svg", .file (Utf8.encode "<svg/>"))]

/-- The trees in the current folder. -/
def smallTrees : Disk where
  entries := [(["srv"], .folder), (["srv", "main.mjs"], .file (Utf8.encode smallModule)),
    (["srv", "public"], .folder), (["srv", "public", "assets"], .folder),
    (["srv", "public", "assets", "c.js"], .file []), (["pub"], .folder),
    (["pub", "é.svg"], .file (Utf8.encode "<svg/>"))]
  current := []

/-- A configuration for them. -/
def smallConfig : Config where
  serverDir := "srv"
  publicDir := "pub"
  output := "dist/deploy.ts"
  entryModule := "main.mjs"

/-- The records of the trees. -/
def smallRecords : List Record :=
  [⟨⟨"main.mjs", by decide⟩, smallModule, .serverTree⟩,
    ⟨⟨"public/assets/c.js", by decide⟩, "", .serverTree⟩,
    ⟨⟨"public/é.svg", by decide⟩, "<svg/>", .publicTree⟩]

theorem smallServer_files :
    smallServer.files =
      [(["main.mjs"], Utf8.encode smallModule), (["public", "assets", "c.js"], [])] := by
  rw [smallServer, FileTree.files_folder_of_pairwise (by decide), List.flatMap_cons,
    List.flatMap_cons, FileTree.files_folder_of_pairwise (by decide), List.flatMap_singleton,
    FileTree.files_folder_of_pairwise (by decide)]
  rfl

theorem smallAssets_files : smallAssets.files = [(["é.svg"], Utf8.encode "<svg/>")] := by
  rw [smallAssets, FileTree.files_folder_of_pairwise (by decide)]
  rfl

theorem reads_collectInputs_small :
    Reads smallTrees (collectInputs "srv" "pub").run (recordsOf smallServer smallAssets) := by
  have hserver : smallTrees.Carries "srv" ["srv"] smallServer := by
    refine .folder rfl rfl (by decide) (List.forall_mem_cons.mpr ⟨.file rfl, ?_⟩)
    refine List.forall_mem_singleton.mpr (.folder rfl rfl (by decide) ?_)
    refine List.forall_mem_singleton.mpr (.folder rfl rfl (by decide) ?_)
    exact List.forall_mem_singleton.mpr (.file rfl)
  have hassets : smallTrees.Carries "pub" ["pub"] smallAssets :=
    .folder rfl rfl (by decide) (List.forall_mem_singleton.mpr (.file rfl))
  have hnamed : smallServer.WellNamed := by
    refine .folder (by decide) (by decide) (List.forall_mem_cons.mpr ⟨.file, ?_⟩)
    refine List.forall_mem_singleton.mpr (.folder (by decide) (by decide) ?_)
    refine List.forall_mem_singleton.mpr (.folder (by decide) (by decide) ?_)
    exact List.forall_mem_singleton.mpr .file
  have hnamed' : smallAssets.WellNamed :=
    .folder (by decide) (by decide) (List.forall_mem_singleton.mpr .file)
  have haccepted : smallServer.IsAccepted := by
    rw [FileTree.isAccepted_iff, smallServer_files]
    decide
  have haccepted' : smallAssets.IsAccepted := by
    rw [FileTree.isAccepted_iff, smallAssets_files]
    decide
  exact (hserver.presents rfl rfl).reads_collectInputs (hassets.presents rfl rfl) hnamed hnamed'
    haccepted haccepted'

theorem result_recordsOf_small : (recordsOf smallServer smallAssets).result = .ok smallRecords := by
  have hserver : (smallServer.files.mapM (recordOf .serverTree)).result =
      .ok (smallRecords.take 2) := by
    rw [smallServer_files]
    exact Logged.result_mapM_eq_ok_iff.mpr
      (.cons (result_recordOf_encode smallModule ⟨"main.mjs", by decide⟩ (by decide))
        (.cons (result_recordOf_encode "" ⟨"public/assets/c.js", by decide⟩ (by decide)) .nil))
  have hassets : (smallAssets.files.mapM (recordOf .publicTree)).result =
      .ok (smallRecords.drop 2) := by
    rw [smallAssets_files]
    exact Logged.result_mapM_eq_ok_iff.mpr
      (.cons (result_recordOf_encode "<svg/>" ⟨"public/é.svg", by decide⟩ (by decide)) .nil)
  rw [recordsOf]
  exact Logged.result_bind_eq_ok hserver (Logged.result_bind_eq_ok hassets rfl)

/-- The code of the module, with the given lines before its value. -/
def smallCode (lines : String) : List Char :=
  "/* Module: main.mjs */\n(function() \x7b\n  let __DEFAULT_EXPORT__;\n".toList ++
    (lines.toList ++ ("__DEFAULT_EXPORT__ = 1;\n".toList ++
      "  __MODS__[\"main.mjs\"] = \x7b default: __DEFAULT_EXPORT__ \x7d;\n\x7d)();\n".toList))

/-- The module as it is linked. -/
def smallLinked : LinkedModule where
  path := ⟨"main.mjs", by decide⟩
  code := String.ofList (smallCode "trapUnhandledErrors();\n")
  exports := ["default"]
  references := []

/-- The bundle of the trees. -/
def smallBundle : Bundle where
  text := (Bundle.frame "Bunny" "file:///server/index.mjs" 1 1).before ++
    "\x7b\"public/é.svg\":\"<svg/>\"\x7d" ++
    (Bundle.frame "Bunny" "file:///server/index.mjs" 1 1).between ++
    String.ofList (smallCode "") ++
    (Bundle.frame "Bunny" "file:///server/index.mjs" 1 1).after
  patches := [⟨"guard-serve", .anchorMissing⟩, ⟨"remove-error-trap", .applied 1⟩]

/-- What a link gives for the trees. -/
def smallOutput : LinkOutput where
  bundle := smallBundle
  modules := [smallLinked]
  vfs := Vfs.empty.insert ⟨"public/é.svg", by decide⟩ "<svg/>"
  dropped := [⟨"public/assets/c.js", by decide⟩]
  findings := []
  filesDiscovered := 3

theorem result_assemble_small :
    (Bundle.assemble smallConfig Patch.defaults [smallLinked] smallOutput.vfs).result =
      .ok smallBundle := by
  have hjoined : (Bundle.joinedCode [smallLinked]).toList =
      smallCode "trapUnhandledErrors();\n" :=
    String.toList_ofList
  have hfiles : smallOutput.vfs.literal = "\x7b\"public/é.svg\":\"<svg/>\"\x7d" := by
    decide +kernel
  have hguard : Patch.guardServe.apply (smallCode "trapUnhandledErrors();\n") =
      (smallCode "trapUnhandledErrors();\n", .anchorMissing) := by
    decide +kernel
  have htrap : Patch.removeErrorTrap.apply (smallCode "trapUnhandledErrors();\n") =
      (smallCode "", .applied 1) := by
    decide +kernel
  have hpatched := Patch.result_applyAll_defaults (ε := Error)
    (smallCode "trapUnhandledErrors();\n")
  -- the patches run on characters, and the code of one module is joined to itself
  rw [hguard, htrap, ← hjoined] at hpatched
  rw [Bundle.assemble, Bundle.result_assembleWith_eq_ok TemplateEngine.documented_standard hpatched,
    Bundle.textIn_bundle, hfiles]
  rfl

theorem result_linkCollected_small :
    (linkCollected Logged.collect smallConfig (recordsOf smallServer smallAssets)).result =
      .ok smallOutput := by
  have hvalid : smallConfig.validate = .ok () := by decide
  have hmodule : (LinkedModule.ofSource smallConfig ⟨"main.mjs", by decide⟩ smallModule).result =
      .ok smallLinked := by
    decide +kernel
  have horder : linkOrder smallConfig
      (Record.select .executable smallConfig.clientAssetPrefix smallRecords) =
        [⟨⟨"main.mjs", by decide⟩, smallModule, .serverTree⟩] := by
    decide +kernel
  have hlinked : (LinkOutput.ofRecords smallConfig smallRecords).result = .ok smallOutput := by
    refine LinkOutput.result_ofRecords_eq_ok_iff.mpr ⟨[smallLinked], [], smallBundle, ?_,
      LinkedModule.result_checkReferences_eq_ok_iff.mpr ⟨rfl, nofun⟩, result_assemble_small, rfl⟩
    rw [horder]
    exact .cons hmodule .nil
  refine Logged.result_bind_eq_ok hvalid (Logged.result_bind_eq_ok ?_ hlinked)
  rw [Logged.mapError, result_recordsOf_small]
  rfl

/-- A build of two trees writes the bundle of the link, and a build of a folder that is not there
writes nothing. -/
theorem build_small :
    smallTrees.IsTree ∧ smallTrees.LinkFree ∧
      (∃ warnings after,
        (build none smallConfig : LoggedT Error (StateM Disk) _).run.run smallTrees =
          (⟨.ok
            { output := "dist/deploy.ts"
              filesDiscovered := 3
              modulesBundled := 1
              staticFiles := 1
              droppedClientAssets := 1
              patchesApplied := 1
              bytes := (Utf8.encode smallBundle.text).length
              digest := Blake3.hash ⟨(Utf8.encode smallBundle.text).toArray⟩ }, warnings⟩, after) ∧
        after.readBytes "dist/deploy.ts" = .ok (Utf8.encode smallBundle.text)) ∧
      (build none { smallConfig with serverDir := "src" } : LoggedT Error (StateM Disk) _).run.run
          smallTrees =
        (⟨.error (.validation "path" (FileError.notADirectory "src").message), []⟩,
          smallTrees) := by
  have htree : smallTrees.IsTree := by decide
  have hlinks : smallTrees.LinkFree := Disk.linkFree_of_entries (by decide)
  refine ⟨htree, hlinks, ?_, ?_⟩
  · obtain ⟨collected, hcollected, hlink, -, hok⟩ :=
      build_writes_only_bundle Logged.collect Blake3.hash htree hlinks none smallConfig
    -- reading gives one log only
    obtain rfl : collected = recordsOf smallServer smallAssets :=
      congrArg Prod.fst (Eq.trans (Eq.symm hcollected) reads_collectInputs_small)
    obtain ⟨warnings, after, hrun⟩ : ∃ warnings after,
        (build none smallConfig : LoggedT Error (StateM Disk) _).run.run smallTrees =
          (⟨.ok (smallOutput.report Blake3.hash "dist/deploy.ts"), warnings⟩, after) := by
      rw [build, run_buildBy Blake3.hash none smallConfig hlink, result_linkCollected_small]
      exact ⟨_, _, rfl⟩
    obtain ⟨output, bytes, houtput, -, rfl, hread, hreport⟩ := hok _ _ _ hrun
    obtain rfl : output = smallOutput :=
      Except.ok.inj (Eq.trans (Eq.symm houtput) result_linkCollected_small)
    rw [hreport] at hrun
    exact ⟨warnings, after, hrun, hread⟩
  · obtain ⟨collected, hcollected, hlink, herror, -⟩ :=
      build_writes_only_bundle Logged.collect Blake3.hash htree hlinks none
        { smallConfig with serverDir := "src" }
    have hmissing : Reads smallTrees (collectInputs "src" "pub").run
        ⟨.error (.notADirectory "src"), []⟩ := rfl
    obtain rfl : collected = ⟨.error (.notADirectory "src"), []⟩ :=
      congrArg Prod.fst (Eq.trans (Eq.symm hcollected) hmissing)
    exact herror _ rfl

end Sample

end EdgeBundle
