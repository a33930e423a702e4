import EdgeBundle.Proofs.Files.DiskTree
import EdgeBundle.Proofs.Logged
import EdgeBundle.Proofs.Text.Utf8

/-!
# Collecting two trees

The records of a tree are its files, one record for each, in the order of the tree. Nothing else of
the file system shows in them: neither where the trees lie nor in which order folders are listed.

## Main definitions

* `Place.joined`: a way as a text.
* `FileTree.IsAccepted`: all files of a tree have ways that are read as paths.
* `Record.IsOf`: a record is that of a file.
* `recordOf`: the record of a file, with a warning where it is not UTF-8.

## Main statements

* `Presents.reads_readTree`: the records of one tree.
* `collectInputs_trees`: the records of two trees.
-/

namespace EdgeBundle

/-- A way as a text, with slashes between the names. -/
def Place.joined (place : Place) : String :=
  String.ofList (joinSegments (place.map String.toList))

/-- The ways to the files of a tree have no backslashes and are read as paths. -/
def FileTree.IsAccepted (t : FileTree) : Prop :=
  ∀ place bytes, t.Holds place bytes →
    (∀ n ∈ place, '\\' ∉ n.toList) ∧ ∃ p, RelPath.ofText place.joined = .ok p

/-- A record is that of a file: it has the path of the file in its tree and the content as text. -/
structure Record.IsOf (origin : Origin) (f : Place × List UInt8) (r : Record) : Prop where
  /-- The path is the way to the file, after the head of the tree. -/
  text_path : r.path.text = origin.head ++ f.1.joined
  /-- The content is the text of the bytes. -/
  content_eq : r.content = Utf8.decodeLossy f.2
  /-- The tree is the one that the file is in. -/
  origin_eq : r.origin = origin

/-- Records of files have the paths of the files. -/
theorem Record.texts_of_isOf {origin : Origin} {files : List (Place × List UInt8)}
    {records : List Record} (h : List.Forall₂ (Record.IsOf origin) files records) :
    records.map (·.path.text) = files.map fun f => origin.head ++ f.1.joined := by
  induction h with
  | nil => rfl
  | cons hr _ ih => rw [List.map_cons, List.map_cons, hr.text_path, ih]

/-- Records of files have the texts of the files. -/
theorem Record.contents_of_isOf {origin : Origin} {files : List (Place × List UInt8)}
    {records : List Record} (h : List.Forall₂ (Record.IsOf origin) files records) :
    records.map (·.content) = files.map fun f => Utf8.decodeLossy f.2 := by
  induction h with
  | nil => rfl
  | cons hr _ ih => rw [List.map_cons, List.map_cons, hr.content_eq, ih]

/-- A tree is accepted if the ways to the files that are found are. -/
theorem FileTree.isAccepted_iff {t : FileTree} :
    t.IsAccepted ↔ ∀ f ∈ t.files,
      (∀ n ∈ f.1, '\\' ∉ n.toList) ∧ (RelPath.ofText f.1.joined).isOk = true := by
  constructor
  · rintro h ⟨place, bytes⟩ hf
    obtain ⟨hbackslash, p, hp⟩ := h place bytes (FileTree.mem_files.mp hf)
    exact ⟨hbackslash, by rw [hp]; rfl⟩
  · intro h place bytes hholds
    obtain ⟨hbackslash, hok⟩ := h (place, bytes) (FileTree.mem_files.mpr hholds)
    cases hp : RelPath.ofText place.joined with
    | ok p => exact ⟨hbackslash, p, rfl⟩
    | error e => rw [hp] at hok; cases hok

namespace Collect

/-- The record of a file, with a warning where the content is not UTF-8. -/
def recordOf (origin : Origin) (f : Place × List UInt8) : Logged FileError Record := do
  let path ← Logged.ofExcept (RelPath.ofText (origin.head ++ f.1.joined))
  let content ← textOf path f.2
  return ⟨path, content, origin⟩

variable {origin : Origin} {f : Place × List UInt8} {r : Record}

theorem result_textOf (path : RelPath) (bytes : List UInt8) :
    (textOf path bytes : Logged FileError String).result = .ok (Utf8.decodeLossy bytes) := by
  rw [textOf]
  cases h : Utf8.decode? bytes with
  | none => rfl
  | some text => rw [Utf8.decodeLossy_of_decode? h]; rfl

/-- A file has a record if its way is a path after the head of the tree. -/
theorem result_recordOf {p : RelPath} (hp : p.text = origin.head ++ f.1.joined) :
    (recordOf origin f).result = .ok ⟨p, Utf8.decodeLossy f.2, origin⟩ := by
  simp only [recordOf, ← hp, Logged.result_bind_eq_ok_iff, Logged.result_ofExcept, p.ofText_text,
    result_textOf, Logged.result_pure]
  exact ⟨p, rfl, _, rfl, rfl⟩

/-- The record of a file with a text in it has that text. -/
theorem result_recordOf_encode {place : Place} (text : String) (p : RelPath)
    (hp : p.text = origin.head ++ place.joined) :
    (recordOf origin (place, Utf8.encode text)).result = .ok ⟨p, text, origin⟩ := by
  have h := result_recordOf (f := (place, Utf8.encode text)) hp
  rwa [Utf8.decodeLossy_encode] at h

end Collect

open Collect

/-! ## Ways to files -/

section Ways

variable {root : String} {t : FileTree} {place : Place} {bytes : List UInt8}

theorem FileTree.WellNamed.of_holds (ht : t.WellNamed) (h : t.Holds place bytes) :
    ∀ n ∈ place, RelPath.isOrdinary n.toList = true ∧ '/' ∉ n.toList := by
  induction h with
  | file => exact nofun
  | folder hc _ ih =>
    obtain _ | ⟨-, hnames, hchildren⟩ := ht
    exact List.forall_mem_cons.mpr ⟨hnames _ hc, ih (hchildren _ hc)⟩

/-- The files of a tree lie below its top folder. -/
theorem FileTree.WellNamed.liesBelow (ht : t.WellNamed) (hkind : t.kind = .folder)
    (h : t.Holds place bytes) (root : String) :
    Below root (pathAlong root place) (place.map String.toList) where
  names_ne_nil := by
    cases h with
    | file => cases hkind
    | folder => exact List.cons_ne_nil _ _
  components_eq := components_pathAlong (ht.of_holds h) root

/-- A file of an accepted tree is known by its way, after the head of the tree. -/
theorem FileTree.IsAccepted.recordPath_eq (hta : t.IsAccepted) (ht : t.WellNamed)
    (hkind : t.kind = .folder) (h : t.Holds place bytes) (root : String) (origin : Origin) :
    ∃ p, recordPath root origin (pathAlong root place) = .ok p ∧
      p.text = origin.head ++ place.joined := by
  have hbelow := ht.liesBelow hkind h root
  obtain ⟨hbackslash, haccepted⟩ := hta place bytes h
  have hnames : ∀ n ∈ place.map String.toList, '\\' ∉ n := List.forall_mem_map.mpr hbackslash
  have hdrive := (RelPath.exists_ofText_iff.mp haccepted).1
  rw [Place.joined, String.toList_ofList,
    RelPath.normalize_joinSegments hbelow.isOrdinary hnames] at hdrive
  obtain ⟨p, hp, hchars⟩ := hbelow.recordPath_eq hnames hdrive origin
  refine ⟨p, hp, String.toList_injective ?_⟩
  rw [String.toList_append, Place.joined, String.toList_ofList]
  exact hchars

/-- Another order of listing changes no way to a file. -/
theorem FileTree.Reordered.isAccepted {u : FileTree} (h : t.Reordered u) (hta : t.IsAccepted) :
    u.IsAccepted :=
  fun place bytes hholds => hta place bytes (h.symm.holds hholds)

end Ways

/-! ## Records of a tree -/

variable {σ : Type} [MonadFiles (StateM σ)] {s : σ} {root : String} {t u : FileTree}
  {place : Place} {bytes : List UInt8}

/-- A file that is read under its path gives its record. -/
theorem Collect.reads_readItem {file : String} {p : RelPath} {f : Place × List UInt8}
    {origin : Origin} (hpath : recordPath root origin file = .ok p)
    (hp : p.text = origin.head ++ f.1.joined)
    (hread : Reads s (MonadFiles.readBytes file) (.ok f.2)) :
    Reads s (readItem root origin (.ok file)).run (recordOf origin f) := by
  rw [readItem, readRecord, recordOf, ← hp, p.ofText_text, hpath]
  refine (Reads.ofLogged _).bind_logged fun path _ => ?_
  have hbytes : Reads s (LoggedT.ofResult do
      return (← MonadFiles.readBytes file).mapError (FileError.io file)).run
      (Logged.ofExcept (.ok f.2)) :=
    .ofResult (hread.bind (.pure _))
  exact hbytes.bind_logged (g := fun bytes => do
    let content ← textOf path bytes
    return (⟨path, content, origin⟩ : Record)) fun _ _ =>
      (Reads.ofLogged _).bind_logged fun _ _ => .pure _

/-- The records of a tree are those of its files. -/
theorem Presents.reads_readTree (h : Presents s root t) (ht : t.WellNamed) (hta : t.IsAccepted)
    (origin : Origin) :
    Reads s (readTree root origin).run (t.files.mapM (recordOf origin)) := by
  rw [readTree]
  -- the items are known before the first of them is read, since reading changes nothing
  have hwalk : Reads s (LoggedT.ofResult do return .ok (← walkTree root)).run
      (Logged.ofExcept (.ok (found root t)) : Logged FileError (List Item)) :=
    .ofResult (h.reads_walkTree.bind (.pure _))
  refine hwalk.bind_logged (g := fun _ => t.files.mapM (recordOf origin)) fun items hitems => ?_
  obtain rfl := Except.ok.inj hitems
  refine Reads.mapM_logged fun f hf => ?_
  have hholds := FileTree.mem_files.mp hf
  obtain ⟨p, hpath, hp⟩ := hta.recordPath_eq ht h.kind_eq hholds root origin
  exact reads_readItem hpath hp (h.shows.reads_bytes hholds)

theorem Presents.reads_checkRoot (h : Presents s root t) :
    Reads s (checkRoot root).run (pure () : Logged FileError Unit) := by
  have hfolder : Reads s (MonadFiles.isFolder root) true := h.kindOf_root.bind (.pure _)
  exact .ofResult (hfolder.bind (.pure _))

/-- The records of the files of two trees, those of the server tree first. -/
def Collect.recordsOf (t u : FileTree) : Logged FileError (List Record) := do
  let server ← t.files.mapM (recordOf .serverTree)
  let assets ← u.files.mapM (recordOf .publicTree)
  return server ++ assets

variable {server assets : String}

theorem Presents.reads_collectInputs (hserver : Presents s server t) (hassets : Presents s assets u)
    (ht : t.WellNamed) (hu : u.WellNamed) (hta : t.IsAccepted) (hua : u.IsAccepted) :
    Reads s (collectInputs server assets).run (recordsOf t u) := by
  rw [collectInputs, recordsOf]
  refine hserver.reads_checkRoot.bind_logged (g := fun _ => recordsOf t u) fun _ _ => ?_
  refine hassets.reads_checkRoot.bind_logged (g := fun _ => recordsOf t u) fun _ _ => ?_
  exact (hserver.reads_readTree ht hta _).bind_logged fun _ _ =>
    (hassets.reads_readTree hu hua _).bind_logged fun _ _ => .pure _

/-- Every file of an accepted tree has its record. -/
theorem FileTree.IsAccepted.exists_records (hta : t.IsAccepted) (ht : t.WellNamed)
    (hkind : t.kind = .folder) (origin : Origin) :
    ∃ records, (t.files.mapM (recordOf origin)).result = .ok records ∧
      List.Forall₂ (Record.IsOf origin) t.files records := by
  have hpath : ∀ f ∈ t.files, ∃ p : RelPath, p.text = origin.head ++ f.1.joined := fun f hf => by
    obtain ⟨p, -, hp⟩ :=
      hta.recordPath_eq ht hkind (FileTree.mem_files.mp hf) "" origin
    exact ⟨p, hp⟩
  have hrecord : ∀ f ∈ t.files, ∃ r, (recordOf origin f).result = .ok r := fun f hf => by
    obtain ⟨p, hp⟩ := hpath f hf
    exact ⟨_, result_recordOf hp⟩
  obtain ⟨records, hrecords⟩ := Logged.exists_result_mapM_eq_ok hrecord
  refine ⟨records, hrecords, ?_⟩
  have hsteps :=
    (List.forall₂_and_left _ _).mpr ⟨hpath, Logged.result_mapM_eq_ok_iff.mp hrecords⟩
  refine hsteps.imp ?_
  rintro f r ⟨⟨p, hp⟩, hr⟩
  obtain rfl := Except.ok.inj ((result_recordOf hp).symm.trans hr)
  exact ⟨hp, rfl, rfl⟩

/-! ## Two trees -/

/-- The records of two trees are those of their files: one record for each file, the server tree
before the public tree, each tree depth first with the names of every folder in ascending order.
They are the same wherever the trees lie and however their folders are listed. -/
theorem collectInputs_trees (hserver : Presents s server t) (hassets : Presents s assets u)
    (ht : t.WellNamed) (hu : u.WellNamed) (hta : t.IsAccepted) (hua : u.IsAccepted) :
    ∃ (log : Logged FileError (List Record)) (inner outer : List Record),
      Reads s (collectInputs server assets).run log ∧ log.result = .ok (inner ++ outer) ∧
      List.Forall₂ (Record.IsOf .serverTree) t.files inner ∧
      List.Forall₂ (Record.IsOf .publicTree) u.files outer ∧
      (∀ place bytes, (place, bytes) ∈ t.files ↔ t.Holds place bytes) ∧
      (∀ place bytes, (place, bytes) ∈ u.files ↔ u.Holds place bytes) ∧
      t.files.Pairwise (fun f g => f.1.Precedes g.1) ∧
      u.files.Pairwise (fun f g => f.1.Precedes g.1) ∧
      ∀ (s' : σ) (server' assets' : String) (t' u' : FileTree), Presents s' server' t' →
        Presents s' assets' u' → t.Reordered t' → u.Reordered u' →
        Reads s' (collectInputs server' assets').run log := by
  obtain ⟨inner, hinner, hinnerOf⟩ := hta.exists_records ht hserver.kind_eq .serverTree
  obtain ⟨outer, houter, houterOf⟩ := hua.exists_records hu hassets.kind_eq .publicTree
  refine ⟨recordsOf t u, inner, outer, hserver.reads_collectInputs hassets ht hu hta hua, ?_,
    hinnerOf, houterOf, fun _ _ => FileTree.mem_files, fun _ _ => FileTree.mem_files,
    FileTree.pairwise_files ht, FileTree.pairwise_files hu, ?_⟩
  · rw [recordsOf, Logged.result_bind_of_ok hinner, Logged.result_bind_of_ok houter]
    rfl
  · intro s' server' assets' t' u' hserver' hassets' htt' huu'
    -- the log is a matter of the files alone
    have hrecords : recordsOf t u = recordsOf t' u' := by
      rw [recordsOf, recordsOf, htt'.files_eq ht, huu'.files_eq hu]
    rw [hrecords]
    exact hserver'.reads_collectInputs hassets' (htt'.wellNamed ht) (huu'.wellNamed hu)
      (htt'.isAccepted hta) (huu'.isAccepted hua)

section Sample

/-- A server tree with a folder and a file whose names start alike. -/
def sampleServer : FileTree :=
  .folder [("a.mjs", .file [0x61]), ("a", .folder [("x", .file [0x62])])]

/-- The same tree, listed in another order. -/
def sampleServerListed : FileTree :=
  .folder [("a", .folder [("x", .file [0x62])]), ("a.mjs", .file [0x61])]

/-- A public tree with a file that is not UTF-8. -/
def sampleAssets : FileTree :=
  .folder [("logo", .file [0xff])]

/-- The trees next to each other in the current folder. -/
def sampleDisk : Disk where
  entries := [(["srv"], .folder), (["srv", "a.mjs"], .file [0x61]), (["srv", "a"], .folder),
    (["srv", "a", "x"], .file [0x62]), (["pub"], .folder), (["pub", "logo"], .file [0xff])]
  current := []

/-- The trees in folders of their own, which are listed in another order. -/
def sampleCopy : Disk where
  entries := [(["v"], .folder), (["v", "pub"], .folder), (["v", "pub", "logo"], .file [0xff]),
    (["v", "out"], .folder), (["v", "out", "a"], .folder), (["v", "out", "a", "x"], .file [0x62]),
    (["v", "out", "a.mjs"], .file [0x61])]
  current := ["v", "pub"]

theorem sampleServer_reordered : sampleServer.Reordered sampleServerListed :=
  .listing (.swap _ _ _)

theorem sampleServer_wellNamed : sampleServer.WellNamed := by
  refine .folder (by decide) (by decide) (List.forall_mem_cons.mpr ⟨.file, ?_⟩)
  refine List.forall_mem_singleton.mpr (.folder (by decide) (by decide) ?_)
  exact List.forall_mem_singleton.mpr .file

theorem sampleAssets_wellNamed : sampleAssets.WellNamed :=
  .folder (by decide) (by decide) (List.forall_mem_singleton.mpr .file)

theorem sampleServer_files : sampleServer.files = [(["a", "x"], [0x62]), (["a.mjs"], [0x61])] := by
  rw [sampleServer_reordered.files_eq sampleServer_wellNamed, sampleServerListed,
    FileTree.files_folder_of_pairwise (by decide), List.flatMap_cons,
    FileTree.files_folder_of_pairwise (by decide)]
  rfl

theorem sampleAssets_files : sampleAssets.files = [(["logo"], [0xff])] := by
  rw [sampleAssets, FileTree.files_folder_of_pairwise (by decide)]
  rfl

theorem sampleDisk_carries_server : sampleDisk.Carries "srv" ["srv"] sampleServer := by
  refine .folder rfl rfl (by decide) (List.forall_mem_cons.mpr ⟨.file rfl, ?_⟩)
  refine List.forall_mem_singleton.mpr (.folder rfl rfl (by decide) ?_)
  exact List.forall_mem_singleton.mpr (.file rfl)

theorem sampleDisk_carries_assets : sampleDisk.Carries "pub" ["pub"] sampleAssets :=
  .folder rfl rfl (by decide) (List.forall_mem_singleton.mpr (.file rfl))

theorem sampleCopy_carries_server :
    sampleCopy.Carries "/v/out" ["v", "out"] sampleServerListed := by
  refine .folder rfl rfl (by decide) (List.forall_mem_cons.mpr ⟨?_, ?_⟩)
  · exact .folder rfl rfl (by decide) (List.forall_mem_singleton.mpr (.file rfl))
  · exact List.forall_mem_singleton.mpr (.file rfl)

theorem sampleCopy_carries_assets : sampleCopy.Carries "." ["v", "pub"] sampleAssets :=
  .folder rfl rfl (by decide) (List.forall_mem_singleton.mpr (.file rfl))

/-- Two trees next to each other, and the same trees in folders of other names that are listed in
another order. -/
theorem collectInputs_trees_sample :
    (Presents sampleDisk "srv" sampleServer ∧ Presents sampleDisk "pub" sampleAssets) ∧
      (sampleServer.WellNamed ∧ sampleAssets.WellNamed) ∧
      (sampleServer.IsAccepted ∧ sampleAssets.IsAccepted) ∧
      (Presents sampleCopy "/v/out" sampleServerListed ∧ Presents sampleCopy "." sampleAssets) ∧
      (sampleServer.Reordered sampleServerListed ∧ sampleAssets.Reordered sampleAssets) ∧
      ∃ (log : Logged FileError (List Record)) (inner outer : List Record),
        Reads sampleDisk (collectInputs "srv" "pub").run log ∧ log.result = .ok (inner ++ outer) ∧
        inner.map (·.path.text) = ["a/x", "a.mjs"] ∧ inner.map (·.content) = ["b", "a"] ∧
        outer.map (·.path.text) = ["public/logo"] ∧ outer.map (·.content) = ["\uFFFD"] ∧
        Reads sampleCopy (collectInputs "/v/out" ".").run log := by
  have hserver := sampleDisk_carries_server.presents rfl rfl
  have hassets := sampleDisk_carries_assets.presents rfl rfl
  have hserver' := sampleCopy_carries_server.presents rfl rfl
  have hassets' := sampleCopy_carries_assets.presents rfl rfl
  have hta : sampleServer.IsAccepted := by
    rw [FileTree.isAccepted_iff, sampleServer_files]
    decide
  have hua : sampleAssets.IsAccepted := by
    rw [FileTree.isAccepted_iff, sampleAssets_files]
    decide
  refine ⟨⟨hserver, hassets⟩, ⟨sampleServer_wellNamed, sampleAssets_wellNamed⟩, ⟨hta, hua⟩,
    ⟨hserver', hassets'⟩, ⟨sampleServer_reordered, .refl _⟩, ?_⟩
  obtain ⟨log, inner, outer, hreads, hresult, hinner, houter, -, -, -, -, hsame⟩ :=
    collectInputs_trees hserver hassets sampleServer_wellNamed sampleAssets_wellNamed hta hua
  refine ⟨log, inner, outer, hreads, hresult, ?_, ?_, ?_, ?_,
    hsame _ _ _ _ _ hserver' hassets' sampleServer_reordered (.refl _)⟩
  · rw [Record.texts_of_isOf hinner, sampleServer_files]
    decide
  · have hb : Utf8.decodeLossy [0x62] = "b" := Utf8.decodeLossy_encode "b"
    have ha : Utf8.decodeLossy [0x61] = "a" := Utf8.decodeLossy_encode "a"
    rw [Record.contents_of_isOf hinner, sampleServer_files, List.map_cons, List.map_singleton, hb,
      ha]
  · rw [Record.texts_of_isOf houter, sampleAssets_files]
    decide
  · rw [Record.contents_of_isOf houter, sampleAssets_files, List.map_singleton,
      Utf8.decodeLossy_cons_of_startsNone (by decide), Utf8.decodeLossy_nil]
    rfl

end Sample

end EdgeBundle
