import EdgeBundle.Proofs.Link.Success
import EdgeBundle.Proofs.Vfs.Content

/-!
# What a link embeds

Files of the public tree are always embedded, and they replace files of the server tree under the
same path. What becomes of a file of the server tree is told by its path, and a path of the public
tree is never that of a module. So no path is both a module and an embedded file.

## Main definitions

* `LinkOutput.EmbedsExactly`: the embedded files of two trees.

## Main statements

* `Record.select_embeddable_append`: the embeddable records of two trees.
* `linkRecords_embedsExactly`: every link of two trees embeds exactly their files.
-/

namespace EdgeBundle

namespace Record

variable {assetHead : String} {r s : Record}

/-- A file of the public tree is embedded. -/
theorem disposition_of_publicTree (h : r.origin = .publicTree) :
    r.disposition assetHead = .embeddable := by
  have hclient : r.isClientBundle assetHead = false := by simp [isClientBundle, h]
  have hexec : r.isExecutable = false := by simp [isExecutable, h]
  rw [disposition, hclient, hexec]
  rfl

/-- In one tree the path tells what becomes of a file. -/
theorem disposition_congr (hpath : r.path = s.path) (horigin : r.origin = s.origin) :
    r.disposition assetHead = s.disposition assetHead := by
  cases r
  cases s
  cases hpath
  cases horigin
  rfl

/-- A module is a file of the server tree outside the public folder. -/
theorem of_disposition_executable (h : r.disposition assetHead = .executable) :
    r.origin = .serverTree ∧ r.path.isPublic = false := by
  rw [disposition] at h
  split at h
  · cases h
  split at h
  next hexec =>
    simp only [isExecutable, Bool.and_eq_true, beq_iff_eq, Bool.not_eq_true'] at hexec
    exact ⟨hexec.1.2, hexec.2⟩
  next => cases h

theorem mem_select {d : Disposition} {records : List Record} :
    r ∈ select d assetHead records ↔ r ∈ records ∧ r.disposition assetHead = d := by
  rw [select, List.mem_filter, beq_iff_eq]

/-- Of two trees the embeddable files of the server tree come first, then all public ones. -/
theorem select_embeddable_append {server pub : List Record}
    (hpublic : ∀ r ∈ pub, r.origin = .publicTree) :
    select .embeddable assetHead (server ++ pub) = select .embeddable assetHead server ++ pub := by
  have hall : select .embeddable assetHead pub = pub := by
    rw [select, List.filter_eq_self]
    intro r hr
    rw [disposition_of_publicTree (hpublic r hr)]
    rfl
  rw [select, List.filter_append]
  exact congrArg _ hall

/-- No module has the path of an embedded file. -/
theorem path_ne_of_executable {server pub : List Record}
    (hserver : ∀ r ∈ server, r.origin = .serverTree)
    (hpublic : ∀ r ∈ pub, r.origin = .publicTree ∧ r.path.isPublic = true)
    (hr : r ∈ select .executable assetHead (server ++ pub))
    (hs : s ∈ select .embeddable assetHead (server ++ pub)) : r.path ≠ s.path := by
  intro hpath
  obtain ⟨-, hexec⟩ := mem_select.mp hr
  obtain ⟨hmem, hembed⟩ := mem_select.mp hs
  obtain ⟨horigin, houtside⟩ := of_disposition_executable hexec
  rcases List.mem_append.mp hmem with hmem | hmem
  -- both are files of the server tree, so the path gives them one disposition
  · have hsame : r.disposition assetHead = s.disposition assetHead :=
      disposition_congr hpath (horigin.trans (hserver s hmem).symm)
    rw [hexec, hembed] at hsame
    cases hsame
  -- the embedded file lies in the public folder, where no module is
  · rw [hpath, (hpublic s hmem).2] at houtside
    cases houtside

end Record

/-- The embedded files are exactly those of two trees, and no module is one of them. -/
structure LinkOutput.EmbedsExactly (config : Config) (server pub : List Record)
    (output : LinkOutput) : Prop where
  /-- Under a path stands the last public file with it, or else the last embeddable file of the
  server tree with it. -/
  get?_eq : ∀ p, output.vfs.get? p = (Record.lastContent? p pub).or
    (Record.lastContent? p (Record.select .embeddable config.clientAssetPrefix server))
  /-- A path that no such file has is no key. -/
  not_key : ∀ p, Record.lastContent? p pub = none →
    Record.lastContent? p (Record.select .embeddable config.clientAssetPrefix server) = none →
    ∀ q ∈ output.vfs.paths, q.text ≠ p
  /-- No module has the path of an embedded file. -/
  not_embedded : ∀ m ∈ output.modules, m.path ∉ output.vfs.paths

variable {config : Config} {server pub : List Record}

/-- A link of the server tree and the public tree embeds exactly their files. -/
theorem linkRecords_embedsExactly (hserver : ∀ r ∈ server, r.origin = .serverTree)
    (hpublic : ∀ r ∈ pub, r.origin = .publicTree ∧ r.path.isPublic = true) {output : LinkOutput}
    (h : (linkRecords config (server ++ pub)).result = .ok output) :
    output.EmbedsExactly config server pub := by
  obtain ⟨-, hlink⟩ := result_linkRecords_eq_ok_iff.mp h
  obtain ⟨modules, findings, bundle, hmodules, -, -, rfl⟩ :=
    LinkOutput.result_ofRecords_eq_ok_iff.mp hlink
  have hget (p : String) : (Vfs.ofRecords
      (Record.select .embeddable config.clientAssetPrefix (server ++ pub))).get? p =
      (Record.lastContent? p pub).or
        (Record.lastContent? p (Record.select .embeddable config.clientAssetPrefix server)) := by
    rw [Vfs.get?_ofRecords, Record.select_embeddable_append fun r hr => (hpublic r hr).1,
      Record.lastContent?_append]
  exact {
    get?_eq := hget
    not_key := by
      intro p hpub hembed
      rw [← Vfs.get?_eq_none_iff, hget, hpub, hembed]
      rfl
    not_embedded := by
      intro m hm hkey
      -- the records that the module and the embedded file come from
      obtain ⟨r, hr, hrpath⟩ := LinkedModule.exists_record hmodules hm
      obtain ⟨s, hs, hspath⟩ := List.mem_map.mp (Vfs.mem_paths_ofRecords.mp hkey)
      exact Record.path_ne_of_executable hserver hpublic hr hs (hrpath.trans hspath.symm) }

/-- A style sheet of both trees, a script of each, and a client script that is dropped. -/
theorem linkRecords_embedsExactly_replaced :
    ∃ server pub output, server.map (·.path.text) =
        ["index.mjs", "nitro.json", "public/a.css", "public/assets/c.js"] ∧
      pub.map (·.path.text) = ["public/a.css", "public/index.mjs"] ∧
      (linkRecords {} (server ++ pub)).result = .ok output ∧ output.EmbedsExactly {} server pub ∧
      output.vfs.get? "public/a.css" = some "new" ∧ output.vfs.get? "index.mjs" = none := by
  let server : List Record :=
    [⟨⟨"index.mjs", by decide⟩, "export default 1;", .serverTree⟩,
      ⟨⟨"nitro.json", by decide⟩, "{}", .serverTree⟩,
      ⟨⟨"public/a.css", by decide⟩, "old", .serverTree⟩,
      ⟨⟨"public/assets/c.js", by decide⟩, "", .serverTree⟩]
  let pub : List Record :=
    [⟨⟨"public/a.css", by decide⟩, "new", .publicTree⟩,
      ⟨⟨"public/index.mjs", by decide⟩, "", .publicTree⟩]
  have hvalid : Config.validate {} = .ok () := by decide
  have hmodules : ∀ r ∈ Record.select .executable "public/assets/" (server ++ pub),
      (LinkedModule.ofSource {} r.path r.content).result.toBool = true := by
    decide +kernel
  obtain ⟨output, hlink⟩ :=
    exists_linkRecords_eq_ok hvalid (fun r hr => exists_eq_ok_of_toBool (hmodules r hr)) rfl
  have hserver : ∀ r ∈ server, r.origin = .serverTree := by decide
  have hpublic : ∀ r ∈ pub, r.origin = .publicTree ∧ r.path.isPublic = true := by decide
  have hexact := linkRecords_embedsExactly hserver hpublic hlink
  refine ⟨server, pub, output, rfl, rfl, hlink, hexact, ?_, ?_⟩
  · rw [hexact.get?_eq]
    decide
  · rw [hexact.get?_eq]
    decide

end EdgeBundle
