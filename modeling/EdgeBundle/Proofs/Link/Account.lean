import EdgeBundle.Proofs.Link.Success
import EdgeBundle.Proofs.Vfs.Keys

/-!
# Accounts of a link

Every collected file becomes a module, is dropped or is embedded, and none becomes anything twice.
Only an embedded file can be lost: a later one under the same path replaces it.

## Main definitions

* `LinkOutput.Accounts`: what a link gives accounts for all records.

## Main statements

* `linkRecords_accounts`: every link accounts for its records.
-/

namespace EdgeBundle

variable {config : Config} {records : List Record}

/-! ## Records by disposition -/

/-- Every record has one of the three dispositions. -/
theorem Record.length_select (assetHead : String) (records : List Record) :
    (select .executable assetHead records).length + (select .dropped assetHead records).length +
      (select .embeddable assetHead records).length = records.length := by
  induction records with
  | nil => rfl
  | cons r rs ih =>
    simp only [select, List.length_cons] at ih ⊢
    cases hd : r.disposition assetHead <;> simp [hd] <;> omega

/-! ## Accounts -/

/-- What the link gives accounts for all records under the configuration. -/
structure LinkOutput.Accounts (config : Config) (records : List Record) (output : LinkOutput) :
    Prop where
  /-- Every record is counted. -/
  filesDiscovered_eq : output.filesDiscovered = records.length
  /-- The modules are the executable records, in some order. -/
  modules_perm : (output.modules.map LinkedModule.path).Perm
    ((Record.select .executable config.clientAssetPrefix records).map Record.path)
  /-- The dropped paths are those of the dropped records, in order. -/
  dropped_eq :
    output.dropped = (Record.select .dropped config.clientAssetPrefix records).map Record.path
  /-- The paths of the embedded files are those of the embeddable records. -/
  mem_paths_iff : ∀ p, p ∈ output.vfs.paths ↔
    p ∈ (Record.select .embeddable config.clientAssetPrefix records).map Record.path
  /-- Every record is a module, dropped or embeddable. -/
  length_eq : records.length = output.modules.length + output.dropped.length +
    (Record.select .embeddable config.clientAssetPrefix records).length
  /-- All that is missing is what a later embeddable record under the same path has replaced. -/
  counts_eq : output.modules.length + output.dropped.length + output.vfs.size +
      Record.replacedCount (Record.select .embeddable config.clientAssetPrefix records) =
    output.filesDiscovered

/-- Every link accounts for its records: none is lost but for embedded files that are replaced, and
none comes up twice. -/
theorem linkRecords_accounts {output : LinkOutput}
    (h : (linkRecords config records).result = .ok output) : output.Accounts config records := by
  obtain ⟨-, hlink⟩ := result_linkRecords_eq_ok_iff.mp h
  obtain ⟨modules, findings, bundle, hmodules, -, -, rfl⟩ :=
    LinkOutput.result_ofRecords_eq_ok_iff.mp hlink
  have hlength := Record.length_select config.clientAssetPrefix records
  have hembedded := Vfs.size_ofRecords_add_replacedCount
    (Record.select .embeddable config.clientAssetPrefix records)
  have hlinked : modules.length =
      (Record.select .executable config.clientAssetPrefix records).length := by
    rw [← hmodules.length_eq, (linkOrder_perm config _).length_eq]
  exact {
    filesDiscovered_eq := rfl
    modules_perm := by
      rw [LinkedModule.map_path_eq hmodules]
      exact (linkOrder_perm config _).map Record.path
    dropped_eq := rfl
    mem_paths_iff := fun p => Vfs.mem_paths_ofRecords
    length_eq := by
      rw [List.length_map, hlinked]
      exact hlength.symm
    counts_eq := by
      rw [List.length_map, hlinked, Nat.add_assoc, hembedded]
      exact hlength }

/-- Two modules, a dropped client script, and a style sheet that the public tree replaces. -/
theorem linkRecords_accounts_replaced :
    ∃ records output, records.map (·.path.text) =
        ["a.mjs", "public/a.css", "public/assets/c.js", "index.mjs", "public/a.css"] ∧
      (linkRecords {} records).result = .ok output ∧ output.Accounts {} records := by
  let records : List Record :=
    [⟨⟨"a.mjs", by decide⟩, "export default 1;", .serverTree⟩,
      ⟨⟨"public/a.css", by decide⟩, "old", .serverTree⟩,
      ⟨⟨"public/assets/c.js", by decide⟩, "", .serverTree⟩,
      ⟨⟨"index.mjs", by decide⟩, "import './a.mjs';", .serverTree⟩,
      ⟨⟨"public/a.css", by decide⟩, "new", .publicTree⟩]
  have hvalid : Config.validate {} = .ok () := by decide
  have hmodules : ∀ r ∈ Record.select .executable "public/assets/" records,
      (LinkedModule.ofSource {} r.path r.content).result.toBool = true := by
    decide +kernel
  obtain ⟨output, hlink⟩ :=
    exists_linkRecords_eq_ok hvalid (fun r hr => exists_eq_ok_of_toBool (hmodules r hr)) rfl
  exact ⟨records, output, rfl, hlink, linkRecords_accounts hlink⟩

end EdgeBundle
