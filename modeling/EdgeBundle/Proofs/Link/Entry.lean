import EdgeBundle.Proofs.Link.Order
import EdgeBundle.Proofs.Path.Canonical

/-!
# The configured entry module

Paths of modules are in canonical form, and the configured entry is compared with them as it is
written. So an entry that is written in another spelling of a path is the path of no module: its
module is ordered by the markers like any other, and a warning says that there is no entry module.

## Main statements

* `RelPath.text_eq_iff_of_ofText`: the spelling of a path that is its text.
* `orderRecords_entry_iff`: the spelling under which the entry module comes last.
* `orderRecords_entry_dotted`: an entry that is written as a path from the current folder.
-/

namespace EdgeBundle

variable {config : Config} {p : RelPath} {records : List Record}

/-! ## Spellings of a path -/

namespace RelPath

variable {raw : String}

/-- A spelling of a path is its text if it has no backslash and does not start in the current
folder. -/
theorem text_eq_iff_of_ofText (h : ofText raw = .ok p) :
    p.text = raw ↔ '\\' ∉ raw.toList ∧ ¬ ['.', '/'] <+: raw.toList := by
  constructor
  · rintro rfl
    exact ⟨p.canonical.1, not_isPrefix_dot p.canonical.2.2⟩
  · rintro ⟨hbackslash, hdot⟩
    refine String.toList_injective ?_
    rw [← normalize_eq_self hbackslash hdot, ofText_eq_ok_iff.mp h]
    rfl

/-- Another spelling of a path is the text of no path. -/
theorem text_ne_of_ofText (h : ofText raw = .ok p) (hne : p.text ≠ raw) (q : RelPath) :
    q.text ≠ raw := by
  rintro rfl
  obtain rfl := Except.ok.inj ((ofText_text q).symm.trans h)
  exact hne rfl

end RelPath

/-! ## The entry module in the link order -/

/-- Where no module has the entry as its path, the link order has the other three groups only. -/
theorem linkOrder_of_forall_ne (h : ∀ r ∈ records, r.path.text ≠ config.entryModule) :
    linkOrder config records =
      Record.ofGroup config .library records ++ (Record.ofGroup config .route records ++
        Record.ofGroup config .other records) := by
  have hnone : Record.ofGroup config .entry records = [] := by
    refine List.eq_nil_iff_forall_not_mem.mpr fun r hr => ?_
    obtain ⟨hmem, hentry⟩ := Record.mem_ofGroup.mp hr
    exact h r hmem hentry
  rw [linkOrder_eq_append, hnone, List.append_nil]

/-- The module of the configured entry, which is collected once, comes last without a warning
exactly if the entry is the text of its path, which is the spelling without backslashes that does
not start in the current folder. Under every other spelling it is not in the group of the entry
module: the link order has the other three groups only, and there is a warning. -/
theorem orderRecords_entry_iff {ε : Type} (hentry : RelPath.ofText config.entryModule = .ok p)
    (honce : (records.map Record.path).count p = 1) :
    ∃ ordered warnings,
      (orderRecords config records : Logged ε _) = ⟨.ok ordered, warnings⟩ ∧
      (LinkPriority.ofPath config p = .entry ↔ p.text = config.entryModule) ∧
      ((∃ last, ordered.getLast? = some last ∧ last.path = p) ∧ warnings = [] ↔
        p.text = config.entryModule) ∧
      (p.text = config.entryModule ↔ '\\' ∉ config.entryModule.toList ∧
        ¬ ['.', '/'] <+: config.entryModule.toList) ∧
      (p.text ≠ config.entryModule →
        ordered = Record.ofGroup config .library records ++ (Record.ofGroup config .route records ++
          Record.ofGroup config .other records) ∧
        warnings = [.entryMissing config.entryModule]) := by
  refine ⟨_, _, orderRecords_eq config records, LinkPriority.ofPath_eq_iff, ?_,
    RelPath.text_eq_iff_of_ofText hentry, fun hne => ?_⟩
  · constructor
    -- without a warning some module has the entry as its path, and that is the only such path
    · rintro ⟨-, hwarnings⟩
      split at hwarnings
      next h =>
        obtain ⟨r, -, hr⟩ := h
        by_contra hne
        exact RelPath.text_ne_of_ofText hentry hne r.path hr
      next => cases hwarnings
    · intro htext
      obtain ⟨r, hr, rfl⟩ := List.mem_map.mp (List.count_pos_iff.mp (honce ▸ Nat.one_pos))
      have hexists : ∃ r ∈ records, r.path.text = config.entryModule := ⟨r, hr, htext⟩
      obtain ⟨last, hlast, hlastText⟩ := exists_getLast?_linkOrder.mpr hexists
      exact ⟨⟨last, hlast, RelPath.ext (hlastText.trans htext.symm)⟩, if_pos hexists⟩
  · have hnone : ∀ r ∈ records, r.path.text ≠ config.entryModule :=
      fun r _ => RelPath.text_ne_of_ofText hentry hne r.path
    refine ⟨linkOrder_of_forall_ne hnone, if_neg ?_⟩
    rintro ⟨r, hr, htext⟩
    exact hnone r hr htext

section Sample

/-- A configuration whose entry is written as a path from the current folder. -/
def dottedEntry : Config where
  entryModule := "./index.mjs"

/-- The path of the entry module. -/
def indexPath : RelPath := ⟨"index.mjs", by decide⟩

/-- The entry module and a module that is collected after it. -/
def indexRecords : List Record :=
  [⟨indexPath, "", .serverTree⟩, ⟨⟨"z.mjs", by decide⟩, "", .serverTree⟩]

/-- An entry that is written as a path from the current folder is the path of no module. -/
theorem orderRecords_entry_dotted :
    RelPath.ofText dottedEntry.entryModule = .ok indexPath ∧
      (indexRecords.map Record.path).count indexPath = 1 ∧
      (orderRecords dottedEntry indexRecords : Logged Error _) =
        ⟨.ok indexRecords, [.entryMissing "./index.mjs"]⟩ := by
  have hentry : RelPath.ofText dottedEntry.entryModule = .ok indexPath := by decide
  have honce : (indexRecords.map Record.path).count indexPath = 1 := by decide
  refine ⟨hentry, honce, ?_⟩
  obtain ⟨ordered, warnings, heq, -, -, -, hother⟩ :=
    orderRecords_entry_iff (ε := Error) hentry honce
  obtain ⟨hordered, rfl⟩ := hother (by decide)
  rw [heq, hordered]
  exact congrArg (fun ordered => (⟨.ok ordered, _⟩ : Logged Error _)) (by decide)

/-- The configuration is usable, and the entry module, which is collected once, is neither in the
group of the entry module nor last, and there is a warning. -/
theorem exists_entry_not_last :
    ∃ (config : Config) (p : RelPath) (records : List Record),
      config.validate = .ok () ∧ RelPath.ofText config.entryModule = .ok p ∧
      (records.map Record.path).count p = 1 ∧ LinkPriority.ofPath config p = .other ∧
      ∃ ordered, (orderRecords config records : Logged Error _) =
          ⟨.ok ordered, [.entryMissing config.entryModule]⟩ ∧
        ordered.getLast?.map Record.path ≠ some p := by
  have hne : ∀ r ∈ indexRecords, r.path.text ≠ dottedEntry.entryModule := by decide
  have hmissing : ¬ ∃ r ∈ indexRecords, r.path.text = dottedEntry.entryModule := by decide
  refine ⟨dottedEntry, indexPath, indexRecords, by decide, by decide, by decide, by decide, _,
    (orderRecords_eq _ _).trans (by rw [if_neg hmissing]), ?_⟩
  rw [linkOrder_of_forall_ne hne]
  decide

end Sample

end EdgeBundle
