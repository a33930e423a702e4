import EdgeBundle.Proofs.Json.Members
import EdgeBundle.Proofs.Text.ByteOrder
import EdgeBundle.Vfs

/-!
# The literal of embedded files

The files enter the bundle as a JSON object on one line. Reading the object gives back all files,
whatever characters are in their paths and contents.

## Main definitions

* `Vfs.IsLiteral`: texts that stand for embedded files.

## Main statements

* `Vfs.isLiteral_literal`: the literal stands for the files.
-/

namespace EdgeBundle.Vfs

/-- Paths as texts, with contents. -/
def pairs (vfs : Vfs) : List (String × String) :=
  vfs.files.map fun f => (f.1.text, f.2)

theorem literal_eq (vfs : Vfs) : vfs.literal = (Json.ofStrings vfs.pairs).compact := by
  rw [literal, Json.ofStrings, pairs, List.map_map]
  rfl

theorem pairwise_pairs (vfs : Vfs) : vfs.pairs.Pairwise fun a b => a.1 < b.1 :=
  List.pairwise_map.mpr vfs.sorted

/-- The text stands for embedded files. -/
structure IsLiteral (vfs : Vfs) (text : String) : Prop where
  /-- It is read as an object that has the files, and nothing else, as its members. -/
  parse?_eq : Json.parse? text =
    some (.object (vfs.files.map fun f => (f.1.text, .string f.2)))
  /-- It lists the files in order, each by its quoted path and its quoted content. -/
  lists : text.toList = '\x7b' :: ([','].intercalate (vfs.files.map fun f =>
    (quoted f.1.text).toList ++ ':' :: (quoted f.2).toList) ++ ['\x7d'])
  /-- Of two files the one whose path has the smaller bytes is listed first. -/
  ascends : vfs.files.Pairwise fun a b => utf8Bytes a.1.text < utf8Bytes b.1.text
  /-- No character of it is a control character, so it stays on one line. -/
  printable : ∀ c ∈ text.toList, 0x20 ≤ c.toNat

/-- The literal stands for the embedded files, however the map was built. -/
theorem isLiteral_literal (vfs : Vfs) : vfs.IsLiteral vfs.literal where
  parse?_eq := by
    rw [literal_eq, Json.parse?_compact_strings vfs.pairwise_pairs, Json.ofStrings, pairs,
      List.map_map]
    rfl
  lists := by
    rw [literal_eq, Json.toList_compact_strings, pairs, List.map_map]
    simp only [Json.toList_quoted]
    rfl
  ascends := vfs.sorted.imp utf8Bytes_lt
  printable := by
    rw [literal_eq]
    exact Json.printable_compact_strings _

end EdgeBundle.Vfs
