import EdgeBundle.Proofs.Vfs.Request

/-!
# Embedding one more file

A file that is put in answers the requests for which it is the first match, and no other answer
changes. So a request that has been answered still is, and at no later stage.

## Main definitions

* `Stage.passes`: the test of a stage.
* `answerFrom`: the search through given stages.

## Main statements

* `find?_eq_answerFrom`: a request is answered by the first stage that some file passes.
* `find?_insertFile_or`: a search finds what it has found before, or the new file.
* `lookup_insert`: what a new file changes.
-/

namespace EdgeBundle.Vfs

/-! ## Stages -/

namespace Stage

/-- Place of a stage among the stages. -/
def rank : Stage → Nat
  | exact => 0
  | suffix => 1
  | basename => 2

/-- The stages in order. -/
def all : List Stage := [exact, suffix, basename]

theorem pairwise_all : all.Pairwise fun a b => a.rank ≤ b.rank := by
  decide

/-- Whether a path matches the plain request at a stage. -/
def passes (plain : List Char) (key : RelPath) : Stage → Bool
  | exact => key.chars == plain
  | suffix => matchesSuffix plain key.chars
  | basename => lastSegment plain != [] && lastSegment key.chars == lastSegment plain

end Stage

/-- The first file that passes a stage, at the first of the given stages that some file passes. -/
def answerFrom (plain : List Char) (files : List (RelPath × String)) (stages : List Stage) :
    Option Hit :=
  stages.findSome? fun stage =>
    (files.find? fun f => stage.passes plain f.1).map fun f => ⟨f.1, f.2, stage⟩

variable {plain : List Char} {files : List (RelPath × String)} {stages : List Stage}
  {path : RelPath} {content : String}

theorem answerFrom_cons (stage : Stage) :
    answerFrom plain files (stage :: stages) =
      ((files.find? fun f => stage.passes plain f.1).map fun f => ⟨f.1, f.2, stage⟩).or
        (answerFrom plain files stages) := by
  rw [answerFrom, List.findSome?_cons]
  cases files.find? fun f => stage.passes plain f.1 <;> rfl

/-- A request is answered at the first stage that some file passes. -/
theorem find?_eq_answerFrom (vfs : Vfs) (plain : List Char) :
    vfs.find? plain = answerFrom plain vfs.files Stage.all := by
  have hnone : answerFrom plain vfs.files [] = none := rfl
  simp only [find?, Stage.all, answerFrom_cons, hnone, Option.or_none, Stage.passes]
  cases vfs.files.find? fun f => f.1.chars == plain with
  | some f => rfl
  | none =>
    cases vfs.files.find? fun f => matchesSuffix plain f.1.chars with
    | some f => rfl
    | none =>
      by_cases hname : lastSegment plain = []
      · have hfail (files : List (RelPath × String)) : files.find? (fun _ => false) = none :=
          List.find?_eq_none.mpr (by simp)
        simp [hname, hfail]
      · simp only [hname, if_false, bne_iff_ne.mpr hname, Bool.true_and]
        rfl

theorem stage_mem_of_answerFrom {hit : Hit} (h : answerFrom plain files stages = some hit) :
    hit.stage ∈ stages := by
  obtain ⟨stage, hstage, hfound⟩ := List.exists_of_findSome?_eq_some h
  obtain ⟨f, -, rfl⟩ := Option.map_eq_some_iff.mp hfound
  exact hstage

/-! ## A new file -/

/-- A search by paths finds what it has found before, or the new file. -/
theorem find?_insertFile_or (path : RelPath) (content : String) (test : RelPath → Bool)
    (files : List (RelPath × String)) :
    (insertFile path content files).find? (fun f => test f.1) = files.find? (fun f => test f.1) ∨
      test path = true ∧
        (insertFile path content files).find? (fun f => test f.1) = some (path, content) := by
  have hnew {files : List (RelPath × String)} {old : Option (RelPath × String)}
      (hold : test path = false → files.find? (fun f => test f.1) = old) :
      ((path, content) :: files).find? (fun f => test f.1) = old ∨
        test path = true ∧
          ((path, content) :: files).find? (fun f => test f.1) = some (path, content) := by
    rw [List.find?_cons]
    cases htest : test path with
    | true => exact .inr ⟨rfl, rfl⟩
    | false => exact .inl (hold htest)
  induction files with
  | nil => exact hnew fun _ => rfl
  | cons f fs ih =>
    rw [insertFile]
    split
    next => exact hnew fun _ => rfl
    split
    -- the file that is replaced passes the same tests
    next heq =>
      refine hnew fun htest => ?_
      rw [List.find?_cons, ← heq, htest]
    next =>
      rw [List.find?_cons, List.find?_cons]
      cases test f.1 with
      | true => exact .inl rfl
      | false => exact ih

/-- A new file leaves an answer as it is, or it becomes the answer itself, at no later stage. -/
theorem answerFrom_insertFile (hstages : stages.Pairwise fun a b => a.rank ≤ b.rank)
    (files : List (RelPath × String)) :
    answerFrom plain (insertFile path content files) stages = answerFrom plain files stages ∨
      ∃ stage ∈ stages, stage.passes plain path = true ∧
        answerFrom plain (insertFile path content files) stages = some ⟨path, content, stage⟩ ∧
        ∀ hit, answerFrom plain files stages = some hit → stage.rank ≤ hit.stage.rank := by
  induction stages with
  | nil => exact .inl rfl
  | cons stage stages ih =>
    obtain ⟨hfirst, hstages⟩ := List.pairwise_cons.mp hstages
    rw [answerFrom_cons, answerFrom_cons]
    rcases find?_insertFile_or path content (stage.passes plain) files with hsame | ⟨hpass, hnew⟩
    · rw [hsame]
      cases files.find? fun f => stage.passes plain f.1 with
      | some f => exact .inl rfl
      -- without a file at this stage the later ones decide
      | none =>
        refine (ih hstages).imp_right ?_
        rintro ⟨later, hlater, hanswer⟩
        exact ⟨later, List.mem_cons_of_mem _ hlater, hanswer⟩
    · refine .inr ⟨stage, List.mem_cons_self, hpass, by rw [hnew]; rfl, fun hit hhit => ?_⟩
      rw [← answerFrom_cons] at hhit
      rcases List.mem_cons.mp (stage_mem_of_answerFrom hhit) with heq | hlater
      · exact heq ▸ Nat.le_refl _
      · exact hfirst _ hlater

/-- A new file leaves the answer to a request in plain form, or it becomes the answer. -/
theorem find?_insert (vfs : Vfs) (path : RelPath) (content : String) (plain : List Char) :
    (vfs.insert path content).find? plain = vfs.find? plain ∨
      ∃ stage, stage.passes plain path = true ∧
        (vfs.insert path content).find? plain = some ⟨path, content, stage⟩ ∧
        ∀ hit, vfs.find? plain = some hit → stage.rank ≤ hit.stage.rank := by
  rw [find?_eq_answerFrom, find?_eq_answerFrom]
  refine (answerFrom_insertFile Stage.pairwise_all vfs.files).imp_right ?_
  rintro ⟨stage, -, hanswer⟩
  exact ⟨stage, hanswer⟩

/-- With one more file a request that has been answered is answered at no later stage, by the same
file or by the new one. A new file that is not the request, does not match it at the second stage
and has another file name leaves every answer as it is. -/
theorem lookup_insert (vfs : Vfs) (path : RelPath) (content request : String) :
    (∀ hit, vfs.lookup request = .ok hit →
      ∃ hit', (vfs.insert path content).lookup request = .ok hit' ∧
        hit'.stage.rank ≤ hit.stage.rank ∧
        (hit' = hit ∨ hit'.key = path ∧ hit'.content = content)) ∧
      (path.chars ≠ normalizeRequest request.toList →
        matchesSuffix (normalizeRequest request.toList) path.chars = false →
        lastSegment path.chars ≠ lastSegment (normalizeRequest request.toList) →
        (vfs.insert path content).lookup request = vfs.lookup request) := by
  rcases find?_insert vfs path content (normalizeRequest request.toList) with
    hsame | ⟨stage, hpass, hnew, hstage⟩
  · have hlookup : (vfs.insert path content).lookup request = vfs.lookup request := by
      rw [lookup, lookup, hsame]
    exact ⟨fun hit hhit => ⟨hit, hlookup.trans hhit, Nat.le_refl _, .inl rfl⟩,
      fun _ _ _ => hlookup⟩
  · refine ⟨fun hit hhit => ?_, fun hexact hsuffix hname => ?_⟩
    · exact ⟨⟨path, content, stage⟩, lookup_eq_ok_iff.mpr hnew,
        hstage hit (lookup_eq_ok_iff.mp hhit), .inr ⟨rfl, rfl⟩⟩
    -- the new file passes no stage
    · cases stage with
      | exact => exact absurd (beq_iff_eq.mp hpass) hexact
      | suffix => exact absurd hpass (Bool.eq_false_iff.mp hsuffix)
      | basename => exact absurd (beq_iff_eq.mp (Bool.and_eq_true_iff.mp hpass).2) hname

/-- A request that is answered by its file name alone, until there is a file at its end. A file with
another name changes nothing. -/
theorem lookup_insert_nearer :
    ∃ (vfs : Vfs) (hit : Hit) (nearer other : RelPath),
      vfs.paths.map RelPath.text = ["dir/a.txt"] ∧ nearer.text = "b/a.txt" ∧
      other.text = "b/c.txt" ∧
      vfs.lookup "/srv/b/a.txt" = .ok hit ∧ hit.stage = .basename ∧
      (∃ hit', (vfs.insert nearer "near").lookup "/srv/b/a.txt" = .ok hit' ∧
        hit'.stage.rank ≤ hit.stage.rank ∧
        (hit' = hit ∨ hit'.key = nearer ∧ hit'.content = "near")) ∧
      other.chars ≠ normalizeRequest "/srv/b/a.txt".toList ∧
      matchesSuffix (normalizeRequest "/srv/b/a.txt".toList) other.chars = false ∧
      lastSegment other.chars ≠ lastSegment (normalizeRequest "/srv/b/a.txt".toList) ∧
      (vfs.insert other "other").lookup "/srv/b/a.txt" = vfs.lookup "/srv/b/a.txt" := by
  let vfs : Vfs := ⟨[(⟨"dir/a.txt", by decide⟩, "far")], by decide⟩
  let hit : Hit := ⟨⟨"dir/a.txt", by decide⟩, "far", .basename⟩
  let nearer : RelPath := ⟨"b/a.txt", by decide⟩
  let other : RelPath := ⟨"b/c.txt", by decide⟩
  have hhit : vfs.lookup "/srv/b/a.txt" = .ok hit := by decide
  have hexact : other.chars ≠ normalizeRequest "/srv/b/a.txt".toList := by decide
  have hsuffix : matchesSuffix (normalizeRequest "/srv/b/a.txt".toList) other.chars = false := by
    decide
  have hname : lastSegment other.chars ≠ lastSegment (normalizeRequest "/srv/b/a.txt".toList) := by
    decide
  exact ⟨vfs, hit, nearer, other, rfl, rfl, rfl, hhit, rfl,
    (lookup_insert vfs nearer "near" "/srv/b/a.txt").1 hit hhit, hexact, hsuffix, hname,
    (lookup_insert vfs other "other" "/srv/b/a.txt").2 hexact hsuffix hname⟩

end EdgeBundle.Vfs
