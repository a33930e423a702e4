import EdgeBundle.Files.Disk

/-!
# Ways along segments

A way goes from a folder along the segments of a path. Each segment stays in the folder, goes up or
enters a folder, or it ends the way at a name that is free, at a file or at a link. The rules say so
for one segment after another, and what holds of all ways is proved by induction over them.

## Main definitions

* `Disk.NamesEntry`: segments that name an entry of a folder.
* `Disk.Follows`: the rules.

## Main statements

* `Disk.follow_eq_ok_iff`: a way leads somewhere exactly if the rules lead there.
-/

namespace EdgeBundle.Disk

/-- The segment names an entry of the folder. -/
structure NamesEntry (segment : String) : Prop where
  /-- It does not stay in the folder. -/
  ne_skip : ¬(segment = "" ∨ segment = ".")
  /-- It does not go up. -/
  ne_up : segment ≠ ".."
  /-- The system takes it. -/
  size_le : segment.utf8ByteSize ≤ maxName

variable {disk : Disk} {onLink : Place → String → List String → Except OsError Found}
  {here : Place} {way : List String} {found : Found}

/-- The way from a folder along segments leads to what is found; links lead on with `onLink`. -/
inductive Follows (disk : Disk) (onLink : Place → String → List String → Except OsError Found) :
    Place → List String → Found → Prop where
  /-- The way ends in the folder. -/
  | done {here : Place} : Follows disk onLink here [] (.entry here)
  /-- An empty segment or a dot stays in the folder. -/
  | skip {here : Place} {segment : String} {rest : List String} {found : Found}
      (hskip : segment = "" ∨ segment = ".") (hrest : Follows disk onLink here rest found) :
      Follows disk onLink here (segment :: rest) found
  /-- Two dots go up, and from the root nowhere. -/
  | up {here : Place} {rest : List String} {found : Found}
      (hrest : Follows disk onLink here.dropLast rest found) :
      Follows disk onLink here (".." :: rest) found
  /-- The name of a folder enters it. -/
  | enter {here : Place} {segment : String} {rest : List String} {found : Found}
      (hname : NamesEntry segment) (hget : disk.get? (here ++ [segment]) = some .folder)
      (hrest : Follows disk onLink (here ++ [segment]) rest found) :
      Follows disk onLink here (segment :: rest) found
  /-- A name may be free if nothing but slashes follow it. -/
  | free {here : Place} {segment : String} {rest : List String} (hname : NamesEntry segment)
      (hget : disk.get? (here ++ [segment]) = none) (hempty : ∀ s ∈ rest, s = "") :
      Follows disk onLink here (segment :: rest) (.free here segment !rest.isEmpty)
  /-- A file has nothing behind it, not even a slash. -/
  | file {here : Place} {segment : String} {rest : List String} {bytes : List UInt8}
      (hname : NamesEntry segment) (hget : disk.get? (here ++ [segment]) = some (.file bytes))
      (hrest : rest = []) : Follows disk onLink here (segment :: rest) (.entry (here ++ [segment]))
  /-- A link leads on. -/
  | link {here : Place} {segment target : String} {rest : List String} {found : Found}
      (hname : NamesEntry segment) (hget : disk.get? (here ++ [segment]) = some (.link target))
      (hlink : onLink here target rest = .ok found) :
      Follows disk onLink here (segment :: rest) found

/-- What stands at a name decides where the way goes. -/
theorem NamesEntry.follow_cons {segment : String} {rest : List String} (h : NamesEntry segment) :
    disk.follow true onLink here (segment :: rest) =
      match disk.get? (here ++ [segment]) with
      | none =>
        if rest.all String.isEmpty then .ok (.free here segment !rest.isEmpty)
        else .error .notFound
      | some .folder => disk.follow true onLink (here ++ [segment]) rest
      | some (.file _) =>
        if rest.isEmpty then .ok (.entry (here ++ [segment])) else .error .notDirectory
      | some (.link target) => onLink here target rest := by
  rw [follow, if_neg h.ne_skip, if_neg h.ne_up, if_neg (Nat.not_lt.mpr h.size_le)]
  dsimp only
  rcases disk.get? (here ++ [segment]) with - | - | - | target
  · rfl
  · rfl
  · rfl
  -- a link at the end is followed like any other
  · simp only [Bool.not_true, Bool.and_false, Bool.false_eq_true, if_false]

theorem follows_of_follow (h : disk.follow true onLink here way = .ok found) :
    disk.Follows onLink here way found := by
  induction way generalizing here with
  | nil =>
    cases h
    exact .done
  | cons segment rest ih =>
    -- the tests of the walk in its order; a segment that passes them is a name
    by_cases hskip : segment = "" ∨ segment = "."
    · rw [follow, if_pos hskip] at h
      exact .skip hskip (ih h)
    by_cases hup : segment = ".."
    · rw [follow, if_neg hskip, if_pos hup] at h
      subst hup
      exact .up (ih h)
    by_cases hlong : maxName < segment.utf8ByteSize
    · rw [follow, if_neg hskip, if_neg hup, if_pos hlong] at h
      cases h
    have hname : NamesEntry segment := ⟨hskip, hup, Nat.not_lt.mp hlong⟩
    rw [hname.follow_cons] at h
    split at h
    next hget =>
      split at h
      next hempty =>
        cases h
        refine .free hname hget fun s hs => ?_
        exact String.isEmpty_iff.mp (List.all_eq_true.mp hempty s hs)
      next => cases h
    next hget => exact .enter hname hget (ih h)
    next hget =>
      split at h
      next hrest =>
        cases h
        exact .file hname hget (List.isEmpty_iff.mp hrest)
      next => cases h
    next hget => exact .link hname hget h

theorem Follows.follow_eq (h : disk.Follows onLink here way found) :
    disk.follow true onLink here way = .ok found := by
  induction h with
  | done => rfl
  | skip hskip _ ih => rw [follow, if_pos hskip, ih]
  | up _ ih => rw [follow, if_neg (by decide), if_pos rfl, ih]
  | enter hname hget _ ih => simp only [hname.follow_cons, hget, ih]
  | free hname hget hempty =>
    have hall := List.all_eq_true.mpr fun s hs => String.isEmpty_iff.mpr (hempty s hs)
    simp only [hname.follow_cons, hget, hall, if_true]
  | file hname hget hrest => simp only [hname.follow_cons, hget, hrest, List.isEmpty_nil, if_true]
  | link hname hget hlink => simp only [hname.follow_cons, hget, hlink]

/-- A way leads somewhere exactly if the rules lead there. -/
theorem follow_eq_ok_iff :
    disk.follow true onLink here way = .ok found ↔ disk.Follows onLink here way found :=
  ⟨follows_of_follow, Follows.follow_eq⟩

end EdgeBundle.Disk
