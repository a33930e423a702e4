import EdgeBundle.Proofs.Json.Written
import Mathlib.Data.List.Forall2

/-!
# The order of members

Sorting the members of every object loses nothing but their order, as long as no object has a key
twice.

## Main definitions

* `DistinctKeys`: no object in the value has a key twice.
* `Rearranges`: two values that differ in the order of members only.

## Main statements

* `sortMembers_perm`: sorting puts members in another order.
* `rearranges_of_canonical_eq`: values with the same canonical form differ in the order of members
  only.
* `Spelled.canonical`: sorting keeps strings and keys as they are.
-/

namespace EdgeBundle.Json

/-- No object in the value has a key twice. -/
inductive DistinctKeys : Json → Prop
  /-- The null value has no objects in it. -/
  | null : DistinctKeys .null
  /-- A truth value has no objects in it. -/
  | bool (b : Bool) : DistinctKeys (.bool b)
  /-- A number has no objects in it. -/
  | number (n : JsonNumber) : DistinctKeys (.number n)
  /-- A string has no objects in it. -/
  | string (s : String) : DistinctKeys (.string s)
  /-- No item has an object with a key twice in it. -/
  | array {items : List Json} (h : ∀ item ∈ items, DistinctKeys item) :
    DistinctKeys (.array items)
  /-- The keys differ, and no value has an object with a key twice in it. -/
  | object {members : List (String × Json)} (hkeys : (members.map Prod.fst).Nodup)
    (hvalues : ∀ m ∈ members, DistinctKeys m.2) : DistinctKeys (.object members)

/-- The values differ in the order of members only. -/
inductive Rearranges : Json → Json → Prop
  /-- The null value stays. -/
  | null : Rearranges .null .null
  /-- A truth value stays. -/
  | bool (b : Bool) : Rearranges (.bool b) (.bool b)
  /-- A number stays. -/
  | number (n : JsonNumber) : Rearranges (.number n) (.number n)
  /-- A string stays. -/
  | string (s : String) : Rearranges (.string s) (.string s)
  /-- Items stay in order. -/
  | array {items items' : List Json} (h : List.Forall₂ Rearranges items items') :
    Rearranges (.array items) (.array items')
  /-- Members come in another order, and then key by key and value by value. -/
  | object {members middle members' : List (String × Json)} (hperm : members.Perm middle)
    (hkeys : middle.map Prod.fst = members'.map Prod.fst)
    (hvalues : List.Forall₂ Rearranges (middle.map Prod.snd) (members'.map Prod.snd)) :
    Rearranges (.object members) (.object members')

/-! ## Sorting -/

variable {members : List (String × Json)}

theorem insertMember_perm {key : String} {value : Json} (h : key ∉ members.map Prod.fst) :
    (insertMember key value members).Perm ((key, value) :: members) := by
  induction members with
  | nil => exact .refl _
  | cons m members ih =>
    obtain ⟨k, v⟩ := m
    rw [List.map_cons, List.mem_cons, not_or] at h
    rw [insertMember]
    split
    next => exact .refl _
    next hle =>
      split
      next hlt => exact ((ih h.2).cons (k, v)).trans (.swap _ _ _)
      next hge =>
        exact absurd (String.le_antisymm (String.not_lt.mp hge) (String.not_lt.mp hle)) h.1

theorem foldl_insertMember_perm {sorted : List (String × Json)}
    (h : ((sorted ++ members).map Prod.fst).Nodup) :
    (members.foldl (fun sorted m => insertMember m.1 m.2 sorted) sorted).Perm
      (sorted ++ members) := by
  induction members generalizing sorted with
  | nil =>
    rw [List.foldl_nil, List.append_nil]
  | cons m members ih =>
    have hmiddle : (m :: (sorted ++ members)).Perm (sorted ++ m :: members) :=
      List.perm_middle.symm
    have hnodup := (hmiddle.map Prod.fst).nodup_iff.mpr h
    -- the key is not among those that are sorted already, so that no member is replaced
    have hinsert : (insertMember m.1 m.2 sorted).Perm (m :: sorted) := by
      apply insertMember_perm
      rw [List.map_cons, List.nodup_cons, List.map_append, List.mem_append, not_or] at hnodup
      exact hnodup.1.1
    have hall := hinsert.append_right members
    rw [List.foldl_cons]
    exact ((ih ((hall.map Prod.fst).nodup_iff.mpr hnodup)).trans hall).trans hmiddle

/-- Sorting puts members in another order. -/
theorem sortMembers_perm (h : (members.map Prod.fst).Nodup) :
    (sortMembers members).Perm members :=
  foldl_insertMember_perm h

theorem canonicalItems_eq_map (items : List Json) : canonicalItems items = items.map canonical := by
  induction items with
  | nil => rfl
  | cons item items ih => rw [canonicalItems, ih, List.map_cons]

theorem canonicalMembers_eq_map (members : List (String × Json)) :
    canonicalMembers members = members.map fun m => (m.1, m.2.canonical) := by
  induction members with
  | nil => rfl
  | cons m members ih => rw [canonicalMembers, ih, List.map_cons]

theorem sortMembers_canonicalMembers_perm (h : (members.map Prod.fst).Nodup) :
    (sortMembers (canonicalMembers members)).Perm
      (members.map fun m => (m.1, m.2.canonical)) := by
  rw [canonicalMembers_eq_map]
  apply sortMembers_perm
  rwa [List.map_map]

/-! ## Values with the same canonical form -/

/-- A rearrangement of an image is the image of a rearrangement. -/
theorem exists_perm_of_map_perm {α β : Type} {f : α → β} {xs : List α} {ys : List β}
    (h : (xs.map f).Perm ys) : ∃ middle, xs.Perm middle ∧ middle.map f = ys := by
  -- each entry stands at the place of its image, and moves with it
  have himage : List.Forall₂ (fun y x => y = f x) (xs.map f) xs :=
    List.forall₂_map_left_iff.mpr (List.forall₂_same.mpr fun _ _ => rfl)
  obtain ⟨middle, hmiddle, hperm⟩ := List.perm_comp_forall₂ h.symm himage
  have hmap := List.forall₂_map_right_iff.mpr hmiddle
  rw [List.forall₂_eq_eq_eq] at hmap
  exact ⟨middle, hperm.symm, hmap.symm⟩

theorem forall₂_rearranges {vs ws : List Json}
    (h : ∀ v ∈ vs, ∀ w ∈ ws, v.canonical = w.canonical → v.Rearranges w)
    (heq : vs.map canonical = ws.map canonical) : List.Forall₂ Rearranges vs ws := by
  induction vs generalizing ws with
  | nil =>
    obtain rfl := List.map_eq_nil_iff.mp heq.symm
    exact .nil
  | cons v vs ih =>
    cases ws with
    | nil => exact nomatch heq
    | cons w ws =>
      obtain ⟨hhead, htail⟩ := List.cons.inj heq
      exact .cons (h v List.mem_cons_self w List.mem_cons_self hhead)
        (ih (fun v' hv' w' hw' =>
          h v' (List.mem_cons_of_mem _ hv') w' (List.mem_cons_of_mem _ hw')) htail)

theorem ctorIdx_canonical (v : Json) : v.canonical.ctorIdx = v.ctorIdx := by
  cases v <;> rfl

theorem rearranges_object {members members' : List (String × Json)}
    (hkeys : (members.map Prod.fst).Nodup) (hkeys' : (members'.map Prod.fst).Nodup)
    (h : ∀ m ∈ members, ∀ m' ∈ members', m.2.canonical = m'.2.canonical → m.2.Rearranges m'.2)
    (heq : sortMembers (canonicalMembers members) = sortMembers (canonicalMembers members')) :
    (Json.object members).Rearranges (.object members') := by
  have hperm := (sortMembers_canonicalMembers_perm hkeys).symm.trans
    (heq ▸ sortMembers_canonicalMembers_perm hkeys')
  -- the members in the order that the other value has them in
  obtain ⟨middle, hmiddle, hmap⟩ := exists_perm_of_map_perm hperm
  have hfst := congrArg (List.map Prod.fst) hmap
  have hsnd := congrArg (List.map Prod.snd) hmap
  rw [List.map_map, List.map_map] at hfst hsnd
  refine .object hmiddle hfst (forall₂_rearranges ?_ ?_)
  · rintro v hv w hw
    obtain ⟨m, hm, rfl⟩ := List.mem_map.mp hv
    obtain ⟨m', hm', rfl⟩ := List.mem_map.mp hw
    exact h m (hmiddle.mem_iff.mpr hm) m' hm'
  · rw [List.map_map, List.map_map]
    exact hsnd

/-- Values with the same canonical form differ in the order of members only. -/
theorem rearranges_of_canonical_eq {v w : Json} (hv : v.DistinctKeys) (hw : w.DistinctKeys)
    (h : v.canonical = w.canonical) : v.Rearranges w := by
  have hsame : ∀ {v w : Json}, v.canonical = w.canonical → v.ctorIdx = w.ctorIdx := by
    intro v w h
    rw [← ctorIdx_canonical, h, ctorIdx_canonical]
  -- on the first value; its canonical form has its kind, so the second one has that kind too
  induction hv generalizing w with
  | null =>
    have hkind := hsame h
    cases hw with
    | null => exact .null
    | _ => exact nomatch hkind
  | bool b =>
    have hkind := hsame h
    cases hw with
    | bool b' =>
      obtain rfl := Json.bool.inj h
      exact .bool b
    | _ => exact nomatch hkind
  | number n =>
    have hkind := hsame h
    cases hw with
    | number n' =>
      obtain rfl := Json.number.inj h
      exact .number n
    | _ => exact nomatch hkind
  | string s =>
    have hkind := hsame h
    cases hw with
    | string s' =>
      obtain rfl := Json.string.inj h
      exact .string s
    | _ => exact nomatch hkind
  | array hitems ih =>
    have hkind := hsame h
    cases hw with
    | array hitems' =>
      have heq := Json.array.inj h
      rw [canonicalItems_eq_map, canonicalItems_eq_map] at heq
      exact .array (forall₂_rearranges (fun v hv w hw => ih v hv (hitems' w hw)) heq)
    | _ => exact nomatch hkind
  | object hkeys hvalues ih =>
    have hkind := hsame h
    cases hw with
    | object hkeys' hvalues' =>
      exact rearranges_object hkeys hkeys'
        (fun m hm m' hm' => ih m hm (hvalues' m' hm')) (Json.object.inj h)
    | _ => exact nomatch hkind

/-- Sorting keeps strings and keys as they are. -/
theorem Spelled.canonical {admits : String → Prop} {v : Json} (hv : v.Spelled admits)
    (hkeys : v.DistinctKeys) : v.canonical.Spelled admits := by
  induction hv with
  | null => exact .null
  | bool b => exact .bool b
  | number n => exact .number n
  | string hs => exact .string hs
  | array hitems ih =>
    cases hkeys with
    | array hdistinct =>
      refine .array fun item hitem => ?_
      rw [canonicalItems_eq_map] at hitem
      obtain ⟨item', hitem', rfl⟩ := List.mem_map.mp hitem
      exact ih item' hitem' (hdistinct item' hitem')
  | object hadmits hvalues ih =>
    cases hkeys with
    | object hnodup hdistinct =>
      -- sorting drops no member where the keys differ
      have hmem := fun m => (sortMembers_canonicalMembers_perm hnodup).mem_iff (a := m)
      refine .object (fun m hm => ?_) (fun m hm => ?_)
      · obtain ⟨m', hm', rfl⟩ := List.mem_map.mp ((hmem m).mp hm)
        exact hadmits m' hm'
      · obtain ⟨m', hm', rfl⟩ := List.mem_map.mp ((hmem m).mp hm)
        exact ih m' hm' (hdistinct m' hm')

end EdgeBundle.Json
