import EdgeBundle.Proofs.Vfs.Runtime

/-!
# Where the run time agrees with the lookup

The bundle and the lookup give different files where a path is long in bytes and short in code
units, where a path that matches comes before an array index, and where a file has the name that
sets the prototype of an object. In a map without such paths they give the same file for every
request, and in any other map there is a request that they answer differently.

## Main definitions

* `Runtime.Agrees`: no path tells the two searches apart.

## Main statements

* `Runtime.find?_keys`: when a search over the keys finds what a search over the paths does.
* `Runtime.Agrees.keyBy_eq`: in such a map the two searches find the same path.
* `Runtime.resolve?_eq_lookup_iff`: exactly in these maps the bundle answers every request as the
  lookup does.
-/

namespace EdgeBundle.Vfs

namespace Runtime

/-! ## Searches over the keys -/

section Keys

variable {vfs : Vfs} {test : RelPath → Bool}

/-- If just one array index passes a test, it is the first key that does. -/
theorem find?_keys_of_isIndex {q : RelPath} (hq : q ∈ keys vfs) (hindex : IsIndex q)
    (htest : test q = true) (hunique : ∀ p ∈ vfs.paths, IsIndex p → test p = true → p = q) :
    (keys vfs).find? test = some q := by
  have hmem : q ∈ indexKeys vfs :=
    mem_indexKeys_iff.mpr ⟨mem_ownPaths_iff.mpr (mem_keys_iff.mp hq), hindex⟩
  have hsome : ((indexKeys vfs).find? test).isSome := List.find?_isSome.mpr ⟨q, hmem, htest⟩
  obtain ⟨p, hp⟩ := Option.isSome_iff_exists.mp hsome
  obtain ⟨hown, hpindex⟩ := mem_indexKeys_iff.mp (List.mem_of_find?_eq_some hp)
  obtain rfl := hunique p (mem_ownPaths_iff.mp hown).1 hpindex (List.find?_some hp)
  rw [keys, List.find?_append, hp]
  rfl

/-- If no array index passes a test, the keys are searched as the paths are. -/
theorem find?_keys_of_forall_not (hproto : ∀ p ∈ vfs.paths, p.text ≠ "__proto__")
    (hnone : ∀ p ∈ vfs.paths, IsIndex p → test p = false) :
    (keys vfs).find? test = vfs.paths.find? test := by
  have hown : ownPaths vfs = vfs.paths :=
    List.filter_eq_self.mpr fun p hp => bne_iff_ne.mpr (hproto p hp)
  have hindices : (indexKeys vfs).find? test = none := by
    rw [List.find?_eq_none]
    intro p hp
    rw [mem_indexKeys_iff, hown] at hp
    rw [hnone p hp.1 hp.2]
    exact Bool.false_ne_true
  rw [keys, List.find?_append, hindices, Option.none_or, hown, List.find?_filter]
  refine List.find?_congr fun p hp => ?_
  cases hindex : arrayIndex? p.chars with
  | none => simp
  | some n => simp [hnone p hp (by rw [IsIndex, hindex]; rfl)]

/-- If array indices that pass a test are the first paths that do, the keys are searched as the
paths are. -/
theorem find?_keys (hproto : ∀ p ∈ vfs.paths, p.text ≠ "__proto__")
    (hfirst : ∀ q ∈ vfs.paths, IsIndex q → test q = true →
      ∀ p ∈ vfs.paths, test p = true → IsIndex p ∨ p.text < q.text → p = q) :
    (keys vfs).find? test = vfs.paths.find? test := by
  by_cases h : ∃ q ∈ vfs.paths, IsIndex q ∧ test q = true
  · obtain ⟨q, hq, hindex, htest⟩ := h
    rw [find?_keys_of_isIndex (mem_keys_iff.mpr ⟨hq, hproto q hq⟩) hindex htest
      fun p hp hp' ht => hfirst q hq hindex htest p hp ht (.inl hp')]
    refine ((find?_eq_some_iff_of_pairwise vfs.pairwise_paths).mpr ⟨hq, htest, ?_⟩).symm
    intro p hp hlt
    refine Bool.eq_false_iff.mpr fun ht => ?_
    obtain rfl := hfirst q hq hindex htest p hp ht (.inr hlt)
    exact String.lt_irrefl _ hlt
  · refine find?_keys_of_forall_not hproto fun p hp hindex => ?_
    exact Bool.eq_false_iff.mpr fun ht => h ⟨p, hp, hindex, ht⟩

end Keys

/-! ## Maps in which the searches agree -/

/-- No path tells the two searches apart. -/
structure Agrees (vfs : Vfs) : Prop where
  /-- No file has the name that sets the prototype of an object. -/
  ne_proto : ∀ p ∈ vfs.paths, p.text ≠ "__proto__"
  /-- A path that is long in bytes is long in code units. -/
  long_units : ∀ p ∈ vfs.paths, minContainedLength < utf8Width p.chars →
    minContainedLength < utf16Width p.chars
  /-- A path that comes before an array index is short and has another file name. -/
  before_index : ∀ p ∈ vfs.paths, ∀ q ∈ vfs.paths, IsIndex q → p.text < q.text →
    utf8Width p.chars ≤ minContainedLength ∧ lastSegment p.chars ≠ q.chars

section Agreement

variable {vfs : Vfs}

theorem Agrees.matchesBy_eq (h : Agrees vfs) {p : RelPath} (hp : p ∈ vfs.paths)
    (request : List Char) :
    matchesBy utf16Width request p.chars =
      matchesBy utf8Width request p.chars := by
  have hlong : minContainedLength < utf16Width p.chars ↔
      minContainedLength < utf8Width p.chars :=
    ⟨fun hlt => hlt.trans_le (utf16Width_le p.chars), h.long_units p hp⟩
  rw [matchesBy, matchesBy, decide_eq_decide.mpr hlong]

/-- An array index that matches is the first path that does. -/
theorem Agrees.eq_of_matchesBy (h : Agrees vfs) {p q : RelPath} (hp : p ∈ vfs.paths)
    (hq : q ∈ vfs.paths) (hindex : IsIndex q) {request : List Char}
    (hmatch : matchesBy utf8Width request p.chars = true)
    (hlast : lastSegment request = q.chars) (hbefore : IsIndex p ∨ p.text < q.text) : p = q := by
  rcases hbefore with hpindex | hlt
  · rw [hpindex.matchesBy_iff (Nat.le_refl _), hlast] at hmatch
    exact RelPath.ext_chars hmatch.symm
  · obtain ⟨hshort, hname⟩ := h.before_index p hp q hq hindex hlt
    rcases lastSegment_eq_of_matchesBy hmatch with hsame | hlong
    · exact absurd (hsame.trans hlast) hname
    · omega

/-- In such a map the two searches find the same path. -/
theorem Agrees.keyBy_eq (h : Agrees vfs) (request : List Char) :
    keyBy utf16Width (keys vfs) request =
      keyBy utf8Width vfs.paths request := by
  have hexact : (keys vfs).find? (·.chars == request) = vfs.paths.find? (·.chars == request) := by
    refine find?_keys h.ne_proto fun q hq _ htest p hp ht _ => ?_
    rw [beq_iff_eq] at htest ht
    exact RelPath.ext_chars (ht.trans htest.symm)
  have hsuffix : ((keys vfs).find? fun k => matchesBy utf16Width request k.chars) =
      vfs.paths.find? fun k => matchesBy utf8Width request k.chars := by
    rw [List.find?_congr fun k hk => h.matchesBy_eq (mem_keys_iff.mp hk).1 request]
    refine find?_keys h.ne_proto fun q hq hindex htest p hp ht hbefore => ?_
    rw [hindex.matchesBy_iff (Nat.le_refl _)] at htest
    exact h.eq_of_matchesBy hp hq hindex ht htest hbefore
  rw [keyBy, keyBy, hexact, hsuffix]
  cases hfound : vfs.paths.find? fun k => matchesBy utf8Width request k.chars with
  | some k => rfl
  | none =>
    -- an array index with the file name would have matched before
    have hname : ((keys vfs).find? fun k => lastSegment k.chars == lastSegment request) =
        vfs.paths.find? fun k => lastSegment k.chars == lastSegment request := by
      refine find?_keys h.ne_proto fun q hq hindex htest => ?_
      rw [beq_iff_eq, lastSegment_of_slash_not_mem hindex.slash_not_mem, eq_comm,
        ← hindex.matchesBy_iff (Nat.le_refl _)] at htest
      exact absurd htest (List.find?_eq_none.mp hfound q hq)
    rw [hname]

/-! ## Requests that tell the searches apart -/

theorem mem_of_keyBy {size : List Char → Nat} {paths : List RelPath} {request : List Char}
    {k : RelPath} (h : keyBy size paths request = some k) : k ∈ paths := by
  rw [keyBy, Option.or_eq_some_iff, Option.or_eq_some_iff] at h
  rcases h with h | ⟨-, h | ⟨-, h⟩⟩
  · exact List.mem_of_find?_eq_some h
  · exact List.mem_of_find?_eq_some h
  · split at h
    · cases h
    · exact List.mem_of_find?_eq_some h

/-- No path is a request that starts with a slash. -/
theorem keyBy_rooted (size : List Char → Nat) (paths : List RelPath) (cs : List Char) :
    keyBy size paths ('/' :: cs) =
      (paths.find? fun k => matchesBy size ('/' :: cs) k.chars).or
        (if lastSegment ('/' :: cs) = [] then none
        else paths.find? fun k => lastSegment k.chars == lastSegment ('/' :: cs)) := by
  have hexact : paths.find? (·.chars == '/' :: cs) = none := by
    rw [List.find?_eq_none]
    intro k _ hk
    exact k.head?_chars (by rw [beq_iff_eq.mp hk]; rfl)
  rw [keyBy, hexact, Option.none_or]

section Agree

variable (hagree : ∀ request, resolve? vfs request = (vfs.lookup request).toOption.map Hit.key)

include hagree

/-- Where the resolvers agree, so do the searches for rooted requests. -/
theorem keyBy_eq_of_agree {cs : List Char} (hbackslash : '\\' ∉ cs)
    (hup : ['.', '.'] ∉ segments cs) :
    keyBy utf16Width (keys vfs) ('/' :: cs) =
      keyBy utf8Width vfs.paths ('/' :: cs) := by
  have h := hagree (String.ofList ('/' :: cs))
  rwa [resolve?_eq, key_lookup, String.toList_ofList,
    normalizeRequest_of_rooted hbackslash hup] at h

theorem ne_proto_of_agree {p : RelPath} (hp : p ∈ vfs.paths) : p.text ≠ "__proto__" := by
  intro htext
  have h := hagree "__proto__"
  have hplain : normalizeRequest "__proto__".toList = "__proto__".toList := by decide
  rw [resolve?_eq, key_lookup, hplain] at h
  -- the lookup finds the path itself
  have hself : (p.chars == "__proto__".toList) = true :=
    beq_iff_eq.mpr (congrArg String.toList htext)
  have hsome : (vfs.paths.find? (·.chars == "__proto__".toList)).isSome :=
    List.find?_isSome.mpr ⟨p, hp, hself⟩
  obtain ⟨k, hk⟩ := Option.isSome_iff_exists.mp hsome
  have hfound : keyBy utf8Width vfs.paths "__proto__".toList = some k := by
    rw [keyBy, hk, Option.some_or]
  have hkey := (mem_keys_iff.mp (mem_of_keyBy (h.trans hfound))).2
  have hsame := List.find?_some hk
  exact hkey (String.toList_injective (beq_iff_eq.mp hsame))

theorem long_units_of_agree {k : RelPath} (hk : k ∈ vfs.paths)
    (hlong : minContainedLength < utf8Width k.chars) :
    minContainedLength < utf16Width k.chars := by
  by_contra hshort
  have hbackslash : '\\' ∉ k.chars ++ ['/'] := by
    rw [List.mem_append, not_or]
    exact ⟨k.canonical.1, by decide⟩
  have hup : ['.', '.'] ∉ segments (k.chars ++ ['/']) := by
    rw [segments_append, List.mem_append, not_or]
    exact ⟨k.up_not_mem_segments, by decide⟩
  have h := keyBy_eq_of_agree hagree hbackslash hup
  have hname : lastSegment ('/' :: (k.chars ++ ['/'])) = [] := by
    rw [← List.cons_append, lastSegment_append]
    rfl
  rw [keyBy_rooted, keyBy_rooted, if_pos hname, if_pos hname, Option.or_none, Option.or_none] at h
  -- the lookup finds a path, since the request contains `k`
  have hmatch : matchesBy utf8Width ('/' :: (k.chars ++ ['/'])) k.chars = true :=
    matchesBy_iff.mpr (.inr (.inr ⟨hlong, ['/'], ['/'], by simp⟩))
  have hsome : (vfs.paths.find? fun p =>
      matchesBy utf8Width ('/' :: (k.chars ++ ['/'])) p.chars).isSome :=
    List.find?_isSome.mpr ⟨k, hk, hmatch⟩
  rw [← h] at hsome
  -- no key is long enough in code units
  obtain ⟨p, -, hp⟩ := List.find?_isSome.mp hsome
  rcases matchesBy_iff.mp hp with hend | ⟨-, hend⟩ | ⟨hplong, hinside⟩
  · obtain ⟨-, before, hbefore, -⟩ := endsWithSegments_iff.mp hend
    exact p.not_isSuffix_slash ('/' :: k.chars) ⟨before, hbefore.symm⟩
  · obtain ⟨-, before, hbefore, -⟩ := endsWithSegments_iff.mp hend
    exact p.not_isSuffix_slash (before ++ '/' :: k.chars) ⟨[], by simpa using hbefore⟩
  · have hunits := utf16_isInfix_iff.mpr (RelPath.isInfix_of_isInfix_slash hinside)
    exact hshort (hplong.trans_le hunits.length_le)

/-- A rooted request that an array index and a path before it both match is answered differently. -/
theorem not_matchesBy_of_agree {q p : RelPath} (hq : q ∈ vfs.paths) (hindex : IsIndex q)
    (hp : p ∈ vfs.paths) (hlt : p.text < q.text) {cs : List Char} (hbackslash : '\\' ∉ cs)
    (hup : ['.', '.'] ∉ segments cs) (hlast : lastSegment ('/' :: cs) = q.chars) :
    ¬ matchesBy utf8Width ('/' :: cs) p.chars = true := by
  intro hmatch
  have h := keyBy_eq_of_agree hagree hbackslash hup
  have hsize : utf16Width q.chars ≤ utf8Width q.chars := utf16Width_le q.chars
  have hfirst : ((keys vfs).find? fun k =>
      matchesBy utf16Width ('/' :: cs) k.chars) = some q := by
    refine find?_keys_of_isIndex (mem_keys_iff.mpr ⟨hq, ne_proto_of_agree hagree hq⟩) hindex
      ((hindex.matchesBy_iff hsize).mpr hlast) fun k _ hkindex hmatch => ?_
    rw [hkindex.matchesBy_iff (utf16Width_le k.chars), hlast] at hmatch
    exact RelPath.ext_chars hmatch.symm
  rw [keyBy_rooted, hfirst, Option.some_or, keyBy_rooted] at h
  -- the first path that matches comes no later than `p`, so it is not the index
  have hsome : (vfs.paths.find? fun k => matchesBy utf8Width ('/' :: cs) k.chars).isSome :=
    List.find?_isSome.mpr ⟨p, hp, hmatch⟩
  obtain ⟨k, hk⟩ := Option.isSome_iff_exists.mp hsome
  rw [hk, Option.some_or] at h
  cases h
  have hleast := ((find?_eq_some_iff_of_pairwise vfs.pairwise_paths).mp hk).2.2 p hp hlt
  rw [hmatch] at hleast
  cases hleast

theorem before_index_of_agree {p q : RelPath} (hp : p ∈ vfs.paths) (hq : q ∈ vfs.paths)
    (hindex : IsIndex q) (hlt : p.text < q.text) :
    utf8Width p.chars ≤ minContainedLength ∧ lastSegment p.chars ≠ q.chars := by
  have hroot (cs : List Char) : lastSegment ('/' :: cs) = lastSegment cs :=
    lastSegment_append [] cs
  constructor
  · -- the request ends with the index and contains the path
    by_contra hlong
    have hbackslash : '\\' ∉ p.chars ++ '/' :: q.chars := by
      rw [List.mem_append, List.mem_cons, not_or, not_or]
      exact ⟨p.canonical.1, by decide, q.canonical.1⟩
    have hup : ['.', '.'] ∉ segments (p.chars ++ '/' :: q.chars) := by
      rw [segments_append, List.mem_append, not_or]
      exact ⟨p.up_not_mem_segments, q.up_not_mem_segments⟩
    have hlast : lastSegment ('/' :: (p.chars ++ '/' :: q.chars)) = q.chars := by
      rw [hroot, lastSegment_append, lastSegment_of_slash_not_mem hindex.slash_not_mem]
    refine not_matchesBy_of_agree hagree hq hindex hp hlt hbackslash hup hlast ?_
    exact matchesBy_iff.mpr
      (.inr (.inr ⟨Nat.not_le.mp hlong, ['/'], '/' :: q.chars, by simp⟩))
  · -- the request is the path itself
    intro hname
    have hbackslash : '\\' ∉ p.chars := p.canonical.1
    refine not_matchesBy_of_agree hagree hq hindex hp hlt hbackslash p.up_not_mem_segments
      ((hroot p.chars).trans hname) ?_
    exact matchesBy_iff.mpr
      (.inl (endsWithSegments_iff.mpr ⟨p.chars_ne_nil, ['/'], rfl, .inr (.inr rfl)⟩))

end Agree

/-- Exactly where no path tells the searches apart the bundle answers every request as the lookup
does. -/
theorem resolve?_eq_lookup_iff (vfs : Vfs) :
    (∀ request, resolve? vfs request = (vfs.lookup request).toOption.map Hit.key) ↔ Agrees vfs := by
  constructor
  · intro hagree
    exact {
      ne_proto := fun p hp => ne_proto_of_agree hagree hp
      long_units := fun p hp hlong => long_units_of_agree hagree hp hlong
      before_index := fun p hp q hq hindex hlt => before_index_of_agree hagree hp hq hindex hlt }
  · intro h request
    rw [resolve?_eq, key_lookup, h.keyBy_eq]

end Agreement

/-- An array index comes first among the keys but not among the paths, and a path has more than ten
bytes but not more than ten code units. -/
theorem exists_resolve?_ne_lookup :
    (∃ vfs : Vfs, vfs.paths.map RelPath.text = ["10/5", "5"] ∧
      (resolve? vfs "x/10/5").map RelPath.text = some "5" ∧
      (vfs.lookup "x/10/5").toOption.map (·.key.text) = some "10/5") ∧
    ∃ vfs : Vfs, vfs.paths.map RelPath.text = ["éééééé.txt"] ∧
      resolve? vfs "/srv/éééééé.txt?raw" = none ∧
      (vfs.lookup "/srv/éééééé.txt?raw").toOption.map (·.key.text) = some "éééééé.txt" := by
  refine ⟨⟨⟨[(⟨"10/5", by decide⟩, "a"), (⟨"5", by decide⟩, "b")], by decide⟩, rfl, ?_, ?_⟩,
    ⟨[(⟨"éééééé.txt", by decide⟩, "c")], by decide⟩, rfl, ?_, ?_⟩
  all_goals decide +kernel

end Runtime

end EdgeBundle.Vfs
