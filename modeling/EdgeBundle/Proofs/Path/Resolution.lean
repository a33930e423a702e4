import EdgeBundle.Proofs.Path.Route

/-!
# Resolution of specifiers

Following a specifier counts: every name adds a directory to those that are open and every `..`
takes one away, where none may be missing on the way. So a specifier can be followed in two steps,
and how far it leads can be told from its segments alone.

## Main definitions

* `depth`: number of directories on the way to a directory.
* `names` and `ups`: numbers of the segments that enter and leave a directory.

## Main statements

* `follow_append`: segments are followed one part after the other.
* `follow_eq_none_iff` and `length_of_follow`: when a way leaves the root, and how deep it ends.
* `forall_mem_of_follow`: what holds of the segments holds of the place that they lead to.
* `resolve_segments`: specifiers in steps, without a target, and from a plain directory.
-/

namespace EdgeBundle.Specifier

variable {dir raw d : String} {stack stack' ss ts : List (List Char)}

/-! ## Counting segments -/

/-- Number of directories on the way to a directory. -/
def depth (dir : List Char) : Nat :=
  (segments dir).countP (· != [])

/-- Number of segments that name something. -/
def names (ss : List (List Char)) : Nat :=
  ss.countP RelPath.isOrdinary

/-- Number of segments that lead up. -/
def ups (ss : List (List Char)) : Nat :=
  ss.count ['.', '.']

@[simp]
theorem length_stackOf (dir : List Char) : (stackOf dir).length = depth dir := by
  rw [stackOf, List.length_reverse, depth, List.countP_eq_length_filter]

section Counts

variable {s : List Char}

theorem names_cons_skip (hs : s = [] ∨ s = ['.']) : names (s :: ss) = names ss := by
  rcases hs with rfl | rfl <;> rfl

theorem ups_cons_skip (hs : s = [] ∨ s = ['.']) : ups (s :: ss) = ups ss := by
  rcases hs with rfl | rfl <;> exact List.count_cons_of_ne (by decide)

theorem names_cons_up : names (['.', '.'] :: ss) = names ss := rfl

theorem ups_cons_up : ups (['.', '.'] :: ss) = ups ss + 1 :=
  List.count_cons_self

theorem isOrdinary_of_not (hskip : ¬(s = [] ∨ s = ['.'])) (hup : s ≠ ['.', '.']) :
    RelPath.isOrdinary s = true :=
  RelPath.isOrdinary_iff.mpr ⟨fun h => hskip (.inl h), fun h => hskip (.inr h), hup⟩

theorem names_cons_ordinary (hs : RelPath.isOrdinary s = true) : names (s :: ss) = names ss + 1 :=
  List.countP_cons_of_pos hs

theorem ups_cons_ordinary (hs : RelPath.isOrdinary s = true) : ups (s :: ss) = ups ss :=
  List.count_cons_of_ne (RelPath.isOrdinary_iff.mp hs).2.2

end Counts

/-! ## Following segments -/

/-- Segments are followed one part after the other. -/
theorem follow_append (stack ss ts : List (List Char)) :
    follow stack (ss ++ ts) = (follow stack ss).bind fun mid => follow mid ts := by
  fun_induction follow stack ss with
  | case1 stack => rfl
  | case2 stack s rest hskip ih => rw [List.cons_append, follow_skip hskip, ih]
  | case3 rest => rfl
  | case4 rest d stack _ ih => rw [List.cons_append, follow_leave, ih]
  | case5 stack s rest hskip hup ih =>
    rw [List.cons_append, follow_enter (isOrdinary_of_not hskip hup), ih]

/-- Every name on a way opens a directory and every `..` closes one. -/
theorem length_of_follow (h : follow stack ss = some stack') :
    stack'.length + ups ss = stack.length + names ss := by
  fun_induction follow stack ss with
  | case1 stack =>
    obtain rfl := Option.some.inj h
    rfl
  | case2 stack s rest hskip ih => rw [names_cons_skip hskip, ups_cons_skip hskip, ih h]
  | case3 rest => cases h
  | case4 rest d stack _ ih =>
    have hcount := ih h
    rw [ups_cons_up, names_cons_up, List.length_cons]
    omega
  | case5 stack s rest hskip hup ih =>
    have hs := isOrdinary_of_not hskip hup
    have hcount := ih h
    rw [names_cons_ordinary hs, ups_cons_ordinary hs]
    rw [List.length_cons] at hcount
    omega

/-- A way leaves the root where more `..` have come than directories are open. -/
theorem follow_eq_none_iff :
    follow stack ss = none ↔ ∃ front, front <+: ss ∧ stack.length + names front < ups front := by
  constructor
  · intro h
    -- the front that leaves the root gets one segment more in each step
    fun_induction follow stack ss with
    | case1 stack => cases h
    | case2 stack s rest hskip ih =>
      obtain ⟨front, hfront, hcount⟩ := ih h
      refine ⟨s :: front, List.prefix_cons_inj s |>.mpr hfront, ?_⟩
      rwa [names_cons_skip hskip, ups_cons_skip hskip]
    | case3 rest => exact ⟨[['.', '.']], ⟨rest, rfl⟩, by decide⟩
    | case4 rest d stack _ ih =>
      obtain ⟨front, hfront, hcount⟩ := ih h
      refine ⟨['.', '.'] :: front, List.prefix_cons_inj _ |>.mpr hfront, ?_⟩
      rw [names_cons_up, ups_cons_up, List.length_cons]
      omega
    | case5 stack s rest hskip hup ih =>
      have hs := isOrdinary_of_not hskip hup
      obtain ⟨front, hfront, hcount⟩ := ih h
      refine ⟨s :: front, List.prefix_cons_inj s |>.mpr hfront, ?_⟩
      rw [names_cons_ordinary hs, ups_cons_ordinary hs]
      rw [List.length_cons] at hcount
      omega
  · -- a way that goes on from its first part has not left the root there
    rintro ⟨front, ⟨rest, rfl⟩, hcount⟩
    rw [follow_append]
    cases hfront : follow stack front with
    | none => rfl
    | some mid =>
      have := length_of_follow hfront
      omega

/-- What holds of the directories that are open, and of the names on a way, holds of the
directories that are open at its end. -/
theorem forall_mem_of_follow {P : List Char → Prop} (h : follow stack ss = some stack')
    (hstack : ∀ s ∈ stack, P s) (hss : ∀ s ∈ ss, RelPath.isOrdinary s = true → P s) :
    ∀ s ∈ stack', P s := by
  fun_induction follow stack ss with
  | case1 stack =>
    obtain rfl := Option.some.inj h
    exact hstack
  | case2 stack s rest _ ih => exact ih h hstack (List.forall_mem_cons.mp hss).2
  | case3 rest => cases h
  | case4 rest d stack _ ih =>
    exact ih h (List.forall_mem_cons.mp hstack).2 (List.forall_mem_cons.mp hss).2
  | case5 stack s rest hskip hup ih =>
    obtain ⟨hs, hrest⟩ := List.forall_mem_cons.mp hss
    exact ih h (List.forall_mem_cons.mpr ⟨hs (isOrdinary_of_not hskip hup), hstack⟩) hrest

/-! ## Targets -/

/-- What a place names: the path of its directories, unless it is the root. -/
def target? (stack : List (List Char)) : Option String :=
  if stack = [] then none else some (String.ofList (joinSegments stack.reverse))

/-- A specifier stands for the place that its segments lead to, if that names something. -/
theorem toOption_resolve (dir raw : String) :
    (resolve dir raw).toOption =
      (follow (stackOf dir.toList) (segments raw.toList)).bind target? := by
  rw [resolve]
  split
  next hleft => rw [hleft]; rfl
  next hroot => rw [hroot]; rfl
  next stack hne hstack =>
    rw [hstack, Option.bind_some, target?, if_neg hne]
    rfl

theorem resolve_eq_climbsAboveRoot_iff :
    resolve dir raw = .error (.climbsAboveRoot raw) ↔
      follow (stackOf dir.toList) (segments raw.toList) = none := by
  rw [resolve]
  split <;> simp_all

theorem resolve_eq_namesNothing_iff :
    resolve dir raw = .error (.namesNothing raw) ↔
      follow (stackOf dir.toList) (segments raw.toList) = some [] := by
  rw [resolve]
  split <;> simp_all

theorem exists_follow_of_resolve (h : resolve dir raw = .ok d) :
    ∃ stack, stack ≠ [] ∧ follow (stackOf dir.toList) (segments raw.toList) = some stack ∧
      d.toList = joinSegments stack.reverse := by
  have htarget := toOption_resolve dir raw
  rw [h, eq_comm] at htarget
  obtain ⟨stack, hstack, hd⟩ := Option.bind_eq_some_iff.mp htarget
  rw [target?, Option.ite_none_left_eq_some] at hd
  refine ⟨stack, hd.1, hstack, ?_⟩
  rw [← Option.some.inj hd.2, String.toList_ofList]

/-- The directories on the way to a directory are segments. -/
theorem mem_stackOf {dir s : List Char} : s ∈ stackOf dir ↔ s ∈ segments dir ∧ s ≠ [] := by
  rw [stackOf, List.mem_reverse, List.mem_filter, bne_iff_ne]

/-- A place that a specifier leads to is found again from its path. -/
theorem stackOf_of_follow
    (h : follow (stackOf dir.toList) (segments raw.toList) = some stack) :
    stackOf (joinSegments stack.reverse) = stack := by
  have hstack : ∀ s ∈ stack, s ≠ [] ∧ '/' ∉ s := by
    refine forall_mem_of_follow h (fun s hs => ?_) fun s hs hname => ?_
    · obtain ⟨hmem, hne⟩ := mem_stackOf.mp hs
      exact ⟨hne, slash_not_mem_of_mem_segments hmem⟩
    · exact ⟨(RelPath.isOrdinary_iff.mp hname).1, slash_not_mem_of_mem_segments hs⟩
  rw [stackOf_joinSegments fun s hs => hstack s (List.mem_reverse.mp hs), List.reverse_reverse]

/-- A specifier is followed in steps: from the target of the first part as from the directory
itself. -/
theorem toOption_resolve_step (h : resolve dir raw = .ok d) (next : String) :
    (resolve d next).toOption = (resolve dir (raw ++ "/" ++ next)).toOption := by
  obtain ⟨stack, -, hstack, hd⟩ := exists_follow_of_resolve h
  have hsegments : segments (raw ++ "/" ++ next).toList =
      segments raw.toList ++ segments next.toList := by
    rw [String.toList_append, String.toList_append, List.append_assoc]
    exact segments_append raw.toList next.toList
  rw [toOption_resolve, toOption_resolve, hsegments, follow_append, hstack, Option.bind_some, hd,
    stackOf_of_follow hstack]

/-- A specifier leads to the root if it leaves all directories, and none more. -/
theorem follow_eq_some_nil_iff :
    follow stack ss = some [] ↔
      (¬ ∃ front, front <+: ss ∧ stack.length + names front < ups front) ∧
        stack.length + names ss = ups ss := by
  rw [← follow_eq_none_iff]
  cases h : follow stack ss with
  | none => simp
  | some stack' =>
    have hcount := length_of_follow h
    rw [Option.some_inj, ← List.length_eq_zero_iff]
    constructor
    · intro hnil
      exact ⟨nofun, by omega⟩
    · rintro ⟨-, hbalance⟩
      omega

/-- A specifier has no target where more `..` have come than directories are open, or where none is
open at its end. -/
theorem exists_resolve_eq_error_iff :
    (∃ e, resolve dir raw = .error e) ↔
      (∃ front, front <+: segments raw.toList ∧ depth dir.toList + names front < ups front) ∨
        depth dir.toList + names (segments raw.toList) = ups (segments raw.toList) := by
  rw [← length_stackOf]
  constructor
  · rintro ⟨e, he⟩
    rw [resolve] at he
    split at he
    next hleft => exact .inl (follow_eq_none_iff.mp hleft)
    next hroot => exact .inr (follow_eq_some_nil_iff.mp hroot).2
    next => cases he
  · intro h
    by_cases hleft : ∃ front, front <+: segments raw.toList ∧
        (stackOf dir.toList).length + names front < ups front
    · exact ⟨_, resolve_eq_climbsAboveRoot_iff.mpr (follow_eq_none_iff.mpr hleft)⟩
    · have hbalance := h.resolve_left hleft
      exact ⟨_, resolve_eq_namesNothing_iff.mpr (follow_eq_some_nil_iff.mpr ⟨hleft, hbalance⟩)⟩

/-- A target is a path of names if the directory is one. -/
theorem exists_names_of_resolve (h : resolve dir raw = .ok d)
    (hdir : ∀ s ∈ segments dir.toList, s ≠ ['.'] ∧ s ≠ ['.', '.']) :
    ∃ parts, parts ≠ [] ∧ d.toList = joinSegments parts ∧
      ∀ s ∈ parts, '/' ∉ s ∧ s ≠ [] ∧ s ≠ ['.'] ∧ s ≠ ['.', '.'] := by
  obtain ⟨stack, hne, hstack, hd⟩ := exists_follow_of_resolve h
  have hnames : ∀ s ∈ stack, '/' ∉ s ∧ s ≠ [] ∧ s ≠ ['.'] ∧ s ≠ ['.', '.'] := by
    refine forall_mem_of_follow hstack (fun s hs => ?_) fun s hs hname => ?_
    · obtain ⟨hmem, hne⟩ := mem_stackOf.mp hs
      exact ⟨slash_not_mem_of_mem_segments hmem, hne, hdir s hmem⟩
    · exact ⟨slash_not_mem_of_mem_segments hs, RelPath.isOrdinary_iff.mp hname⟩
  exact ⟨stack.reverse, List.reverse_ne_nil_iff.mpr hne, hd,
    fun s hs => hnames s (List.mem_reverse.mp hs)⟩

/-- Resolution is arithmetic on segments: a specifier is followed in steps, it has no target exactly
where the count of its segments leaves the root or ends there, and from a directory of names it
leads to a path of names. -/
theorem resolve_segments (dir a : String) :
    (∀ d b, resolve dir a = .ok d →
      (resolve d b).toOption = (resolve dir (a ++ "/" ++ b)).toOption) ∧
    ((∃ e, resolve dir a = .error e) ↔
      (∃ front, front <+: segments a.toList ∧ depth dir.toList + names front < ups front) ∨
        depth dir.toList + names (segments a.toList) = ups (segments a.toList)) ∧
    ∀ d, resolve dir a = .ok d → (∀ s ∈ segments dir.toList, s ≠ ['.'] ∧ s ≠ ['.', '.']) →
      ∃ parts, parts ≠ [] ∧ d.toList = joinSegments parts ∧
        ∀ s ∈ parts, '/' ∉ s ∧ s ≠ [] ∧ s ≠ ['.'] ∧ s ≠ ['.', '.'] :=
  ⟨fun _ b h => toOption_resolve_step h b, exists_resolve_eq_error_iff,
    fun _ h hdir => exists_names_of_resolve h hdir⟩

/-- Up from two directories and down again, with doubled slashes, in one step and in two. -/
theorem resolve_segments_up :
    resolve "chunks/routes" "..//_/" = .ok "chunks/_" ∧
      (resolve "chunks/_" ".././../index.mjs").toOption =
        (resolve "chunks/routes" "..//_//.././../index.mjs").toOption ∧
      ∃ parts, parts ≠ [] ∧ "chunks/_".toList = joinSegments parts ∧
        ∀ s ∈ parts, '/' ∉ s ∧ s ≠ [] ∧ s ≠ ['.'] ∧ s ≠ ['.', '.'] := by
  have h : resolve "chunks/routes" "..//_/" = .ok "chunks/_" := by decide
  obtain ⟨hstep, -, hnames⟩ := resolve_segments "chunks/routes" "..//_/"
  exact ⟨h, hstep "chunks/_" ".././../index.mjs" h, hnames "chunks/_" h (by decide)⟩

/-- A way that comes back below the root has left it all the same. -/
example : resolve "a" "../../b/c" = .error (.climbsAboveRoot "../../b/c") := by decide

end EdgeBundle.Specifier
