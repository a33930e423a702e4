import EdgeBundle.Link.Order
import EdgeBundle.Proofs.Logged
import EdgeBundle.Proofs.Text.Search

/-!
# Groups in the link order

The link order is a stable sort by rank. So it holds the same records, puts the groups one after the
other, and inside each group keeps the order of collection. The entry module comes last, and where
no record is the entry module a warning says so.

## Main definitions

* `Record.rank`: rank of a record's group.
* `Record.ofGroup`: records of one group.
* `LinkPriority.Covers`: the paths of a group.

## Main statements

* `linkOrder_perm` and `pairwise_linkOrder`: the link order is sorted.
* `ofGroup_linkOrder`: it is stable.
* `linkOrder_eq_flatMap`: it is the groups one after the other.
* `orderRecords_eq`: when there is a warning.
* `orderRecords_groups`: ordering records, with all that follows for the order.
-/

namespace EdgeBundle

open Logged

variable {config : Config} {records : List Record}

/-! ## Sorting by rank -/

namespace Record

/-- The rank of a record's group. -/
def rank (config : Config) (r : Record) : Nat :=
  (LinkPriority.ofRecord config r).rank

variable (config)

theorem rank_le_trans (a b c : Record) (hab : decide (a.rank config ≤ b.rank config) = true)
    (hbc : decide (b.rank config ≤ c.rank config) = true) :
    decide (a.rank config ≤ c.rank config) = true :=
  decide_eq_true (Nat.le_trans (of_decide_eq_true hab) (of_decide_eq_true hbc))

theorem rank_le_total (a b : Record) :
    (decide (a.rank config ≤ b.rank config) || decide (b.rank config ≤ a.rank config)) = true := by
  rw [Bool.or_eq_true, decide_eq_true_eq, decide_eq_true_eq]
  exact Nat.le_total _ _

end Record

/-- The link order holds the same records. -/
theorem linkOrder_perm (config : Config) (records : List Record) :
    (linkOrder config records).Perm records :=
  List.mergeSort_perm _ _

/-- In the link order no group comes before an earlier one. -/
theorem pairwise_linkOrder (config : Config) (records : List Record) :
    (linkOrder config records).Pairwise fun a b => a.rank config ≤ b.rank config :=
  (List.pairwise_mergeSort (Record.rank_le_trans config) (Record.rank_le_total config) records).imp
    of_decide_eq_true

@[simp]
theorem result_orderRecords (config : Config) (records : List Record) :
    (orderRecords config records : Logged Error (List Record)).result =
      .ok (linkOrder config records) := by
  rw [orderRecords]
  split
  · rfl
  -- without an entry module a warning comes first
  · exact result_bind_eq_ok_iff.mpr ⟨(), rfl, rfl⟩

/-! ## Groups -/

/-- The groups in link order. -/
def LinkPriority.groups : List LinkPriority := [library, route, other, entry]

/-- The records of one group. -/
def Record.ofGroup (config : Config) (g : LinkPriority) (records : List Record) : List Record :=
  records.filter (LinkPriority.ofRecord config · = g)

theorem Record.ofGroup_cons (config : Config) (g : LinkPriority) (r : Record) (rs : List Record) :
    ofGroup config g (r :: rs) =
      if LinkPriority.ofRecord config r = g then r :: ofGroup config g rs
      else ofGroup config g rs := by
  simp only [ofGroup, List.filter_cons, decide_eq_true_eq]

/-- Inside a group the link order is the order of collection. -/
theorem ofGroup_linkOrder (config : Config) (g : LinkPriority) (records : List Record) :
    Record.ofGroup config g (linkOrder config records) = Record.ofGroup config g records := by
  -- all of a group have one rank, so the group is in order already
  have hsorted : (Record.ofGroup config g records).Pairwise
      fun a b => decide (a.rank config ≤ b.rank config) = true := by
    refine List.pairwise_of_forall_mem_list fun a ha b hb => decide_eq_true ?_
    simp only [Record.ofGroup, List.mem_filter, decide_eq_true_eq] at ha hb
    exact Nat.le_of_eq (congrArg LinkPriority.rank (ha.2.trans hb.2.symm))
  have hsub : (Record.ofGroup config g records).Sublist (linkOrder config records) :=
    List.sublist_mergeSort (Record.rank_le_trans config) (Record.rank_le_total config) hsorted
      List.filter_sublist
  have hgroup := hsub.filter (LinkPriority.ofRecord config · = g)
  simp only [Record.ofGroup, List.filter_filter, Bool.and_self] at hgroup
  refine (hgroup.eq_of_length ?_).symm
  exact ((linkOrder_perm config records).filter _).length_eq.symm

/-- Records whose ranks do not fall are their groups one after the other. -/
theorem eq_flatMap_ofGroup (h : records.Pairwise fun a b => a.rank config ≤ b.rank config) :
    records = LinkPriority.groups.flatMap fun g => Record.ofGroup config g records := by
  induction records with
  | nil => rfl
  | cons r rs ih =>
    obtain ⟨hr, hrs⟩ := List.pairwise_cons.mp h
    -- no record of an earlier group comes later
    have hnone (g : LinkPriority) (hg : g.rank < r.rank config) :
        Record.ofGroup config g rs = [] := by
      rw [Record.ofGroup, List.filter_eq_nil_iff]
      intro s hs hgroup
      have hle : r.rank config ≤ (LinkPriority.ofRecord config s).rank := hr s hs
      rw [of_decide_eq_true hgroup] at hle
      omega
    have hrank : r.rank config = (LinkPriority.ofRecord config r).rank := rfl
    have ih := ih hrs
    simp only [LinkPriority.groups, List.flatMap_cons, List.flatMap_nil, List.append_nil,
      Record.ofGroup_cons] at ih ⊢
    cases hg : LinkPriority.ofRecord config r <;> rw [hg] at hrank <;>
      simp only [reduceCtorEq, if_true, if_false, List.cons_append]
    case library => exact congrArg (r :: ·) ih
    case route =>
      rw [hnone .library (hrank ▸ by decide)] at ih ⊢
      exact congrArg (r :: ·) ih
    case other =>
      rw [hnone .library (hrank ▸ by decide), hnone .route (hrank ▸ by decide)] at ih ⊢
      exact congrArg (r :: ·) ih
    case entry =>
      rw [hnone .library (hrank ▸ by decide), hnone .route (hrank ▸ by decide),
        hnone .other (hrank ▸ by decide)] at ih ⊢
      exact congrArg (r :: ·) ih

/-- The link order is the groups one after the other, each in the order of collection. -/
theorem linkOrder_eq_flatMap (config : Config) (records : List Record) :
    linkOrder config records =
      LinkPriority.groups.flatMap fun g => Record.ofGroup config g records := by
  rw [eq_flatMap_ofGroup (pairwise_linkOrder config records)]
  simp only [ofGroup_linkOrder]

/-- The link order, group by group. -/
theorem linkOrder_eq_append (config : Config) (records : List Record) :
    linkOrder config records =
      Record.ofGroup config .library records ++ (Record.ofGroup config .route records ++
        (Record.ofGroup config .other records ++ Record.ofGroup config .entry records)) := by
  rw [linkOrder_eq_flatMap]
  simp only [LinkPriority.groups, List.flatMap_cons, List.flatMap_nil, List.append_nil]

/-- Ordering again changes nothing, since the groups are in order already. -/
theorem linkOrder_linkOrder (config : Config) (records : List Record) :
    linkOrder config (linkOrder config records) = linkOrder config records := by
  rw [linkOrder_eq_flatMap, linkOrder_eq_flatMap config records]
  simp only [ofGroup_linkOrder, ← linkOrder_eq_flatMap]

/-! ## Paths of groups -/

namespace LinkPriority

/-- The paths of a group. A module is the entry, or a library, or a route, or none of them; the
first of these that fits counts. -/
def Covers (config : Config) (path : RelPath) : LinkPriority → Prop
  | entry => path.text = config.entryModule
  | library => path.text ≠ config.entryModule ∧ config.libraryMarker.toList <:+: path.chars
  | route => path.text ≠ config.entryModule ∧ ¬ config.libraryMarker.toList <:+: path.chars ∧
      config.routeMarker.toList <:+: path.chars
  | other => path.text ≠ config.entryModule ∧ ¬ config.libraryMarker.toList <:+: path.chars ∧
      ¬ config.routeMarker.toList <:+: path.chars

/-- Every path is in the one group that covers it. -/
theorem ofPath_eq_iff {path : RelPath} {g : LinkPriority} :
    ofPath config path = g ↔ g.Covers config path := by
  cases g <;> simp only [ofPath, Covers, ← containsText_iff] <;> split_ifs <;> simp [*]

end LinkPriority

theorem Record.mem_ofGroup {g : LinkPriority} {r : Record} :
    r ∈ Record.ofGroup config g records ↔ r ∈ records ∧ g.Covers config r.path := by
  rw [ofGroup, List.mem_filter, decide_eq_true_iff, LinkPriority.ofRecord,
    LinkPriority.ofPath_eq_iff]

/-! ## The entry module -/

/-- A record of the entry module stands last, if there is one. -/
theorem exists_getLast?_linkOrder :
    (∃ r, (linkOrder config records).getLast? = some r ∧ r.path.text = config.entryModule) ↔
      ∃ r ∈ records, r.path.text = config.entryModule := by
  constructor
  · rintro ⟨r, hlast, hentry⟩
    exact ⟨r, (linkOrder_perm config records).mem_iff.mp (List.mem_of_getLast? hlast), hentry⟩
  · rintro ⟨r, hr, hentry⟩
    have hmem : r ∈ Record.ofGroup config .entry records := Record.mem_ofGroup.mpr ⟨hr, hentry⟩
    obtain ⟨last, hlast⟩ := Option.isSome_iff_exists.mp
      (List.getLast?_isSome.mpr (List.ne_nil_of_mem hmem))
    have hgroup := Record.mem_ofGroup.mp (List.mem_of_getLast? hlast)
    refine ⟨last, ?_, hgroup.2⟩
    -- the group of the entry module is the last one
    simp only [linkOrder_eq_append, List.getLast?_append, hlast, Option.some_or]

/-- Ordering gives the link order, with a warning if no record is the entry module. -/
theorem orderRecords_eq {ε : Type} (config : Config) (records : List Record) :
    (orderRecords config records : Logged ε _) =
      ⟨.ok (linkOrder config records),
        if ∃ r ∈ records, r.path.text = config.entryModule then []
        else [.entryMissing config.entryModule]⟩ := by
  have hlast : (linkOrder config records).getLast?.any
      (fun r => LinkPriority.ofRecord config r == .entry) = true ↔
        ∃ r ∈ records, r.path.text = config.entryModule := by
    simp only [← exists_getLast?_linkOrder, Option.any_eq_true, beq_iff_eq, LinkPriority.ofRecord,
      LinkPriority.ofPath_eq_iff, LinkPriority.Covers]
  rw [orderRecords]
  simp only [hlast]
  split <;> rfl

/-- Ordering gives the groups one after the other, each in the order of collection: libraries,
routes, all others, and the entry module. So the records are the same, no group comes before an
earlier one, a record of the entry module is last if there is one, ordering again changes nothing,
and there is a warning exactly if no record is the entry module. -/
theorem orderRecords_groups {ε : Type} (config : Config) (records : List Record) :
    ∃ ordered warnings,
      (orderRecords config records : Logged ε _) = ⟨.ok ordered, warnings⟩ ∧
      ordered = Record.ofGroup config .library records ++ (Record.ofGroup config .route records ++
        (Record.ofGroup config .other records ++ Record.ofGroup config .entry records)) ∧
      (∀ g r, r ∈ Record.ofGroup config g records ↔ r ∈ records ∧ g.Covers config r.path) ∧
      ordered.Perm records ∧
      (ordered.Pairwise fun a b => a.rank config ≤ b.rank config) ∧
      ((∃ last, ordered.getLast? = some last ∧ last.path.text = config.entryModule) ↔
        ∃ r ∈ records, r.path.text = config.entryModule) ∧
      (orderRecords config ordered : Logged ε _).result = .ok ordered ∧
      warnings = if ∃ r ∈ records, r.path.text = config.entryModule then []
        else [.entryMissing config.entryModule] := by
  refine ⟨linkOrder config records, _, orderRecords_eq config records, ?_,
    fun _ _ => Record.mem_ofGroup, linkOrder_perm config records, pairwise_linkOrder config records,
    exists_getLast?_linkOrder, ?_, rfl⟩
  · rw [linkOrder_eq_append]
  · rw [orderRecords_eq, linkOrder_linkOrder]

end EdgeBundle
