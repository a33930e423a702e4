import EdgeBundle.Logged
import Mathlib.Data.List.Forall2

/-!
# Results of computations with warnings

A computation of several steps has a value exactly if every step has one.

## Main definitions

* `Logged.Collects`: ways to collect the values of computations.

## Main statements

* `Except.bind_eq_ok_iff`, `result_bind_eq_ok_iff`: two steps.
* `result_mapM_eq_ok_iff`: a step for every item of a list.
* `collects_collect`: collecting values one after the other is a way to collect them.
-/

namespace EdgeBundle

variable {ε α β γ : Type}

theorem exists_eq_ok_of_toBool {x : Except ε α} (h : x.toBool = true) : ∃ a, x = .ok a := by
  cases x with
  | error e => cases h
  | ok a => exact ⟨a, rfl⟩

theorem exists_eq_ok_of_map {x : Except ε α} {f : α → β} {b : β} (h : x.toOption.map f = some b) :
    ∃ a, x = .ok a ∧ f a = b := by
  cases x with
  | error e => cases h
  | ok a => exact ⟨a, rfl, Option.some.inj h⟩

/-- Every element corresponds to one of the other list. -/
theorem exists_mem_of_forall₂ {R : α → β → Prop} {as : List α} {bs : List β}
    (h : List.Forall₂ R as bs) {a : α} (ha : a ∈ as) : ∃ b ∈ bs, R a b := by
  induction h with
  | nil => cases ha
  | cons hR _ ih =>
    rcases List.mem_cons.mp ha with rfl | ha
    · exact ⟨_, List.mem_cons_self, hR⟩
    · obtain ⟨b, hb, hR'⟩ := ih ha
      exact ⟨b, List.mem_cons_of_mem _ hb, hR'⟩

/-- Two steps in a row have a value exactly if each has one. -/
theorem Except.bind_eq_ok_iff {ε α β : Type} {x : Except ε α} {f : α → Except ε β} {b : β} :
    (x >>= f) = .ok b ↔ ∃ a, x = .ok a ∧ f a = .ok b := by
  cases x with
  | error e => exact iff_of_false nofun nofun
  | ok a => exact ⟨fun h => ⟨a, rfl, h⟩, fun ⟨_, ha, h⟩ => Except.ok.inj ha ▸ h⟩

/-- Where every step has a value, so have all of them in a row. -/
theorem Except.mapM_eq_ok {ε α β : Type} {f : α → Except ε β} {g : α → β} {xs : List α}
    (h : ∀ x ∈ xs, f x = .ok (g x)) : xs.mapM f = .ok (xs.map g) := by
  induction xs with
  | nil => rfl
  | cons x xs ih =>
    obtain ⟨hx, hxs⟩ := List.forall_mem_cons.mp h
    rw [List.mapM_cons, hx, ih hxs]
    rfl

/-- Steps in a row have values only where each of them has one. -/
theorem Except.exists_eq_ok_of_mapM {ε α β : Type} {f : α → Except ε β} {xs : List α}
    {ys : List β} (h : xs.mapM f = .ok ys) {x : α} (hx : x ∈ xs) : ∃ y, f x = .ok y := by
  induction xs generalizing ys with
  | nil => cases hx
  | cons x' xs ih =>
    rw [List.mapM_cons] at h
    obtain ⟨y, hy, hlater⟩ := Except.bind_eq_ok_iff.mp h
    obtain ⟨ys', hys', -⟩ := Except.bind_eq_ok_iff.mp hlater
    rcases List.mem_cons.mp hx with rfl | hx
    · exact ⟨y, hy⟩
    · exact ih hys' hx

namespace Logged

@[simp]
theorem result_pure (a : α) : (pure a : Logged ε α).result = .ok a := rfl

@[simp]
theorem result_throw (e : ε) : (throw e : Logged ε α).result = .error e := rfl

@[simp]
theorem result_ofExcept (r : Except ε α) : (ofExcept r).result = r := rfl

@[simp]
theorem result_warn (w : Warning) : (warn w : Logged ε Unit).result = .ok () := rfl

@[simp]
theorem result_bind_eq_ok_iff {x : Logged ε α} {f : α → Logged ε β} {b : β} :
    (x >>= f).result = .ok b ↔ ∃ a, x.result = .ok a ∧ (f a).result = .ok b := by
  change (Logged.bind x f).result = .ok b ↔ _
  cases hx : x.result with
  | error e => simp [Logged.bind, hx]
  | ok a => simp [Logged.bind, hx]

theorem result_bind_eq_ok {x : Logged ε α} {f : α → Logged ε β} {a : α} {b : β}
    (hx : x.result = .ok a) (hf : (f a).result = .ok b) : (x >>= f).result = .ok b :=
  result_bind_eq_ok_iff.mpr ⟨a, hx, hf⟩

theorem result_bind_of_ok {x : Logged ε α} {a : α} (h : x.result = .ok a) (f : α → Logged ε β) :
    (x >>= f).result = (f a).result := by
  change (Logged.bind x f).result = (f a).result
  rw [Logged.bind, h]

theorem result_bind_of_error {x : Logged ε α} {e : ε} (h : x.result = .error e)
    (f : α → Logged ε β) : (x >>= f).result = .error e := by
  change (Logged.bind x f).result = .error e
  rw [Logged.bind, h]

private theorem id_map_eq (x : Logged ε α) : id <$> x = x := by
  change Logged.bind x (fun a => Logged.pure (id a)) = x
  obtain ⟨result, warnings⟩ := x
  cases result <;> simp [Logged.bind, Logged.pure]

private theorem pure_bind_eq (a : α) (f : α → Logged ε β) : (pure a >>= f) = f a := by
  change Logged.bind (Logged.pure a) f = f a
  simp [Logged.bind, Logged.pure]

private theorem bind_assoc_eq (x : Logged ε α) (f : α → Logged ε β) (g : β → Logged ε γ) :
    x >>= f >>= g = x >>= fun a => f a >>= g := by
  change Logged.bind (Logged.bind x f) g = Logged.bind x fun a => Logged.bind (f a) g
  obtain ⟨result, warnings⟩ := x
  cases result with
  | error e => rfl
  | ok a =>
    simp only [Logged.bind]
    split <;> simp_all

instance : LawfulMonad (Logged ε) :=
  LawfulMonad.mk' _ id_map_eq pure_bind_eq bind_assoc_eq

/-- A step for every item of a list has values exactly if each step has one. -/
theorem result_mapM_eq_ok_iff {f : α → Logged ε β} {xs : List α} {ys : List β} :
    (xs.mapM f).result = .ok ys ↔ List.Forall₂ (fun x y => (f x).result = .ok y) xs ys := by
  induction xs generalizing ys with
  | nil => simp [eq_comm]
  | cons x xs ih =>
    rw [List.mapM_cons, result_bind_eq_ok_iff]
    constructor
    · rintro ⟨y, hy, hrest⟩
      obtain ⟨ys', hys, hcons⟩ := result_bind_eq_ok_iff.mp hrest
      cases hcons
      exact .cons hy (ih.mp hys)
    · rintro (_ | ⟨hy, hys⟩)
      exact ⟨_, hy, result_bind_eq_ok_iff.mpr ⟨_, ih.mpr hys, rfl⟩⟩

/-- If every step has a value, then so have all of them in a row. -/
theorem exists_result_mapM_eq_ok {f : α → Logged ε β} {xs : List α}
    (h : ∀ x ∈ xs, ∃ y, (f x).result = .ok y) : ∃ ys, (xs.mapM f).result = .ok ys := by
  simp only [result_mapM_eq_ok_iff]
  induction xs with
  | nil => exact ⟨[], .nil⟩
  | cons x xs ih =>
    rw [List.forall_mem_cons] at h
    obtain ⟨y, hy⟩ := h.1
    obtain ⟨ys, hys⟩ := ih h.2
    exact ⟨y :: ys, .cons hy hys⟩

/-! ## Collecting values -/

/-- Collecting gives the values of all computations, in order, or the error of one of them. Where
several fail, any of their errors may be the one. -/
structure Collects (collect : List (Logged ε α) → Logged ε (List α)) : Prop where
  /-- If every computation has a value, these are collected. -/
  result_of_ok : ∀ {items values}, List.Forall₂ (fun x a => x.result = .ok a) items values →
    (collect items).result = .ok values
  /-- If a computation fails, one that fails gives its error. -/
  result_of_error : ∀ {items} {x : Logged ε α} {e}, x ∈ items → x.result = .error e →
    ∃ y ∈ items, ∃ e', y.result = .error e' ∧ (collect items).result = .error e'

theorem forall₂_or_exists_error (items : List (Logged ε α)) :
    (∃ values, List.Forall₂ (fun x a => x.result = .ok a) items values) ∨
      ∃ x ∈ items, ∃ e, x.result = .error e := by
  induction items with
  | nil => exact .inl ⟨[], .nil⟩
  | cons x xs ih =>
    cases hx : x.result with
    | error e => exact .inr ⟨x, List.mem_cons_self, e, hx⟩
    | ok a =>
      rcases ih with ⟨values, hvalues⟩ | ⟨y, hy, e, he⟩
      · exact .inl ⟨a :: values, .cons hx hvalues⟩
      · exact .inr ⟨y, List.mem_cons_of_mem x hy, e, he⟩

/-- Values are collected exactly if every computation has one. -/
theorem Collects.result_eq_ok_iff {collect : List (Logged ε α) → Logged ε (List α)}
    (h : Collects collect) {items : List (Logged ε α)} {values : List α} :
    (collect items).result = .ok values ↔
      List.Forall₂ (fun x a => x.result = .ok a) items values := by
  refine ⟨fun hresult => ?_, h.result_of_ok⟩
  rcases forall₂_or_exists_error items with ⟨values', hvalues⟩ | ⟨x, hx, e, he⟩
  · rw [h.result_of_ok hvalues] at hresult
    exact Except.ok.inj hresult ▸ hvalues
  · obtain ⟨_, -, _, -, herror⟩ := h.result_of_error hx he
    rw [herror] at hresult
    cases hresult

theorem collect_map (f : α → Logged ε β) (xs : List α) : collect (xs.map f) = xs.mapM f := by
  rw [collect, List.mapM_map]
  rfl

theorem collects_collect : Collects (collect : List (Logged ε α) → _) where
  result_of_ok h := result_mapM_eq_ok_iff.mpr h
  result_of_error {items x e} hx he := by
    induction items with
    | nil => cases hx
    | cons y ys ih =>
      rw [collect, List.mapM_cons, id_eq]
      cases hy : y.result with
      | error e' => exact ⟨y, List.mem_cons_self, e', hy, result_bind_of_error hy _⟩
      | ok a =>
        have hmem : x ∈ ys := by
          refine (List.mem_cons.mp hx).resolve_left ?_
          rintro rfl
          rw [hy] at he
          cases he
        obtain ⟨z, hz, e', he', hrest⟩ := ih hmem
        refine ⟨z, List.mem_cons_of_mem y hz, e', he', ?_⟩
        rw [result_bind_of_ok hy]
        exact result_bind_of_error hrest _

end Logged

end EdgeBundle
