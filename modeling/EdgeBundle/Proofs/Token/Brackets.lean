import EdgeBundle.Proofs.Token.Cut

/-!
# Nested brackets

Brackets are nested if every closing bracket closes the one that was opened last. Template literals
are counted apart: the lexer reads their parts as tokens of their own, and a substitution of one may
be ended by a part of it only.

## Main definitions

* `awaited`: the closing brackets that tokens leave to come.
* `Nested` and `NestedText`: tokens with nested brackets, and texts that are cut into such.
* `ownTemplates`: template literals that tokens open and leave open, if they go on with no others.

## Main statements

* `awaited_append` and `awaited_frame`: tokens after others, and inside other brackets.
* `Nested.append_iff`: tokens with a nested part.
-/

namespace EdgeBundle

namespace Token

/-- The bracket that closes what the token opens. -/
def closer? (t : Token) : Option String :=
  if t.isPunct "(" then some ")"
  else if t.isPunct "[" then some "]"
  else if t.isPunct "\x7b" then some "\x7d"
  else none

/-- Whether the token is a closing bracket. -/
def isCloser (t : Token) : Bool :=
  t.isPunct ")" || t.isPunct "]" || t.isPunct "\x7d"

/-- Closing brackets that are awaited after the token, the next one first; none if the token closes
something else. -/
def awaitedAfter (t : Token) (stack : List String) : Option (List String) :=
  match t.closer? with
  | some close => some (close :: stack)
  | none =>
    if t.isCloser then
      match stack with
      | [] => none
      | close :: outer => if t.text = close then some outer else none
    else some stack

/-- Open template literals after the token, if it goes on with one of them only. -/
def ownTemplatesAfter (t : Token) (count : Nat) : Option Nat :=
  match t.kind, t.text.toList.head? == some '\x7d', count with
  | .templateHead, false, count => some (count + 1)
  | .templateHead, true, count + 1 => some (count + 1)
  | .template, true, count + 1 => some count
  | .templateHead, true, 0 => none
  | .template, true, 0 => none
  | _, _, count => some count

end Token

namespace Lexer

/-- Closing brackets that are awaited after the tokens, the next one first; none if a bracket closes
something else than the last that was opened. -/
def awaited (stack : List String) (ts : List Token) : Option (List String) :=
  ts.foldlM (fun stack t => t.awaitedAfter stack) stack

/-- Every closing bracket closes the last one that was opened, and all are closed. -/
def Nested (ts : List Token) : Prop :=
  awaited [] ts = some []

instance (ts : List Token) : Decidable (Nested ts) :=
  inferInstanceAs (Decidable (awaited [] ts = some []))

/-- A text that is cut into tokens with nested brackets. -/
def NestedText (text : List Char) : Prop :=
  ∃ ts, tokenize (String.ofList text) = .ok ts ∧ Nested ts

instance (text : List Char) : Decidable (NestedText text) :=
  match h : scan {} (utf8Width (text.take (hashbangLength text)))
      (text.drop (hashbangLength text)) with
  | .ok ts => decidable_of_iff (Nested ts.reverse)
      (by simp [NestedText, tokenize_ofList, h, Except.map])
  | .error _ => isFalse (by simp [NestedText, tokenize_ofList, h, Except.map])

/-- Template literals that are open after the tokens, if they go on with none but those that they
open and `count` others. -/
def ownTemplates (count : Nat) (ts : List Token) : Option Nat :=
  ts.foldlM (fun count t => t.ownTemplatesAfter count) count

/-! ## Tokens after others -/

theorem awaited_cons_eq_some_iff {stack stack' : List String} {t : Token} {ts : List Token} :
    awaited stack (t :: ts) = some stack' ↔
      ∃ mid, t.awaitedAfter stack = some mid ∧ awaited mid ts = some stack' :=
  Option.bind_eq_some_iff

theorem ownTemplates_cons_eq_some_iff {count count' : Nat} {t : Token} {ts : List Token} :
    ownTemplates count (t :: ts) = some count' ↔
      ∃ mid, t.ownTemplatesAfter count = some mid ∧ ownTemplates mid ts = some count' :=
  Option.bind_eq_some_iff

theorem awaited_append (stack : List String) (ts us : List Token) :
    awaited stack (ts ++ us) = (awaited stack ts).bind fun stack => awaited stack us :=
  List.foldlM_append

/-- Inside other brackets a token opens and closes the same ones. -/
theorem awaitedAfter_frame {t : Token} {stack stack' : List String}
    (h : t.awaitedAfter stack = some stack') (outer : List String) :
    t.awaitedAfter (stack ++ outer) = some (stack' ++ outer) := by
  unfold Token.awaitedAfter at h ⊢
  split at h
  next => cases h; rfl
  split at h
  next hcloser =>
    cases stack with
    | nil => cases h
    | cons close stack =>
      simp only at h
      split at h
      next htext =>
        cases h
        simp [hcloser, htext]
      next => cases h
  next hcloser =>
    cases h
    simp [hcloser]

/-- Inside other brackets tokens open and close the same ones. -/
theorem awaited_frame {stack stack' : List String} {ts : List Token}
    (h : awaited stack ts = some stack') (outer : List String) :
    awaited (stack ++ outer) ts = some (stack' ++ outer) := by
  induction ts generalizing stack with
  | nil => cases h; rfl
  | cons t ts ih =>
    obtain ⟨mid, hmid, hrest⟩ := awaited_cons_eq_some_iff.mp h
    exact awaited_cons_eq_some_iff.mpr ⟨_, awaitedAfter_frame hmid outer, ih hrest⟩

/-- A nested part may be left out. -/
theorem Nested.append_iff {earlier mid later : List Token} (hmid : Nested mid) :
    Nested (earlier ++ (mid ++ later)) ↔ Nested (earlier ++ later) := by
  have hframe (stack : List String) : awaited stack mid = some stack := awaited_frame hmid stack
  simp only [Nested, awaited_append, hframe, Option.bind_some]

/-- What does not look at the places of tokens is the same for the same tokens elsewhere. -/
theorem foldlM_congr_of_unplaced {α : Type} {f : α → Token → Option α}
    (hf : ∀ a t, f a t.unplaced = f a t) {ts us : List Token}
    (h : ts.map Token.unplaced = us.map Token.unplaced) (a : α) :
    ts.foldlM f a = us.foldlM f a := by
  have hplaced (ts : List Token) : (ts.map Token.unplaced).foldlM f a = ts.foldlM f a := by
    rw [List.foldlM_map]
    simp only [hf]
  rw [← hplaced ts, h, hplaced]

theorem Nested.congr {ts us : List Token} (h : ts.map Token.unplaced = us.map Token.unplaced) :
    Nested ts ↔ Nested us := by
  rw [Nested, Nested, awaited, foldlM_congr_of_unplaced (fun _ _ => rfl) h, awaited]

theorem ownTemplates_congr {ts us : List Token}
    (h : ts.map Token.unplaced = us.map Token.unplaced) (count : Nat) :
    ownTemplates count ts = ownTemplates count us :=
  foldlM_congr_of_unplaced (fun _ _ => rfl) h count

end Lexer

end EdgeBundle
