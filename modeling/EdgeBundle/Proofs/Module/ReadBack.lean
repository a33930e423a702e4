import EdgeBundle.Proofs.Module.Expression
import EdgeBundle.Proofs.Module.Registry

/-!
# Statements of linked code

Linked code declares constants and assigns objects to the registry. Both are read back here with the
expressions that they take: a name in an object pattern stands for a member of the object, and a
member of an object literal for what it is set to.

## Main definitions

* `Expression.declaration?`, `Expression.assignment?`: what a text declares or assigns.

## Main statements

* `Expression.declaration?_member`, `Expression.declaration?_whole`: constants that are read back.
* `Expression.assignment?_registry`: a member that is registered under a key.
-/

namespace EdgeBundle

open Lexer

namespace Expression

/-- Drops a word. -/
def dropWord? (word : String) : List Token → Option (List Token)
  | t :: ts => if t.isWord word then some ts else none
  | [] => none

/-- Reads a name with its key. A name alone is its own key. -/
def readEntry? : List Token → Option ((String × String) × List Token)
  | k :: ts =>
    match dropPunct? ":" ts with
    | none => some ((k.text, k.text), ts)
    | some (n :: ts) => some ((k.text, n.text), ts)
    | some [] => none
  | [] => none

/-- Reads what a constant is set to, up to the end. -/
def readInitial? (ts : List Token) : Option Expression := do
  let ts ← dropPunct? "=" ts
  let (e, ts) ← read? ts
  if dropPunct? ";" ts = some [] then return e else none

/-- Reads the declaration of a constant. The name in an object pattern stands for the member of
the object with its key. -/
def readDeclaration? (ts : List Token) : Option (String × Expression) := do
  let ts ← dropWord? "const" ts
  match dropPunct? "\x7b" ts with
  | some ts =>
    let ((key, n), ts) ← readEntry? ts
    let ts ← dropPunct? "\x7d" ts
    return (n, .member (← readInitial? ts) key)
  | none =>
    match ts with
    | n :: ts => return (n.text, ← readInitial? ts)
    | [] => none

/-- Reads what a member of an object is set to. A name alone stands for its own value. -/
def readMember? : List Token → Option ((String × Expression) × List Token)
  | n :: ts =>
    match dropPunct? ":" ts with
    | none => some ((n.text, .name n.text), ts)
    | some ts => (read? ts).map fun (e, ts) => ((n.text, e), ts)
  | [] => none

/-- Reads the assignment of an object with one member. -/
def readAssignment? (ts : List Token) : Option (Expression × String × Expression) := do
  let (place, ts) ← readOperand? ts
  let ts ← dropPunct? "=" ts
  let ts ← dropPunct? "\x7b" ts
  let ((n, e), ts) ← readMember? ts
  let ts ← dropPunct? "\x7d" ts
  if dropPunct? ";" ts = some [] then return (place, n, e) else none

/-- The name that a text declares, with its expression. -/
def declaration? (text : String) : Option (String × Expression) :=
  (tokenize text).toOption.bind readDeclaration?

/-- The place that a text assigns an object with one member to, the name of the member, and its
expression. -/
def assignment? (text : String) : Option (Expression × String × Expression) :=
  (tokenize text).toOption.bind readAssignment?

/-! ## Texts of statements -/

section Statements

variable {k d n text pattern : String} {e place : Expression} {offset : Nat} {new new' : List Token}

/-- A text that is no hashbang line has its tokens. -/
theorem tokenize_of_places (h : Places text 0 new) (hhead : text.toList.head? ≠ some '#') :
    tokenize text = .ok new := by
  have hbang : hashbangLength text.toList = 0 := by
    rw [hashbangLength]
    rintro cs hcs
    rw [hcs] at hhead
    exact hhead rfl
  have hscan := @h.scans {} [] [] (by simp [EndsName]) fun _ _ => .done
  rw [List.append_nil, List.append_nil] at hscan
  rwa [tokenize_eq_ok_iff, hbang, List.take_zero, List.drop_zero]

/-- A text that is no hashbang line is the expression that it spells. -/
theorem ofText?_of_spells (h : Spells text e)
    (hhead : text.toList.head? ≠ some '#') : ofText? text = some e := by
  obtain ⟨new, hplaces, hread⟩ := h 0
  have hnone := hread [] (by simp [EndsExpression])
  rw [List.append_nil] at hnone
  rw [ofText?, tokenize_of_places hplaces hhead]
  simp [Except.toOption, hnone]

namespace Places

/-- A name in front of a colon. -/
theorem keyed (hn : IsToken .ident n) (h : Places text (offset + n.utf8ByteSize + 2) new) :
    Places (n ++ ": " ++ text) offset
      (⟨.ident, offset, n⟩ :: ⟨.punct, offset + n.utf8ByteSize, ":"⟩ :: new) := by
  constructor
  intro ctx rest ts hrest hscan
  have hsize : ": ".utf8ByteSize = 2 := rfl
  have htext : (n ++ ": " ++ text).toList ++ rest =
      n.toList ++ ':' :: ' ' :: (text.toList ++ rest) := by
    simp
  simp only [String.utf8ByteSize_append, hsize, ← Nat.add_assoc] at hscan
  rw [htext]
  exact hn.scans_ident (endsName_cons (by decide))
    (scans_mark (by simp) (.blank (h.scans hrest hscan)))

/-- A text in braces. -/
theorem braces (h : Places text (offset + 2) new) :
    Places ("\x7b " ++ text ++ " \x7d") offset (⟨.punct, offset, "\x7b"⟩ ::
      (new ++ [⟨.punct, offset + 2 + text.utf8ByteSize + 1, "\x7d"⟩])) := by
  constructor
  intro ctx rest ts hrest hscan
  have hsize : "\x7b ".utf8ByteSize = 2 ∧ " \x7d".utf8ByteSize = 2 := ⟨rfl, rfl⟩
  have htext : ("\x7b " ++ text ++ " \x7d").toList ++ rest =
      '\x7b' :: ' ' :: (text.toList ++ ' ' :: '\x7d' :: rest) := by
    simp
  simp only [String.utf8ByteSize_append, hsize, ← Nat.add_assoc] at hscan
  rw [htext, List.cons_append, List.append_assoc]
  refine .bracket (by simp) (fun h => absurd h (by decide)) rfl (.blank
    (h.scans (endsName_cons (by decide)) fun ctx' hctx' => .blank ?_))
  -- the brace that is open around the text is closed
  refine .bracket (by simp) (fun _ => ?_) rfl (hscan _ ?_)
  · rw [Context.closesSubstitution, hctx']
    rfl
  · exact congrArg List.tail hctx'

/-- A place that is set to a value. -/
theorem assign (h : Places pattern offset new)
    (h' : Places text (offset + pattern.utf8ByteSize + 3) new') :
    Places (pattern ++ " = " ++ text ++ ";") offset
      (new ++ ⟨.punct, offset + pattern.utf8ByteSize + 1, "="⟩ ::
        (new' ++ [⟨.punct, offset + pattern.utf8ByteSize + 3 + text.utf8ByteSize, ";"⟩])) := by
  constructor
  intro ctx rest ts hrest hscan
  have hsize : " = ".utf8ByteSize = 3 ∧ ";".utf8ByteSize = 1 := ⟨rfl, rfl⟩
  have htext : (pattern ++ " = " ++ text ++ ";").toList ++ rest =
      pattern.toList ++ ' ' :: '=' :: ' ' :: (text.toList ++ ';' :: rest) := by
    simp
  simp only [String.utf8ByteSize_append, hsize, ← Nat.add_assoc] at hscan
  rw [htext, List.append_assoc, List.cons_append, List.append_assoc]
  refine h.scans (endsName_cons (by decide)) fun ctx' hctx' => .blank ?_
  refine .punct (by simp) rfl (.blank (h'.scans (endsName_cons (by decide)) fun ctx'' hctx'' => ?_))
  exact .punct (by simp) rfl (hscan _ (hctx''.trans hctx'))

/-- A keyword in front of a statement. -/
theorem const (h : Places text (offset + 6) new) :
    Places ("const " ++ text) offset (⟨.ident, offset, "const"⟩ :: new) := by
  have hconst : IsToken .ident "const" := by decide +kernel
  constructor
  intro ctx rest ts hrest hscan
  have hsize : "const ".utf8ByteSize = 6 := rfl
  have htext : ("const " ++ text).toList ++ rest =
      "const".toList ++ ' ' :: (text.toList ++ rest) := by
    simp
  rw [String.utf8ByteSize_append, hsize, ← Nat.add_assoc] at hscan
  rw [htext]
  exact hconst.scans_ident (endsName_cons (by decide)) (.blank (h.scans hrest hscan))

/-- A statement on a line of its own. -/
theorem tokenize_line (h : Places text 2 new) : tokenize ("  " ++ text ++ "\n") = .ok new := by
  have htext : ("  " ++ text ++ "\n").toList = ' ' :: ' ' :: (text.toList ++ ['\n']) := by
    simp
  have hscan := @h.scans {} ['\n'] [] (endsName_cons (by decide)) fun _ _ => .gap (.blank rfl) .done
  rw [List.append_nil] at hscan
  rw [tokenize_eq_ok_iff, htext]
  exact .blank (.blank hscan)

end Places

/-! ## Reading statements -/

theorem constText_eq (pattern text : String) :
    LinkedModule.constText pattern text = "const " ++ (pattern ++ " = " ++ text ++ ";") := by
  apply String.toList_injective
  simp [LinkedModule.constText]

theorem registryAssignment_eq (key text : String) :
    LinkedModule.registryAssignment (quoted key) text =
      "  " ++ ("__MODS__" ++ ("[" ++ quoted key ++ "]") ++ " = " ++ ("\x7b " ++ text ++ " \x7d") ++
        ";") ++ "\n" := by
  apply String.toList_injective
  simp [LinkedModule.registryAssignment, LinkedModule.registryRead]

theorem readInitial?_of_read {start stop : Nat}
    (hread : ∀ ts, EndsExpression ts → read? (new ++ ts) = some (e, ts)) :
    readInitial? (⟨.punct, start, "="⟩ :: (new ++ [⟨.punct, stop, ";"⟩])) = some e := by
  have hnone := hread [⟨.punct, stop, ";"⟩] (endsExpression_cons (by decide) _ _)
  rw [readInitial?, dropPunct?_cons rfl]
  simp only [Option.bind_eq_bind, Option.bind_some, hnone]
  rfl

/-- A name, perhaps with its key, is read as both. -/
theorem exists_readEntry? (hk : IsToken .ident k) (hd : IsToken .ident d) (offset : Nat) :
    ∃ new, Places (LinkedModule.pairText k d) offset new ∧
      ∀ start ts, readEntry? (new ++ ⟨.punct, start, "\x7d"⟩ :: ts) =
        some ((k, d), ⟨.punct, start, "\x7d"⟩ :: ts) := by
  rw [LinkedModule.pairText]
  split
  next hsame =>
    subst hsame
    exact ⟨_, .name hk, fun _ _ => rfl⟩
  next => exact ⟨_, .keyed hk (.name hd), fun _ _ => rfl⟩

/-- A name, perhaps with an expression that it is set to, is read as both. -/
theorem exists_readMember? (hd : IsToken .ident d) (h : Spells text e) (offset : Nat) :
    ∃ new, Places (LinkedModule.pairText d text) offset new ∧
      ∀ start ts, readMember? (new ++ ⟨.punct, start, "\x7d"⟩ :: ts) =
        some ((d, e), ⟨.punct, start, "\x7d"⟩ :: ts) := by
  rw [LinkedModule.pairText]
  split
  -- the text is the name, so the expression is too
  next hsame =>
    subst hsame
    obtain rfl := h.unique (SpellsOperand.name hd).spells
    exact ⟨_, .name hd, fun _ _ => rfl⟩
  next =>
    obtain ⟨new, hplaces, hread⟩ := h (offset + d.utf8ByteSize + 2)
    refine ⟨_, .keyed hd hplaces, fun start ts => ?_⟩
    simp only [List.cons_append, readMember?]
    rw [dropPunct?_cons rfl]
    dsimp only
    rw [hread _ (endsExpression_cons (by decide) _ _)]
    rfl

/-- A constant that takes a member of an object. -/
theorem declaration?_member (hk : IsToken .ident k) (hd : IsToken .ident d) (h : Spells text e) :
    declaration? (LinkedModule.constText ("\x7b " ++ LinkedModule.pairText k d ++ " \x7d") text) =
      some (d, .member e k) := by
  obtain ⟨entry, hentry, hreadEntry⟩ := exists_readEntry? hk hd (0 + 6 + 2)
  obtain ⟨new, hplaces, hread⟩ :=
    h (0 + 6 + ("\x7b " ++ LinkedModule.pairText k d ++ " \x7d").utf8ByteSize + 3)
  have hinitial (start stop : Nat) := @readInitial?_of_read e new start stop hread
  rw [declaration?, constText_eq, tokenize_of_places (hentry.braces.assign hplaces).const (by simp)]
  simp [Except.toOption, readDeclaration?, dropWord?, dropPunct?, Token.isWord, Token.isPunct,
    hreadEntry, hinitial]

/-- A constant that takes a value. -/
theorem declaration?_whole (hd : IsToken .ident d) (h : Spells text e) :
    declaration? (LinkedModule.constText d text) = some (d, e) := by
  obtain ⟨new, hplaces, hread⟩ := h (0 + 6 + d.utf8ByteSize + 3)
  have hinitial (start stop : Nat) := @readInitial?_of_read e new start stop hread
  have htokens := tokenize_of_places ((Places.name hd).assign hplaces).const (by simp)
  rw [declaration?, constText_eq, htokens]
  simp [Except.toOption, readDeclaration?, dropWord?, dropPunct?, Token.isWord, Token.isPunct,
    hinitial]

/-- A member that is registered under a key. -/
theorem assignment?_registry (hd : IsToken .ident d) (h : Spells text e) (key : String) :
    assignment? (LinkedModule.registryAssignment (quoted key) (LinkedModule.pairText d text)) =
      some (.member (.name "__MODS__") key, d, e) := by
  have hregistry : IsToken .ident "__MODS__" := by decide +kernel
  obtain ⟨place, hplace, hreadPlace⟩ := (SpellsOperand.name hregistry).entry key 2
  obtain ⟨new, hplaces, hreadMember⟩ := exists_readMember? hd h
    (2 + ("__MODS__" ++ ("[" ++ quoted key ++ "]")).utf8ByteSize + 3 + 2)
  have hends (start : Nat) (ts : List Token) :
      readMembers (.member (.name "__MODS__") key) (⟨.punct, start, "="⟩ :: ts) =
        (.member (.name "__MODS__") key, ⟨.punct, start, "="⟩ :: ts) :=
    (endsExpression_cons (by decide) _ _).readMembers_eq
  rw [assignment?, registryAssignment_eq, (hplace.assign hplaces.braces).tokenize_line]
  simp [Except.toOption, readAssignment?, dropPunct?, Token.isPunct, hreadPlace, hends, hreadMember]

end Statements

end Expression

end EdgeBundle
