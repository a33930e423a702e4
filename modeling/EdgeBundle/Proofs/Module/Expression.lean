import EdgeBundle.Module.Linked
import EdgeBundle.Proofs.Token.Str

/-!
# Expressions of linked code

What takes the place of an import or a re-export reads names, members of objects, and a fallback
for a module that is not registered. Such code is read back here as an expression, token by token.
An expression has a value in every state of the bundle that runs it.

## Main definitions

* `Expression`: expressions of linked code, and `Expression.value`: their values in a `Runtime`.
* `Expression.read?`: reads an expression from tokens.
* `Expression.Spells`: a text that is read as an expression, wherever it stands.

## Main statements

* `Expression.Spells.unique`: a text spells one expression.
* `Expression.Spells.orElse`, `Expression.Spells.member_orElse`: texts with a fallback.
-/

namespace EdgeBundle

open Lexer

/-- An expression of linked code. -/
inductive Expression where
  /-- A name. -/
  | name (n : String)
  /-- An object without members. -/
  | emptyObject
  /-- A member of an object, by a name or by a string. -/
  | member (object : Expression) (key : String)
  /-- A value, or another one if it is none. -/
  | orElse (value fallback : Expression)
  deriving DecidableEq, Repr

/-- What names stand for while the bundle runs, and how members are read. -/
structure Runtime (Value : Type) where
  /-- Value of a name. The registry is the value of one name. -/
  name : String → Value
  /-- An object without members of its own. -/
  emptyObject : Value
  /-- A member of a value. -/
  get : Value → String → Value
  /-- Whether a value keeps a fallback from being taken. -/
  isTruthy : Value → Bool

/-- The value of a missing member. -/
def Runtime.undefined {Value : Type} (rt : Runtime Value) : Value :=
  rt.name "undefined"

namespace Expression

/-- Value of an expression. -/
def value {Value : Type} (rt : Runtime Value) : Expression → Value
  | name n => rt.name n
  | emptyObject => rt.emptyObject
  | member object key => rt.get (object.value rt) key
  | orElse value fallback =>
    if rt.isTruthy (value.value rt) then value.value rt else fallback.value rt

/-! ## Reading -/

/-- Text of a quoted string. -/
def stringValue? (t : Token) : Option String :=
  match t.kind, Json.parse? t.text with
  | .str, some (.string s) => some s
  | _, _ => none

/-- Drops a punctuator. -/
def dropPunct? (p : String) : List Token → Option (List Token)
  | t :: ts => if t.isPunct p then some ts else none
  | [] => none

/-- Reads accesses to members, by `.name` or by a string in brackets. -/
def readMembers (object : Expression) : List Token → Expression × List Token
  | d :: k :: ts =>
    if d.isPunct "." && k.kind == .ident then readMembers (.member object k.text) ts
    else
      match stringValue? k, ts with
      | some key, c :: rest =>
        if d.isPunct "[" && c.isPunct "]" then readMembers (.member object key) rest
        else (object, d :: k :: c :: rest)
      | _, _ => (object, d :: k :: ts)
  | ts => (object, ts)

/-- Reads a name or an object without members, with accesses to members. -/
def readOperand? : List Token → Option (Expression × List Token)
  | t :: ts =>
    if t.kind = .ident then some (readMembers (.name t.text) ts)
    else if t.isPunct "\x7b" then (dropPunct? "\x7d" ts).map (readMembers .emptyObject)
    else none
  | [] => none

/-- Reads an operand, perhaps with a fallback. -/
def readChoice? (ts : List Token) : Option (Expression × List Token) := do
  let (e, rest) ← readOperand? ts
  match dropPunct? "||" rest with
  | none => return (e, rest)
  | some rest =>
    let (fallback, rest) ← readOperand? rest
    return (.orElse e fallback, rest)

/-- Reads an expression, perhaps in parentheses that are followed by accesses to members. -/
def read? (ts : List Token) : Option (Expression × List Token) :=
  match dropPunct? "(" ts with
  | none => readChoice? ts
  | some inner => do
    let (e, rest) ← readChoice? inner
    let rest ← dropPunct? ")" rest
    return readMembers e rest

/-- The expression that a text is, if it is one. -/
def ofText? (text : String) : Option Expression := do
  let ts ← (tokenize text).toOption
  let (e, rest) ← read? ts
  if rest.isEmpty then return e else none

/-! ## Accesses and operands -/

section Reading

variable {e object fallback : Expression} {t : Token} {ts rest : List Token} {p : String}

theorem dropPunct?_cons (h : t.isPunct p = true) : dropPunct? p (t :: ts) = some ts := by
  rw [dropPunct?, if_pos h]

theorem dropPunct?_eq_none (h : ∀ t ∈ ts.head?, t.isPunct p = false) : dropPunct? p ts = none := by
  cases ts with
  | nil => rfl
  | cons t ts => rw [dropPunct?, if_neg (by simp [h t rfl])]

theorem stringValue?_quoted (start : Nat) (key : String) :
    stringValue? ⟨.str, start, quoted key⟩ = some key := by
  simp [stringValue?, Json.parse?_quoted]

theorem readMembers_name {d k : Token} (hd : d.isPunct "." = true) (hk : k.kind = .ident) :
    readMembers object (d :: k :: ts) = readMembers (.member object k.text) ts := by
  rw [readMembers.eq_def]
  simp [hd, hk]

theorem readMembers_entry {d c : Token} (hd : d.isPunct "[" = true) (hc : c.isPunct "]" = true)
    (start : Nat) (key : String) :
    readMembers object (d :: ⟨.str, start, quoted key⟩ :: c :: ts) =
      readMembers (.member object key) ts := by
  have hdot : d.isPunct "." = false := Token.isPunct_eq_false_of_ne hd (by decide)
  rw [readMembers.eq_def]
  simp [hdot, hd, hc, stringValue?_quoted]

/-- Tokens that go on neither with an access to a member nor with a fallback. -/
def EndsExpression (ts : List Token) : Prop :=
  ∀ t ∈ ts.head?, ∀ p ∈ [".", "[", "||"], t.isPunct p = false

theorem endsExpression_cons (hp : p ∉ [".", "[", "||"]) (start : Nat) (ts : List Token) :
    EndsExpression (⟨.punct, start, p⟩ :: ts) := by
  intro t ht p' hp'
  cases ht
  refine Bool.eq_false_iff.mpr fun h => hp ?_
  obtain rfl : p = p' := (Token.isPunct_iff.mp h).2
  exact hp'

theorem readMembers_of_not_access (hdot : ∀ t ∈ ts.head?, t.isPunct "." = false)
    (hsquare : ∀ t ∈ ts.head?, t.isPunct "[" = false) : readMembers object ts = (object, ts) := by
  rw [readMembers.eq_def]
  split
  next d k ts =>
    simp only [hdot d rfl, hsquare d rfl, Bool.false_and, Bool.false_eq_true, if_false]
    split <;> rfl
  next => rfl

theorem EndsExpression.readMembers_eq (h : EndsExpression ts) :
    readMembers object ts = (object, ts) :=
  readMembers_of_not_access (fun t ht => h t ht "." (by simp)) fun t ht => h t ht "[" (by simp)

theorem EndsExpression.dropPunct?_either (h : EndsExpression ts) : dropPunct? "||" ts = none :=
  dropPunct?_eq_none fun t ht => h t ht "||" (by simp)

/-- What is read as a choice starts with no parenthesis. -/
theorem read?_of_readChoice? {r : Expression × List Token} (h : readChoice? ts = some r) :
    read? ts = some r := by
  cases ts with
  | nil => cases h
  | cons t ts =>
    have hparen : t.isPunct "(" = false := by
      refine Bool.eq_false_iff.mpr fun hparen => ?_
      obtain ⟨hkind, htext⟩ := Token.isPunct_iff.mp hparen
      simp [readChoice?, readOperand?, Token.isPunct, hkind, htext] at h
    rw [read?, dropPunct?_eq_none (by simpa using hparen)]
    exact h

end Reading

/-! ## Texts of operands -/

/-- The tokens of the text from byte `offset` on, wherever it stands before text that ends a name.
No brace is left open. -/
structure Places (text : String) (offset : Nat) (new : List Token) : Prop where
  /-- The tokens come before those of the rest. -/
  scans : ∀ {ctx : Context} {rest : List Char} {ts : List Token}, EndsName rest →
    (∀ ctx', ctx'.braces = ctx.braces → Scans ctx' (offset + text.utf8ByteSize) rest ts) →
    Scans ctx offset (text.toList ++ rest) (new ++ ts)

namespace Places

variable {text text' n : String} {offset : Nat} {new new' : List Token}

/-- Tokens of a text and of another one that starts with what ends a name. -/
theorem append {d : Char} {cs : List Char} (h : Places text offset new)
    (h' : Places text' (offset + text.utf8ByteSize) new') (htext : text'.toList = d :: cs)
    (hd : isIdentPart d = false) : Places (text ++ text') offset (new ++ new') := by
  constructor
  intro ctx rest ts hrest hscan
  rw [String.toList_append, List.append_assoc, List.append_assoc]
  refine h.scans ?_ fun ctx' hctx' => h'.scans hrest fun ctx'' hctx'' => ?_
  · rw [htext]
    exact endsName_cons hd
  · rw [Nat.add_assoc, ← String.utf8ByteSize_append]
    exact hscan ctx'' (hctx''.trans hctx')

theorem name (h : IsToken .ident n) : Places n offset [⟨.ident, offset, n⟩] :=
  ⟨fun hrest hscan => h.scans_ident hrest (hscan _ rfl)⟩

theorem emptyObject :
    Places "\x7b\x7d" offset [⟨.punct, offset, "\x7b"⟩, ⟨.punct, offset + 1, "\x7d"⟩] := by
  constructor
  intro ctx rest ts hrest hscan
  have htext : "\x7b\x7d".toList = ['\x7b', '\x7d'] := rfl
  rw [htext]
  exact .bracket (by simp) (fun h => absurd h (by decide)) rfl
    (.bracket (by simp) (fun _ => rfl) rfl (hscan _ rfl))

/-- A point before a name starts no number. -/
theorem point (h : IsToken .ident n) :
    Places ("." ++ n) offset [⟨.punct, offset, "."⟩, ⟨.ident, offset + 1, n⟩] := by
  constructor
  intro ctx rest ts hrest hscan
  have hsize : ".".utf8ByteSize = 1 := rfl
  rw [String.utf8ByteSize_append, hsize, ← Nat.add_assoc] at hscan
  have hname := h.scans_ident hrest
    (hscan ((ctx.push ⟨.punct, offset, "."⟩).push ⟨.ident, offset + 1, n⟩) rfl)
  -- A point is a mark of its own only before what is neither a point nor a digit.
  obtain ⟨c, cs, htext, hc, -⟩ := h.exists_cons_of_ident
  have hpoint : c ≠ '.' := by
    rintro rfl
    revert hc
    decide
  have hdigit : c.isDigit = false := by
    rcases hc with rfl | hc
    · decide
    · refine Bool.eq_false_iff.mpr fun hdigit => ?_
      rw [isIdentStart_eq_false_of_isDigit hdigit] at hc
      cases hc
  have hlong : longPunct? ('.' :: c :: (cs ++ rest)) = none := by
    simp [longPunct?, longPuncts, List.isPrefixOf, Ne.symm hpoint]
  have htext' : ("." ++ n).toList ++ rest = '.' :: c :: (cs ++ rest) := by
    simp [htext]
  have hstarts : StartsPunct ctx '.' (c :: (cs ++ rest)) := by
    constructor <;> simp [isBlank, isIdentStart, hdigit]
  rw [htext, List.cons_append] at hname
  rw [htext']
  exact .mark hstarts hlong rfl hname

/-- A square bracket or a colon. -/
theorem scans_mark {ctx : Context} {c : Char} {cs : List Char} {ts : List Token}
    (hc : c ∈ ['[', ']', ':'])
    (hscan : Scans (ctx.push ⟨.punct, offset, String.singleton c⟩) (offset + 1) cs ts) :
    Scans ctx offset (c :: cs) (⟨.punct, offset, String.singleton c⟩ :: ts) := by
  simp only [List.mem_cons, List.not_mem_nil, or_false] at hc
  rcases hc with rfl | rfl | rfl <;> refine .mark ?_ rfl rfl hscan <;> constructor <;>
    simp [isBlank, isIdentStart]

/-- A string in brackets. -/
theorem entry (key : String) :
    Places ("[" ++ quoted key ++ "]") offset [⟨.punct, offset, "["⟩,
      ⟨.str, offset + 1, quoted key⟩, ⟨.punct, offset + 1 + (quoted key).utf8ByteSize, "]"⟩] := by
  constructor
  intro ctx rest ts hrest hscan
  have hsize : "[".utf8ByteSize = 1 ∧ "]".utf8ByteSize = 1 := ⟨rfl, rfl⟩
  have htext : ("[" ++ quoted key ++ "]").toList ++ rest =
      '[' :: ((quoted key).toList ++ ']' :: rest) := by
    simp
  simp only [String.utf8ByteSize_append, hsize, ← Nat.add_assoc] at hscan
  rw [htext]
  exact scans_mark (by simp) ((isToken_quoted key).scans (by simp) (endsWord_cons (by decide))
    (scans_mark (by simp) (hscan _ rfl)))

/-- A sign of two characters between blanks. -/
theorem scans_sign {ctx : Context} {c d : Char} {cs : List Char} {ts : List Token}
    (hsign : (c, d) ∈ [('|', '|'), ('=', '>')])
    (hscan : Scans (ctx.push ⟨.punct, offset + 1, String.ofList [c, d]⟩) (offset + 4) cs ts) :
    Scans ctx offset (' ' :: c :: d :: ' ' :: cs)
      (⟨.punct, offset + 1, String.ofList [c, d]⟩ :: ts) := by
  simp only [List.mem_cons, Prod.mk.injEq, List.not_mem_nil, or_false] at hsign
  rcases hsign with ⟨rfl, rfl⟩ | ⟨rfl, rfl⟩ <;>
    refine .blank (.token (.punct ?_) rfl (.blank hscan)) <;> constructor <;>
    simp [isBlank, isIdentStart]

/-- The sign between a value and its fallback. -/
theorem either (h : Places text (offset + 4) new) :
    Places (" || " ++ text) offset (⟨.punct, offset + 1, "||"⟩ :: new) := by
  constructor
  intro ctx rest ts hrest hscan
  have hsize : " || ".utf8ByteSize = 4 := rfl
  have htext : (" || " ++ text).toList ++ rest =
      ' ' :: '|' :: '|' :: ' ' :: (text.toList ++ rest) := by
    simp
  rw [String.utf8ByteSize_append, hsize, ← Nat.add_assoc] at hscan
  rw [htext]
  exact scans_sign (by simp) (h.scans hrest hscan)

/-- A text in parentheses. -/
theorem parens (h : Places text (offset + 1) new) :
    Places ("(" ++ text ++ ")") offset (⟨.punct, offset, "("⟩ ::
      (new ++ [⟨.punct, offset + 1 + text.utf8ByteSize, ")"⟩])) := by
  constructor
  intro ctx rest ts hrest hscan
  have hsize : "(".utf8ByteSize = 1 ∧ ")".utf8ByteSize = 1 := ⟨rfl, rfl⟩
  have htext : ("(" ++ text ++ ")").toList ++ rest = '(' :: (text.toList ++ ')' :: rest) := by
    simp
  simp only [String.utf8ByteSize_append, hsize, ← Nat.add_assoc] at hscan
  rw [htext, List.cons_append, List.append_assoc]
  refine .bracket (by simp) (fun h => absurd h (by decide)) rfl
    (h.scans (endsName_cons (by decide)) fun ctx' hctx' => ?_)
  exact .bracket (by simp) (fun h => absurd h (by decide)) rfl (hscan _ hctx')

end Places

/-- The text is read as the expression, and accesses to members after it are read with it. -/
def SpellsOperand (text : String) (e : Expression) : Prop :=
  ∀ offset, ∃ new, Places text offset new ∧
    ∀ ts, readOperand? (new ++ ts) = some (readMembers e ts)

namespace SpellsOperand

variable {text n : String} {e : Expression}

theorem name (h : IsToken .ident n) : SpellsOperand n (.name n) :=
  fun _ => ⟨_, .name h, fun _ => rfl⟩

theorem emptyObject : SpellsOperand "\x7b\x7d" .emptyObject :=
  fun _ => ⟨_, .emptyObject, fun _ => rfl⟩

theorem member (h : SpellsOperand text e) (hn : IsToken .ident n) :
    SpellsOperand (text ++ ("." ++ n)) (.member e n) := by
  intro offset
  obtain ⟨new, hplaces, hread⟩ := h offset
  refine ⟨_, hplaces.append (.point hn) String.toList_append (by decide), fun ts => ?_⟩
  rw [List.append_assoc, hread]
  exact congrArg some (readMembers_name rfl rfl)

theorem entry (h : SpellsOperand text e) (key : String) :
    SpellsOperand (text ++ ("[" ++ quoted key ++ "]")) (.member e key) := by
  intro offset
  obtain ⟨new, hplaces, hread⟩ := h offset
  have htext : ("[" ++ quoted key ++ "]").toList = '[' :: ((quoted key).toList ++ [']']) := by
    simp
  refine ⟨_, hplaces.append (.entry key) htext (by decide), fun ts => ?_⟩
  rw [List.append_assoc, hread]
  exact congrArg some (readMembers_entry rfl rfl _ key)

end SpellsOperand

/-! ## Texts of expressions -/

/-- The reader reads the text as the expression, before tokens that end it. -/
def SpellsFor (read : List Token → Option (Expression × List Token)) (text : String)
    (e : Expression) : Prop :=
  ∀ offset, ∃ new, Places text offset new ∧
    ∀ ts, EndsExpression ts → read (new ++ ts) = some (e, ts)

/-- The text is read as the expression. -/
def Spells (text : String) (e : Expression) : Prop :=
  SpellsFor read? text e

section Texts

variable {text text' n : String} {e fallback : Expression}

/-- An operand without a fallback. -/
theorem SpellsOperand.choice (h : SpellsOperand text e) : SpellsFor readChoice? text e := by
  intro offset
  obtain ⟨new, hplaces, hread⟩ := h offset
  refine ⟨new, hplaces, fun ts hends => ?_⟩
  simp [readChoice?, hread, hends.readMembers_eq, hends.dropPunct?_either]

/-- An operand with a fallback. -/
theorem SpellsOperand.orElse (h : SpellsOperand text e) (h' : SpellsOperand text' fallback) :
    SpellsFor readChoice? (text ++ (" || " ++ text')) (.orElse e fallback) := by
  intro offset
  obtain ⟨new, hplaces, hread⟩ := h offset
  obtain ⟨new', hplaces', hread'⟩ := h' (offset + text.utf8ByteSize + 4)
  refine ⟨_, hplaces.append hplaces'.either String.toList_append (by decide), fun ts hends => ?_⟩
  -- The sign is no access to a member, so the value ends before it.
  have hmembers : readMembers e (⟨.punct, offset + text.utf8ByteSize + 1, "||"⟩ :: (new' ++ ts)) =
      (e, ⟨.punct, offset + text.utf8ByteSize + 1, "||"⟩ :: (new' ++ ts)) :=
    readMembers_of_not_access (by simp [Token.isPunct]) (by simp [Token.isPunct])
  rw [List.append_assoc, List.cons_append, readChoice?, hread, hmembers]
  simp [dropPunct?, Token.isPunct, hread', hends.readMembers_eq]

/-- What is read without parentheses around it. -/
theorem spells_of_choice (h : SpellsFor readChoice? text e) : Spells text e := by
  intro offset
  obtain ⟨new, hplaces, hread⟩ := h offset
  exact ⟨new, hplaces, fun ts hends => read?_of_readChoice? (hread ts hends)⟩

theorem SpellsOperand.spells (h : SpellsOperand text e) : Spells text e :=
  spells_of_choice h.choice

/-- A member of what is in parentheses. -/
theorem spells_member (h : SpellsFor readChoice? text e) (hn : IsToken .ident n) :
    Spells ("(" ++ text ++ ")" ++ ("." ++ n)) (.member e n) := by
  intro offset
  obtain ⟨new, hplaces, hread⟩ := h (offset + 1)
  refine ⟨_, hplaces.parens.append (.point hn) String.toList_append (by decide), fun ts hends => ?_⟩
  -- The parenthesis that closes ends what was read after the one that opens.
  have hinner := hread (⟨.punct, offset + 1 + text.utf8ByteSize, ")"⟩ ::
    ⟨.punct, offset + ("(" ++ text ++ ")").utf8ByteSize, "."⟩ ::
    ⟨.ident, offset + ("(" ++ text ++ ")").utf8ByteSize + 1, n⟩ :: ts)
    (endsExpression_cons (by decide) _ _)
  simp only [List.cons_append, List.append_assoc, List.nil_append]
  rw [read?, dropPunct?_cons rfl]
  dsimp only
  rw [hinner]
  exact congrArg some ((readMembers_name rfl rfl).trans hends.readMembers_eq)

/-- A text spells one expression. -/
theorem Spells.unique {e' : Expression} (h : Spells text e) (h' : Spells text e') : e = e' := by
  have hscan (ctx : Context) (_ : ctx.braces = []) : Scans ctx (0 + text.utf8ByteSize) [] [] :=
    .done
  obtain ⟨new, hplaces, hread⟩ := h 0
  obtain ⟨new', hplaces', hread'⟩ := h' 0
  -- Both readings are of the tokens of the whole text, and a text has one list of tokens.
  have hnew := (@hplaces.scans {} [] [] (by simp [EndsName]) hscan).unique
    (hplaces'.scans (by simp [EndsName]) hscan)
  have hsame := hread' [] (by simp [EndsExpression])
  rw [← hnew, hread [] (by simp [EndsExpression])] at hsame
  cases hsame
  rfl

end Texts

end Expression

end EdgeBundle
