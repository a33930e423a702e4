import EdgeBundle.Proofs.Module.Linked
import EdgeBundle.Proofs.Module.StaticForm
import EdgeBundle.Proofs.Module.StaticImport
import EdgeBundle.Proofs.Token.Str

/-!
# Import attributes

Attributes after the specifier are read as part of an import with bindings. After any other
statement that names a module they are left in the body, right after the semicolon that takes the
place of the statement.

## Main definitions

* `attributesText`: attributes as a text.

## Main statements

* `exists_apply_eq`: the body of a module whose only statement is its first.
* `ofSource_attributes`: what attributes change.
-/

namespace EdgeBundle

open Lexer

/-- Attributes that may follow a specifier. -/
def attributesText : String :=
  " with \x7b type: 'json' \x7d"

/-- Tokens of the attributes, from byte `offset` on. -/
def attributesTokens (offset : Nat) : List Token :=
  [⟨.ident, offset + 1, "with"⟩, ⟨.punct, offset + 6, "\x7b"⟩, ⟨.ident, offset + 8, "type"⟩,
    ⟨.punct, offset + 12, ":"⟩, ⟨.str, offset + 14, "'json'"⟩, ⟨.punct, offset + 21, "\x7d"⟩]

namespace Lexer

/-- Attributes are read wherever they stand. -/
theorem Scans.attributes {ctx : Context} {offset : Nat} {rest : List Char} {ts : List Token}
    (h : ∀ ctx, Scans ctx (offset + attributesText.utf8ByteSize) rest ts) :
    Scans ctx offset (attributesText.toList ++ rest) (attributesTokens offset ++ ts) := by
  have hwith : IsToken .ident "with" := by decide +kernel
  have htype : IsToken .ident "type" := by decide +kernel
  have hjson : IsToken .str "'json'" := by decide +kernel
  have htext : attributesText.toList ++ rest = ' ' :: ("with".toList ++ ' ' :: '\x7b' :: ' ' ::
      ("type".toList ++ ':' :: ' ' :: ("'json'".toList ++ ' ' :: '\x7d' :: rest))) := by
    simp [attributesText]
  have hsize : attributesText.utf8ByteSize = 22 := rfl
  rw [hsize] at h
  rw [htext]
  refine .blank (hwith.scans (by simp) (endsWord_cons (by decide)) (.blank ?_))
  refine .bracket (by simp) (fun h => absurd h (by decide)) rfl (.blank ?_)
  refine htype.scans (by simp) (endsWord_cons (by decide)) ?_
  refine .mark ?_ rfl rfl (.blank ?_)
  · constructor <;> simp [isBlank, isIdentStart]
  refine hjson.scans (by simp) (endsWord_cons (by decide)) (.blank ?_)
  exact .bracket (by simp) (fun _ => rfl) rfl (h _)

/-- Semicolons are read wherever they stand, and the first one is taken with the text before it. -/
theorem Covers.exists_semicolons {offset : Nat} {cs : List Char} {ts : List Token}
    (h : Covers offset cs ts) (hts : ∀ t ∈ ts, t.isPunct ";" = true) :
    ∃ taken left, cs = taken ++ left ∧ ∀ offset', ∃ us, (∀ ctx, Scans ctx offset' cs us) ∧
      (∀ u ∈ us, u.isPunct ";" = true) ∧
      (Statement.takeSemicolon offset' us).1 = offset' + utf8Width taken := by
  -- the first semicolon alone is taken: of the others only that they are read counts
  induction h with
  | @done offset gap hgap =>
    refine ⟨[], gap, rfl, fun offset' => ⟨[], fun ctx => ?_, by simp, rfl⟩⟩
    rw [← List.append_nil gap]
    exact .gap_append hgap .done
  | @token offset gap rest t ts hgap _ _ _ ih =>
    obtain ⟨_, _, -, hscans⟩ := ih fun u hu => hts u (List.mem_cons_of_mem t hu)
    have htext : t.text.toList = [';'] := by
      rw [(Token.isPunct_iff.mp (hts t List.mem_cons_self)).2]
      rfl
    rw [htext] at hgap ⊢
    refine ⟨gap ++ [';'], rest, by simp, fun offset' => ?_⟩
    obtain ⟨us, hrun, hus, -⟩ := hscans (offset' + utf8Width gap + 1)
    refine ⟨⟨.punct, offset' + utf8Width gap, ";"⟩ :: us, fun ctx => ?_,
      by simpa using ⟨rfl, hus⟩, ?_⟩
    · exact .gap_append hgap (.punct (by simp) rfl (hrun _))
    · have htake : (Statement.takeSemicolon offset'
          (⟨.punct, offset' + utf8Width gap, ";"⟩ :: us)).1 = offset' + utf8Width gap + 1 := rfl
      have hsize : ';'.utf8Size = 1 := rfl
      rw [htake, utf8Width_append, utf8Width_cons, utf8Width_nil, hsize, Nat.add_zero,
        Nat.add_assoc]

/-- Attributes after the specifier of a statement that nothing but semicolons follow. -/
theorem tokenize_attributes {pre post : String} {before rest : List Token} {s : Token}
    (h : tokenize (pre ++ post) = .ok (before ++ s :: rest)) (hs : s.kind = .str)
    (hstop : s.stop = pre.utf8ByteSize) (hrest : ∀ t ∈ rest, t.isPunct ";" = true) :
    ∃ taken left us, post.toList = taken ++ left ∧ (∀ u ∈ us, u.isPunct ";" = true) ∧
      tokenize (pre ++ (attributesText ++ post)) =
        .ok (before ++ s :: (attributesTokens s.stop ++ us)) ∧
      (Statement.takeSemicolon s.stop rest).1 = s.stop + utf8Width taken ∧
      (Statement.takeSemicolon (s.stop + attributesText.utf8ByteSize) us).1 =
        s.stop + attributesText.utf8ByteSize + utf8Width taken := by
  obtain ⟨ctx, hpost, hback⟩ := exists_cut_str h hs hstop
  obtain ⟨taken, left, hsplit, hsemicolons⟩ := hpost.covers.exists_semicolons hrest
  rw [← hstop] at hpost hback
  -- the semicolons are read after the string as well as after the attributes
  obtain ⟨us, hrun, -, htake⟩ := hsemicolons s.stop
  obtain rfl := (hrun ctx).unique hpost
  obtain ⟨us, hrun', hus, htake'⟩ := hsemicolons (s.stop + attributesText.utf8ByteSize)
  refine ⟨taken, left, us, hsplit, hus, hback _ _ ?_, htake, htake'⟩
  rw [String.toList_append]
  exact .attributes hrun'

/-- A character after the hashbang line does not change it. -/
theorem hashbangLength_cons {pre tail : List Char} {d : Char}
    (hle : hashbangLength (pre ++ d :: tail) ≤ pre.length) (hd : d ∉ ['#', '!', '\n'])
    (tail' : List Char) :
    hashbangLength (pre ++ d :: tail') = hashbangLength (pre ++ d :: tail) := by
  have hstarts (tail : List Char) :
      ['#', '!'].isPrefixOf (pre ++ d :: tail) = ['#', '!'].isPrefixOf pre :=
    isPrefixOf_append_of_head fun e he hmem => hd (by
      rw [← Option.some.inj he] at hmem
      exact List.mem_append_left ['\n'] hmem)
  rw [hashbangLength_eq, hstarts] at hle ⊢
  rw [hashbangLength_eq, hstarts]
  split
  next hbang =>
    rw [if_pos hbang] at hle
    have hne : d ≠ '\n' := by
      rintro rfl
      exact hd (by simp)
    exact lineLength_append (Nat.lt_of_le_of_ne hle (lineLength_ne hne)) _
  next => rfl

end Lexer

namespace StaticForm

open Statement

variable {f : StaticForm}

/-- Semicolons are no attributes. -/
theorem skip_semicolons (f : StaticForm) (stop : Nat) {ts : List Token}
    (hts : ∀ t ∈ ts, t.isPunct ";" = true) : f.skip stop ts = .ok (stop, ts) := by
  have hnot (w : String) : startsWord w ts = false := by
    cases ts with
    | nil => rfl
    | cons t ts =>
      exact Token.isWord_eq_false_of_isPunct (hts t List.mem_cons_self) w
  rw [skip, skipAttributes, hnot, hnot]
  simp

/-- Attributes are skipped if they are part of the statement. -/
theorem skip_attributes (h : f.takesAttributes = true) (stop : Nat) (ts : List Token) :
    f.skip stop (attributesTokens stop ++ ts) =
      .ok (stop + attributesText.utf8ByteSize, ts) := by
  rw [skip, if_pos h]
  rfl

/-- What is read of a statement whose specifier has no escapes. -/
theorem Heads.readForm_of_skip {k s : Token} {head rest rest' : List Token} {stop' : Nat}
    (h : f.Heads (k :: head)) (hs : s.kind = .str)
    (hescape : '\\' ∉ s.text.toList.tail.dropLast)
    (hskip : f.skip s.stop rest = .ok (stop', rest')) :
    readForm k (head ++ s :: rest) = .ok ⟨some (f.form (specifierText s)),
      (takeSemicolon stop' rest').1, (takeSemicolon stop' rest').2⟩ := by
  have hread : readSpecifier (s :: rest) = .ok ⟨specifierText s, s.stop, rest⟩ :=
    readSpecifier_eq_ok_iff.mpr ⟨s, hs, hescape, rfl, rfl, rfl⟩
  rw [h.readForm_eq hs, readEnd, hread]
  simp only [bind, Except.bind, hskip]
  rfl

end StaticForm

namespace LinkedModule

variable {config : Config} {path : RelPath}

/-! ## Bodies of one statement -/

/-- Before its first token a source has at most a hashbang line to cut off, the same one whatever
comes after the first character of the token. -/
theorem exists_lead {src : String} {t : Token} {ts : List Token} {pre tail : List Char} {d : Char}
    (htokens : tokenize src = .ok (t :: ts)) (hsrc : src.toList = pre ++ d :: tail)
    (hstart : t.start = utf8Width pre) (hd : d ∉ ['#', '!', '\n']) :
    ∃ edits lead, Edit.Splices 0 pre edits lead ∧
      ∀ tail', hashbangEdits (pre ++ d :: tail') = edits := by
  obtain ⟨line, rest, hsplit, hline, hrun⟩ := tokenize_eq_ok_iff_exists_line.mp htokens
  -- the hashbang line ends before the first token starts
  have hle := hrun.covers.offset_le_start List.mem_cons_self
  rw [hstart] at hle
  obtain ⟨mid, rfl, -⟩ := exists_append_of_width_le (hsplit.symm.trans hsrc) hle
  rw [hsrc] at hline
  have hlength : hashbangLength (line ++ mid ++ d :: tail) ≤ (line ++ mid).length := by
    rw [← hline, List.length_append]
    exact Nat.le_add_right _ _
  have hsame (tail' : List Char) : hashbangEdits (line ++ mid ++ d :: tail') =
      if ['#', '!'].isPrefixOf (line ++ mid) then [⟨0, utf8Width line, ""⟩] else [] := by
    have hstarts : ['#', '!'].isPrefixOf (line ++ mid ++ d :: tail') =
        ['#', '!'].isPrefixOf (line ++ mid) :=
      isPrefixOf_append_of_head fun e he hmem => hd (by
        rw [← Option.some.inj he] at hmem
        exact List.mem_append_left ['\n'] hmem)
    rw [hashbangEdits, hstarts, hashbangLength_cons hlength hd, ← hline, List.append_assoc,
      List.take_left]
  by_cases hbang : ['#', '!'].isPrefixOf (line ++ mid) = true
  · simp only [if_pos hbang] at hsame
    exact ⟨_, mid, @Edit.Splices.edit 0 [] line mid mid ⟨0, utf8Width line, ""⟩ [] rfl
      (Nat.zero_add _).symm .done, hsame⟩
  · simp only [if_neg hbang] at hsame
    exact ⟨[], line ++ mid, .done, hsame⟩

/-- The body of a module whose only statement is at its first token: all before the statement but
the hashbang line, what takes the place of the statement, and all after it. -/
theorem exists_apply_eq {src : String} {t : Token} {ts : List Token} {pre tail : List Char}
    {d : Char} (htokens : tokenize src = .ok (t :: ts)) (hsrc : src.toList = pre ++ d :: tail)
    (hstart : t.start = utf8Width pre) (hd : d ∉ ['#', '!', '\n']) :
    ∃ lead, ∀ (cut left : List Char) (text : String) (e : Effect),
      e.edit = some ⟨t.start, t.start + utf8Width (d :: cut), text⟩ →
      Edit.apply (editsOf (pre ++ d :: (cut ++ left)) [e]) (pre ++ d :: (cut ++ left)) =
        lead ++ (text.toList ++ left) := by
  obtain ⟨edits, lead, hlead, hedits⟩ := exists_lead htokens hsrc hstart hd
  refine ⟨lead, fun cut left text e he => ?_⟩
  have hcut : Edit.Splices (0 + utf8Width pre) ([] ++ (d :: cut ++ left))
      [⟨t.start, t.start + utf8Width (d :: cut), text⟩] ([] ++ (text.toList ++ left)) :=
    .edit (by rw [utf8Width_nil, hstart, Nat.zero_add, Nat.add_zero]) rfl .done
  rw [editsOf, hedits, List.filterMap_cons_some he, List.filterMap_nil, Edit.apply]
  exact (hlead.append hcut rfl).applyFrom_eq

/-! ## Effects of statements -/

/-- What takes the place of a statement does not hang on where the statement ends, and it is a
semicolon unless attributes belong to the statement. -/
theorem exists_text_of_effect {site : Site} {line start stop : Nat} {f : StaticForm}
    {specifier : String} {e : Effect}
    (h : (effect site line ⟨start, stop, f.form specifier⟩).result = .ok e) :
    ∃ text, e.edit = some ⟨start, stop, text⟩ ∧ (f.takesAttributes = false → text = ";") ∧
      ∀ stop', (effect site line ⟨start, stop', f.form specifier⟩).result =
        .ok { e with edit := some ⟨start, stop', text⟩ } := by
  have hcontributes := result_effect_eq_ok_iff.mp h
  have htext : ∃ text, e.edit = some ⟨start, stop, text⟩ ∧
      (f.takesAttributes = false → text = ";") := by
    cases f with
    | bare => cases hcontributes; exact ⟨_, rfl, fun _ => rfl⟩
    | bindings clause => cases hcontributes; exact ⟨_, rfl, nofun⟩
    | names ps => cases hcontributes; exact ⟨_, rfl, fun _ => rfl⟩
    | all asName => cases asName <;> (cases hcontributes; exact ⟨_, rfl, fun _ => rfl⟩)
  obtain ⟨text, hedit, hsemicolon⟩ := htext
  refine ⟨text, hedit, hsemicolon, fun stop' => ?_⟩
  have hmoved := hcontributes.move start stop'
  rw [hedit] at hmoved
  exact result_effect_eq_ok_iff.mpr hmoved

/-! ## Modules of one statement -/

section Modules

variable {src : String} {t : Token} {ts : List Token} {m : LinkedModule}

/-- The first form of a module that can be linked has been read. -/
theorem exists_readForm_of_result (htokens : tokenize src = .ok (t :: ts))
    (hstarts : Statement.startsForm false t ts = true)
    (h : (ofSource config path src).result = .ok m) : ∃ r, Statement.readForm t ts = .ok r := by
  cases hread : Statement.readForm t ts with
  | ok r => exact ⟨r, rfl⟩
  | error fault =>
    rw [result_ofSource_of_fault htokens (Statement.outline_cons_of_error hstarts hread)] at h
    cases h

/-- A module with one statement, at its start, is made of the effect of that statement. -/
theorem exists_effect_of_result {form : Form} {stop : Nat} {rest : List Token}
    (htokens : tokenize src = .ok (t :: ts)) (hstarts : Statement.startsForm false t ts = true)
    (hread : Statement.readForm t ts = .ok ⟨some form, stop, rest⟩)
    (hrest : ∀ u ∈ rest, Statement.isKeyword u = false)
    (h : (ofSource config path src).result = .ok m) :
    ∃ e, (effect (.ofConfig config path) (lineAt src.toList t.start)
        ⟨t.start, stop, form⟩).result = .ok e ∧ m = ofEffects path src.toList [e] := by
  obtain ⟨effects, heffectsOf, rfl⟩ := result_ofSource_eq_ok_iff.mp h
  obtain ⟨tokens, htokens', -, heffects⟩ := result_effectsOf_eq_ok_iff.mp heffectsOf
  rw [htokens] at htokens'
  obtain rfl := Except.ok.inj htokens'
  rw [Statement.outline_cons_of_form hstarts hread, Statement.outline_eq_nil hrest] at heffects
  obtain ⟨e, effects, heffect, hnil, rfl⟩ := List.forall₂_cons_left_iff.mp heffects
  obtain rfl := List.forall₂_nil_left_iff.mp hnil
  exact ⟨e, heffect, rfl⟩

/-- Semicolons are no keywords. -/
theorem isKeyword_of_semicolon (ht : t.isPunct ";" = true) : Statement.isKeyword t = false := by
  simp [Statement.isKeyword, Token.isWord_eq_false_of_isPunct ht]

/-- After a semicolon there are no keywords if there were none before it. -/
theorem isKeyword_takeSemicolon (stop : Nat) (hts : ∀ u ∈ ts, Statement.isKeyword u = false) :
    ∀ u ∈ (Statement.takeSemicolon stop ts).2, Statement.isKeyword u = false := by
  intro u hu
  obtain ⟨ending, hrest, -⟩ := Statement.exists_takeSemicolon stop ts
  refine hts u ?_
  rw [hrest]
  exact List.mem_append_right ending hu

/-- A module of one statement that names a module is made of the effect of that statement, and its
specifier has no escapes. -/
theorem exists_effect_of_heads {f : StaticForm} {k s : Token} {head rest : List Token}
    (htokens : tokenize src = .ok (k :: (head ++ s :: rest))) (hhead : f.Heads (k :: head))
    (hs : s.kind = .str) (hrest : ∀ t ∈ rest, t.isPunct ";" = true)
    (h : (ofSource config path src).result = .ok m) :
    '\\' ∉ s.text.toList.tail.dropLast ∧
      ∃ e, (effect (.ofConfig config path) (lineAt src.toList k.start) ⟨k.start,
          (Statement.takeSemicolon s.stop rest).1, f.form (Statement.specifierText s)⟩).result =
            .ok e ∧
        m = ofEffects path src.toList [e] := by
  have hstarts := hhead.startsForm hs rest
  obtain ⟨r, hr⟩ := exists_readForm_of_result htokens hstarts h
  have hend : f.readEnd (s :: rest) = .ok r := (hhead.readForm_eq hs rest).symm.trans hr
  obtain ⟨q, hq, -⟩ := Except.bind_eq_ok_iff.mp hend
  obtain ⟨u, -, hescape, hu, -⟩ := Statement.readSpecifier_eq_ok_iff.mp hq
  rw [← (List.cons.inj hu).1] at hescape
  have hread := hhead.readForm_of_skip hs hescape (f.skip_semicolons s.stop hrest)
  exact ⟨hescape, exists_effect_of_result htokens hstarts hread
    (isKeyword_takeSemicolon s.stop fun u hu => isKeyword_of_semicolon (hrest u hu)) h⟩

/-- The first token stands before the end of any later one, and a keyword starts with a letter. -/
theorem exists_keyword_split {pre post : String} {head rest : List Token} {s : Token}
    (htokens : tokenize (pre ++ post) = .ok (t :: (head ++ s :: rest)))
    (hkey : Statement.isKeyword t = true) (hstop : s.stop = pre.utf8ByteSize) :
    ∃ before d cut, pre.toList = before ++ d :: cut ∧ t.start = utf8Width before ∧
      d ∉ ['#', '!', '\n'] := by
  have hcovers := (tokenize_eq_ok_iff.mp htokens).covers
  have hmem : s ∈ head ++ s :: rest := by simp
  have hlt : t.stop ≤ pre.utf8ByteSize := by
    have hbefore := (List.pairwise_cons.mp hcovers.pairwise_stop_le_start).1 s hmem
    have hafter := hcovers.start_lt_stop (List.mem_cons_of_mem t hmem)
    omega
  have hstands := standsAt_of_tokenize htokens List.mem_cons_self
  rw [String.toList_append] at hstands
  rw [← utf8Width_toList] at hlt
  obtain ⟨before, mid, hpre, hstart⟩ := hstands.exists_of_stop_le hlt
  obtain ⟨d, word, hword, hd⟩ := Statement.exists_cons_of_isKeyword hkey
  have hplain : d ∉ ['#', '!', '\n'] := by rcases hd with rfl | rfl <;> decide
  exact ⟨before, d, word ++ mid, by rw [hpre, hword]; rfl, hstart.symm, hplain⟩

end Modules

/-- Two bodies of different lengths, apart from a line break, make different code. -/
theorem wrap_ne_of_length {body body' : List Char} (hlt : body.length + 1 < body'.length)
    (path : RelPath) (manifest : Manifest) :
    wrap path body' manifest ≠ wrap path body manifest := by
  intro h
  have hlength := congrArg (fun code => code.toList.length) h
  simp only [wrap, String.toList_append, String.toList_ofList, List.length_append] at hlength
  split_ifs at hlength <;> simp at hlength <;> omega

/-- Attributes after the specifier of a statement leave the module as it is exactly if they are part
of the statement, that is of an import with bindings. Otherwise the module is linked all the same,
with the same exports and references, and the attributes are left in the body right after the
semicolon that takes the place of the statement. -/
theorem ofSource_attributes {f : StaticForm} {pre post : String} {head rest : List Token}
    {s : Token} {m : LinkedModule}
    (htokens : tokenize (pre ++ post) = .ok (head ++ s :: rest)) (hhead : f.Heads head)
    (hs : s.kind = .str) (hstop : s.stop = pre.utf8ByteSize)
    (hrest : ∀ t ∈ rest, t.isPunct ";" = true)
    (h : (ofSource config path (pre ++ post)).result = .ok m) :
    ∃ m', (ofSource config path (pre ++ (attributesText ++ post))).result = .ok m' ∧
      m'.exports = m.exports ∧ m'.references = m.references ∧
      (m' = m ↔ f.takesAttributes = true) ∧
      (f.takesAttributes = false → ∃ lead taken left manifest, post.toList = taken ++ left ∧
        m.code = wrap path (lead ++ ';' :: left) manifest ∧
        m'.code = wrap path (lead ++ ';' :: (attributesText.toList ++ post.toList)) manifest) := by
  obtain ⟨k, head, rfl, hkey⟩ := hhead.exists_cons
  obtain ⟨before, d, cut, hpre, hstart, hd⟩ := exists_keyword_split htokens hkey hstop
  obtain ⟨taken, left, us, hpost, hus, htokens', htake, htake'⟩ :=
    tokenize_attributes htokens hs hstop hrest
  obtain ⟨hescape, e, heffect, rfl⟩ := exists_effect_of_heads htokens hhead hs hrest h
  obtain ⟨text, hedit, htext, hmoved⟩ := exists_text_of_effect heffect
  -- both sources go on in the same way after the first character of the keyword
  have hstop' : s.stop = k.start + utf8Width (d :: cut) := by
    rw [hstop, ← utf8Width_toList, hpre, utf8Width_append, hstart]
  have hsrc : (pre ++ post).toList = before ++ d :: (cut ++ taken ++ left) := by
    simp [hpre, hpost]
  obtain ⟨lead, hlead⟩ := exists_apply_eq htokens hsrc hstart hd
  have hm : ofEffects path (pre ++ post).toList [e] =
      ⟨path, wrap path (lead ++ (text.toList ++ left)) (Manifest.ofEffects [e]),
        (Manifest.ofEffects [e]).names, [e].filterMap Effect.reference⟩ := by
    rw [ofEffects, hsrc, hlead (cut ++ taken) left text e]
    rw [hedit, htake, hstop', ← List.cons_append, utf8Width_append, Nat.add_assoc]
  have hline : lineAt (pre ++ (attributesText ++ post)).toList k.start =
      lineAt (pre ++ post).toList k.start := by
    simp only [lineAt, hstart, String.toList_append, hpre, List.append_assoc, takeBytes_append]
  -- the module with attributes, by where its statement ends
  have hlinked {stop' : Nat} {rest' : List Token} {cut' left' : List Char}
      (hskip : f.skip s.stop (attributesTokens s.stop ++ us) = .ok (stop', rest'))
      (hkeys : ∀ u ∈ rest', Statement.isKeyword u = false)
      (hstop' : (Statement.takeSemicolon stop' rest').1 = k.start + utf8Width (d :: cut'))
      (hsrc' : (pre ++ (attributesText ++ post)).toList = before ++ d :: (cut' ++ left')) :
      (ofSource config path (pre ++ (attributesText ++ post))).result =
        .ok ⟨path, wrap path (lead ++ (text.toList ++ left')) (Manifest.ofEffects [e]),
          (Manifest.ofEffects [e]).names, [e].filterMap Effect.reference⟩ := by
    have hread' := hhead.readForm_of_skip hs hescape hskip
    rw [result_ofSource_of_form htokens' (hhead.startsForm hs _) hread'
      (isKeyword_takeSemicolon stop' hkeys) (by rw [hline]; exact hmoved _), ofEffects, hsrc',
      hlead cut' left' text _ (by rw [hstop'])]
    rfl
  rw [hm]
  by_cases htakes : f.takesAttributes = true
  · have hsrc' : (pre ++ (attributesText ++ post)).toList =
        before ++ d :: (cut ++ attributesText.toList ++ taken ++ left) := by
      simp [hpre, hpost]
    have hends : (Statement.takeSemicolon (s.stop + attributesText.utf8ByteSize) us).1 =
        k.start + utf8Width (d :: (cut ++ attributesText.toList ++ taken)) := by
      rw [htake', hstop']
      simp only [utf8Width_append, utf8Width_cons, utf8Width_toList]
      omega
    exact ⟨_, hlinked (StaticForm.skip_attributes htakes s.stop us)
      (fun u hu => isKeyword_of_semicolon (hus u hu)) hends hsrc', rfl, rfl,
      iff_of_true rfl htakes, fun hnot => absurd htakes (Bool.eq_false_iff.mp hnot)⟩
  · have hskip : f.skip s.stop (attributesTokens s.stop ++ us) =
        .ok (s.stop, attributesTokens s.stop ++ us) := by
      rw [StaticForm.skip, if_neg htakes]
    have hkeys : ∀ u ∈ attributesTokens s.stop ++ us, Statement.isKeyword u = false := by
      intro u hu
      rcases List.mem_append.mp hu with hu | hu
      · simp only [attributesTokens, List.mem_cons, List.not_mem_nil, or_false] at hu
        rcases hu with rfl | rfl | rfl | rfl | rfl | rfl <;> rfl
      · exact isKeyword_of_semicolon (hus u hu)
    obtain rfl := htext (Bool.eq_false_iff.mpr htakes)
    have hsrc' : (pre ++ (attributesText ++ post)).toList =
        before ++ d :: (cut ++ (attributesText.toList ++ post.toList)) := by
      simp [hpre]
    refine ⟨_, hlinked hskip hkeys hstop' hsrc', rfl, rfl, iff_of_false ?_ htakes,
      fun _ => ⟨lead, taken, left, _, hpost, rfl, rfl⟩⟩
    -- the body is longer by the attributes and the semicolon after them
    have hlength : (lead ++ (";".toList ++ left)).length + 1 <
        (lead ++ (";".toList ++ (attributesText.toList ++ post.toList))).length := by
      have htwo : 2 ≤ attributesText.toList.length := by decide
      simp only [List.length_append, hpost]
      omega
    exact fun hsame => wrap_ne_of_length hlength path _ (congrArg LinkedModule.code hsame)

/-- An import of a whole module, with a comment after its specifier, and an export of everything. -/
theorem ofSource_attributes_bindings :
    (∃ m, (ofSource {} ⟨"a.mjs", by decide⟩ "import * as d from 'd.json'/**/;\n").result = .ok m ∧
      ∃ m', (ofSource {} ⟨"a.mjs", by decide⟩
          ("import * as d from 'd.json'" ++ (attributesText ++ "/**/;\n"))).result = .ok m' ∧
        m' = m) ∧
    ∃ m, (ofSource {} ⟨"a.mjs", by decide⟩ "export * from 'd.json'").result = .ok m ∧
      ∃ m', (ofSource {} ⟨"a.mjs", by decide⟩
          ("export * from 'd.json'" ++ (attributesText ++ ""))).result = .ok m' ∧ m' ≠ m := by
  constructor
  · have hhead : (StaticForm.bindings ⟨none, some "d", none⟩).Heads (⟨.ident, 0, "import"⟩ ::
        ([⟨.punct, 7, "*"⟩, ⟨.ident, 9, "as"⟩, ⟨.ident, 12, "d"⟩] ++ [⟨.ident, 14, "from"⟩])) :=
      .bindings rfl (.inl (.bindings (@Statement.Bindings.all _ _ ⟨.ident, 12, "d"⟩ rfl rfl rfl)))
        rfl
    have htokens : tokenize ("import * as d from 'd.json'" ++ "/**/;\n") =
        .ok (⟨.ident, 0, "import"⟩ :: ([⟨.punct, 7, "*"⟩, ⟨.ident, 9, "as"⟩, ⟨.ident, 12, "d"⟩] ++
          [⟨.ident, 14, "from"⟩]) ++ ⟨.str, 19, "'d.json'"⟩ :: [⟨.punct, 31, ";"⟩]) := by
      decide +kernel
    obtain ⟨m, hm⟩ := exists_eq_ok_of_toBool (x := (ofSource {} ⟨"a.mjs", by decide⟩
      ("import * as d from 'd.json'" ++ "/**/;\n")).result) (by decide +kernel)
    obtain ⟨m', hm', -, -, hsame, -⟩ :=
      ofSource_attributes htokens hhead rfl (by decide +kernel) (by decide) hm
    exact ⟨m, hm, m', hm', hsame.mpr rfl⟩
  · have hhead : (StaticForm.all none).Heads
        [⟨.ident, 0, "export"⟩, ⟨.punct, 7, "*"⟩, ⟨.ident, 9, "from"⟩] := .all rfl rfl rfl
    have htokens : tokenize ("export * from 'd.json'" ++ "") =
        .ok ([⟨.ident, 0, "export"⟩, ⟨.punct, 7, "*"⟩, ⟨.ident, 9, "from"⟩] ++
          ⟨.str, 14, "'d.json'"⟩ :: []) := by
      decide +kernel
    obtain ⟨m, hm⟩ := exists_eq_ok_of_toBool (x := (ofSource {} ⟨"a.mjs", by decide⟩
      ("export * from 'd.json'" ++ "")).result) (by decide +kernel)
    obtain ⟨m', hm', -, -, hsame, -⟩ :=
      ofSource_attributes htokens hhead rfl (by decide +kernel) (by simp) hm
    exact ⟨m, hm, m', hm', fun h => by cases hsame.mp h⟩

/-- Attributes of an import without bindings are left in the body. -/
theorem ofSource_bare_attributes :
    (ofSource {} ⟨"a.mjs", by decide⟩ "import './b.mjs';").result.toOption.map LinkedModule.code =
      some (opening ⟨"a.mjs", by decide⟩ ++ ";\n\x7d)();\n") ∧
    (ofSource {} ⟨"a.mjs", by decide⟩
        "import './b.mjs' with \x7b type: 'json' \x7d;").result.toOption.map LinkedModule.code =
      some (opening ⟨"a.mjs", by decide⟩ ++ "; with \x7b type: 'json' \x7d;\n\x7d)();\n") := by
  constructor <;> decide +kernel

end LinkedModule

end EdgeBundle
