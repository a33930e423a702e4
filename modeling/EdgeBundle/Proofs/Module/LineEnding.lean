import EdgeBundle.Proofs.Module.Reading
import EdgeBundle.Proofs.Token.LineEnding

/-!
# Modules with other line endings

A module whose lines end with carriage returns and newlines exports and refers to what it does with
newlines alone, from the same lines, unless one of its strings or regular expressions goes on behind
an escaped line break. With carriage returns such a module is not accepted.

## Main statements

* `sameLine_tokenCrlf`: a token with either ending of lines.
* `ofSource_crlf`: sources with either ending of lines.
-/

namespace EdgeBundle.LinkedModule

open Lexer

/-- A place is on the same line with either ending of lines. -/
theorem lineAt_crlf (before after : List Char) :
    lineAt (crlf (before ++ after)) (utf8Width (crlf before)) =
      lineAt (before ++ after) (utf8Width before) := by
  rw [lineAt, lineAt, crlf_append, takeBytes_append, takeBytes_append, count_newline_crlf]

/-- A token is read alike with either ending of lines, and stands on the same line. -/
theorem sameLine_tokenCrlf {src : String} {ts : List Token} {t : Token}
    (h : tokenize src = .ok ts) (ht : t ∈ ts) (hline : OnOneLine t) :
    t.SameLine src.toList (crlf src.toList) (tokenCrlf src.toList t) := by
  obtain ⟨ctx, before, c, rest, more, hsrc, hstart, hl, htext⟩ := exists_lexemeAt_of_tokenize h ht
  refine ⟨⟨rfl, fun htemplate hhead => ?_⟩, ?_⟩
  · have hne : c ≠ '\n' := by
      rintro rfl
      cases hl.unique (.blank rfl)
    have hrest : '\n' ∉ rest.take more := by
      cases hkind : t.kind with
      | template => exact absurd hkind htemplate
      | templateHead => exact absurd hkind hhead
      | str | regex =>
        have := hline (by simp [hkind])
        rw [htext, List.mem_cons, not_or] at this
        exact this.2
      | ident | number | punct => exact hl.newline_not_mem (by simp [hkind])
    have hnot : '\n' ∉ t.text.toList := by
      rw [htext, List.mem_cons, not_or]
      exact ⟨Ne.symm hne, hrest⟩
    rw [tokenCrlf, crlf_of_not_mem hnot, String.ofList_toList]
  · rw [tokenCrlf, hstart, hsrc, takeBytes_append, lineAt_crlf]

/-- With a carriage return before every newline a source has tokens exactly if it has them without
and no string or regular expression goes over several lines. Then the tokens are the same, carriage
returns apart, and the module exports and refers to the same or is not accepted either. If a string
or regular expression goes over several lines, the source with carriage returns is not accepted. -/
theorem ofSource_crlf (config : Config) (path : RelPath) (src : String) :
    (∀ us, tokenize (String.ofList (crlf src.toList)) = .ok us ↔
      ∃ ts, tokenize src = .ok ts ∧ (∀ t ∈ ts, OnOneLine t) ∧
        us = ts.map (tokenCrlf src.toList)) ∧
    ((∀ ts, tokenize src = .ok ts → ∀ t ∈ ts, OnOneLine t) →
      Agree SameLinks (ofSource config path src).result
        (ofSource config path (String.ofList (crlf src.toList))).result) ∧
    ((∃ ts, tokenize src = .ok ts ∧ ∃ t ∈ ts, ¬ OnOneLine t) →
      ∃ e, (ofSource config path (String.ofList (crlf src.toList))).result = .error e) := by
  refine ⟨fun us => tokenize_crlf, fun hline => ?_, fun ⟨ts, hts, t, ht, hnot⟩ => ?_⟩
  · refine ofSource_agree (fun ts hts => ?_) fun us hus => ?_
    · refine ⟨_, tokenize_crlf.mpr ⟨ts, hts, hline ts hts, rfl⟩, sameStatements_of_forall₂ ?_⟩
      rw [String.toList_ofList, List.forall₂_map_right_iff, List.forall₂_same]
      exact fun t ht => sameLine_tokenCrlf hts ht (hline ts hts t ht)
    · obtain ⟨ts, hts, -⟩ := tokenize_crlf.mp hus
      exact ⟨ts, hts⟩
  · cases hm : (ofSource config path (String.ofList (crlf src.toList))).result with
    | error e => exact ⟨e, rfl⟩
    | ok m =>
      obtain ⟨us, hus⟩ := exists_tokenize_of_result hm
      obtain ⟨ts', hts', hline, -⟩ := tokenize_crlf.mp hus
      rw [hts] at hts'
      cases hts'
      exact absurd (hline t ht) hnot

/-- Lines that end after a hashbang, in comments and in template text. -/
theorem ofSource_crlf_template :
    ∃ src m m', src = "#!node\nimport a from './a.mjs' // a\n" ++
        "/* b\n */ export const t = `c\n$\x7ba\x7d\n`" ∧
      (ofSource {} ⟨"t.mjs", by decide⟩ src).result = .ok m ∧
      (ofSource {} ⟨"t.mjs", by decide⟩ (String.ofList (crlf src.toList))).result = .ok m' ∧
      SameLinks m m' ∧ m.references = [⟨"./a.mjs", "a.mjs", .atLoad, 2⟩] := by
  refine ⟨"#!node\nimport a from './a.mjs' // a\n" ++
    "/* b\n */ export const t = `c\n$\x7ba\x7d\n`", ?_⟩
  have hline : (tokenize ("#!node\nimport a from './a.mjs' // a\n" ++
      "/* b\n */ export const t = `c\n$\x7ba\x7d\n`")).toOption.all
        (·.all fun t => OnOneLine t) = true := by decide +kernel
  have hok : ((ofSource {} ⟨"t.mjs", by decide⟩ ("#!node\nimport a from './a.mjs' // a\n" ++
      "/* b\n */ export const t = `c\n$\x7ba\x7d\n`")).result.toOption.map
        LinkedModule.references) = some [⟨"./a.mjs", "a.mjs", .atLoad, 2⟩] := by decide +kernel
  obtain ⟨m, hm, hreferences⟩ := exists_eq_ok_of_map hok
  obtain ⟨-, hagree, -⟩ := ofSource_crlf {} ⟨"t.mjs", by decide⟩
    ("#!node\nimport a from './a.mjs' // a\n" ++ "/* b\n */ export const t = `c\n$\x7ba\x7d\n`")
  have hlinked := hagree fun ts hts t ht => by
    rw [hts] at hline
    exact of_decide_eq_true (List.all_eq_true.mp hline t ht)
  obtain ⟨m', hm', hsame⟩ := hlinked.exists_eq_ok hm
  exact ⟨m, m', rfl, hm, hm', hsame, hreferences⟩

/-- A string that goes on behind an escaped line break is left open by a carriage return in it. -/
theorem tokenize_crlf_continuation :
    ∃ src : String, '\r' ∉ src.toList ∧ tokenize src = .ok [⟨.str, 0, src⟩] ∧
      tokenize (String.ofList (crlf src.toList)) = .error ⟨0, .unclosedString⟩ :=
  ⟨"'a\\\nb'", by decide, by decide +kernel, by decide +kernel⟩

end EdgeBundle.LinkedModule
