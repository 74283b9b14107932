import LoxReader.Proofs.Command.Listing
import LoxReader.Proofs.Command.Writing
import LoxReader.Proofs.Grammar.FirstFailure

/-!
# Lines of a report

A report has its diagnostics one below the other. Most of what they say is on one line: no message
holds a line feed, since nothing that is reported as unexpected is a blank. But the lexeme at which
the tokens stop being an expression is shown as it is, and a string may go on over several lines.
-/

namespace LoxReader

variable {mode : Mode} {source lexeme : Text} {ds : List Diagnostic} {errors : List Scan.Error}
  {tokens : Tokens} {error : Parse.Error}

lemma length_splitOn (c : Char) (text : Text) : (text.splitOn c).length = 1 + text.count c := by
  induction text with
  | nil => rfl
  | cons d text ih =>
    rw [List.splitOn_cons_eq_if_modifyHead, List.count_cons]
    split_ifs
    · rw [List.length_cons, ih, Nat.add_assoc]
    · rw [List.length_modifyHead, ih, Nat.add_zero]

/-! ### What a diagnostic says -/

lemma Diagnostic.prefix_text (d : Diagnostic) :
    "[line ".toList ++ Text.ofNat d.line ++ "] Error".toList <+: d.text := by
  refine ⟨d.location.text ++ (": ".toList ++ d.message), ?_⟩
  simp only [text_eq, List.append_assoc]

/-- The line feeds of a diagnostic are those that its location shows. -/
lemma Diagnostic.count_text {d : Diagnostic} (h : '\n' ∉ d.message) :
    d.text.count '\n' = d.location.text.count '\n' := by
  have hline : (Text.ofNat d.line).count '\n' = 0 :=
    List.count_eq_zero.mpr (lineFeed_not_mem_ofNat d.line)
  have hmessage : d.message.count '\n' = 0 := List.count_eq_zero.mpr h
  have hwords : "[line ".toList.count '\n' = 0 ∧ "] Error".toList.count '\n' = 0 ∧
      ": ".toList.count '\n' = 0 := by decide
  simp only [text_eq, List.count_append, hline, hmessage, hwords, Nat.zero_add, Nat.add_zero]

lemma Location.count_text_atLexeme (lexeme : Text) :
    (atLexeme lexeme).text.count '\n' = lexeme.count '\n' := by
  have htext : (atLexeme lexeme).text = " at '".toList ++ lexeme ++ "'".toList := rfl
  have hwords : " at '".toList.count '\n' = 0 ∧ "'".toList.count '\n' = 0 := by decide
  simp only [htext, List.count_append, hwords, Nat.zero_add, Nat.add_zero]

lemma Parse.Reason.lineFeed_not_mem_message (r : Parse.Reason) : '\n' ∉ r.message := by
  cases r <;> decide

lemma Scan.Fault.lineFeed_not_mem_message {c : Char} (h : c ≠ '\n') :
    '\n' ∉ (unexpectedCharacter c).message := by
  have hmessage : (unexpectedCharacter c).message
      = "Unexpected character '".toList ++ c :: "'.".toList := rfl
  simp [hmessage, h.symm]

/-- What is reported as unexpected is no blank, and so it is no line feed. -/
lemma Segment.lineFeed_not_mem_message {s : Segment} {p : Position} {e : Scan.Error}
    (hs : s ∈ segments p source) (h : s.error? mode = some e) : '\n' ∉ e.fault.message := by
  obtain ⟨_, _, -, -, hpiece⟩ := piece_of_mem_segments hs
  obtain ⟨shape, text, p⟩ := s
  cases hpiece with
  | stray hc =>
    cases mode with
    | strict =>
      cases h
      exact Scan.Fault.lineFeed_not_mem_message (hc.ne_of_isBlank rfl)
    | lenient => cases h
  | unclosed =>
    have hmessage : '\n' ∉ Scan.Fault.unterminatedString.message := by decide
    cases mode <;> cases h <;> exact hmessage
  | token | blank | comment => cases h

/-- No fault of a scan shows a line feed. -/
lemma lineFeed_not_mem_of_scan_error (h : scan mode source = .error errors) :
    ∀ d ∈ errors.map Scan.Error.diagnostic, '\n' ∉ d.text := by
  rw [List.forall_mem_map]
  intro e he
  rw [(scan_eq_error_iff.mp h).2] at he
  obtain ⟨s, hs, herror⟩ := List.mem_filterMap.mp he
  have hmessage : '\n' ∉ e.diagnostic.message := s.lineFeed_not_mem_message hs herror
  rw [← List.count_eq_zero, Diagnostic.count_text hmessage]
  rfl

/-! ### Where the tokens stop being an expression -/

/-- The tokens of a source stop being an expression at a string, and this is its lexeme. -/
def StopsAtString (mode : Mode) (source lexeme : Text) : Prop :=
  ∃ tokens error value, scan mode source = .ok tokens ∧ parse tokens = .error error ∧
    error.token.content = .string value ∧ error.token.lexeme = lexeme

namespace Parse.Error

lemma token_cases (h : scan mode source = .ok tokens) (herror : parse tokens = .error error) :
    (error.token.isEof ∧ error.token.lexeme = []) ∨
      (¬ error.token.isEof ∧ Lexeme error.token.content error.token.lexeme) := by
  have htokens := scan_terminated h
  rcases (getElem?_of_parse herror).2 with ⟨heof, -⟩ | ⟨hbody, -⟩
  · rw [heof]
    exact .inl ⟨htokens.eof, by rw [(scan_eq_ok h).2]⟩
  · exact .inr ⟨htokens.body _ hbody, lexeme_of_scan h hbody⟩

/-- A fault of the grammar shows the line feeds of the lexeme that it lies at. -/
lemma count_text (h : scan mode source = .ok tokens) (herror : parse tokens = .error error) :
    error.diagnostic.text.count '\n' = error.token.lexeme.count '\n' := by
  rw [Diagnostic.count_text error.reason.lineFeed_not_mem_message]
  rcases token_cases h herror with ⟨heof, hlexeme⟩ | ⟨heof, -⟩
  · have hlocation : error.diagnostic.location = .atEnd := if_pos heof
    rw [hlocation, hlexeme]
    rfl
  · have hlocation : error.diagnostic.location = .atLexeme error.token.lexeme := if_neg heof
    rw [hlocation, Location.count_text_atLexeme]

lemma stopsAtString (h : scan mode source = .ok tokens) (herror : parse tokens = .error error)
    (hfeed : '\n' ∈ error.token.lexeme) : StopsAtString mode source error.token.lexeme := by
  rcases token_cases h herror with ⟨-, hnil⟩ | ⟨-, hlexeme⟩
  · rw [hnil] at hfeed
    cases hfeed
  · obtain ⟨value, hvalue⟩ := hlexeme.string_of_isBlank hfeed (by decide)
    exact ⟨tokens, error, value, h, herror, hvalue, rfl⟩

end Parse.Error

lemma StopsAtString.lexeme_eq (hstops : StopsAtString mode source lexeme)
    (h : scan mode source = .ok tokens) (herror : parse tokens = .error error) :
    lexeme = error.token.lexeme := by
  obtain ⟨tokens', error', _, h', herror', -, rfl⟩ := hstops
  rw [h] at h'
  cases h'
  rw [herror] at herror'
  cases herror'
  rfl

lemma not_stopsAtString (h : scan mode source = .error errors) :
    ¬ StopsAtString mode source lexeme := by
  rintro ⟨_, _, _, hok, -⟩
  rw [h] at hok
  cases hok

lemma forall_stopsAtString_iff (h : scan mode source = .ok tokens)
    (herror : parse tokens = .error error) :
    (∀ lexeme, StopsAtString mode source lexeme → '\n' ∉ lexeme) ↔ '\n' ∉ error.token.lexeme := by
  constructor
  · intro hnone hfeed
    exact hnone _ (Parse.Error.stopsAtString h herror hfeed) hfeed
  · intro hfeed lexeme hstops
    rwa [hstops.lexeme_eq h herror]

/-! ### Reports -/

lemma Diagnostic.splitOn_report (hne : ds ≠ []) (h : ∀ d ∈ ds, '\n' ∉ d.text) :
    (report ds).splitOn '\n' = ds.map text := by
  refine List.splitOn_intercalate '\n' ?_ (by simpa using hne)
  simpa using h

lemma splitOn_report_of_scan_error (h : scan mode source = .error errors) :
    (Diagnostic.report (errors.map Scan.Error.diagnostic)).splitOn '\n'
      = (errors.map Scan.Error.diagnostic).map Diagnostic.text := by
  refine Diagnostic.splitOn_report ?_ (lineFeed_not_mem_of_scan_error h)
  simpa using (scan_eq_error_iff.mp h).1

namespace Parse.Error

lemma length_splitOn_report (h : scan mode source = .ok tokens)
    (herror : parse tokens = .error error) :
    ((Diagnostic.report [error.diagnostic]).splitOn '\n').length
      = 1 + error.token.lexeme.count '\n' := by
  rw [length_splitOn, report_diagnostic, text, count_text h herror]

/-- A fault of the grammar is reported on one line unless its lexeme goes on over several. -/
lemma splitOn_report_iff (h : scan mode source = .ok tokens)
    (herror : parse tokens = .error error) :
    (Diagnostic.report [error.diagnostic]).splitOn '\n' = [error.diagnostic].map Diagnostic.text ↔
      '\n' ∉ error.token.lexeme := by
  constructor
  · intro hlines
    have hlength := length_splitOn_report h herror
    rw [hlines, List.length_map, List.length_singleton] at hlength
    rw [← List.count_eq_zero]
    omega
  · intro hfeed
    rw [← List.count_eq_zero, ← count_text h herror, List.count_eq_zero] at hfeed
    exact Diagnostic.splitOn_report (List.cons_ne_nil _ _) (List.forall_mem_singleton.mpr hfeed)

end Parse.Error

/-- The lines of a report are its diagnostics, each of which starts with the line it is about,
unless the tokens stop being an expression at a string over several lines. Then this is all that is
reported, and each line feed of the string ends one more line. -/
theorem report_lines (h : Expr.ofSource mode source = .error ds) :
    (∀ d ∈ ds, "[line ".toList ++ Text.ofNat d.line ++ "] Error".toList <+: d.text) ∧
    ((Diagnostic.report ds).splitOn '\n' = ds.map Diagnostic.text ↔
      ∀ lexeme, StopsAtString mode source lexeme → '\n' ∉ lexeme) ∧
    ∀ lexeme, StopsAtString mode source lexeme → ∃ d, ds = [d] ∧ Diagnostic.report ds = d.text ∧
      ((Diagnostic.report ds).splitOn '\n').length = 1 + lexeme.count '\n' := by
  refine ⟨fun d _ => d.prefix_text, ?_⟩
  cases hscan : scan mode source with
  | error errors =>
    rw [ofSource_of_scan_error hscan] at h
    cases h
    exact ⟨iff_of_true (splitOn_report_of_scan_error hscan) fun _ hstops =>
      absurd hstops (not_stopsAtString hscan),
      fun _ hstops => absurd hstops (not_stopsAtString hscan)⟩
  | ok tokens =>
    cases herror : parse tokens with
    | ok e =>
      rw [ofSource_of_parse_ok hscan herror] at h
      cases h
    | error error =>
      rw [ofSource_of_parse_error hscan herror] at h
      cases h
      refine ⟨(Parse.Error.splitOn_report_iff hscan herror).trans
        (forall_stopsAtString_iff hscan herror).symm, fun lexeme hstops => ?_⟩
      rw [hstops.lexeme_eq hscan herror]
      exact ⟨error.diagnostic, rfl, error.report_diagnostic,
        Parse.Error.length_splitOn_report hscan herror⟩

/-- Two faults of a scan on two lines, and one fault at a string that is on two lines by itself. -/
theorem report_lines_unclosed :
    Expr.ofSource .strict ['@', '\n', '"'] = .error [⟨1, .wholeLine,
      "Unexpected character '@'.".toList⟩, ⟨2, .wholeLine, "Unterminated string.".toList⟩] ∧
    (Diagnostic.report [⟨1, .wholeLine, "Unexpected character '@'.".toList⟩,
        ⟨2, .wholeLine, "Unterminated string.".toList⟩]).splitOn '\n'
      = ["[line 1] Error: Unexpected character '@'.".toList,
        "[line 2] Error: Unterminated string.".toList] ∧
    StopsAtString .strict ['n', 'i', 'l', '"', '\n', '"'] ['"', '\n', '"'] ∧
    ∃ d, Expr.ofSource .strict ['n', 'i', 'l', '"', '\n', '"'] = .error [d] ∧
      ((Diagnostic.report [d]).splitOn '\n').length = 2 := by
  have hscan : scan .strict ['@', '\n', '"']
      = .error [⟨.unexpectedCharacter '@', ⟨1, 1⟩⟩, ⟨.unterminatedString, ⟨2, 1⟩⟩] := by
    decide +kernel
  have h : Expr.ofSource .strict ['@', '\n', '"'] = .error [⟨1, .wholeLine,
      "Unexpected character '@'.".toList⟩, ⟨2, .wholeLine, "Unterminated string.".toList⟩] :=
    ofSource_of_scan_error hscan
  have htokens : scan .strict ['n', 'i', 'l', '"', '\n', '"']
      = .ok ⟨[⟨.keyword .nil, ['n', 'i', 'l'], ⟨1, 1⟩⟩,
        ⟨.string ['\n'], ['"', '\n', '"'], ⟨1, 4⟩⟩], ⟨.eof, [], ⟨2, 2⟩⟩⟩ := by
    decide +kernel
  have herror : parse ⟨[⟨.keyword .nil, ['n', 'i', 'l'], ⟨1, 1⟩⟩,
        ⟨.string ['\n'], ['"', '\n', '"'], ⟨1, 4⟩⟩], ⟨.eof, [], ⟨2, 2⟩⟩⟩
      = .error ⟨.expectedEnd, 1, ⟨.string ['\n'], ['"', '\n', '"'], ⟨1, 4⟩⟩⟩ := by
    decide +kernel
  have hstops : StopsAtString .strict ['n', 'i', 'l', '"', '\n', '"'] ['"', '\n', '"'] :=
    ⟨_, _, ['\n'], htokens, herror, rfl, rfl⟩
  have h' := ofSource_of_parse_error htokens herror
  obtain ⟨-, hlines, -⟩ := report_lines h
  obtain ⟨-, -, hlonger⟩ := report_lines h'
  obtain ⟨d, hd, -, hlength⟩ := hlonger _ hstops
  rw [hd] at h' hlength
  refine ⟨h, (hlines.mpr fun _ hnone => absurd hnone (not_stopsAtString hscan)).trans ?_,
    hstops, d, h', hlength⟩
  decide +kernel

/-- Reports with more lines than diagnostics exist: a string on two lines behind a whole expression
is one fault, and what it says goes on where the string does. -/
theorem not_forall_report_lines :
    ¬ ∀ mode source ds, Expr.ofSource mode source = .error ds →
      (Diagnostic.report ds).splitOn '\n' = ds.map Diagnostic.text ∧
      ∀ d ∈ ds, "[line ".toList ++ Text.ofNat d.line ++ "] Error".toList <+: d.text := by
  intro hall
  have h : Expr.ofSource .strict ['n', 'i', 'l', '"', '\n', '"'] = .error [⟨1,
      .atLexeme ['"', '\n', '"'], "Expect end of expression.".toList⟩] := by
    decide +kernel
  have hreport : (Diagnostic.report [⟨1, .atLexeme ['"', '\n', '"'],
        "Expect end of expression.".toList⟩]).splitOn '\n'
      = ["[line 1] Error at '\"".toList, "\"': Expect end of expression.".toList] := by
    decide +kernel
  have hlength := congrArg List.length (hall _ _ _ h).1
  rw [hreport] at hlength
  exact absurd hlength (by decide)

end LoxReader
