import LoxReader.Command.Answer
import LoxReader.Proofs.Command.Listing
import LoxReader.Proofs.Grammar.FirstFailure

/-!
# What the command writes

The command as it goes along: it writes piece by piece, and where it fails, what it has written by
then stays written. It turns out to write nothing before it fails, and all ways to read a source fail
alike.
-/

namespace LoxReader

namespace Command

/-- A command at work: it may fail, and what it has written stays. -/
abbrev Writer := ExceptT (List Diagnostic) (StateM Text)

/-- How a command ends, and what is written then, behind what was there before. -/
def Writer.outcome (x : Writer Unit) (written : Text) : Except (List Diagnostic) Unit × Text :=
  Id.run (x.run.run written)

def write (text : Text) : Writer Unit := modify (· ++ text)

/-- Writes an entry for each token, one after the other. -/
def writeListing (mode : Mode) (source : Text) : Writer Unit := do
  let tokens ← liftExcept ((scan mode source).mapError (List.map Scan.Error.diagnostic))
  tokens.toList.forM fun t => write t.listingLine

/-- Writes one of the texts of an expression on a line. -/
def writeExpr (text : Expr → Text) (mode : Mode) (source : Text) : Writer Unit := do
  let e ← liftExcept (Expr.ofSource mode source)
  write (text e ++ ['\n'])

def Options.writer (o : Options) (source : Text) : Writer Unit :=
  match o.output with
  | .tokens    => writeListing o.mode source
  | .source    => writeExpr Expr.source o.mode source
  | .bracketed => writeExpr Expr.bracketed o.mode source

/-! ### Writing and printing -/

variable {mode : Mode} {source : Text} {errors : List Scan.Error} {tokens : Tokens}
  {diagnostics : List Diagnostic} {e : Expr}

lemma outcome_forM_write (ts : List Token) (written : Text) :
    Writer.outcome (ts.forM fun t => write t.listingLine) written
      = (.ok (), written ++ ts.flatMap Token.listingLine) := by
  induction ts generalizing written with
  | nil =>
    rw [List.flatMap_nil, List.append_nil]
    rfl
  | cons t ts ih =>
    have hstep : Writer.outcome ((t :: ts).forM fun t => write t.listingLine) written
        = Writer.outcome (ts.forM fun t => write t.listingLine) (written ++ t.listingLine) := rfl
    rw [hstep, ih, List.flatMap_cons, List.append_assoc]

lemma outcome_writeListing_error (h : scan mode source = .error errors) (written : Text) :
    (writeListing mode source).outcome written
      = (.error (errors.map Scan.Error.diagnostic), written) := by
  rw [writeListing, h]
  rfl

lemma outcome_writeListing_ok (h : scan mode source = .ok tokens) (written : Text) :
    (writeListing mode source).outcome written = (.ok (), written ++ tokens.listing) := by
  rw [writeListing, h]
  exact outcome_forM_write tokens.toList written

lemma outcome_writeExpr_error (h : Expr.ofSource mode source = .error diagnostics)
    (text : Expr → Text) (written : Text) :
    (writeExpr text mode source).outcome written = (.error diagnostics, written) := by
  rw [writeExpr, h]
  rfl

lemma outcome_writeExpr_ok (h : Expr.ofSource mode source = .ok e) (text : Expr → Text)
    (written : Text) :
    (writeExpr text mode source).outcome written = (.ok (), written ++ (text e ++ ['\n'])) := by
  rw [writeExpr, h]
  rfl

/-- What the command prints it has written at its end, and before a failure it writes nothing. -/
theorem Options.outcome_writer (o : Options) (source written : Text) :
    (o.writer source).outcome written = match o.print source with
      | .ok text           => (.ok (), written ++ text)
      | .error diagnostics => (.error diagnostics, written) := by
  obtain ⟨output, mode, file?⟩ := o
  cases output with
  | tokens =>
    cases h : scan mode source with
    | error errors => simp only [writer, outcome_writeListing_error h, print, h]
    | ok tokens => simp only [writer, outcome_writeListing_ok h, print, h]
  | source =>
    cases h : Expr.ofSource mode source with
    | error diagnostics => simp only [writer, outcome_writeExpr_error h, print, h, Except.map]
    | ok e => simp only [writer, outcome_writeExpr_ok h, print, h, Except.map]
  | bracketed =>
    cases h : Expr.ofSource mode source with
    | error diagnostics => simp only [writer, outcome_writeExpr_error h, print, h, Except.map]
    | ok e => simp only [writer, outcome_writeExpr_ok h, print, h, Except.map]

end Command

/-! ### One report for all ways to read a source -/

lemma Scan.Error.text_eq (e : Scan.Error) :
    e.text = "[line ".toList ++ Text.ofNat e.position.line ++ ("] Error".toList ++ ": ".toList)
      ++ e.fault.message := rfl

lemma Diagnostic.text_eq (d : Diagnostic) :
    d.text = "[line ".toList ++ Text.ofNat d.line ++ "] Error".toList ++ d.location.text
      ++ ": ".toList ++ d.message := rfl

/-- A fault that concerns no place within its line is told in the words of the scan. -/
lemma Scan.Error.text_diagnostic (e : Scan.Error) : e.diagnostic.text = e.text := by
  have hlocation : e.diagnostic.location.text = [] := rfl
  rw [Diagnostic.text_eq, hlocation, text_eq, List.append_nil]
  simp only [List.append_assoc]
  rfl

lemma Scan.Error.report_diagnostic (errors : List Scan.Error) :
    Diagnostic.report (errors.map diagnostic) = report errors := by
  have hlines : (errors.map diagnostic).map Diagnostic.text = errors.map text := by
    simp [text_diagnostic]
  rw [Diagnostic.report, hlines, report]

lemma Parse.Error.report_diagnostic (error : Parse.Error) :
    Diagnostic.report [error.diagnostic] = error.text := by
  rw [Diagnostic.report, List.map_singleton, List.intercalate_singleton, text]

lemma Parse.Error.location_eq_atEnd_iff {tokens : Tokens} {error : Parse.Error}
    (htokens : tokens.Terminated) (h : parse tokens = .error error) :
    error.diagnostic.location = .atEnd ↔ error.index + 1 = tokens.toList.length := by
  have hlength : tokens.toList.length = tokens.body.length + 1 := by simp [Tokens.toList]
  rcases (getElem?_of_parse h).2 with ⟨heof, hindex⟩ | ⟨hbody, hindex⟩
  · simp [diagnostic, heof, htokens.eof, hindex, hlength]
  · simp [diagnostic, htokens.body _ hbody, hlength, Nat.ne_of_lt hindex]

section

variable {mode : Mode} {source : Text} {errors : List Scan.Error} {tokens : Tokens}
  {error : Parse.Error} {e : Expr}

lemma ofSource_of_scan_error (h : scan mode source = .error errors) :
    Expr.ofSource mode source = .error (errors.map Scan.Error.diagnostic) := by
  rw [Expr.ofSource, h]

lemma ofSource_of_parse_error (h : scan mode source = .ok tokens)
    (herror : parse tokens = .error error) :
    Expr.ofSource mode source = .error [error.diagnostic] := by
  simp only [Expr.ofSource, h, herror]

lemma ofSource_of_parse_ok (h : scan mode source = .ok tokens) (he : parse tokens = .ok e) :
    Expr.ofSource mode source = .ok e := by
  simp only [Expr.ofSource, h, he]

end

/-- Faults of the scan are what every way to read a source reports, in their order and in the words
of the scan, and a fault of the grammar is what every way reports that has a tree to show. Then
nothing is written, and otherwise the tree on a line of its own, or each token on one. -/
theorem Command.writer_agrees (mode : Mode) (source : Text) :
    (∀ errors, scan mode source = .error errors → ∃ ds : List Diagnostic,
      List.Forall₂ (fun e d => d.line = e.position.line ∧ d.location = .wholeLine ∧
        d.message = e.fault.message) errors ds ∧
      Diagnostic.report ds = Scan.Error.report errors ∧
      Expr.ofSource mode source = .error ds ∧
      ∀ output file? written, (Options.writer ⟨output, mode, file?⟩ source).outcome written
        = (.error ds, written)) ∧
    (∀ tokens error, scan mode source = .ok tokens → parse tokens = .error error →
      ∃ d : Diagnostic, d.line = error.token.position.line ∧ d.message = error.reason.message ∧
      tokens.toList[error.index]? = some error.token ∧
      (d.location = .atEnd ↔ error.index + 1 = tokens.toList.length) ∧
      Diagnostic.report [d] = error.text ∧
      Expr.ofSource mode source = .error [d] ∧
      ∀ output file? written, output ≠ .tokens →
        (Options.writer ⟨output, mode, file?⟩ source).outcome written = (.error [d], written)) ∧
    (∀ tokens e, scan mode source = .ok tokens → parse tokens = .ok e →
      Expr.ofSource mode source = .ok e ∧
      ∀ file? written,
        (Options.writer ⟨.bracketed, mode, file?⟩ source).outcome written
          = (.ok (), written ++ (e.bracketed ++ ['\n'])) ∧
        (Options.writer ⟨.source, mode, file?⟩ source).outcome written
          = (.ok (), written ++ (e.source ++ ['\n']))) ∧
    (∀ tokens, scan mode source = .ok tokens →
      (∀ t ∈ tokens.toList, '\n' ∉ t.entry) ∧
      ∀ file? written, (Options.writer ⟨.tokens, mode, file?⟩ source).outcome written
        = (.ok (), written ++ tokens.toList.flatMap fun t => t.entry ++ ['\n'])) := by
  refine ⟨fun errors h => ?_, fun tokens error h herror => ?_, fun tokens e h he => ?_,
    fun tokens h => ⟨fun t _ => t.lineFeed_not_mem_entry, fun file? written => ?_⟩⟩
  · have hread := ofSource_of_scan_error h
    refine ⟨_, ?_, Scan.Error.report_diagnostic errors, hread, fun output file? written => ?_⟩
    · rw [List.forall₂_map_right_iff]
      exact List.forall₂_same.mpr fun e _ => ⟨rfl, rfl, rfl⟩
    · rw [Options.outcome_writer]
      cases output <;> simp [Options.print, h, hread, Except.map]
  · have hread := ofSource_of_parse_error h herror
    refine ⟨error.diagnostic, rfl, rfl, (Parse.getElem?_of_parse herror).1,
      Parse.Error.location_eq_atEnd_iff (scan_terminated h) herror,
      error.report_diagnostic, hread, fun output file? written houtput => ?_⟩
    rw [Options.outcome_writer]
    cases output <;> simp_all [Options.print, Except.map]
  · have hread := ofSource_of_parse_ok h he
    refine ⟨hread, fun file? written => ⟨?_, ?_⟩⟩
    · simp [Options.outcome_writer, Options.print, hread, Except.map]
    · simp [Options.outcome_writer, Options.print, hread, Except.map]
  · simp [Options.outcome_writer, Options.print, h, Tokens.listing_eq]

/-- Two faults of the scan are reported whatever is asked for, a missing parenthesis unless the
tokens are, and they are written then. -/
theorem Command.writer_agrees_unclosed :
    scan .strict ['@', '\n', '"']
      = .error [⟨.unexpectedCharacter '@', ⟨1, 1⟩⟩, ⟨.unterminatedString, ⟨2, 1⟩⟩] ∧
    (∃ ds : List Diagnostic, ds.map Diagnostic.line = [1, 2] ∧
      ∀ output file? written,
        (Options.writer ⟨output, .strict, file?⟩ ['@', '\n', '"']).outcome written
          = (.error ds, written)) ∧
    scan .strict ['(', '1'] = .ok ⟨[⟨.symbol .leftParen, ['('], ⟨1, 1⟩⟩,
      ⟨.number (.ofBits 0x3FF0000000000000), ['1'], ⟨1, 2⟩⟩], ⟨.eof, [], ⟨1, 3⟩⟩⟩ ∧
    (∃ d : Diagnostic, d.line = 1 ∧ d.location = .atEnd ∧
      ∀ written, (Options.writer ⟨.bracketed, .strict, none⟩ ['(', '1']).outcome written
        = (.error [d], written)) ∧
    ∀ written, ∃ text, (Options.writer ⟨.tokens, .strict, none⟩ ['(', '1']).outcome written
      = (.ok (), written ++ text) := by
  have herrors : scan .strict ['@', '\n', '"']
      = .error [⟨.unexpectedCharacter '@', ⟨1, 1⟩⟩, ⟨.unterminatedString, ⟨2, 1⟩⟩] := by
    decide +kernel
  have htokens : scan .strict ['(', '1'] = .ok ⟨[⟨.symbol .leftParen, ['('], ⟨1, 1⟩⟩,
      ⟨.number (.ofBits 0x3FF0000000000000), ['1'], ⟨1, 2⟩⟩], ⟨.eof, [], ⟨1, 3⟩⟩⟩ := by
    decide +kernel
  have hparse : parse ⟨[⟨.symbol .leftParen, ['('], ⟨1, 1⟩⟩,
      ⟨.number (.ofBits 0x3FF0000000000000), ['1'], ⟨1, 2⟩⟩], ⟨.eof, [], ⟨1, 3⟩⟩⟩
        = .error ⟨.expectedRightParen, 2, ⟨.eof, [], ⟨1, 3⟩⟩⟩ := by
    decide +kernel
  obtain ⟨ds, hds, -, -, hfaults⟩ :=
    (Command.writer_agrees .strict ['@', '\n', '"']).1 _ herrors
  obtain ⟨-, hgrammar, -, hlisting⟩ := Command.writer_agrees .strict ['(', '1']
  obtain ⟨d, hline, -, -, hatEnd, -, -, hout⟩ := hgrammar _ _ htokens hparse
  refine ⟨herrors, ⟨ds, ?_, hfaults⟩, htokens,
    ⟨d, hline, hatEnd.mpr rfl, fun written => hout .bracketed none written (by decide)⟩,
    fun written => ⟨_, (hlisting _ htokens).2 none written⟩⟩
  obtain _ | ⟨⟨hfirst, -⟩, _ | ⟨⟨hsecond, -⟩, _ | _⟩⟩ := hds
  simp [hfirst, hsecond]

end LoxReader
