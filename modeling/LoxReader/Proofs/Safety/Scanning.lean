import LoxReader.Proofs.Safety.Access

/-!
# Scanning with guards

The loop over the characters of a source, as it runs on two places in it: each access to the source
and each step is guarded, and there is no result once a guard fails. The guards never fail, and the
loop ends with the tokens of the source, or with its errors.
-/

namespace LoxReader

namespace Guarded

/-- Where the token that is read starts, how far it has been read, and what was found before. -/
structure Scanner where
  start : Place
  current : Place
  tokens : List Token
  errors : List Scan.Error

namespace Scanner

variable (source : Text) (s : Scanner)

def lexeme : Option Text := sliceUntil source s.start s.current

def addToken (content : Content) : Option Scanner := do
  return { s with tokens := s.tokens ++ [⟨content, ← s.lexeme source, s.start.position⟩] }

def addError (fault : Scan.Fault) : Scanner :=
  { s with errors := s.errors ++ [⟨fault, s.start.position⟩] }

def next : Option Scanner := do
  return { s with current := ← Guarded.next source s.current }

def skip (c : Char) : Option (Bool × Scanner) := do
  let (skipped, current) ← Guarded.skip source c s.current
  return (skipped, { s with current })

def skipWhile (p : Char → Bool) : Option Scanner := do
  return { s with current := ← Guarded.skipWhile source p (source.length + 1) s.current }

/-- A string, behind its opening quote. -/
def string : Option Scanner := do
  let s ← s.skipWhile source (· ≠ '"')
  let (closed, s) ← s.skip source '"'
  if closed then s.addToken source (.string (← unquote (← s.lexeme source)))
  else return s.addError .unterminatedString

def addNumber : Option Scanner := do
  s.addToken source (.number (← Binary64.ofText? (← s.lexeme source)))

/-- A number, behind its first digit: a point belongs to it only in front of another digit. -/
def number : Option Scanner := do
  let s ← s.skipWhile source Char.isDigit
  if s.current.peek? = some '.' ∧ s.current.peekSecond?.any Char.isDigit then
    let s ← s.next source
    let s ← s.skipWhile source Char.isDigit
    s.addNumber source
  else s.addNumber source

/-- A keyword or an identifier, behind its first character. -/
def name : Option Scanner := do
  let s ← s.skipWhile source continuesName
  s.addToken source ((Keyword.ofText? (← s.lexeme source)).elim .identifier .keyword)

/-- A comment or a symbol, behind a slash. -/
def slash : Option Scanner := do
  let (doubled, s) ← s.skip source '/'
  if doubled then s.skipWhile source (· ≠ '\n') else s.addToken source (.symbol .slash)

def symbol (symbol : Symbol) : Option Scanner :=
  match symbol.withEqual? with
  | some longer => do
    let (followed, s) ← s.skip source '='
    s.addToken source (.symbol (if followed then longer else symbol))
  | none => s.addToken source (.symbol symbol)

/-- One turn of the loop, behind the character `c`. -/
def turn (mode : Mode) (c : Char) : Option Scanner :=
  match Symbol.ofChar? c with
  | some .slash => s.slash source
  | some symbol => s.symbol source symbol
  | none =>
    if c = '"' then s.string source
    else if c.isDigit then s.number source
    else if startsName c then s.name source
    else if isBlank c then return s
    else
      match mode with
      | .strict  => return s.addError (.unexpectedCharacter c)
      | .lenient => return s

/-- Turn after turn up to the end of the source, as long as there are turns. -/
def loop (mode : Mode) : Nat → Scanner → Option Scanner
  | 0, _         => none
  | turns + 1, s =>
    let s := { s with start := s.current }
    match s.current.peek? with
    | none   => return s
    | some c => do
      let s ← turn source (← s.next source) mode c
      loop mode turns s

end Scanner

/-- The tokens of a source or its errors, if no guard fails. -/
def scan (mode : Mode) (source : Text) : Option (Except (List Scan.Error) Tokens) := do
  let s ← Scanner.loop source mode (source.length + 1) ⟨.start source, .start source, [], []⟩
  return if s.errors = [] then .ok ⟨s.tokens, ⟨.eof, [], s.current.position⟩⟩ else .error s.errors

variable {source before text run ahead rest : Text} {c : Char} {p : Char → Bool} {mode : Mode}
  {tokens : List Token} {errors : List Scan.Error}

namespace Scanner

/-! ### One turn of the loop -/

/-- A scanner behind the text `before`: it has read `text` since, and `ahead` is left. -/
def amid (before text ahead : Text) (tokens : List Token) (errors : List Scan.Error) : Scanner :=
  ⟨Split.place ⟨before, text ++ ahead⟩, Split.place ⟨before ++ text, ahead⟩, tokens, errors⟩

/-- In front of `rest` one piece is read, and what it is has been added: a token, an error, or
nothing. -/
def Reads (mode : Mode) (before rest : Text) (tokens : List Token) (errors : List Scan.Error)
    (s? : Option Scanner) : Prop :=
  ∃ shape text ahead, rest = text ++ ahead ∧ Piece shape text ahead ∧
    s? = some (amid before text ahead
      (tokens ++ (Segment.token? ⟨shape, text, .behind before⟩).toList)
      (errors ++ (Segment.error? mode ⟨shape, text, .behind before⟩).toList))

lemma lexeme_amid (h : source = before ++ text ++ ahead) :
    (amid before text ahead tokens errors).lexeme source = some text :=
  sliceUntil_place h

lemma next_amid (h : source = before ++ text ++ c :: ahead) :
    (amid before text (c :: ahead) tokens errors).next source
      = some (amid before (text ++ [c]) ahead tokens errors) := by
  simp [next, amid, next_place h]

lemma skip_amid (h : source = before ++ text ++ c :: ahead) :
    (amid before text (c :: ahead) tokens errors).skip source c
      = some (true, amid before (text ++ [c]) ahead tokens errors) := by
  simp [skip, amid, skip_place h]

lemma skip_amid_of_ne (h : ahead.head? ≠ some c) :
    (amid before text ahead tokens errors).skip source c
      = some (false, amid before text ahead tokens errors) := by
  simp [skip, amid, skip_place_of_ne h]

lemma skipWhile_amid (h : source = before ++ text ++ (run ++ ahead)) (hrun : ∀ c ∈ run, p c)
    (hstop : ∀ c ∈ ahead.head?, p c = false) :
    (amid before text (run ++ ahead) tokens errors).skipWhile source p
      = some (amid before (text ++ run) ahead tokens errors) := by
  have hlength : (run ++ ahead).length < source.length + 1 := by
    simp only [h, List.length_append]
    omega
  have hplace := skipWhile_place (p := p) h hlength
  rw [takeWhile_append_of_stop hrun hstop, dropWhile_append_of_stop hrun hstop] at hplace
  simp [skipWhile, amid, hplace]

lemma reads_token {content : Content} (h : source = before ++ text ++ ahead)
    (hpiece : Piece (.token content) text ahead) :
    Reads mode before (text ++ ahead) tokens errors
      ((amid before text ahead tokens errors).addToken source content) := by
  refine ⟨_, text, ahead, rfl, hpiece, ?_⟩
  rw [addToken, lexeme_amid h]
  simp [amid, Segment.token?, Segment.error?, Split.place]

lemma reads_error {shape : Shape} {fault : Scan.Fault} (hpiece : Piece shape text ahead)
    (htoken : Segment.token? ⟨shape, text, .behind before⟩ = none)
    (herror : Segment.error? mode ⟨shape, text, .behind before⟩ = some ⟨fault, .behind before⟩) :
    Reads mode before (text ++ ahead) tokens errors
      (some ((amid before text ahead tokens errors).addError fault)) := by
  refine ⟨shape, text, ahead, rfl, hpiece, ?_⟩
  rw [htoken, herror, Option.toList_none, List.append_nil]
  rfl

lemma reads_nothing {shape : Shape} (hpiece : Piece shape text ahead)
    (htoken : Segment.token? ⟨shape, text, .behind before⟩ = none)
    (herror : Segment.error? mode ⟨shape, text, .behind before⟩ = none) :
    Reads mode before (text ++ ahead) tokens errors
      (some (amid before text ahead tokens errors)) := by
  refine ⟨shape, text, ahead, rfl, hpiece, ?_⟩
  rw [htoken, herror, Option.toList_none, Option.toList_none, List.append_nil, List.append_nil]

lemma reads_value {x : Binary64} (h : source = before ++ text ++ ahead)
    (hlexeme : Lexeme (.number x) text) (hrest : (Content.number x).EndsBefore text ahead) :
    Reads mode before (text ++ ahead) tokens errors
      ((amid before text ahead tokens errors).addNumber source) := by
  rw [addNumber, lexeme_amid h, Option.bind_eq_bind, Option.bind_some,
    ofText?_eq_some_iff.mpr hlexeme, Option.bind_eq_bind, Option.bind_some]
  exact reads_token h (.token hlexeme hrest)

/-- Two characters of looking ahead tell whether a point and a digit are in front. -/
lemma peek_point_iff :
    ((amid before text ahead tokens errors).current.peek? = some '.' ∧
        (amid before text ahead tokens errors).current.peekSecond?.any Char.isDigit) ↔
      ∃ d others, ahead = '.' :: d :: others ∧ d.isDigit := by
  constructor
  · rintro ⟨hpeek, hsecond⟩
    match ahead with
    | [] => cases hpeek
    | [_] => cases hsecond
    | _ :: d :: others =>
      cases hpeek
      exact ⟨d, others, rfl, hsecond⟩
  · rintro ⟨d, others, rfl, hd⟩
    exact ⟨rfl, hd⟩

/-- Behind the point all the digits are taken, of which the first one is known. -/
lemma skipWhile_fraction {d : Char} {fraction : Text}
    (h : source = before ++ text ++ '.' :: d :: (fraction ++ ahead)) (hd : d.isDigit)
    (hfraction : ∀ e ∈ fraction, e.isDigit) (hstop : ∀ e ∈ ahead.head?, e.isDigit = false) :
    (amid before (text ++ ['.']) (d :: (fraction ++ ahead)) tokens errors).skipWhile source
        Char.isDigit
      = some (amid before (text ++ '.' :: d :: fraction) ahead tokens errors) := by
  have hrun : ∀ e ∈ d :: fraction, e.isDigit := List.forall_mem_cons.mpr ⟨hd, hfraction⟩
  have hsource : source = before ++ (text ++ ['.']) ++ (d :: fraction ++ ahead) := by simpa using h
  rw [← List.cons_append, skipWhile_amid hsource hrun hstop, List.append_assoc,
    List.singleton_append]

lemma reads_number (hc : c.isDigit) (h : source = before ++ [c] ++ rest) :
    Reads mode before (c :: rest) tokens errors
      ((amid before [c] rest tokens errors).number source) := by
  obtain ⟨digits, ahead, rfl, hdigits, hstop⟩ := exists_run Char.isDigit rest
  have hsource : source = before ++ (c :: digits) ++ ahead := by simpa using h
  simp only [number, skipWhile_amid h hdigits hstop, Option.bind_eq_bind, Option.bind_some,
    List.singleton_append]
  split_ifs with hpoint <;> rw [peek_point_iff] at hpoint
  · obtain ⟨d, others, rfl, hd⟩ := hpoint
    obtain ⟨fraction, ahead, rfl, hfraction, hbehind⟩ := exists_run Char.isDigit others
    have hlexeme : c :: (digits ++ '.' :: d :: (fraction ++ ahead))
        = c :: (digits ++ '.' :: d :: fraction) ++ ahead := by simp
    rw [next_amid hsource, Option.bind_some,
      skipWhile_fraction hsource hd hfraction hbehind, Option.bind_some, hlexeme]
    refine reads_value (by simpa using h) (.fraction hc hdigits hd hfraction) ⟨hbehind, ?_⟩
    exact fun hnone => absurd (by simp) hnone
  · rw [← List.cons_append]
    refine reads_value hsource (.integer hc hdigits) ⟨hstop, fun _ d left hleft => ?_⟩
    exact Bool.eq_false_iff.mpr fun hd => hpoint ⟨d, left, hleft, hd⟩

lemma reads_name (hc : startsName c) (h : source = before ++ [c] ++ rest) :
    Reads mode before (c :: rest) tokens errors
      ((amid before [c] rest tokens errors).name source) := by
  obtain ⟨others, ahead, rfl, hothers, hstop⟩ := exists_run continuesName rest
  have hsource : source = before ++ (c :: others) ++ ahead := by simpa using h
  rw [name, skipWhile_amid h hothers hstop, Option.bind_eq_bind, Option.bind_some,
    List.singleton_append, lexeme_amid hsource, Option.bind_eq_bind, Option.bind_some]
  refine reads_token hsource ?_
  cases hk : Keyword.ofText? (c :: others) with
  | some k => exact .token (Keyword.lexeme_of_ofText? hk) hstop
  | none => exact .token (IsName.lexeme ⟨c, others, rfl, hc, hothers⟩ hk) hstop

lemma reads_string (h : source = before ++ ['"'] ++ rest) :
    Reads mode before ('"' :: rest) tokens errors
      ((amid before ['"'] rest tokens errors).string source) := by
  obtain ⟨value, ahead, rfl, hvalue, hstop⟩ := exists_run (· ≠ '"') rest
  have hquote : '"' ∉ value := fun hmem => by simpa using hvalue _ hmem
  rw [string, skipWhile_amid h hvalue hstop, Option.bind_eq_bind, Option.bind_some]
  cases ahead with
  | nil =>
    rw [skip_amid_of_ne (by simp), Option.bind_eq_bind, Option.bind_some]
    exact reads_error (.unclosed hquote) rfl rfl
  | cons quote ahead =>
    obtain rfl : quote = '"' := by simpa using hstop
    have hsource : source = before ++ (['"'] ++ value ++ ['"']) ++ ahead := by simpa using h
    have hrest : '"' :: (value ++ '"' :: ahead) = ['"'] ++ value ++ ['"'] ++ ahead := by simp
    have hskip : (amid before (['"'] ++ value) ('"' :: ahead) tokens errors).skip source '"'
        = some (true, amid before (['"'] ++ value ++ ['"']) ahead tokens errors) :=
      skip_amid (by simpa using h)
    simp only [hskip, hrest, lexeme_amid hsource, unquote_append, Option.bind_eq_bind,
      Option.bind_some, ↓reduceIte]
    exact reads_token hsource (.token (.string hquote) trivial)

/-- A second slash opens a comment, and otherwise the first one is a symbol. -/
lemma reads_slash (h : source = before ++ ['/'] ++ rest) :
    Reads mode before ('/' :: rest) tokens errors
      ((amid before ['/'] rest tokens errors).slash source) := by
  rw [slash]
  by_cases hrest : rest.head? = some '/'
  · obtain ⟨rest, rfl⟩ := List.head?_eq_some_iff.mp hrest
    obtain ⟨body, ahead, rfl, hbody, hstop⟩ := exists_run (· ≠ '\n') rest
    have hlineFeed : '\n' ∉ body := fun hmem => by simpa using hbody _ hmem
    have hskip : (amid before (['/'] ++ ['/']) (body ++ ahead) tokens errors).skipWhile source
        (· ≠ '\n') = some (amid before (['/'] ++ ['/'] ++ body) ahead tokens errors) :=
      skipWhile_amid (by simpa using h) hbody hstop
    simp only [skip_amid h, hskip, Option.bind_eq_bind, Option.bind_some, ↓reduceIte]
    exact reads_nothing (.comment hlineFeed fun c hc => by simpa using hstop c hc) rfl rfl
  · simp only [skip_amid_of_ne hrest, Option.bind_eq_bind, Option.bind_some, Bool.false_eq_true,
      ↓reduceIte]
    exact reads_token h (.token (.symbol rfl) ⟨fun hequal => absurd rfl hequal, fun _ => hrest⟩)

/-- An equals sign is taken by the symbols that it makes another one of. -/
lemma reads_symbol {s : Symbol} (hs : Symbol.ofChar? c = some s) (hslash : s ≠ .slash)
    (h : source = before ++ [c] ++ rest) :
    Reads mode before (c :: rest) tokens errors
      ((amid before [c] rest tokens errors).symbol source s) := by
  have hlexeme : Lexeme (.symbol s) [c] := .symbol (Symbol.spelling_of_ofChar? hs)
  rw [symbol]
  split
  next longer hlonger =>
    by_cases hrest : rest.head? = some '='
    · obtain ⟨rest, rfl⟩ := List.head?_eq_some_iff.mp hrest
      have hspelling := Symbol.spelling_of_withEqual? hlonger
      rw [Symbol.spelling_of_ofChar? hs] at hspelling
      have hnone : longer.withEqual? = none ∧ longer ≠ .slash := by
        cases s <;> cases hlonger <;> decide
      simp only [skip_amid h, Option.bind_eq_bind, Option.bind_some, ↓reduceIte]
      exact reads_token (by simpa using h) (.token (.symbol hspelling)
        ⟨fun hequal => absurd hnone.1 hequal, fun hslash => absurd hslash hnone.2⟩)
    · simp only [skip_amid_of_ne hrest, Option.bind_eq_bind, Option.bind_some, Bool.false_eq_true,
        ↓reduceIte]
      exact reads_token h (.token hlexeme ⟨fun _ => hrest, fun heq => absurd heq hslash⟩)
  next hnone =>
    exact reads_token h (.token hlexeme
      ⟨fun hequal => absurd hnone hequal, fun heq => absurd heq hslash⟩)

/-- A turn of the loop reads the piece in front. -/
lemma reads_turn (h : source = before ++ [c] ++ rest) :
    Reads mode before (c :: rest) tokens errors
      (turn source (amid before [c] rest tokens errors) mode c) := by
  unfold turn
  split
  next hs =>
    cases Symbol.spelling_of_ofChar? hs
    exact reads_slash h
  next s hslash hs => exact reads_symbol hs hslash h
  next hs =>
    split_ifs with hquote hdigit hname hblank
    · subst hquote
      exact reads_string h
    · exact reads_number hdigit h
    · exact reads_name hname h
    · exact reads_nothing (.blank hblank) rfl rfl
    · have hstray : StartsNothing c := startsNothing_iff.mpr ⟨Bool.eq_false_iff.mpr hblank,
        Bool.eq_false_iff.mpr hdigit, Bool.eq_false_iff.mpr hname, hquote, hs⟩
      cases mode with
      | strict => exact reads_error (.stray hstray) rfl rfl
      | lenient => exact reads_nothing (.stray hstray) rfl rfl

/-! ### The whole source -/

/-- The loop reads all the segments that are left, each of them in one turn. -/
lemma loop_eq {turns : Nat} {a : Place} (h : source = before ++ rest)
    (hturns : rest.length < turns) :
    loop source mode turns ⟨a, Split.place ⟨before, rest⟩, tokens, errors⟩
      = some ⟨Split.place ⟨source, []⟩, Split.place ⟨source, []⟩,
          tokens ++ (segments (.behind before) rest).filterMap Segment.token?,
          errors ++ (segments (.behind before) rest).filterMap (Segment.error? mode)⟩ := by
  induction turns generalizing a before rest tokens errors with
  | zero => exact absurd hturns (Nat.not_lt_zero _)
  | succ turns ih =>
    cases rest with
    | nil =>
      obtain rfl : source = before := by simpa using h
      simp [loop, segments, Place.peek?, Split.place]
    | cons c rest =>
      have hstart : source = before ++ [] ++ c :: rest := by simpa using h
      have hsource : source = before ++ [c] ++ rest := by simpa using h
      have hnext : Scanner.next source ⟨Split.place ⟨before, c :: rest⟩,
          Split.place ⟨before, c :: rest⟩, tokens, errors⟩
            = some (amid before [c] rest tokens errors) := by
        simpa [amid] using @next_amid source before [] rest c tokens errors hstart
      have hreads : Reads mode before (c :: rest) tokens errors
          (turn source (amid before [c] rest tokens errors) mode c) := reads_turn hsource
      obtain ⟨shape, text, ahead, hrest, hpiece, hturn⟩ := hreads
      have hlength : ahead.length < turns := by
        have hpos := List.length_pos_iff.mpr hpiece.ne_nil
        have hsum := congrArg List.length hrest
        rw [List.length_append] at hsum
        omega
      have hahead : source = before ++ text ++ ahead := by rw [h, hrest, List.append_assoc]
      have hpeek : (Split.place ⟨before, c :: rest⟩).peek? = some c := rfl
      simp only [loop, hpeek, hnext, hturn, Option.bind_eq_bind, Option.bind_some]
      rw [amid, ih hahead hlength, hrest, segments_of_piece hpiece, Position.after_behind]
      simp only [List.filterMap_eq_flatMap_toList, List.flatMap_cons, List.append_assoc]

end Scanner

/-- No guard fails on any source, and what is found are its tokens or its errors. -/
lemma scan_eq (mode : Mode) (source : Text) :
    scan mode source = some (LoxReader.scan mode source) := by
  have hloop : Scanner.loop source mode (source.length + 1)
      ⟨.start source, .start source, [], []⟩ = _ :=
    Scanner.loop_eq (List.nil_append source).symm (Nat.lt_succ_self source.length)
  rw [scan, hloop]
  simp only [Option.bind_eq_bind, Option.bind_some, List.nil_append, LoxReader.scan,
    Position.after_start]
  have hbehind : Position.behind [] = .start := rfl
  rw [hbehind]
  split_ifs with herrors
  · rw [herrors]
    rfl
  · split
    next hnone => exact absurd hnone herrors
    next => rfl

end Guarded

end LoxReader
