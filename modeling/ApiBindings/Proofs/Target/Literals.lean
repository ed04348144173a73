import ApiBindings.Proofs.Json.Spelling
import ApiBindings.Target.Printer

/-!
# Reading string literals

A double-quoted literal is read character by character up to the quote that closes it, with all the
escapes that the language knows outside of sloppy scripts.  Each character of a text is escaped to
something that takes the reader back to where it was, with just this character read; so the literal
of a text ends at its own closing quote, whatever follows, and denotes the text.
-/

namespace ApiBindings.Target.Literal

open ApiBindings.Json (Piece joinPieces? joinPieces?_unit)
open ApiBindings.Text

/-! ## The reader -/

/-- The characters that end a line. -/
def endsLine (c : Char) : Bool :=
  c == '\n' || c == '\r' || c == '\u2028' || c == '\u2029'

/-- The character that a backslash and a letter stand for. Most letters stand for themselves. -/
def shortEscape (letter : Char) : Char :=
  match letter with
  | 'b' => '\x08'
  | 'f' => '\x0c'
  | 'n' => '\n'
  | 'r' => '\r'
  | 't' => '\t'
  | 'v' => '\x0b'
  | letter => letter

/-- What a reader is in the middle of. -/
inductive Mode where
  /-- Nothing but the literal itself. -/
  | text
  /-- An escape, of which nothing but the backslash was read. -/
  | escape
  /-- The escaped digit zero, which another digit must not follow. -/
  | zero
  /-- An escaped carriage return, which a line feed may belong to. -/
  | lineEnd
  /-- An escape by number, behind its letter. -/
  | unicode
  /-- The digits of a number, some of which are missing. -/
  | digits (missing value : Nat)
  /-- The digits of a number between braces, if there were any. -/
  | braced (begun : Bool) (value : Nat)
  deriving Repr, DecidableEq

/-- What comes of a character: pieces of the denoted text, or the end of the literal. -/
inductive Move where
  | pieces (read : List Piece) (next : Mode)
  | close
  deriving Repr

/-- Read a character of the text, which is over with the line at the latest. -/
def textStep (c : Char) : Option Move :=
  if c == '"' then some .close
  else if c == '\\' then some (.pieces [] .escape)
  else if c == '\n' || c == '\r' then none
  else some (.pieces [.char c] .text)

/-- Read a character behind a backslash. Digits other than zero have no meaning there. -/
def escapeStep (c : Char) : Option Move :=
  if c == 'x' then some (.pieces [] (.digits 2 0))
  else if c == 'u' then some (.pieces [] .unicode)
  else if c == '0' then some (.pieces [.char '\x00'] .zero)
  else if c.isDigit then none
  else if c == '\r' then some (.pieces [] .lineEnd)
  else if endsLine c then some (.pieces [] .text)
  else some (.pieces [.char (shortEscape c)] .text)

/-- Read a digit of a number. The last one makes it complete. -/
def digitStep (missing value : Nat) (c : Char) : Option Move :=
  (hexValue? c).map fun digit =>
    if missing ≤ 1 then .pieces [.unit (16 * value + digit)] .text
    else .pieces [] (.digits (missing - 1) (16 * value + digit))

/-- The piece for the number of a character or of half a surrogate pair. -/
def pieceOf (number : Nat) : Piece :=
  if number < 0x10000 then .unit number else .char (Char.ofNat number)

/-- Read a digit of a number between braces, or the closing one. -/
def bracedStep (begun : Bool) (value : Nat) (c : Char) : Option Move :=
  if c == '\x7d' then if begun then some (.pieces [pieceOf value] .text) else none
  else (hexValue? c).bind fun digit =>
    if 0x10FFFF < 16 * value + digit then none
    else some (.pieces [] (.braced true (16 * value + digit)))

/-- Read a character. -/
def Mode.step : Mode → Char → Option Move
  | .text, c => textStep c
  | .escape, c => escapeStep c
  | .zero, c => if c.isDigit then none else textStep c
  | .lineEnd, c => if c == '\n' then some (.pieces [] .text) else textStep c
  | .unicode, c => if c == '\x7b' then some (.pieces [] (.braced false 0)) else digitStep 4 0 c
  | .digits missing value, c => digitStep missing value c
  | .braced begun value, c => bracedStep begun value c

/-- Read to the closing quote: the pieces of the denoted text, and what follows the literal. -/
def scan : Mode → List Char → Option (List Piece × List Char)
  | _, [] => none
  | mode, c :: rest =>
      match mode.step c with
      | none => none
      | some .close => some ([], rest)
      | some (.pieces read next) =>
          (scan next rest).map fun (pieces, after) => (read ++ pieces, after)

/-- Read a literal at the front of a text: the text that it denotes, and what follows it. -/
def read? : List Char → Option (String × List Char)
  | '"' :: rest => do
      let (pieces, after) ← scan .text rest
      return (String.ofList (← joinPieces? pieces), after)
  | _ => none

/-! ## Escaped characters -/

/-- How a character can stand in a literal. -/
inductive Escaped (c : Char) : List Char → Prop where
  | plain (noQuote : c ≠ '"') (noEscape : c ≠ '\\') (onLine : breaksLine c = false) : Escaped c [c]
  | short {letter : Char} (read : Mode.escape.step letter = some (.pieces [.char c] .text))
      (onLine : breaksLine letter = false) : Escaped c ['\\', letter]
  | unit (breaks : breaksLine c = true) : Escaped c ('\\' :: 'u' :: hexQuad c.toNat)

theorem escaped_escapeChar (c : Char) : Escaped c (escapeChar c) := by
  fun_cases escapeChar c
  case case6 breaks => exact .unit breaks
  case case7 noEscape noQuote _ _ _ onLine =>
    simp only [beq_iff_eq] at noEscape noQuote
    exact .plain noQuote noEscape (Bool.eq_false_iff.mpr onLine)
  -- the five characters with a letter of their own
  all_goals
    rename_i same
    rw [eq_of_beq same]
    exact .short rfl (by decide)

theorem toNat_lt_of_breaksLine {c : Char} (breaks : breaksLine c = true) : c.toNat < 0xD800 := by
  simp only [breaksLine, isControl, Bool.or_eq_true, Bool.and_eq_true, decide_eq_true_eq,
    beq_iff_eq] at breaks
  omega

theorem step_of_plain {c : Char} (noQuote : c ≠ '"') (noEscape : c ≠ '\\')
    (onLine : breaksLine c = false) : Mode.text.step c = some (.pieces [.char c] .text) := by
  have noFeed : c ≠ '\n' := by
    rintro rfl
    cases onLine
  have noReturn : c ≠ '\r' := by
    rintro rfl
    cases onLine
  simp [Mode.step, textStep, noQuote, noEscape, noFeed, noReturn]

/-! ## Steps of the reader -/

section Steps

variable {mode next : Mode} {c : Char}

theorem scan_of_silent (step : mode.step c = some (.pieces [] next)) (rest : List Char) :
    scan mode (c :: rest) = scan next rest := by
  rw [scan, step]
  change (scan next rest).map (fun (pieces, after) => ([] ++ pieces, after)) = _
  cases scan next rest <;> rfl

theorem scan_of_piece {piece : Piece} (step : mode.step c = some (.pieces [piece] next))
    (rest : List Char) :
    scan mode (c :: rest) = (scan next rest).map fun read => (piece :: read.1, read.2) := by
  rw [scan, step]
  rfl

end Steps

theorem scan_backslash (rest : List Char) : scan .text ('\\' :: rest) = scan .escape rest :=
  scan_of_silent rfl rest

/-! ## Digits -/

section Digits

variable {digit value : Nat} (small : digit < 16) (rest : List Char)

include small

theorem scan_unicode :
    scan .unicode (hexDigit digit :: rest) = scan (.digits 4 0) (hexDigit digit :: rest) := by
  have noBrace : hexDigit digit ≠ '\x7b' := by
    intro brace
    have value := hexValue?_hexDigit small
    rw [brace] at value
    cases value
  simp only [scan, Mode.step, beq_iff_eq, noBrace, if_false]

theorem scan_digits (missing : Nat) :
    scan (.digits (missing + 2) value) (hexDigit digit :: rest) =
      scan (.digits (missing + 1) (16 * value + digit)) rest := by
  apply scan_of_silent
  simp [Mode.step, digitStep, hexValue?_hexDigit small]

theorem scan_lastDigit :
    scan (.digits 1 value) (hexDigit digit :: rest) =
      (scan .text rest).map fun read => (.unit (16 * value + digit) :: read.1, read.2) := by
  apply scan_of_piece
  simp [Mode.step, digitStep, hexValue?_hexDigit small]

end Digits

/-- The four digits of a number are read as the number. -/
theorem scan_hexQuad {number : Nat} (small : number < 0x10000) (rest : List Char) :
    scan .unicode (hexQuad number ++ rest) =
      (scan .text rest).map fun read => (.unit number :: read.1, read.2) := by
  have digit (part : Nat) : part % 16 < 16 := Nat.mod_lt part (by decide)
  have whole : 16 * (16 * (16 * (16 * 0 + number / 4096 % 16) + number / 256 % 16) +
      number / 16 % 16) + number % 16 = number := by omega
  simp only [hexQuad, List.cons_append, List.nil_append]
  rw [scan_unicode (digit _), scan_digits (digit _), scan_digits (digit _), scan_digits (digit _),
    scan_lastDigit (digit _), whole]

/-! ## Escaped texts -/

/-- A reader is through with a character as soon as its spelling is read. -/
theorem scan_escaped {c : Char} {spelling : List Char} (escaped : Escaped c spelling) :
    ∃ piece, (∀ rest, scan .text (spelling ++ rest) =
        (scan .text rest).map fun read => (piece :: read.1, read.2)) ∧
      ∀ pieces, joinPieces? (piece :: pieces) = (joinPieces? pieces).map (c :: ·) := by
  cases escaped with
  | plain noQuote noEscape onLine =>
      refine ⟨.char c, ?_, fun _ => rfl⟩
      exact scan_of_piece (step_of_plain noQuote noEscape onLine)
  | short read =>
      refine ⟨.char c, ?_, fun _ => rfl⟩
      intro rest
      rw [List.cons_append, scan_backslash]
      exact scan_of_piece read rest
  | unit breaks =>
      have small := toNat_lt_of_breaksLine breaks
      refine ⟨.unit c.toNat, ?_, ?_⟩
      · intro rest
        rw [List.cons_append, scan_backslash, List.cons_append, scan_of_silent rfl]
        exact scan_hexQuad (Nat.lt_trans small (by decide)) rest
      · intro pieces
        rw [joinPieces?_unit small, Char.ofNat_toNat]

theorem scan_escapeChars (text after : List Char) :
    ∃ pieces, scan .text (escapeChars text ++ '"' :: after) = some (pieces, after) ∧
      joinPieces? pieces = some text := by
  induction text with
  | nil => exact ⟨[], rfl, rfl⟩
  | cons c rest ih =>
      obtain ⟨pieces, scanned, joined⟩ := ih
      obtain ⟨piece, scan, join⟩ := scan_escaped (escaped_escapeChar c)
      refine ⟨piece :: pieces, ?_, ?_⟩
      · rw [escapeChars, List.flatMap_cons, List.append_assoc, scan]
        rw [escapeChars] at scanned
        rw [scanned]
        rfl
      · rw [join, joined]
        rfl

theorem toList_quote (text : String) :
    (quote text).toList = '"' :: (escapeChars text.toList ++ ['"']) := by
  simp [quote, escape]

/-- The literal of a text is read as the text, and reading it ends where the literal does. -/
theorem read?_quote (text : String) (after : List Char) :
    read? ((quote text).toList ++ after) = some (text, after) := by
  obtain ⟨pieces, scanned, joined⟩ := scan_escapeChars text.toList after
  rw [toList_quote, List.cons_append, List.append_assoc, List.singleton_append, read?, scanned]
  simp [joined]

example :
    read? ((quote "\"\\\n").toList ++ "\\\"".toList) = some ("\"\\\n", "\\\"".toList) := by
  decide +kernel

/-! ## Lines -/

theorem breaksLine_hexDigit {digit : Nat} (small : digit < 16) :
    breaksLine (hexDigit digit) = false := by
  have all : ∀ digit < 16, breaksLine (hexDigit digit) = false := by decide
  exact all digit small

theorem breaksLine_of_mem_hexQuad {number : Nat} {c : Char} (member : c ∈ hexQuad number) :
    breaksLine c = false := by
  have digit (part : Nat) : breaksLine (hexDigit (part % 16)) = false :=
    breaksLine_hexDigit (Nat.mod_lt part (by decide))
  simp only [hexQuad, List.mem_cons, List.not_mem_nil, or_false] at member
  rcases member with rfl | rfl | rfl | rfl
  all_goals exact digit _

/-- Whatever character is escaped, what stands for it does not break the line. -/
theorem Escaped.breaksLine_of_mem {source c : Char} {spelling : List Char}
    (escaped : Escaped source spelling) (member : c ∈ spelling) : breaksLine c = false := by
  cases escaped with
  | plain noQuote noEscape onLine =>
      rwa [List.mem_singleton.mp member]
  | short read onLine =>
      simp only [List.mem_cons, List.not_mem_nil, or_false] at member
      rcases member with rfl | rfl
      · decide
      · exact onLine
  | unit breaks =>
      simp only [List.mem_cons] at member
      rcases member with rfl | rfl | digit
      · decide
      · decide
      · exact breaksLine_of_mem_hexQuad digit

theorem breaksLine_of_mem_escapeChars {text : List Char} {c : Char}
    (member : c ∈ escapeChars text) : breaksLine c = false := by
  obtain ⟨source, -, inside⟩ := List.mem_flatMap.mp member
  exact (escaped_escapeChar source).breaksLine_of_mem inside

/-- The literal of a text stays on one line, whatever the text is. -/
theorem breaksLine_of_mem_quote {text : String} {c : Char} (member : c ∈ (quote text).toList) :
    breaksLine c = false := by
  rw [toList_quote, List.mem_cons, List.mem_append, List.mem_singleton] at member
  rcases member with rfl | inside | rfl
  · decide
  · exact breaksLine_of_mem_escapeChars inside
  · decide

/-- A text that cannot get out of the literal that is made of it. -/
structure Contained (text : String) : Prop where
  onLine : ∀ c ∈ (escape text).toList, isControl c = false ∧ c ≠ '\u2028' ∧ c ≠ '\u2029'
  /-- The literal is over at its own closing quote, and denotes the text. -/
  read : ∀ after, read? ('"' :: ((escape text).toList ++ '"' :: after)) = some (text, after)

theorem contained (text : String) : Contained text where
  onLine := by
    intro c member
    rw [escape, String.toList_ofList] at member
    have onLine := breaksLine_of_mem_escapeChars member
    refine ⟨?_, ?_, ?_⟩
    · rw [breaksLine, Bool.or_eq_false_iff, Bool.or_eq_false_iff] at onLine
      exact onLine.1.1
    all_goals
      rintro rfl
      cases onLine
  read := by
    intro after
    have read := read?_quote text after
    rwa [toList_quote, List.cons_append, List.append_assoc, List.singleton_append,
      ← String.toList_ofList (l := escapeChars text.toList)] at read

/-- How often a line ends in a text. A carriage return ends it together with the line feed behind
it. -/
def lineEnds : List Char → Nat
  | [] => 0
  | '\r' :: '\n' :: rest => lineEnds rest + 1
  | c :: rest => lineEnds rest + if endsLine c then 1 else 0

theorem lineEnds_cons {c : Char} {rest : List Char}
    (single : c = '\r' → rest.head? ≠ some '\n') :
    lineEnds (c :: rest) = lineEnds rest + if endsLine c then 1 else 0 := by
  rw [lineEnds]
  rintro others rfl rfl
  exact single rfl rfl

theorem lineEnds_append (first : List Char) {second : List Char}
    (free : second.head? ≠ some '\n') :
    lineEnds (first ++ second) = lineEnds first + lineEnds second := by
  fun_induction lineEnds first with
  | case1 => simp
  | case2 rest ih =>
      rw [List.cons_append, List.cons_append, lineEnds, ih]
      omega
  | case3 c rest single ih =>
      rw [List.cons_append, lineEnds_cons, ih]
      · omega
      · -- a line feed behind the character would be the first of the second text
        intro carriage head
        cases rest with
        | nil => exact free head
        | cons next others =>
            obtain rfl := Option.some.inj head
            exact single others carriage rfl

theorem endsLine_eq_false {c : Char} (onLine : breaksLine c = false) : endsLine c = false := by
  cases ends : endsLine c with
  | false => rfl
  | true =>
      simp only [endsLine, Bool.or_eq_true, beq_iff_eq] at ends
      rcases ends with ((rfl | rfl) | rfl) | rfl <;> cases onLine

/-- Text that does not break the line is on the line of what follows it. -/
theorem lineEnds_append_of_onLine {line : List Char}
    (onLine : ∀ c ∈ line, breaksLine c = false) (rest : List Char) :
    lineEnds (line ++ rest) = lineEnds rest := by
  induction line with
  | nil => rfl
  | cons c line ih =>
      rw [List.forall_mem_cons] at onLine
      rw [List.cons_append, lineEnds_cons, ih onLine.2, endsLine_eq_false onLine.1]
      · rfl
      · rintro rfl
        cases onLine.1

section Around

variable (before after value : String)

theorem toList_around :
    (before ++ quote value ++ after).toList =
      before.toList ++ ((quote value).toList ++ after.toList) := by
  rw [String.toList_append, String.toList_append, List.append_assoc]

/-- A literal adds no line to the text around it. -/
theorem lineEnds_around :
    lineEnds (before ++ quote value ++ after).toList =
      lineEnds before.toList + lineEnds after.toList := by
  rw [toList_around, lineEnds_append,
    lineEnds_append_of_onLine fun _ member => breaksLine_of_mem_quote member]
  simp [toList_quote]

theorem count_around {c : Char} (breaks : breaksLine c = true) :
    (before ++ quote value ++ after).toList.count c =
      before.toList.count c + after.toList.count c := by
  have absent : c ∉ (quote value).toList := by
    intro member
    rw [breaksLine_of_mem_quote member] at breaks
    cases breaks
  rw [toList_around, List.count_append, List.count_append, List.count_eq_zero.mpr absent,
    Nat.zero_add]

end Around

end ApiBindings.Target.Literal
