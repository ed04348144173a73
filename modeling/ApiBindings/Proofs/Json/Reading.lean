import ApiBindings.Json.Printer
import ApiBindings.Json.Reader
import ApiBindings.Proofs.Json.Spelling

/-!
# Printed documents are read back

Both layouts of a document are texts of the same row of tokens, with gaps between them if it is
indented.  Cutting such a text gives the tokens whatever comes after it, so that texts can be put
together like the tokens they are cut into.  Reading the tokens of a value completes it under any
open containers, and they take up what follows.
-/

namespace ApiBindings.Json

open Token (isGap isWordChar ofMark? ofWord? tokenize?)
open Reader (Frame State step complete)

/-- Documents whose strings are spelled with as few escapes as the format allows. All documents that
are written are made this way, and none of them has numbers. -/
inductive Written : Json → Prop where
  | null : Written .null
  | bool (value : Bool) : Written (.bool value)
  | string (text : List Char) : Written (.string (spell text))
  | array {items : List Json} (written : ∀ item ∈ items, Written item) : Written (.array items)
  | object {members : List (List Char × Json)}
      (keys : ∀ member ∈ members, ∃ name, member.1 = spell name)
      (written : ∀ member ∈ members, Written member.2) : Written (.object members)

mutual

/-- The tokens that a document is printed with. -/
def tokens : Json → List Token
  | .array items => .openArray :: itemTokens items
  | .object members => .openObject :: memberTokens members
  | .string spelling => [.text spelling]
  | value => [.word value]

/-- The tokens of the items of an array and its end. -/
def itemTokens : List Json → List Token
  | [] => [.closeArray]
  | [item] => item.tokens ++ [.closeArray]
  | item :: rest => item.tokens ++ .comma :: itemTokens rest

/-- The tokens of the members of an object and its end. -/
def memberTokens : List (List Char × Json) → List Token
  | [] => [.closeObject]
  | [(key, value)] => .text key :: .colon :: (value.tokens ++ [.closeObject])
  | (key, value) :: rest => .text key :: .colon :: (value.tokens ++ .comma :: memberTokens rest)

end

/-! ## Cutting a text -/

theorem tokenize?_gap {c : Char} {rest : List Char} (gap : isGap c = true) :
    tokenize? (c :: rest) = tokenize? rest := by
  rw [tokenize?, if_pos gap]

theorem tokenize?_mark {c : Char} {mark : Token} {rest : List Char}
    (marked : ofMark? c = some mark) :
    tokenize? (c :: rest) = (tokenize? rest).map (mark :: ·) := by
  have other (d : Char) (unmarked : ofMark? d = none) : c ≠ d := by
    intro same
    rw [same, unmarked] at marked
    cases marked
  have noGap : isGap c = false := by
    simp [isGap, other ' ' rfl, other '\n' rfl, other '\r' rfl, other '\t' rfl]
  simp [tokenize?, noGap, other '"' rfl, marked]

theorem tokenize?_quoted (text rest : List Char) :
    tokenize? (quoted (spell text) ++ rest) = (tokenize? rest).map (.text (spell text) :: ·) := by
  have whole := splitString?_spell text rest
  rw [quoted, List.cons_append, List.cons_append, List.append_assoc, List.singleton_append,
    tokenize?, if_neg (by decide), if_pos (by decide)]
  split
  · rename_i spelling after split
    cases whole.symm.trans split
    rfl
  · rename_i split
    cases whole.symm.trans split

theorem tokenize?_word {c : Char} {letters rest : List Char} {value : Token}
    (word : (c :: letters).all isWordChar = true) (named : ofWord? (c :: letters) = some value)
    (ends : ∀ next ∈ rest.head?, isWordChar next = false) :
    tokenize? (c :: letters ++ rest) = (tokenize? rest).map (value :: ·) := by
  rw [List.all_cons, Bool.and_eq_true] at word
  obtain ⟨first, inside⟩ := word
  have other (d : Char) (mark : isWordChar d = false) : c ≠ d := by
    intro same
    rw [← same, first] at mark
    cases mark
  have unmarked : ofMark? c = none := by
    simp [ofMark?, other '[' rfl, other ']' rfl, other '\x7b' rfl, other '\x7d' rfl, other ',' rfl,
      other ':' rfl]
  have noGap : isGap c = false := by
    simp [isGap, other ' ' rfl, other '\n' rfl, other '\r' rfl, other '\t' rfl]
  have taken : (letters ++ rest).takeWhile isWordChar = letters := by
    rw [List.takeWhile_append_of_pos (List.all_eq_true.mp inside)]
    cases rest with
    | nil => exact List.append_nil letters
    | cons next after => simp [ends next rfl]
  have dropped : (letters ++ rest).dropWhile isWordChar = rest := by
    rw [List.dropWhile_append_of_pos (List.all_eq_true.mp inside)]
    cases rest with
    | nil => rfl
    | cons next after => simp [ends next rfl]
  rw [List.cons_append, tokenize?]
  simp only [noGap, beq_eq_false_iff_ne.mpr (other '"' rfl), unmarked, first, taken, dropped,
    named, Bool.false_eq_true, if_false, if_true, Option.bind_eq_bind, Option.bind_some]
  cases tokenize? rest <;> rfl

/-- Text that is cut into tokens, whatever follows it that does not go on with its last word. -/
def Cuts (text : List Char) (tokens : List Token) : Prop :=
  ∀ rest, (∀ next ∈ rest.head?, isWordChar next = false) →
    tokenize? (text ++ rest) = (tokenize? rest).map (tokens ++ ·)

namespace Cuts

variable {text after : List Char} {tokens later : List Token} {c : Char}

theorem nil : Cuts [] [] := by
  intro rest _
  simp

theorem gap (blank : isGap c = true) (cuts : Cuts text tokens) : Cuts (c :: text) tokens := by
  intro rest ends
  rw [List.cons_append, tokenize?_gap blank, cuts rest ends]

theorem mark {mark : Token} (marked : ofMark? c = some mark) (cuts : Cuts text tokens) :
    Cuts (c :: text) (mark :: tokens) := by
  intro rest ends
  rw [List.cons_append, tokenize?_mark marked, cuts rest ends, Option.map_map]
  rfl

theorem quoted (content : List Char) (cuts : Cuts text tokens) :
    Cuts (quoted (spell content) ++ text) (.text (spell content) :: tokens) := by
  intro rest ends
  rw [List.append_assoc, tokenize?_quoted, cuts rest ends, Option.map_map]
  rfl

theorem word {letters : List Char} {value : Token}
    (word : (c :: letters).all isWordChar = true) (named : ofWord? (c :: letters) = some value) :
    Cuts (c :: letters) [value] := by
  intro rest ends
  exact tokenize?_word word named ends

/-- Texts are put together where no word goes on. -/
theorem append (apart : isWordChar c = false) (first : Cuts text tokens)
    (second : Cuts (c :: after) later) : Cuts (text ++ c :: after) (tokens ++ later) := by
  intro rest ends
  have next : ∀ next ∈ (c :: after ++ rest).head?, isWordChar next = false := by
    intro next same
    cases same
    exact apart
  rw [List.append_assoc, first _ next, second rest ends, Option.map_map]
  congr 1
  funext tokens
  exact (List.append_assoc _ _ _).symm

/-- The text of a member, with what comes after it. -/
theorem member (name : List Char) (apart : isWordChar c = false) (value : Cuts text tokens)
    (second : Cuts (c :: after) later) :
    Cuts (Json.quoted (spell name) ++ ':' :: text ++ c :: after)
      (.text (spell name) :: .colon :: (tokens ++ later)) := by
  have content := (value.append apart second).mark (rfl : ofMark? ':' = _)
  rw [List.append_assoc]
  exact content.quoted name

theorem newLine (level : Nat) (cuts : Cuts text tokens) :
    Cuts (newLine level ++ text) tokens := by
  have blanks : Cuts (List.replicate (2 * level) ' ' ++ text) tokens := by
    induction 2 * level with
    | zero => exact cuts
    | succ count ih => exact ih.gap rfl
  exact blanks.gap rfl

end Cuts

/-! ## Texts of documents -/

theorem cuts_scalarText {value : Json} (written : Written value)
    (scalar : value.height = 0) : Cuts value.scalarText value.tokens := by
  cases written with
  | null => exact .word rfl rfl
  | bool value =>
      cases value with
      | true => exact .word rfl rfl
      | false => exact .word rfl rfl
  | string text =>
      have cuts := Cuts.nil.quoted text
      rwa [List.append_nil] at cuts
  | array _ => cases scalar
  | object _ _ => cases scalar

theorem cuts_compactItems {items : List Json}
    (each : ∀ item ∈ items, Cuts item.compactChars item.tokens) :
    Cuts (compactItems items) (itemTokens items) := by
  induction items with
  | nil => exact Cuts.nil.mark rfl
  | cons item rest ih =>
      have own := each item List.mem_cons_self
      have later := ih fun item member => each item (List.mem_cons_of_mem _ member)
      cases rest with
      | nil => exact own.append rfl later
      | cons next rest => exact own.append rfl (later.mark rfl)

theorem cuts_compactMembers {members : List (List Char × Json)}
    (keys : ∀ member ∈ members, ∃ name, member.1 = spell name)
    (each : ∀ member ∈ members, Cuts member.2.compactChars member.2.tokens) :
    Cuts (compactMembers members) (memberTokens members) := by
  induction members with
  | nil => exact Cuts.nil.mark rfl
  | cons member rest ih =>
      obtain ⟨key, value⟩ := member
      obtain ⟨name, rfl⟩ : ∃ name, key = spell name := keys _ List.mem_cons_self
      have own := each _ List.mem_cons_self
      have later := ih (fun member inside => keys member (List.mem_cons_of_mem _ inside))
        (fun member inside => each member (List.mem_cons_of_mem _ inside))
      cases rest with
      | nil => exact own.member name rfl later
      | cons next rest => exact own.member name rfl (later.mark rfl)

theorem Written.cuts_compactChars {value : Json} (written : Written value) :
    Cuts value.compactChars value.tokens := by
  induction written with
  | null => exact cuts_scalarText .null rfl
  | bool value => exact cuts_scalarText (.bool value) rfl
  | string text => exact cuts_scalarText (.string text) rfl
  | array _ ih => exact (cuts_compactItems ih).mark rfl
  | object keys _ ih => exact (cuts_compactMembers keys ih).mark rfl

theorem cuts_indentedItems {items : List Json} (level : Nat)
    (each : ∀ item ∈ items, ∀ level, Cuts (item.indentedChars level) item.tokens) :
    Cuts (indentedItems level items) (itemTokens items) := by
  induction items with
  | nil => exact (Cuts.nil.mark (rfl : ofMark? ']' = _)).newLine level
  | cons item rest ih =>
      have own := each item List.mem_cons_self (level + 1)
      have later := ih fun item member => each item (List.mem_cons_of_mem _ member)
      cases rest with
      | nil =>
          rw [indentedItems, List.append_assoc, List.append_assoc]
          exact (own.append rfl later).newLine (level + 1)
      | cons next rest =>
          have more := later.mark (rfl : ofMark? ',' = _)
          simp only [indentedItems, List.append_assoc]
          exact (own.append rfl more).newLine (level + 1)

theorem cuts_indentedMembers {members : List (List Char × Json)} (level : Nat)
    (keys : ∀ member ∈ members, ∃ name, member.1 = spell name)
    (each : ∀ member ∈ members, ∀ level, Cuts (member.2.indentedChars level) member.2.tokens) :
    Cuts (indentedMembers level members) (memberTokens members) := by
  induction members with
  | nil => exact (Cuts.nil.mark (rfl : ofMark? '\x7d' = _)).newLine level
  | cons member rest ih =>
      obtain ⟨key, value⟩ := member
      obtain ⟨name, rfl⟩ : ∃ name, key = spell name := keys _ List.mem_cons_self
      have own := (each _ List.mem_cons_self (level + 1)).gap (rfl : isGap ' ' = true)
      have later := ih (fun member inside => keys member (List.mem_cons_of_mem _ inside))
        (fun member inside => each member (List.mem_cons_of_mem _ inside))
      cases rest with
      | nil =>
          rw [indentedMembers, List.append_assoc, List.append_assoc, List.append_assoc,
            ← List.append_assoc (quoted _)]
          exact (own.member name rfl later).newLine (level + 1)
      | cons next rest =>
          have more := later.mark (rfl : ofMark? ',' = _)
          simp only [indentedMembers, List.append_assoc]
          rw [← List.append_assoc (quoted _)]
          exact (own.member name rfl more).newLine (level + 1)

theorem Written.cuts_indentedChars {value : Json} (written : Written value) (level : Nat) :
    Cuts (value.indentedChars level) value.tokens := by
  induction written generalizing level with
  | null => exact cuts_scalarText .null rfl
  | bool value => exact cuts_scalarText (.bool value) rfl
  | string text => exact cuts_scalarText (.string text) rfl
  | @array items _ ih =>
      cases items with
      | nil => exact (Cuts.nil.mark (rfl : ofMark? ']' = _)).mark rfl
      | cons item rest => exact (cuts_indentedItems level ih).mark rfl
  | @object members keys _ ih =>
      cases members with
      | nil =>
          exact (Cuts.nil.mark (rfl : ofMark? '\x7d' = _)).mark rfl
      | cons member rest => exact (cuts_indentedMembers level keys ih).mark rfl

/-! ## Reading tokens -/

/-- Tokens that are read as a value, whatever waits for it. -/
def Reads (tokens : List Token) (value : Json) : Prop :=
  ∀ stack, tokens.foldlM step ⟨stack, .value⟩ = some (complete value stack)

/-- No item begins like the end of its array. -/
theorem foldlM_firstItem (item : Json) (rest : List Json) (stack : List Frame) :
    (itemTokens (item :: rest)).foldlM step ⟨stack, .firstItem⟩ =
      (itemTokens (item :: rest)).foldlM step ⟨.array [] :: stack, .value⟩ := by
  cases item <;> cases rest <;> rfl

theorem Reads.foldlM_append {tokens : List Token} {value : Json} (reads : Reads tokens value)
    (later : List Token) (stack : List Frame) :
    (tokens ++ later).foldlM step ⟨stack, .value⟩ = later.foldlM step (complete value stack) := by
  rw [List.foldlM_append, reads stack]
  rfl

theorem foldlM_itemTokens {item : Json} {rest : List Json}
    (each : ∀ other ∈ item :: rest, Reads other.tokens other) (done : List Json)
    (stack : List Frame) :
    (itemTokens (item :: rest)).foldlM step ⟨.array done :: stack, .value⟩ =
      some (complete (.array (done.reverse ++ item :: rest)) stack) := by
  have own := each item List.mem_cons_self
  induction rest generalizing item done with
  | nil =>
      rw [itemTokens, own.foldlM_append, ← List.reverse_cons]
      rfl
  | cons next rest ih =>
      have later := fun other member => each other (List.mem_cons_of_mem item member)
      have read := ih later (item :: done) (later next List.mem_cons_self)
      rw [List.reverse_cons, List.append_assoc, List.singleton_append] at read
      rw [itemTokens, own.foldlM_append, ← read]
      · rfl
      · intro none
        cases none

theorem foldlM_memberTokens {key : List Char} {value : Json} {rest : List (List Char × Json)}
    (each : ∀ member ∈ (key, value) :: rest, Reads member.2.tokens member.2)
    (done : List (List Char × Json)) (stack : List Frame) :
    (memberTokens ((key, value) :: rest)).foldlM step ⟨stack, .key done⟩ =
      some (complete (.object (done.reverse ++ (key, value) :: rest)) stack) := by
  have own := each _ List.mem_cons_self
  induction rest generalizing key value done with
  | nil =>
      have read := own.foldlM_append [.closeObject] (.object done key :: stack)
      rw [memberTokens, ← List.reverse_cons]
      exact read
  | cons next rest ih =>
      obtain ⟨nextKey, nextValue⟩ := next
      have later := fun other member => each other (List.mem_cons_of_mem (key, value) member)
      have read := ih later ((key, value) :: done) (later _ List.mem_cons_self)
      rw [List.reverse_cons, List.append_assoc, List.singleton_append] at read
      rw [memberTokens, ← read]
      · exact own.foldlM_append _ (.object done key :: stack)
      · intro none
        cases none

theorem Written.reads {value : Json} (written : Written value) : Reads value.tokens value := by
  induction written with
  | null => exact fun _ => rfl
  | bool _ => exact fun _ => rfl
  | string _ => exact fun _ => rfl
  | @array items _ ih =>
      intro stack
      cases items with
      | nil => rfl
      | cons item rest =>
          exact (foldlM_firstItem item rest stack).trans (foldlM_itemTokens ih [] stack)
  | @object members _ _ ih =>
      intro stack
      cases members with
      | nil => rfl
      | cons member rest =>
          -- the first key is expected with nothing before it, as any other key
          have first : (memberTokens (member :: rest)).foldlM step ⟨stack, .firstKey⟩ =
              (memberTokens (member :: rest)).foldlM step ⟨stack, .key []⟩ := by
            cases rest <;> rfl
          exact first.trans (foldlM_memberTokens ih [] stack)

/-! ## Documents -/

theorem isWordChar_of_isGap {c : Char} (gap : isGap c = true) : isWordChar c = false := by
  simp only [isGap, Bool.or_eq_true, beq_iff_eq] at gap
  rcases gap with ((rfl | rfl) | rfl) | rfl <;> rfl

theorem tokenize?_gaps {gaps : List Char} (blank : gaps.all isGap = true) :
    tokenize? gaps = some [] := by
  induction gaps with
  | nil => simp [tokenize?]
  | cons c rest ih =>
      rw [List.all_cons, Bool.and_eq_true] at blank
      rw [tokenize?_gap blank.1, ih blank.2]

/-- Gaps may follow a document. -/
theorem Cuts.parse?_append {text gaps : List Char} {value : Json} (cuts : Cuts text value.tokens)
    (written : Written value) (blank : gaps.all isGap = true) :
    Json.parse? (String.ofList (text ++ gaps)) = some value := by
  have apart : ∀ next ∈ gaps.head?, isWordChar next = false := by
    intro next first
    exact isWordChar_of_isGap (List.all_eq_true.mp blank next (List.mem_of_mem_head? first))
  have whole : tokenize? (text ++ gaps) = some value.tokens := by
    rw [cuts gaps apart, tokenize?_gaps blank, Option.map_some, List.append_nil]
  rw [Json.parse?, String.toList_ofList, whole]
  exact congrArg (Option.bind · State.result?) (written.reads [])

theorem Cuts.parse? {text : List Char} {value : Json} (cuts : Cuts text value.tokens)
    (written : Written value) : Json.parse? (String.ofList text) = some value := by
  have whole := cuts.parse?_append written (rfl : List.all [] isGap = true)
  rwa [List.append_nil] at whole

/-- A document is read from both of its layouts. -/
theorem Written.parse?_compact {value : Json} (written : Written value) :
    parse? value.compact = some value :=
  written.cuts_compactChars.parse? written

theorem Written.parse?_indented {value : Json} (written : Written value) :
    parse? value.indented = some value :=
  (written.cuts_indentedChars 0).parse? written

end ApiBindings.Json
