import Mathlib.Data.List.Basic
import Mathlib.Data.List.Infix

/-!
# Tokens of JSON and of GraphQL

Both languages are made of punctuators, names, numbers and texts in double quotes, and these
have the same escapes.  A text is cut into tokens character by character.  Numbers are integers;
floats, comments, spreads and block strings are refused.
-/

namespace RadsatLinux.Library.Tokens

inductive Token where
  | punctuator (c : Char)
  | name (text : List Char)
  | number (text : List Char)
  | text (content : List Char)
  deriving DecidableEq

/-- What sets a language apart: `inQuotes` tells the characters that may stand in quotes as they
are, and `blocks` whether three quotes begin a block string. -/
structure Lexicon where
  punctuators : List Char
  ignored : List Char
  inQuotes : Char → Bool
  blocks : Bool

/-! ## Characters -/

def isNameStart (c : Char) : Bool := c.isAlpha || c == '_'

def isNameContinue (c : Char) : Bool := c.isAlphanum || c == '_'

/-- What `\c` stands for. -/
def simpleEscape (c : Char) : Option Char :=
  if c = '"' ∨ c = '\\' ∨ c = '/' then some c
  else if c = 'b' then some (Char.ofNat 8)
  else if c = 'f' then some (Char.ofNat 12)
  else if c = 'n' then some (Char.ofNat 10)
  else if c = 'r' then some (Char.ofNat 13)
  else if c = 't' then some (Char.ofNat 9)
  else none

def hexDigit (c : Char) : Option Nat :=
  if '0' ≤ c ∧ c ≤ '9' then some (c.toNat - '0'.toNat)
  else if 'a' ≤ c ∧ c ≤ 'f' then some (c.toNat - 'a'.toNat + 10)
  else if 'A' ≤ c ∧ c ≤ 'F' then some (c.toNat - 'A'.toNat + 10)
  else none

/-- What `\u` stands for before these digits; a number that is no character is refused. -/
def codeEscape (digits : List Char) : Option Char := do
  let code ← digits.foldlM (fun code c => (hexDigit c).map (code * 16 + ·)) 0
  if code.isValidChar then some (Char.ofNat code) else none

/-- An integer without leading zeros: `-?(0|[1-9][0-9]*)`. -/
def isInteger (text : List Char) : Bool :=
  let digits := if text.head? = some '-' then text.tail else text
  digits.all Char.isDigit && (digits == ['0'] || digits.head?.any (· != '0'))

/-! ## The tokens of a text -/

/-- Where in a token the text is, with what was read of it last to first.  `closed` comes after
a text with nothing in it. -/
inductive Mode where
  | between
  | closed
  | name (read : List Char)
  | number (read : List Char)
  | quoted (read : List Char)
  | escape (read : List Char)
  | code (read digits : List Char)

variable (lexicon : Lexicon)

/-- The first character of a token, or one between tokens. -/
def start (found : List Token) (c : Char) : Option (Mode × List Token) :=
  if c = '"' then some (.quoted [], found)
  else if c ∈ lexicon.punctuators then some (.between, .punctuator c :: found)
  else if c ∈ lexicon.ignored then some (.between, found)
  else if isNameStart c then some (.name [c], found)
  else if c = '-' ∨ c.isDigit then some (.number [c], found)
  else none

def advance (mode : Mode) (found : List Token) (c : Char) : Option (Mode × List Token) :=
  match mode with
  | .between => start lexicon found c
  | .closed => if lexicon.blocks && c == '"' then none else start lexicon found c
  | .name read =>
      if isNameContinue c then some (.name (c :: read), found)
      else start lexicon (.name read.reverse :: found) c
  | .number read =>
      -- A number may not be followed by a letter or a dot.
      if isNameContinue c || c == '.' then some (.number (c :: read), found)
      else if isInteger read.reverse then start lexicon (.number read.reverse :: found) c
      else none
  | .quoted read =>
      if c = '"' then
        some (if read.isEmpty then .closed else .between, .text read.reverse :: found)
      else if c = '\\' then some (.escape read, found)
      else if lexicon.inQuotes c then some (.quoted (c :: read), found)
      else none
  | .escape read =>
      if c = 'u' then some (.code read [], found)
      else (simpleEscape c).map fun char => (.quoted (char :: read), found)
  | .code read digits =>
      if digits.length < 3 then some (.code read (digits ++ [c]), found)
      else (codeEscape (digits ++ [c])).map fun char => (.quoted (char :: read), found)

/-- The end of the text. -/
def finish (mode : Mode) (found : List Token) : Option (List Token) :=
  match mode with
  | .between | .closed => some found.reverse
  | .name read => some (.name read.reverse :: found).reverse
  | .number read =>
      if isInteger read.reverse then some (.number read.reverse :: found).reverse else none
  | .quoted _ | .escape _ | .code _ _ => none

def lexFrom (mode : Mode) (found : List Token) : List Char → Option (List Token)
  | [] => finish mode found
  | c :: text => (advance lexicon mode found c).bind fun next => lexFrom next.1 next.2 text

def lex (text : List Char) : Option (List Token) := lexFrom lexicon .between [] text

/-! ## Texts in quotes -/

/-- A character that stands for itself in quotes. -/
def Lexicon.Plain (c : Char) : Prop := c ≠ '"' ∧ c ≠ '\\' ∧ lexicon.inQuotes c = true

def Lexicon.isPlain (text : List Char) : Bool :=
  text.all fun c => c != '"' && c != '\\' && lexicon.inQuotes c

variable {lexicon}

theorem Lexicon.plain_of_isPlain {text : List Char} (h : lexicon.isPlain text = true) :
    ∀ c ∈ text, lexicon.Plain c := by
  intro c hc
  have hchar := List.all_eq_true.mp h c hc
  rw [Bool.and_eq_true, Bool.and_eq_true, bne_iff_ne, bne_iff_ne] at hchar
  exact ⟨hchar.1.1, hchar.1.2, hchar.2⟩

theorem lexFrom_plain {c : Char} (hplain : lexicon.Plain c) (read text : List Char)
    (found : List Token) :
    lexFrom lexicon (.quoted read) found (c :: text) =
      lexFrom lexicon (.quoted (c :: read)) found text := by
  rw [lexFrom, advance, if_neg hplain.1, if_neg hplain.2.1, if_pos hplain.2.2]
  rfl

/-- Plain characters are taken as they are. -/
theorem lexFrom_append_plain {n : List Char} (hplain : ∀ c ∈ n, lexicon.Plain c)
    (read text : List Char) (found : List Token) :
    lexFrom lexicon (.quoted read) found (n ++ text) =
      lexFrom lexicon (.quoted (n.reverse ++ read)) found text := by
  induction n generalizing read with
  | nil => rfl
  | cons c n ih =>
      rw [List.cons_append, lexFrom_plain (hplain c List.mem_cons_self),
        ih fun d hd => hplain d (List.mem_cons_of_mem c hd), List.reverse_cons, List.append_assoc]
      rfl

/-! ## Escapes -/

/-- `sed 's/\\/\\\\/g; s/"/\\"/g'` -/
def escapeQuoted (text : List Char) : List Char :=
  (text.flatMap fun c => if c = '\\' then ['\\', '\\'] else [c]).flatMap fun c =>
    if c = '"' then ['\\', '"'] else [c]

theorem escapeQuoted_cons (c : Char) (text : List Char) :
    escapeQuoted (c :: text) = escapeQuoted [c] ++ escapeQuoted text := by
  simp only [escapeQuoted, List.flatMap_cons, List.flatMap_append, List.flatMap_nil,
    List.append_nil]

/-- A text that needs no escapes stays as it is. -/
theorem escapeQuoted_eq_self {text : List Char} (h : ∀ c ∈ text, lexicon.Plain c) :
    escapeQuoted text = text := by
  induction text with
  | nil => rfl
  | cons c text ih =>
      obtain ⟨⟨hquote, hbackslash, -⟩, hrest⟩ := List.forall_mem_cons.mp h
      rw [escapeQuoted_cons, ih hrest]
      simp only [escapeQuoted, List.flatMap_cons, List.flatMap_nil, if_neg hbackslash,
        if_neg hquote, List.append_nil, List.singleton_append]

/-- An escaped character is taken for what it was. -/
theorem lexFrom_escapeQuoted_one (hquote : lexicon.inQuotes '"' = true)
    (hbackslash : lexicon.inQuotes '\\' = true) (c : Char) (read text : List Char)
    (found : List Token) :
    lexFrom lexicon (.quoted read) found (escapeQuoted [c] ++ text) =
      if lexicon.inQuotes c then lexFrom lexicon (.quoted (c :: read)) found text else none := by
  by_cases hc : c = '\\'
  · subst hc
    rw [if_pos hbackslash]
    rfl
  by_cases hc' : c = '"'
  · subst hc'
    rw [if_pos hquote]
    rfl
  have hkeep : escapeQuoted [c] = [c] := by
    simp only [escapeQuoted, List.flatMap_cons, List.flatMap_nil, if_neg hc,
      if_neg hc', List.append_nil]
  rw [hkeep, List.singleton_append]
  split
  · next hin => exact lexFrom_plain ⟨hc', hc, hin⟩ read text found
  · next hout =>
      rw [lexFrom, advance, if_neg hc', if_neg hc, if_neg hout]
      rfl

/-- And so is an escaped text, if its characters may stand in quotes. -/
theorem lexFrom_escapeQuoted (hquote : lexicon.inQuotes '"' = true)
    (hbackslash : lexicon.inQuotes '\\' = true) (n read text : List Char) (found : List Token) :
    lexFrom lexicon (.quoted read) found (escapeQuoted n ++ text) =
      if n.all lexicon.inQuotes then lexFrom lexicon (.quoted (n.reverse ++ read)) found text
      else none := by
  induction n generalizing read with
  | nil => rfl
  | cons c n ih =>
      rw [escapeQuoted_cons, List.append_assoc, lexFrom_escapeQuoted_one hquote hbackslash,
        List.all_cons]
      cases hin : lexicon.inQuotes c with
      | false => rfl
      | true =>
          rw [if_pos rfl, ih, Bool.true_and, List.reverse_cons, List.append_assoc]
          rfl

/-! ## What was found before -/

theorem start_append (more found : List Token) (c : Char) :
    start lexicon (more ++ found) c =
      (start lexicon more c).map fun next => (next.1, next.2 ++ found) := by
  unfold start
  split_ifs <;> rfl

theorem advance_append (mode : Mode) (more found : List Token) (c : Char) :
    advance lexicon mode (more ++ found) c =
      (advance lexicon mode more c).map fun next => (next.1, next.2 ++ found) := by
  cases mode with
  | between => exact start_append more found c
  | closed =>
      simp only [advance]
      split_ifs
      · rfl
      · exact start_append more found c
  | name read =>
      simp only [advance]
      split_ifs
      · rfl
      · exact start_append (.name read.reverse :: more) found c
  | number read =>
      simp only [advance]
      split_ifs
      · rfl
      · exact start_append (.number read.reverse :: more) found c
      · rfl
  | quoted read =>
      simp only [advance]
      split_ifs <;> rfl
  | escape read =>
      simp only [advance]
      split_ifs
      · rfl
      · simp only [Option.map_map, Function.comp_def]
  | code read digits =>
      simp only [advance]
      split_ifs
      · rfl
      · simp only [Option.map_map, Function.comp_def]

theorem finish_append (mode : Mode) (more found : List Token) :
    finish mode (more ++ found) = (finish mode more).map (found.reverse ++ ·) := by
  cases mode with
  | between => exact congrArg some List.reverse_append
  | closed => exact congrArg some List.reverse_append
  | name read =>
      refine congrArg some ?_
      change ((.name read.reverse :: more) ++ found).reverse = _
      exact List.reverse_append
  | number read =>
      simp only [finish]
      split_ifs
      · refine congrArg some ?_
        change ((.number read.reverse :: more) ++ found).reverse = _
        exact List.reverse_append
      · rfl
  | _ => rfl

/-- The tokens of a text do not depend on those before it. -/
theorem lexFrom_append (mode : Mode) (more found : List Token) (text : List Char) :
    lexFrom lexicon mode (more ++ found) text =
      (lexFrom lexicon mode more text).map (found.reverse ++ ·) := by
  induction text generalizing mode more with
  | nil => exact finish_append mode more found
  | cons c text ih =>
      rw [lexFrom, lexFrom, advance_append, Option.bind_map, Option.map_bind]
      exact congrArg _ (funext fun next => ih next.1 next.2)

theorem lexFrom_eq_map (mode : Mode) (found : List Token) (text : List Char) :
    lexFrom lexicon mode found text = (lexFrom lexicon mode [] text).map (found.reverse ++ ·) :=
  lexFrom_append mode [] found text

/-- No token that was found is lost. -/
theorem lexFrom_found {mode : Mode} {found : List Token} {text : List Char} {tokens : List Token}
    (h : lexFrom lexicon mode found text = some tokens) : found.reverse <+: tokens := by
  rw [lexFrom_eq_map] at h
  obtain ⟨rest, -, hrest⟩ := Option.map_eq_some_iff.mp h
  exact ⟨rest, hrest⟩

/-! ## What was read of a text in quotes -/

/-- The text in quotes that the tokens go on with.  `used` was read for it. -/
structure Quoted (tokens found : List Token) (read text used content rest : List Char) : Prop where
  text_eq : text = used ++ '"' :: rest
  tokens_eq : found.reverse ++ [.text (read.reverse ++ content)] <+: tokens
  length_le : content.length ≤ used.length

section Quotes

variable {tokens found : List Token} {read text used content rest : List Char}

/-- A character that adds to the text. -/
theorem Quoted.push (h : Quoted tokens found (char :: read) text used content rest) (c : Char) :
    Quoted tokens found read (c :: text) (c :: used) (char :: content) rest where
  text_eq := congrArg (c :: ·) h.text_eq
  tokens_eq := by
    have heq := h.tokens_eq
    rw [List.reverse_cons, List.append_assoc] at heq
    exact heq
  length_le := Nat.succ_le_succ h.length_le

/-- A character that belongs to an escape. -/
theorem Quoted.pass (h : Quoted tokens found read text used content rest) (c : Char) :
    Quoted tokens found read (c :: text) (c :: used) content rest where
  text_eq := congrArg (c :: ·) h.text_eq
  tokens_eq := h.tokens_eq
  length_le := Nat.le_succ_of_le h.length_le

/-- An escape reads more than it stands for, so that a text that is as long as what was read for
it has none. -/
structure Reads (lexicon : Lexicon) (tokens found : List Token) (read text : List Char) : Prop where
  quoted : lexFrom lexicon (.quoted read) found text = some tokens →
    ∃ used content rest, Quoted tokens found read text used content rest ∧
      (content.length = used.length → used = content ∧ ∀ c ∈ used, lexicon.Plain c)
  escape : lexFrom lexicon (.escape read) found text = some tokens →
    ∃ used content rest, Quoted tokens found read text used content rest
  code : ∀ digits, lexFrom lexicon (.code read digits) found text = some tokens →
    ∃ used content rest, Quoted tokens found read text used content rest

theorem reads (lexicon : Lexicon) (tokens found : List Token) (read text : List Char) :
    Reads lexicon tokens found read text := by
  induction text generalizing read with
  | nil => exact ⟨nofun, nofun, nofun⟩
  | cons c text ih =>
      constructor
      · intro h
        rw [lexFrom, advance] at h
        split at h
        · next hquote =>
            subst hquote
            have hfound := lexFrom_found h
            rw [List.reverse_cons] at hfound
            refine ⟨[], [], text, ⟨rfl, ?_, Nat.le_refl 0⟩, fun _ => ⟨rfl, nofun⟩⟩
            rw [List.append_nil]
            exact hfound
        split at h
        · obtain ⟨used, content, rest, hquoted⟩ := (ih read).escape h
          refine ⟨c :: used, content, rest, hquoted.pass c, fun hlength => ?_⟩
          have hle := hquoted.length_le
          rw [hlength, List.length_cons] at hle
          exact absurd hle (Nat.not_succ_le_self _)
        split at h
        · next hquote hbackslash hin =>
            obtain ⟨used, content, rest, hquoted, hplain⟩ := (ih (c :: read)).quoted h
            refine ⟨c :: used, c :: content, rest, hquoted.push c, fun hlength => ?_⟩
            obtain ⟨hsame, hall⟩ := hplain (Nat.succ.inj hlength)
            exact ⟨congrArg (c :: ·) hsame, List.forall_mem_cons.mpr
              ⟨⟨hquote, hbackslash, hin⟩, hall⟩⟩
        · cases h
      · intro h
        rw [lexFrom, advance] at h
        split at h
        · obtain ⟨used, content, rest, hquoted⟩ := (ih read).code [] h
          exact ⟨c :: used, content, rest, hquoted.pass c⟩
        · obtain ⟨⟨mode, found'⟩, hnext, hrest⟩ := Option.bind_eq_some_iff.mp h
          obtain ⟨char, -, hmode⟩ := Option.map_eq_some_iff.mp hnext
          cases hmode
          obtain ⟨used, content, rest, hquoted, -⟩ := (ih (char :: read)).quoted hrest
          exact ⟨c :: used, char :: content, rest, hquoted.push c⟩
      · intro digits h
        rw [lexFrom, advance] at h
        split at h
        · obtain ⟨used, content, rest, hquoted⟩ := (ih read).code _ h
          exact ⟨c :: used, content, rest, hquoted.pass c⟩
        · obtain ⟨⟨mode, found'⟩, hnext, hrest⟩ := Option.bind_eq_some_iff.mp h
          obtain ⟨char, -, hmode⟩ := Option.map_eq_some_iff.mp hnext
          cases hmode
          obtain ⟨used, content, rest, hquoted, -⟩ := (ih (char :: read)).quoted hrest
          exact ⟨c :: used, char :: content, rest, hquoted.push c⟩

/-- If no quote comes after `n`, the text in quotes is at most as long as `n`, and it is `n`
only if every character of `n` stands for itself. -/
theorem lexFrom_quoted {n after : List Char} (hafter : '"' ∉ after)
    (h : lexFrom lexicon (.quoted []) found (n ++ '"' :: after) = some tokens) :
    ∃ content, found.reverse ++ [.text content] <+: tokens ∧ content.length ≤ n.length ∧
      (content.length = n.length → n = content ∧ ∀ c ∈ n, lexicon.Plain c) := by
  obtain ⟨used, content, rest, hquoted, hplain⟩ := (reads lexicon tokens found [] _).quoted h
  refine ⟨content, hquoted.tokens_eq, ?_⟩
  have hlength := hquoted.length_le
  rcases List.append_eq_append_iff.mp hquoted.text_eq with ⟨more, hused, hrest⟩ | ⟨more, hn, -⟩
  · cases more with
    | nil =>
        rw [List.append_nil] at hused
        subst hused
        refine ⟨hlength, fun heq => ?_⟩
        obtain ⟨hsame, hall⟩ := hplain heq
        exact ⟨hsame, hall⟩
    | cons c more =>
        have htail : after = more ++ '"' :: rest := (List.cons.inj hrest).2
        exact absurd (htail ▸ List.mem_append_right more List.mem_cons_self) hafter
  · have hsum : n.length = used.length + more.length := by rw [hn, List.length_append]
    refine ⟨by omega, fun heq => ?_⟩
    have hnone : more = [] := List.length_eq_zero_iff.mp (by omega)
    rw [hnone, List.append_nil] at hn
    subst hn
    exact hplain heq

end Quotes

/-! ## Numbers -/

/-- A number is taken to its end. -/
theorem lexFrom_digits {digits : List Char} (hdigits : ∀ c ∈ digits, c.isDigit = true)
    (read text : List Char) (found : List Token) :
    lexFrom lexicon (.number read) found (digits ++ text) =
      lexFrom lexicon (.number (digits.reverse ++ read)) found text := by
  induction digits generalizing read with
  | nil => rfl
  | cons c digits ih =>
      have hcontinue : (isNameContinue c || c == '.') = true := by
        rw [isNameContinue, Char.isAlphanum, hdigits c List.mem_cons_self, Bool.or_true,
          Bool.true_or, Bool.true_or]
      rw [List.cons_append, lexFrom, advance, if_pos hcontinue]
      change lexFrom lexicon (.number (c :: read)) found (digits ++ text) = _
      rw [ih fun d hd => hdigits d (List.mem_cons_of_mem c hd), List.reverse_cons,
        List.append_assoc]
      rfl

theorem lexFrom_integer {n : List Char} (h : isInteger n = true)
    (hstart : ∀ c : Char, c = '-' ∨ c.isDigit = true →
      start lexicon [] c = some (.number [c], [])) :
    lex lexicon n = some [.number n] := by
  have hall {c : Char} {digits : List Char} (hc : c = '-' ∨ c.isDigit = true)
      (hdigits : ∀ d ∈ digits, d.isDigit = true) (hinteger : isInteger (c :: digits) = true) :
      lex lexicon (c :: digits) = some [.number (c :: digits)] := by
    have hlex : lexFrom lexicon (.number [c]) [] (digits ++ []) =
        lexFrom lexicon (.number (digits.reverse ++ [c])) [] [] := lexFrom_digits hdigits [c] [] []
    rw [List.append_nil] at hlex
    rw [lex, lexFrom, advance, hstart c hc, Option.bind_some, hlex, lexFrom, finish,
      List.reverse_append, List.reverse_reverse]
    exact if_pos hinteger
  cases n with
  | nil => cases h
  | cons c digits =>
      by_cases hc : c = '-'
      · subst hc
        exact hall (Or.inl rfl) (List.all_eq_true.mp (Bool.and_eq_true_iff.mp h).1) h
      · have hhead : ¬ (c :: digits).head? = some '-' := fun heq => hc (Option.some.inj heq)
        have hdigits := h
        rw [isInteger, if_neg hhead, Bool.and_eq_true] at hdigits
        have hforall := List.forall_mem_cons.mp (List.all_eq_true.mp hdigits.1)
        exact hall (Or.inr hforall.1) hforall.2 h

/-- Digits and signs are read as integers, one after the other. -/
theorem lexFrom_numbers {text : List Char} (htext : ∀ c ∈ text, c = '-' ∨ c.isDigit = true)
    (hstart : ∀ found, start lexicon found '-' = some (.number ['-'], found))
    {read : List Char} {tokens found : List Token}
    (h : lexFrom lexicon (.number read) found text = some tokens) :
    ∃ numbers : List (List Char), tokens = found.reverse ++ numbers.map .number ∧
      numbers.flatten = read.reverse ++ text ∧ ∀ n ∈ numbers, isInteger n = true := by
  induction text generalizing read found with
  | nil =>
      simp only [lexFrom, finish] at h
      split at h
      · next hinteger =>
          cases h
          refine ⟨[read.reverse], List.reverse_cons, ?_, List.forall_mem_singleton.mpr hinteger⟩
          rw [List.flatten_singleton, List.append_nil]
      · cases h
  | cons c text ih =>
      obtain ⟨hc, hrest⟩ := List.forall_mem_cons.mp htext
      rw [lexFrom, advance] at h
      rcases hc with rfl | hdigit
      · rw [if_neg (by decide)] at h
        split at h
        · next hinteger =>
            rw [hstart] at h
            obtain ⟨numbers, htokens, hflatten, hintegers⟩ := ih hrest h
            refine ⟨read.reverse :: numbers, ?_, ?_,
              List.forall_mem_cons.mpr ⟨hinteger, hintegers⟩⟩
            · rw [htokens, List.reverse_cons, List.append_assoc]
              rfl
            · rw [List.flatten_cons, hflatten]
              rfl
        · cases h
      · have hcontinue : (isNameContinue c || c == '.') = true := by
          rw [isNameContinue, Char.isAlphanum, hdigit, Bool.or_true, Bool.true_or, Bool.true_or]
        rw [if_pos hcontinue] at h
        obtain ⟨numbers, htokens, hflatten, hintegers⟩ := ih hrest h
        refine ⟨numbers, htokens, ?_, hintegers⟩
        rw [hflatten, List.reverse_cons, List.append_assoc]
        rfl

/-! ## Between tokens -/

/-- Outside of quotes. -/
def Mode.unquoted : Mode → Bool
  | .quoted _ | .escape _ | .code _ _ => false
  | .between | .closed | .name _ | .number _ => true

theorem start_unquoted {c : Char} (hc : c ≠ '"') {found found' : List Token} {mode : Mode}
    (h : start lexicon found c = some (mode, found')) : mode.unquoted = true := by
  unfold start at h
  rw [if_neg hc] at h
  split_ifs at h <;> cases h <;> rfl

theorem advance_unquoted {c : Char} (hc : c ≠ '"') {mode mode' : Mode}
    (hmode : mode.unquoted = true) {found found' : List Token}
    (h : advance lexicon mode found c = some (mode', found')) : mode'.unquoted = true := by
  cases mode with
  | between => exact start_unquoted hc h
  | closed =>
      simp only [advance] at h
      split_ifs at h
      exact start_unquoted hc h
  | name read =>
      simp only [advance] at h
      split_ifs at h
      · cases h
        rfl
      · exact start_unquoted hc h
  | number read =>
      simp only [advance] at h
      split_ifs at h
      · cases h
        rfl
      · exact start_unquoted hc h
  | _ => cases hmode

/-- A character that ends a token and is not part of another. -/
structure Separator (lexicon : Lexicon) (c : Char) : Prop where
  start_eq : ∀ found, start lexicon found c = some (.between, found)
  not_quote : c ≠ '"'
  not_in_token : (isNameContinue c || c == '.') = false

/-- A text without quotes can be cut at a separator. -/
theorem lexFrom_separator {c : Char} (hc : Separator lexicon c) {mode : Mode}
    (hmode : mode.unquoted = true) (found : List Token) {text : List Char} (htext : '"' ∉ text)
    (rest : List Char) :
    lexFrom lexicon mode found (text ++ c :: rest) =
      (lexFrom lexicon mode found text).bind fun tokens =>
        lexFrom lexicon .between tokens.reverse rest := by
  induction text generalizing mode found with
  | nil =>
      have hname : isNameContinue c = false := (Bool.or_eq_false_iff.mp hc.not_in_token).1
      rw [List.nil_append, lexFrom, lexFrom]
      cases mode with
      | between =>
          rw [advance, hc.start_eq, finish, Option.bind_some, Option.bind_some,
            List.reverse_reverse]
      | closed =>
          have hquote : (lexicon.blocks && c == '"') = false := by
            rw [beq_eq_false_iff_ne.mpr hc.not_quote, Bool.and_false]
          rw [advance, hquote, finish, Option.bind_some, List.reverse_reverse]
          exact congrArg (Option.bind · _) (hc.start_eq found)
      | name read =>
          rw [advance, hname, finish, Option.bind_some, List.reverse_reverse]
          exact congrArg (Option.bind · _) (hc.start_eq _)
      | number read =>
          rw [advance, hc.not_in_token, if_neg Bool.false_ne_true, finish, hc.start_eq]
          split
          · rw [Option.bind_some, Option.bind_some, List.reverse_reverse]
          · rfl
      | _ => cases hmode
  | cons d text ih =>
      have hd : d ≠ '"' := fun heq => htext (heq ▸ List.mem_cons_self)
      rw [List.cons_append, lexFrom, lexFrom, Option.bind_assoc]
      refine Option.bind_congr fun next hnext => ?_
      exact ih (advance_unquoted hd hmode hnext) next.2 fun hmem =>
        htext (List.mem_cons_of_mem d hmem)

end RadsatLinux.Library.Tokens
