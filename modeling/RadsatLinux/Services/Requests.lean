import Mathlib.Data.List.TakeWhile
import RadsatLinux.Library.Tokens

/-!
# Requests to the FRAM and MRAM services

`fram-set`, `fram-get` and `mram` put a name from the command line into a GraphQL document, and
the document into JSON.  A service takes the JSON apart, and then the document.
-/

namespace RadsatLinux.Services.Requests

open RadsatLinux.Library.Tokens

abbrev Text := List Char

/-! ## What a service reads -/

def json : Lexicon where
  punctuators := ['{', '}', '[', ']', ':', ',']
  ignored := [' ', '\t', '\n', '\r']
  inQuotes c := decide (' ' ≤ c)
  blocks := false

def graphql : Lexicon where
  punctuators := ['!', '$', '&', '(', ')', ':', '=', '@', '[', ']', '{', '|', '}']
  ignored := [' ', '\t', '\n', '\r', ',']
  inQuotes c := decide (' ' ≤ c) || c == '\t'
  blocks := true

/-- `{"query":"..."}` -/
def queryOnly (query : Text) : List Token :=
  [.punctuator '{', .text "query".toList, .punctuator ':', .text query, .punctuator '}']

/-- `{"query":"...","variables":{"n":"..."}}` -/
def queryWithName (query name : Text) : List Token :=
  [.punctuator '{', .text "query".toList, .punctuator ':', .text query, .punctuator ',',
    .text "variables".toList, .punctuator ':', .punctuator '{', .text "n".toList, .punctuator ':',
    .text name, .punctuator '}', .punctuator '}']

/-- The document in a body without variables. -/
def documentOf (body : Text) : Option (List Token) :=
  match lex json body with
  | some [_, _, _, .text query, _] => lex graphql query
  | _ => none

def words (names : List String) : List Token := names.map fun name => .name name.toList

/-! ## Names on the command line -/

/-- `$(...)` cuts newlines off at the end. -/
def withoutNewlines (text : Text) : Text := (text.reverse.dropWhile (· == '\n')).reverse

/-- `ESC=$(printf '%s' "$NAME" | sed 's/\\/\\\\/g; s/"/\\"/g')` -/
def escaped (name : Text) : Text := escapeQuoted (withoutNewlines name)

/-- `{"query":"` -/
def queryOpening : Text := "\x7b\"query\":\"".toList

/-- `"}` -/
def queryClosing : Text := "\"\x7d".toList

def queryBody (query : Text) : Text := queryOpening ++ query ++ queryClosing

/-- A name in quotes, for a document inside JSON. -/
def inQuotes (opening name closing : Text) : Text :=
  opening ++ '\\' :: '"' :: (name ++ '\\' :: '"' :: closing)

def framGetQuery : Text :=
  ("query($n: String!) \x7b flag(name: $n) " ++
    "{ name keyId valueType present boolValue intValue } \x7d").toList

/-- `","variables":{"n":"` -/
def variablesOpening : Text := "\",\"variables\":\x7b\"n\":\"".toList

/-- `"}}` -/
def variablesClosing : Text := "\"\x7d\x7d".toList

/-- `fram-get <name>` -/
def framGet (name : Text) : Text :=
  queryOpening ++ framGetQuery ++ variablesOpening ++ escaped name ++ variablesClosing

def mramInfoOpening : Text := "\x7b file(name: ".toList

def mramInfoClosing : Text :=
  ") { name mimeType compressed offset size createdAt updatedAt } \x7d".toList

/-- `mram info <name>` -/
def mramInfo (name : Text) : Text :=
  queryBody (inQuotes mramInfoOpening (escaped name) mramInfoClosing)

def mramRmOpening : Text := "mutation \x7b deleteFile(name: ".toList

def mramRmClosing : Text := ") { success errors deleted } \x7d".toList

/-- `mram rm <name>` -/
def mramRm (name : Text) : Text :=
  queryBody (inQuotes mramRmOpening (escaped name) mramRmClosing)

def mramGetOpening : Text := "\x7b readFile(name: ".toList

def mramGetClosing : Text := ") { name totalSize offset length dataBase64 } \x7d".toList

/-- The document of `mram get <name>`.  Python makes the JSON around it. -/
def mramGet (name : Text) : Text :=
  mramGetOpening ++ '"' :: (escapeQuoted name ++ '"' :: mramGetClosing)

/-! ## From JSON to the document -/

theorem graphql_plain_of_json {c : Char} (h : json.Plain c) : graphql.Plain c :=
  ⟨h.1, h.2.1, Bool.or_eq_true_iff.mpr (Or.inl h.2.2)⟩

theorem lex_queryOpening (text : Text) : lex json (queryOpening ++ text) =
    lexFrom json (.quoted []) ((queryOnly []).take 3).reverse text :=
  rfl

theorem lexFrom_queryClosing (read : Text) :
    lexFrom json (.quoted read) ((queryOnly []).take 3).reverse queryClosing =
      some (queryOnly read.reverse) := by
  cases read <;> rfl

/-- A name in quotes, between two pieces of text that mean what they say. -/
theorem queryBody_inQuotes {opening closing : Text} (n : Text)
    (hopening : ∀ c ∈ opening, json.Plain c) (hclosing : ∀ c ∈ closing, json.Plain c) :
    lex json (queryBody (inQuotes opening (escapeQuoted n) closing)) =
      if n.all json.inQuotes then some (queryOnly (opening ++ '"' :: (n ++ '"' :: closing)))
      else none := by
  have hquote (read text : Text) (found : List Token) :
      lexFrom json (.quoted read) found ('\\' :: '"' :: text) =
        lexFrom json (.quoted ('"' :: read)) found text := rfl
  rw [queryBody, inQuotes, List.append_assoc, lex_queryOpening, List.append_assoc,
    lexFrom_append_plain hopening, List.cons_append, List.cons_append, hquote, List.append_assoc,
    lexFrom_escapeQuoted rfl rfl]
  split
  · rw [List.cons_append, List.cons_append, hquote, lexFrom_append_plain hclosing,
      lexFrom_queryClosing]
    simp only [List.reverse_append, List.reverse_reverse, List.reverse_cons, List.append_nil,
      List.append_assoc, List.cons_append, List.nil_append]
  · rfl

theorem framGet_lex (name : Text) : lex json (framGet name) =
    if (withoutNewlines name).all json.inQuotes then
      some (queryWithName framGetQuery (withoutNewlines name)) else none := by
  have hbetween (read text : Text) : lexFrom json (.quoted read) ((queryOnly []).take 3).reverse
      (variablesOpening ++ text) =
        lexFrom json (.quoted []) ((queryWithName read.reverse []).take 10).reverse text := by
    cases read <;> rfl
  have hend (query read : Text) : lexFrom json (.quoted read)
      ((queryWithName query []).take 10).reverse variablesClosing =
        some (queryWithName query read.reverse) := by
    cases read <;> rfl
  have hquery : ∀ c ∈ framGetQuery, json.Plain c := Lexicon.plain_of_isPlain rfl
  rw [framGet, List.append_assoc, List.append_assoc, List.append_assoc, lex_queryOpening,
    lexFrom_append_plain hquery, hbetween, escaped, lexFrom_escapeQuoted rfl rfl]
  split
  · rw [hend]
    simp only [List.append_nil, List.reverse_reverse]
  · rfl

/-! ## From the document to the name -/

/-- A document with a name in quotes between `before` and `after`. -/
structure NameSlot where
  opening : Text
  closing : Text
  before : List Token
  after : List Token
  reads_opening : ∀ text, lex graphql (opening ++ '"' :: text) =
    lexFrom graphql (.quoted []) before.reverse text
  reads_closing : ∀ name, lexFrom graphql (.quoted name) before.reverse ('"' :: closing) =
    some (before ++ .text name.reverse :: after)
  no_quote : '"' ∉ closing

namespace NameSlot

variable (slot : NameSlot)

def document (name : Text) : List Token := slot.before ++ .text name :: slot.after

theorem lex_escaped (name : Text) :
    lex graphql (slot.opening ++ '"' :: (escapeQuoted name ++ '"' :: slot.closing)) =
      if name.all graphql.inQuotes then some (slot.document name) else none := by
  rw [slot.reads_opening, lexFrom_escapeQuoted rfl rfl, slot.reads_closing, List.append_nil,
    List.reverse_reverse]
  rfl

/-- A name that is put in as it is reaches the service only if nothing in it is special. -/
theorem lex_plain_iff {n name : Text} (hle : n.length ≤ name.length) :
    lex graphql (slot.opening ++ '"' :: (n ++ '"' :: slot.closing)) = some (slot.document name) ↔
      n = name ∧ ∀ c ∈ n, graphql.Plain c := by
  rw [slot.reads_opening]
  constructor
  · intro h
    obtain ⟨content, ⟨rest, hfound⟩, hlength, hplain⟩ := lexFrom_quoted slot.no_quote h
    rw [List.reverse_reverse, List.append_assoc, document] at hfound
    cases List.append_cancel_left hfound
    obtain ⟨rfl, hall⟩ := hplain (Nat.le_antisymm hlength hle)
    exact ⟨rfl, hall⟩
  · rintro ⟨rfl, hall⟩
    rw [lexFrom_append_plain hall, slot.reads_closing, List.append_nil, List.reverse_reverse]
    rfl

end NameSlot

set_option maxRecDepth 2000 in
/-- `{ file(name: "...") { name mimeType compressed offset size createdAt updatedAt } }` -/
def mramInfoSlot : NameSlot where
  opening := mramInfoOpening
  closing := mramInfoClosing
  before := [.punctuator '{', .name "file".toList, .punctuator '(', .name "name".toList,
    .punctuator ':']
  after := [.punctuator ')', .punctuator '{'] ++ words ["name", "mimeType", "compressed", "offset",
    "size", "createdAt", "updatedAt"] ++ [.punctuator '}', .punctuator '}']
  reads_opening _ := rfl
  reads_closing name := by cases name <;> rfl
  no_quote := by decide

/-- `mutation { deleteFile(name: "...") { success errors deleted } }` -/
def mramRmSlot : NameSlot where
  opening := mramRmOpening
  closing := mramRmClosing
  before := [.name "mutation".toList, .punctuator '{', .name "deleteFile".toList, .punctuator '(',
    .name "name".toList, .punctuator ':']
  after := [.punctuator ')', .punctuator '{'] ++ words ["success", "errors", "deleted"] ++
    [.punctuator '}', .punctuator '}']
  reads_opening _ := rfl
  reads_closing name := by cases name <;> rfl
  no_quote := by decide

/-- `{ readFile(name: "...") { name totalSize offset length dataBase64 } }` -/
def mramGetSlot : NameSlot where
  opening := mramGetOpening
  closing := mramGetClosing
  before := [.punctuator '{', .name "readFile".toList, .punctuator '(', .name "name".toList,
    .punctuator ':']
  after := [.punctuator ')', .punctuator '{'] ++ words ["name", "totalSize", "offset", "length",
    "dataBase64"] ++ [.punctuator '}', .punctuator '}']
  reads_opening _ := rfl
  reads_closing name := by cases name <;> rfl
  no_quote := by decide

/-! ## Names that reach a service -/

theorem withoutNewlines_eq {name : Text} (h : '\n' ∉ name) : withoutNewlines name = name := by
  have hkeep : name.reverse.dropWhile (· == '\n') = name.reverse := by
    rw [List.dropWhile_eq_self_iff]
    intro hpos hlast
    have hmem := List.mem_reverse.mp (List.getElem_mem hpos)
    exact h (beq_iff_eq.mp hlast ▸ hmem)
  rw [withoutNewlines, hkeep, List.reverse_reverse]

theorem withoutNewlines_length_le (name : Text) : (withoutNewlines name).length ≤ name.length := by
  have hle := (List.dropWhile_suffix (l := name.reverse) (· == '\n')).length_le
  rwa [List.length_reverse, ← List.length_reverse] at hle

/-- No newline may stand in quotes. -/
theorem withoutNewlines_eq_of_inQuotes {lexicon : Lexicon} {name : Text}
    (hnewline : lexicon.inQuotes '\n' = false) (h : ∀ c ∈ name, lexicon.inQuotes c = true) :
    withoutNewlines name = name := by
  refine withoutNewlines_eq fun hmem => ?_
  have hin := h _ hmem
  rw [hnewline] at hin
  cases hin

/-- A name that is escaped once stands in a document only if it needs no escape. -/
theorem NameSlot.documentOf_iff (slot : NameSlot) (hopening : ∀ c ∈ slot.opening, json.Plain c)
    (hclosing : ∀ c ∈ slot.closing, json.Plain c) (name : Text) :
    documentOf (queryBody (inQuotes slot.opening (escaped name) slot.closing)) =
        some (slot.document name) ↔ ∀ c ∈ name, json.Plain c := by
  rw [documentOf, escaped, queryBody_inQuotes _ hopening hclosing]
  constructor
  · intro h
    split at h
    · next body heq =>
        split at heq
        · next hall =>
            cases heq
            obtain ⟨hsame, hplain⟩ :=
              (slot.lex_plain_iff (withoutNewlines_length_le name)).mp h
            rw [hsame] at hall hplain
            exact fun c hc => ⟨(hplain c hc).1, (hplain c hc).2.1, List.all_eq_true.mp hall c hc⟩
        · cases heq
    · cases h
  · intro h
    have hsame : withoutNewlines name = name :=
      withoutNewlines_eq_of_inQuotes rfl fun c hc => (h c hc).2.2
    rw [hsame, if_pos (List.all_eq_true.mpr fun c hc => (h c hc).2.2)]
    exact (slot.lex_plain_iff (Nat.le_refl _)).mpr ⟨rfl, fun c hc => graphql_plain_of_json (h c hc)⟩

inductive Tool where
  | framGet
  | mramInfo
  | mramGet
  | mramRm
  deriving DecidableEq

namespace Tool

def body (tool : Tool) (name : Text) : Text :=
  match tool with
  | .framGet => Requests.framGet name
  | .mramInfo => Requests.mramInfo name
  | .mramGet => Requests.mramGet name
  | .mramRm => Requests.mramRm name

/-- Without a name `mram` stops, and `fram-get` asks for the mission state. -/
def request (tool : Tool) (name : Text) : Option Text :=
  if name = [] then none else some (tool.body name)

/-- The service reads the request that is meant. -/
def Understood (tool : Tool) (name request : Text) : Prop :=
  match tool with
  | .framGet => lex json request = some (queryWithName framGetQuery name)
  | .mramInfo => documentOf request = some (mramInfoSlot.document name)
  | .mramGet => lex graphql request = some (mramGetSlot.document name)
  | .mramRm => documentOf request = some (mramRmSlot.document name)

/-- `mram info` and `mram rm` escape for JSON but not for the document in it. -/
def allows (tool : Tool) (c : Char) : Bool :=
  match tool with
  | .framGet => json.inQuotes c
  | .mramGet => graphql.inQuotes c
  | .mramInfo | .mramRm => json.inQuotes c && c != '"' && c != '\\'

end Tool

theorem framGet_understood (name : Text) :
    lex json (framGet name) = some (queryWithName framGetQuery name) ↔
      ∀ c ∈ name, json.inQuotes c = true := by
  rw [framGet_lex]
  constructor
  · intro h
    split at h
    · next hall =>
        have hsame : withoutNewlines name = name := by
          simp only [queryWithName, Option.some.injEq, List.cons.injEq, Token.text.injEq,
            true_and, and_true] at h
          exact h
        rw [hsame] at hall
        exact List.all_eq_true.mp hall
    · cases h
  · intro h
    rw [withoutNewlines_eq_of_inQuotes rfl h, if_pos (List.all_eq_true.mpr h)]

theorem mramGet_understood (name : Text) :
    lex graphql (mramGet name) = some (mramGetSlot.document name) ↔
      ∀ c ∈ name, graphql.inQuotes c = true := by
  have hlex : lex graphql (mramGet name) =
      if name.all graphql.inQuotes then some (mramGetSlot.document name) else none :=
    mramGetSlot.lex_escaped name
  rw [hlex, ← List.all_eq_true]
  split
  · next hall => exact iff_of_true rfl hall
  · next hall => exact iff_of_false nofun hall

theorem understood_iff (tool : Tool) (name : Text) :
    tool.Understood name (tool.body name) ↔ ∀ c ∈ name, tool.allows c := by
  have hplain (c : Char) : (json.inQuotes c && c != '"' && c != '\\') = true ↔ json.Plain c := by
    simp only [Lexicon.Plain, Bool.and_eq_true, bne_iff_ne, ne_eq]
    tauto
  cases tool with
  | framGet => exact framGet_understood name
  | mramInfo =>
      simp only [Tool.allows, hplain]
      exact mramInfoSlot.documentOf_iff (Lexicon.plain_of_isPlain rfl)
        (Lexicon.plain_of_isPlain rfl) name
  | mramGet => exact mramGet_understood name
  | mramRm =>
      simp only [Tool.allows, hplain]
      exact mramRmSlot.documentOf_iff (Lexicon.plain_of_isPlain rfl)
        (Lexicon.plain_of_isPlain rfl) name

/-- Which names reach the service as they were given. -/
theorem reaches_iff (tool : Tool) (name : Text) :
    (∃ request, tool.request name = some request ∧ tool.Understood name request) ↔
      name ≠ [] ∧ ∀ c ∈ name, tool.allows c := by
  rw [← understood_iff, Tool.request]
  constructor
  · rintro ⟨request, hrequest, hunderstood⟩
    split at hrequest
    · cases hrequest
    · next hname =>
        cases hrequest
        exact ⟨hname, hunderstood⟩
  · rintro ⟨hname, hunderstood⟩
    exact ⟨tool.body name, if_neg hname, hunderstood⟩

/-! ## Setting a flag -/

/-- `[A-Za-z0-9_.-]` -/
def isFlagChar (c : Char) : Bool := c.isAlphanum || c == '_' || c == '.' || c == '-'

def trueWords : List Text := ["true".toList, "TRUE".toList, "True".toList]

def falseWords : List Text := ["false".toList, "FALSE".toList, "False".toList]

def framSetArg (value : Text) : Option Text :=
  if value ∈ trueWords then some "boolValue:true".toList
  else if value ∈ falseWords then some "boolValue:false".toList
  else if value = [] || value.any (fun c => !(c.isDigit || c == '-')) then none
  else some ("intValue:".toList ++ value)

def framSetOpening : Text := "mutation \x7b setFlag(name:".toList

/-- `) { success errors flag { present boolValue intValue } } }` -/
def framSetClosing : Text :=
  ") \x7b success errors flag \x7b present boolValue intValue \x7d \x7d \x7d".toList

def framSetBody (name arg mirror : Text) : Text :=
  queryBody (inQuotes framSetOpening name
    (", ".toList ++ arg ++ ", mirrorToEnv:".toList ++ mirror ++ framSetClosing))

/-- `MIRROR="${3:-false}"` -/
def framSetMirror (mirror : Text) : Text := if mirror = [] then "false".toList else mirror

/-- `fram-set <name> <value> [mirrorToEnv]` -/
def framSet (name value mirror : Text) : Option Text :=
  if name = [] ∨ value = [] then none
  else if name.any (fun c => !isFlagChar c) then none
  else if framSetMirror mirror ∈ ["true".toList, "false".toList] then
    (framSetArg value).map fun arg => framSetBody name arg (framSetMirror mirror)
  else none

def setFlagOpening : List Token :=
  [.name "mutation".toList, .punctuator '{', .name "setFlag".toList, .punctuator '(',
    .name "name".toList, .punctuator ':']

def setFlagClosing (mirror : Text) : List Token :=
  [.name "mirrorToEnv".toList, .punctuator ':', .name mirror, .punctuator ')', .punctuator '{'] ++
  words ["success", "errors", "flag"] ++ [.punctuator '{'] ++
  words ["present", "boolValue", "intValue"] ++
  [.punctuator '}', .punctuator '}', .punctuator '}']

/-- `mutation { setFlag(name: "...", arg, mirrorToEnv: ...) { ... } }` -/
def setFlag (name : Text) (arg : List Token) (mirror : Text) : List Token :=
  setFlagOpening ++ .text name :: (arg ++ setFlagClosing mirror)

def boolArg (word : String) : List Token :=
  [.name "boolValue".toList, .punctuator ':', .name word.toList]

def intArg (numbers : List Text) : List Token :=
  [.name "intValue".toList, .punctuator ':'] ++ numbers.map .number

theorem digit_range {c : Char} (h : c.isDigit = true) : 48 ≤ c.toNat ∧ c.toNat ≤ 57 := by
  obtain ⟨hlow, hhigh⟩ := Bool.and_eq_true_iff.mp h
  exact ⟨UInt32.le_iff_toNat_le.mp (of_decide_eq_true hlow),
    UInt32.le_iff_toNat_le.mp (of_decide_eq_true hhigh)⟩

theorem le_of_isAlpha {c : Char} (h : c.isAlpha = true) : 65 ≤ c.toNat := by
  rcases Bool.or_eq_true_iff.mp h with hupper | hlower
  · exact UInt32.le_iff_toNat_le.mp (of_decide_eq_true hupper).1
  · have hle : 97 ≤ c.toNat :=
      UInt32.le_iff_toNat_le.mp (of_decide_eq_true (Bool.and_eq_true_iff.mp hlower).1)
    omega

theorem json_plain_of_isFlagChar {c : Char} (h : isFlagChar c = true) : json.Plain c := by
  refine ⟨?_, ?_, ?_⟩
  · rintro rfl
    exact absurd h (by decide)
  · rintro rfl
    exact absurd h (by decide)
  · have hle : 32 ≤ c.toNat := by
      simp only [isFlagChar, Bool.or_eq_true, beq_iff_eq] at h
      rcases h with ((halphanum | rfl) | rfl) | rfl
      · rcases Bool.or_eq_true_iff.mp halphanum with halpha | hdigit
        · have := le_of_isAlpha halpha
          omega
        · have := (digit_range hdigit).1
          omega
      all_goals decide
    exact decide_eq_true (UInt32.le_iff_toNat_le.mpr hle)

theorem separator_comma : Separator graphql ',' where
  start_eq _ := rfl
  not_quote := by decide
  not_in_token := rfl

theorem lex_framSetOpening (text : Text) : lex graphql (framSetOpening ++ '"' :: text) =
    lexFrom graphql (.quoted []) setFlagOpening.reverse text :=
  rfl

theorem lexFrom_comma (read text : Text) (found : List Token) :
    lexFrom graphql (.quoted read) found ('"' :: (", ".toList ++ text)) =
      lexFrom graphql .between (.text read.reverse :: found) text := by
  cases read <;> rfl

set_option maxRecDepth 2000 in
theorem lex_mirrorToEnv {mirror : Text} (hmirror : mirror ∈ ["true".toList, "false".toList]) :
    lex graphql (" mirrorToEnv:".toList ++ mirror ++ framSetClosing) =
      some (setFlagClosing mirror) := by
  rcases List.mem_pair.mp hmirror with rfl | rfl
  · rfl
  · rfl

/-- Whatever the argument is, it is the only part of the document that may go wrong. -/
theorem documentOf_framSetBody {name arg mirror : Text} (hname : ∀ c ∈ name, json.Plain c)
    (harg : ∀ c ∈ arg, json.Plain c) (hmirror : mirror ∈ ["true".toList, "false".toList]) :
    documentOf (framSetBody name arg mirror) =
      (lex graphql arg).map fun tokens => setFlag name tokens mirror := by
  have hopening : ∀ c ∈ framSetOpening, json.Plain c := Lexicon.plain_of_isPlain rfl
  have hclosing : ∀ c ∈ ", ".toList ++ arg ++ ", mirrorToEnv:".toList ++ mirror ++ framSetClosing,
      json.Plain c := by
    have hcomma : ∀ c ∈ ", ".toList, json.Plain c := Lexicon.plain_of_isPlain rfl
    have hmirrorTo : ∀ c ∈ ", mirrorToEnv:".toList, json.Plain c := Lexicon.plain_of_isPlain rfl
    have hend : ∀ c ∈ framSetClosing, json.Plain c := Lexicon.plain_of_isPlain rfl
    have hword : ∀ c ∈ mirror, json.Plain c := by
      rcases List.mem_pair.mp hmirror with rfl | rfl
      · exact Lexicon.plain_of_isPlain rfl
      · exact Lexicon.plain_of_isPlain rfl
    simp only [List.forall_mem_append]
    exact ⟨⟨⟨⟨hcomma, harg⟩, hmirrorTo⟩, hword⟩, hend⟩
  have hall : name.all json.inQuotes = true := List.all_eq_true.mpr fun c hc => (hname c hc).2.2
  have hnoquote : '"' ∉ arg := fun hmem => (harg _ hmem).1 rfl
  have hcut : ", ".toList ++ arg ++ ", mirrorToEnv:".toList ++ mirror ++ framSetClosing =
      ", ".toList ++ (arg ++ ',' :: (" mirrorToEnv:".toList ++ mirror ++ framSetClosing)) := by
    simp only [List.append_assoc]
    rfl
  rw [documentOf, framSetBody, ← escapeQuoted_eq_self hname,
    queryBody_inQuotes _ hopening hclosing, if_pos hall, escapeQuoted_eq_self hname]
  simp only [queryOnly]
  rw [hcut, lex_framSetOpening, lexFrom_append_plain fun c hc => graphql_plain_of_json (hname c hc),
    lexFrom_comma, lexFrom_separator separator_comma rfl _ hnoquote, lexFrom_eq_map,
    Option.bind_map, Option.map_eq_bind]
  refine Option.bind_congr fun tokens _ => ?_
  rw [Function.comp_apply, lexFrom_eq_map]
  refine (congrArg _ (lex_mirrorToEnv hmirror)).trans ?_
  simp only [Option.map_some, List.reverse_reverse, List.reverse_cons, List.append_nil,
    List.append_assoc, Function.comp_apply, setFlag, List.cons_append, List.nil_append]

/-- What the service makes of `<value>`. -/
inductive Carries (value : Text) : List Token → Prop where
  | yes (h : value ∈ trueWords) : Carries value (boolArg "true")
  | no (h : value ∈ falseWords) : Carries value (boolArg "false")
  | numbers (numbers : List Text) (hflatten : numbers.flatten = value)
      (hintegers : ∀ n ∈ numbers, isInteger n = true) : Carries value (intArg numbers)

/-- The argument that `<value>` stands for. -/
def meant (value : Text) : List Token :=
  if value ∈ trueWords then boolArg "true"
  else if value ∈ falseWords then boolArg "false"
  else intArg [value]

/-- Which way an argument was made. -/
inductive ArgOf (value : Text) : Text → Prop where
  | yes (h : value ∈ trueWords) : ArgOf value "boolValue:true".toList
  | no (h : value ∉ trueWords) (hfalse : value ∈ falseWords) :
      ArgOf value "boolValue:false".toList
  | int (h : value ∉ trueWords) (hfalse : value ∉ falseWords) (c : Char) (rest : Text)
      (hvalue : value = c :: rest) (hdigits : ∀ d ∈ value, d = '-' ∨ d.isDigit = true) :
      ArgOf value ("intValue:".toList ++ value)

theorem framSetArg_cases {value arg : Text} (h : framSetArg value = some arg) :
    ArgOf value arg := by
  unfold framSetArg at h
  split at h
  · next htrue =>
      cases h
      exact .yes htrue
  split at h
  · next htrue hfalse =>
      cases h
      exact .no htrue hfalse
  split at h
  · cases h
  · next htrue hfalse hdigits =>
      cases h
      cases value with
      | nil => exact absurd rfl hdigits
      | cons c rest =>
          refine .int htrue hfalse c rest rfl fun d hd => ?_
          rw [Bool.or_eq_true, not_or, List.any_eq_true, not_exists] at hdigits
          have hnot := hdigits.2 d
          rw [not_and, Bool.not_eq_true', Bool.not_eq_false] at hnot
          rcases Bool.or_eq_true_iff.mp (hnot hd) with hdigit | hminus
          · exact Or.inr hdigit
          · exact Or.inl (beq_iff_eq.mp hminus)

theorem graphql_start_number {c : Char} (hc : c = '-' ∨ c.isDigit = true) (found : List Token) :
    start graphql found c = some (.number [c], found) := by
  rcases hc with rfl | hdigit
  · rfl
  · have hquote : c ≠ '"' := by
      rintro rfl
      cases hdigit
    have hother (chars : List Char) (hnone : chars.any Char.isDigit = false) : c ∉ chars :=
      fun hmem => Bool.false_ne_true (hnone.symm.trans (List.any_eq_true.mpr ⟨c, hmem, hdigit⟩))
    have hname : ¬ isNameStart c = true := by
      intro h
      have hle := (digit_range hdigit).2
      rcases Bool.or_eq_true_iff.mp h with halpha | hunderscore
      · have := le_of_isAlpha halpha
        omega
      · rw [beq_iff_eq.mp hunderscore] at hle
        exact absurd hle (by decide)
    rw [start, if_neg hquote, if_neg (hother _ rfl), if_neg (hother _ rfl), if_neg hname,
      if_pos (Or.inr hdigit)]

theorem framSetArg_plain {value arg : Text} (h : framSetArg value = some arg) :
    ∀ c ∈ arg, json.Plain c := by
  cases framSetArg_cases h with
  | yes => exact Lexicon.plain_of_isPlain rfl
  | no => exact Lexicon.plain_of_isPlain rfl
  | int htrue hfalse c rest hvalue hdigits =>
      have hint : ∀ c ∈ "intValue:".toList, json.Plain c := Lexicon.plain_of_isPlain rfl
      refine List.forall_mem_append.mpr ⟨hint, fun d hd => json_plain_of_isFlagChar ?_⟩
      rcases hdigits d hd with rfl | hdigit
      · rfl
      · rw [isFlagChar, Char.isAlphanum, hdigit, Bool.or_true, Bool.true_or, Bool.true_or,
          Bool.true_or]

theorem lex_intValue (value : Text) : lex graphql ("intValue:".toList ++ value) =
    (lex graphql value).map (intArg [] ++ ·) :=
  lexFrom_eq_map .between (intArg []).reverse value

theorem framSetArg_carries {value arg : Text} (h : framSetArg value = some arg)
    {tokens : List Token} (hlex : lex graphql arg = some tokens) : Carries value tokens := by
  cases framSetArg_cases h with
  | yes htrue =>
      cases hlex
      exact .yes htrue
  | no htrue hfalse =>
      cases hlex
      exact .no hfalse
  | int htrue hfalse c rest hvalue hdigits =>
      rw [lex_intValue, Option.map_eq_some_iff] at hlex
      obtain ⟨read, hread, rfl⟩ := hlex
      subst hvalue
      obtain ⟨hc, hrest⟩ := List.forall_mem_cons.mp hdigits
      rw [lex, lexFrom, advance, graphql_start_number hc] at hread
      obtain ⟨numbers, rfl, hflatten, hintegers⟩ :=
        lexFrom_numbers hrest (graphql_start_number (Or.inl rfl)) hread
      exact .numbers numbers hflatten hintegers

theorem framSetArg_meant {value arg : Text} (h : framSetArg value = some arg)
    (hvalue : value ∈ trueWords ∨ value ∈ falseWords ∨ isInteger value = true) :
    lex graphql arg = some (meant value) := by
  cases framSetArg_cases h with
  | yes htrue =>
      rw [meant, if_pos htrue]
      rfl
  | no htrue hfalse =>
      rw [meant, if_neg htrue, if_pos hfalse]
      rfl
  | int htrue hfalse =>
      have hinteger : isInteger value = true := (hvalue.resolve_left htrue).resolve_left hfalse
      rw [lex_intValue, lexFrom_integer hinteger fun c hc => graphql_start_number hc [], meant,
        if_neg htrue, if_neg hfalse]
      rfl

/-- A word for true or false, or an integer as GraphQL spells it. -/
def Proper (value : Text) : Prop :=
  value ∈ trueWords ∨ value ∈ falseWords ∨ isInteger value = true

theorem meant_iff {value : Text} (hcarries : Carries value (meant value)) : Proper value := by
  by_cases htrue : value ∈ trueWords
  · exact Or.inl htrue
  by_cases hfalse : value ∈ falseWords
  · exact Or.inr (Or.inl hfalse)
  rw [meant, if_neg htrue, if_neg hfalse] at hcarries
  generalize harg : intArg [value] = arg at hcarries
  cases hcarries with
  | yes h => exact absurd h htrue
  | no h => exact absurd h hfalse
  | numbers numbers hflatten hintegers =>
      have hmap := List.append_cancel_left harg
      cases numbers with
      | nil => cases hmap
      | cons n numbers =>
          have hn : value = n := Token.number.inj (List.cons.inj hmap).1
          exact Or.inr (Or.inr (hn ▸ hintegers n List.mem_cons_self))

/-- A request that is sent sets the flag that was named or none, to the value that was meant or
to numbers with the same digits, and leaves the mirror as it was asked for. -/
theorem framSet_document {name value mirror body : Text}
    (h : framSet name value mirror = some body) :
    (∀ tokens, documentOf body = some tokens →
        ∃ arg, Carries value arg ∧ tokens = setFlag name arg (framSetMirror mirror)) ∧
      (documentOf body = some (setFlag name (meant value) (framSetMirror mirror)) ↔
        Proper value) := by
  unfold framSet at h
  split at h
  · cases h
  split at h
  · cases h
  split at h
  · next hflag hmirror =>
      obtain ⟨arg, harg, rfl⟩ := Option.map_eq_some_iff.mp h
      have hname : ∀ c ∈ name, json.Plain c := by
        intro c hc
        refine json_plain_of_isFlagChar (Bool.not_eq_false _ |>.mp fun hbad => hflag ?_)
        exact List.any_eq_true.mpr ⟨c, hc, Bool.not_eq_true' _ |>.mpr hbad⟩
      rw [documentOf_framSetBody hname (framSetArg_plain harg) hmirror]
      constructor
      · intro tokens htokens
        obtain ⟨read, hread, rfl⟩ := Option.map_eq_some_iff.mp htokens
        exact ⟨read, framSetArg_carries harg hread, rfl⟩
      constructor
      · intro heq
        obtain ⟨read, hread, hsame⟩ := Option.map_eq_some_iff.mp heq
        have hmeant : read = meant value :=
          List.append_cancel_right (List.cons.inj (List.append_cancel_left hsame)).2
        exact meant_iff (hmeant ▸ framSetArg_carries harg hread)
      · intro hproper
        rw [framSetArg_meant harg hproper]
        rfl
  · cases h

theorem framSet_document_integer :
    documentOf (framSetBody "totalBootFails".toList "intValue:-12".toList "false".toList) =
      some (setFlag "totalBootFails".toList (intArg ["-12".toList]) "false".toList) := by
  have hsent : framSet "totalBootFails".toList "-12".toList [] =
      some (framSetBody "totalBootFails".toList "intValue:-12".toList "false".toList) := by
    rw [framSet, if_neg (by decide), if_neg (by decide), if_pos (by decide)]
    rfl
  have hproper : Proper "-12".toList := Or.inr (Or.inr (by decide))
  exact (framSet_document hsent).2.mpr hproper

end RadsatLinux.Services.Requests
