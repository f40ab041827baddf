import RadsatLinux.Library.Fields
import RadsatLinux.Services.Requests

/-!
# Replies of the FRAM and MRAM services

A reply is an object on one line; those here have no lists.  `fram-get`, `mram` and `fram-set`
break it at braces and commas with `sed`, and `awk` prints what is left line by line.  Other
scripts look for one word in what `fram-get` has printed.
-/

namespace RadsatLinux.Services.Replies

open RadsatLinux.Library.Fields
open RadsatLinux.Services.Requests (Text)

/-! ## Replies -/

/-- Characters that mean nothing to the scripts. -/
def inWord (c : Char) : Bool := !"\x7b\x7d,\":\\\n".toList.contains c

structure Word where
  text : Text
  plain : text.all inWord = true

theorem Word.not_mem (word : Word) {c : Char} (h : inWord c = false) : c ∉ word.text := fun hmem =>
  Bool.false_ne_true (h.symm.trans (List.all_eq_true.mp word.plain c hmem))

def dataWord : Word := ⟨"data".toList, rfl⟩

def trueWord : Word := ⟨"true".toList, rfl⟩

/-- A number, a truth value or `null` as it is, anything else in quotes. -/
structure Scalar where
  word : Word
  inQuotes : Bool

/-- The members of an object. -/
inductive Members where
  | none
  | leaf (key : Word) (value : Scalar) (rest : Members)
  | node (key : Word) (children rest : Members)

def quoted (text : Text) : Text := '"' :: (text ++ ['"'])

def Scalar.text (value : Scalar) : Text :=
  if value.inQuotes then quoted value.word.text else value.word.text

def joined (texts : List Text) : Text := [','].intercalate texts

def Members.texts : Members → List Text
  | .none => []
  | .leaf key value rest => (quoted key.text ++ ':' :: value.text) :: rest.texts
  | .node key children rest =>
      (quoted key.text ++ ':' :: '{' :: (joined children.texts ++ ['}'])) :: rest.texts

/-- `{...}` -/
def reply (members : Members) : Text := '{' :: (joined members.texts ++ ['}'])

/-! ## What the tools print -/

/-- `sed 's/{/{\n/g; s/}/\n}/g; s/,/\n/g'` -/
def breakLines (text : Text) : Text :=
  substitute ',' ['\n'] (substitute '}' ['\n', '}'] (substitute '{' ['{', '\n'] text))

/-- `gsub(/"/, "")` -/
def withoutQuotes (line : Text) : Text := line.filter (· != '"')

/-- `sub(/:/, ": ")` -/
def spaced (line : Text) : Text :=
  match cutAt [':'] line with
  | (before, some after) => before ++ ':' :: ' ' :: after
  | (before, none) => before

/-- The `awk` program of `fram-get` and of `mram`, which differ in the line for an error. -/
def prettyLine (header raw : Text) : Program Unit Char := fun _ line =>
  let line := withoutQuotes line
  ((), if line = [] ∨ line = ['{'] ∨ line = ['}'] then []
    else if "errors:".toList <+: line then [header, raw]
    else if line = "data:\x7b".toList then []
    else if [':', '{'] <:+ line then [line.dropLast]
    else [' ' :: ' ' :: spaced line])

def printed (header raw : Text) : List Text :=
  (run (prettyLine header raw) () ((breakLines raw).splitOn '\n')).2

def framGetPrints (raw : Text) : List Text := printed "ERROR: see raw response below".toList raw

/-- `pretty` -/
def mramPrints (raw : Text) : List Text := printed "ERROR:".toList raw

/-- `pad` -/
def pad (n : Int) : Text := (List.replicate n.toNat [' ', ' ']).flatten

/-- The `awk` program of `fram-set`, with the depth. -/
def framSetLine : Program Int Char := fun d line =>
  let line := withoutQuotes line
  if line = [] ∨ line = ['{'] then (d, [])
  else if line = ['}'] then (d - 1, [])
  else if [':', '{'] <:+ line then
    let key := line.dropLast.dropLast
    (d + 1, if key ≠ "data".toList then [pad (d - 1) ++ (key ++ [':'])] else [])
  else (d, [pad (d - 1) ++ spaced line])

def framSetPrints (raw : Text) : List Text :=
  (run framSetLine 0 ((breakLines raw).splitOn '\n')).2

/-- `"data":{` -/
def dataText : Text := quoted "data".toList ++ [':', '{']

/-- `"success":true` -/
def successText : Text := quoted "success".toList ++ ':' :: "true".toList

/-- A `case` on the reply: the exit status, and the reply as it is unless `text` is in it. -/
def printedIf (text raw : Text) (lines : List Text) : Nat × List Text :=
  if text <:+: raw then (0, lines) else (1, [raw])

/-- The end of `fram-set`. -/
def framSetEnds (raw : Text) : Nat × List Text := printedIf dataText raw (framSetPrints raw)

/-- The end of `mram put`. -/
def mramPutEnds (raw : Text) : Nat × List Text := printedIf successText raw (mramPrints raw)

/-! ## What there is to print -/

/-- The lines for a member, at some place in the reply. -/
structure Outline (σ : Type) where
  leaf : σ → Word → Word → List Text
  node : σ → Word → List Text
  enter : σ → σ
  leave : σ → σ
  leave_enter : ∀ s, leave (enter s) = s

def Members.outline {σ : Type} (outline : Outline σ) (s : σ) : Members → List Text
  | .none => []
  | .leaf key value rest => outline.leaf s key value.word ++ rest.outline outline s
  | .node key children rest =>
      outline.node s key ++ children.outline outline (outline.enter s) ++ rest.outline outline s

/-- `key: value` -/
def shown (key value : Word) : Text := key.text ++ ':' :: ' ' :: value.text

/-- No depth is shown, and a member with the name `errors` shows the reply, whatever it says. -/
def flat (header raw : Text) : Outline Unit where
  leaf _ key value :=
    if key.text = "errors".toList then [header, raw] else [' ' :: ' ' :: shown key value]
  node _ key :=
    if key.text = "errors".toList then [header, raw]
    else if key.text = "data".toList then []
    else [key.text ++ [':']]
  enter _ := ()
  leave _ := ()
  leave_enter _ := rfl

/-- Two spaces for each object inside `data`. -/
def indented : Outline Int where
  leaf d key value := [pad (d - 1) ++ shown key value]
  node d key := if key.text = "data".toList then [] else [pad (d - 1) ++ (key.text ++ [':'])]
  enter d := d + 1
  leave d := d - 1
  leave_enter d := Int.add_sub_cancel d 1

/-! ## Lines of a reply -/

/-- Text that `sed` leaves on one line. -/
def Unbroken (text : Text) : Prop := ∀ c ∈ text, c ≠ '{' ∧ c ≠ '}' ∧ c ≠ ',' ∧ c ≠ '\n'

theorem Word.unbroken (word : Word) : Unbroken word.text := by
  refine fun c hc => ⟨?_, ?_, ?_, ?_⟩ <;> rintro rfl
  · exact word.not_mem rfl hc
  · exact word.not_mem rfl hc
  · exact word.not_mem rfl hc
  · exact word.not_mem rfl hc

theorem Unbroken.append {text rest : Text} (h : Unbroken text) (hrest : Unbroken rest) :
    Unbroken (text ++ rest) :=
  List.forall_mem_append.mpr ⟨h, hrest⟩

theorem unbroken_quote : Unbroken ['"'] := List.forall_mem_singleton.mpr (by decide)

theorem unbroken_colon : Unbroken [':'] := List.forall_mem_singleton.mpr (by decide)

theorem unbroken_quoted {text : Text} (h : Unbroken text) : Unbroken (quoted text) :=
  unbroken_quote.append (h.append unbroken_quote)

theorem Scalar.unbroken (value : Scalar) : Unbroken value.text := by
  rw [Scalar.text]
  split
  · exact unbroken_quoted value.word.unbroken
  · exact value.word.unbroken

theorem unbroken_leaf (key : Word) (value : Scalar) :
    Unbroken (quoted key.text ++ ':' :: value.text) :=
  (unbroken_quoted key.unbroken).append (unbroken_colon.append value.unbroken)

theorem Unbroken.newline {text : Text} (h : Unbroken text) : '\n' ∉ text :=
  fun hmem => (h _ hmem).2.2.2 rfl

theorem breakLines_append (text rest : Text) :
    breakLines (text ++ rest) = breakLines text ++ breakLines rest := by
  simp only [breakLines, substitute_append]

theorem Unbroken.breakLines {text : Text} (h : Unbroken text) : breakLines text = text := by
  rw [Replies.breakLines, substitute_of_not_mem fun hmem => (h _ hmem).1 rfl,
    substitute_of_not_mem fun hmem => (h _ hmem).2.1 rfl,
    substitute_of_not_mem fun hmem => (h _ hmem).2.2.1 rfl]

theorem breakLines_object (inside : Text) :
    breakLines ('{' :: (inside ++ ['}'])) = '{' :: '\n' :: (breakLines inside ++ ['\n', '}']) :=
  (breakLines_append ['{'] (inside ++ ['}'])).trans
    (congrArg (['{', '\n'] ++ ·) (breakLines_append inside ['}']))

theorem breakLines_comma (text rest : Text) :
    breakLines (text ++ ',' :: rest) = breakLines text ++ '\n' :: breakLines rest :=
  (breakLines_append text (',' :: rest)).trans
    (congrArg (breakLines text ++ ·) (breakLines_append [','] rest))

/-! ## A program that draws an outline -/

structure Draws {σ : Type} (program : Program σ Char) (outline : Outline σ) : Prop where
  blank : ∀ s, program s [] = (s, [])
  opening : ∀ s, program s ['{'] = (s, [])
  closing : ∀ s, program s ['}'] = (outline.leave s, [])
  leaf : ∀ s key (value : Scalar), program s (quoted key.text ++ ':' :: value.text) =
    (s, outline.leaf s key value.word)
  node : ∀ s (key : Word), program s (quoted key.text ++ [':', '{']) =
    (outline.enter s, outline.node s key)

namespace Draws

variable {σ : Type} {program : Program σ Char} {outline : Outline σ}

theorem joined_cons (h : Draws program outline) {s : σ} {text : Text} {texts : List Text}
    {out rest : List Text} (htext : Prints program '\n' s (breakLines text) s out)
    (htexts : Prints program '\n' s (breakLines (joined texts)) s rest) :
    Prints program '\n' s (breakLines (joined (text :: texts))) s (out ++ rest) := by
  cases texts with
  | nil =>
      have hblank : Prints program '\n' s [] s [] := .line List.not_mem_nil (h.blank s)
      obtain rfl : rest = [] := congrArg Prod.snd (htexts.symm.trans hblank)
      have halone : joined [text] = text := List.intercalate_singleton
      rw [halone, List.append_nil]
      exact htext
  | cons next texts =>
      have hcomma : joined (text :: next :: texts) = text ++ ',' :: joined (next :: texts) :=
        List.intercalate_cons_cons.trans (List.append_assoc text [','] _)
      rw [hcomma, breakLines_comma]
      exact htext.lines htexts

theorem object (h : Draws program outline) {before : Text} {s s' : σ} {out inside : List Text}
    {members : Text} (hbefore : '\n' ∉ before) (hopening : program s before = (s', out))
    (hmembers : Prints program '\n' s' (breakLines members) s' inside) :
    Prints program '\n' s (before ++ '\n' :: (breakLines members ++ ['\n', '}']))
      (outline.leave s') (out ++ inside) := by
  have hclosing : Prints program '\n' s' ['}'] (outline.leave s') [] :=
    .line (by decide) (h.closing s')
  have hinside := hmembers.lines hclosing
  rw [List.append_nil] at hinside
  exact (Prints.line hbefore hopening).lines hinside

/-- Member after member, and into each object. -/
theorem members (h : Draws program outline) (members : Members) (s : σ) :
    Prints program '\n' s (breakLines (joined members.texts)) s (members.outline outline s) := by
  induction members generalizing s with
  | none => exact .line List.not_mem_nil (h.blank s)
  | leaf key value rest ih =>
      refine h.joined_cons ?_ (ih s)
      rw [(unbroken_leaf key value).breakLines]
      exact .line (unbroken_leaf key value).newline (h.leaf s key value)
  | node key children rest ihchildren ihrest =>
      refine h.joined_cons ?_ (ihrest s)
      have hkey := unbroken_quoted key.unbroken
      have hline : '\n' ∉ quoted key.text ++ [':', '{'] := by
        rw [List.mem_append, not_or]
        exact ⟨hkey.newline, by decide⟩
      have hobject := h.object hline (h.node s key) (ihchildren (outline.enter s))
      rw [outline.leave_enter, List.append_assoc] at hobject
      have hbreak := breakLines_append (quoted key.text ++ [':'])
        ('{' :: (joined children.texts ++ ['}']))
      rw [(hkey.append unbroken_colon).breakLines, breakLines_object, List.append_assoc,
        List.append_assoc] at hbreak
      exact hbreak ▸ hobject

/-- Whatever the reply is, its outline is what gets printed. -/
theorem prints (h : Draws program outline) (members : Members) (s : σ) :
    (run program s ((breakLines (reply members)).splitOn '\n')).2 = members.outline outline s := by
  have hline : '\n' ∉ ['{'] := by decide
  have hobject := h.object hline (h.opening s) (h.members members s)
  rw [reply, breakLines_object]
  exact congrArg Prod.snd hobject

end Draws

/-! ## The two programs -/

theorem withoutQuotes_append (text rest : Text) :
    withoutQuotes (text ++ rest) = withoutQuotes text ++ withoutQuotes rest :=
  List.filter_append ..

theorem Word.withoutQuotes (word : Word) : withoutQuotes word.text = word.text := by
  refine List.filter_eq_self.mpr fun c hc => bne_iff_ne.mpr ?_
  rintro rfl
  exact word.not_mem rfl hc

theorem withoutQuotes_quoted (word : Word) : withoutQuotes (quoted word.text) = word.text := by
  have happend := withoutQuotes_append word.text ['"']
  rw [word.withoutQuotes] at happend
  exact happend.trans (List.append_nil _)

theorem Scalar.withoutQuotes (value : Scalar) : withoutQuotes value.text = value.word.text := by
  rw [Scalar.text]
  split
  · exact withoutQuotes_quoted value.word
  · exact value.word.withoutQuotes

theorem withoutQuotes_leaf (key : Word) (value : Scalar) :
    withoutQuotes (quoted key.text ++ ':' :: value.text) = key.text ++ ':' :: value.word.text := by
  rw [withoutQuotes_append, withoutQuotes_quoted]
  exact congrArg (key.text ++ ':' :: ·) value.withoutQuotes

theorem withoutQuotes_node (key : Word) :
    withoutQuotes (quoted key.text ++ [':', '{']) = key.text ++ [':', '{'] := by
  rw [withoutQuotes_append, withoutQuotes_quoted]
  rfl

theorem spaced_append (key : Word) (rest : Text) :
    spaced (key.text ++ ':' :: rest) = key.text ++ ':' :: ' ' :: rest := by
  have hcut := cutAt_append (key.not_mem rfl : ':' ∉ key.text) [] rest
  rw [List.nil_append] at hcut
  rw [spaced, hcut]

/-- A line with a colon is no brace. -/
theorem append_colon_ne (text rest : Text) : text ++ ':' :: rest ≠ [] ∧
    text ++ ':' :: rest ≠ ['{'] ∧ text ++ ':' :: rest ≠ ['}'] := by
  have hcolon : ':' ∈ text ++ ':' :: rest := List.mem_append_right text List.mem_cons_self
  refine ⟨List.ne_nil_of_mem hcolon, ?_, ?_⟩ <;> intro heq
  · rw [heq] at hcolon
    exact absurd hcolon (by decide)
  · rw [heq] at hcolon
    exact absurd hcolon (by decide)

theorem leaf_no_brace (key value : Word) : ¬ [':', '{'] <:+ key.text ++ ':' :: value.text := by
  intro hsuffix
  have hmem : '{' ∈ key.text ++ ':' :: value.text :=
    hsuffix.subset (List.mem_cons_of_mem _ List.mem_cons_self)
  rcases List.mem_append.mp hmem with hkey | hvalue
  · exact key.not_mem rfl hkey
  · rcases List.mem_cons.mp hvalue with hcolon | hvalue
    · exact absurd hcolon (by decide)
    · exact value.not_mem rfl hvalue

theorem errors_prefix_iff (key : Word) (rest : Text) :
    "errors:".toList <+: key.text ++ ':' :: rest ↔ key.text = "errors".toList := by
  have hword : ':' ∉ "errors".toList := by decide
  exact (prefix_mark_iff hword (key.not_mem rfl) rest).trans eq_comm

theorem node_eq_data_iff (key : Word) :
    key.text ++ [':', '{'] = "data:\x7b".toList ↔ key.text = "data".toList := by
  have hdata : "data:\x7b".toList = "data".toList ++ [':', '{'] := rfl
  rw [hdata, List.append_left_inj]

theorem node_dropLast (key : Word) : (key.text ++ [':', '{']).dropLast = key.text ++ [':'] :=
  (congrArg List.dropLast (List.append_assoc key.text [':'] ['{'])).symm.trans List.dropLast_concat

theorem prettyLine_draws (header raw : Text) : Draws (prettyLine header raw) (flat header raw) where
  blank _ := rfl
  opening _ := rfl
  closing _ := rfl
  leaf _ key value := by
    obtain ⟨hnil, hopening, hclosing⟩ := append_colon_ne key.text value.word.text
    have hline : ¬ (key.text ++ ':' :: value.word.text = [] ∨
        key.text ++ ':' :: value.word.text = ['{'] ∨
          key.text ++ ':' :: value.word.text = ['}']) :=
      not_or.mpr ⟨hnil, not_or.mpr ⟨hopening, hclosing⟩⟩
    have hdata : key.text ++ ':' :: value.word.text ≠ "data:\x7b".toList := fun heq =>
      leaf_no_brace key value.word (heq ▸ by decide)
    simp only [prettyLine, withoutQuotes_leaf, if_neg hline, errors_prefix_iff, if_neg hdata,
      if_neg (leaf_no_brace key value.word), spaced_append, flat, shown]
  node _ key := by
    obtain ⟨hnil, hopening, hclosing⟩ := append_colon_ne key.text ['{']
    have hline : ¬ (key.text ++ [':', '{'] = [] ∨ key.text ++ [':', '{'] = ['{'] ∨
        key.text ++ [':', '{'] = ['}']) :=
      not_or.mpr ⟨hnil, not_or.mpr ⟨hopening, hclosing⟩⟩
    have hsuffix : [':', '{'] <:+ key.text ++ [':', '{'] := List.suffix_append _ _
    simp only [prettyLine, withoutQuotes_node, if_neg hline, errors_prefix_iff, node_eq_data_iff,
      if_pos hsuffix, node_dropLast, flat]

theorem framSetLine_draws : Draws framSetLine indented where
  blank _ := rfl
  opening _ := rfl
  closing _ := rfl
  leaf d key value := by
    obtain ⟨hnil, hopening, hclosing⟩ := append_colon_ne key.text value.word.text
    simp only [framSetLine, withoutQuotes_leaf, if_neg (not_or.mpr ⟨hnil, hopening⟩),
      if_neg hclosing, if_neg (leaf_no_brace key value.word), spaced_append, indented, shown]
  node d key := by
    obtain ⟨hnil, hopening, hclosing⟩ := append_colon_ne key.text ['{']
    have hsuffix : [':', '{'] <:+ key.text ++ [':', '{'] := List.suffix_append _ _
    simp only [framSetLine, withoutQuotes_node, if_neg (not_or.mpr ⟨hnil, hopening⟩),
      if_neg hclosing, if_pos hsuffix, node_dropLast, List.dropLast_concat, indented, ite_not]

/-! ## A text that is in a reply -/

theorem infix_joined_cons {word : Text} (hcomma : ',' ∉ word) (hne : word ≠ []) (text : Text)
    (texts : List Text) :
    word <:+: joined (text :: texts) ↔ word <:+: text ∨ word <:+: joined texts := by
  cases texts with
  | nil =>
      have halone : joined [text] = text := List.intercalate_singleton
      rw [halone]
      exact (or_iff_left fun h => hne (List.infix_nil.mp h)).symm
  | cons next texts =>
      have hcut : joined (text :: next :: texts) = text ++ ',' :: joined (next :: texts) :=
        List.intercalate_cons_cons.trans (List.append_assoc text [','] _)
      rw [hcut, infix_append_cons_iff hcomma]

theorem infix_object_end {word : Text} (hclosing : '}' ∉ word) (hne : word ≠ []) (inside : Text) :
    word <:+: inside ++ ['}'] ↔ word <:+: inside := by
  rw [infix_append_cons_iff hclosing]
  exact or_iff_left fun h => hne (List.infix_nil.mp h)

/-- The name of an object, the colon and the brace. -/
theorem quoted_suffix_iff (text : Text) (key : Word) (h : '"' ∉ text) :
    quoted text ++ [':'] <:+ quoted key.text ++ [':'] ↔ key.text = text := by
  rw [List.suffix_append_self_iff, quoted, quoted, List.suffix_cons_iff, ← List.cons_append,
    List.suffix_append_self_iff]
  constructor
  · rintro (heq | hsuffix)
    · exact (List.append_cancel_right (List.cons.inj heq).2).symm
    · exact absurd (hsuffix.subset List.mem_cons_self) (key.not_mem rfl)
  · rintro rfl
    exact Or.inl rfl

/-- An object with the name `data`. -/
def Members.hasData : Members → Bool
  | .none => false
  | .leaf _ _ rest => rest.hasData
  | .node key children rest => key.text == "data".toList || children.hasData || rest.hasData

theorem dataText_infix_joined (members : Members) :
    dataText <:+: joined members.texts ↔ members.hasData = true := by
  induction members with
  | none => exact iff_of_false (by decide) Bool.false_ne_true
  | leaf key value rest ih =>
      have hleaf : ¬ dataText <:+: quoted key.text ++ ':' :: value.text := fun hin =>
        (unbroken_leaf key value _ (hin.subset (by decide : '{' ∈ dataText))).1 rfl
      rw [Members.texts, infix_joined_cons (by decide) (by decide), ih, Members.hasData]
      exact or_iff_right hleaf
  | node key children rest ihchildren ihrest =>
      have hword : '{' ∉ quoted "data".toList ++ [':'] := by decide
      have hkey : '{' ∉ quoted key.text ++ [':'] := fun hmem =>
        ((unbroken_quoted key.unbroken).append unbroken_colon _ hmem).1 rfl
      have hcut := infix_append_mark_iff hword hkey (joined children.texts ++ ['}'])
      rw [List.append_assoc, List.append_assoc, quoted_suffix_iff _ key (by decide)] at hcut
      rw [Members.texts, infix_joined_cons (by decide) (by decide), ihrest, Members.hasData,
        Bool.or_eq_true, Bool.or_eq_true, beq_iff_eq, ← ihchildren]
      refine or_congr_left (hcut.trans (or_congr_right ?_))
      exact infix_object_end (by decide) (by decide) _

theorem dataText_infix_reply (members : Members) :
    dataText <:+: reply members ↔ members.hasData = true := by
  rw [reply, List.infix_cons_iff, infix_object_end (by decide) (by decide), dataText_infix_joined]
  exact or_iff_right fun hprefix => absurd (List.cons_prefix_cons.mp hprefix).1 (by decide)

/-- A member `success` that begins with `true`. -/
def Members.succeeds : Members → Bool
  | .none => false
  | .leaf key value rest =>
      key.text == "success".toList && "true".toList.isPrefixOf value.text || rest.succeeds
  | .node _ children rest => children.succeeds || rest.succeeds

theorem Scalar.no_colon (value : Scalar) : ':' ∉ value.text := by
  rw [Scalar.text]
  split
  · rw [quoted, List.mem_cons, List.mem_append, not_or, not_or]
    exact ⟨by decide, value.word.not_mem rfl, by decide⟩
  · exact value.word.not_mem rfl

theorem Word.quoted_no_colon (key : Word) : ':' ∉ quoted key.text :=
  Scalar.no_colon ⟨key, true⟩

theorem quoted_suffix_quoted_iff (text : Text) (key : Word) (h : '"' ∉ text) :
    quoted text <:+ quoted key.text ↔ key.text = text :=
  List.suffix_append_self_iff.symm.trans (quoted_suffix_iff text key h)

theorem successText_infix_joined (members : Members) :
    successText <:+: joined members.texts ↔ members.succeeds = true := by
  induction members with
  | none => exact iff_of_false (by decide) Bool.false_ne_true
  | leaf key value rest ih =>
      have haround := infix_around_mark_iff key.quoted_no_colon value.no_colon
        (quoted "success".toList) "true".toList
      rw [quoted_suffix_quoted_iff _ key (by decide)] at haround
      rw [Members.texts, infix_joined_cons (by decide) (by decide), ih, Members.succeeds,
        Bool.or_eq_true, Bool.and_eq_true, beq_iff_eq, List.isPrefixOf_iff_prefix]
      exact or_congr_left haround
  | node key children rest ihchildren ihrest =>
      have haround := infix_around_mark_iff key.quoted_no_colon List.not_mem_nil
        (quoted "success".toList) "true".toList
      have hkey : ¬ successText <:+: quoted key.text ++ [':'] := fun hin =>
        absurd (haround.mp hin).2 (by decide)
      have hbrace : '{' ∉ successText := by decide
      have hcut := infix_append_cons_iff hbrace (quoted key.text ++ [':'])
        (joined children.texts ++ ['}'])
      rw [List.append_assoc] at hcut
      rw [Members.texts, infix_joined_cons (by decide) (by decide), ihrest, Members.succeeds,
        Bool.or_eq_true, ← ihchildren]
      refine or_congr_left (hcut.trans ((or_iff_right hkey).trans ?_))
      exact infix_object_end (by decide) (by decide) _

theorem successText_infix_reply (members : Members) :
    successText <:+: reply members ↔ members.succeeds = true := by
  rw [reply, List.infix_cons_iff, infix_object_end (by decide) (by decide),
    successText_infix_joined]
  exact or_iff_right fun hprefix => absurd (List.cons_prefix_cons.mp hprefix).1 (by decide)

/-! ## What the tools make of a reply -/

/-- A reply of any shape is printed member by member.  `fram-set` shows it as it is when there is
no object `data`, and `mram put` when nothing succeeded. -/
theorem tools_show (members : Members) :
    framGetPrints (reply members) =
        members.outline (flat "ERROR: see raw response below".toList (reply members)) () ∧
      mramPrints (reply members) = members.outline (flat "ERROR:".toList (reply members)) () ∧
        framSetEnds (reply members) =
            (if members.hasData then (0, members.outline indented 0) else (1, [reply members])) ∧
          mramPutEnds (reply members) =
            (if members.succeeds then (0, mramPrints (reply members))
              else (1, [reply members])) := by
  refine ⟨(prettyLine_draws _ _).prints members (), (prettyLine_draws _ _).prints members (),
    ?_, ?_⟩
  · rw [framSetEnds, printedIf, framSetPrints, framSetLine_draws.prints]
    simp only [dataText_infix_reply]
  · rw [mramPutEnds, printedIf]
    simp only [successText_infix_reply]

/-! ## Errors -/

def Members.keys : Members → List Text
  | .none => []
  | .leaf key _ rest => key.text :: rest.keys
  | .node key children rest => key.text :: (children.keys ++ rest.keys)

theorem error_mem_leaf (raw : Text) (key value : Word) :
    "ERROR:".toList ∈ (flat "ERROR:".toList raw).leaf () key value ↔
      "errors".toList = key.text := by
  simp only [flat]
  split
  · next herrors => exact iff_of_true List.mem_cons_self herrors.symm
  · next herrors =>
      refine iff_of_false (fun hmem => ?_) (Ne.symm herrors)
      exact absurd (List.cons.inj (List.mem_singleton.mp hmem)).1 (by decide)

theorem error_mem_node (raw : Text) {key : Word} (h : "ERROR".toList ≠ key.text) :
    "ERROR:".toList ∈ (flat "ERROR:".toList raw).node () key ↔ "errors".toList = key.text := by
  simp only [flat]
  split
  · next herrors => exact iff_of_true List.mem_cons_self herrors.symm
  · next herrors =>
      refine iff_of_false (fun hmem => ?_) (Ne.symm herrors)
      split at hmem
      · cases hmem
      · have heq : "ERROR".toList ++ [':'] = key.text ++ [':'] := List.mem_singleton.mp hmem
        exact h (List.append_cancel_right heq)

theorem error_mem_outline (raw : Text) {members : Members} (h : "ERROR".toList ∉ members.keys) :
    "ERROR:".toList ∈ members.outline (flat "ERROR:".toList raw) () ↔
      "errors".toList ∈ members.keys := by
  induction members with
  | none => exact iff_of_false List.not_mem_nil List.not_mem_nil
  | leaf key value rest ih =>
      rw [Members.keys, List.mem_cons, not_or] at h
      rw [Members.outline, Members.keys, List.mem_append, List.mem_cons, error_mem_leaf, ih h.2]
  | node key children rest ihchildren ihrest =>
      rw [Members.keys, List.mem_cons, not_or, List.mem_append, not_or] at h
      rw [Members.outline, Members.keys, List.mem_append, List.mem_append, List.mem_cons,
        List.mem_append, error_mem_node raw h.1, ihchildren h.2.1, ihrest h.2.2, or_assoc]

/-- `mram` reports an error for every reply with a member `errors`, also when that says nothing
went wrong.  `put`, `rm` and `format` ask for that member. -/
theorem mramPrints_error_iff {members : Members} (h : "ERROR".toList ∉ members.keys) :
    "ERROR:".toList ∈ mramPrints (reply members) ↔ "errors".toList ∈ members.keys := by
  rw [mramPrints, printed, (prettyLine_draws _ _).prints]
  exact error_mem_outline _ h

/-- The reply to `mram rm` when the file is gone. -/
def deleted : Members :=
  .node dataWord
    (.node ⟨"deleteFile".toList, rfl⟩
      (.leaf ⟨"success".toList, rfl⟩ ⟨trueWord, false⟩
        (.leaf ⟨"errors".toList, rfl⟩ ⟨⟨[], rfl⟩, true⟩
          (.leaf ⟨"deleted".toList, rfl⟩ ⟨trueWord, false⟩ .none)))
      .none)
    .none

theorem mramPrints_error_deleted :
    "ERROR:".toList ∈ mramPrints (reply deleted) ↔ "errors".toList ∈ deleted.keys :=
  mramPrints_error_iff (by decide)

/-! ## Words that scripts look for -/

/-- `$2` of a line, with `-F': '` -/
def secondField (line : Text) : Text :=
  match (cutAt [':', ' '] line).2 with
  | some rest => (cutAt [':', ' '] rest).1
  | none => []

/-- `awk -F': ' '/word:/{print $2; exit}'` -/
def awkField (word : Text) (lines : List Text) : Option Text :=
  (lines.find? fun line => decide (word ++ [':'] <:+: line)).map secondField

/-- The first member with a name that ends in the word, an object counting as empty. -/
def Members.field (word : Text) : Members → Option Text
  | .none => Option.none
  | .leaf key value rest => if word <:+ key.text then some value.word.text else rest.field word
  | .node key children rest =>
      (if word <:+ key.text ∧ key.text ≠ "data".toList then some [] else children.field word).or
        (rest.field word)

theorem awkField_append (word : Text) (lines more : List Text) :
    awkField word (lines ++ more) = (awkField word lines).or (awkField word more) := by
  rw [awkField, List.find?_append, Option.map_or]
  rfl

theorem secondField_shown (before : Text) (value : Word) (h : ':' ∉ before) :
    secondField (before ++ ':' :: ' ' :: value.text) = value.text := by
  have hcut : cutAt [':', ' '] (before ++ ':' :: ' ' :: value.text) = (before, some value.text) :=
    cutAt_append h [' '] value.text
  rw [secondField, hcut]
  exact congrArg Prod.fst (cutAt_of_not_mem (value.not_mem rfl) [' '])

theorem awkField_leaf {word : Text} (hword : ' ' ∉ word) {header raw : Text} {key : Word}
    (herrors : "errors".toList ≠ key.text) (value : Word) :
    awkField word ((flat header raw).leaf () key value) =
      if word <:+ key.text then some value.text else none := by
  have hcolon : ':' ∉ ' ' :: ' ' :: key.text := by
    simp only [List.mem_cons, not_or]
    exact ⟨by decide, by decide, key.not_mem rfl⟩
  have hvalue : ':' ∉ ' ' :: value.text := by
    rw [List.mem_cons, not_or]
    exact ⟨by decide, value.not_mem rfl⟩
  have hsuffix : word <:+ ' ' :: ' ' :: key.text ↔ word <:+ key.text := by
    rw [List.suffix_cons_iff, List.suffix_cons_iff]
    refine (or_iff_right ?_).trans (or_iff_right ?_)
    · rintro rfl
      exact hword List.mem_cons_self
    · rintro rfl
      exact hword List.mem_cons_self
  have hline : word ++ [':'] <:+: ' ' :: ' ' :: shown key value ↔ word <:+ key.text :=
    (infix_mark_iff hcolon hvalue word).trans hsuffix
  have hsecond := secondField_shown (' ' :: ' ' :: key.text) value hcolon
  simp only [awkField, flat, if_neg (Ne.symm herrors), List.find?_singleton, hline,
    decide_eq_true_eq]
  split
  · exact congrArg some hsecond
  · rfl

theorem awkField_node (word : Text) {header raw : Text} {key : Word}
    (herrors : "errors".toList ≠ key.text) :
    awkField word ((flat header raw).node () key) =
      if word <:+ key.text ∧ key.text ≠ "data".toList then some [] else none := by
  have hline : word ++ [':'] <:+: key.text ++ [':'] ↔ word <:+ key.text :=
    infix_mark_iff (key.not_mem rfl) List.not_mem_nil word
  have hsecond : secondField (key.text ++ [':']) = [] := by
    rw [secondField, cutAt_concat (key.not_mem rfl)]
  simp only [flat, if_neg (Ne.symm herrors)]
  by_cases hdata : key.text = "data".toList
  · rw [if_pos hdata, if_neg fun h => h.2 hdata]
    rfl
  · simp only [if_neg hdata, awkField, List.find?_singleton, hline, decide_eq_true_eq]
    by_cases hsuffix : word <:+ key.text
    · rw [if_pos hsuffix, if_pos ⟨hsuffix, hdata⟩]
      exact congrArg some hsecond
    · rw [if_neg hsuffix, if_neg fun h => hsuffix h.1]
      rfl

/-- Looking for a word in the printed lines is looking for a member. -/
theorem awkField_outline {word : Text} (hword : ' ' ∉ word) {header raw : Text}
    {members : Members} (h : "errors".toList ∉ members.keys) :
    awkField word (members.outline (flat header raw) ()) = members.field word := by
  induction members with
  | none => rfl
  | leaf key value rest ih =>
      rw [Members.keys, List.mem_cons, not_or] at h
      rw [Members.outline, Members.field, awkField_append, awkField_leaf hword h.1, ih h.2]
      split <;> rfl
  | node key children rest ihchildren ihrest =>
      rw [Members.keys, List.mem_cons, not_or, List.mem_append, not_or] at h
      rw [Members.outline, Members.field, awkField_append, awkField_append, awkField_node word h.1,
        ihrest h.2.2]
      split
      · rfl
      · exact congrArg (Option.or · _) (ihchildren h.2.1)

theorem awkField_framGetPrints {word : Text} (hword : ' ' ∉ word) {members : Members}
    (h : "errors".toList ∉ members.keys) :
    awkField word (framGetPrints (reply members)) = members.field word := by
  rw [framGetPrints, printed, (prettyLine_draws _ _).prints, awkField_outline hword h]

end RadsatLinux.Services.Replies
